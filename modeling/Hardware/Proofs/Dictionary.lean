import Hardware.Attr.Canonical
import Hardware.Proofs.KeyOrder
import Mathlib

/-!
Dictionaries made of entries in any order. The entries are sorted before neighbours are
compared, so two entries that share a key are found however far apart they were given. What is
made lists its entries in the only order that there is for them, so it stands for their
collection and not for the list.
-/
namespace Hardware

namespace Attr

variable {es fs : List (Ident × Attr)}

theorem ofEntries_ok (distinct : (es.map Prod.fst).Nodup) :
    ofEntries es = .ok (.dict (sortByKey Prod.fst es)) := by
  have sorted : ((sortByKey Prod.fst es).map Prod.fst).Nodup :=
    ((reordered_sortByKey Prod.fst es).perm.map Prod.fst).nodup distinct
  unfold ofEntries
  simp only [firstRepeated_eq_none sorted]
  rfl

/-- Strictly ascending keys. -/
def Ascending (es : List (Ident × Attr)) : Prop := es.Pairwise fun a b => a.1 < b.1

/-- There is one way only to list entries so that the keys ascend. -/
theorem Ascending.eq_of_perm (he : Ascending es) (hf : Ascending fs) (perm : es.Perm fs) :
    es = fs :=
  perm.eq_of_pairwise (fun _ _ _ _ before after => absurd before after.asymm) he hf

/-- Entries that can be listed so that the keys ascend share no key. -/
theorem Ascending.repeatedKeys_eq_empty (he : Ascending es) (perm : es.Perm fs) :
    repeatedKeys Prod.fst fs = ∅ := by
  rw [← repeatedKeys_perm perm, repeatedKeys_eq_empty_iff]
  exact List.pairwise_map.mpr (he.imp fun before => before.ne)

theorem Ascending.not_isLeast (he : Ascending es) (perm : es.Perm fs) {key : Ident} :
    ¬ IsLeast (repeatedKeys Prod.fst fs) key := by
  intro least
  have shared := least.1
  rw [he.repeatedKeys_eq_empty perm] at shared
  exact shared

/-- What comes of the entries `es`: a dictionary of them, or the refusal of the least key that
two of them share. -/
inductive Makes (es : List (Ident × Attr)) : Except Error Attr → Prop
  | dict {ds : List (Ident × Attr)} (ascending : Ascending ds) (perm : ds.Perm es) :
      Makes es (.ok (.dict ds))
  | refused {key : Ident} (least : IsLeast (repeatedKeys Prod.fst es) key) :
      Makes es (.error (.structural (.repeatedKey key)))

theorem makes_ofEntries (es : List (Ident × Attr)) : Makes es (ofEntries es) := by
  have perm := (reordered_sortByKey Prod.fst es).perm
  have sorted := pairwise_sortByKey Prod.fst es
  cases found : firstRepeated Prod.fst (sortByKey Prod.fst es) with
  | none =>
      have made : ofEntries es = .ok (.dict (sortByKey Prod.fst es)) := by
        simp only [ofEntries, found]
        rfl
      rw [made]
      exact .dict (pairwise_lt_of_firstRepeated sorted found) perm.symm
  | some key =>
      have refused : ofEntries es = .error (.structural (.repeatedKey key)) := by
        simp only [ofEntries, found]
        rfl
      have least := isLeast_firstRepeated sorted found
      rw [← repeatedKeys_perm perm] at least
      rw [refused]
      exact .refused least

namespace Makes

variable {r r' : Except Error Attr}

theorem of_perm (h : Makes es r) (perm : fs.Perm es) : Makes fs r := by
  cases h with
  | dict ascending listed => exact .dict ascending (listed.trans perm.symm)
  | refused least => exact .refused (repeatedKeys_perm perm ▸ least)

theorem unique (h : Makes es r) (h' : Makes es r') : r = r' := by
  cases h with
  | dict ascending perm =>
      cases h' with
      | dict ascending' perm' => rw [ascending.eq_of_perm ascending' (perm.trans perm'.symm)]
      | refused least => exact absurd least (ascending.not_isLeast perm)
  | refused least =>
      cases h' with
      | dict ascending perm => exact absurd least (ascending.not_isLeast perm)
      | refused least' => rw [least.unique least']

end Makes

/-- The refusal has neither location nor note, so its text is the message alone. -/
theorem text_repeatedKey (key : Ident) :
    (Error.structural (.repeatedKey key)).text = "Multiple entries for dictionary key: " ++ key := by
  have shown : (Error.structural (.repeatedKey key)).text =
      "" ++ ("Multiple entries for dictionary key: " ++ key) ++ "" := rfl
  rw [shown, String.append_empty, String.empty_append]

/-- Entries make a dictionary unless two of them share a key, and then the least such key is
named. The dictionary has the given entries under ascending keys, and any other list makes the
same one just if it is a reordering. -/
theorem ofEntries_canonical (es : List (Ident × Attr)) :
    ((∃ e, ofEntries es = .error e) ↔ (repeatedKeys Prod.fst es).Nonempty) ∧
      (∀ e, ofEntries es = .error e → ∃ key, IsLeast (repeatedKeys Prod.fst es) key ∧
        e = .structural (.repeatedKey key) ∧
          e.text = "Multiple entries for dictionary key: " ++ key) ∧
      (repeatedKeys Prod.fst es = ∅ → ∃ ds, ofEntries es = .ok (.dict ds) ∧ Ascending ds ∧
        ds.Perm es ∧ ∀ fs, ofEntries fs = .ok (.dict ds) ↔ fs.Perm es) ∧
      ∀ fs, fs.Perm es → ofEntries fs = ofEntries es := by
  -- What comes of the entries is settled by their collection, whether they make a dictionary or not.
  have same : ∀ fs, fs.Perm es → ofEntries fs = ofEntries es := fun fs perm =>
    (makes_ofEntries fs).unique ((makes_ofEntries es).of_perm perm)
  have made := makes_ofEntries es
  generalize ofEntries es = r at made same
  cases made with
  | @dict ds ascending perm =>
      have distinct := ascending.repeatedKeys_eq_empty perm
      refine ⟨by simp [distinct], by simp, fun _ => ⟨ds, rfl, ascending, perm, fun fs => ?_⟩, same⟩
      refine ⟨fun h => ?_, same fs⟩
      have listed := makes_ofEntries fs
      rw [h] at listed
      cases listed with
      | dict _ again => exact again.symm.trans perm
  | @refused key least =>
      have shared : (repeatedKeys Prod.fst es).Nonempty := ⟨key, least.1⟩
      refine ⟨⟨fun _ => shared, fun _ => ⟨_, rfl⟩⟩, ?_, fun distinct => ?_, same⟩
      · rintro e h
        cases h
        exact ⟨key, least, rfl, text_repeatedKey key⟩
      · exact absurd distinct shared.ne_empty

end Attr

namespace Sample

def shape : List (Ident × Attr) := [("width", .int 8), ("signed", .bool false)]

/-- Two keys occur twice, and the least of these is not the first that occurs again. -/
def scattered : List (Ident × Attr) :=
  [("width", .int 8), ("depth", .int 4), ("width", .int 8), ("signed", .bool true),
    ("depth", .int 2)]

theorem shape_made_scattered_refused :
    repeatedKeys Prod.fst shape = ∅ ∧ shape.reverse.Perm shape ∧
      (∃ ds, Attr.ofEntries shape = .ok (.dict ds) ∧
        Attr.ofEntries shape.reverse = .ok (.dict ds)) ∧
      Attr.ofEntries scattered = .error (.structural (.repeatedKey "depth")) ∧
        IsLeast (repeatedKeys Prod.fst scattered) "depth" := by
  have distinct : repeatedKeys Prod.fst shape = ∅ := repeatedKeys_eq_empty_iff.mpr (by decide)
  have perm := shape.reverse_perm
  have refused : Attr.ofEntries scattered = .error (.structural (.repeatedKey "depth")) := by
    decide +kernel
  obtain ⟨-, -, made, same⟩ := Attr.ofEntries_canonical shape
  obtain ⟨ds, listed, -⟩ := made distinct
  obtain ⟨-, named, -⟩ := Attr.ofEntries_canonical scattered
  obtain ⟨key, least, error, -⟩ := named _ refused
  obtain rfl : "depth" = key := by simpa [Error.structural] using error
  exact ⟨distinct, perm, ⟨ds, listed, (same _ perm).trans listed⟩, refused, least⟩

end Sample

end Hardware
