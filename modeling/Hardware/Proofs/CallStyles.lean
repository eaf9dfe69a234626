import Hardware.Proofs.Signature

/-!
Which calls bind, and the ways to pass the same values. A call fails just if it has too many
arguments by position, names a parameter that does not exist, gives one twice, or leaves out one
that has no default. What is bound depends on the values alone: how many of them stand by position,
in which order the others are named, and whether a default is spelled out makes no difference.
-/
namespace Hardware

/-- A call that binds. -/
structure Signature.Accepts (s : Signature) (args : Args) : Prop where
  room : args.positional.length ≤ s.params.length
  known : ∀ arg ∈ args.keyword, arg.1 ∈ s.names
  once : ∀ arg ∈ args.keyword, arg.1 ∉ s.names.take args.positional.length
  named_once : (args.keyword.map Prod.fst).Nodup
  complete : ∀ (i : Nat) (p : Param), s.params[i]? = some p → args.positional.length ≤ i →
    p.name ∉ args.keyword.map Prod.fst → p.default?.isSome

/-- A way to pass `values`, one for each parameter: some first ones by position, others by name,
and those that are left out are the defaults. -/
structure Signature.Passes (s : Signature) (values : List Attr) (args : Args) : Prop where
  size : values.length = s.params.length
  leading : args.positional = values.take args.positional.length
  named : ∀ arg ∈ args.keyword, ∃ (i : Nat) (p : Param), args.positional.length ≤ i ∧
    s.params[i]? = some p ∧ arg.1 = p.name ∧ values[i]? = some arg.2
  named_once : (args.keyword.map Prod.fst).Nodup
  omitted : ∀ (i : Nat) (p : Param), s.params[i]? = some p → args.positional.length ≤ i →
    p.name ∉ args.keyword.map Prod.fst → p.default? = values[i]?

namespace Signature

variable {s : Signature} {args : Args} {b : BoundArgs}

/-- The argument is for a parameter whose slot is free. -/
def HasRoom (s : Signature) (slots : List (Option Attr)) (arg : Ident × Attr) : Prop :=
  ∃ (i : Nat) (p : Param), s.params[i]? = some p ∧ p.name = arg.1 ∧ (slots[i]?).join = none

theorem index?_eq (distinct : s.names.Nodup) {k : Ident} {i : Nat} {p : Param}
    (hp : s.params[i]? = some p) (named : p.name = k) :
    (s.params.findIdx? fun p => p.name = k) = some i := by
  obtain ⟨lt, here⟩ := List.getElem?_eq_some_iff.mp hp
  apply List.findIdx?_eq_some_iff_getElem.mpr
  refine ⟨lt, by simpa [here] using named, ?_⟩
  intro j before same
  have hq := List.getElem?_eq_getElem (before.trans lt)
  have again := index_of_name distinct hq hp (by simpa [named] using same)
  omega

theorem place_of_hasRoom (distinct : s.names.Nodup) {slots : List (Option Attr)}
    {arg : Ident × Attr} (room : s.HasRoom slots arg) :
    ∃ (i : Nat) (p : Param), s.params[i]? = some p ∧ p.name = arg.1 ∧
      s.place slots arg = .ok (slots.set i (some arg.2)) := by
  obtain ⟨i, p, hp, named, free⟩ := room
  refine ⟨i, p, hp, named, ?_⟩
  unfold place
  rw [index?_eq distinct hp named]
  simp only [free]
  rfl

/-- Once an argument is placed there is no more room for another of its name, and as much as before
for all others. -/
theorem hasRoom_set (distinct : s.names.Nodup) {slots : List (Option Attr)}
    (size : slots.length = s.params.length) {i : Nat} {p : Param} (hp : s.params[i]? = some p)
    (v : Attr) (arg : Ident × Attr) :
    s.HasRoom (slots.set i (some v)) arg ↔ arg.1 ≠ p.name ∧ s.HasRoom slots arg := by
  have lt : i < slots.length := size ▸ (List.getElem?_eq_some_iff.mp hp).1
  constructor
  · rintro ⟨j, q, hq, named, free⟩
    have other : i ≠ j := by
      rintro rfl
      rw [List.getElem?_set_self lt] at free
      cases free
    rw [List.getElem?_set_ne other] at free
    refine ⟨?_, j, q, hq, named, free⟩
    intro same
    exact other (index_of_name distinct hp hq (same.symm.trans named.symm))
  · rintro ⟨fresh, j, q, hq, named, free⟩
    have other : i ≠ j := by
      rintro rfl
      rw [hp] at hq
      cases hq
      exact fresh named.symm
    exact ⟨j, q, hq, named, by rwa [List.getElem?_set_ne other]⟩

/-- The keyword arguments all find their slots just if there is room for each of them and no two
have one name. -/
theorem placed_iff (distinct : s.names.Nodup) {keyword : List (Ident × Attr)} :
    ∀ {slots : List (Option Attr)}, slots.length = s.params.length →
      ((∃ slots', keyword.foldlM s.place slots = .ok slots') ↔
        (∀ arg ∈ keyword, s.HasRoom slots arg) ∧ (keyword.map Prod.fst).Nodup) := by
  induction keyword with
  | nil =>
      intro slots size
      refine ⟨fun _ => ⟨?_, List.nodup_nil⟩, fun _ => ⟨slots, rfl⟩⟩
      intro arg h
      cases h
  | cons arg rest ih =>
      intro slots size
      rw [List.foldlM_cons, List.forall_mem_cons, List.map_cons, List.nodup_cons]
      constructor
      · rintro ⟨slots', h⟩
        cases hm : s.place slots arg with
        | error e =>
            rw [hm] at h
            cases h
        | ok mid =>
            rw [hm] at h
            obtain ⟨i, p, hp, named, free, rfl⟩ := place_ok hm
            obtain ⟨room, apart⟩ := (ih (by simpa using size)).mp ⟨slots', h⟩
            have others (arg' : Ident × Attr) (h' : arg' ∈ rest) :=
              (hasRoom_set distinct size hp arg.2 arg').mp (room arg' h')
            refine ⟨⟨⟨i, p, hp, named, free⟩, fun arg' h' => (others arg' h').2⟩, ?_, apart⟩
            intro again
            obtain ⟨arg', h', same⟩ := List.mem_map.mp again
            exact (others arg' h').1 (same.trans named.symm)
      · rintro ⟨⟨first, room⟩, fresh, apart⟩
        obtain ⟨i, p, hp, named, placed⟩ := place_of_hasRoom distinct first
        rw [placed]
        apply (ih (by simpa using size)).mpr
        refine ⟨?_, apart⟩
        intro arg' h'
        apply (hasRoom_set distinct size hp arg.2 arg').mpr
        refine ⟨?_, room arg' h'⟩
        intro same
        exact fresh (named ▸ same ▸ List.mem_map_of_mem h')

theorem exists_param {k : Ident} {n : Nat} (h : k ∈ s.names.take n) :
    ∃ (i : Nat) (p : Param), i < n ∧ s.params[i]? = some p ∧ p.name = k := by
  obtain ⟨i, hi⟩ := List.mem_iff_getElem?.mp h
  rw [List.getElem?_take] at hi
  split at hi
  · rename_i before
    rw [names, List.getElem?_map] at hi
    obtain ⟨p, hp, named⟩ := Option.map_eq_some_iff.mp hi
    exact ⟨i, p, before, hp, named⟩
  · cases hi

theorem mem_names_take {n i : Nat} {p : Param} (before : i < n) (hp : s.params[i]? = some p) :
    p.name ∈ s.names.take n := by
  apply List.mem_iff_getElem?.mpr
  refine ⟨i, ?_⟩
  rw [List.getElem?_take, if_pos before, names, List.getElem?_map, hp]
  rfl

theorem exists_param_behind {k : Ident} {n : Nat} (known : k ∈ s.names)
    (untaken : k ∉ s.names.take n) :
    ∃ (i : Nat) (p : Param), n ≤ i ∧ s.params[i]? = some p ∧ p.name = k := by
  obtain ⟨p, hp, named⟩ := List.mem_map.mp known
  obtain ⟨i, hi⟩ := List.mem_iff_getElem?.mp hp
  refine ⟨i, p, ?_, hi, named⟩
  by_contra before
  exact untaken (named ▸ mem_names_take (Nat.lt_of_not_le before) hi)

/-- The slots before the first keyword argument is placed. -/
def given (s : Signature) (args : Args) : List (Option Attr) :=
  args.positional.map some ++ List.replicate (s.params.length - args.positional.length) none

theorem length_given (room : args.positional.length ≤ s.params.length) :
    (s.given args).length = s.params.length := by
  rw [given, List.length_append, List.length_map, List.length_replicate]
  omega

/-- At first there is room for all parameters but those that have an argument by position. -/
theorem hasRoom_given (distinct : s.names.Nodup) (arg : Ident × Attr) :
    s.HasRoom (s.given args) arg ↔
      arg.1 ∈ s.names ∧ arg.1 ∉ s.names.take args.positional.length := by
  have free (i : Nat) : ((s.given args)[i]?).join = none ↔ args.positional.length ≤ i := by
    rw [given, getElem?_given]
    exact List.getElem?_eq_none_iff
  constructor
  · rintro ⟨i, p, hp, named, open_⟩
    refine ⟨named ▸ List.mem_map_of_mem (List.mem_of_getElem? hp), ?_⟩
    intro taken
    obtain ⟨j, q, before, hq, named'⟩ := exists_param taken
    have same := index_of_name distinct hp hq (named.trans named'.symm)
    have behind := (free i).mp open_
    omega
  · rintro ⟨known, untaken⟩
    obtain ⟨i, p, behind, hp, named⟩ := exists_param_behind known untaken
    exact ⟨i, p, hp, named, (free i).mpr behind⟩

/-- A call binds as soon as each slot is filled in the end. -/
theorem bind_of_filled {slots : List (Option Attr)}
    (room : args.positional.length ≤ s.params.length)
    (placed : args.keyword.foldlM s.place (s.given args) = .ok slots)
    (all : ∀ e ∈ s.filled slots, e.2.isSome) :
    s.bind args =
      .ok (.ofList ((s.filled slots).filterMap fun e => e.2.map fun v => (e.1, v))) := by
  have complete : ((s.filled slots).filter fun e => e.2.isNone) = [] := by
    apply List.filter_eq_nil_iff.mpr
    intro e he
    simp [Option.isSome_iff_ne_none.mp (all e he)]
  unfold filled at complete
  unfold given at placed
  unfold bind
  simp only [gt_iff_lt, if_neg (not_lt.mpr room), placed, Bind.bind, Except.bind, complete]
  rfl

theorem isSome_supplied {i : Nat} {p : Param} : (args.supplied i p).isSome ↔
    (args.positional.length ≤ i → p.name ∉ args.keyword.map Prod.fst → p.default?.isSome) := by
  have keyword : (args.keyword.lookup p.name).isSome ↔ p.name ∈ args.keyword.map Prod.fst := by
    simp [List.lookup_isSome_iff]
  have supplied : (args.supplied i p).isSome ↔ i < args.positional.length ∨
      (args.keyword.lookup p.name).isSome ∨ p.default?.isSome := by
    simp [Args.supplied]
  rw [supplied, keyword, ← not_le]
  tauto

theorem filled_iff (distinct : s.names.Nodup) {slots : List (Option Attr)}
    (room : args.positional.length ≤ s.params.length)
    (hs : args.keyword.foldlM s.place (s.given args) = .ok slots) :
    (∀ e ∈ s.filled slots, e.2.isSome) ↔
      ∀ (i : Nat) (p : Param), s.params[i]? = some p → (args.supplied i p).isSome := by
  have size := (placed distinct (length_given room) hs).1
  constructor
  · intro all i p hp
    exact all _ (List.mem_of_getElem? (getElem?_filled_supplied distinct room hs hp))
  · intro all e he
    obtain ⟨i, hi⟩ := List.mem_iff_getElem?.mp he
    have lt : i < s.params.length := by
      have bound := (List.getElem?_eq_some_iff.mp hi).1
      simp [filled, size] at bound
      exact bound
    have hp := List.getElem?_eq_getElem lt
    rw [getElem?_filled_supplied distinct room hs hp] at hi
    cases hi
    exact all i _ hp

theorem bind_iff (distinct : s.names.Nodup) : (∃ b, s.bind args = .ok b) ↔ s.Accepts args := by
  constructor
  · rintro ⟨b, h⟩
    obtain ⟨room, slots, hs, all, -⟩ := filled_of_bind h
    obtain ⟨rooms, apart⟩ := (placed_iff distinct (length_given room)).mp ⟨slots, hs⟩
    have found (arg : Ident × Attr) (h : arg ∈ args.keyword) :=
      (hasRoom_given distinct arg).mp (rooms arg h)
    have supplied := (filled_iff distinct room hs).mp all
    exact {
      room := room
      known := fun arg h => (found arg h).1
      once := fun arg h => (found arg h).2
      named_once := apart
      complete := fun i p hp => isSome_supplied.mp (supplied i p hp) }
  · intro accepts
    have rooms : ∀ arg ∈ args.keyword, s.HasRoom (s.given args) arg := by
      intro arg h
      exact (hasRoom_given distinct arg).mpr ⟨accepts.known arg h, accepts.once arg h⟩
    obtain ⟨slots, hs⟩ := (placed_iff distinct (length_given accepts.room)).mpr
      ⟨rooms, accepts.named_once⟩
    have all : ∀ e ∈ s.filled slots, e.2.isSome := by
      apply (filled_iff distinct accepts.room hs).mpr
      intro i p hp
      exact isSome_supplied.mpr (accepts.complete i p hp)
    exact ⟨_, bind_of_filled accepts.room hs all⟩

section Passing

variable {values : List Attr} {i : Nat} {p : Param}

theorem supplied_of_position (given : i < args.positional.length) :
    args.supplied i p = args.positional[i]? := by
  rw [Args.supplied, List.getElem?_eq_getElem given]
  rfl

theorem supplied_of_keyword (named_once : (args.keyword.map Prod.fst).Nodup)
    (behind : args.positional.length ≤ i) {v : Attr} (named : (p.name, v) ∈ args.keyword) :
    args.supplied i p = some v := by
  have found : args.keyword.lookup p.name = some v :=
    OrderedMap.get?_of_mem (m := ⟨args.keyword⟩) named_once named
  rw [Args.supplied, List.getElem?_eq_none behind, found]
  rfl

theorem supplied_of_default (behind : args.positional.length ≤ i)
    (omitted : p.name ∉ args.keyword.map Prod.fst) : args.supplied i p = p.default? := by
  have missing : args.keyword.lookup p.name = none := by
    apply List.lookup_eq_none_iff.mpr
    intro arg h
    have other : p.name ≠ arg.1 := fun same => omitted (same ▸ List.mem_map_of_mem h)
    simpa using other
  rw [Args.supplied, List.getElem?_eq_none behind, missing]
  rfl

theorem passes_iff (distinct : s.names.Nodup) : s.Passes values args ↔
    values.length = s.params.length ∧ s.Accepts args ∧
      ∀ (i : Nat) (p : Param), s.params[i]? = some p → args.supplied i p = values[i]? := by
  constructor
  · intro passes
    have shorter : args.positional.length ≤ values.length := by
      rw [passes.leading, List.length_take]
      exact Nat.min_le_right _ _
    have behind {arg : Ident × Attr} (h : arg ∈ args.keyword) {i : Nat} {p : Param}
        (hp : s.params[i]? = some p) (same : arg.1 = p.name) :
        args.positional.length ≤ i ∧ values[i]? = some arg.2 := by
      obtain ⟨j, q, above, hq, named, value⟩ := passes.named arg h
      obtain rfl := index_of_name distinct hp hq (same.symm.trans named)
      exact ⟨above, value⟩
    refine ⟨passes.size, ?_, ?_⟩
    · exact {
        room := shorter.trans_eq passes.size
        known := by
          intro arg h
          obtain ⟨j, q, -, hq, named, -⟩ := passes.named arg h
          exact named ▸ List.mem_map_of_mem (List.mem_of_getElem? hq)
        once := by
          intro arg h taken
          obtain ⟨i, p, before, hp, named⟩ := exists_param taken
          exact absurd (behind h hp named.symm).1 (Nat.not_le_of_lt before)
        named_once := passes.named_once
        complete := by
          intro i p hp above omitted
          have lt : i < values.length := passes.size ▸ (List.getElem?_eq_some_iff.mp hp).1
          rw [passes.omitted i p hp above omitted, List.getElem?_eq_getElem lt]
          rfl }
    · intro i p hp
      by_cases before : i < args.positional.length
      · rw [supplied_of_position before, passes.leading, List.getElem?_take, if_pos before]
      · have above := Nat.le_of_not_lt before
        by_cases omitted : p.name ∈ args.keyword.map Prod.fst
        · obtain ⟨arg, h, same⟩ := List.mem_map.mp omitted
          rw [(behind h hp same).2]
          exact supplied_of_keyword passes.named_once above (same ▸ h)
        · rw [supplied_of_default above omitted, passes.omitted i p hp above omitted]
  · rintro ⟨size, accepts, supplied⟩
    exact {
      size := size
      leading := by
        apply List.ext_getElem?
        intro i
        rw [List.getElem?_take]
        split
        · rename_i before
          have hp := List.getElem?_eq_getElem (before.trans_le accepts.room)
          rw [← supplied i _ hp, supplied_of_position before]
        · rename_i above
          exact List.getElem?_eq_none (Nat.le_of_not_lt above)
      named := by
        intro arg h
        obtain ⟨i, p, behind, hp, named⟩ :=
          exists_param_behind (accepts.known arg h) (accepts.once arg h)
        refine ⟨i, p, behind, hp, named.symm, ?_⟩
        rw [← supplied i p hp]
        exact supplied_of_keyword accepts.named_once behind (named ▸ h)
      named_once := accepts.named_once
      omitted := by
        intro i p hp above omitted
        rw [← supplied i p hp, supplied_of_default above omitted] }

/-- The entries of a call that binds are the names of the parameters with what it supplies. -/
theorem entries_of_bind (distinct : s.names.Nodup) (size : values.length = s.params.length)
    (supplied : ∀ (i : Nat) (p : Param), s.params[i]? = some p →
      args.supplied i p = values[i]?) (h : s.bind args = .ok b) :
    b.entries = s.names.zip values := by
  obtain ⟨keys, entries⟩ := bind_ok distinct h
  have length : b.entries.length = s.params.length := by
    simpa [names] using congrArg List.length keys
  apply List.ext_getElem?
  intro i
  by_cases lt : i < s.params.length
  · have hp := List.getElem?_eq_getElem lt
    have hv := List.getElem?_eq_getElem (size.symm ▸ lt : i < values.length)
    rw [entries i _ hp, supplied i _ hp, hv]
    simp [names, List.zip, List.getElem?_zipWith, hp, hv]
  · have beyond := Nat.le_of_not_lt lt
    rw [List.getElem?_eq_none (length ▸ beyond), List.getElem?_eq_none]
    simp [names, size, beyond]

theorem Passes.bind (distinct : s.names.Nodup) (passes : s.Passes values args) :
    s.bind args = .ok (.ofList (s.names.zip values)) := by
  obtain ⟨size, accepts, supplied⟩ := (passes_iff distinct).mp passes
  obtain ⟨⟨es⟩, h⟩ := (bind_iff distinct).mpr accepts
  obtain rfl : es = s.names.zip values := entries_of_bind distinct size supplied h
  have keys : ((s.names.zip values).map Prod.fst).Nodup := (bind_ok distinct h).1.symm ▸ distinct
  have same : (⟨s.names.zip values⟩ : BoundArgs) = .ofList (s.names.zip values) :=
    congrArg OrderedMap.mk (OrderedMap.entries_ofList keys).symm
  rw [h, same]

theorem passes_of_bind (distinct : s.names.Nodup) (h : s.bind args = .ok b) :
    s.Passes (b.entries.map Prod.snd) args := by
  obtain ⟨keys, entries⟩ := bind_ok distinct h
  have accepts := (bind_iff distinct).mp ⟨b, h⟩
  have length : b.entries.length = s.params.length := by
    simpa [names] using congrArg List.length keys
  apply (passes_iff distinct).mpr
  refine ⟨by rw [List.length_map, length], accepts, ?_⟩
  intro i p hp
  rw [List.getElem?_map, entries i p hp, Option.map_map]
  exact Option.map_id'.symm

end Passing

/-- Binding is exact, and independent of the way in which values are passed. -/
theorem binds_exactly (distinct : s.names.Nodup) (args : Args) :
    ((∃ b, s.bind args = .ok b) ↔ s.Accepts args) ∧
      (∀ b, s.bind args = .ok b → b.keys = s.names ∧ s.Passes (b.entries.map Prod.snd) args ∧
        ∀ (i : Nat) (p : Param), s.params[i]? = some p → ∃ v, args.supplied i p = some v ∧
          b.entries[i]? = some (p.name, v)) ∧
      ∀ values, s.Passes values args → s.bind args = .ok (.ofList (s.names.zip values)) ∧
        ∀ args', s.Passes values args' → s.bind args' = s.bind args := by
  refine ⟨bind_iff distinct, ?_, ?_⟩
  · intro b h
    refine ⟨keys_of_bind distinct h, passes_of_bind distinct h, ?_⟩
    intro i p hp
    have supplied := isSome_supplied.mpr (((bind_iff distinct).mp ⟨b, h⟩).complete i p hp)
    obtain ⟨v, hv⟩ := Option.isSome_iff_exists.mp supplied
    refine ⟨v, hv, ?_⟩
    rw [(bind_ok distinct h).2 i p hp, hv]
    rfl
  · intro values passes
    refine ⟨passes.bind distinct, ?_⟩
    intro args' passes'
    rw [passes.bind distinct, passes'.bind distinct]

end Signature

namespace Sample

/-- The width by position and the rest left out, or all of them by name in another order. -/
def brief : Args := { positional := [.int 8] }

def spelledOut : Args :=
  { keyword := [("_tag", .unit), ("width", .int 8), ("options", .dict [])] }

theorem spelled_out_as_brief : signature.bind spelledOut = signature.bind brief := by
  have distinct : signature.names.Nodup := by decide
  have passes : signature.Passes [.int 8, .dict [], .unit] brief := {
    size := rfl
    leading := rfl
    named := nofun
    named_once := List.nodup_nil
    omitted := by
      intro i p hp behind _
      obtain ⟨lt, rfl⟩ := List.getElem?_eq_some_iff.mp hp
      match i, behind, lt with
      | 1, _, _ => rfl
      | 2, _, _ => rfl }
  have passes' : signature.Passes [.int 8, .dict [], .unit] spelledOut := {
    size := rfl
    leading := rfl
    named := by
      intro arg h
      simp only [spelledOut, List.mem_cons, List.not_mem_nil, or_false] at h
      rcases h with rfl | rfl | rfl
      · exact ⟨2, _, Nat.zero_le _, rfl, rfl, rfl⟩
      · exact ⟨0, _, Nat.zero_le _, rfl, rfl, rfl⟩
      · exact ⟨1, _, Nat.zero_le _, rfl, rfl, rfl⟩
    named_once := by decide
    omitted := by
      intro i p hp _ missing
      refine absurd ?_ missing
      have known : p ∈ signature.params := List.mem_of_getElem? hp
      simp only [signature, List.mem_cons, List.not_mem_nil, or_false] at known
      rcases known with rfl | rfl | rfl <;> decide }
  exact ((Signature.binds_exactly distinct brief).2.2 _ passes).2 _ passes'

end Sample

end Hardware
