import Hardware.Ident
import Mathlib

/-!
Laws of the sort by key. It moves no element past another one with the same key, and lists
that differ only in such moves are sorted into the same list. Since elements with equal keys
become neighbours, a sorted list is searched for a repeated key by comparing neighbours only,
and the first one found is the least.
-/
namespace Hardware

variable {α β : Type} {key : α → Ident}

/-- The second list is the first one reordered, where elements with equal keys keep their
relative order: only neighbours with different keys change places. -/
inductive Reordered (key : α → Ident) : List α → List α → Prop
  | nil : Reordered key [] []
  | cons (x : α) {xs ys : List α} (h : Reordered key xs ys) : Reordered key (x :: xs) (x :: ys)
  | swap {x y : α} (other : key x ≠ key y) (xs : List α) :
      Reordered key (x :: y :: xs) (y :: x :: xs)
  | trans {xs ys zs : List α} (h : Reordered key xs ys) (h' : Reordered key ys zs) :
      Reordered key xs zs

namespace Reordered

variable {xs ys : List α}

theorem refl (key : α → Ident) : ∀ xs : List α, Reordered key xs xs
  | [] => .nil
  | x :: xs => .cons x (refl key xs)

theorem symm (h : Reordered key xs ys) : Reordered key ys xs := by
  induction h with
  | nil => exact .nil
  | cons x _ ih => exact .cons x ih
  | swap other xs => exact .swap other.symm xs
  | trans _ _ ih ih' => exact .trans ih' ih

theorem perm (h : Reordered key xs ys) : xs.Perm ys := by
  induction h with
  | nil => exact .nil
  | cons x _ ih => exact .cons x ih
  | swap other xs => exact .swap _ _ xs
  | trans _ _ ih ih' => exact .trans ih ih'

/-- A list that goes along with the first one, element by element and key by key, can be
reordered in the same way. -/
theorem along {key' : β → Ident} {R : β → α → Prop}
    (keys : ∀ b a, R b a → key' b = key a) (h : Reordered key xs ys) :
    ∀ {bs : List β}, List.Forall₂ R bs xs → ∃ cs, Reordered key' bs cs ∧ List.Forall₂ R cs ys := by
  induction h with
  | nil => exact fun pairs => ⟨_, .refl key' _, pairs⟩
  | cons x _ ih =>
      rintro _ (_ | ⟨first, pairs⟩)
      obtain ⟨cs, moved, pairs⟩ := ih pairs
      exact ⟨_, .cons _ moved, .cons first pairs⟩
  | swap other xs =>
      rintro _ (_ | ⟨first, _ | ⟨second, pairs⟩⟩)
      refine ⟨_, .swap ?_ _, .cons second (.cons first pairs)⟩
      rwa [keys _ _ first, keys _ _ second]
  | trans _ _ ih ih' =>
      intro bs pairs
      obtain ⟨cs, moved, pairs⟩ := ih pairs
      obtain ⟨ds, moved', pairs⟩ := ih' pairs
      exact ⟨ds, moved.trans moved', pairs⟩

/-- Elements whose keys already come in the same order, and differ, need not be moved. -/
theorem eq_of_keys (h : Reordered key xs ys) (keys : xs.map key = ys.map key)
    (distinct : (xs.map key).Nodup) : xs = ys := by
  refine List.ext_getElem h.perm.length_eq fun i hx hy => ?_
  have mem : ys[i] ∈ xs := h.perm.mem_iff.mpr (List.getElem_mem hy)
  refine List.inj_on_of_nodup_map distinct (List.getElem_mem hx) mem ?_
  have here := congrArg (fun l => l[i]?) keys
  simpa [List.getElem?_eq_getElem hx, List.getElem?_eq_getElem hy] using here

end Reordered

theorem reordered_insertByKey (key : α → Ident) (x : α) (xs : List α) :
    Reordered key (x :: xs) (insertByKey key x xs) := by
  induction xs with
  | nil => exact .refl key _
  | cons y ys ih =>
      unfold insertByKey
      split
      · exact .refl key _
      · rename_i after
        have other : key x ≠ key y := fun same => after (le_of_eq same)
        exact .trans (.swap other ys) (.cons y ih)

/-- The sort keeps elements with equal keys in their order. -/
theorem reordered_sortByKey (key : α → Ident) (xs : List α) :
    Reordered key xs (sortByKey key xs) := by
  induction xs with
  | nil => exact .nil
  | cons x xs ih => exact .trans (.cons x ih) (reordered_insertByKey key x _)

theorem insertByKey_comm {x y : α} (other : key x ≠ key y) (xs : List α) :
    insertByKey key x (insertByKey key y xs) = insertByKey key y (insertByKey key x xs) := by
  induction xs with
  | nil =>
      rcases lt_or_gt_of_ne other with lt | lt
      · simp [insertByKey, lt.le, not_le_of_gt lt]
      · simp [insertByKey, lt.le, not_le_of_gt lt]
  | cons z zs ih =>
      by_cases hx : key x ≤ key z <;> by_cases hy : key y ≤ key z
      · rcases lt_or_gt_of_ne other with lt | lt
        · simp [insertByKey, hx, hy, lt.le, not_le_of_gt lt]
        · simp [insertByKey, hx, hy, lt.le, not_le_of_gt lt]
      · have after : ¬ key y ≤ key x := fun le => hy (le.trans hx)
        simp [insertByKey, hx, hy, after]
      · have after : ¬ key x ≤ key y := fun le => hx (le.trans hy)
        simp [insertByKey, hx, hy, after]
      · simp [insertByKey, hx, hy, ih]

/-- Two lists are sorted into the same one just if they differ in the order of elements with
different keys only. -/
theorem sortByKey_eq_iff {xs ys : List α} :
    sortByKey key xs = sortByKey key ys ↔ Reordered key xs ys := by
  constructor
  · intro same
    have back := (reordered_sortByKey key ys).symm
    rw [← same] at back
    exact (reordered_sortByKey key xs).trans back
  · intro h
    induction h with
    | nil => rfl
    | cons x _ ih => simp only [sortByKey, ih]
    | swap other xs => exact insertByKey_comm other _
    | trans _ _ ih ih' => exact ih.trans ih'

/-- A change of the elements that keeps their keys can be made before or after the sort. -/
theorem sortByKey_map {key' : β → Ident} {f : α → β} (keys : ∀ a, key' (f a) = key a)
    (xs : List α) : sortByKey key' (xs.map f) = (sortByKey key xs).map f := by
  have inserted : ∀ (x : α) (ys : List α),
      insertByKey key' (f x) (ys.map f) = (insertByKey key x ys).map f := by
    intro x ys
    induction ys with
    | nil => rfl
    | cons y ys ih =>
        simp only [insertByKey, List.map_cons, keys, ih]
        split <;> rfl
  induction xs with
  | nil => rfl
  | cons x xs ih => rw [List.map_cons, sortByKey, ih, inserted, sortByKey]

theorem mem_insertByKey {x y : α} {ys : List α} : y ∈ insertByKey key x ys ↔ y = x ∨ y ∈ ys := by
  rw [← (reordered_insertByKey key x ys).perm.mem_iff, List.mem_cons]

theorem pairwise_insertByKey (x : α) {ys : List α}
    (sorted : ys.Pairwise fun a b => key a ≤ key b) :
    (insertByKey key x ys).Pairwise fun a b => key a ≤ key b := by
  induction sorted with
  | nil => exact List.pairwise_singleton _ x
  | @cons y ys first sorted ih =>
      unfold insertByKey
      split
      · rename_i le
        refine .cons (fun z hz => ?_) (.cons first sorted)
        rcases List.mem_cons.mp hz with rfl | hz
        · exact le
        · exact le.trans (first z hz)
      · rename_i after
        refine .cons (fun z hz => ?_) ih
        rcases mem_insertByKey.mp hz with rfl | hz
        · exact (not_le.mp after).le
        · exact first z hz

theorem pairwise_sortByKey (key : α → Ident) (xs : List α) :
    (sortByKey key xs).Pairwise fun a b => key a ≤ key b := by
  induction xs with
  | nil => exact .nil
  | cons x xs ih => exact pairwise_insertByKey x ih

/-- The keys that two elements of the list have, wherever they stand in it. -/
def repeatedKeys (key : α → Ident) (xs : List α) : Set Ident :=
  {k | ∃ i j : Nat, i < j ∧ xs[i]?.map key = some k ∧ xs[j]?.map key = some k}

theorem mem_repeatedKeys_iff {k : Ident} {xs : List α} :
    k ∈ repeatedKeys key xs ↔ (xs.map key).Duplicate k := by
  rw [List.duplicate_iff_exists_distinct_get]
  constructor
  · rintro ⟨i, j, before, hi, hj⟩
    rw [← List.getElem?_map] at hi hj
    obtain ⟨li, hi⟩ := List.getElem?_eq_some_iff.mp hi
    obtain ⟨lj, hj⟩ := List.getElem?_eq_some_iff.mp hj
    exact ⟨⟨i, li⟩, ⟨j, lj⟩, before, hi.symm, hj.symm⟩
  · rintro ⟨i, j, before, hi, hj⟩
    refine ⟨i, j, before, ?_, ?_⟩
    · rw [← List.getElem?_map, List.getElem?_eq_some_iff]
      exact ⟨i.isLt, hi.symm⟩
    · rw [← List.getElem?_map, List.getElem?_eq_some_iff]
      exact ⟨j.isLt, hj.symm⟩

theorem repeatedKeys_perm {xs ys : List α} (h : xs.Perm ys) :
    repeatedKeys key xs = repeatedKeys key ys := by
  ext k
  rw [mem_repeatedKeys_iff, mem_repeatedKeys_iff, List.duplicate_iff_two_le_count,
    List.duplicate_iff_two_le_count, (h.map key).count_eq k]

theorem repeatedKeys_eq_empty_iff {xs : List α} :
    repeatedKeys key xs = ∅ ↔ (xs.map key).Nodup := by
  rw [List.nodup_iff_forall_not_duplicate, Set.eq_empty_iff_forall_notMem]
  exact forall_congr' fun _ => not_congr mem_repeatedKeys_iff

section Sorted

variable {x y : α} {xs : List α}

theorem lt_of_ne_next (sorted : (x :: y :: xs).Pairwise fun a b => key a ≤ key b)
    (other : key x ≠ key y) : ∀ z ∈ y :: xs, key x < key z := by
  have next : key x < key y := lt_of_le_of_ne (List.rel_of_pairwise_cons sorted (by simp)) other
  intro z hz
  rcases List.mem_cons.mp hz with rfl | hz
  · exact next
  · exact next.trans_le (List.rel_of_pairwise_cons sorted.of_cons hz)

theorem repeatedKeys_cons_of_ne_next
    (sorted : (x :: y :: xs).Pairwise fun a b => key a ≤ key b) (other : key x ≠ key y) :
    repeatedKeys key (x :: y :: xs) = repeatedKeys key (y :: xs) := by
  have fresh : key x ∉ (y :: xs).map key := by
    intro mem
    obtain ⟨z, hz, same⟩ := List.mem_map.mp mem
    exact (lt_of_ne_next sorted other z hz).ne same.symm
  ext k
  rw [mem_repeatedKeys_iff, List.map_cons, List.duplicate_cons_iff, mem_repeatedKeys_iff]
  refine or_iff_right ?_
  rintro ⟨rfl, mem⟩
  exact fresh mem

/-- The first key that neighbours in a sorted list share is the least that any two elements
share. -/
theorem isLeast_firstRepeated (sorted : xs.Pairwise fun a b => key a ≤ key b) {k : Ident}
    (found : firstRepeated key xs = some k) : IsLeast (repeatedKeys key xs) k := by
  fun_induction firstRepeated key xs with
  | case1 x y rest same =>
      obtain rfl : key x = k := Option.some.inj found
      have shared : key x ∈ (y :: rest).map key := by simp [same]
      refine ⟨mem_repeatedKeys_iff.mpr (List.duplicate_cons_self_iff.mpr shared), fun l hl => ?_⟩
      obtain ⟨z, hz, rfl⟩ := List.mem_map.mp (mem_repeatedKeys_iff.mp hl).mem
      -- The keys ascend, so none of those that are repeated further on is smaller.
      rcases List.mem_cons.mp hz with rfl | hz
      · exact le_rfl
      · exact List.rel_of_pairwise_cons sorted hz
  | case2 x y rest other ih =>
      rw [repeatedKeys_cons_of_ne_next sorted other]
      exact ih sorted.of_cons found
  | case3 => cases found

theorem pairwise_lt_of_firstRepeated (sorted : xs.Pairwise fun a b => key a ≤ key b)
    (unshared : firstRepeated key xs = none) : xs.Pairwise fun a b => key a < key b := by
  fun_induction firstRepeated key xs with
  | case1 => cases unshared
  | case2 x y rest other ih =>
      exact .cons (lt_of_ne_next sorted other) (ih sorted.of_cons unshared)
  | case3 xs short =>
      match xs with
      | [] => exact .nil
      | [x] => exact List.pairwise_singleton _ x
      | x :: y :: rest => exact absurd rfl (short x y rest)

end Sorted

theorem firstRepeated_eq_none {xs : List α} (distinct : (xs.map key).Nodup) :
    firstRepeated key xs = none := by
  induction xs with
  | nil => rfl
  | cons x xs ih =>
      rw [List.map_cons, List.nodup_cons] at distinct
      cases xs with
      | nil => rfl
      | cons y ys =>
          have other : key x ≠ key y := fun same => distinct.1 (by simp [same])
          rw [firstRepeated, if_neg other, ih distinct.2]

end Hardware
