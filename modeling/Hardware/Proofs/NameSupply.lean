import Hardware.NameSupply
import Mathlib

/-!
A supply never grants a name twice. The search for a numbered name has fuel for one
suffix more than there are names, so by counting it meets a free one.
-/
namespace Hardware.NameSupply

theorem suffixed_injective (base : Ident) {j k : Nat} (h : suffixed base j = suffixed base k) :
    j = k := by
  unfold suffixed at h
  exact Nat.repr_injective ((String.append_right_inj (base ++ "_")).mp h)

/-- The search stops at a free name, unless every name it tried is taken. -/
theorem search_free (issued : List Ident) (base : Ident) (fuel k : Nat) :
    suffixed base (search issued base fuel k) ∉ issued ∨
      ∀ i < fuel, suffixed base (k + i) ∈ issued := by
  induction fuel generalizing k with
  | zero => exact .inr fun i hi => absurd hi (Nat.not_lt_zero i)
  | succ fuel ih =>
      unfold search
      split
      · rename_i taken
        rcases ih (k + 1) with free | all
        · exact .inl free
        · refine .inr fun i hi => ?_
          cases i with
          | zero => simpa using taken
          | succ i =>
              have next := all i (Nat.lt_of_succ_lt_succ hi)
              rwa [Nat.add_right_comm, Nat.add_assoc] at next
      · rename_i free
        exact .inl (by simpa using free)

theorem firstFree_not_mem (issued : List Ident) (base : Ident) (k : Nat) :
    suffixed base (firstFree issued base k) ∉ issued := by
  rcases search_free issued base (issued.length + 1) k with free | all
  · exact free
  · -- More distinct names than `issued` has room for.
    exfalso
    have inj : Function.Injective fun i => suffixed base (k + i) :=
      fun i j h => Nat.add_left_cancel (suffixed_injective base h)
    have sub : (Finset.range (issued.length + 1)).image (fun i => suffixed base (k + i)) ⊆
        issued.toFinset := by
      intro name h
      obtain ⟨i, hi, rfl⟩ := Finset.mem_image.mp h
      exact List.mem_toFinset.mpr (all i (Finset.mem_range.mp hi))
    have le := Finset.card_le_card sub
    rw [Finset.card_image_of_injective _ inj, Finset.card_range] at le
    have := List.toFinset_card_le issued
    omega

/-- A granted name was free. -/
theorem uniquify_not_mem (s : NameSupply) (base : Ident) : (s.uniquify base).1 ∉ s.issued := by
  unfold uniquify
  split
  · exact firstFree_not_mem s.issued base _
  · rename_i free
    simpa [contains] using free

theorem issued_uniquify (s : NameSupply) (base : Ident) :
    (s.uniquify base).2.issued = (s.uniquify base).1 :: s.issued := by
  unfold uniquify
  split <;> rfl

end Hardware.NameSupply
