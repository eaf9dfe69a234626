import Hardware.Constant.Fit
import Hardware.Proofs.Verification
import Mathlib.Algebra.Group.Nat.Even

/-!
The constants that a type holds, told by the range of their values. The test that is run counts
bits instead; it accepts the same constants.
-/
namespace Hardware

namespace Bits

theorem unsigned_le_iff (n w : Nat) : unsigned n ≤ w ↔ n < 2 ^ w := by
  unfold unsigned
  split
  · rename_i h
    subst h
    exact ⟨fun _ => Nat.two_pow_pos w, fun _ => Nat.zero_le w⟩
  · rename_i h
    rw [← Nat.log2_lt h]
    exact Nat.succ_le_iff

/-- A number fits in two's complement as soon as it lies between the least and the greatest
number of the width. -/
theorem signed_le_iff (v : Int) (w : Nat) :
    signed v ≤ w ↔ 1 ≤ w ∧ -2 ^ (w - 1) ≤ v ∧ v < 2 ^ (w - 1) := by
  have above (n : Nat) : unsigned n + 1 ≤ w ↔ 1 ≤ w ∧ n < 2 ^ (w - 1) := by
    rw [← unsigned_le_iff]
    omega
  have cast : ((2 ^ (w - 1) : Nat) : Int) = 2 ^ (w - 1) := by norm_cast
  have pos : 0 < 2 ^ (w - 1) := Nat.two_pow_pos (w - 1)
  rw [← cast]
  cases v with
  | ofNat n =>
      rw [signed, above, Int.ofNat_eq_natCast]
      omega
  | negSucc k =>
      rw [signed, above]
      omega

end Bits

namespace SignalType

/-- The constants that stand for a value of the type. A signless number may be given with or
without a sign. -/
def Holds : SignalType → Constant → Prop
  | .bits w, .int v => v < 2 ^ w ∧ (v < 0 → 1 ≤ w ∧ -2 ^ (w - 1) ≤ v)
  | .uint w, .int v => 0 ≤ v ∧ v < 2 ^ w
  | .sint w, .int v => 1 ≤ w ∧ -2 ^ (w - 1) ≤ v ∧ v < 2 ^ (w - 1)
  | .clock, .int v => v = 0 ∨ v = 1
  | .array elem len, .array vs => vs.length = len ∧ ∀ v ∈ vs, elem.Holds v
  | _, _ => False

theorem signlessBits_le_iff (v : Int) (w : Nat) :
    signlessBits v ≤ w ↔ v < 2 ^ w ∧ (v < 0 → 1 ≤ w ∧ -2 ^ (w - 1) ≤ v) := by
  cases v with
  | ofNat n =>
      have cast : ((2 ^ w : Nat) : Int) = 2 ^ w := by norm_cast
      rw [signlessBits, Bits.unsigned_le_iff, ← cast, Int.ofNat_eq_natCast]
      omega
  | negSucc k =>
      have negative : Int.negSucc k < 0 := Int.negSucc_lt_zero k
      have pos : ∀ n : Nat, (0 : Int) < 2 ^ n := fun n => Int.pow_pos (by decide)
      rw [signlessBits, Bits.signed_le_iff]
      constructor
      · intro ⟨wide, low, _⟩
        exact ⟨negative.trans (pos w), fun _ => ⟨wide, low⟩⟩
      · intro ⟨_, low⟩
        exact ⟨(low negative).1, (low negative).2, negative.trans (pos _)⟩

theorem unsigned_toNat_le_iff {v : Int} (nonneg : 0 ≤ v) (w : Nat) :
    Bits.unsigned v.toNat ≤ w ↔ v < 2 ^ w := by
  have cast : ((2 ^ w : Nat) : Int) = 2 ^ w := by norm_cast
  rw [Bits.unsigned_le_iff, ← cast]
  omega

/-- The test of a constant succeeds just for those that the type holds. -/
theorem check_eq_ok_iff (t : SignalType) (c : Constant) : t.check c = .ok () ↔ t.Holds c := by
  induction t generalizing c with
  | bits w =>
      cases c with
      | int v => rw [check, ite_throw_eq_ok_iff, not_lt, signlessBits_le_iff, Holds]
      | array vs => exact iff_of_false throw_ne_ok id
  | uint w =>
      cases c with
      | int v =>
          rw [check, ite_throw_eq_ok_iff, Holds, not_or, not_lt, not_lt]
          exact and_congr_right fun nonneg => unsigned_toNat_le_iff nonneg w
      | array vs => exact iff_of_false throw_ne_ok id
  | sint w =>
      cases c with
      | int v => rw [check, ite_throw_eq_ok_iff, not_lt, Bits.signed_le_iff, Holds]
      | array vs => exact iff_of_false throw_ne_ok id
  | clock =>
      cases c with
      | int v =>
          rw [check, ite_throw_eq_ok_iff, Holds]
          omega
      | array vs => exact iff_of_false throw_ne_ok id
  | array elem len ih =>
      cases c with
      | int v => exact iff_of_false throw_ne_ok id
      | array vs =>
          rw [check, Holds]
          by_cases length : vs.length = len
          · rw [if_neg (not_not.mpr length), forM_eq_ok_iff]
            simp only [length, true_and, ih]
          · rw [if_pos length]
            exact iff_of_false throw_ne_ok fun holds => length holds.1

end SignalType

end Hardware
