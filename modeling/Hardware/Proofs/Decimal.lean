import Mathlib

/-!
Numbers within a text. A number is written in digits only, so it ends where the first character
comes that is no digit: a text can be read in one way only as a number and what follows it.
-/
namespace Hardware.Decimal

variable {m n : Nat} {rest rest' : List Char}

theorem isDigit_of_mem : ∀ c ∈ Nat.toDigits 10 n, c.isDigit = true :=
  fun _ mem => Nat.isDigit_of_mem_toDigits (by decide) (by decide) mem

theorem toDigits_inj : Nat.toDigits 10 m = Nat.toDigits 10 n ↔ m = n := by
  constructor
  · intro same
    have texts : m.repr = n.repr := by
      rw [← String.toList_inj, Nat.toList_repr, Nat.toList_repr, same]
    exact Nat.repr_injective texts
  · exact congrArg _

/-- The number is what stands before the first character that is no digit. -/
theorem takeWhile_toDigits_append (stops : ∀ c ∈ rest.head?, c.isDigit = false) :
    (Nat.toDigits 10 n ++ rest).takeWhile Char.isDigit = Nat.toDigits 10 n := by
  rw [List.takeWhile_append_of_pos isDigit_of_mem]
  cases rest with
  | nil => exact List.append_nil _
  | cons c rest =>
      rw [List.takeWhile_cons_of_neg (by simp [stops c rfl]), List.append_nil]

theorem toDigits_append_inj (stops : ∀ c ∈ rest.head?, c.isDigit = false)
    (stops' : ∀ c ∈ rest'.head?, c.isDigit = false) :
    Nat.toDigits 10 m ++ rest = Nat.toDigits 10 n ++ rest' ↔ m = n ∧ rest = rest' := by
  constructor
  · intro same
    have digits := congrArg (List.takeWhile Char.isDigit) same
    rw [takeWhile_toDigits_append stops, takeWhile_toDigits_append stops'] at digits
    exact ⟨toDigits_inj.mp digits, (List.append_inj same (congrArg _ digits)).2⟩
  · rintro ⟨rfl, rfl⟩
    rfl

end Hardware.Decimal
