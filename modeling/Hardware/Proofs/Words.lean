import Mathlib.Data.BitVec
import Hardware.Proofs.Constants

/-!
The test of constants in machine words. An integer is a signed word of 128 bits there and a width
or a length an unsigned word of 64; the bits of a number are counted by the zeros before its first
one, in a word of 32. The test of this library has integers of any size. The two agree on all that
the words can hold, and none of the counts wraps around.
-/
namespace Hardware

/-- The integers of a signed word of 128 bits. -/
def FitsWord (v : Int) : Prop := -2 ^ 127 ≤ v ∧ v < 2 ^ 127

instance (v : Int) : Decidable (FitsWord v) := inferInstanceAs (Decidable (_ ∧ _))

namespace Word

/-- The zeros before the first bit that is set. -/
def leadingZeros (n : BitVec 128) : BitVec 32 := n.clz.setWidth 32

def unsignedBits (n : BitVec 128) : BitVec 64 := (128#32 - leadingZeros n).setWidth 64

/-- The complement of a negative number has the same bits but for the sign. -/
def signedBits (n : BitVec 128) : BitVec 64 :=
  if (0#128).sle n then unsignedBits n + 1#64 else unsignedBits (~~~n) + 1#64

def signlessBits (n : BitVec 128) : BitVec 64 :=
  if (0#128).sle n then unsignedBits n else signedBits n

/-- The word that stands for an integer. -/
def ofInt (v : Int) : BitVec 128 := BitVec.ofInt 128 v

theorem toNat_clz_le (n : BitVec 128) : n.clz.toNat ≤ 128 :=
  BitVec.le_def.mp BitVec.clz_le

theorem toNat_leadingZeros (n : BitVec 128) : (leadingZeros n).toNat = n.clz.toNat := by
  have bound := toNat_clz_le n
  rw [leadingZeros, BitVec.toNat_setWidth]
  omega

theorem toNat_unsignedBits (n : BitVec 128) : (unsignedBits n).toNat = 128 - n.clz.toNat := by
  have bound := toNat_clz_le n
  rw [unsignedBits, BitVec.toNat_setWidth, BitVec.toNat_sub, toNat_leadingZeros]
  simp only [BitVec.toNat_ofNat]
  omega

/-- The zeros before the first bit tell between which powers of two a number lies. -/
theorem unsigned_toNat (n : BitVec 128) : Bits.unsigned n.toNat = 128 - n.clz.toNat := by
  have upper : n.toNat < 2 ^ (128 - n.clz.toNat) := BitVec.toNat_lt_two_pow_sub_clz
  refine le_antisymm ((Bits.unsigned_le_iff _ _).mpr upper) ?_
  by_cases zero : n = 0#128
  · rw [BitVec.clz_eq_iff_eq_zero.mpr zero]
    exact Nat.zero_le _
  · have lower : 2 ^ (128 - 1 - n.clz.toNat) ≤ n.toNat :=
      BitVec.two_pow_sub_clz_le_toNat_of_ne_zero (by decide) zero
    have more : ¬ Bits.unsigned n.toNat ≤ 128 - 1 - n.clz.toNat := by
      rw [Bits.unsigned_le_iff, not_lt]
      exact lower
    omega

theorem unsignedBits_eq (n : BitVec 128) : (unsignedBits n).toNat = Bits.unsigned n.toNat := by
  rw [toNat_unsignedBits, unsigned_toNat]

theorem unsignedBits_le (n : BitVec 128) : (unsignedBits n).toNat ≤ 128 := by
  rw [toNat_unsignedBits]
  exact Nat.sub_le _ _

/-- The bit of the sign still fits in the count. -/
theorem succ_unsignedBits (n : BitVec 128) :
    (unsignedBits n + 1#64).toNat = Bits.unsigned n.toNat + 1 := by
  have bound := unsignedBits_le n
  rw [BitVec.toNat_add, unsignedBits_eq] at *
  simp only [BitVec.toNat_ofNat]
  omega

section Integers

variable {v : Int}

theorem toInt_ofInt (fits : FitsWord v) : (ofInt v).toInt = v := by
  obtain ⟨low, high⟩ := fits
  rw [ofInt, BitVec.toInt_ofInt, Int.bmod_eq_of_le] <;> omega

theorem ofInt_inj {v' : Int} (fits : FitsWord v) (fits' : FitsWord v') :
    ofInt v = ofInt v' ↔ v = v' := by
  rw [← BitVec.toInt_inj, toInt_ofInt fits, toInt_ofInt fits']

theorem sle_ofInt (fits : FitsWord v) : (0#128).sle (ofInt v) = true ↔ 0 ≤ v := by
  rw [BitVec.sle_iff_toInt_le, toInt_ofInt fits]
  rfl

theorem slt_ofInt (fits : FitsWord v) : (ofInt v).slt 0#128 = true ↔ v < 0 := by
  rw [BitVec.slt_iff_toInt_lt, toInt_ofInt fits]
  rfl

theorem toNat_ofInt {n : Nat} (fits : FitsWord n) : (ofInt n).toNat = n := by
  obtain ⟨low, high⟩ := fits
  rw [ofInt, BitVec.toNat_ofInt]
  omega

theorem sle_natCast {n : Nat} (fits : FitsWord n) : (0#128).sle (ofInt n) = true :=
  (sle_ofInt fits).mpr (Int.natCast_nonneg n)

theorem not_sle_negSucc {k : Nat} (fits : FitsWord (.negSucc k)) :
    ¬ (0#128).sle (ofInt (.negSucc k)) = true := by
  rw [sle_ofInt fits, not_le]
  exact Int.negSucc_lt_zero k

theorem not_ofInt_negSucc (k : Nat) : ~~~(ofInt (.negSucc k)) = ofInt k := by
  rw [ofInt, BitVec.ofInt_negSucc_eq_not_ofNat, BitVec.not_not, ofInt, BitVec.ofInt_natCast]

theorem signedBits_ofInt (fits : FitsWord v) : (signedBits (ofInt v)).toNat = Bits.signed v := by
  cases v with
  | ofNat n =>
      rw [Int.ofNat_eq_natCast] at *
      rw [signedBits, if_pos (sle_natCast fits), succ_unsignedBits, toNat_ofInt fits]
      rfl
  | negSucc k =>
      -- The least integer has no opposite among the words, but it has a complement.
      have complement : FitsWord k := by
        obtain ⟨low, _⟩ := fits
        constructor <;> omega
      rw [signedBits, if_neg (not_sle_negSucc fits), not_ofInt_negSucc, succ_unsignedBits,
        toNat_ofInt complement, Bits.signed]

theorem signlessBits_ofInt (fits : FitsWord v) :
    (signlessBits (ofInt v)).toNat = SignalType.signlessBits v := by
  cases v with
  | ofNat n =>
      rw [Int.ofNat_eq_natCast] at *
      rw [signlessBits, if_pos (sle_natCast fits), unsignedBits_eq, toNat_ofInt fits]
      rfl
  | negSucc k =>
      rw [signlessBits, if_neg (not_sle_negSucc fits), signedBits_ofInt fits,
        SignalType.signlessBits]

end Integers

theorem gt_ofNat_iff {n : BitVec 64} {w : Nat} (width : w < 2 ^ 64) :
    n > BitVec.ofNat 64 w ↔ n.toNat > w := by
  rw [gt_iff_lt, BitVec.lt_def, BitVec.toNat_ofNat, Nat.mod_eq_of_lt width]

theorem ofNat_inj {a b : Nat} (ha : a < 2 ^ 64) (hb : b < 2 ^ 64) :
    BitVec.ofNat 64 a = BitVec.ofNat 64 b ↔ a = b := by
  rw [← BitVec.toNat_inj, BitVec.toNat_ofNat, BitVec.toNat_ofNat, Nat.mod_eq_of_lt ha,
    Nat.mod_eq_of_lt hb]

end Word

/-- Each width and each length in the type is an unsigned word of 64 bits. -/
def SignalType.InWords : SignalType → Prop
  | .bits w | .uint w | .sint w => w < 2 ^ 64
  | .clock => True
  | .array elem len => elem.InWords ∧ len < 2 ^ 64

/-- Each integer in the constant is a signed word of 128 bits, and each list is one whose length
an unsigned word of 64 bits can tell. -/
inductive Constant.InWords : Constant → Prop
  | int {v : Int} (fits : FitsWord v) : InWords (.int v)
  | array {vs : List Constant} (short : vs.length < 2 ^ 64) (each : ∀ v ∈ vs, InWords v) :
      InWords (.array vs)

namespace SignalType

/-- The test of a constant as it is made in words. -/
def checkWords : SignalType → Constant → Except Error Unit
  | .bits w, .int v =>
    if Word.signlessBits (Word.ofInt v) > BitVec.ofNat 64 w then
      throw (outOfRange (.bits w) (.int v))
    else pure ()
  | .uint w, .int v =>
    if (Word.ofInt v).slt 0#128 ∨ Word.unsignedBits (Word.ofInt v) > BitVec.ofNat 64 w then
      throw (outOfRange (.uint w) (.int v))
    else pure ()
  | .sint w, .int v =>
    if Word.signedBits (Word.ofInt v) > BitVec.ofNat 64 w then
      throw (outOfRange (.sint w) (.int v))
    else pure ()
  | .clock, .int v =>
    if Word.ofInt v ≠ Word.ofInt 0 ∧ Word.ofInt v ≠ Word.ofInt 1 then
      throw (outOfRange .clock (.int v))
    else pure ()
  | .array elem len, .array vs =>
    if BitVec.ofNat 64 vs.length ≠ BitVec.ofNat 64 len then
      throw (.structural (.arrayLength vs.length (.array elem len) len))
    else vs.forM fun v => elem.checkWords v
  | t, c => throw (.structural (.constantShape c t))

theorem checkWords_eq {t : SignalType} (words : t.InWords) {c : Constant} (ints : c.InWords) :
    t.checkWords c = t.check c := by
  induction t generalizing c with
  | bits w =>
      cases ints with
      | int fits =>
          simp only [checkWords, check, Word.gt_ofNat_iff words, Word.signlessBits_ofInt fits]
      | array short each => rfl
  | uint w =>
      cases ints with
      | @int v fits =>
          have sign := Word.slt_ofInt fits
          by_cases negative : v < 0
          · rw [checkWords, check, if_pos (.inl (sign.mpr negative)), if_pos (.inl negative)]
          · obtain ⟨n, rfl⟩ := Int.eq_ofNat_of_zero_le (not_lt.mp negative)
            simp only [checkWords, check, sign, Word.gt_ofNat_iff words, Word.unsignedBits_eq,
              Word.toNat_ofInt fits, Int.toNat_natCast]
      | array short each => rfl
  | sint w =>
      cases ints with
      | int fits =>
          simp only [checkWords, check, Word.gt_ofNat_iff words, Word.signedBits_ofInt fits]
      | array short each => rfl
  | clock =>
      cases ints with
      | int fits =>
          have zero := Word.ofInt_inj fits (show FitsWord 0 by decide)
          have one := Word.ofInt_inj fits (show FitsWord 1 by decide)
          simp only [checkWords, check, ne_eq, zero, one]
      | array short each => rfl
  | array elem len ih =>
      cases ints with
      | int fits => rfl
      | array short each =>
          simp only [checkWords, check, ne_eq, Word.ofNat_inj short words.2,
            forM_congr fun v h => ih words.1 (each v h)]

/-- A constant is accepted just if it stands for a value of the type. The test in words answers
the same, errors included, for all widths, lengths and integers that words can hold: no zero is
lost in the narrow count, and neither the difference nor the bit for the sign wraps around. -/
theorem accepts_exactly (t : SignalType) (c : Constant) :
    (t.check c = .ok () ↔ t.Holds c) ∧
      (t.InWords → c.InWords → t.checkWords c = t.check c) ∧
      ∀ n : BitVec 128, (Word.leadingZeros n).toNat = n.clz.toNat ∧
        BitVec.usubOverflow 128#32 (Word.leadingZeros n) = false ∧
        BitVec.uaddOverflow (Word.unsignedBits n) 1#64 = false := by
  refine ⟨check_eq_ok_iff t c, fun words ints => checkWords_eq words ints,
    fun n => ⟨Word.toNat_leadingZeros n, ?_, ?_⟩⟩
  · have bound := Word.toNat_clz_le n
    rw [BitVec.usubOverflow, Word.toNat_leadingZeros, decide_eq_false_iff_not, not_lt]
    exact bound
  · have bound := Word.unsignedBits_le n
    rw [BitVec.uaddOverflow, decide_eq_false_iff_not, not_le, BitVec.toNat_ofNat]
    omega

end SignalType

namespace Sample

/-- The least and the greatest integer of a word need all of its bits; one bit less is too few. -/
theorem extremes_accepted :
    ((SignalType.array (.sint 128) 2).check (.array [.int (-2 ^ 127), .int (2 ^ 127 - 1)])
      = .ok ()) ∧
    (SignalType.array (.sint 127) 2).checkWords (.array [.int (-2 ^ 127), .int (2 ^ 127 - 1)])
      ≠ .ok () := by
  have ints : (Constant.array [.int (-2 ^ 127), .int (2 ^ 127 - 1)]).InWords := by
    refine .array (by decide) fun v hv => ?_
    rcases List.mem_pair.mp hv with rfl | rfl
    · exact .int (by decide)
    · exact .int (by decide)
  have wide := SignalType.accepts_exactly (.array (.sint 128) 2)
    (.array [.int (-2 ^ 127), .int (2 ^ 127 - 1)])
  have narrow := SignalType.accepts_exactly (.array (.sint 127) 2)
    (.array [.int (-2 ^ 127), .int (2 ^ 127 - 1)])
  have words : (SignalType.array (.sint 127) 2).InWords :=
    ⟨Nat.lt_of_sub_pos (by decide), by decide⟩
  refine ⟨wide.1.mpr ?_, ?_⟩
  · refine ⟨rfl, fun v hv => ?_⟩
    rcases List.mem_pair.mp hv with rfl | rfl
    · exact ⟨by decide, by decide, by decide⟩
    · exact ⟨by decide, by decide, by decide⟩
  · rw [narrow.2.1 words ints, ne_eq, narrow.1]
    intro holds
    have low := (holds.2 _ List.mem_cons_self).2.1
    revert low
    decide

end Sample

end Hardware
