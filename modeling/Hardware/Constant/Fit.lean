import Hardware.Error

/-!
Which constants a type can hold. The test compares bit counts: how many bits a number takes,
unsigned or in two's complement. An array is held if its length is right and the element type
holds each of its elements.
-/
namespace Hardware

namespace Bits

/-- Bits of the unsigned number `n`. Zero takes none. -/
def unsigned (n : Nat) : Nat := if n = 0 then 0 else n.log2 + 1

/-- Bits of `n` in two's complement, the sign bit included. The negative number
`-(k + 1)` takes as many as `k`, its complement. -/
def signed : Int → Nat
  | .ofNat n => unsigned n + 1
  | .negSucc k => unsigned k + 1

end Bits

namespace SignalType

/-- Bits that an integer needs as a signless number: a negative one needs its sign. -/
def signlessBits (v : Int) : Nat :=
  match v with
  | .ofNat n => Bits.unsigned n
  | .negSucc _ => Bits.signed v

def outOfRange (t : SignalType) (c : Constant) : Error :=
  .structural (.constantOutOfRange c t)

/-- Succeeds if `t` can hold the constant. The first element that does not fit is the one reported. -/
def check : SignalType → Constant → Except Error Unit
  | .bits w, .int v =>
    if signlessBits v > w then throw (outOfRange (.bits w) (.int v)) else pure ()
  | .uint w, .int v =>
    if v < 0 ∨ Bits.unsigned v.toNat > w then throw (outOfRange (.uint w) (.int v)) else pure ()
  | .sint w, .int v =>
    if Bits.signed v > w then throw (outOfRange (.sint w) (.int v)) else pure ()
  | .clock, .int v =>
    if v ≠ 0 ∧ v ≠ 1 then throw (outOfRange .clock (.int v)) else pure ()
  | .array elem len, .array vs =>
    if vs.length ≠ len then throw (.structural (.arrayLength vs.length (.array elem len) len))
    else vs.forM fun v => elem.check v
  | t, c => throw (.structural (.constantShape c t))

end SignalType

end Hardware
