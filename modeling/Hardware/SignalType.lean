/-!
Types of signals, with their width and their printed form.
-/
namespace Hardware

/-- Equality is exact: eight signless bits and an unsigned eight-bit number differ. -/
inductive SignalType where
  | bits (width : Nat)
  | uint (width : Nat)
  | sint (width : Nat)
  | clock
  | array (elem : SignalType) (len : Nat)
  deriving DecidableEq, Inhabited, Repr

namespace SignalType

def isClock : SignalType → Bool
  | .clock => true
  | _ => false

/-- Bits that a value takes up. -/
def width : SignalType → Nat
  | .bits w | .uint w | .sint w => w
  | .clock => 1
  | .array elem len => elem.width * len

def text : SignalType → String
  | .bits w => s!"i{w}"
  | .uint w => s!"ui{w}"
  | .sint w => s!"si{w}"
  | .clock => "!seq.clock"
  | .array elem len => s!"!hw.array<{len}x{elem.text}>"

end SignalType

end Hardware
