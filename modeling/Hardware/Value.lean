import Hardware.Ident
import Hardware.SignalType
import Hardware.Text.Quoted

/-!
Values of a design: where each is defined, and its type.
-/
namespace Hardware

/-- Number of an operation within the design that built it. -/
structure OpId where
  index : Nat
  deriving DecidableEq, Repr

namespace OpId

def text (id : OpId) : String := s!"op{id.index}"

end OpId

/-- A value is an argument of a module body or a result of an operation. -/
inductive ValueDef where
  | arg (owner : Ident) (index : Nat)
  | result (op : OpId) (index : Nat)
  deriving DecidableEq, Repr

namespace ValueDef

/-- The definition as it is named in a message. -/
def text : ValueDef → String
  | .arg owner i => "Arg \x7b module: " ++ Text.quote owner ++ s!", idx: {i} \x7d"
  | .result op i => s!"Result \x7b op: OpId({op.index}), idx: {i} \x7d"

end ValueDef

structure Value where
  source : ValueDef
  type : SignalType
  deriving DecidableEq, Repr

end Hardware
