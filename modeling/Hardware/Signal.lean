import Hardware.Attr
import Hardware.Constant
import Hardware.Value

/-!
What generators handle: signals, the values that may be bound to a port, and the
application-level names of instances.
-/
namespace Hardware

/-- A signal is a value of the design, as a generator holds it. -/
abbrev Signal := Value

namespace Signal

/-- Clock signals are the signals of the clock type. -/
def isClock (s : Signal) : Bool := s.type.isClock

end Signal

/-- A value for a port: a signal, a constant that is converted to the type of the port,
or nothing at all. -/
inductive PortValue where
  | signal (s : Signal)
  | constant (c : Constant)
  | disconnected
  deriving DecidableEq, Repr

/-- The name that an application gives to an instance. -/
structure AppId where
  name : Ident
  index : Option Nat := none
  deriving DecidableEq, Repr

namespace AppId

def text (id : AppId) : String := indexed id.name id.index

def toAttr (id : AppId) : Attr := .appId id.name id.index

end AppId

end Hardware
