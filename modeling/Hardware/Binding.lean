import Hardware.Constant.Fit
import Hardware.Module
import Hardware.Signal

/-!
Binding values to the inputs of a module that is to be instantiated. The names are
checked first: none may come twice, each must be an input, and no input may be missing.
Then each value is checked against its port, in port order.
-/
namespace Hardware

/-- Names that come more than once, each listed once, in the order of first repetition. -/
def repeatedNames (seen reps : List Ident) : List Ident → List Ident
  | [] => reps
  | n :: ns =>
    if seen.contains n then
      repeatedNames seen (if reps.contains n then reps else reps ++ [n]) ns
    else repeatedNames (n :: seen) reps ns

namespace PortDesc

/-- The inputs in port order, each with the value supplied under its name. Of several
inputs with one name only the first is supplied. -/
def supplied (supply : List (Ident × PortValue)) :
    List Ident → List PortDesc → List (PortDesc × Option PortValue)
  | _, [] => []
  | seen, p :: ps =>
    (p, if seen.contains p.name then none else supply.lookup p.name) ::
      supplied supply (p.name :: seen) ps

/-- Check a value against its port. Only an external module may have it disconnected. -/
def accept (p : PortDesc) (isExternal : Bool) : PortValue → Except Error PortValue
  | .signal s =>
    if s.type = p.type then pure (.signal s)
    else throw (.ofKind (.typeMismatch p.name p.type.text s.type.text))
  | .constant c =>
    match p.type.check c with
    | .ok () => pure (.constant c)
    | .error _ => throw (.ofKind (.typeMismatch p.name p.type.text ("constant " ++ c.text)))
  | .disconnected =>
    if isExternal then pure .disconnected else throw (.ofKind (.disconnected p.name))

end PortDesc

namespace Module

variable {γ : Type}

/-- The values for the inputs of `m`, in port order. -/
def bindInputs (m : Module γ) (supply : List (Ident × PortValue)) :
    Except Error (List PortValue) := do
  let names := supply.map Prod.fst
  let repeated := repeatedNames [] [] names
  if !repeated.isEmpty then throw (.ofKind (.duplicateInputs m.name repeated))
  let inputs := m.schema.inputs
  let unknown := names.filter fun n => !inputs.any fun p => p.name = n
  if !unknown.isEmpty then throw (.ofKind (.unknownPorts m.name unknown))
  let slots := PortDesc.supplied supply [] inputs
  let missing := (slots.filter fun s => s.2.isNone).map fun s => s.1.name
  if !missing.isEmpty then throw (.ofKind (.missingInputs m.name missing))
  slots.mapM fun (p, v) => p.accept (!m.hasGenerator) (v.getD .disconnected)

end Module

end Hardware
