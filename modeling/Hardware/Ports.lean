import Hardware.Workspace

/-!
The ports of the module that is being generated. A generator reads inputs and assigns
outputs by name; each output must be assigned before the generator ends, and a later
assignment replaces an earlier one.
-/
namespace Hardware

/-- `args` holds the argument for each input, `slots` what was assigned to each output. -/
structure Ports where
  system : SystemId
  target : ModuleId
  inputs : List PortDesc
  outputs : List PortDesc
  args : List Value
  slots : List (Option Value)
  deriving DecidableEq, Repr

/-- What a call at a port acts on: the ports themselves, and the workspace in which a
constant may have to be built. -/
abbrev PortState (U : UserCode) := Ports × Workspace U

namespace Ports

variable {U : UserCode}

/-- The ports of a module whose body was just opened: nothing is assigned. -/
def opened (system : SystemId) (target : ModuleId) (inputs outputs : List PortDesc)
    (args : List Value) : Ports :=
  { system, target, inputs, outputs, args, slots := outputs.map fun _ => none }

def input? (p : Ports) (port : Ident) : Option (Nat × PortDesc) :=
  (PortDesc.table p.inputs).get? port

def output? (p : Ports) (port : Ident) : Option (Nat × PortDesc) :=
  (PortDesc.table p.outputs).get? port

/-- Read an input. `owner` is the current name of the module, for the error. -/
def read (p : Ports) (owner port : Ident) : Except Error Signal :=
  match (p.input? port).bind fun (i, _) => p.args[i]? with
  | some v => pure v
  | none =>
    if (p.output? port).isSome then throw (.ofKind (.portDirection port .readsOutput))
    else throw (.ofKind (.unknownPorts owner [port]))

/-- The outputs that are not assigned, in port order. -/
def unassigned (p : Ports) : List Ident :=
  ((p.outputs.zip p.slots).filter fun s => s.2.isNone).map fun s => s.1.name

/-- Fails if an output is not assigned. -/
def check (p : Ports) (owner : Ident) : Except Error Unit :=
  if p.unassigned.isEmpty then pure ()
  else throw (.ofKind (.unconnectedOutputs owner p.unassigned))

/-- The values of the outputs in port order. -/
def outputValues (p : Ports) (owner : Ident) : Except Error (List Value) := do
  p.check owner
  pure (p.slots.filterMap id)

/-- The current name of the module whose ports these are. -/
def owner (s : PortState U) : Ident := s.2.moduleName s.1.target

/-- The value to assign to a port of type `type`: a signal of exactly this type, or a
constant, which is built in the current body. -/
def assignable (port : Ident) (type : SignalType) :
    PortValue → Effect (PortState U) Value
  | .signal v =>
    if v.type = type then pure v
    else throw (.ofKind (.typeMismatch port type.text v.type.text))
  | .constant c => do
    let (p, _) ← get
    (Workspace.onSystem p.system (System.buildConstant type c)).on Prod.snd
      fun ws s => (s.1, ws)
  | .disconnected => throw (.ofKind (.disconnected port))

/-- Assign an output. -/
def assign (port : Ident) (value : PortValue) : Effect (PortState U) Unit := do
  let s ← get
  match s.1.output? port with
  | none =>
    if (s.1.input? port).isSome then throw (.ofKind (.portDirection port .assignsInput))
    else throw (.ofKind (.unknownPorts (owner s) [port]))
  | some (i, p) =>
    let v ← assignable port p.type value
    modify fun (ports, ws) => ({ ports with slots := ports.slots.set i (some v) }, ws)

/-- Assign several outputs in order, up to the first failure. If a name is not that of an
output, all such names are reported and nothing is assigned. -/
def assignAll (values : List (Ident × PortValue)) : Effect (PortState U) Unit := do
  let s ← get
  let unknown := (values.map Prod.fst).filter fun port => (s.1.output? port).isNone
  if !unknown.isEmpty then
    throw (.ofKind (.unknownPorts (owner s) unknown))
  values.forM fun (port, value) => assign port value

end Ports

end Hardware
