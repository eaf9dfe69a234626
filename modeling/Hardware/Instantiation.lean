import Hardware.Binding
import Hardware.Workspace

/-!
Modules at work in a system: the creation of module operations on first use, imports,
instances, and the reading of their outputs.
-/
namespace Hardware

/-- What is asked of a new instance. Without a name it is called after its module. -/
structure InstanceRequest where
  inputs : List (Ident × PortValue)
  name : Option Ident := none
  appid : Option AppId := none
  loc : Location
  deriving DecidableEq, Repr

namespace Workspace

variable {U : UserCode}

def recordSymbol (s : SystemId) (m : ModuleId) (sym : Ident) : Effect (Workspace U) Unit :=
  updateSystem s fun sys => { sys with symbols := sys.symbols.insert m sym }

/-- Move the operation of an imported module into the design of `s`, under its own symbol,
which must be free. An operation can be moved once; until then it stays with the module. -/
def moveImport (s : SystemId) (m : ModuleId) (x : Module U.GeneratorCode)
    (held : Option ModuleOp) : Effect (Workspace U) Ident := do
  if ((← getSystem s).design.findModule? x.name).isSome then
    throw (.structural (.importClash x.name))
  match held with
  | none => throw (.structural (.importMoved x.schema.name))
  | some op =>
    modify fun ws => ws.setModule m { x with origin := .imported none }
    onSystem s (System.onDesign (Design.addModule op))

/-- Create the operation of a declared module under a fresh symbol. -/
def createDeclared (s : SystemId) (x : Module U.GeneratorCode) : Effect (Workspace U) Ident := do
  let conf := (← getSystem s).conf
  onSystem s <| System.onDesign do
    let sym ← Design.uniqueSymbol x.name
    let _ ← Design.addModule (x.toOp conf.externalOutputFile sym)
    if conf.emitMetadata then
      let found := if conf.autoProvenance then conf.provenance else none
      let _ ← Design.addSymbolMetadata sym (x.metadataRecord found) x.schema.loc
    pure sym

/-- The symbol of `m` in `s`. Its operation is created if it is not there yet. -/
def createOp (s : SystemId) (m : ModuleId) : Effect (Workspace U) Ident := do
  let x ← getModule m
  match (← getSystem s).symbolOf? m with
  | some sym => pure sym
  | none =>
    let sym ←
      match x.origin with
      | .imported held => moveImport s m x held
      | .declared => createDeclared s x
    recordSymbol s m sym
    pure sym

/-- Create the operation of a top-level module, and let it wait to be generated. -/
def addTop (s : SystemId) (m : ModuleId) : Effect (Workspace U) Ident := do
  let sym ← createOp s m
  if (← getModule m).hasGenerator then
    updateSystem s (System.enqueue m)
  pure sym

/-- Register a checked declaration as a new module. -/
def declare (decl : Declaration U.GeneratorCode) : Effect (Workspace U) ModuleId := do
  let schema ← Effect.ofExcept decl.build
  addModule { schema, origin := .declared }

/-- Take in a module operation, whose symbol must be free in `s`. -/
def importModule (s : SystemId) (op : ModuleOp) (loc : Location) :
    Effect (Workspace U) ModuleId := do
  if ((← getSystem s).design.findModule? op.sym).isSome then
    throw (.structural (.importTaken op.sym))
  addModule (Module.ofOp op loc)

/-- The operand for one input: the signal, or a constant in the current body. Nothing is
tied to zero. -/
def inputValue (s : SystemId) (p : PortDesc) : PortValue → Effect (Workspace U) Value
  | .signal v => pure v
  | .constant c => onSystem s (System.buildConstant p.type c)
  | .disconnected => onSystem s (System.buildConstant p.type p.type.zero)

/-- Instantiate `m` in the body of the innermost running generator of `s`. Inputs are
checked before anything is built. Then follow, in this order, the operation of `m`, the
constants, the symbol and the instance; a failure leaves what was done before it. -/
def instantiate (s : SystemId) (m : ModuleId) (r : InstanceRequest) :
    Effect (Workspace U) InstanceId := do
  let x ← getModule m
  let ip ← onSystem s System.currentPoint
  let bound ← (Effect.ofExcept (x.bindInputs r.inputs)).locating r.loc
  let symbol ← createOp s m
  let values ← (x.schema.inputs.zip bound).mapM fun (p, v) => inputValue s p v
  let name ← onSystem s (System.uniquify (r.name.getD x.schema.name))
  let params := if x.hasGenerator then none else x.parameters
  let (op, results) ←
    onSystem s (System.buildInstance ip symbol name values params r.appid r.loc)
  let site : InstanceSite := { parent := ip.owner, op, results }
  let i ← addInstance { name, system := s, target := m, appid := r.appid, site := some site }
  updateSystem s fun sys => { sys with instances := sys.instances ++ [i] }
  if x.hasGenerator then
    updateSystem s (System.enqueue m)
  pure i

/-- Cut the ties of all instances that `s` keeps track of, and keep track of none. -/
def clearInstances (s : SystemId) : Effect (Workspace U) Unit := do
  let sys ← getSystem s
  modify fun ws => ws.releaseInstances sys.instances
  updateSystem s fun sys => { sys with instances := [] }

/-- Cut the tie of one instance. -/
def clearInstance (i : InstanceId) : Effect (Workspace U) Unit := do
  let _ ← resolve fun ws => ws.instance? i
  modify fun ws => ws.releaseInstance i

def instanceReleased (ws : Workspace U) (x : Instance) : Error :=
  .ofKind (.released (.instanceCleared x.name (ws.moduleName x.target)))

/-- Ports of the module that `x` is an instance of. -/
def instancePorts (ws : Workspace U) (x : Instance) : List PortDesc × List PortDesc :=
  (ws.module? x.target).elim ([], []) fun m => (m.schema.inputs, m.schema.outputs)

/-- Read an output of an instance. A port of the wrong name is reported even after the
instance was cleared. -/
def output (ws : Workspace U) (i : InstanceId) (port : Ident) : Except Error Signal :=
  match ws.instance? i with
  | none => throw (.internal .unknownHandle)
  | some x =>
    let (inputs, outputs) := ws.instancePorts x
    match (PortDesc.table outputs).get? port with
    | none =>
      if inputs.any fun p => p.name = port then throw (.ofKind (.instanceInput port))
      else throw (.ofKind (.unknownPorts (ws.moduleName x.target) [port]))
    | some (idx, _) =>
      match x.site.bind fun site => site.results[idx]? with
      | some v => pure v
      | none => throw (ws.instanceReleased x)

/-- All outputs of an instance by name. -/
def outputs (ws : Workspace U) (i : InstanceId) : Except Error (List (Ident × Signal)) :=
  match ws.instance? i with
  | none => throw (.internal .unknownHandle)
  | some x =>
    match x.site with
    | none => throw (ws.instanceReleased x)
    | some site =>
      pure <| (PortDesc.table (ws.instancePorts x).2).entries.filterMap fun (name, idx, _) =>
        (site.results[idx]?).map fun v => (name, v)

end Workspace

end Hardware
