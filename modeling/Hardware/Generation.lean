import Hardware.Script

/-!
What happens around the body of a generator. Before it runs, the module is given an
operation with an open body and is marked as generated; a scope is entered. After it has
run, the scope is left in every case, and if anything failed, the module is put back to
where it was: not generated, without a body, its instances cleared.
-/
namespace Hardware

/-- A generator that is running. -/
structure GeneratorRun where
  symbol : Ident
  loc : Location
  ports : Ports
  deriving DecidableEq, Repr

namespace GeneratorRun

def system (r : GeneratorRun) : SystemId := r.ports.system

def target (r : GeneratorRun) : ModuleId := r.ports.target

end GeneratorRun

namespace Workspace

variable {U : UserCode}

/-- The argument that is the clock of the module, if it has exactly one clock. -/
def clockArg (schema : Schema U.GeneratorCode) (args : List Value) : Option Signal :=
  match schema.clocks with
  | [i] => args[i]?
  | _ => none

/-- Open the body of `m` and enter the scope of its generator, which must be its only one. -/
def beginGeneration (s : SystemId) (m : ModuleId) :
    Effect (Workspace U) (GeneratorRun × U.GeneratorCode) := do
  let x ← getModule m
  match x.schema.generators.values with
  | [g] =>
    if (← getSystem s).isGenerated m then
      throw (.generation (.alreadyGenerated x.name))
    let symbol ← createOp s m
    let args ← onSystem s (System.onDesign (Design.addEntryBlock symbol))
    updateSystem s (System.markGenerated m)
    let site : GeneratorSite := { ip := ⟨symbol⟩, loc := g.loc, clock := clockArg x.schema args }
    updateSystem s (System.enterScope site)
    let ports := Ports.opened s m x.schema.inputs x.schema.outputs args
    pure ({ symbol, loc := g.loc, ports }, g.code)
  | gs =>
    throw ((Error.generation (.generatorCount x.schema.name gs.length)).located x.schema.loc)

/-- Close the body with the outputs that were assigned. A returned value is an error. -/
def closeBody (run : GeneratorRun) (result : GeneratorResult) : Effect (Workspace U) Unit := do
  let returned ← Effect.ofExcept result
  if let some what := returned.description? then
    throw ((Error.generation (.returnedValue what)).located run.loc)
  let values ← Effect.ofExcept (run.ports.outputValues ((← get).moduleName run.target))
  onSystem run.system (System.buildOutput values)

/-- Put `m` back to where it was before a failed generation. The instances in its body are
cleared and no longer kept track of. -/
def unwind (s : SystemId) (m : ModuleId) (sym : Ident) (ws : Workspace U) : Workspace U :=
  let inside (i : InstanceId) : Bool := ws.parent? i = some sym
  let released := (ws.system? s).elim [] fun sys => sys.instances.filter inside
  (ws.releaseInstances released).modifySystem s fun sys =>
    { sys.unmarkGenerated m with
      design := sys.design.setBody sym none
      instances := sys.instances.filter fun i => !inside i }

/-- Leave the scope of a generator that has ended, and report how the generation went. -/
def endGeneration (run : GeneratorRun) (result : GeneratorResult) : Effect (Workspace U) Unit :=
  fun ws =>
    match closeBody run result ws with
    | .ok () ws => .ok () (ws.modifySystem run.system System.leaveScope)
    | .error e ws =>
      .error e (unwind run.system run.target run.symbol
        (ws.modifySystem run.system System.leaveScope))

end Workspace

end Hardware
