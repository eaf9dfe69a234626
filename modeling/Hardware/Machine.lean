import Hardware.Generation
import Hardware.Perform
import Hardware.Production

/-!
Execution of a session. Bodies may start one another to any depth, so what waits for an
answer is kept on an explicit stack, and one step does at most one call. Running out of
budget gives `none`, never a result.
-/
namespace Hardware

/-- What waits for the answer to a call, from the innermost to the session. -/
inductive Stack (U : UserCode) (ρ : Type) : Awaited → Type where
  | session {a : Awaited} (next : Except Error a.Result → Script U ρ) : Stack U ρ a
  | generator {a : Awaited} (run : GeneratorRun)
      (next : Except Error a.Result → Script U GeneratorResult)
      (below : Stack U ρ .generation) : Stack U ρ a
  | producer {a : Awaited} (run : ProducerRun)
      (next : Except Error a.Result → Script U ProducerResult)
      (below : Stack U ρ .production) : Stack U ρ a
  /-- The generation of all modules that wait in `s`, of which one is being generated. -/
  | worklist (s : SystemId) (below : Stack U ρ .generation) : Stack U ρ .generation

/-- What the next step works on. -/
inductive Control (U : UserCode) (ρ : Type) where
  | halted (result : ρ)
  | session (script : Script U ρ)
  | generator (run : GeneratorRun) (script : Script U GeneratorResult)
      (below : Stack U ρ .generation)
  | producer (run : ProducerRun) (script : Script U ProducerResult)
      (below : Stack U ρ .production)
  | entering {a : Awaited} (e : Entry a) (below : Stack U ρ a)
  | answering {a : Awaited} (answer : Except Error a.Result) (below : Stack U ρ a)

structure Machine (U : UserCode) (ρ : Type) where
  workspace : Workspace U
  control : Control U ρ

namespace Machine

variable {U : UserCode} {ρ : Type}

/-- Give an answer to what waits for it. -/
def resume (ws : Workspace U) : {a : Awaited} → Stack U ρ a → Except Error a.Result → Machine U ρ
  | _, .session next, answer => ⟨ws, .session (next answer)⟩
  | _, .generator run next below, answer => ⟨ws, .generator run (next answer) below⟩
  | _, .producer run next below, answer => ⟨ws, .producer run (next answer) below⟩
  | _, .worklist s below, .ok () => ⟨ws, .entering (.generate s) below⟩
  | _, .worklist _ below, .error e => ⟨ws, .answering (.error e) below⟩

/-- Start the next module that waits in `s` and is not generated yet. -/
def nextWaiting (ws : Workspace U) (s : SystemId) (below : Stack U ρ .generation) : Machine U ρ :=
  match ws.system? s with
  | none => ⟨ws, .answering (.error (.internal .unknownHandle)) below⟩
  | some sys =>
    match sys.worklist with
    | [] => ⟨ws, .answering (.ok ()) below⟩
    | m :: rest =>
      let ws := ws.setSystem s { sys with worklist := rest }
      if sys.isGenerated m then ⟨ws, .entering (.generate s) below⟩
      else ⟨ws, .entering (.generateModule s m) (.worklist s below)⟩

def start (P : Program U) (ws : Workspace U) :
    {a : Awaited} → Entry a → Stack U ρ a → Machine U ρ
  | _, .generate s, below => nextWaiting ws s below
  | _, .generateModule s m, below =>
    match Workspace.beginGeneration s m ws with
    | .ok (run, code) ws => ⟨ws, .generator run (P.generator code) below⟩
    | .error e ws => ⟨ws, .answering (.error e) below⟩
  | _, .callFactory f c args, below =>
    match Workspace.beginProduction f c args ws with
    | .ok (.hit m) ws => ⟨ws, .answering (.ok m) below⟩
    | .ok (.miss run code bound) ws => ⟨ws, .producer run (P.producer code bound) below⟩
    | .error e ws => ⟨ws, .answering (.error e) below⟩

def stepSession (ws : Workspace U) : Script U ρ → Machine U ρ
  | .done r => ⟨ws, .halted r⟩
  | .call c next =>
    let (answer, ws) := c.perform.outcome ws
    ⟨ws, .session (next answer)⟩
  | .port c next => ⟨ws, .session (next c.refused)⟩
  | .enter e next => ⟨ws, .entering e (.session next)⟩

def stepGenerator (ws : Workspace U) (run : GeneratorRun) (below : Stack U ρ .generation) :
    Script U GeneratorResult → Machine U ρ
  | .done r =>
    let (answer, ws) := (Workspace.endGeneration run r).outcome ws
    ⟨ws, .answering (a := .generation) answer below⟩
  | .call c next =>
    let (answer, ws) := c.perform.outcome ws
    ⟨ws, .generator run (next answer) below⟩
  | .port c next =>
    let (answer, ports, ws) := c.perform.outcome (run.ports, ws)
    ⟨ws, .generator { run with ports } (next answer) below⟩
  | .enter e next => ⟨ws, .entering e (.generator run next below)⟩

def stepProducer (ws : Workspace U) (run : ProducerRun) (below : Stack U ρ .production) :
    Script U ProducerResult → Machine U ρ
  | .done r =>
    let (answer, ws) := (Workspace.endProduction run r).outcome ws
    ⟨ws, .answering (a := .production) answer below⟩
  | .call c next =>
    let (answer, ws) := c.perform.outcome ws
    ⟨ws, .producer run (next answer) below⟩
  | .port c next => ⟨ws, .producer run (next c.refused) below⟩
  | .enter e next => ⟨ws, .entering e (.producer run next below)⟩

/-- One step. A halted machine stays as it is. -/
def step (P : Program U) (m : Machine U ρ) : Machine U ρ :=
  match m.control with
  | .halted _ => m
  | .session script => stepSession m.workspace script
  | .generator run script below => stepGenerator m.workspace run below script
  | .producer run script below => stepProducer m.workspace run below script
  | .entering e below => start P m.workspace e below
  | .answering answer below => resume m.workspace below answer

/-- The result of the session and the workspace it left, once the machine has halted. -/
def result? (m : Machine U ρ) : Option (ρ × Workspace U) :=
  match m.control with
  | .halted r => some (r, m.workspace)
  | _ => none

/-- The result of a session that ends within `budget` steps. -/
def run (P : Program U) : Nat → Machine U ρ → Option (ρ × Workspace U)
  | 0, m => m.result?
  | budget + 1, m =>
    match m.result? with
    | some r => some r
    | none => run P budget (step P m)

/-- A session that is about to begin in an empty workspace. -/
def initial (state : U.State) (session : Script U ρ) : Machine U ρ :=
  ⟨{ state }, .session session⟩

end Machine

end Hardware
