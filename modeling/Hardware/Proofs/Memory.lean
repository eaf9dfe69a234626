import Hardware.Generation
import Hardware.Perform
import Hardware.Proofs.Workspace

/-!
What is left alone. Whatever is done for systems and generators leaves the rest of the workspace as
it is, but for the operation that an imported module gives away. Above all this rest holds what
calls of factories go by: the caches, the factories and the parameters of the modules. Together
these are the memory of a workspace.
-/
namespace Hardware

variable {U : UserCode} {ρ : Type}

namespace Effect

variable {σ τ α β : Type} {part : σ → τ}

/-- `x` does not touch `part`, whether it succeeds or fails. -/
def Leaves (part : σ → τ) (x : Effect σ α) : Prop :=
  ∀ s, x.Ends s (fun _ t => part t = part s) fun _ t => part t = part s

theorem leaves_pure (a : α) : (pure a : Effect σ α).Leaves part := fun _ => rfl

theorem leaves_throw (e : Error) : (throw e : Effect σ α).Leaves part := fun _ => rfl

theorem leaves_get : (get : Effect σ σ).Leaves part := fun _ => rfl

theorem leaves_modify {f : σ → σ} (h : ∀ s, part (f s) = part s) :
    (modify f : Effect σ PUnit).Leaves part := h

theorem leaves_ofExcept (r : Except Error α) : (ofExcept r : Effect σ α).Leaves part := by
  cases r with
  | ok a => exact leaves_pure a
  | error e => exact leaves_throw e

theorem Leaves.bind {x : Effect σ α} {f : α → Effect σ β} (hx : x.Leaves part)
    (hf : ∀ a, (f a).Leaves part) : (x >>= f).Leaves part := fun s =>
  .bind ((hx s).imp (fun a t same => (hf a t).imp (fun _ _ h => h.trans same)
    fun _ _ h => h.trans same) fun _ _ same => same)

theorem Leaves.locating {x : Effect σ α} (hx : x.Leaves part) (loc : Location) :
    (x.locating loc).Leaves part := fun s => ends_locating (hx s)

theorem Leaves.mapM {f : α → Effect σ β} (h : ∀ a, (f a).Leaves part) (as : List α) :
    (as.mapM f).Leaves part := fun s =>
  ends_mapM (S := fun t => part t = part s) rfl fun a _ t same =>
    (h a t).imp (fun _ _ h => h.trans same) fun _ _ h => h.trans same

theorem Leaves.forM {f : α → Effect σ PUnit} (h : ∀ a, (f a).Leaves part) (as : List α) :
    (as.forM f).Leaves part := fun s =>
  ends_forM (S := fun t => part t = part s) rfl fun a _ t same =>
    (h a t).imp (fun _ _ h => h.trans same) fun _ _ h => h.trans same

theorem Leaves.outcome {x : Effect σ α} (hx : x.Leaves part) (s : σ) :
    part (x.outcome s).2 = part s :=
  Ends.outcome (S := fun t => part t = part s) (hx s)

end Effect

namespace Workspace

open Effect

variable {τ α : Type} {part : Workspace U → τ}

/-- The parameters of all modules. -/
def parameters (ws : Workspace U) : List (Option Attr) := ws.modules.map Module.parameters

/-- What calls of factories go by, and what they leave. -/
def memory (ws : Workspace U) :
    List Cache × List (Factory U.ProducerCode) × List (Option Attr) :=
  (ws.caches, ws.factories, ws.parameters)

theorem parameters_setModule {ws : Workspace U} {m : ModuleId} {x : Module U.GeneratorCode}
    (hx : ws.module? m = some x) (origin : Origin) :
    (ws.setModule m { x with origin }).parameters = ws.parameters := by
  have found : ws.modules[m.index]? = some x := hx
  refine List.ext_getElem? fun i => ?_
  unfold parameters setModule
  rw [List.getElem?_map, List.getElem?_map, List.getElem?_set]
  split
  · rename_i same
    rw [← same, if_pos (List.getElem?_eq_some_iff.mp found).1, found]
    rfl
  · rfl

/-- `part` is of no concern to systems and instances, nor to what an imported module holds. -/
structure Outside (part : Workspace U → τ) : Prop where
  systems : ∀ (ws : Workspace U) s sys sys', ws.system? s = some sys →
    part (ws.setSystem s sys') = part ws
  instances : ∀ (ws : Workspace U) instances, part { ws with instances } = part ws
  imports : ∀ (ws : Workspace U) m x held, ws.module? m = some x → x.origin = .imported held →
    part (ws.setModule m { x with origin := .imported none }) = part ws

theorem outside_memory : Outside (Workspace.memory (U := U)) where
  systems _ _ _ _ _ := rfl
  instances _ _ := rfl
  imports ws _ _ _ hx _ := congrArg (ws.caches, ws.factories, ·) (parameters_setModule hx _)

theorem leaves_resolve (look : Workspace U → Option α) : (resolve look).Leaves part := fun _ =>
  resolve_ends (fun _ _ => rfl) fun _ => rfl

section Outside

variable (out : Outside part)
include out

theorem Outside.onSystem (s : SystemId) (x : Effect System α) :
    (onSystem s x : Effect (Workspace U) α).Leaves part := fun ws =>
  onSystem_ends (fun _ => rfl) fun sys hs => by
    unfold Ends
    cases x sys <;> exact out.systems ws s sys _ hs

/-- An import gives its operation away, and keeps everything else. -/
theorem Outside.moveImport {ws : Workspace U} {s : SystemId} {m : ModuleId}
    {x : Module U.GeneratorCode} {held : Option ModuleOp} (hx : ws.module? m = some x)
    (origin : x.origin = .imported held) :
    (moveImport s m x held).Ends ws (fun _ ws' => part ws' = part ws)
      fun _ ws' => part ws' = part ws := by
  unfold Workspace.moveImport getSystem
  refine .bind (resolve_ends (fun sys _ => ?_) fun _ => rfl)
  cases held with
  | none =>
      dsimp only
      split <;> rfl
  | some op =>
      dsimp only
      split
      · rfl
      · refine .bind (ends_modify.mpr ?_)
        have moved := out.imports ws m x _ hx origin
        exact (out.onSystem s _ _).imp (fun _ _ same => same.trans moved)
          fun _ _ same => same.trans moved

theorem Outside.createOp (s : SystemId) (m : ModuleId) :
    (createOp s m : Effect (Workspace U) Ident).Leaves part := by
  have recorded (sym : Ident) : (recordSymbol s m sym >>= fun _ => pure sym :
      Effect (Workspace U) Ident).Leaves part :=
    (out.onSystem s _).bind fun _ => leaves_pure sym
  intro ws
  unfold Workspace.createOp getModule getSystem
  refine .bind (resolve_ends (fun x hx => ?_) fun _ => rfl)
  refine .bind (resolve_ends (fun sys _ => ?_) fun _ => rfl)
  split
  · rfl
  · cases origin : x.origin with
    | declared =>
        exact Leaves.bind ((leaves_resolve _).bind fun _ => out.onSystem s _) recorded ws
    | imported held =>
        refine .bind ((out.moveImport hx origin).imp (fun sym ws' same => ?_) fun _ _ same => same)
        exact (recorded sym ws').imp (fun _ _ later => later.trans same)
          fun _ _ later => later.trans same

theorem Outside.addTop (s : SystemId) (m : ModuleId) :
    (addTop s m : Effect (Workspace U) Ident).Leaves part := by
  refine (out.createOp s m).bind fun sym => (leaves_resolve _).bind fun x => ?_
  split
  · exact (out.onSystem s _).bind fun _ => leaves_pure sym
  · exact leaves_pure sym

theorem Outside.inputValue (s : SystemId) (p : PortDesc) (v : PortValue) :
    (inputValue s p v : Effect (Workspace U) Value).Leaves part := by
  cases v with
  | signal v => exact leaves_pure v
  | constant c => exact out.onSystem s _
  | disconnected => exact out.onSystem s _

theorem Outside.instantiate (s : SystemId) (m : ModuleId) (r : InstanceRequest) :
    (instantiate s m r : Effect (Workspace U) InstanceId).Leaves part := by
  refine (leaves_resolve _).bind fun x => (out.onSystem s _).bind fun ip => ?_
  refine ((leaves_ofExcept _).locating r.loc).bind fun bound => ?_
  refine (out.createOp s m).bind fun symbol => ?_
  refine (Leaves.mapM (fun ⟨p, v⟩ => out.inputValue s p v) _).bind fun values => ?_
  refine (out.onSystem s _).bind fun name => (out.onSystem s _).bind fun built => ?_
  refine Leaves.bind (fun ws => out.instances ws _) fun i => (out.onSystem s _).bind fun _ => ?_
  split
  · exact (out.onSystem s _).bind fun _ => leaves_pure i
  · exact leaves_pure i

theorem Outside.clearInstance (i : InstanceId) :
    (clearInstance i : Effect (Workspace U) Unit).Leaves part :=
  (leaves_resolve _).bind fun _ => leaves_modify fun ws => releaseInstance_leaves out.instances ws i

theorem Outside.clearInstances (s : SystemId) :
    (clearInstances s : Effect (Workspace U) Unit).Leaves part := by
  refine (leaves_resolve _).bind fun sys => ?_
  refine Leaves.bind (leaves_modify fun ws => ?_) fun _ => out.onSystem s _
  exact releaseInstances_leaves out.instances ws _

theorem Outside.beginGeneration (s : SystemId) (m : ModuleId) :
    (beginGeneration s m : Effect (Workspace U) _).Leaves part := by
  refine (leaves_resolve _).bind fun x => ?_
  split
  · refine (leaves_resolve _).bind fun sys => ?_
    split
    · exact fun _ => rfl
    · refine (out.createOp s m).bind fun symbol => (out.onSystem s _).bind fun args => ?_
      refine (out.onSystem s _).bind fun _ => (out.onSystem s _).bind fun _ => ?_
      exact leaves_pure _
  · exact leaves_throw _

theorem Outside.closeBody (run : GeneratorRun) (result : GeneratorResult) :
    (closeBody run result : Effect (Workspace U) Unit).Leaves part := by
  refine (leaves_ofExcept _).bind fun returned => ?_
  have built : (do
      let values ← Effect.ofExcept (run.ports.outputValues ((← get).moduleName run.target))
      Workspace.onSystem run.system (System.buildOutput values) :
      Effect (Workspace U) Unit).Leaves part :=
    leaves_get.bind fun _ => (leaves_ofExcept _).bind fun _ => out.onSystem _ _
  split
  · exact fun _ => rfl
  · exact built

theorem Outside.modifySystem (ws : Workspace U) (s : SystemId) (f : System → System) :
    part (ws.modifySystem s f) = part ws := by
  unfold Workspace.modifySystem
  cases hs : ws.system? s with
  | none => rfl
  | some sys => exact out.systems ws s sys _ hs

theorem Outside.endGeneration (ws : Workspace U) (run : GeneratorRun) (result : GeneratorResult) :
    part ((endGeneration run result).outcome ws).2 = part ws := by
  have closed := out.closeBody run result ws
  unfold Effect.outcome Workspace.endGeneration
  unfold Effect.Ends at closed
  cases hc : Workspace.closeBody run result ws with
  | ok u ws' =>
      rw [hc] at closed
      exact (out.modifySystem _ _ _).trans closed
  | error e ws' =>
      rw [hc] at closed
      refine (out.modifySystem _ _ _).trans ((releaseInstances_leaves out.instances _ _).trans ?_)
      exact (out.modifySystem _ _ _).trans closed

end Outside

end Workspace

namespace Call

open Effect Workspace

/-- True of the calls that are made for systems and instances. -/
def isInside : Call U → Bool
  | .snapshot | .addTop .. | .uniquify .. | .buildOp .. | .instantiate .. | .clearInstance ..
  | .clearInstances .. => true
  | _ => false

theorem leaves_of_isInside {τ : Type} {part : Workspace U → τ} (out : Outside part) (c : Call U)
    (inside : c.isInside = true) : c.perform.Leaves part := by
  cases c with
  | snapshot => exact leaves_get
  | addTop s m => exact out.addTop s m
  | uniquify s base => exact out.onSystem s _
  | buildOp s name operands types loc => exact out.onSystem s _
  | instantiate s m request => exact out.instantiate s m request
  | clearInstance i => exact out.clearInstance i
  | clearInstances s => exact out.clearInstances s
  | _ => cases inside

end Call

namespace Ports

open Effect Workspace

variable {τ : Type} {part : Workspace U → τ} (out : Outside part)
include out

theorem leaves_assignable (port : Ident) (type : SignalType) (v : PortValue) :
    (assignable port type v : Effect (PortState U) Value).Leaves fun s => part s.2 := by
  cases v with
  | signal v =>
      dsimp only [assignable]
      split
      · exact leaves_pure v
      · exact leaves_throw _
  | constant c =>
      refine leaves_get.bind fun _ => fun s => ends_on ?_
      exact out.onSystem _ _ s.2
  | disconnected => exact leaves_throw _

theorem leaves_assign (port : Ident) (v : PortValue) :
    (assign port v : Effect (PortState U) Unit).Leaves fun s => part s.2 := by
  refine leaves_get.bind fun s => ?_
  split
  · split <;> exact leaves_throw _
  · exact (leaves_assignable out port _ v).bind fun _ => leaves_modify fun _ => rfl

/-- No call at a port touches what is outside of systems and instances. -/
theorem leaves_perform (c : PortCall) :
    (c.perform : Effect (PortState U) c.Result).Leaves fun s => part s.2 := by
  cases c with
  | read port => exact leaves_get.bind fun _ => leaves_ofExcept _
  | assign port v => exact leaves_assign out port v
  | assignAll values =>
      refine leaves_get.bind fun s => ?_
      dsimp only
      split
      · exact fun _ => rfl
      · exact Leaves.forM (fun ⟨port, v⟩ => leaves_assign out port v) values
  | check => exact leaves_get.bind fun _ => leaves_ofExcept _
  | owner => exact leaves_get.bind fun _ => leaves_pure _
  | system => exact leaves_get.bind fun _ => leaves_pure _

end Ports

end Hardware
