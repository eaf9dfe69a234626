import Hardware.Perform
import Hardware.Production
import Hardware.Proofs.Instantiation

/-!
Every call that is answered at once is a sequence of changes, whether it succeeds or not.
What a call may do is bounded by its permit.
-/
namespace Hardware

variable {U : UserCode}

namespace Workspace

variable {ws ws' : Workspace U} {s : SystemId} {m : ModuleId} {p : Permit}

theorem addTop_ends (h : ws.Sound) (made : p.made s m) (queued : p.queued s m) :
    (addTop s m).Ends ws (fun _ ws' => Changes p ws ws' ∧ ws'.Waits s m)
      fun _ ws' => Changes p.failed ws ws' := by
  unfold addTop
  refine .bind ((createOp_ends h s m).imp (fun sym ws' c => ?_) fun _ _ same => same.1 ▸ .refl)
  have changes : Changes p.quiet ws ws' := c.changes made
  unfold getModule
  refine .bind (resolve_ends (fun x hx => ?_) fun _ => changes.mono p.quiet_le_failed)
  split
  · rename_i gen
    obtain ⟨-, sys, -, hs, hsym, -⟩ := c.symbolOf?
    refine .bind ((enqueue_ends p queued hs hx gen hsym).imp ?_ fun _ _ no => no.elim)
    rintro _ ws'' ⟨-, more, waits⟩
    exact ⟨(changes.mono p.quiet_le).trans more, waits⟩
  · rename_i none
    refine ⟨changes.mono p.quiet_le, fun y hy gen => ?_⟩
    rw [hx] at hy
    cases hy
    exact absurd gen none

theorem importModule_ends (p : Permit) (s : SystemId) (op : ModuleOp) (loc : Location)
    (brought : p.brought op) :
    (importModule s op loc).Ends ws (fun _ ws' => Changes p ws ws') fun _ ws' => ws' = ws := by
  unfold importModule getSystem
  refine .bind (resolve_ends (fun sys _ => ?_) fun _ => rfl)
  split
  · exact .bind rfl
  · refine .single (.addModule ws ⟨fun _ => rfl, ?_, ?_⟩ ?_)
    · rintro _ ⟨⟩
      rfl
    · rintro _ ⟨⟩
      simp [Module.ofOp, PortDesc.toPort, Function.comp_def]
    · rintro _ ⟨⟩
      exact brought

theorem addFactory_ends (p : Permit) (name : Ident) (signature : Signature)
    (producer : U.ProducerCode) (loc : Location) :
    (addFactory name signature producer loc).Ends ws (fun _ ws' => Changes p ws ws')
      fun _ ws' => ws' = ws := by
  unfold addFactory
  refine .bind (Effect.ends_locating (Effect.ends_ofExcept (fun _ _ => ?_) fun _ _ => rfl))
  refine .bind ?_
  simp only [Effect.ends_get]
  exact .bind (Effect.ends_modify.mpr (.single (.aside rfl rfl rfl)))

theorem declare_ends (p : Permit) (decl : Declaration U.GeneratorCode) :
    (declare decl).Ends ws (fun _ ws' => Changes p ws ws') fun _ ws' => ws' = ws := by
  unfold declare
  refine .bind (Effect.ends_ofExcept (fun schema _ => ?_) fun _ _ => rfl)
  refine .single (.addModule ws ⟨fun imported => ?_, fun op held => ?_, fun op held => ?_⟩
    fun op held => ?_)
  · cases imported
  · cases held
  · cases held
  · cases held

theorem clearInstances_ends (p : Permit) (s : SystemId) :
    (clearInstances s).Ends ws (fun _ ws' => Changes p ws ws') fun _ ws' => ws' = ws := by
  unfold clearInstances getSystem
  refine .bind (resolve_ends (fun sys hs => ?_) fun _ => rfl)
  refine .bind (Effect.ends_modify.mpr ?_)
  have there : (ws.releaseInstances sys.instances).system? s = some sys := by
    rwa [system?_releaseInstances]
  exact updateSystem_ends there (.single (.forget hs))

theorem clearInstance_ends (p : Permit) (i : InstanceId) :
    (clearInstance i).Ends ws (fun _ ws' => Changes p ws ws') fun _ ws' => ws' = ws := by
  unfold clearInstance
  refine .bind (resolve_ends (fun x _ => ?_) fun _ => rfl)
  exact .single (.release ws i)

theorem buildOp_ends (h : ws.Sound) (p : Permit) (s : SystemId) (name : Ident)
    (operands : List Signal) (types : List SignalType) (loc : Location)
    (defined : p.verified s → ∀ sys, ws.system? s = some sys → ∀ v ∈ operands, sys.Defined v) :
    (onSystem s (System.buildOp name operands types loc)).Ends ws
      (fun sigs ws' => Changes p ws ws' ∧ ∃ sys, ws'.system? s = some sys ∧
        ∀ v ∈ sigs, sys.Defined v)
      fun _ ws' => ws' = ws := by
  refine onSystem_ends (fun _ => rfl) fun sys hs =>
    (System.buildOp_ends sys name operands types loc).imp ?_ ?_
  · rintro _ _ ⟨scope, outer, b, P, rfl, rfl⟩
    have sound := h.systems s sys hs
    refine ⟨.single (.push hs P.top P.body rfl P.id fun v => ?_), _, system?_setSystem_self hs _,
      fun v hv => P.defined_of_mem sound rfl hv⟩
    exact P.verifyOp sound (defined v sys hs) fun _ _ => rfl
  · rintro _ _ rfl
    exact setSystem_self hs

/-- The module that a producer made gets the parameters of the call, and is kept. -/
theorem endProduction_ends (p : Permit) (run : ProducerRun) (result : ProducerResult) :
    (endProduction run result).Ends ws (fun _ ws' => Changes p ws ws')
      fun _ ws' => ws' = ws := by
  unfold endProduction getModule
  refine .bind (Effect.ends_ofExcept (fun m _ => ?_) fun _ _ => rfl)
  refine .bind (resolve_ends (fun x hx => ?_) fun _ => rfl)
  refine .bind (resolve_ends (fun cache _ => ?_) fun _ => rfl)
  refine .bind (Effect.ends_modify.mpr ?_)
  have named : Changes p ws (ws.setModule m { x with parameters := some run.key }) :=
    .single (.setParameters hx run.key)
  exact named.tail (.aside rfl rfl rfl)

theorem beginProduction_ends (f : FactoryId) (c : CacheId) (args : Args) :
    (beginProduction f c args).Ends ws (fun _ ws' => ws' = ws) fun _ ws' => ws' = ws := by
  unfold beginProduction
  refine .bind (resolve_ends (fun factory _ => ?_) fun _ => rfl)
  refine .bind (resolve_ends (fun cache _ => ?_) fun _ => rfl)
  refine .bind (Effect.ends_ofExcept (fun bound _ => ?_) fun _ _ => rfl)
  refine .bind (Effect.ends_ofExcept (fun key _ => ?_) fun _ _ => rfl)
  split <;> rfl

end Workspace

namespace Call

/-- The module to which a call may give an operation, and which it may make wait. -/
def Adds : Call U → SystemId → ModuleId → Prop
  | .addTop s m, t, n => t = s ∧ n = m
  | .instantiate s m _, t, n => t = s ∧ n = m
  | _, _, _ => False

/-- What a call may do, if whatever it pushes into the systems `checked` has to verify. -/
def permit (c : Call U) (checked : SystemId → Prop) : Permit where
  verified := checked
  made := c.Adds
  queued := c.Adds
  brought op := ∃ s loc, c = .importModule s op loc
  drained _ := False
  assigned _ := False

/-- What makes the operations verify that a call pushes. -/
def Fits (checked : SystemId → Prop) (ws : Workspace U) : Call U → Prop
  | .buildOp s _ operands _ _ =>
    checked s → ∀ sys, ws.system? s = some sys → ∀ v ∈ operands, sys.Defined v
  | .instantiate s _ _ =>
    checked s → ∀ sys, ws.system? s = some sys → sys.conf.verifyInstances = true
  | _ => True

theorem fits_of_unchecked (c : Call U) {checked : SystemId → Prop} (none : ∀ s, ¬ checked s)
    (ws : Workspace U) : c.Fits checked ws := by
  cases c <;> first | exact trivial | exact fun here => (none _ here).elim

/-- What an answer says about the workspace that is left. -/
def Answered (ws : Workspace U) : (c : Call U) → c.Result → Prop
  | .addTop s m, _ => ws.Waits s m
  | .instantiate s m _, i => ws.Waits s m ∧ ws.Sited s i
  | .buildOp s _ _ _ _, sigs => ∃ sys, ws.system? s = some sys ∧ ∀ v ∈ sigs, sys.Defined v
  | _, _ => True

variable {ws : Workspace U} {checked : SystemId → Prop}

theorem perform_ends (c : Call U) (h : ws.Sound) (fits : c.Fits checked ws) :
    c.perform.Ends ws
      (fun answer ws' => Workspace.Changes (c.permit checked) ws ws' ∧ c.Answered ws' answer)
      fun _ ws' => Workspace.Changes (c.permit checked).failed ws ws' := by
  have idle : ∀ {α : Type} {x : Effect (Workspace U) α} {q : Permit},
      x.Ends ws (fun _ ws' => Workspace.Changes (c.permit checked) ws ws') (fun _ ws' => ws' = ws) →
        x.Ends ws (fun _ ws' => Workspace.Changes (c.permit checked) ws ws' ∧ True)
          fun _ ws' => Workspace.Changes q ws ws' := by
    intro α x q ends
    refine ends.imp (fun _ _ changes => ⟨changes, trivial⟩) ?_
    rintro _ _ rfl
    exact .refl
  cases c with
  | snapshot => exact ⟨.refl, trivial⟩
  | setState state => exact ⟨.single (.aside rfl rfl rfl), trivial⟩
  | newSystem name conf => exact ⟨.single (.addSystem ws name conf), trivial⟩
  | newCache => exact ⟨.single (.aside rfl rfl rfl), trivial⟩
  | newFactory name signature producer loc =>
      exact idle (Workspace.addFactory_ends _ name signature producer loc)
  | declare decl => exact idle (Workspace.declare_ends _ decl)
  | importModule s op loc => exact idle (Workspace.importModule_ends _ s op loc ⟨s, loc, rfl⟩)
  | addTop s m => exact Workspace.addTop_ends h ⟨rfl, rfl⟩ ⟨rfl, rfl⟩
  | uniquify s base =>
      exact idle ((Workspace.uniquify_ends _ s base).imp (fun _ _ ok => ok.1) fun _ _ no => no.1)
  | buildOp s name operands types loc =>
      refine (Workspace.buildOp_ends h ((buildOp s name operands types loc).permit checked) s name
        operands types loc fits).imp (fun _ _ h => h) ?_
      rintro _ _ rfl
      exact .refl
  | instantiate s m r =>
      have adds : (permit (instantiate s m r : Call U) checked).made s m := ⟨rfl, rfl⟩
      exact (Workspace.instantiate_ends h adds adds fits r).imp (fun _ _ ok => ok.1)
        fun _ _ no => no.1
  | clearInstance i => exact idle (Workspace.clearInstance_ends _ i)
  | clearInstances s => exact idle (Workspace.clearInstances_ends _ s)

end Call

end Hardware
