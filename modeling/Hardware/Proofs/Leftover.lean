import Hardware.Proofs.NameSupply
import Hardware.Proofs.Worklist

/-!
What a call of `instantiate` leaves behind that fails. The registry of instances and the
worklist are as before. But only the inputs are checked before anything is built, and what was
built when the call fails later is not taken back, nor is the symbol that was granted.
-/
namespace Hardware

variable {U : UserCode} {ρ : Type}

theorem NameSupply.uniquify_ne (names : NameSupply) (base : Ident) :
    (names.uniquify base).2 ≠ names := by
  intro same
  have issued := names.issued_uniquify base
  rw [same] at issued
  exact List.cons_ne_self _ _ issued.symm

theorem System.Builds.unchanged_iff {old sys : System} {scope : Scope GeneratorSite}
    {outer : List (Scope GeneratorSite)} {b : Block} {names : NameSupply} {ops : List Operation}
    (a : old.Builds sys scope outer b names ops) (top : old.running.scopes = scope :: outer) :
    sys.running = old.running ∧ sys.design.body? scope.site.ip.owner = some b ↔
      names = scope.names ∧ ops = [] := by
  have scopes : sys.running = old.running ↔ names = scope.names := by
    constructor
    · intro same
      have all := a.scopes
      rw [same, top] at all
      exact (congrArg Scope.names (List.cons.inj all).1).symm
    · intro same
      have all := a.scopes
      rw [same, ← top] at all
      exact congrArg ScopeStack.mk all
  have body : sys.design.body? scope.site.ip.owner = some b ↔ ops = [] := by
    rw [a.body, Option.some.injEq]
    constructor
    · intro same
      exact List.append_right_eq_self.mp (congrArg Block.ops same)
    · rintro rfl
      rw [List.append_nil]
  rw [scopes, body]

namespace Workspace

variable {m : ModuleId} {r : InstanceRequest} {x : Module U.GeneratorCode} {sys sys' : System}
  {scope : Scope GeneratorSite} {outer : List (Scope GeneratorSite)} {b : Block}
  {bound : List PortValue}

/-- The call fails before it has built anything: the inputs are refused, the module can get no
operation, or not even the first constant fits. -/
def FailsFirst (m : ModuleId) (r : InstanceRequest) (x : Module U.GeneratorCode)
    (sys : System) : Prop :=
  (∀ bound, x.bindInputs r.inputs ≠ .ok bound) ∨ sys.Refuses m x ∨
    ∃ bound c rest, x.bindInputs r.inputs = .ok bound ∧
      PortDesc.constants (x.schema.inputs.zip bound) = c :: rest ∧ ¬ c.2.Fits c.1

theorem failsFirst_iff (inputs : x.bindInputs r.inputs = .ok bound) (known : ¬ sys.Refuses m x) :
    FailsFirst m r x sys ↔ ∃ c rest,
      PortDesc.constants (x.schema.inputs.zip bound) = c :: rest ∧ ¬ c.2.Fits c.1 := by
  constructor
  · rintro (refused | refuses | ⟨bound', c, rest, inputs', constants, misfit⟩)
    · exact absurd inputs (refused bound)
    · exact absurd refuses known
    · rw [inputs] at inputs'
      cases inputs'
      exact ⟨c, rest, constants, misfit⟩
  · rintro ⟨c, rest, constants, misfit⟩
    exact .inr (.inr ⟨bound, c, rest, inputs, constants, misfit⟩)

/-- Where all constants were built, all of them fit. -/
theorem not_failsFirst {ops : List Operation} (inputs : x.bindInputs r.inputs = .ok bound)
    (known : ¬ sys.Refuses m x)
    (left : List.Forall₂ Operation.IsConstant ops
      (PortDesc.constants (x.schema.inputs.zip bound))) : ¬ FailsFirst m r x sys := by
  rw [failsFirst_iff inputs known]
  rintro ⟨c, rest, constants, misfit⟩
  rw [constants] at left
  cases left with
  | cons first _ => exact misfit first.fits

/-- What the call fails at decides whether anything is left. -/
theorem Aborts.leaves (a : Aborts m r x sys sys' scope outer b)
    (top : sys.running.scopes = scope :: outer)
    (body : sys.design.body? scope.site.ip.owner = some b) :
    sys'.instances = sys.instances ∧ sys'.worklist = sys.worklist ∧
      (sys'.running = sys.running ∧ sys'.design.body? scope.site.ip.owner = some b ↔
        FailsFirst m r x sys) := by
  cases a with
  | refused cause same =>
      subst same
      refine ⟨rfl, rfl, fun _ => ?_, fun _ => ⟨rfl, body⟩⟩
      exact cause.imp_right .inl
  | @misfit bound built rest c ops inputs known constants misfit left builds =>
      refine ⟨builds.instances, builds.worklist, ?_⟩
      rw [builds.unchanged_iff top, failsFirst_iff inputs known, constants]
      cases left with
      | nil => exact ⟨fun _ => ⟨c, rest, rfl, misfit⟩, fun _ => ⟨rfl, rfl⟩⟩
      | cons first others =>
          refine iff_of_false (fun none => List.cons_ne_nil _ _ none.2) ?_
          rintro ⟨c', rest', split, misfit'⟩
          obtain ⟨rfl, -⟩ := List.cons.inj split
          exact misfit' first.fits
  | itself inputs known left own builds =>
      refine ⟨builds.instances, builds.worklist, ?_⟩
      rw [builds.unchanged_iff top]
      exact iff_of_false (fun same => NameSupply.uniquify_ne _ _ same.1)
        (not_failsFirst inputs known left)
  | unverified inputs known left hsym kind unverified builds =>
      refine ⟨builds.instances, builds.worklist, ?_⟩
      rw [builds.unchanged_iff top]
      exact iff_of_false (fun same => NameSupply.uniquify_ne _ _ same.1)
        (not_failsFirst inputs known left)

end Workspace

namespace Machine

variable {P : Program U} {M : Machine U ρ} {s : SystemId} {m : ModuleId} {r : InstanceRequest}

/-- A call of `instantiate` that fails inside a generator leaves the registry and the worklist as
they were. It leaves the scopes and the body as they were if and only if it fails before it has
built anything; otherwise what is left is what `Aborts` tells, an instance that does not verify
for example. -/
theorem Reachable.failed_instantiate (h : Reachable P M)
    (calls : M.control.call? = some (.instantiate s m r))
    (fails : ¬ (Call.instantiate s m r).Succeeds M.workspace) {sys : System}
    {x : Module U.GeneratorCode} {scope : Scope GeneratorSite}
    {outer : List (Scope GeneratorSite)} (hs : M.workspace.system? s = some sys)
    (hx : M.workspace.module? m = some x) (top : sys.running.scopes = scope :: outer) :
    ∃ sys' b, (Machine.step P M).workspace.system? s = some sys' ∧
      sys.design.body? scope.site.ip.owner = some b ∧
      Workspace.Aborts m r x sys sys' scope outer b ∧
      sys'.instances = sys.instances ∧ sys'.worklist = sys.worklist ∧
      (sys'.running = sys.running ∧ sys'.design.body? scope.site.ip.owner = some b ↔
        Workspace.FailsFirst m r x sys) := by
  obtain ⟨b, body, -⟩ := (h.hosts.sound.systems s sys hs).body?_top top
  have ends := Workspace.instantiate_ends (p := .any) (s := s) (m := m) h.hosts.sound trivial
    trivial (fun no => no.elim) r
  cases hc : (Call.instantiate s m r).perform M.workspace with
  | ok i ws' => exact absurd ⟨i, ws', hc⟩ fails
  | error e ws' =>
      obtain ⟨-, aborted, -⟩ := ends.of_error hc
      obtain ⟨sys', hs', aborts⟩ := aborted sys x scope outer b hs hx top body
      have after : (Machine.step P M).workspace = ws' := by
        rw [(step_call calls).1, Effect.outcome, hc]
      rw [after]
      exact ⟨sys', b, hs', body, aborts, aborts.leaves top body⟩

end Machine

namespace Sample

/-- Instantiates the module whose body it is to write, and goes on when that fails. -/
def itself : Script code GeneratorResult :=
  .call (.instantiate ⟨0⟩ ⟨1⟩ { inputs := [], loc := .unknown }) fun _ => .done (.ok .nothing)

/-- The instance that the next call asks for. -/
def instance? (control : Control code Unit) : Option (SystemId × ModuleId × InstanceRequest) :=
  match control.call? with
  | some (.instantiate s m r) => some (s, m, r)
  | _ => none

theorem call?_of_instance? {s : SystemId} {m : ModuleId} {r : InstanceRequest}
    {control : Control code Unit} (h : instance? control = some (s, m, r)) :
    control.call? = some (.instantiate s m r) := by
  unfold instance? at h
  split at h
  · rename_i calls
    cases h
    exact calls
  · cases h

/-- True if the call succeeds. -/
def succeeds (c : Call code) (ws : Workspace code) : Bool :=
  match c.perform ws with
  | .ok _ _ => true
  | .error _ _ => false

theorem succeeds_iff {c : Call code} {ws : Workspace code} :
    succeeds c ws = true ↔ c.Succeeds ws := by
  unfold succeeds Call.Succeeds
  cases c.perform ws with
  | ok r ws' => simp
  | error e ws' => simp

/-- The machine that is about to instantiate `Top` in the body of `Top`. -/
def beforeItself : Machine code Unit := after (program itself) generating 7

/-- The instance is not built, but its name is not given back. -/
theorem name_left_by_itself : ∃ sys sys' x,
    beforeItself.workspace.system? ⟨0⟩ = some sys ∧
    beforeItself.workspace.module? ⟨1⟩ = some x ∧
    (Machine.step (program itself) beforeItself).workspace.system? ⟨0⟩ = some sys' ∧
    sys'.instances = sys.instances ∧ sys'.worklist = sys.worklist ∧
    sys'.running ≠ sys.running ∧
    ¬ Workspace.FailsFirst (U := code) ⟨1⟩ { inputs := [], loc := .unknown } x sys := by
  have reach : Machine.Reachable (program itself) beforeItself := reachable _ _ _
  have request : instance? beforeItself.control =
      some (⟨0⟩, ⟨1⟩, { inputs := [], loc := .unknown }) := by
    decide +kernel
  have failed : succeeds (.instantiate ⟨0⟩ ⟨1⟩ { inputs := [], loc := .unknown })
      beforeItself.workspace = false := by
    decide +kernel
  have known : (beforeItself.workspace.module? ⟨1⟩).isSome = true := by decide +kernel
  have before : (beforeItself.workspace.system? ⟨0⟩).map
      (fun sys => sys.running.scopes.map fun c => c.names.issued) = some [[]] := by
    decide +kernel
  have after : ((Machine.step (program itself) beforeItself).workspace.system? ⟨0⟩).map
      (fun sys => sys.running.scopes.map fun c => c.names.issued) = some [["Top"]] := by
    decide +kernel
  -- From here on the machine is not to be evaluated any more.
  generalize beforeItself = M at *
  obtain ⟨sys, hs, none⟩ := Option.map_eq_some_iff.mp before
  obtain ⟨x, hx⟩ := Option.isSome_iff_exists.mp known
  obtain ⟨scope, outer, top, -⟩ := List.map_eq_cons_iff.mp none
  have fails : ¬ Call.Succeeds _ M.workspace := fun ok => by
    rw [succeeds_iff.mpr ok] at failed
    cases failed
  obtain ⟨sys', b, hs', -, -, instances, worklist, unchanged⟩ :=
    reach.failed_instantiate (call?_of_instance? request) fails hs hx top
  have granted : sys'.running ≠ sys.running := fun same => by
    rw [hs', Option.map_some, same, none] at after
    cases after
  exact ⟨sys, sys', x, hs, hx, hs', instances, worklist, granted,
    fun first => granted (unchanged.mpr first).1⟩

end Sample

end Hardware
