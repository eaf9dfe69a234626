import Hardware.Proofs.Run

/-!
The steps in which a generator starts or ends. A module gets its mark in no other step than
the first, and loses it in no other than the second.
-/
namespace Hardware

variable {U : UserCode} {ρ : Type}

namespace System

/-- A generator of `m` has just begun on `old`: it is in a scope of its own, in which no name is
granted, and the body of its module is empty. -/
structure Begun (old sys : System) (m : ModuleId) (sym : Ident) : Prop where
  idle : old.isGenerated m = false
  marked : sys.isGenerated m = true
  symbol : sys.symbolOf? m = some sym
  scope : ∃ site, site.ip.owner = sym ∧ sys.running.scopes = { site } :: old.running.scopes
  body : ∃ args, sys.design.body? sym = some { args }

end System

namespace Workspace

variable {ws ws' : Workspace U} {runs runs' : List GeneratorRun} {s : SystemId} {m : ModuleId}
  {p : Permit}

theorem ne_targetsIn_cons {run : GeneratorRun} :
    targetsIn s runs ≠ m :: targetsIn s (run :: runs) := by
  intro e
  have size := congrArg List.length e
  rw [targetsIn_cons, List.length_cons] at size
  split at size
  · rw [List.length_cons] at size
    omega
  · omega

theorem of_targetsIn_cons {run : GeneratorRun}
    (e : targetsIn s (run :: runs) = m :: targetsIn s runs) : run.system = s ∧ run.target = m := by
  rw [targetsIn_cons] at e
  split at e
  · rename_i here
    exact ⟨here, (List.cons.inj e).1⟩
  · exact absurd e.symm (List.cons_ne_self _ _)

/-- A move starts a generator, ends one, or leaves all those that run. -/
theorem Move.activations (step : Move p ws runs ws' runs') :
    (∃ run, runs' = run :: runs) ∨ (∃ run, runs = run :: runs') ∨
      ∀ s, targetsIn s runs' = targetsIn s runs ∧ ownersIn s runs' = ownersIn s runs := by
  cases step with
  | call c => exact .inr (.inr fun _ => ⟨rfl, rfl⟩)
  | @port _ run _ ports _ step allowed =>
      have same : run.ports.Same ports := step.same
      refine .inr (.inr fun s => ?_)
      rw [targetsIn_cons, targetsIn_cons, ownersIn_cons, ownersIn_cons]
      unfold GeneratorRun.system GeneratorRun.target
      rw [same.system, same.target]
      exact ⟨rfl, rfl⟩
  | pop drained hs first => exact .inr (.inr fun _ => ⟨rfl, rfl⟩)
  | begins created opens => exact .inl ⟨_, rfl⟩
  | closes c => exact .inr (.inl ⟨_, rfl⟩)
  | unwinds u => exact .inr (.inl ⟨_, rfl⟩)

theorem Move.started (step : Move p ws runs ws' runs')
    (began : targetsIn s runs' = m :: targetsIn s runs) :
    ∃ run, runs' = run :: runs ∧ run.system = s ∧ run.target = m := by
  rcases step.activations with ⟨run, rfl⟩ | ⟨run, rfl⟩ | same
  · exact ⟨run, rfl, of_targetsIn_cons began⟩
  · exact absurd began ne_targetsIn_cons
  · rw [(same s).1] at began
    exact absurd began.symm (List.cons_ne_self _ _)

theorem Move.ended (step : Move p ws runs ws' runs')
    (last : targetsIn s runs = m :: targetsIn s runs') :
    ∃ run, runs = run :: runs' ∧ run.system = s ∧ run.target = m := by
  rcases step.activations with ⟨run, rfl⟩ | ⟨run, rfl⟩ | same
  · exact absurd last ne_targetsIn_cons
  · exact ⟨run, rfl, of_targetsIn_cons last⟩
  · rw [(same s).1] at last
    exact absurd last.symm (List.cons_ne_self _ _)

end Workspace

namespace Machine

variable {P : Program U} {M : Machine U ρ} {s : SystemId} {m : ModuleId}
  {below : Stack U ρ .generation} {run : GeneratorRun}

/-- The generation of `m` in `s` is requested, on its own or because `m` was waiting. -/
def Requests (s : SystemId) (m : ModuleId) (M : Machine U ρ) : Prop :=
  ∃ below, M.control = .entering (.generateModule s m) below

/-- The next step starts the generator of `m` in `s` with `script`, on top of `below`. -/
def Starts (P : Program U) (s : SystemId) (m : ModuleId) (below : Stack U ρ .generation)
    (run : GeneratorRun) (script : Script U GeneratorResult) (M : Machine U ρ) : Prop :=
  M.control = .entering (.generateModule s m) below ∧
    (step P M).control = .generator run script below

theorem starts_or_refused (P : Program U)
    (entering : M.control = .entering (.generateModule s m) below) :
    (∃ run script, Starts P s m below run script M) ∨
      ∃ e, (step P M).control = .answering (a := .generation) (.error e) below := by
  obtain ⟨ws, control⟩ := M
  cases entering
  have entered : step P ⟨ws, .entering (.generateModule s m) below⟩ =
      start P ws (.generateModule s m) below := rfl
  cases hb : Workspace.beginGeneration s m ws with
  | ok r ws' =>
      obtain ⟨run, code⟩ := r
      exact .inl ⟨run, P.generator code, rfl,
        congrArg Machine.control (entered.trans (start_begins hb below))⟩
  | error e ws' =>
      exact .inr ⟨e, congrArg Machine.control (entered.trans (start_refused hb below))⟩

theorem Reachable.starts_of_idle (h : Reachable P M)
    (entering : M.control = .entering (.generateModule s m) below) {sys : System}
    {x : Module U.GeneratorCode} {g : Generator U.GeneratorCode}
    (hs : M.workspace.system? s = some sys) (hx : M.workspace.module? m = some x)
    (one : x.schema.generators.values = [g]) (idle : sys.isGenerated m = false) :
    ∃ run, Starts P s m below run (P.generator g.code) M := by
  obtain ⟨ws, control⟩ := M
  cases entering
  have ends := Workspace.beginGeneration_ends h.hosts.sound s m
  cases hb : Workspace.beginGeneration s m ws with
  | error e ws' =>
      obtain ⟨gen, -⟩ := (ends.of_error hb).2 sys x g hs hx one
      rw [idle] at gen
      cases gen
  | ok r ws' =>
      obtain ⟨run, code⟩ := r
      obtain ⟨sym, mid, created, opens⟩ := ends.of_ok hb
      obtain ⟨x', hx', schema, -⟩ := (Workspace.Changes.extends created.any).modules m x hx
      cases opens with
      | intro site hs' hy one' idle' hm hop hk =>
          rw [hx'] at hy
          cases hy
          rw [schema, one] at one'
          cases one'
          exact ⟨_, rfl, congrArg Machine.control (start_begins hb below)⟩

theorem Reachable.opens (h : Reachable P M) {script : Script U GeneratorResult}
    (starts : Starts P s m below run script M) :
    ∃ sym mid code, M.workspace.Created s m sym mid ∧
      mid.Opens s m run code (Machine.step P M).workspace ∧ script = P.generator code := by
  obtain ⟨ws, control⟩ := M
  obtain ⟨entering, started⟩ := starts
  cases entering
  have entered : Machine.step P ⟨ws, .entering (.generateModule s m) below⟩ =
      start P ws (.generateModule s m) below := rfl
  rw [entered] at started ⊢
  have ends := Workspace.beginGeneration_ends h.hosts.sound s m
  cases hb : Workspace.beginGeneration s m ws with
  | error e ws' =>
      rw [start_refused hb] at started
      cases started
  | ok r ws' =>
      obtain ⟨run', code⟩ := r
      rw [start_begins hb] at started ⊢
      cases started
      obtain ⟨sym, mid, created, opens⟩ := ends.of_ok hb
      exact ⟨sym, mid, code, created, opens, rfl⟩

/-- What a generator that starts finds, and what it leaves to its first step. -/
theorem Reachable.begun (h : Reachable P M) {script : Script U GeneratorResult}
    (starts : Starts P s m below run script M) :
    ∃ old sys x g, M.workspace.system? s = some old ∧
      (Machine.step P M).workspace.system? s = some sys ∧
      (Machine.step P M).workspace.module? m = some x ∧ x.schema.generators.values = [g] ∧
      script = P.generator g.code ∧ run.system = s ∧ run.target = m ∧
      old.Begun sys m run.symbol := by
  obtain ⟨sym, mid, code, created, opens, rfl⟩ := h.opens starts
  obtain ⟨old, sys, hold, hs, -, running, generated⟩ := created.symbolOf?
  generalize (Machine.step P M).workspace = ws' at opens ⊢
  cases opens with
  | @intro sys' y g op site hs' hy one idle hm hop hk =>
      rw [hs] at hs'
      cases hs'
      have before : old.isGenerated m = false := by
        rwa [System.isGenerated, ← generated]
      refine ⟨old, _, y, g, hold, Workspace.system?_setSystem_self hs _, hy, one, rfl, rfl, rfl,
        ⟨before, by simp, hm, ⟨site, rfl, ?_⟩, ?_⟩⟩
      · simp [System.opened, ScopeStack.enter, running]
      · have found : (sys.opened m site
            (Design.entryArgs site.ip.owner op.inputs)).design.findModule? site.ip.owner =
              some (op.withBody
                (some { args := Design.entryArgs site.ip.owner op.inputs })) := by
          rw [System.opened, Design.findModule?_setBody, if_pos rfl, hop]
          rfl
        exact ⟨_, Design.body?_of_kind found (ModuleOp.kind_withBody hk)⟩

theorem Reachable.home (h : Reachable P M) {script : Script U GeneratorResult}
    (starts : Starts P s m below run script M) : run.system = s ∧ run.target = m := by
  obtain ⟨sym, mid, code, -, opens, -⟩ := h.opens starts
  obtain ⟨-, -, -, here, there, -⟩ := opens.site_eq
  exact ⟨here, there⟩

theorem nextWaiting_activations (ws : Workspace U) (t : SystemId) (st : Stack U ρ .generation) :
    (nextWaiting ws t st).control.activations = st.activations := by
  unfold nextWaiting
  split
  · rfl
  · split
    · rfl
    · simp only
      split <;> rfl

theorem step_activations (P : Program U) (M : Machine U ρ) (sound : M.workspace.Sound) :
    (∃ s m below run script, Starts P s m below run script M ∧ run.system = s ∧ run.target = m) ∨
      (∃ run result below, M.control = .generator run (.done result) below ∧
        (step P M).control.activations = below.activations) ∨
      (step P M).control.activations.length = M.control.activations.length := by
  obtain ⟨ws, control⟩ := M
  cases control with
  | halted result => exact .inr (.inr rfl)
  | session script => cases script <;> exact .inr (.inr rfl)
  | generator run script st =>
      cases script with
      | done r => exact .inr (.inl ⟨run, r, st, rfl, rfl⟩)
      | call c next => exact .inr (.inr rfl)
      | port c next => exact .inr (.inr rfl)
      | enter e next => exact .inr (.inr rfl)
  | producer run script st => cases script <;> exact .inr (.inr rfl)
  | entering e st =>
      cases e with
      | generate t => exact .inr (.inr (congrArg List.length (nextWaiting_activations ws t st)))
      | generateModule t n =>
          have entered : step P ⟨ws, .entering (.generateModule t n) st⟩ =
              start P ws (.generateModule t n) st := rfl
          cases hb : Workspace.beginGeneration t n ws with
          | ok r ws' =>
              obtain ⟨run, code⟩ := r
              obtain ⟨sym, mid, -, opens⟩ := (Workspace.beginGeneration_ends sound t n).of_ok hb
              refine .inl ⟨t, n, st, run, P.generator code, ⟨rfl, ?_⟩, ?_⟩
              · rw [entered, start_begins hb]
              · cases opens
                exact ⟨rfl, rfl⟩
          | error e ws' =>
              rw [entered, start_refused hb]
              exact .inr (.inr rfl)
      | callFactory f c args =>
          exact .inr (.inr (congrArg List.length (start_callFactory f c args st).2))
  | answering answer st =>
      cases st with
      | session next => exact .inr (.inr rfl)
      | generator run next st => exact .inr (.inr rfl)
      | producer run next st => exact .inr (.inr rfl)
      | worklist t st => cases answer <;> exact .inr (.inr rfl)

theorem starts_of_cons (sound : M.workspace.Sound)
    (began : (step P M).control.activations = run :: M.control.activations) :
    ∃ below script, Starts P run.system run.target below run script M := by
  rcases step_activations P M sound with
    ⟨s, m, below, run', script, starts, rfl, rfl⟩ | ⟨run', result, below, last, after⟩ | same
  · have e := began
    rw [starts.1, starts.2] at e
    cases e
    exact ⟨below, script, starts⟩
  · have size := congrArg List.length began
    rw [after, last] at size
    simp only [Control.activations, List.length_cons] at size
    omega
  · rw [began, List.length_cons] at same
    omega

theorem ends_of_cons (sound : M.workspace.Sound)
    (ended : M.control.activations = run :: (step P M).control.activations) :
    ∃ result below, M.control = .generator run (.done result) below := by
  rcases step_activations P M sound with
    ⟨s, m, below, run', script, starts, rfl, rfl⟩ | ⟨run', result, below, last, after⟩ | same
  · have size := congrArg List.length ended
    rw [starts.1, starts.2] at size
    simp only [Control.activations, List.length_cons] at size
    omega
  · rw [after, last] at ended
    cases ended
    exact ⟨result, below, last⟩
  · rw [ended, List.length_cons] at same
    omega

/-- A module gets its mark in no other step than the one that starts its generator. -/
theorem Reachable.starts_of_generated (h : Reachable P M) {sys sys' : System}
    (hs : M.workspace.system? s = some sys) (idle : sys.isGenerated m = false)
    (hs' : (Machine.step P M).workspace.system? s = some sys')
    (gen : sys'.isGenerated m = true) : ∃ below run script, Starts P s m below run script M := by
  obtain ⟨sys'', hs'', tick⟩ := h.move.tick h.hosts hs
  rw [hs'] at hs''
  cases hs''
  obtain ⟨run, began, rfl, rfl⟩ := h.move.started (tick.starts idle gen)
  obtain ⟨below, script, starts⟩ := starts_of_cons h.hosts.sound began
  exact ⟨below, run, script, starts⟩

theorem Reachable.fails_of_generated (h : Reachable P M) {sys sys' : System}
    (hs : M.workspace.system? s = some sys) (gen : sys.isGenerated m = true)
    (hs' : (Machine.step P M).workspace.system? s = some sys')
    (idle : sys'.isGenerated m = false) : ∃ below run result e,
      M.control = .generator run (.done result) below ∧ run.system = s ∧ run.target = m ∧
      (Machine.step P M).control = .answering (a := .generation) (.error e) below := by
  obtain ⟨sys'', hs'', tick⟩ := h.move.tick h.hosts hs
  rw [hs'] at hs''
  cases hs''
  obtain ⟨run, ended, rfl, rfl⟩ := h.move.ended (tick.ends gen idle)
  obtain ⟨result, below, last⟩ := ends_of_cons h.hosts.sound ended
  rcases h.ends last with ⟨closes, -⟩ | ⟨-, e, failed⟩
  · obtain ⟨old, sym, b, op, hold, hclosed⟩ := closes.system?
    rw [hs] at hold
    rw [hs'] at hclosed
    cases hold
    cases hclosed
    change sys.isGenerated run.target = false at idle
    rw [gen] at idle
    cases idle
  · exact ⟨below, run, result, e, last, rfl, rfl, failed⟩

end Machine

end Hardware
