import Hardware.Proofs.Lifecycle
import Hardware.Proofs.Start

/-!
The worklist of a system. A module leaves it before its generator is started, and does not
come back when that fails. So once all that waits is generated, the modules that have an
operation and were not generated are those that were dropped on the way and never taken up
again.
-/
namespace Hardware

variable {U : UserCode} {ρ : Type}

namespace Machine

variable {P : Program U} {M : Machine U ρ} {s : SystemId} {m : ModuleId}

/-- `m` has an operation in `s`. -/
def HasOp (s : SystemId) (m : ModuleId) (M : Machine U ρ) : Prop :=
  ∃ sys sym, M.workspace.system? s = some sys ∧ sys.symbolOf? m = some sym

def Generated (s : SystemId) (m : ModuleId) (M : Machine U ρ) : Prop :=
  ∃ sys, M.workspace.system? s = some sys ∧ sys.isGenerated m = true

def Waiting (s : SystemId) (m : ModuleId) (M : Machine U ρ) : Prop :=
  ∃ sys, M.workspace.system? s = some sys ∧ m ∈ sys.worklist

/-- `m` has left the worklist of `s`, and the next step is to start its generator. -/
def Pending (s : SystemId) (m : ModuleId) (M : Machine U ρ) : Prop :=
  ∃ below, M.control = .entering (.generateModule s m) (.worklist s below)

/-- The system `s` knows that `m` is generated, or is going to generate it. -/
def Covered (s : SystemId) (m : ModuleId) (M : Machine U ρ) : Prop :=
  Generated s m M ∨ Waiting s m M ∨ Pending s m M

/-- The next step starts the generator of `m` in `s`, or puts `m` on the worklist. -/
inductive Takes (P : Program U) (s : SystemId) (m : ModuleId) (M : Machine U ρ) : Prop
  | starts {below : Stack U ρ .generation} {run : GeneratorRun}
      {script : Script U GeneratorResult} (starts : Starts P s m below run script M)
  | queues {c : Call U} (calls : M.control.call? = some c) (adds : c.Adds s m)
      (succeeds : c.Succeeds M.workspace)

/-- In the next step the generator of `m` fails in `s`, or `m` is refused as it leaves the
worklist, or a call that was to put it on the worklist fails and leaves an operation. -/
inductive Drops (P : Program U) (s : SystemId) (m : ModuleId) (M : Machine U ρ) : Prop
  | fails {run : GeneratorRun} {result : GeneratorResult} {below : Stack U ρ .generation}
      {e : Error} (last : M.control = .generator run (.done result) below)
      (here : run.system = s) (there : run.target = m)
      (failed : (step P M).control = .answering (a := .generation) (.error e) below)
  | refuses {below : Stack U ρ .generation} {e : Error}
      (pending : M.control = .entering (.generateModule s m) (.worklist s below))
      (refused : (step P M).control = .answering (a := .generation) (.error e) (.worklist s below))
  | aborts {c : Call U} (calls : M.control.call? = some c) (adds : c.Adds s m)
      (fails : ¬ c.Succeeds M.workspace) (before : ¬ HasOp s m M) (after : HasOp s m (step P M))

/-- Within `n` steps `m` was dropped by `s` while it was not waiting any more, and it has not
been taken up again. -/
def Lost (P : Program U) (s : SystemId) (m : ModuleId) (n : Nat) (M : Machine U ρ) : Prop :=
  ∃ i < n, Drops P s m ((step P)^[i] M) ∧ ¬ Waiting s m ((step P)^[i + 1] M) ∧
    ∀ j, i < j → j < n → ¬ Takes P s m ((step P)^[j] M)

theorem nextWaiting_cases (ws : Workspace U) (s : SystemId) (below : Stack U ρ .generation)
    {sys : System} (hs : ws.system? s = some sys) :
    sys.worklist = [] ∧ nextWaiting ws s below = ⟨ws, .answering (.ok ()) below⟩ ∨
      ∃ m rest, sys.worklist = m :: rest ∧
        (sys.isGenerated m = true ∧ nextWaiting ws s below =
            ⟨ws.setSystem s { sys with worklist := rest }, .entering (.generate s) below⟩ ∨
          sys.isGenerated m = false ∧ nextWaiting ws s below =
            ⟨ws.setSystem s { sys with worklist := rest },
              .entering (.generateModule s m) (.worklist s below)⟩) := by
  unfold nextWaiting
  rw [hs]
  cases first : sys.worklist with
  | nil => exact .inl ⟨rfl, by simp [first]⟩
  | cons m rest =>
      refine .inr ⟨m, rest, rfl, ?_⟩
      cases gen : sys.isGenerated m with
      | true => exact .inl ⟨rfl, by simp [first, gen]⟩
      | false => exact .inr ⟨rfl, by simp [first, gen]⟩

theorem step_generate {below : Stack U ρ .generation}
    (entering : M.control = .entering (.generate s) below) :
    step P M = nextWaiting M.workspace s below := by
  unfold step
  rw [entering]
  rfl

theorem pending_step (pending : Pending s m (step P M)) : ∃ below sys rest,
    M.control = .entering (.generate s) below ∧ M.workspace.system? s = some sys ∧
      sys.worklist = m :: rest ∧ sys.isGenerated m = false ∧
      (step P M).workspace = M.workspace.setSystem s { sys with worklist := rest } := by
  obtain ⟨ws, control⟩ := M
  obtain ⟨below, entering⟩ := pending
  cases control with
  | halted result => cases entering
  | session script => cases script <;> cases entering
  | generator run script st => cases script <;> cases entering
  | producer run script st => cases script <;> cases entering
  | entering e st =>
      cases e with
      | generate t =>
          cases hs : ws.system? t with
          | none =>
              have same : nextWaiting ws t st =
                  ⟨ws, .answering (.error (.internal .unknownHandle)) st⟩ := by
                unfold nextWaiting
                rw [hs]
              change (nextWaiting ws t st).control = _ at entering
              rw [same] at entering
              cases entering
          | some sys =>
              change (nextWaiting ws t st).control = _ at entering
              rcases nextWaiting_cases ws t st hs with
                ⟨-, same⟩ | ⟨n, rest, first, ⟨gen, same⟩ | ⟨idle, same⟩⟩
              · rw [same] at entering
                cases entering
              · rw [same] at entering
                cases entering
              · rw [same] at entering
                cases entering
                exact ⟨below, sys, rest, rfl, hs, first, idle, congrArg Machine.workspace same⟩
      | generateModule t n =>
          change (start P ws (.generateModule t n) st).control = _ at entering
          cases hb : Workspace.beginGeneration t n ws with
          | ok r ws' =>
              obtain ⟨run, code⟩ := r
              rw [start_begins hb] at entering
              cases entering
          | error e ws' =>
              rw [start_refused hb] at entering
              cases entering
      | callFactory f c args =>
          change (start P ws (.callFactory f c args) st).control = _ at entering
          cases hb : Workspace.beginProduction f c args ws with
          | ok r ws' => cases r <;> simp only [start, hb] at entering <;> cases entering
          | error e ws' =>
              simp only [start, hb] at entering
              cases entering
  | answering answer st =>
      cases st with
      | session next => cases entering
      | generator run next st => cases entering
      | producer run next st => cases entering
      | worklist t st => cases answer <;> cases entering

theorem Reachable.idle_of_pending (h : Reachable P M) (pending : Pending s m M) :
    ∃ sys, M.workspace.system? s = some sys ∧ sys.isGenerated m = false := by
  cases h with
  | initial state session =>
      obtain ⟨below, entering⟩ := pending
      cases entering
  | step h =>
      obtain ⟨below, sys, rest, -, hs, -, idle, same⟩ := pending_step pending
      rw [same]
      exact ⟨_, Workspace.system?_setSystem_self hs _, idle⟩

theorem Reachable.tick (h : Reachable P M) {sys' : System}
    (hs' : (Machine.step P M).workspace.system? s = some sys') : ∃ sys : System,
      (∀ m, sys.isGenerated m = true → Generated s m M) ∧ (∀ m ∈ sys.worklist, Waiting s m M) ∧
      (∀ m sym, sys.symbolOf? m = some sym → HasOp s m M) ∧
      sys.Tick (M.permit fun _ => False) s (Workspace.targetsIn s M.control.activations) sys'
        (Workspace.targetsIn s (Machine.step P M).control.activations) := by
  obtain ⟨sys, before, tick⟩ := h.move.tick_before h.hosts hs'
  rcases before with hs | ⟨-, name, conf, rfl⟩
  · exact ⟨sys, fun m gen => ⟨sys, hs, gen⟩, fun m wait => ⟨sys, hs, wait⟩,
      fun m sym hm => ⟨sys, sym, hs, hm⟩, tick⟩
  · refine ⟨_, fun m gen => ?_, fun m wait => ?_, fun m sym hm => ?_, tick⟩
    · simp [System.new, System.isGenerated] at gen
    · simp [System.new] at wait
    · simp [System.new, System.symbolOf?] at hm

theorem Reachable.takes_of_targetsIn (h : Reachable P M)
    (began : Workspace.targetsIn s (Machine.step P M).control.activations =
      m :: Workspace.targetsIn s M.control.activations) : Takes P s m M := by
  obtain ⟨run, runs, rfl, rfl⟩ := h.move.started began
  obtain ⟨below, script, starts⟩ := starts_of_cons h.hosts.sound runs
  exact .starts starts

theorem Reachable.covered_before (h : Reachable P M) (untaken : ¬ Takes P s m M)
    (covered : Covered s m (Machine.step P M)) : Covered s m M := by
  rcases covered with ⟨sys', hs', gen⟩ | ⟨sys', hs', wait⟩ | pending
  · obtain ⟨sys, marked, -, -, tick⟩ := h.tick hs'
    cases was : sys.isGenerated m with
    | true => exact .inl (marked m was)
    | false => exact absurd (h.takes_of_targetsIn (tick.starts was gen)) untaken
  · obtain ⟨sys, -, waiting, -, tick⟩ := h.tick hs'
    rcases tick.queued wait with was | ⟨c, calls, adds, succeeds⟩
    · exact .inr (.inl (waiting m was))
    · exact absurd (.queues calls adds succeeds) untaken
  · obtain ⟨-, sys, rest, -, hs, first, -, -⟩ := pending_step pending
    exact .inr (.inl ⟨sys, hs, first ▸ List.mem_cons_self⟩)

theorem Reachable.hasOp_before (h : Reachable P M) (untaken : ¬ Takes P s m M)
    (kept : ¬ Drops P s m M) (op : HasOp s m (Machine.step P M)) : HasOp s m M := by
  by_contra before
  obtain ⟨sys', sym, hs', hm⟩ := op
  obtain ⟨sys, -, -, had, tick⟩ := h.tick hs'
  rcases tick.made hm with was | ⟨c, calls, adds⟩ | began
  · exact before (had m sym was)
  · by_cases succeeds : c.Succeeds M.workspace
    · exact untaken (.queues calls adds succeeds)
    · exact kept (.aborts calls adds succeeds before ⟨sys', sym, hs', hm⟩)
  · exact untaken (h.takes_of_targetsIn began)

theorem Reachable.covered_after (h : Reachable P M) (untaken : ¬ Takes P s m M)
    (kept : ¬ Drops P s m M) (covered : Covered s m M) : Covered s m (Machine.step P M) := by
  rcases covered with ⟨sys, hs, gen⟩ | ⟨sys, hs, wait⟩ | ⟨below, pending⟩
  · obtain ⟨sys', hs', -⟩ := h.move.extends.systems s sys hs
    cases still : sys'.isGenerated m with
    | true => exact .inl ⟨sys', hs', still⟩
    | false =>
        obtain ⟨below, run, result, e, last, here, there, failed⟩ :=
          h.fails_of_generated hs gen hs' still
        exact absurd (.fails last here there failed) kept
  · obtain ⟨sys', hs', tick⟩ := h.move.tick h.hosts hs
    rcases tick.waits wait with still | ⟨below, entering⟩
    · exact .inr (.inl ⟨sys', hs', still⟩)
    · -- The first module leaves the worklist, generated or about to be.
      rw [step_generate entering]
      rcases nextWaiting_cases M.workspace s below hs with
        ⟨none, -⟩ | ⟨n, rest, first, ⟨gen, same⟩ | ⟨-, same⟩⟩
      · rw [none] at wait
        cases wait
      · rw [first] at wait
        rw [same]
        have there := Workspace.system?_setSystem_self hs { sys with worklist := rest }
        rcases List.mem_cons.mp wait with rfl | later
        · exact .inl ⟨_, there, gen⟩
        · exact .inr (.inl ⟨_, there, later⟩)
      · rw [first] at wait
        rw [same]
        rcases List.mem_cons.mp wait with rfl | later
        · exact .inr (.inr ⟨below, rfl⟩)
        · exact .inr (.inl ⟨_, Workspace.system?_setSystem_self hs _, later⟩)
  · rcases starts_or_refused P pending with ⟨run, script, starts⟩ | ⟨e, refused⟩
    · exact absurd (.starts starts) untaken
    · exact absurd (.refuses pending refused) kept

theorem Reachable.waits_of_adds (h : Reachable P M) {c : Call U}
    (calls : M.control.call? = some c) (adds : c.Adds s m) (succeeds : c.Succeeds M.workspace) :
    (Machine.step P M).workspace.Waits s m := by
  obtain ⟨r, ws', ok⟩ := succeeds
  have left : (Machine.step P M).workspace = ws' := by
    rw [(step_call calls).1, Effect.outcome, ok]
  have fits := c.fits_of_unchecked (fun (_ : SystemId) (no : False) => no) M.workspace
  have answered := ((c.perform_ends h.hosts.sound fits).of_ok ok).2
  rw [left]
  cases c with
  | addTop t n =>
      obtain ⟨rfl, rfl⟩ := adds
      exact answered
  | instantiate t n request =>
      obtain ⟨rfl, rfl⟩ := adds
      exact answered.1
  | _ => exact adds.elim

theorem Reachable.covered_of_takes (h : Reachable P M) (takes : Takes P s m M)
    (op : HasOp s m (Machine.step P M))
    (backed : ∀ x, (Machine.step P M).workspace.module? m = some x → x.hasGenerator = true) :
    Covered s m (Machine.step P M) := by
  cases takes with
  | starts starts =>
      obtain ⟨old, sys, x, g, -, hs, -, -, -, -, -, begun⟩ := h.begun starts
      exact .inl ⟨sys, hs, begun.marked⟩
  | @queues c calls adds succeeds =>
      obtain ⟨sys, sym, hs, hm⟩ := op
      obtain ⟨x, -, hx, -⟩ := (h.step.hosts.sound.systems s sys hs).present m sym hm
      obtain ⟨sys', hs', gen | wait⟩ := h.waits_of_adds calls adds succeeds x hx (backed x hx)
      · exact .inl ⟨sys', hs', gen⟩
      · exact .inr (.inl ⟨sys', hs', wait⟩)

theorem Reachable.not_covered_of_drops (h : Reachable P M) (drops : Drops P s m M)
    (out : ¬ Waiting s m (Machine.step P M)) : ¬ Covered s m (Machine.step P M) := by
  rintro (⟨sys', hs', gen⟩ | wait | pending)
  · cases drops with
    | @fails run result below e last here there failed =>
        rcases h.ends last with ⟨-, ok⟩ | ⟨unwinds, -⟩
        · rw [failed] at ok
          cases ok
        · obtain ⟨sys, hs, -⟩ := (h.hosts.each run (by simp [last, Control.activations])).home
          obtain ⟨kept, undone⟩ := unwinds.system? hs
          rw [here, hs'] at undone
          cases undone
          simp [there] at gen
    | @refuses below e pending refused =>
        obtain ⟨sys, hs, idle⟩ := h.idle_of_pending ⟨below, pending⟩
        obtain ⟨below', run, script, -, started⟩ := h.starts_of_generated hs idle hs' gen
        rw [refused] at started
        cases started
    | aborts calls adds fails before after =>
        obtain ⟨sys, marked, -, -, tick⟩ := h.tick hs'
        cases was : sys.isGenerated m with
        | true =>
            obtain ⟨old, hold, gen'⟩ := marked m was
            obtain ⟨-, sym, -, -, hsym, -⟩ := (h.hosts.sound.systems s old hold).generated m gen'
            exact before ⟨old, sym, hold, hsym⟩
        | false =>
            obtain ⟨run, runs, -⟩ := h.move.started (tick.starts was gen)
            obtain ⟨below, script, entering, -⟩ := starts_of_cons h.hosts.sound runs
            exact (step_call (P := P) calls).2 _ _ _ entering
  · exact out wait
  · obtain ⟨below', sys, rest, entering, -⟩ := pending_step pending
    cases drops with
    | fails last => rw [last] at entering; cases entering
    | refuses pending' => rw [pending'] at entering; cases entering
    | aborts calls => exact (step_call (P := P) calls).2 _ _ _ entering

theorem Reachable.lost_of_not_covered (h : Reachable P M) (new : ¬ HasOp s m M) {n : Nat}
    (backed : ∀ x, ((Machine.step P)^[n] M).workspace.module? m = some x → x.hasGenerator = true)
    (op : HasOp s m ((Machine.step P)^[n] M)) (out : ¬ Covered s m ((Machine.step P)^[n] M)) :
    Lost P s m n M := by
  induction n with
  | zero => exact absurd op new
  | succ n ih =>
      have reach := h.iterate n
      rw [Function.iterate_succ_apply'] at backed op out
      by_cases takes : Takes P s m ((Machine.step P)^[n] M)
      · exact absurd (reach.covered_of_takes takes op backed) out
      by_cases drops : Drops P s m ((Machine.step P)^[n] M)
      · refine ⟨n, Nat.lt_succ_self n, drops, fun wait => out (.inr (.inl ?_)), fun j lt le => ?_⟩
        · rwa [Function.iterate_succ_apply'] at wait
        · omega
      · have backed' : ∀ x, ((Machine.step P)^[n] M).workspace.module? m = some x →
            x.hasGenerator = true := by
          intro x hx
          obtain ⟨x', hx', schema, -⟩ := reach.move.extends.modules m x hx
          have gen := backed x' hx'
          rwa [Module.hasGenerator, schema] at gen
        obtain ⟨i, lt, dropped, away, untaken⟩ := ih backed' (reach.hasOp_before takes drops op)
          fun covered => out (reach.covered_after takes drops covered)
        refine ⟨i, Nat.lt_succ_of_lt lt, dropped, away, fun j gt le => ?_⟩
        rcases Nat.lt_succ_iff_lt_or_eq.mp le with le | rfl
        · exact untaken j gt le
        · exact takes

theorem Reachable.not_covered_of_lost (h : Reachable P M) {n : Nat} (lost : Lost P s m n M) :
    ¬ Covered s m ((Machine.step P)^[n] M) := by
  obtain ⟨i, lt, dropped, away, untaken⟩ := lost
  obtain ⟨d, rfl⟩ := Nat.exists_eq_add_of_lt lt
  induction d with
  | zero =>
      rw [Function.iterate_succ_apply'] at away ⊢
      exact (h.iterate i).not_covered_of_drops dropped away
  | succ d ih =>
      have before := ih (by omega) fun j gt le => untaken j gt (by omega)
      rw [Function.iterate_succ_apply']
      exact fun covered =>
        before ((h.iterate _).covered_before (untaken _ (by omega) (by omega)) covered)

theorem step_of_empty {below : Stack U ρ .generation} {sys : System}
    (entering : M.control = .entering (.generate s) below)
    (hs : M.workspace.system? s = some sys) (empty : sys.worklist = []) :
    step P M = ⟨M.workspace, .answering (.ok ()) below⟩ := by
  rw [step_generate entering]
  rcases nextWaiting_cases M.workspace s below hs with ⟨-, same⟩ | ⟨m, rest, first, -⟩
  · exact same
  · rw [empty] at first
    cases first

theorem drained {below : Stack U ρ .generation}
    (entering : M.control = .entering (.generate s) below)
    (ok : (step P M).control = .answering (a := .generation) (.ok ()) below) :
    ∃ sys, M.workspace.system? s = some sys ∧ sys.worklist = [] ∧
      (step P M).workspace = M.workspace := by
  rw [step_generate entering] at ok ⊢
  cases hs : M.workspace.system? s with
  | none =>
      unfold nextWaiting at ok
      rw [hs] at ok
      cases ok
  | some sys =>
      rcases nextWaiting_cases M.workspace s below hs with
        ⟨none, same⟩ | ⟨m, rest, -, ⟨-, same⟩ | ⟨-, same⟩⟩
      · exact ⟨sys, rfl, none, by rw [same]⟩
      · rw [same] at ok
        cases ok
      · rw [same] at ok
        cases ok

/-- Once all that waits is generated, a module with a generator and with an operation is
generated, unless it has been lost. -/
theorem idle_iff_lost (state : U.State) (session : Script U ρ) {n : Nat}
    {below : Stack U ρ .generation}
    (entering : ((step P)^[n] (initial state session)).control = .entering (.generate s) below)
    {sys : System} {x : Module U.GeneratorCode} {sym : Ident}
    (hs : ((step P)^[n] (initial state session)).workspace.system? s = some sys)
    (drained : sys.worklist = [])
    (hx : ((step P)^[n] (initial state session)).workspace.module? m = some x)
    (gen : x.hasGenerator = true) (hm : sys.symbolOf? m = some sym) :
    sys.isGenerated m = false ↔ Lost P s m n (initial state session) := by
  have h : Reachable P (initial state session) := .initial state session
  have new : ¬ HasOp s m (initial state session) := by
    rintro ⟨sys, sym, hs, -⟩
    simp [initial, Workspace.system?] at hs
  have covered : Covered s m ((step P)^[n] (initial state session)) ↔ sys.isGenerated m = true := by
    refine ⟨?_, fun marked => .inl ⟨sys, hs, marked⟩⟩
    rintro (⟨sys', hs', marked⟩ | ⟨sys', hs', wait⟩ | ⟨below', pending⟩)
    · rw [hs] at hs'
      cases hs'
      exact marked
    · rw [hs] at hs'
      cases hs'
      rw [drained] at wait
      cases wait
    · rw [entering] at pending
      cases pending
  constructor
  · intro idle
    refine h.lost_of_not_covered new (fun y hy => ?_) ⟨sys, sym, hs, hm⟩ fun out => ?_
    · rw [hx] at hy
      cases hy
      exact gen
    · rw [covered.mp out] at idle
      cases idle
  · intro lost
    exact Bool.eq_false_iff.mpr fun marked => h.not_covered_of_lost lost (covered.mpr marked)

/-- Where the generation of all that waits succeeds, a module with a generator and with an
operation is left without a body exactly if it has been lost on the way: its generator failed,
it was refused, or an instance of it could not be built, and it was not taken up again. -/
theorem not_generated_iff_lost (state : U.State) (session : Script U ρ) {n : Nat}
    {below : Stack U ρ .generation}
    (entering : ((step P)^[n] (initial state session)).control = .entering (.generate s) below)
    (ok : ((step P)^[n + 1] (initial state session)).control =
      .answering (a := .generation) (.ok ()) below) {sys : System} {x : Module U.GeneratorCode}
    {sym : Ident} (hs : ((step P)^[n + 1] (initial state session)).workspace.system? s = some sys)
    (hx : ((step P)^[n + 1] (initial state session)).workspace.module? m = some x)
    (gen : x.hasGenerator = true) (hm : sys.symbolOf? m = some sym) :
    (sys.isGenerated m = false ↔ Lost P s m n (initial state session)) ∧
      (sys.isGenerated m = false ↔
        ∃ op, sys.design.findModule? sym = some op ∧ op.kind = .real none) := by
  have h : Reachable P (initial state session) := .initial state session
  rw [Function.iterate_succ_apply'] at ok hs hx
  obtain ⟨sys', hs', none, same⟩ := drained entering ok
  rw [same] at hs hx
  rw [hs] at hs'
  cases hs'
  refine ⟨idle_iff_lost state session entering hs none hx gen hm, ?_⟩
  have sound := (h.iterate n).hosts.sound
  have declared : x.isImported = false := by
    apply Bool.eq_false_iff.mpr
    intro imported
    rw [(sound.modules m x hx).imported imported] at gen
    cases gen
  obtain ⟨op, body, hop, hk, marked, -⟩ :=
    ((sound.systems s sys hs).lifecycle_of_symbolOf? hx declared gen hm).body
  rw [hop, ← Bool.not_eq_true, marked]
  constructor
  · intro none
    cases body with
    | none => exact ⟨op, rfl, hk⟩
    | some b => exact absurd rfl none
  · rintro ⟨op', rfl', hk'⟩
    cases rfl'
    rw [hk] at hk'
    cases hk'
    exact Bool.false_ne_true

end Machine

namespace Sample

/-- Fails the first time, and sets the output of `Top` the next time. -/
def flaky : Script code GeneratorResult :=
  .call .snapshot fun seen =>
    match seen with
    | .ok ws =>
      if ws.state = (0 : Nat) then
        .call (.setState (1 : Nat)) fun _ => .done (.error (.internal .unknownHandle))
      else leaf
    | .error e => .done (.error e)

/-- The session that generates all that waits, and then once more. -/
def repeated : Script code Unit :=
  .enter (.generate ⟨0⟩) fun _ => .enter (.generate ⟨0⟩) fun _ => .done ()

/-- True if the session is about to have generated all that waits. -/
def isGenerating : Control code Unit → Bool
  | .entering (.generate s) (.session _) => s = ⟨0⟩
  | _ => false

theorem generates_of_isGenerating {c : Control code Unit} (h : isGenerating c = true) :
    ∃ next, c = .entering (.generate ⟨0⟩) (.session next) := by
  unfold isGenerating at h
  split at h
  · rename_i s next
    rw [of_decide_eq_true h]
    exact ⟨next, rfl⟩
  · cases h

/-- `Top` fails at first, and when all that waits is generated once more, it is left out. -/
theorem lost_after_failure :
    ∃ sys, (after (program flaky) repeated 14).workspace.system? ⟨0⟩ = some sys ∧
      sys.isGenerated ⟨1⟩ = false ∧
      Machine.Lost (program flaky) ⟨0⟩ ⟨1⟩ 13 (Machine.initial (0 : Nat) (session repeated)) ∧
      ∃ op, sys.design.findModule? "Top" = some op ∧ op.kind = .real none := by
  have before : isGenerating (after (program flaky) repeated 13).control = true := by
    decide +kernel
  have waiting : ((after (program flaky) repeated 13).workspace.system? ⟨0⟩).map
      System.worklist = some [] := by
    decide +kernel
  have system : ((after (program flaky) repeated 14).workspace.system? ⟨0⟩).map
      (fun sys => (sys.symbolOf? ⟨1⟩, sys.isGenerated ⟨1⟩)) = some (some "Top", false) := by
    decide +kernel
  have backed : ((after (program flaky) repeated 14).workspace.module? ⟨1⟩).map
      Module.hasGenerator = some true := by
    decide +kernel
  obtain ⟨next, entering⟩ := generates_of_isGenerating before
  obtain ⟨old, hold, empty⟩ := Option.map_eq_some_iff.mp waiting
  obtain ⟨sys, hs, known⟩ := Option.map_eq_some_iff.mp system
  obtain ⟨x, hx, gen⟩ := Option.map_eq_some_iff.mp backed
  obtain ⟨symbol, idle⟩ := Prod.mk.inj known
  unfold after at entering hold hs hx
  have ok := congrArg Machine.control
    (Machine.step_of_empty (P := program flaky) entering hold empty)
  rw [← Function.iterate_succ_apply' (Machine.step (program flaky))] at ok
  obtain ⟨lost, bare⟩ :=
    Machine.not_generated_iff_lost (P := program flaky) (0 : Nat) (session repeated) entering ok
      hs hx gen symbol
  exact ⟨sys, hs, idle, lost.mp idle, bare.mp idle⟩

end Sample

end Hardware
