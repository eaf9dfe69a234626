import Hardware.Proofs.Clock
import Hardware.Proofs.Rollback
import Hardware.Proofs.Worklist

/-!
The scopes of the generators that run. A call that generates modules may start generators to
any depth, and these may fail at any point. Each step moves the four stacks of scopes as one, so
when the call returns, they are those of before the call; and the modules whose generators enclose
it have their bodies unchanged.
-/
namespace Hardware

variable {U : UserCode} {ρ : Type}

namespace System

variable {old sys sys' : System} {ws : Workspace U}

/-- What `old` is again when a call returns that the generators `enclosing` enclose. -/
structure Restored (old sys : System) (enclosing : List GeneratorRun) : Prop where
  scopes : sys.scopeStacks = old.scopeStacks
  bodies : ∀ run ∈ enclosing,
    sys.design.findModule? run.symbol = old.design.findModule? run.symbol

/-- The same but for the innermost generator, which may have been given names, and whose body
may have been written to. -/
structure RestoredBelow (old sys : System) (enclosing : List GeneratorRun) : Prop where
  contexts : sys.scopeStacks.contexts.tail = old.scopeStacks.contexts.tail
  depth : sys.scopeStacks.contexts.length = old.scopeStacks.contexts.length
  points : sys.scopeStacks.points = old.scopeStacks.points
  locs : sys.scopeStacks.locs = old.scopeStacks.locs
  clocks : sys.scopeStacks.clocks = old.scopeStacks.clocks
  bodies : ∀ run ∈ enclosing.tail,
    sys.design.findModule? run.symbol = old.design.findModule? run.symbol

/-- One context, one insertion point and one location for each of the generators `runs`, and
the innermost one has the insertion point at the top. -/
structure Level (sys : System) (runs : List GeneratorRun) : Prop where
  contexts : sys.scopeStacks.contexts.length = runs.length
  points : sys.scopeStacks.points.length = runs.length
  locs : sys.scopeStacks.locs.length = runs.length
  top : ∀ run outer, runs = run :: outer →
    sys.scopeStacks.points.head? = some ⟨run.symbol⟩ ∧ sys.symbolOf? run.target = some run.symbol

/-- What a step does to a system that serves a call, on top of the scopes of `old`: a generator
starts in it, or one is running there already, or a module is taken from those that wait. -/
inductive Serving (old sys : System) (s : SystemId) : System → Prop
  | starts {sys' : System} {p : Permit} {targets : List ModuleId} {m : ModuleId}
      (tick : sys.Tick p s targets sys' (m :: targets)) : Serving old sys s sys'
  | inside {sys' : System} {p : Permit} {targets targets' : List ModuleId}
      (tick : sys.Tick p s targets sys' targets')
      (deep : old.running.scopes.length < sys.running.scopes.length) : Serving old sys s sys'
  | outside (worklist : List ModuleId) : Serving old sys s { sys with worklist }

theorem During.serving {s : SystemId} (d : old.During sys) (h : sys.Sound ws)
    (step : old.Serving sys s sys') : old.During sys' := by
  cases step with
  | starts tick => exact d.started tick
  | inside tick deep => exact d.tick h tick deep
  | outside worklist => exact ⟨d.scopes, d.kept, d.ops⟩

theorem EnteredSince.serving {s : SystemId} (e : old.EnteredSince sys)
    (step : old.Serving sys s sys') : old.EnteredSince sys' := by
  cases step with
  | starts tick => exact e.started tick
  | inside tick deep => exact e.tick tick deep
  | outside worklist => exact e

theorem During.of_undone (h : sys.Sound ws) {m : ModuleId} {scope : Scope GeneratorSite}
    {outer : List (Scope GeneratorSite)} (top : sys.running.scopes = scope :: outer)
    (hm : sys.symbolOf? m = some scope.site.ip.owner) (kept : List InstanceId) :
    (sys.undone m scope.site.ip.owner kept).During sys := by
  obtain ⟨x, op, b, -, -, gen, hop, hk, -, -, -, -, -⟩ := h.target_top top hm
  refine ⟨⟨[scope], ?_, fun c hc => ?_⟩, fun n marked => ?_, fun q before hq => ?_⟩
  · rw [top]
    exact congrArg (scope :: ·) (congrArg List.tail top).symm
  · rw [List.mem_singleton.mp hc]
    exact ⟨m, hm, by simp⟩
  · rw [isGenerated_undone, Bool.and_eq_true] at marked
    exact marked.1
  · have find : (sys.undone m scope.site.ip.owner kept).design.findModule? q =
        if q = scope.site.ip.owner then (sys.design.findModule? q).map fun x => x.withBody none
        else sys.design.findModule? q := Design.findModule?_setBody _ _ q _
    rw [find] at hq
    by_cases own : q = scope.site.ip.owner
    · subst own
      rw [if_pos rfl, hop] at hq
      cases hq
      refine .inr ⟨ModuleOp.kind_withBody hk, m, b, hm, by simp, gen, ?_⟩
      rw [hop, ModuleOp.withBody_withBody, ModuleOp.withBody_of_kind hk]
    · rw [if_neg own] at hq
      refine .inl ⟨hq, fun n hn marked => ?_⟩
      have other : n ≠ m := by
        rintro rfl
        have e := hn.symm.trans hm
        exact own (Option.some.inj e)
      simp [marked, other]

theorem During.findModule?_of_owner {ws' : Workspace U} (d : old.During sys) (h : old.Sound ws)
    (h' : sys.Sound ws')
    (symbols : ∀ m sym, old.symbolOf? m = some sym → sys.symbolOf? m = some sym) {q : Ident}
    (hq : q ∈ old.owners) : sys.design.findModule? q = old.design.findModule? q := by
  obtain ⟨m, hm, gen⟩ := h.owned q hq
  obtain ⟨x, op, -, hop, -⟩ := h.present m q hm
  rcases d.ops q op hop with ⟨found, -⟩ | ⟨-, n, b, hn, new, -, -⟩
  · rw [found, hop]
  · rw [h'.injective n m q hn (symbols m q hm), gen] at new
    cases new

theorem During.below {ws' : Workspace U} {m : ModuleId} {scope : Scope GeneratorSite}
    {outer : List (Scope GeneratorSite)} {kept : List InstanceId}
    (d : (old.undone m scope.site.ip.owner kept).During sys) (h : old.Sound ws)
    (h' : sys.Sound ws') (top : old.running.scopes = scope :: outer)
    (hm : old.symbolOf? m = some scope.site.ip.owner)
    (symbols : ∀ m sym, old.symbolOf? m = some sym → sys.symbolOf? m = some sym) {q : Ident}
    (hq : q ∈ old.owners.tail) : sys.design.findModule? q = old.design.findModule? q := by
  have other : q ≠ scope.site.ip.owner := by
    rintro rfl
    obtain ⟨-, -, -, -, -, -, -, -, -, -, -, -, free⟩ := h.target_top top hm
    exact free hq
  have same := d.findModule?_of_owner (h.undone top hm kept) h' symbols (by rwa [owners_undone])
  rw [same]
  exact (Design.findModule?_setBody _ _ q _).trans (if_neg other)

end System

namespace Workspace

variable {ws ws' : Workspace U} {s : SystemId} {runs : List GeneratorRun} {sys sys' : System}

theorem Hosts.sites_eq (h : ws.Hosts runs) (h' : ws'.Hosts runs) (e : ws.Extends ws')
    (hs : ws.system? s = some sys) (hs' : ws'.system? s = some sys') : sys'.sites = sys.sites := by
  rw [System.sites, System.sites, h'.sites s sys' hs', h.sites s sys hs, sitesIn_eq h.each e]

theorem Hosts.depth_le {inner : List GeneratorRun} (h : ws.Hosts runs)
    (h' : ws'.Hosts (inner ++ runs)) (hs : ws.system? s = some sys)
    (hs' : ws'.system? s = some sys') :
    sys.running.scopes.length ≤ sys'.running.scopes.length := by
  have size := congrArg List.length (h.owners s sys hs)
  have size' := congrArg List.length (h'.owners s sys' hs')
  simp only [System.owners, ownersIn, List.filter_append, List.map_append, List.length_append,
    List.length_map] at size size'
  omega

end Workspace

/-- The system that is asked to generate. -/
def Entry.home : Entry .generation → SystemId
  | .generate s => s
  | .generateModule s _ => s

/-- On `st` waits, for a single module, the call that `below` waits for, or the generation of
all modules that wait in `s` on behalf of that call. -/
def Stack.Serves (s : SystemId) (st below : Stack U ρ .generation) : Prop :=
  st = below ∨ st = .worklist s below

/-- The call that `below` waits for, which is to generate in `s`, is being served. -/
inductive Control.Serves (s : SystemId) (below : Stack U ρ .generation) : Control U ρ → Prop
  | drains : Serves s below (.entering (.generate s) below)
  | requests (m : ModuleId) {st : Stack U ρ .generation} (waits : st.Serves s below) :
      Serves s below (.entering (.generateModule s m) st)
  | runs {c : Control U ρ} {m : ModuleId} {st : Stack U ρ .generation}
      (waits : st.Serves s below) (above : c.Above s m st) : Serves s below c
  | reports (answer : Except Error Unit) :
      Serves s below (.answering (a := .generation) answer (.worklist s below))

section Serves

variable {s : SystemId} {below st : Stack U ρ .generation} {c : Control U ρ}

theorem Stack.Serves.activations (waits : st.Serves s below) :
    st.activations = below.activations := by
  rcases waits with rfl | rfl <;> rfl

theorem Control.Serves.activations (serves : c.Serves s below) :
    ∃ inner, c.activations = inner ++ below.activations := by
  cases serves with
  | drains => exact ⟨[], rfl⟩
  | requests m waits => exact ⟨[], waits.activations⟩
  | runs waits above =>
      obtain ⟨inner, run, runs, -⟩ := above.activations
      rw [waits.activations] at runs
      exact ⟨inner ++ [run], by rw [runs, List.append_assoc]; rfl⟩
  | reports answer => exact ⟨[], rfl⟩

theorem Stack.Serves.answered (waits : st.Serves s below) (answer : Except Error Unit) :
    Control.Serves s below (.answering (a := .generation) answer st) ∨ st = below := by
  rcases waits with rfl | rfl
  · exact .inr rfl
  · exact .inl (.reports answer)

end Serves

namespace Machine

variable {P : Program U} {M : Machine U ρ} {s : SystemId} {m : ModuleId}
  {below st : Stack U ρ .generation}

theorem Reachable.met_or_refused (h : Reachable P M)
    (entering : M.control = .entering (.generateModule s m) st) :
    (∃ run script, (Machine.step P M).control = .generator run script st ∧ run.system = s ∧
        run.target = m) ∨
      (Machine.step P M).workspace = M.workspace ∧
        ∃ e, (Machine.step P M).control = .answering (a := .generation) (.error e) st := by
  obtain ⟨ws, control⟩ := M
  cases entering
  have entered : Machine.step P ⟨ws, .entering (.generateModule s m) st⟩ =
      start P ws (.generateModule s m) st := rfl
  have ends := Workspace.beginGeneration_ends h.hosts.sound s m
  rw [entered]
  cases hb : Workspace.beginGeneration s m ws with
  | ok r ws' =>
      obtain ⟨run, code⟩ := r
      obtain ⟨sym, mid, -, opens⟩ := ends.of_ok hb
      obtain ⟨sys, args, -, here, there, -⟩ := opens.site_eq
      rw [start_begins hb]
      exact .inl ⟨run, _, rfl, here, there⟩
  | error e ws' =>
      rw [start_refused hb]
      exact .inr ⟨(ends.of_error hb).1, e, rfl⟩

theorem Reachable.serves_step (h : Reachable P M) (serves : M.control.Serves s below) :
    (Machine.step P M).control.Serves s below ∨
      ∃ answer, (Machine.step P M).control = .answering (a := .generation) answer below := by
  obtain ⟨ws, control⟩ := M
  cases serves with
  | drains =>
      rw [step_generate rfl]
      cases hs : ws.system? s with
      | none =>
          unfold nextWaiting
          rw [hs]
          exact .inr ⟨_, rfl⟩
      | some sys =>
          rcases nextWaiting_cases ws s below hs with
            ⟨-, same⟩ | ⟨m, rest, -, ⟨-, same⟩ | ⟨-, same⟩⟩
          · rw [same]
            exact .inr ⟨_, rfl⟩
          · rw [same]
            exact .inl .drains
          · rw [same]
            exact .inl (.requests m (.inr rfl))
  | requests m waits =>
      rcases h.met_or_refused rfl with ⟨run, script, started, here, there⟩ | ⟨-, e, refused⟩
      · rw [started]
        exact .inl (.runs waits (.here _ here there))
      · rw [refused]
        exact (waits.answered _).imp_right fun same => ⟨_, by rw [same]⟩
  | runs waits above =>
      rcases step_above (P := P) h.hosts.sound above with still | ⟨run, result, last, -⟩
      · exact .inl (.runs waits still)
      · rcases h.ends last with ⟨-, same⟩ | ⟨-, e, same⟩
        · rw [same]
          exact (waits.answered _).imp_right fun same => ⟨_, by rw [same]⟩
        · rw [same]
          exact (waits.answered _).imp_right fun same => ⟨_, by rw [same]⟩
  | reports answer =>
      cases answer with
      | ok u => exact .inl .drains
      | error e => exact .inr ⟨_, rfl⟩

/-- What is done for the call happens above the scopes of before. -/
theorem Reachable.serving_step (h : Reachable P M) (serves : M.control.Serves s below)
    {ws : Workspace U} (before : ws.Hosts below.activations) {old sys : System}
    (hold : ws.system? s = some old) (hs : M.workspace.system? s = some sys) :
    ∃ sys', (Machine.step P M).workspace.system? s = some sys' ∧ old.Serving sys s sys' := by
  obtain ⟨sys', hs', tick⟩ := h.move.tick h.hosts hs
  refine ⟨sys', hs', ?_⟩
  have untouched : (Machine.step P M).workspace = M.workspace → old.Serving sys s sys' := by
    intro same
    rw [same, hs] at hs'
    cases hs'
    exact .outside sys.worklist
  obtain ⟨ws', control⟩ := M
  cases serves with
  | drains =>
      rw [step_generate rfl] at hs'
      have popped {rest : List ModuleId}
          (here : (ws'.setSystem s { sys with worklist := rest }).system? s = some sys') :
          old.Serving sys s sys' := by
        rw [Workspace.system?_setSystem_self hs] at here
        cases here
        exact .outside rest
      rcases nextWaiting_cases ws' s below hs with
        ⟨-, same⟩ | ⟨m, rest, -, ⟨-, same⟩ | ⟨-, same⟩⟩
      · exact untouched (by rw [step_generate rfl, same])
      · rw [same] at hs'
        exact popped hs'
      · rw [same] at hs'
        exact popped hs'
  | requests m waits =>
      rcases h.met_or_refused rfl with ⟨run, script, started, rfl, rfl⟩ | ⟨same, -⟩
      · rw [started] at tick
        simp only [Control.activations, Workspace.targetsIn_cons, if_true] at tick
        exact .starts tick
      · exact untouched same
  | runs waits above =>
      -- Whatever the user code does here, it does on top of the scope of its own generator.
      have before' := waits.activations ▸ before
      exact .inside tick (scopes_lt before' h.hosts hold hs above)
  | reports answer => cases answer <;> exact untouched rfl

section Call

variable {e : Entry .generation} {answer : Except Error Unit} {n k : Nat} {old : System}

theorem Reachable.serves_or_answers (h : Reachable P M) (entering : M.control = .entering e below)
    (pending : ∀ k < n, ∀ answer,
      ((Machine.step P)^[k] M).control ≠ .answering (a := .generation) answer below) :
    ((Machine.step P)^[n] M).control.Serves e.home below ∨
      ∃ answer, ((Machine.step P)^[n] M).control = .answering (a := .generation) answer below := by
  induction n with
  | zero =>
      change M.control.Serves e.home below ∨ _
      rw [entering]
      cases e with
      | generate s => exact .inl .drains
      | generateModule s m => exact .inl (.requests m (.inl rfl))
  | succ n ih =>
      rw [Function.iterate_succ_apply']
      rcases ih fun k lt => pending k (Nat.lt_succ_of_lt lt) with serves | ⟨answer, early⟩
      · exact (h.iterate n).serves_step serves
      · exact absurd early (pending n (Nat.lt_succ_self n) answer)

theorem Reachable.serves (h : Reachable P M) (entering : M.control = .entering e below)
    (returns : ReturnsAfter P below answer n M) (lt : k < n) :
    ((Machine.step P)^[k] M).control.Serves e.home below := by
  rcases h.serves_or_answers entering fun i before => returns.2 i (Nat.lt_trans before lt) with
    serves | ⟨other, early⟩
  · exact serves
  · exact absurd early (returns.2 k lt other)

theorem Reachable.during_call (h : Reachable P M) (entering : M.control = .entering e below)
    (returns : ReturnsAfter P below answer n M) (hold : M.workspace.system? e.home = some old)
    (le : k ≤ n) : ∃ sys, ((Machine.step P)^[k] M).workspace.system? e.home = some sys ∧
      old.During sys ∧ old.EnteredSince sys := by
  have before := h.hosts_entering entering
  induction k with
  | zero => exact ⟨old, hold, .refl old, .refl old⟩
  | succ k ih =>
      obtain ⟨sys, hs, d, entered⟩ := ih (Nat.le_of_succ_le le)
      have reach := h.iterate k
      obtain ⟨sys', hs', step⟩ := reach.serving_step (h.serves entering returns le) before hold hs
      rw [Function.iterate_succ_apply']
      exact ⟨sys', hs', d.serving (reach.hosts.sound.systems _ sys hs) step, entered.serving step⟩

/-- In every system, the call leaves what is below the innermost scope. So the scopes are
compared with those of before without the innermost one, and are always more than these. -/
theorem Reachable.during_call_below (h : Reachable P M) (entering : M.control = .entering e below)
    (returns : ReturnsAfter P below answer n M) (hold : M.workspace.system? s = some old)
    {scope : Scope GeneratorSite} {outer : List (Scope GeneratorSite)}
    (top : old.running.scopes = scope :: outer) (hm : old.symbolOf? m = some scope.site.ip.owner)
    (le : k ≤ n) : ∃ sys, ((Machine.step P)^[k] M).workspace.system? s = some sys ∧
      (old.undone m scope.site.ip.owner old.instances).During sys ∧
      (old.undone m scope.site.ip.owner old.instances).EnteredSince sys := by
  have before := h.hosts_entering entering
  induction k with
  | zero =>
      exact ⟨old, hold, .of_undone (h.hosts.sound.systems s old hold) top hm _, .of_leave top rfl⟩
  | succ k ih =>
      obtain ⟨sys, hs, d, entered⟩ := ih (Nat.le_of_succ_le le)
      have reach := h.iterate k
      obtain ⟨inner, runs⟩ := (h.serves entering returns le).activations
      have deep := before.depth_le (runs ▸ reach.hosts) hold hs
      have fewer : (old.undone m scope.site.ip.owner old.instances).running.scopes.length <
          old.running.scopes.length := by
        simp [System.undone, ScopeStack.leave, top]
      obtain ⟨sys', hs', tick⟩ := reach.move.tick reach.hosts hs
      have step : (old.undone m scope.site.ip.owner old.instances).Serving sys s sys' :=
        .inside tick (Nat.lt_of_lt_of_le fewer deep)
      rw [Function.iterate_succ_apply']
      exact ⟨sys', hs', d.serving (reach.hosts.sound.systems s sys hs) step, entered.serving step⟩

theorem Reachable.restored (h : Reachable P M) (entering : M.control = .entering e below)
    (returns : ReturnsAfter P below answer n M) (hold : M.workspace.system? e.home = some old) :
    ∃ sys, ((Machine.step P)^[n] M).workspace.system? e.home = some sys ∧
      old.Restored sys (Workspace.runsIn e.home below.activations) := by
  obtain ⟨sys, hs, d, entered⟩ := h.during_call entering returns hold (Nat.le_refl n)
  have before := h.hosts_entering entering
  have after := (h.iterate n).hosts_answering returns.1
  refine ⟨sys, hs, entered.eq (before.depth_eq after hold hs), fun run hrun => ?_⟩
  obtain ⟨sys', hs', -, symbols⟩ := (h.extends n).systems _ old hold
  rw [hs] at hs'
  cases hs'
  refine d.findModule?_of_owner (before.sound.systems _ old hold) (after.sound.systems _ sys hs)
    symbols ?_
  rw [before.owners _ old hold]
  exact List.mem_map_of_mem hrun

theorem Reachable.restored_below (h : Reachable P M) (entering : M.control = .entering e below)
    (returns : ReturnsAfter P below answer n M) (hold : M.workspace.system? s = some old) :
    ∃ sys, ((Machine.step P)^[n] M).workspace.system? s = some sys ∧
      old.RestoredBelow sys (Workspace.runsIn s below.activations) := by
  obtain ⟨sys, hs, -, symbols⟩ := (h.extends n).systems s old hold
  have before := h.hosts_entering entering
  have after := (h.iterate n).hosts_answering returns.1
  have sites := before.sites_eq after (h.extends n) hold hs
  suffices kept : (∃ names, sys.scopeStacks = old.scopeStacks.grant names) ∧
      ∀ q ∈ old.owners.tail, sys.design.findModule? q = old.design.findModule? q by
    obtain ⟨⟨names, granted⟩, ops⟩ := kept
    refine ⟨sys, hs, ?_, ?_, ?_, ?_, ?_, fun run hrun => ops run.symbol ?_⟩
    · rw [granted]
      exact List.tail_modifyHead
    · rw [granted]
      exact List.length_modifyHead
    · rw [granted, ScopeStacks.grant]
    · rw [granted, ScopeStacks.grant]
    · rw [granted, ScopeStacks.grant]
    · rw [before.owners s old hold, Workspace.ownersIn, ← List.map_tail]
      exact List.mem_map_of_mem hrun
  cases top : old.running.scopes with
  | nil =>
      have depth := before.depth_eq after hold hs
      rw [top] at depth
      refine ⟨System.scopeStacks_of_tail ?_ sites, by simp [System.owners, top]⟩
      rw [top, List.eq_nil_of_length_eq_zero depth]
  | cons scope outer =>
      have sound := before.sound.systems s old hold
      obtain ⟨m, x, op, b, hm, -⟩ := sound.top top
      obtain ⟨sys', hs', d, entered⟩ :=
        h.during_call_below entering returns hold top hm (Nat.le_refl n)
      rw [hs] at hs'
      cases hs'
      refine ⟨entered.eq_grant top rfl sites, fun q hq => ?_⟩
      exact d.below sound (after.sound.systems s sys hs) top hm symbols hq

end Call

/-- The scopes of the generators are balanced. In each system they are as many as the
generators that run in it, and the innermost generator is the one whose body is written to.
When a call returns that generates modules, with success or not, its system has the same
scopes as before, names and clocks included, and the same operations for the modules whose
generators enclose the call; every other system has the same, but for what the generators wrote
into its innermost body. -/
theorem Reachable.balanced (h : Reachable P M) :
    (∀ s sys, M.workspace.system? s = some sys →
      sys.Level (Workspace.runsIn s M.control.activations)) ∧
    ∀ e below answer n, M.control = .entering e below → ReturnsAfter P below answer n M →
      (∀ old, M.workspace.system? e.home = some old →
        ∃ sys, ((Machine.step P)^[n] M).workspace.system? e.home = some sys ∧
          old.Restored sys (Workspace.runsIn e.home below.activations)) ∧
      ∀ s old, M.workspace.system? s = some old →
        ∃ sys, ((Machine.step P)^[n] M).workspace.system? s = some sys ∧
          old.RestoredBelow sys (Workspace.runsIn s below.activations) := by
  refine ⟨fun s sys hs => ?_, fun e below answer n entering returns =>
    ⟨fun old hold => h.restored entering returns hold,
      fun s old hold => h.restored_below entering returns hold⟩⟩
  obtain ⟨contexts, points, locs, -⟩ := h.hosts.scopeStacks hs
  refine ⟨contexts, ?_, ?_, fun run outer nest => ⟨?_, ?_⟩⟩
  · rw [points, List.length_map]
  · rw [locs, List.length_map]
  · rw [points, nest]
    rfl
  · have mem : run ∈ Workspace.runsIn s M.control.activations := by simp [nest]
    obtain ⟨running, rfl⟩ := Workspace.mem_runsIn.mp mem
    obtain ⟨sys', hs', hm⟩ := (h.hosts.each run running).home
    rw [hs] at hs'
    cases hs'
    exact hm

end Machine

namespace Sample

/-- The generation of `Leaf` inside that of `Top`, where it has a clock and `Leaf` has none. -/
theorem balanced_when_nested : ∃ below answer old sys,
    (clockedAfter 6).control = .entering (.generateModule ⟨0⟩ ⟨0⟩) below ∧
    Machine.ReturnsAfter (program enclosing) below answer 3 (clockedAfter 6) ∧
    (clockedAfter 6).workspace.system? ⟨0⟩ = some old ∧
    ((Machine.step (program enclosing))^[3] (clockedAfter 6)).workspace.system? ⟨0⟩ = some sys ∧
    old.Restored sys (Workspace.runsIn ⟨0⟩ below.activations) ∧
    sys.scopeStacks.points = [⟨"Top"⟩] ∧ sys.scopeStacks.clocks = [⟨.arg "Top" 0, .clock⟩] := by
  have reach := reachable_clockedAfter 6
  have request : requested? (clockedAfter 6).control = some (⟨0⟩, ⟨0⟩) := by decide +kernel
  have runs : (clockedAfter 6).control.activations.length = 1 := by decide +kernel
  have idle : ((clockedAfter 6).workspace.system? ⟨0⟩).map
      (fun sys => sys.isGenerated ⟨0⟩) = some false := by
    decide +kernel
  have nested : ((clockedAfter 6).workspace.system? ⟨0⟩).map
      (fun sys => (sys.scopeStacks.points, sys.scopeStacks.clocks)) =
        some ([⟨"Top"⟩], [⟨.arg "Top" 0, .clock⟩]) := by
    decide +kernel
  have single : ((clockedAfter 6).workspace.module? ⟨0⟩).map
      (fun x => x.schema.generators.values.length) = some 1 := by
    decide +kernel
  have deep : ∀ k < 2, 1 < ((Machine.step (program enclosing))^[k + 1]
      (clockedAfter 6)).control.activations.length := by
    decide +kernel
  have back : ((Machine.step (program enclosing))^[3]
      (clockedAfter 6)).control.activations.length = 1 := by
    decide +kernel
  -- From here on the machine is not to be evaluated any more.
  generalize clockedAfter 6 = M at *
  obtain ⟨below, run, script, answer, starts, returns⟩ :=
    starts_and_returns reach request runs idle single deep back
  obtain ⟨old, hold, found⟩ := Option.map_eq_some_iff.mp nested
  obtain ⟨points, clocks⟩ := Prod.mk.inj found
  obtain ⟨home, -⟩ := reach.balanced.2 _ below answer 3 starts.1 returns
  obtain ⟨sys, hs, restored⟩ := home old hold
  refine ⟨below, answer, old, sys, starts.1, returns, hold, hs, restored, ?_, ?_⟩
  · rw [restored.scopes, points]
  · rw [restored.scopes, clocks]

end Sample

end Hardware
