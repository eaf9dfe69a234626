import Hardware.Proofs.Queue
import Hardware.Proofs.Scopes

/-!
The order in which the modules that wait are generated. While the user code that runs asks for no
generation of its own, a module is run when it comes to the front of the worklist, so the runs
follow the order in which modules were put there.
-/
namespace Hardware

variable {U : UserCode} {ρ : Type}

namespace Call

/-- The system and the module that a call lets wait there. -/
def added? : Call U → Option (SystemId × ModuleId)
  | .addTop s m | .instantiate s m _ => some (s, m)
  | _ => none

/-- The module that a call asks `s` for: it is instantiated or made a top-level module there, with
success, and has a generator. -/
def asks? (ws : Workspace U) (s : SystemId) (c : Call U) : Option ModuleId :=
  c.added?.bind fun (t, m) =>
    match c.perform ws with
    | .ok _ ws => if t = s ∧ (ws.module? m).any Module.hasGenerator then some m else none
    | .error _ _ => none

theorem added?_eq_some_iff {c : Call U} {s : SystemId} {m : ModuleId} :
    c.added? = some (s, m) ↔ c.Adds s m := by
  cases c <;> simp [added?, Adds, eq_comm]

theorem asks?_eq_some_iff {ws : Workspace U} {s : SystemId} {c : Call U} {m : ModuleId} :
    c.asks? ws s = some m ↔ c.Adds s m ∧ ∃ r ws' x, c.perform ws = .ok r ws' ∧
      ws'.module? m = some x ∧ x.hasGenerator = true := by
  unfold asks?
  constructor
  · intro asks
    obtain ⟨⟨t, n⟩, added, answer⟩ := Option.bind_eq_some_iff.mp asks
    cases ok : c.perform ws with
    | ok r ws' =>
        simp only [ok] at answer
        split at answer
        · rename_i here
          obtain ⟨rfl, backed⟩ := here
          cases answer
          cases hx : ws'.module? m with
          | none => simp [hx] at backed
          | some x =>
              refine ⟨added?_eq_some_iff.mp added, r, ws', x, rfl, hx, ?_⟩
              rwa [hx, Option.any_some] at backed
        · cases answer
    | error e ws' => simp [ok] at answer
  · rintro ⟨adds, r, ws', x, ok, hx, gen⟩
    rw [added?_eq_some_iff.mpr adds, Option.bind_some]
    simp [ok, hx, gen]

end Call

/-- What the user code that runs asks to be generated in the next step. -/
def Control.generation? : Control U ρ → Option (Entry .generation)
  | .session (.enter (a := .generation) e _) => some e
  | .generator _ (.enter (a := .generation) e _) _ => some e
  | .producer _ (.enter (a := .generation) e _) _ => some e
  | _ => none

/-- On the stack, above the worklist of `s`, is a generator that was taken from it, and above
that are producers only. -/
inductive Stack.Works (s : SystemId) (below : Stack U ρ .generation) :
    Stack U ρ .production → Prop
  | generator (run : GeneratorRun) (next : Except Error ModuleId → Script U GeneratorResult) :
      Works s below (.generator run next (.worklist s below))
  | producer (run : ProducerRun) (next : Except Error ModuleId → Script U ProducerResult)
      {st : Stack U ρ .production} (works : Works s below st) :
      Works s below (.producer run next st)

/-- A generator that was taken from the worklist of `s` is at work, or has just ended well. -/
inductive Control.Works (s : SystemId) (below : Stack U ρ .generation) : Control U ρ → Prop
  | generator (run : GeneratorRun) (script : Script U GeneratorResult) :
      Works s below (.generator run script (.worklist s below))
  | producer (run : ProducerRun) (script : Script U ProducerResult) {st : Stack U ρ .production}
      (works : Stack.Works s below st) : Works s below (.producer run script st)
  | calls (e : Entry .production) {st : Stack U ρ .production} (works : Stack.Works s below st) :
      Works s below (.entering e st)
  | returns (answer : Except Error ModuleId) {st : Stack U ρ .production}
      (works : Stack.Works s below st) : Works s below (.answering (a := .production) answer st)
  | ended : Works s below (.answering (a := .generation) (.ok ()) (.worklist s below))

theorem Stack.worklist_ne_self (s : SystemId) (below : Stack U ρ .generation) :
    Stack.worklist s below ≠ below := by
  intro same
  have size := congrArg sizeOf same
  simp at size

theorem Control.Works.not_answered {s : SystemId} {below : Stack U ρ .generation}
    {control : Control U ρ} (works : control.Works s below) (answer : Except Error Unit) :
    control ≠ .answering (a := .generation) answer below := by
  intro same
  cases works with
  | generator run script => cases same
  | producer run script inside => cases same
  | calls e inside => cases same
  | returns answer inside => cases same
  | ended =>
      injection same with _ _ frame
      exact Stack.worklist_ne_self s below frame

namespace Machine

variable {P : Program U} {M : Machine U ρ} {s : SystemId} {m : ModuleId}
  {below : Stack U ρ .generation}

/-- The module that the next step asks `s` for. -/
def asked? (s : SystemId) (M : Machine U ρ) : Option ModuleId :=
  M.control.call?.bind (Call.asks? M.workspace s)

/-- The generator that the next step starts. -/
def started? (P : Program U) (M : Machine U ρ) : Option (SystemId × ModuleId) :=
  match M.control, (step P M).control with
  | .entering (.generateModule s m) _, .generator _ _ _ => some (s, m)
  | _, _ => none

/-- The modules that `s` is asked for within `n` steps, in this order. -/
def askedWithin (P : Program U) (s : SystemId) (n : Nat) (M : Machine U ρ) : List ModuleId :=
  (List.range n).filterMap fun k => asked? s ((step P)^[k] M)

/-- The generators that are started within `n` steps, in this order. -/
def startedWithin (P : Program U) (n : Nat) (M : Machine U ρ) : List (SystemId × ModuleId) :=
  (List.range n).filterMap fun k => started? P ((step P)^[k] M)

theorem askedWithin_succ (P : Program U) (s : SystemId) (n : Nat) (M : Machine U ρ) :
    askedWithin P s (n + 1) M = askedWithin P s n M ++ (asked? s ((step P)^[n] M)).toList := by
  unfold askedWithin
  rw [List.range_succ, List.filterMap_append]
  cases h : asked? s ((step P)^[n] M) <;> simp [h]

theorem startedWithin_succ (P : Program U) (n : Nat) (M : Machine U ρ) :
    startedWithin P (n + 1) M = startedWithin P n M ++ (started? P ((step P)^[n] M)).toList := by
  unfold startedWithin
  rw [List.range_succ, List.filterMap_append]
  cases h : started? P ((step P)^[n] M) <;> simp [h]

theorem started?_of_not_entering
    (other : ∀ s m below, M.control ≠ .entering (.generateModule s m) below) :
    started? P M = none := by
  unfold started?
  split
  · rename_i t n st _ _ _ entering _
    exact absurd entering (other t n st)
  · rfl

theorem step_works (works : M.control.Works s below) (quiet : M.control.generation? = none) :
    (step P M).control.Works s below ∨
      (step P M).control = .entering (.generate s) below ∨
      ∃ e, (step P M).control = .answering (a := .generation) (.error e) (.worklist s below) := by
  obtain ⟨ws, control⟩ := M
  change control.Works s below at works
  change control.generation? = none at quiet
  cases works with
  | generator run script =>
      cases script with
      | done r =>
          have answered : (step P ⟨ws, .generator run (.done r) (.worklist s below)⟩).control =
              .answering (a := .generation) ((Workspace.endGeneration run r).outcome ws).1
                (.worklist s below) := rfl
          rw [answered]
          cases ((Workspace.endGeneration run r).outcome ws).1 with
          | ok u => exact .inl .ended
          | error e => exact .inr (.inr ⟨e, rfl⟩)
      | call c next => exact .inl (.generator run _)
      | port c next => exact .inl (.generator _ _)
      | @enter a e next =>
          cases a with
          | generation => cases quiet
          | production => exact .inl (.calls e (.generator run next))
  | producer run script inside =>
      cases script with
      | done r => exact .inl (.returns _ inside)
      | call c next => exact .inl (.producer run _ inside)
      | port c next => exact .inl (.producer run _ inside)
      | @enter a e next =>
          cases a with
          | generation => cases quiet
          | production => exact .inl (.calls e (.producer run next inside))
  | @calls e st inside =>
      cases e with
      | callFactory f c args =>
          change (start P ws (.callFactory f c args) st).control.Works s below ∨ _
          cases hb : Workspace.beginProduction f c args ws with
          | ok r ws' =>
              cases r with
              | hit m =>
                  simp only [start, hb]
                  exact .inl (.returns _ inside)
              | miss run code bound =>
                  simp only [start, hb]
                  exact .inl (.producer run _ inside)
          | error e ws' =>
              simp only [start, hb]
              exact .inl (.returns _ inside)
  | returns answer inside =>
      cases inside with
      | generator run next => exact .inl (.generator run _)
      | producer run next inside => exact .inl (.producer run _ inside)
  | ended => exact .inr (.inl rfl)

theorem Reachable.asked_of_queued (h : Reachable P M)
    (queued : (M.permit fun _ => False).queued s m) (wait : Waiting s m (Machine.step P M)) :
    asked? s M = some m := by
  obtain ⟨c, calls, adds, r, ws', ok⟩ := queued
  have left : (Machine.step P M).workspace = ws' := by
    rw [(step_call calls).1, Effect.outcome, ok]
  obtain ⟨sys, hs, wait⟩ := wait
  obtain ⟨x, sym, hx, gen, -⟩ := (h.step.hosts.sound.systems s sys hs).waiting m wait
  rw [asked?, calls, Option.bind_some, Call.asks?_eq_some_iff]
  exact ⟨adds, r, ws', x, ok, left ▸ hx, gen⟩

theorem Reachable.covered_of_asked (h : Reachable P M) (asked : asked? s M = some m) :
    Generated s m (Machine.step P M) ∨ Waiting s m (Machine.step P M) := by
  obtain ⟨c, calls, asks⟩ := Option.bind_eq_some_iff.mp asked
  obtain ⟨adds, r, ws', x, ok, hx, gen⟩ := Call.asks?_eq_some_iff.mp asks
  have left : (Machine.step P M).workspace = ws' := by
    rw [(step_call calls).1, Effect.outcome, ok]
  obtain ⟨sys, hs, known⟩ := h.waits_of_adds calls adds ⟨r, ws', ok⟩ x (left ▸ hx) gen
  exact known.imp (fun gen => ⟨sys, hs, gen⟩) fun wait => ⟨sys, hs, wait⟩

/-- How far `s` has come with the modules that wait in it, since it was `old` and the generation of
all of them was requested on top of `below`. -/
inductive Draining (s : SystemId) (below : Stack U ρ .generation) (old : System)
    (asked ran : List ModuleId) (M : Machine U ρ) : Prop
  | waits {now : System} (control : M.control = .entering (.generate s) below)
      (hs : M.workspace.system? s = some now) (order : old.InOrder asked ran [] now)
  | begins {m : ModuleId} {now : System}
      (control : M.control = .entering (.generateModule s m) (.worklist s below))
      (hs : M.workspace.system? s = some now) (order : old.InOrder asked ran [m] now)
  | works {now : System} (works : M.control.Works s below)
      (hs : M.workspace.system? s = some now) (order : old.InOrder asked ran [] now)
  | fails {e : Error}
      (control : M.control = .answering (a := .generation) (.error e) (.worklist s below))
  | refused {e : Error} (control : M.control = .answering (a := .generation) (.error e) below)
  | done {now : System} (control : M.control = .answering (a := .generation) (.ok ()) below)
      (hs : M.workspace.system? s = some now) (order : old.InOrder asked ran [] now)
      (empty : now.worklist = [])

variable {old now : System} {asked ran next : List ModuleId} {n : Nat}

theorem Reachable.in_order (h : Reachable P M) (order : old.InOrder asked ran next now)
    (hs : M.workspace.system? s = some now)
    (works : ∀ (e : Entry .generation) st, M.control ≠ .entering e st)
    (unfailed : ∀ e st, (Machine.step P M).control ≠ .answering (a := .generation) (.error e) st) :
    ∃ now', (Machine.step P M).workspace.system? s = some now' ∧
      old.InOrder (asked ++ (asked? s M).toList) ran next now' := by
  have undrained : ∀ t, ¬ (M.permit fun _ => False).drained t := by
    rintro t ⟨st, entering⟩
    exact works _ st entering
  obtain ⟨now', hs', more, same, queued⟩ := h.move.queues undrained s now hs
  have marks : ∀ m, now'.isGenerated m = now.isGenerated m := by
    intro m
    cases gen : now.isGenerated m <;> cases gen' : now'.isGenerated m
    · rfl
    · obtain ⟨st, run, script, starts⟩ := h.starts_of_generated hs gen hs' gen'
      exact absurd starts.1 (works _ st)
    · obtain ⟨st, run, result, e, -, -, -, failed⟩ := h.fails_of_generated hs gen hs' gen'
      exact absurd failed (unfailed e st)
    · rfl
  refine ⟨now', hs', order.asks marks same (fun m mem => ?_) fun m asks => ?_⟩
  · refine h.asked_of_queued (queued m mem) ⟨now', hs', ?_⟩
    rw [same]
    exact List.mem_append_right _ mem
  · rcases h.covered_of_asked asks with ⟨sys, hsys, gen⟩ | ⟨sys, hsys, wait⟩
    · rw [hs'] at hsys
      cases hsys
      exact .inl gen
    · rw [hs'] at hsys
      cases hsys
      exact .inr wait

/-- The generator of the module that was taken from the worklist starts. -/
theorem Reachable.in_order_of_starts (h : Reachable P M) (order : old.InOrder asked ran [m] now)
    (hs : M.workspace.system? s = some now) {run : GeneratorRun} {script : Script U GeneratorResult}
    {st : Stack U ρ .generation} (starts : Starts P s m st run script M) :
    ∃ now', (Machine.step P M).workspace.system? s = some now' ∧
      old.InOrder asked (ran ++ [m]) [] now' := by
  have undrained : ∀ t, ¬ (M.permit fun _ => False).drained t := by
    rintro t ⟨st, entering⟩
    rw [starts.1] at entering
    cases entering
  obtain ⟨now', hs', more, same, queued⟩ := h.move.queues undrained s now hs
  have none : more = [] := by
    refine List.eq_nil_iff_forall_not_mem.mpr fun n mem => ?_
    obtain ⟨c, calls, -⟩ := queued n mem
    exact (step_call (P := P) calls).2 _ _ _ starts.1
  rw [none, List.append_nil] at same
  obtain ⟨was, sys, x, g, -, hsys, -, -, -, -, -, begun⟩ := h.begun starts
  rw [hs'] at hsys
  cases hsys
  refine ⟨now', hs', order.starts (fun n => ⟨fun gen' => ?_, ?_⟩) same⟩
  · cases gen : now.isGenerated n with
    | true => exact .inl rfl
    | false =>
        obtain ⟨st', run', script', other⟩ := h.starts_of_generated hs gen hs' gen'
        have entering := starts.1.symm.trans other.1
        cases entering
        exact .inr rfl
  · rintro (gen | rfl)
    · by_contra lost
      obtain ⟨st', run', result, e, last, -⟩ :=
        h.fails_of_generated hs gen hs' (Bool.eq_false_iff.mpr lost)
      have entering := starts.1.symm.trans last
      cases entering
    · exact begun.marked

theorem asked?_of_entering {a : Awaited} {e : Entry a} {st : Stack U ρ a}
    (entering : M.control = .entering e st) : asked? s M = none := by
  rw [asked?, entering]
  rfl

/-- A step on the way starts at most one generator, that of the module it has come to. -/
theorem Reachable.draining_step (h : Reachable P M) (d : Draining s below old asked ran M)
    (quiet : M.control.generation? = none)
    (pending : ∀ answer, M.control ≠ .answering (a := .generation) answer below) :
    ∃ new : Option ModuleId, started? P M = new.map (s, ·) ∧
      Draining s below old (asked ++ (asked? s M).toList) (ran ++ new.toList)
        (Machine.step P M) := by
  cases d with
  | @waits now entering hs order =>
      have unstarted : started? P M = none := started?_of_not_entering fun t m st other => by
        rw [entering] at other
        cases other
      refine ⟨none, unstarted, ?_⟩
      rw [asked?_of_entering entering, Option.toList_none, List.append_nil, List.append_nil,
        step_generate entering]
      rcases nextWaiting_cases M.workspace s below hs with
        ⟨empty, same⟩ | ⟨m, rest, first, ⟨gen, same⟩ | ⟨idle, same⟩⟩
      · rw [same]
        exact .done rfl hs order empty
      · rw [same]
        exact .waits rfl (Workspace.system?_setSystem_self hs _) (order.skips first gen)
      · rw [same]
        exact .begins rfl (Workspace.system?_setSystem_self hs _) (order.takes first idle)
  | @begins m now entering hs order =>
      rw [asked?_of_entering entering, Option.toList_none, List.append_nil]
      rcases starts_or_refused P entering with ⟨run, script, starts⟩ | ⟨e, refused⟩
      · obtain ⟨now', hs', order'⟩ := h.in_order_of_starts order hs starts
        refine ⟨some m, ?_, .works ?_ hs' order'⟩
        · rw [started?, starts.1, starts.2]
          rfl
        · rw [starts.2]
          exact .generator run script
      · refine ⟨none, ?_, .fails refused⟩
        rw [started?, entering, refused]
        rfl
  | @works now works hs order =>
      have entering : ∀ (e : Entry .generation) st, M.control ≠ .entering e st := by
        intro e st other
        rw [other] at works
        cases works
      have unstarted : started? P M = none :=
        started?_of_not_entering fun t m st => entering _ st
      refine ⟨none, unstarted, ?_⟩
      rw [Option.toList_none, List.append_nil]
      rcases step_works (P := P) works quiet with goes | drawn | ⟨e, failed⟩
      · obtain ⟨now', hs', order'⟩ := h.in_order order hs entering fun e st failed => by
          rw [failed] at goes
          cases goes
        exact .works goes hs' order'
      · obtain ⟨now', hs', order'⟩ := h.in_order order hs entering fun e st failed => by
          rw [failed] at drawn
          cases drawn
        exact .waits drawn hs' order'
      · exact .fails failed
  | @fails e answering =>
      have unstarted : started? P M = none := started?_of_not_entering fun t m st other => by
        rw [answering] at other
        cases other
      refine ⟨none, unstarted, .refused (e := e) ?_⟩
      unfold Machine.step
      rw [answering]
      rfl
  | refused answering => exact absurd answering (pending _)
  | done answering => exact absurd answering (pending _)

theorem Reachable.draining (h : Reachable P M) (entering : M.control = .entering (.generate s) below)
    (hs : M.workspace.system? s = some old)
    (quiet : ∀ k < n, ((Machine.step P)^[k] M).control.generation? = none)
    (pending : ∀ k < n, ∀ answer,
      ((Machine.step P)^[k] M).control ≠ .answering (a := .generation) answer below) :
    ∃ ran : List ModuleId, startedWithin P n M = ran.map (s, ·) ∧
      Draining s below old (old.worklist ++ askedWithin P s n M) ran ((Machine.step P)^[n] M) := by
  induction n with
  | zero => exact ⟨[], rfl, .waits entering hs (by simpa [askedWithin] using .refl old)⟩
  | succ n ih =>
      obtain ⟨ran, started, d⟩ := ih (fun k lt => quiet k (Nat.lt_succ_of_lt lt))
        fun k lt => pending k (Nat.lt_succ_of_lt lt)
      obtain ⟨new, starts, d'⟩ := (h.iterate n).draining_step d (quiet n (Nat.lt_succ_self n))
        (pending n (Nat.lt_succ_self n))
      refine ⟨ran ++ new.toList, ?_, ?_⟩
      · rw [startedWithin_succ, started, starts, List.map_append]
        cases new <;> rfl
      · rw [askedWithin_succ, ← List.append_assoc, Function.iterate_succ_apply']
        exact d'

/-- Where the user code that runs meanwhile asks for no generation, all that waits in `s` is generated
in the order in which it was put on the worklist: first what waits at the call, then, in the order
of the calls, the modules with a generator that are instantiated or made top-level modules on the
way. What was generated before is left out, and so is every repetition; no other generator runs. In
the end nothing waits. -/
theorem Reachable.generated_in_order (h : Reachable P M)
    (entering : M.control = .entering (.generate s) below)
    (returns : ReturnsAfter P below (.ok ()) n M)
    (quiet : ∀ k < n, ((Machine.step P)^[k] M).control.generation? = none)
    (hs : M.workspace.system? s = some old) :
    startedWithin P n M = (old.due (old.worklist ++ askedWithin P s n M)).map (s, ·) ∧
      (startedWithin P n M).Nodup ∧
      (∀ t m, (t, m) ∈ startedWithin P n M → ∃ x,
        ((Machine.step P)^[n] M).workspace.module? m = some x ∧ x.hasGenerator = true ∧
          x.isImported = false) ∧
      ∃ now, ((Machine.step P)^[n] M).workspace.system? s = some now ∧ now.worklist = [] ∧
        ∀ m, now.isGenerated m = true ↔
          old.isGenerated m = true ∨ (s, m) ∈ startedWithin P n M := by
  obtain ⟨ran, started, d⟩ := h.draining entering hs quiet returns.2
  have answers := returns.1
  cases d with
  | waits control => rw [control] at answers; cases answers
  | begins control => rw [control] at answers; cases answers
  | works works => exact absurd answers (works.not_answered _)
  | fails control => rw [control] at answers; cases answers
  | refused control => rw [control] at answers; cases answers
  | @done now control hnow order empty =>
      have due := order.due_eq empty
      have distinct := order.distinct
      rw [List.append_nil] at distinct
      have mem : ∀ t m, (t, m) ∈ startedWithin P n M ↔ t = s ∧ m ∈ ran := by
        intro t m
        rw [started, List.mem_map]
        constructor
        · rintro ⟨m', mem, same⟩
          cases same
          exact ⟨rfl, mem⟩
        · rintro ⟨rfl, mem⟩
          exact ⟨m, mem, rfl⟩
      refine ⟨by rw [started, due], ?_, fun t m there => ?_, now, hnow, empty, fun m => ?_⟩
      · rw [started]
        exact distinct.map fun m m' same => (Prod.mk.inj same).2
      · have gen := (order.marked m).mpr (.inr ((mem t m).mp there).2)
        have sound := (h.iterate n).hosts.sound
        obtain ⟨x, sym, g, hx, -, declared, one⟩ := (sound.systems s now hnow).generated m gen
        exact ⟨x, hx, Schema.hasGenerator_of_one one, declared⟩
      · rw [order.marked, mem, and_iff_right rfl]

end Machine

namespace Sample

/-- True if the session asks for all that waits to be generated, and is told after `n` steps that
this went well. -/
def returnsOk (P : Program code) (n : Nat) (M : Machine code Unit) : Bool :=
  isGenerating M.control &&
    ((List.range n).all fun k => (generationAnswer? ((Machine.step P)^[k] M).control).isNone) &&
    generationAnswer? ((Machine.step P)^[n] M).control = some (.ok ())

theorem returns_of_returnsOk {P : Program code} {M : Machine code Unit} {n : Nat}
    (reach : Machine.Reachable P M) (test : returnsOk P n M = true) :
    ∃ below, M.control = .entering (.generate ⟨0⟩) below ∧
      Machine.ReturnsAfter P below (.ok ()) n M := by
  simp only [returnsOk, Bool.and_eq_true, List.all_eq_true, List.mem_range,
    Option.isNone_iff_eq_none, decide_eq_true_eq] at test
  obtain ⟨⟨before, pending⟩, answered⟩ := test
  obtain ⟨next, entering⟩ := generates_of_isGenerating before
  have waiting : ∀ k < n, ∀ answer, ((Machine.step P)^[k] M).control ≠
      .answering (a := .generation) answer (.session next) := by
    intro k lt answer same
    have none := pending k lt
    rw [same] at none
    cases none
  refine ⟨.session next, entering, ?_, waiting⟩
  rcases reach.serves_or_answers entering waiting with serves | ⟨answer, answers⟩
  · generalize ((Machine.step P)^[n] M).control = c at serves answered
    cases serves with
    | drains => cases answered
    | requests m waits => cases answered
    | runs waits above =>
        unfold generationAnswer? at answered
        split at answered
        · cases above
        · cases answered
    | reports answer => cases answered
  · rw [answers] at answered
    cases answered
    exact answers

/-- Instantiates `Leaf` twice. -/
def twice : Script code GeneratorResult := instantiating fun _ => top

/-- `Leaf` is generated once, after `Top`, which instantiates it twice. -/
theorem two_instances_generated_once : ∃ below sys,
    (after (program twice) generating 5).control = .entering (.generate ⟨0⟩) below ∧
    Machine.ReturnsAfter (program twice) below (.ok ()) 16 (after (program twice) generating 5) ∧
    (after (program twice) generating 5).workspace.system? ⟨0⟩ = some sys ∧
    Machine.startedWithin (program twice) 16 (after (program twice) generating 5) =
      (sys.due (sys.worklist ++ [⟨0⟩, ⟨0⟩])).map (⟨0⟩, ·) ∧
    Machine.startedWithin (program twice) 16 (after (program twice) generating 5) =
      [(⟨0⟩, ⟨1⟩), (⟨0⟩, ⟨0⟩)] := by
  have reach := reachable (program twice) generating 5
  have known : ((after (program twice) generating 5).workspace.system? ⟨0⟩).isSome = true := by
    decide +kernel
  have test : returnsOk (program twice) 16 (after (program twice) generating 5) = true := by
    decide +kernel
  have quiet : ∀ k < 16, ((Machine.step (program twice))^[k]
      (after (program twice) generating 5)).control.generation?.isNone = true := by
    decide +kernel
  have asked : Machine.askedWithin (program twice) ⟨0⟩ 16
      (after (program twice) generating 5) = [⟨0⟩, ⟨0⟩] := by
    decide +kernel
  have started : Machine.startedWithin (program twice) 16
      (after (program twice) generating 5) = [(⟨0⟩, ⟨1⟩), (⟨0⟩, ⟨0⟩)] := by
    decide +kernel
  -- From here on the machine is not to be evaluated any more.
  generalize after (program twice) generating 5 = M at *
  obtain ⟨sys, hs⟩ := Option.isSome_iff_exists.mp known
  obtain ⟨below, entering, returns⟩ := returns_of_returnsOk reach test
  obtain ⟨order, -⟩ := reach.generated_in_order entering returns
    (fun k lt => Option.isNone_iff_eq_none.mp (quiet k lt)) hs
  rw [asked] at order
  exact ⟨below, sys, entering, returns, hs, order, started⟩

/-- True if a generator is about to ask for a generation itself. -/
def generatorAsks : Control code Unit → Bool
  | .generator _ (.enter (a := .generation) _ _) _ => true
  | _ => false

def isInstantiate : Option (Call code) → Bool
  | some (.instantiate _ _ _) => true
  | _ => false

/-- All that waits is generated within `n` steps. At first `Top` waits and no generator runs, no
generator asks for a generation itself, and no module is instantiated; but `Leaf` is generated. -/
def Strays (P : Program code) (n : Nat) (M : Machine code Unit) : Prop :=
  ∃ below sys, M.control = .entering (.generate ⟨0⟩) below ∧
    Machine.ReturnsAfter P below (.ok ()) n M ∧ M.workspace.system? ⟨0⟩ = some sys ∧
    sys.owners = [] ∧ sys.worklist = [⟨1⟩] ∧
    (∀ k < n, generatorAsks ((Machine.step P)^[k] M).control = false ∧
      isInstantiate ((Machine.step P)^[k] M).control.call? = false) ∧
    Machine.startedWithin P n M = [(⟨0⟩, ⟨1⟩), (⟨0⟩, ⟨0⟩)]

/-- The test for such a run. -/
def strays (P : Program code) (n : Nat) (M : Machine code Unit) : Bool :=
  returnsOk P n M &&
    (M.workspace.system? ⟨0⟩).map (fun sys => (sys.owners, sys.worklist)) = some ([], [⟨1⟩]) &&
    ((List.range n).all fun k =>
      let c := ((Machine.step P)^[k] M).control
      !generatorAsks c && !isInstantiate c.call?) &&
    Machine.startedWithin P n M = [(⟨0⟩, ⟨1⟩), (⟨0⟩, ⟨0⟩)]

theorem strays_of_test {P : Program code} {M : Machine code Unit} {n : Nat}
    (reach : Machine.Reachable P M) (test : strays P n M = true) : Strays P n M := by
  simp only [strays, Bool.and_eq_true, decide_eq_true_eq, List.all_eq_true, List.mem_range,
    Bool.not_eq_true'] at test
  obtain ⟨⟨⟨ok, system⟩, alone⟩, started⟩ := test
  obtain ⟨below, entering, returns⟩ := returns_of_returnsOk reach ok
  obtain ⟨sys, hs, found⟩ := Option.map_eq_some_iff.mp system
  obtain ⟨owners, worklist⟩ := Prod.mk.inj found
  exact ⟨below, sys, entering, returns, hs, owners, worklist, alone, started⟩

/-- Makes `Leaf` a top-level module, and instantiates nothing. -/
def promoting : Script code GeneratorResult := .call (.addTop ⟨0⟩ ⟨0⟩) fun _ => leaf

/-- `Top` calls a factory, whose producer has `Leaf` generated. -/
def meddling : Program code where
  generator g := if g then .enter (.callFactory ⟨0⟩ ⟨0⟩ {}) fun _ => leaf else leaf
  producer _ _ := .enter (.generateModule ⟨0⟩ ⟨0⟩) fun _ => .done (.ok ⟨0⟩)

/-- A factory is declared, before all that waits is generated. -/
def equipped : Script code Unit :=
  .call .newCache fun _ => .call (.newFactory "make" ⟨[]⟩ () .unknown) fun _ => generating

/-- A module that neither waits at the call nor is instantiated is generated, if it is made a
top-level module meanwhile, or if a producer asks for it. -/
theorem generated_without_instance :
    Strays (program promoting) 12 (after (program promoting) generating 5) ∧
      Strays meddling 15 (after meddling equipped 7) :=
  ⟨strays_of_test (reachable _ _ _) (by decide +kernel),
    strays_of_test (reachable _ _ _) (by decide +kernel)⟩

end Sample

end Hardware
