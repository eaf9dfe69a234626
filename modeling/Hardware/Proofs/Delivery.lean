import Hardware.Proofs.Assignment

/-!
What a generator delivers to the outputs of its module. From the step that starts it to the step in
which it ends, its ports change by the calls that it makes at them itself, whatever other bodies run
in between. So in the end each output holds the value that was delivered to it last, and the
operation that closes the body takes just these values.
-/
namespace Hardware

variable {U : UserCode} {ρ : Type}

namespace Ports

variable {log new : List (Nat × Value)} {i j : Nat} {v : Value}

/-- The value that is delivered last to the output `i`. -/
def lastValue (log : List (Nat × Value)) (i : Nat) : Option Value := log.reverse.lookup i

/-- The outputs to which nothing is delivered, in port order. -/
def unserved (outputs : List PortDesc) (log : List (Nat × Value)) : List Ident :=
  (outputs.zipIdx.filter fun e => (lastValue log e.2).isNone).map fun e => e.1.name

theorem lastValue_append_one (log : List (Nat × Value)) (i j : Nat) (v : Value) :
    lastValue (log ++ [(i, v)]) j = if j = i then some v else lastValue log j := by
  rw [lastValue, List.reverse_append, List.reverse_singleton, List.singleton_append,
    OrderedMap.lookup_cons_if]
  rfl

theorem mem_of_lastValue (last : lastValue log i = some v) : (i, v) ∈ log :=
  List.mem_reverse.mp (OrderedMap.mem_entries_of_get? (m := ⟨log.reverse⟩) last)

theorem deliver_append (slots : List (Option Value)) (log new : List (Nat × Value)) :
    deliver slots (log ++ new) = deliver (deliver slots log) new :=
  List.foldl_append

theorem length_deliver (slots : List (Option Value)) (log : List (Nat × Value)) :
    (deliver slots log).length = slots.length := by
  unfold deliver
  induction log generalizing slots with
  | nil => rfl
  | cons e log ih => rw [List.foldl_cons, ih, List.length_set]

theorem getElem?_deliver (slots : List (Option Value)) (log : List (Nat × Value)) (i : Nat) :
    (deliver slots log)[i]? = slots[i]?.map fun old => (lastValue log i).or old := by
  induction log using List.reverseRecOn with
  | nil =>
      have none (old : Option Value) : (lastValue [] i).or old = old := rfl
      simp [deliver, none]
  | append_singleton log e ih =>
      obtain ⟨j, v⟩ := e
      have step : deliver slots (log ++ [(j, v)]) = (deliver slots log).set j (some v) :=
        deliver_append slots log [(j, v)]
      rw [step, List.getElem?_set, lastValue_append_one]
      by_cases here : i = j
      · subst here
        rw [if_pos rfl, if_pos rfl, length_deliver]
        split
        · rename_i within
          rw [List.getElem?_eq_getElem within]
          rfl
        · rename_i beyond
          rw [List.getElem?_eq_none (Nat.le_of_not_lt beyond)]
          rfl
      · rw [if_neg (Ne.symm here), ih, if_neg here]

/-- The outputs of a module, when the values in `log` were delivered to them. -/
theorem deliver_opened (outputs : List PortDesc) (log : List (Nat × Value)) :
    deliver (outputs.map fun _ => none) log = outputs.zipIdx.map fun e => lastValue log e.2 := by
  apply List.ext_getElem?
  intro i
  rw [getElem?_deliver, List.getElem?_map, List.getElem?_map, List.getElem?_zipIdx]
  cases outputs[i]? with
  | none => rfl
  | some p => simp

theorem unassigned_deliver {ports : Ports}
    (slots : ports.slots = deliver (ports.outputs.map fun _ => none) log) :
    ports.unassigned = unserved ports.outputs log := by
  have paired : ports.outputs.zip ports.slots =
      ports.outputs.zipIdx.map fun e => (e.1, lastValue log e.2) := by
    rw [slots, deliver_opened]
    nth_rewrite 1 [← List.zipIdx_map_fst 0 ports.outputs]
    exact List.zip_map'
  rw [unassigned, unserved, paired, List.filter_map, List.map_map]
  rfl

theorem operands_deliver {outputs : List PortDesc} (all : unserved outputs log = []) :
    ((deliver (outputs.map fun _ => none) log).filterMap id).map some =
      outputs.zipIdx.map fun e => lastValue log e.2 := by
  rw [deliver_opened, List.map_filterMap_some_eq_filter_map_isSome, List.map_id,
    List.filter_eq_self]
  intro slot mem
  obtain ⟨e, he, rfl⟩ := List.mem_map.mp mem
  rw [unserved, List.map_eq_nil_iff, List.filter_eq_nil_iff] at all
  exact Option.isSome_iff_ne_none.mpr (by simpa using all e he)

theorem operands_typed {outputs : List PortDesc} (all : unserved outputs log = [])
    (typed : ∀ e ∈ log, ∃ p, outputs[e.1]? = some p ∧ e.2.type = p.type) {operands : List Value}
    (taken : operands = (deliver (outputs.map fun _ => none) log).filterMap id) :
    operands.length = outputs.length ∧ ∀ i p, outputs[i]? = some p →
      ∃ v, operands[i]? = some v ∧ lastValue log i = some v ∧ v.type = p.type := by
  have same : operands.map some = outputs.zipIdx.map fun e => lastValue log e.2 :=
    taken ▸ operands_deliver all
  constructor
  · have size := congrArg List.length same
    rwa [List.length_map, List.length_map, List.length_zipIdx] at size
  · intro i p here
    have at_i := congrArg (fun values => values[i]?) same
    simp only [List.getElem?_map, List.getElem?_zipIdx, here] at at_i
    obtain ⟨v, hv, last⟩ := Option.map_eq_some_iff.mp at_i
    rw [Nat.zero_add] at last
    obtain ⟨q, hq, type⟩ := typed (i, v) (mem_of_lastValue last.symm)
    rw [here] at hq
    cases hq
    exact ⟨v, hv, last.symm, type⟩

end Ports

theorem System.buildOutput_fault (sys : System) (values : List Value) :
    (buildOutput values).Ends sys (fun _ _ => True) fun _ _ => ¬ sys.Building := by
  unfold buildOutput
  refine .bind ((currentPoint_ends sys).imp ?_ ?_)
  · rintro ip _ ⟨rfl, scope, outer, top, rfl⟩
    refine .bind (Effect.ends_get.mpr (.bind (Effect.ends_on ?_)))
    refine (Design.buildOp_ends _ _ _ _ _ _ _).imp (fun _ _ _ => trivial) ?_
    rintro e _ ⟨-, closed⟩ building
    obtain ⟨b, opened⟩ := building.openBlock top
    exact closed b opened
  · rintro e _ ⟨rfl, none⟩ ⟨scope, outer, b, top, -⟩
    rw [none] at top
    cases top

/-- The body of `sym` ends in an output operation that takes, for each port, the value that was
delivered last, which has the type of the port. -/
def System.Drives (sys : System) (sym : Ident) (outputs : List PortDesc)
    (log : List (Nat × Value)) : Prop :=
  ∃ b op, sys.design.body? sym = some b ∧ b.ops.getLast? = some op ∧ op.kind = .output ∧
    op.operands.length = outputs.length ∧ ∀ i p, outputs[i]? = some p →
      ∃ v, op.operands[i]? = some v ∧ Ports.lastValue log i = some v ∧ v.type = p.type

/-- The generator, once the values in `log` were delivered to its outputs. -/
def GeneratorRun.deliver (run : GeneratorRun) (log : List (Nat × Value)) : GeneratorRun :=
  { run with ports := { run.ports with slots := Ports.deliver run.ports.slots log } }

namespace Workspace

variable {ws ws' : Workspace U} {run : GeneratorRun}

theorem closeBody_exact {sys : System} (hs : ws.system? run.system = some sys)
    (building : sys.Building) :
    (closeBody run (.ok .nothing)).Ends ws (fun _ _ => run.ports.unassigned = [])
      fun e _ => run.ports.unassigned ≠ [] ∧ e = .ofKind
        (.unconnectedOutputs (ws.moduleName run.target) run.ports.unassigned) := by
  have unfolded : closeBody run (.ok .nothing) = (do
      let values ← Effect.ofExcept (run.ports.outputValues ((← get).moduleName run.target))
      onSystem run.system (System.buildOutput values) : Effect (Workspace U) Unit) := rfl
  rw [unfolded]
  refine .bind (Effect.ends_get.mpr (.bind (Effect.ends_ofExcept (fun values all => ?_) ?_)))
  · unfold Ports.outputValues Ports.check at all
    split at all
    · rename_i none
      refine onSystem_ends_of_some hs ((sys.buildOutput_fault values).imp ?_ ?_)
      · intro _ _ _
        simpa using none
      · intro e _ closed
        exact absurd building closed
    · cases all
  · intro e missing
    unfold Ports.outputValues Ports.check at missing
    split at missing
    · cases missing
    · rename_i some
      cases missing
      exact ⟨by simpa using some, rfl⟩

theorem endGeneration_exact {sys : System} (hs : ws.system? run.system = some sys)
    (building : sys.Building) :
    (endGeneration run (.ok .nothing)).Ends ws (fun _ _ => run.ports.unassigned = [])
      fun e _ => run.ports.unassigned ≠ [] ∧ e = .ofKind
        (.unconnectedOutputs (ws.moduleName run.target) run.ports.unassigned) := by
  have ends := closeBody_exact hs building
  unfold Effect.Ends endGeneration at *
  cases hc : closeBody run (.ok .nothing) ws with
  | ok u ws' =>
      rw [hc] at ends
      exact ends
  | error e ws' =>
      rw [hc] at ends
      exact ends

/-- The body of a generator that ends well ends in an output of all that is assigned. -/
theorem Closes.body (c : ws.Closes run ws') {runs : List GeneratorRun}
    (h : ws.Hosts (run :: runs)) : ∃ sys, ∃ b : Block, ∃ op : Operation,
      ws'.system? run.system = some sys ∧ sys.design.body? run.symbol = some (b.push op) ∧
        op.kind = .output ∧ op.operands = run.ports.slots.filterMap id := by
  obtain ⟨sys, scope, outer, hs, -, top, owner, -⟩ := h.top
  cases c with
  | @intro sys' scope' outer' b op hs' P kind assigned operands =>
      rw [hs] at hs'
      cases hs'
      obtain ⟨rfl, rfl⟩ := P.scope_eq top
      refine ⟨_, b, op, system?_setSystem_self hs _, ?_, kind, operands⟩
      rw [← owner]
      exact (Design.body?_push P.body op _).trans (if_pos rfl)

end Workspace

theorem Stack.Above.stands {s : SystemId} {m : ModuleId} {below st : Stack U ρ .generation}
    {run r : GeneratorRun} (h : Stack.Above s m below st)
    (stands : run :: below.activations <:+ r :: st.activations) :
    run :: below.activations <:+ st.activations := by
  rcases List.suffix_cons_iff.mp stands with same | inside
  · obtain ⟨above, other, runs, -⟩ := h.activations
    have size := congrArg List.length same
    rw [runs] at size
    simp only [List.length_cons, List.length_append] at size
    omega
  · exact inside

namespace Machine

variable {P : Program U} {M : Machine U ρ} {s : SystemId} {m : ModuleId}
  {below : Stack U ρ .generation} {run : GeneratorRun} {script : Script U GeneratorResult}

/-- What the calls at the ports that the generator on top of `below` makes itself, within `n` steps,
deliver to its outputs. All that it does at its ports is what these calls do. -/
inductive Delivered (P : Program U) (below : Stack U ρ .generation) (run : GeneratorRun)
    (M : Machine U ρ) : Nat → List (Nat × Value) → Prop
  | start : Delivered P below run M 0 []
  | port {n : Nat} {log new : List (Nat × Value)} {c : PortCall}
      {next : Except Error c.Result → Script U GeneratorResult}
      {answer : Except Error c.Result} {ws : Workspace U} (h : Delivered P below run M n log)
      (own : ((step P)^[n] M).control = .generator (run.deliver log) (.port c next) below)
      (outcome : c.Outcome ((run.deliver log).ports, ((step P)^[n] M).workspace) answer new
        ((run.deliver (log ++ new)).ports, ws))
      (goes : (step P)^[n + 1] M =
        ⟨ws, .generator (run.deliver (log ++ new)) (next answer) below⟩) :
      Delivered P below run M (n + 1) (log ++ new)
  | other {n : Nat} {log : List (Nat × Value)} (h : Delivered P below run M n log)
      (own : ∀ run' c next, ((step P)^[n] M).control ≠ .generator run' (.port c next) below) :
      Delivered P below run M (n + 1) log

theorem Reachable.asks (h : Reachable P M) {c : PortCall}
    {next : Except Error c.Result → Script U GeneratorResult}
    (asks : M.control = .generator run (.port c next) below) :
    ∃ answer log ports ws, c.Outcome (run.ports, M.workspace) answer log (ports, ws) ∧
      Machine.step P M = ⟨ws, .generator { run with ports } (next answer) below⟩ := by
  obtain ⟨ws, control⟩ := M
  cases asks
  obtain ⟨sys, scope, outer, hs, -, top, -⟩ := Workspace.Hosts.top h.hosts
  have active : Ports.Active (run.ports, ws) := ⟨h.hosts.sound, sys, scope, outer, hs, top⟩
  obtain ⟨log, outcome⟩ := c.outcome_exact active
  exact ⟨_, log, _, _, outcome, rfl⟩

/-- Below a generator nothing comes or goes, unless it ends itself or makes a call at its ports. -/
theorem step_activations_suffix (P : Program U) (M : Machine U ρ) :
    (∃ run result st, M.control = .generator run (.done result) st) ∨
      (∃ run c next st, M.control = .generator run (.port c next) st) ∨
      M.control.activations <:+ (step P M).control.activations := by
  obtain ⟨ws, control⟩ := M
  cases control with
  | halted result => exact .inr (.inr List.suffix_rfl)
  | session script => cases script <;> exact .inr (.inr List.suffix_rfl)
  | generator run script st =>
      cases script with
      | done r => exact .inl ⟨run, r, st, rfl⟩
      | call c next => exact .inr (.inr List.suffix_rfl)
      | port c next => exact .inr (.inl ⟨run, c, next, st, rfl⟩)
      | enter e next => exact .inr (.inr List.suffix_rfl)
  | producer run script st => cases script <;> exact .inr (.inr List.suffix_rfl)
  | entering e st =>
      refine .inr (.inr ?_)
      cases e with
      | generate t => exact (nextWaiting_activations ws t st).symm ▸ List.suffix_rfl
      | generateModule t m =>
          have entered : step P ⟨ws, .entering (.generateModule t m) st⟩ =
              start P ws (.generateModule t m) st := rfl
          cases hb : Workspace.beginGeneration t m ws with
          | ok r ws' =>
              rw [entered, start_begins hb]
              exact List.suffix_cons _ _
          | error e ws' =>
              rw [entered, start_refused hb]
              exact List.suffix_rfl
      | callFactory f c args => exact (start_callFactory f c args st).2.symm ▸ List.suffix_rfl
  | answering answer st =>
      refine .inr (.inr ?_)
      cases st with
      | session next => exact List.suffix_rfl
      | generator run next st => exact List.suffix_rfl
      | producer run next st => exact List.suffix_rfl
      | worklist t st => cases answer <;> exact List.suffix_rfl

/-- As long as the generator `run` on top of `below` is on the stack, it stays as it is, unless it
makes a call at its ports. -/
theorem step_stands (h : M.control.Above s m below)
    (stands : run :: below.activations <:+ M.control.activations) :
    (∃ c next, M.control = .generator run (.port c next) below) ∨
      (∃ result, M.control = .generator run (.done result) below) ∨
      (run :: below.activations <:+ (step P M).control.activations ∧
        ∀ run' c next, M.control ≠ .generator run' (.port c next) below) := by
  obtain ⟨ws, control⟩ := M
  rcases step_activations_suffix P ⟨ws, control⟩ with
    ⟨r, result, st, last⟩ | ⟨r, c, next, st, asks⟩ | kept
  · cases last
    cases h with
    | here _ here there =>
        cases stands.eq_of_length rfl
        exact .inr (.inl ⟨result, rfl⟩)
    | generator _ _ above =>
        refine .inr (.inr ⟨above.stands stands, fun run' c next same => ?_⟩)
        cases same
  · cases asks
    cases h with
    | here _ here there =>
        cases stands.eq_of_length rfl
        exact .inl ⟨c, next, rfl⟩
    | generator _ _ above =>
        refine .inr (.inr ⟨(above.stands stands).trans (List.suffix_cons _ _),
          fun run' c next same => ?_⟩)
        cases same
        exact Stack.not_above_self above
  · by_cases own : ∃ run' c next, control = .generator run' (.port c next) below
    · obtain ⟨run', c, next, rfl⟩ := own
      cases stands.eq_of_length rfl
      exact .inl ⟨c, next, rfl⟩
    · exact .inr (.inr ⟨stands.trans kept, fun run' c next same => own ⟨run', c, next, same⟩⟩)

theorem Reachable.delivered (h : Reachable P M) (starts : Starts P s m below run script M)
    {answer : Except Error Unit} {n : Nat} (returns : ReturnsAfter P below answer n M) {k : Nat}
    (lt : k + 1 < n) :
    ∃ log, Delivered P below run (Machine.step P M) k log ∧
      run.deliver log :: below.activations <:+
        ((Machine.step P)^[k + 1] M).control.activations := by
  obtain ⟨old, -, -, -, hold, -⟩ := h.begun starts
  induction k with
  | zero =>
      refine ⟨[], .start, ?_⟩
      change _ <:+ (Machine.step P M).control.activations
      rw [starts.2]
      exact List.suffix_rfl
  | succ k ih =>
      obtain ⟨log, delivered, stands⟩ := ih (Nat.lt_of_succ_lt lt)
      obtain ⟨above, -⟩ := h.attempt starts hold returns (Nat.lt_of_succ_lt lt)
      have reach := h.iterate (k + 1)
      rw [Function.iterate_succ_apply']
      rcases step_stands (P := P) above stands with ⟨c, next, own⟩ | ⟨result, last⟩ | ⟨kept, own⟩
      · obtain ⟨answer, new, ports, ws, outcome, goes⟩ := reach.asks own
        have same : ports = (run.deliver (log ++ new)).ports := by
          refine outcome.ports.trans ?_
          rw [GeneratorRun.deliver, GeneratorRun.deliver, Ports.deliver_append]
        subst same
        refine ⟨log ++ new, .port delivered own outcome ?_, ?_⟩
        · rw [Function.iterate_succ_apply']
          exact goes
        · rw [goes]
          exact List.suffix_rfl
      · -- The generator has ended, so it would have returned before.
        obtain ⟨other, same⟩ := reach.answers last
        rw [← Function.iterate_succ_apply' (Machine.step P)] at same
        exact absurd same (returns.2 (k + 2) lt other)
      · exact ⟨log, .other delivered own, kept⟩

theorem Delivered.typed {n : Nat} {log : List (Nat × Value)} (h : Delivered P below run M n log) :
    ∀ e ∈ log, ∃ p, run.ports.outputs[e.1]? = some p ∧ e.2.type = p.type := by
  induction h with
  | start => exact fun e mem => absurd mem List.not_mem_nil
  | port h own outcome goes ih =>
      intro e mem
      rcases List.mem_append.mp mem with old | new
      · exact ih e old
      · exact outcome.typed e new
  | other h own ih => exact ih

theorem Reachable.opened (h : Reachable P M) (starts : Starts P s m below run script M) :
    ∃ x args, (Machine.step P M).workspace.module? m = some x ∧ x.isImported = false ∧
      run.ports = .opened s m x.schema.inputs x.schema.outputs args := by
  obtain ⟨sym, mid, code, created, opens, -⟩ := h.opens starts
  have sound := Workspace.Changes.sound h.hosts.sound created.any
  generalize (Machine.step P M).workspace = ws' at opens ⊢
  cases opens with
  | @intro sys x g op site hs hx one idle hsym hop hk =>
      exact ⟨x, _, hx, (System.Sound.declared_of_one sound.modules hx one).1, rfl⟩

/-- A generator that returns nothing is refused if an output is missing. Otherwise its body is
closed with what was delivered. -/
theorem Reachable.concludes (h : Reachable P M) {log : List (Nat × Value)}
    {x : Module U.GeneratorCode} {args : List Value}
    (opened : run.ports = .opened s m x.schema.inputs x.schema.outputs args)
    (typed : ∀ e ∈ log, ∃ p, run.ports.outputs[e.1]? = some p ∧ e.2.type = p.type)
    (last : M.control = .generator (run.deliver log) (.done (.ok .nothing)) below)
    {answer : Except Error Unit}
    (returns : (Machine.step P M).control = .answering (a := .generation) answer below) :
    (Ports.unserved x.schema.outputs log ≠ [] → answer = .error (.ofKind
      (.unconnectedOutputs (M.workspace.moduleName m) (Ports.unserved x.schema.outputs log)))) ∧
    (Ports.unserved x.schema.outputs log = [] → answer = .ok () ∧
      ∃ sys, (Machine.step P M).workspace.system? s = some sys ∧
        sys.Drives run.symbol x.schema.outputs log) := by
  obtain ⟨ws, control⟩ := M
  cases last
  have hosts : ws.Hosts (run.deliver log :: below.activations) := h.hosts
  obtain ⟨sys, scope, outer, hs, sound, top, -⟩ := hosts.top
  have home : (run.deliver log).system = s := congrArg Ports.system opened
  have target : (run.deliver log).target = m := congrArg Ports.target opened
  have outputs : (run.deliver log).ports.outputs = x.schema.outputs :=
    congrArg Ports.outputs opened
  have slots : (run.deliver log).ports.slots =
      Ports.deliver ((run.deliver log).ports.outputs.map fun _ => none) log := by
    rw [outputs, GeneratorRun.deliver, opened]
    rfl
  have missing := Ports.unassigned_deliver slots
  rw [outputs] at missing
  have ends := (Workspace.endGeneration_exact hs (sound.building top)).and
    (Workspace.endGeneration_ends _ (.ok .nothing) hs)
  rw [missing, target] at ends
  have stepped : Machine.step P ⟨ws, .generator (run.deliver log) (.done (.ok .nothing)) below⟩ =
      ⟨((Workspace.endGeneration (run.deliver log) (.ok .nothing)).outcome ws).2,
        .answering (a := .generation)
          ((Workspace.endGeneration (run.deliver log) (.ok .nothing)).outcome ws).1 below⟩ := rfl
  rw [stepped, Effect.outcome] at returns ⊢
  cases he : Workspace.endGeneration (run.deliver log) (.ok .nothing) ws with
  | ok u ws' =>
      obtain ⟨all, closes⟩ := ends.of_ok he
      rw [he] at returns
      cases returns
      refine ⟨fun some => absurd all some, fun _ => ⟨rfl, ?_⟩⟩
      obtain ⟨sys', b, op, hs', body, kind, operands⟩ := closes.body hosts
      rw [home] at hs'
      rw [slots, outputs] at operands
      rw [opened] at typed
      obtain ⟨size, values⟩ := Ports.operands_typed all typed operands
      exact ⟨sys', hs', _, op, body, List.getLast?_concat, kind, size, values⟩
  | error e ws' =>
      obtain ⟨⟨some, rfl⟩, -⟩ := ends.of_error he
      rw [he] at returns
      cases returns
      exact ⟨fun _ => rfl, fun all => absurd all some⟩

/-- Outputs are delivered exactly. A call that a generator makes at its ports is answered in one of
the ways listed: an assignment is refused, and then nothing has happened, or it delivers one value;
several assignments are refused together, or are made up to the first that is refused. And if the
generator returns nothing, then it fails with the outputs to which nothing was delivered, in port
order, or, if there are none, its body ends in an output operation with the values that were
delivered last. -/
theorem Reachable.delivers (h : Reachable P M) :
    (∀ run c next below, M.control = .generator run (.port c next) below →
      ∃ answer log ports ws, c.Outcome (run.ports, M.workspace) answer log (ports, ws) ∧
        Machine.step P M = ⟨ws, .generator { run with ports } (next answer) below⟩) ∧
    ∀ s m below run script answer n, Starts P s m below run script M →
      ReturnsAfter P below answer n M →
        ∃ x args k result log, (Machine.step P M).workspace.module? m = some x ∧
          (x.schema.outputs.map PortDesc.name).Nodup ∧
          run.ports = .opened s m x.schema.inputs x.schema.outputs args ∧ n = k + 2 ∧
          Delivered P below run (Machine.step P M) k log ∧
          ((Machine.step P)^[k + 1] M).control = .generator (run.deliver log) (.done result) below ∧
          (result = .ok .nothing →
            (Ports.unserved x.schema.outputs log ≠ [] → answer = .error (.ofKind
              (.unconnectedOutputs (((Machine.step P)^[k + 1] M).workspace.moduleName m)
                (Ports.unserved x.schema.outputs log)))) ∧
            (Ports.unserved x.schema.outputs log = [] → answer = .ok () ∧
              ∃ sys, ((Machine.step P)^[n] M).workspace.system? s = some sys ∧
                sys.Drives run.symbol x.schema.outputs log)) := by
  constructor
  · intro run c next below asks
    exact h.asks asks
  · intro s m below run script answer n starts returns
    obtain ⟨x, args, hx, declared, opened⟩ := h.opened starts
    obtain ⟨k, run', result, rfl, above, last, -⟩ := h.finishes starts returns
    obtain ⟨log, delivered, stands⟩ := h.delivered starts returns (Nat.lt_succ_self (k + 1))
    rw [last] at stands
    cases stands.eq_of_length rfl
    refine ⟨x, args, k, result, log, hx, ?_, opened, rfl, delivered, last, fun nothing => ?_⟩
    · exact (Schema.distinct_of_validate (h.step.validated hx declared)).2
    · subst nothing
      rw [Function.iterate_succ_apply' (Machine.step P) (k + 1)]
      refine (h.iterate (k + 1)).concludes opened delivered.typed last ?_
      rw [← Function.iterate_succ_apply' (Machine.step P) (k + 1)]
      exact returns.1

end Machine

namespace Sample

/-- Assigns its output twice. In between, a constant that does not fit and a name that is not an
output are refused, and the generator goes on. -/
def persisting : Script code GeneratorResult :=
  .port (.assign "o" (.constant (.int 0))) fun _ =>
    .port (.assign "o" (.constant (.int 2))) fun _ =>
      .port (.assignAll [("o", .constant (.int 0)), ("x", .constant (.int 0))]) fun _ => leaf

/-- The session that generates `Top`. -/
def building : Script code Unit := .enter (.generateModule ⟨0⟩ ⟨1⟩) fun _ => .done ()

/-- True if the generator makes a call at its ports. -/
def isAsking : Control code Unit → Bool
  | .generator _ (.port _ _) _ => true
  | _ => false

/-- True if the generator has returned nothing. -/
def isReturning : Control code Unit → Bool
  | .generator _ (.done (.ok .nothing)) _ => true
  | _ => false

/-- `Top` is closed with the second value, although two calls in between were refused. -/
theorem driven_after_refusals :
    (∃ run c next below answer log ports ws,
      ((Machine.step (program persisting))^[2]
        (after (program persisting) building 5)).control = .generator run (.port c next) below ∧
      c.Outcome (run.ports, ((Machine.step (program persisting))^[2]
        (after (program persisting) building 5)).workspace) answer log (ports, ws)) ∧
    ∃ below run script outputs log sys,
      Machine.Starts (program persisting) ⟨0⟩ ⟨1⟩ below run script
        (after (program persisting) building 5) ∧
      Machine.ReturnsAfter (program persisting) below (.ok ()) 6
        (after (program persisting) building 5) ∧
      Machine.Delivered (program persisting) below run
        (Machine.step (program persisting) (after (program persisting) building 5)) 4 log ∧
      ((Machine.step (program persisting))^[6]
        (after (program persisting) building 5)).workspace.system? ⟨0⟩ = some sys ∧
      sys.Drives run.symbol outputs log := by
  have reach := reachable (program persisting) building 5
  have request : requested? (after (program persisting) building 5).control = some (⟨0⟩, ⟨1⟩) := by
    decide +kernel
  have runs : (after (program persisting) building 5).control.activations.length = 0 := by
    decide +kernel
  have idle : ((after (program persisting) building 5).workspace.system? ⟨0⟩).map
      (fun sys => sys.isGenerated ⟨1⟩) = some false := by
    decide +kernel
  have single : ((after (program persisting) building 5).workspace.module? ⟨1⟩).map
      (fun x => x.schema.generators.values.length) = some 1 := by
    decide +kernel
  have deep : ∀ k < 5, 0 < ((Machine.step (program persisting))^[k + 1]
      (after (program persisting) building 5)).control.activations.length := by
    decide +kernel
  have back : ((Machine.step (program persisting))^[6]
      (after (program persisting) building 5)).control.activations.length = 0 := by
    decide +kernel
  have asking : isAsking ((Machine.step (program persisting))^[2]
      (after (program persisting) building 5)).control = true := by
    decide +kernel
  have returning : isReturning ((Machine.step (program persisting))^[5]
      (after (program persisting) building 5)).control = true := by
    decide +kernel
  have accepted : isRefusal ((Machine.step (program persisting))^[6]
      (after (program persisting) building 5)).control = false := by
    decide +kernel
  -- From here on the machine is not to be evaluated any more.
  generalize after (program persisting) building 5 = M at *
  constructor
  · unfold isAsking at asking
    split at asking
    · rename_i run c next below asks
      have there := reach.iterate 2
      obtain ⟨answer, log, ports, ws, outcome, -⟩ := there.delivers.1 run c next _ asks
      exact ⟨run, c, next, _, answer, log, ports, ws, asks, outcome⟩
    · cases asking
  · obtain ⟨below, run, script, answer, starts, returns⟩ :=
      starts_and_returns reach request runs idle single deep back
    obtain ⟨x, args, k, result, log, -, -, -, size, delivered, last, concludes⟩ :=
      reach.delivers.2 ⟨0⟩ ⟨1⟩ below run script answer 6 starts returns
    obtain rfl : k = 4 := by omega
    rw [last] at returning
    rw [returns.1] at accepted
    unfold isReturning at returning
    split at returning
    · rename_i same
      cases same
      obtain ⟨refuses, closes⟩ := concludes rfl
      by_cases all : Ports.unserved x.schema.outputs log = []
      · obtain ⟨rfl, sys, hs, drives⟩ := closes all
        exact ⟨below, run, script, x.schema.outputs, log, sys, starts, returns, delivered, hs,
          drives⟩
      · rw [refuses all] at accepted
        cases accepted
    · cases returning

end Sample

end Hardware
