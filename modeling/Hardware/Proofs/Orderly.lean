import Hardware.Proofs.Filled
import Hardware.Proofs.Worklist

/-!
Sessions in which nothing goes wrong. No call is answered with an error, and each generator
hands to operations and to its outputs only what it has obtained itself. Then the design
verifies as soon as all that waits is generated.
-/
namespace Hardware

variable {U : UserCode} {ρ : Type}

/-- The results of an instance, as long as it has a site. -/
def Workspace.resultsOf (ws : Workspace U) (i : InstanceId) : List Value :=
  (((ws.instance? i).bind Instance.site).map InstanceSite.results).getD []

/-- The values that a call in `s` hands out. -/
def Call.obtained (s : SystemId) (ws : Workspace U) : Call U → List Value
  | .buildOp t name operands types loc =>
    match (Call.buildOp t name operands types loc : Call U).perform ws with
    | .ok values _ => if t = s then values else []
    | .error _ _ => []
  | .instantiate t m request =>
    match (Call.instantiate t m request : Call U).perform ws with
    | .ok i ws' => if t = s then ws'.resultsOf i else []
    | .error _ _ => []
  | _ => []

/-- The operation that the next step imports. -/
def Control.imported? (c : Control U ρ) : Option ModuleOp :=
  match c.call? with
  | some (.importModule _ op _) => some op
  | _ => none

theorem Workspace.Hosts.defines_arg {ws : Workspace U} {runs : List GeneratorRun}
    {run : GeneratorRun} (h : ws.Hosts runs) (hrun : run ∈ runs) {v : Value}
    (hv : v ∈ run.ports.args) : ws.Defines run.system run.symbol v := by
  obtain ⟨⟨sys, hs, hm⟩, x, hx, -, -, args, -⟩ := h.each run hrun
  have sound := h.sound.systems _ sys hs
  obtain ⟨y, sym, g, hy, -, declared, -⟩ := sound.generated _ (h.generated_of_mem hrun hs)
  rw [hx] at hy
  cases hy
  obtain ⟨y, op, hy, hop, carries⟩ := sound.present _ _ hm
  rw [hx] at hy
  cases hy
  refine ⟨sys, op, hs, hop, ?_⟩
  rw [args] at hv
  obtain ⟨i, hi⟩ := List.mem_iff_getElem?.mp hv
  rw [Design.entryArgs, List.getElem?_mapIdx] at hi
  obtain ⟨port, hport, rfl⟩ := Option.map_eq_some_iff.mp hi
  simp [ModuleOp.defines, sound.named _ op hop, (carries declared).inputs, hport]

namespace Machine

variable {P : Program U} {M : Machine U ρ} {s : SystemId} {m : ModuleId}
  {known : List (List Value)}

/-- True if the next step makes a call that is refused, or tells of an error. -/
def fails (M : Machine U ρ) : Bool :=
  match M.control with
  | .generator run (.port c _) _ =>
    match c.perform (run.ports, M.workspace) with
    | .ok _ _ => false
    | .error _ _ => true
  | .session (.port _ _) => true
  | .producer _ (.port _ _) _ => true
  | .answering (.error _) _ => true
  | control =>
    match control.call? with
    | none => false
    | some c =>
      match c.perform M.workspace with
      | .ok _ _ => false
      | .error _ _ => true

/-- The values that the next step hands to an operation in `s`, or to an output. -/
def given (s : SystemId) (M : Machine U ρ) : List Value :=
  match M.control with
  | .generator run (.port c _) _ => if run.system = s then c.signals else []
  | control =>
    match control.call? with
    | some (.buildOp t _ operands _ _) => if t = s then operands else []
    | _ => []

/-- The values that the next step hands out to the innermost generator that runs in `s`. -/
def obtained (s : SystemId) (M : Machine U ρ) : List Value :=
  match M.control with
  | .generator run (.port (.read port) _) _ =>
    match (PortCall.read port).perform (run.ports, M.workspace) with
    | .ok v _ => if run.system = s then [v] else []
    | .error _ _ => []
  | control => (control.call?.map fun c => c.obtained s M.workspace).getD []

/-- What the running generators of `s` have obtained after one more step, from the innermost
to the outermost, if they had obtained `known` before. -/
def learn (s : SystemId) (known : List (List Value)) (M : Machine U ρ) : List (List Value) :=
  match M.control with
  | .entering (.generateModule t _) _ => if t = s then [] :: known else known
  | .generator run (.done _) _ => if run.system = s then known.tail else known
  | _ => known.modifyHead fun values => values ++ M.obtained s

/-- What the running generators of `s` have obtained in `n` steps. -/
def learned (P : Program U) (s : SystemId) (M : Machine U ρ) : Nat → List (List Value)
  | 0 => []
  | n + 1 => learn s (learned P s M n) ((step P)^[n] M)

/-- Nothing goes wrong in the next step: no call is refused, what is imported is external, and
what is handed to operations and outputs has been obtained by the generator that runs. -/
structure Orderly (s : SystemId) (known : List (List Value)) (M : Machine U ρ) : Prop where
  succeeds : M.fails = false
  given : ∀ v ∈ M.given s, v ∈ known.headD []
  external : ∀ op ∈ M.control.imported?, op.isExternal = true

instance (s : SystemId) (known : List (List Value)) (M : Machine U ρ) :
    Decidable (Orderly s known M) :=
  decidable_of_iff (M.fails = false ∧ (∀ v ∈ M.given s, v ∈ known.headD []) ∧
    ∀ op ∈ M.control.imported?, op.isExternal = true)
    ⟨fun h => ⟨h.1, h.2.1, h.2.2⟩, fun h => ⟨h.succeeds, h.given, h.external⟩⟩

/-- What the generators of `s` have obtained is defined in their bodies. -/
def Knows (s : SystemId) (known : List (List Value)) (M : Machine U ρ) : Prop :=
  List.Forall₂ (fun values q => ∀ v ∈ values, M.workspace.Defines s q v) known
    (Workspace.ownersIn s M.control.activations)

theorem succeeds_of_fails {c : Call U} (calls : M.control.call? = some c)
    (clean : M.fails = false) : c.Succeeds M.workspace := by
  obtain ⟨ws, control⟩ := M
  have ok : (match c.perform ws with | .ok _ _ => false | .error _ _ => true) = false := by
    rcases Control.call?_cases calls with
      ⟨next, rfl⟩ | ⟨run, next, below, rfl⟩ | ⟨run, next, below, rfl⟩
    · exact clean
    · exact clean
    · exact clean
  cases hc : c.perform ws with
  | ok r ws' => exact ⟨r, ws', hc⟩
  | error e ws' =>
      rw [hc] at ok
      cases ok

theorem not_error_of_fails {a : Awaited} {e : Error} {st : Stack U ρ a}
    (answer : M.control = .answering (.error e) st) : M.fails = true := by
  obtain ⟨ws, control⟩ := M
  cases answer
  rfl

theorem not_drops (clean : M.fails = false) (after : (step P M).fails = false) :
    ¬ Drops P s m M := by
  intro drops
  cases drops with
  | fails last here there failed =>
      rw [not_error_of_fails failed] at after
      cases after
  | refuses pending refused =>
      rw [not_error_of_fails refused] at after
      cases after
  | aborts calls adds fails before made => exact fails (succeeds_of_fails calls clean)

/-- Where nothing goes wrong, no module is dropped, and so none loses its mark. -/
theorem Reachable.keepsMarks (h : Reachable P M) (after : (Machine.step P M).fails = false) :
    M.workspace.KeepsMarks s (Machine.step P M).workspace := by
  intro sys sys' m hs hs' gen
  cases still : sys'.isGenerated m with
  | true => rfl
  | false =>
      obtain ⟨below, run, result, e, -, -, -, failed⟩ := h.fails_of_generated hs gen hs' still
      rw [not_error_of_fails failed] at after
      cases after

theorem given_of_buildOp {t : SystemId} {name : Ident} {operands : List Signal}
    {types : List SignalType} {loc : Location}
    (calls : M.control.call? = some (.buildOp t name operands types loc)) :
    M.given s = if t = s then operands else [] := by
  obtain ⟨ws, control⟩ := M
  rcases Control.call?_cases calls with
    ⟨next, rfl⟩ | ⟨run, next, below, rfl⟩ | ⟨run, next, below, rfl⟩
  · rfl
  · rfl
  · rfl

theorem mem_imported? {t : SystemId} {op : ModuleOp} {loc : Location}
    (calls : M.control.call? = some (.importModule t op loc)) : op ∈ M.control.imported? := by
  unfold Control.imported?
  rw [calls]
  rfl

theorem Knows.defines (k : Knows s known M) {v : Value} (hv : v ∈ known.headD []) :
    ∃ q rest, Workspace.ownersIn s M.control.activations = q :: rest ∧
      M.workspace.Defines s q v := by
  unfold Knows at k
  cases known with
  | nil => cases hv
  | cons values known =>
      cases howners : Workspace.ownersIn s M.control.activations with
      | nil =>
          rw [howners] at k
          cases k
      | cons q rest =>
          rw [howners] at k
          cases k with
          | cons head tail => exact ⟨q, rest, rfl, head v hv⟩

theorem Orderly.fits (o : Orderly s known M) (h : Reachable P M) (k : Knows s known M)
    (checks : ∀ sys, M.workspace.system? s = some sys → sys.conf.verifyInstances = true)
    {c : Call U} (calls : M.control.call? = some c) : c.Fits (fun t => t = s) M.workspace := by
  cases c with
  | buildOp t name operands types loc =>
      rintro rfl sys hs v hv
      have given : v ∈ M.given t := by rwa [given_of_buildOp calls, if_pos rfl]
      obtain ⟨q, rest, first, defines⟩ := k.defines (o.given v given)
      exact h.hosts.defined_of_owner hs first defines
  | instantiate t m request =>
      rintro rfl
      exact checks
  | _ => exact trivial

/-- A step in which nothing goes wrong leaves all in order. -/
theorem Orderly.inOrder (o : Orderly s known M) (h : Reachable P M) (k : Knows s known M)
    (checks : ∀ sys, M.workspace.system? s = some sys → sys.conf.verifyInstances = true)
    (after : (Machine.step P M).fails = false)
    (i : M.workspace.InOrder s M.control.activations) :
    (Machine.step P M).workspace.InOrder s (Machine.step P M).control.activations := by
  have step := step_move P M h.hosts fun c calls => o.fits h k checks calls
  refine i.move h.hosts step ⟨rfl, fun c calls => succeeds_of_fails calls o.succeeds⟩ ?_ ?_
    (h.keepsMarks after)
  · rintro op ⟨t, loc, calls⟩
    exact o.external op (mem_imported? calls)
  · rintro run rest top rfl v ⟨run', c, next, below, ports, hv⟩
    have given : v ∈ M.given run.system := by
      rw [ports] at top
      cases top
      unfold Machine.given
      rw [ports]
      simpa using hv
    obtain ⟨q, outer, first, defines⟩ := k.defines (o.given v given)
    rw [top, Workspace.ownersIn_cons_self] at first
    cases first
    exact defines

theorem Reachable.obtained_of_call (h : Reachable P M) {c : Call U}
    (calls : M.control.call? = some c) {v : Value} (hv : v ∈ c.obtained s M.workspace) :
    ∃ sys, (Machine.step P M).workspace.system? s = some sys ∧ sys.Defined v := by
  have fits := c.fits_of_unchecked (fun (_ : SystemId) (no : False) => no) M.workspace
  have ends := c.perform_ends h.hosts.sound fits
  have left := (step_call (P := P) calls).1
  unfold Call.obtained at hv
  split at hv
  · split at hv
    · rename_i t name operands types loc values ws' ok
      obtain ⟨-, sys, hs, defined⟩ := ends.of_ok ok
      rw [left, Effect.outcome, ok]
      split at hv
      · rename_i here
        subst here
        exact ⟨sys, hs, defined v hv⟩
      · cases hv
    · cases hv
  · split at hv
    · rename_i t m request i ws' ok
      obtain ⟨-, -, x, site, sys, hi, built, hs, defined⟩ := ends.of_ok ok
      rw [left, Effect.outcome, ok]
      split at hv
      · rename_i here
        subst here
        rw [Workspace.resultsOf, hi, Option.bind_some, built] at hv
        exact ⟨sys, hs, defined v hv⟩
      · cases hv
    · cases hv
  · cases hv

theorem Reachable.defines_obtained (h : Reachable P M) (after : (Machine.step P M).fails = false)
    {q : Ident} {rest : List Ident}
    (first : Workspace.ownersIn s M.control.activations = q :: rest)
    (same : Workspace.ownersIn s (Machine.step P M).control.activations =
      Workspace.ownersIn s M.control.activations) {v : Value} (hv : v ∈ M.obtained s) :
    (Machine.step P M).workspace.Defines s q v := by
  unfold obtained at hv
  split at hv
  · rename_i run port next below reads
    split at hv
    · rename_i w st ok
      split at hv
      · rename_i here
        subst here
        rw [List.mem_singleton.mp hv]
        have sound : ((run.ports, M.workspace) : PortState U).2.Sound := h.hosts.sound
        have arg := (((PortCall.read port).perform_ends sound .any).of_ok ok).2
        have top : M.control.activations = run :: below.activations := by
          rw [reads]
          rfl
        rw [top, Workspace.ownersIn_cons_self] at first
        cases first
        exact (h.hosts.defines_arg (by simp [top]) arg).move h.hosts h.move (h.keepsMarks after)
      · cases hv
    · cases hv
  · cases calls : M.control.call? with
    | none =>
        rw [calls] at hv
        cases hv
    | some c =>
        rw [calls] at hv
        obtain ⟨sys, hs, defined⟩ := h.obtained_of_call calls hv
        exact h.step.hosts.defines_of_owner hs (same.trans first) defined

/-- If a step neither starts nor ends a generator, what it hands out goes to the innermost. -/
theorem learn_of_same (after : (step P M).fails = false)
    (same : ∀ t, Workspace.targetsIn t (step P M).control.activations =
      Workspace.targetsIn t M.control.activations)
    (h : Reachable P M) :
    learn s known M = known.modifyHead fun values => values ++ M.obtained s := by
  unfold learn
  split
  · rename_i t m below entering
    rcases starts_or_refused P entering with ⟨run, script, starts⟩ | ⟨e, refused⟩
    · obtain ⟨here, there⟩ := h.home starts
      have both := same t
      rw [starts.2, entering] at both
      simp only [Control.activations, Workspace.targetsIn_cons, if_pos here] at both
      exact absurd both.symm (List.cons_ne_self _ _).symm
    · rw [not_error_of_fails refused] at after
      cases after
  · rename_i run result below last
    have both := same run.system
    have ended : (step P M).control.activations = below.activations := by
      obtain ⟨ws, control⟩ := M
      cases last
      rfl
    rw [ended, last, Control.activations, Workspace.targetsIn_cons, if_pos rfl] at both
    exact absurd both.symm (List.cons_ne_self _ _)
  · rfl

theorem Knows.step (k : Knows s known M) (h : Reachable P M)
    (after : (Machine.step P M).fails = false) :
    Knows s (learn s known M) (Machine.step P M) := by
  have moved : List.Forall₂ (fun values q => ∀ v ∈ values,
      (Machine.step P M).workspace.Defines s q v) known
      (Workspace.ownersIn s M.control.activations) :=
    List.Forall₂.imp (fun values q defines v hv =>
      (defines v hv).move h.hosts h.move (h.keepsMarks after)) k
  unfold Knows
  rcases h.move.activations with ⟨run, began⟩ | ⟨run, ended⟩ | same
  · obtain ⟨below, script, entering, -⟩ := starts_of_cons h.hosts.sound began
    have grown : learn s known M = if run.system = s then [] :: known else known := by
      rw [learn, entering]
    rw [began, Workspace.ownersIn_cons, grown]
    split
    · exact .cons (fun v hv => absurd hv List.not_mem_nil) moved
    · exact moved
  · obtain ⟨result, below, last⟩ := ends_of_cons h.hosts.sound ended
    have shrunk : learn s known M = if run.system = s then known.tail else known := by
      rw [learn, last]
    rw [ended, Workspace.ownersIn_cons] at moved
    rw [shrunk]
    by_cases here : run.system = s
    · rw [if_pos here] at moved ⊢
      cases moved with
      | cons head tail => exact tail
    · rw [if_neg here] at moved ⊢
      exact moved
  · rw [learn_of_same after (fun t => (same t).1) h, (same s).2]
    cases howners : Workspace.ownersIn s M.control.activations with
    | nil =>
        rw [howners] at moved
        cases moved
        exact .nil
    | cons q rest =>
        rw [howners] at moved
        cases moved with
        | cons head tail =>
            refine .cons (fun v hv => ?_) tail
            rcases List.mem_append.mp hv with hv | hv
            · exact head v hv
            · exact h.defines_obtained after howners (same s).2 hv

theorem inOrder_of_orderly (state : U.State) (session : Script U ρ) {n : Nat}
    (checks : ∀ sys, ((step P)^[n] (initial state session)).workspace.system? s = some sys →
      sys.conf.verifyInstances = true)
    (orderly : ∀ i ≤ n, Orderly s (learned P s (initial state session) i)
      ((step P)^[i] (initial state session))) :
    ((step P)^[n] (initial state session)).workspace.InOrder s
        ((step P)^[n] (initial state session)).control.activations ∧
      Knows s (learned P s (initial state session) n) ((step P)^[n] (initial state session)) := by
  induction n with
  | zero =>
      refine ⟨⟨fun m x op hx => ?_, fun sys hs => ?_, fun run hrun => ?_⟩, .nil⟩
      · simp [initial, Workspace.module?] at hx
      · simp [initial, Workspace.system?] at hs
      · cases hrun
  | succ n ih =>
      have h := (Reachable.initial (P := P) state session).iterate n
      have after := (orderly (n + 1) (Nat.le_refl _)).succeeds
      rw [Function.iterate_succ_apply'] at checks after ⊢
      have before : ∀ sys, ((step P)^[n] (initial state session)).workspace.system? s = some sys →
          sys.conf.verifyInstances = true := by
        intro sys hs
        obtain ⟨sys', hs', conf, -⟩ := h.move.extends.systems s sys hs
        rw [← conf]
        exact checks sys' hs'
      obtain ⟨order, known⟩ := ih before fun i le => orderly i (Nat.le_succ_of_le le)
      exact ⟨(orderly n (Nat.le_succ n)).inOrder h known before after order, known.step h after⟩

theorem not_lost {n : Nat} (clean : ∀ i ≤ n, ((step P)^[i] M).fails = false) :
    ¬ Lost P s m n M := by
  rintro ⟨i, lt, drops, -⟩
  have after := clean (i + 1) lt
  rw [Function.iterate_succ_apply'] at after
  exact not_drops (clean i (Nat.le_of_lt lt)) after drops

/-- If nothing has gone wrong in a session, then once all that waits in `s` is generated the
design verifies: each of its real modules has a body that ends in its only terminator, and
each operation in it verifies. -/
theorem design_verifies (state : U.State) (session : Script U ρ) {n : Nat}
    {next : Except Error Unit → Script U ρ}
    (orderly : ∀ i ≤ n, Orderly s (learned P s (initial state session) i)
      ((step P)^[i] (initial state session)))
    (entering : ((step P)^[n] (initial state session)).control =
      .entering (.generate s) (.session next))
    (ok : ((step P)^[n + 1] (initial state session)).control =
      .answering (a := .generation) (.ok ()) (.session next)) {sys : System}
    (hs : ((step P)^[n + 1] (initial state session)).workspace.system? s = some sys)
    (checks : sys.conf.verifyInstances = true) :
    sys.design.verify = .ok () ∧
      ∀ q op, sys.design.findModule? q = some op → op.isExternal = false →
        ∃ b, op.kind = .real (some b) ∧ b.IsClosed ∧
          ∀ o ∈ b.ops, sys.design.verifyOp q o.id = .ok () := by
  have hosts := ((Reachable.initial (P := P) state session).iterate n).hosts
  rw [Function.iterate_succ_apply'] at ok hs
  obtain ⟨sys', hs', empty, same⟩ := drained entering ok
  rw [same] at hs
  rw [hs] at hs'
  cases hs'
  obtain ⟨order, -⟩ := inOrder_of_orderly state session (fun sys' hs' => by
    rw [hs] at hs'
    cases hs'
    exact checks) orderly
  have alone : sys.owners = [] := by
    rw [hosts.owners s sys hs, entering]
    rfl
  have complete := (order.checked sys hs).complete (hosts.sound.systems s sys hs) alone
    fun m x sym hx gen hm => by
      by_contra idle
      have lost := (idle_iff_lost state session entering hs empty hx gen hm).mp
        (Bool.eq_false_iff.mpr idle)
      exact not_lost (fun i le => (orderly i le).succeeds) lost
  refine ⟨Design.verify_eq_ok complete, fun q op hop real => ?_⟩
  obtain ⟨b, hk, closed⟩ := (complete q op hop).body real
  exact ⟨b, hk, closed, (complete q op hop).verified b (ModuleOp.body?_of_kind hk)⟩

end Machine

namespace Sample

/-- `Top` is generated, and `Leaf` after it; then the design verifies. -/
theorem verifies_after_generating :
    ∃ sys, (after (program top) generating 18).workspace.system? ⟨0⟩ = some sys ∧
      sys.design.verify = .ok () ∧ ∃ op, sys.design.findModule? "Top" = some op ∧
        ∃ b, op.kind = .real (some b) ∧ b.IsClosed := by
  have orderly : ∀ i ≤ 17, Machine.Orderly ⟨0⟩
      (Machine.learned (program top) ⟨0⟩ (Machine.initial (0 : Nat) (session generating)) i)
      (after (program top) generating i) := by
    decide +kernel
  have before : isGenerating (after (program top) generating 17).control = true := by
    decide +kernel
  have waiting : ((after (program top) generating 17).workspace.system? ⟨0⟩).map
      System.worklist = some [] := by
    decide +kernel
  have system : ((after (program top) generating 18).workspace.system? ⟨0⟩).map
      (fun sys => (sys.conf.verifyInstances,
        (sys.design.findModule? "Top").map ModuleOp.isExternal)) = some (true, some false) := by
    decide +kernel
  obtain ⟨next, entering⟩ := generates_of_isGenerating before
  obtain ⟨old, hold, empty⟩ := Option.map_eq_some_iff.mp waiting
  obtain ⟨sys, hs, known⟩ := Option.map_eq_some_iff.mp system
  obtain ⟨checks, there⟩ := Prod.mk.inj known
  obtain ⟨op, hop, real⟩ := Option.map_eq_some_iff.mp there
  unfold after at orderly entering hold hs
  have ok := congrArg Machine.control
    (Machine.step_of_empty (P := program top) entering hold empty)
  rw [← Function.iterate_succ_apply' (Machine.step (program top))] at ok
  obtain ⟨verifies, bodies⟩ := Machine.design_verifies (P := program top) (0 : Nat)
    (session generating) orderly entering ok hs checks
  obtain ⟨b, hk, closed, -⟩ := bodies "Top" op hop real
  exact ⟨sys, hs, verifies, op, hop, b, hk, closed⟩

end Sample

end Hardware
