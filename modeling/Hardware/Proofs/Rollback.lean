import Hardware.Proofs.Attempt

/-!
What a failed generation leaves behind. The module is as if it had not been tried, the scopes
are those of before, the instances in its body have no site any more, and the generator may
be started again.
-/
namespace Hardware

variable {U : UserCode} {ρ : Type}

namespace System

variable {old sys : System} {ws : Workspace U}

/-- What `old` has become after a failed generation of `m`, with the symbol `sym`. -/
structure RolledBack (old sys : System) (m : ModuleId) (sym : Ident) : Prop where
  idle : sys.isGenerated m = false
  symbol : sys.symbolOf? m = some sym
  cached : ∀ q, old.symbolOf? m = some q → q = sym
  /-- The operation has no body, and is the same as before if there was one. -/
  op : ∃ op, sys.design.findModule? sym = some op ∧ op.kind = .real none ∧
    ∀ before, old.design.findModule? sym = some before → op = before
  /-- The granted names, the insertion points, the locations and the clocks. -/
  running : sys.running = old.running
  others : ∀ q op, q ≠ sym → old.design.findModule? q = some op →
    sys.design.findModule? q = some op ∨
      ∃ n, sys.symbolOf? n = some q ∧ old.isGenerated n = false ∧ sys.isGenerated n = true

/-- Once the scopes are as many as before, they are the same, and a module that is not
generated any more has its operation back. -/
theorem During.rolledBack (d : old.During sys) (h : sys.Sound ws) {m : ModuleId} {sym : Ident}
    {x : Module U.GeneratorCode} (hx : ws.module? m = some x) (declared : x.isImported = false)
    (gen : x.schema.hasGenerator = true) (hm : sys.symbolOf? m = some sym)
    (cached : ∀ q, old.symbolOf? m = some q → q = sym) (idle : sys.isGenerated m = false)
    (depth : sys.running.scopes.length = old.running.scopes.length) :
    old.RolledBack sys m sym := by
  refine ⟨idle, hm, cached, ?_, d.running_eq depth, fun q op other hop => ?_⟩
  · obtain ⟨y, op, hy, hop, carries⟩ := h.present m sym hm
    rw [hx] at hy
    cases hy
    obtain ⟨body, hk, stage⟩ := (carries declared).stage gen
    refine ⟨op, hop, ?_, fun before hbefore => ?_⟩
    · cases stage with
      | idle => exact hk
      | running marked => rw [idle] at marked; cases marked
      | complete marked => rw [idle] at marked; cases marked
    · rcases d.ops sym before hbefore with ⟨found, -⟩ | ⟨-, n, b, hn, -, marked, -⟩
      · rw [hop] at found
        exact Option.some.inj found
      · rw [h.injective n m sym hn hm, idle] at marked
        cases marked
  · rcases d.ops q op hop with ⟨found, -⟩ | ⟨-, n, b, hn, before, after, -⟩
    · exact .inl found
    · exact .inr ⟨n, hn, before, after⟩

end System

namespace Workspace

variable {ws ws' : Workspace U} {run : GeneratorRun} {runs : List GeneratorRun}

theorem Hosts.depth_eq (h : ws.Hosts runs) (h' : ws'.Hosts runs) {s : SystemId}
    {sys sys' : System} (hs : ws.system? s = some sys) (hs' : ws'.system? s = some sys') :
    sys'.running.scopes.length = sys.running.scopes.length := by
  have owners := congrArg List.length ((h'.owners s sys' hs').trans (h.owners s sys hs).symm)
  simpa [System.owners] using owners

theorem Unwinds.clears (h : ws.Sound) (u : ws.Unwinds run ws') {i : InstanceId} {x : Instance}
    (hi : ws.instance? i = some x) (here : x.system = run.system)
    (inside : x.site.map InstanceSite.parent = some run.symbol) :
    ws'.instance? i = some { x with site := none } := by
  cases u with
  | @intro sys hs =>
      obtain ⟨sys', hs', tracked⟩ := h.tracked i x hi
      rw [here, hs] at hs'
      cases hs'
      have site : x.site.isSome = true := by
        cases hsite : x.site with
        | none => rw [hsite] at inside; cases inside
        | some site => rfl
      have within : ws.isInside run.symbol i = true := by
        simpa [isInside, parent?, hi] using inside
      rw [instance?_setSystem, instance?_releaseInstances,
        if_pos (List.mem_filter.mpr ⟨tracked site, within⟩), hi]
      rfl

end Workspace

namespace Machine

variable {P : Program U} {M : Machine U ρ} {s : SystemId} {m : ModuleId}
  {below : Stack U ρ .generation} {run : GeneratorRun} {script : Script U GeneratorResult}

theorem Reachable.attempt (h : Reachable P M) (starts : Starts P s m below run script M)
    {old : System} (hold : M.workspace.system? s = some old) {answer : Except Error Unit} {n : Nat}
    (returns : ReturnsAfter P below answer n M) {k : Nat} (lt : k + 1 < n) :
    ((Machine.step P)^[k + 1] M).control.Above s m below ∧
      ∃ sys, ((Machine.step P)^[k + 1] M).workspace.system? s = some sys ∧ old.During sys := by
  induction k with
  | zero =>
      obtain ⟨old', sys, x, g, hold', hs, -, -, -, here, there, begun⟩ := h.begun starts
      rw [hold] at hold'
      cases hold'
      obtain ⟨sys', hs', tick⟩ := h.move.tick h.hosts hold
      rw [hs] at hs'
      cases hs'
      rw [tick.starts begun.idle begun.marked] at tick
      refine ⟨?_, sys, hs, (System.During.refl old).started tick⟩
      change (Machine.step P M).control.Above s m below
      rw [starts.2]
      exact .here _ here there
  | succ k ih =>
      obtain ⟨above, sys, hs, during⟩ := ih (by omega)
      have reach := h.iterate (k + 1)
      have hosts := h.hosts_entering starts.1
      have inside := scopes_lt hosts reach.hosts hold hs above
      obtain ⟨sys', hs', tick⟩ := reach.move.tick reach.hosts hs
      have sound := reach.hosts.sound
      rw [Function.iterate_succ_apply']
      refine ⟨?_, sys', hs', during.tick (sound.systems s sys hs) tick inside⟩
      rcases step_above (P := P) sound above with still | ⟨run', result, ends, rfl, rfl⟩
      · exact still
      · -- The generator has ended, so it would have returned before.
        obtain ⟨other, same⟩ := reach.answers ends
        rw [← Function.iterate_succ_apply' (Machine.step P)] at same
        exact absurd same (returns.2 (k + 2) lt other)

theorem Reachable.returns (h : Reachable P M) (starts : Starts P s m below run script M) {n : Nat}
    (deep : ∀ k < n, below.activations.length <
      ((Machine.step P)^[k + 1] M).control.activations.length)
    (back : ((Machine.step P)^[n + 1] M).control.activations.length ≤ below.activations.length) :
    ∃ answer, ReturnsAfter P below answer (n + 1) M := by
  have pending : ∀ k < n + 1, ∀ other,
      ((Machine.step P)^[k] M).control ≠ .answering (a := .generation) other below := by
    intro k lt other same
    cases k with
    | zero =>
        have entering := starts.1.symm.trans same
        cases entering
    | succ k =>
        have size := deep k (Nat.lt_of_succ_lt_succ lt)
        rw [same] at size
        exact absurd size (Nat.lt_irrefl _)
  have above : ∀ k < n, ((Machine.step P)^[k + 1] M).control.Above s m below := by
    intro k lt
    induction k with
    | zero =>
        obtain ⟨here, there⟩ := h.home starts
        change (Machine.step P M).control.Above s m below
        rw [starts.2]
        exact .here _ here there
    | succ k ih =>
        have reach := h.iterate (k + 1)
        have size := deep (k + 1) lt
        rw [Function.iterate_succ_apply'] at size ⊢
        rcases step_above (P := P) reach.hosts.sound (ih (Nat.lt_of_succ_lt lt)) with
          still | ⟨run', result, last, -⟩
        · exact still
        · obtain ⟨answer, same⟩ := reach.answers last
          rw [same] at size
          exact absurd size (Nat.lt_irrefl _)
  cases n with
  | zero =>
      change (Machine.step P M).control.activations.length ≤ _ at back
      rw [starts.2] at back
      exact absurd back (Nat.not_succ_le_self _)
  | succ n =>
      have reach := h.iterate (n + 1)
      have last := step_above (P := P) reach.hosts.sound (above n (Nat.lt_succ_self n))
      rw [Function.iterate_succ_apply'] at back
      rcases last with still | ⟨run', result, last, -⟩
      · obtain ⟨inner, r, runs, -⟩ := still.activations
        rw [runs] at back
        simp only [List.length_append, List.length_cons] at back
        omega
      · obtain ⟨answer, same⟩ := reach.answers last
        exact ⟨answer, by rw [Function.iterate_succ_apply', same], pending⟩

theorem Reachable.finishes (h : Reachable P M) (starts : Starts P s m below run script M)
    {answer : Except Error Unit} {n : Nat} (returns : ReturnsAfter P below answer n M) :
    ∃ k run' result, n = k + 2 ∧ ((Machine.step P)^[k + 1] M).control.Above s m below ∧
      ((Machine.step P)^[k + 1] M).control = .generator run' (.done result) below ∧
      run'.system = s ∧ run'.target = m := by
  match n, returns with
  | 0, returns =>
      have answer : M.control = _ := returns.1
      rw [starts.1] at answer
      cases answer
  | 1, returns =>
      have answer : (Machine.step P M).control = _ := returns.1
      rw [starts.2] at answer
      cases answer
  | k + 2, returns =>
      obtain ⟨old, -, -, -, hold, -⟩ := h.begun starts
      obtain ⟨above, -⟩ := h.attempt starts hold returns (Nat.lt_succ_self (k + 1))
      have answer := returns.1
      rw [Function.iterate_succ_apply'] at answer
      rcases step_above (P := P) (h.iterate (k + 1)).hosts.sound above with
        still | ⟨run', result, last, here, there⟩
      · rw [answer] at still
        exact absurd still Stack.not_above_self
      · exact ⟨k, run', result, rfl, above, last, here, there⟩

theorem Reachable.fails (h : Reachable P M) (starts : Starts P s m below run script M)
    {old : System} (hold : M.workspace.system? s = some old) {e : Error} {n : Nat}
    (returns : ReturnsAfter P below (.error e) n M) :
    ∃ k run', n = k + 2 ∧ ((Machine.step P)^[k + 1] M).control.Above s m below ∧
      run'.system = s ∧ run'.target = m ∧
      ((Machine.step P)^[k + 1] M).control.activations = run' :: below.activations ∧
      ((Machine.step P)^[k + 1] M).workspace.Unwinds run' ((Machine.step P)^[n] M).workspace ∧
      ∃ sys, ((Machine.step P)^[k + 1] M).workspace.system? s = some sys ∧ old.During sys := by
  obtain ⟨k, run', result, rfl, above, last, here, there⟩ := h.finishes starts returns
  obtain ⟨-, during⟩ := h.attempt starts hold returns (Nat.lt_succ_self (k + 1))
  have answer := returns.1
  rw [Function.iterate_succ_apply'] at answer ⊢
  refine ⟨k, run', rfl, above, here, there, by rw [last]; rfl, ?_, during⟩
  rcases (h.iterate (k + 1)).ends last with ⟨-, ok⟩ | ⟨unwinds, -⟩
  · rw [answer] at ok
    cases ok
  · exact unwinds

theorem Reachable.stays_idle (h : Reachable P M) {sys : System}
    (hs : M.workspace.system? s = some sys) (idle : sys.isGenerated m = false) {n : Nat}
    (quiet : ∀ k < n, ¬ Requests s m ((Machine.step P)^[k] M)) :
    ∃ sys', ((Machine.step P)^[n] M).workspace.system? s = some sys' ∧
      sys'.isGenerated m = false := by
  induction n with
  | zero => exact ⟨sys, hs, idle⟩
  | succ n ih =>
      obtain ⟨sys', hs', idle'⟩ := ih fun k lt => quiet k (Nat.lt_succ_of_lt lt)
      obtain ⟨sys'', hs'', -⟩ := (h.iterate n).move.extends.systems s sys' hs'
      rw [Function.iterate_succ_apply']
      refine ⟨sys'', hs'', ?_⟩
      cases gen : sys''.isGenerated m with
      | false => rfl
      | true =>
          obtain ⟨below, run, script, entering, -⟩ :=
            (h.iterate n).starts_of_generated hs' idle' hs'' gen
          exact absurd ⟨below, entering⟩ (quiet n (Nat.lt_succ_self n))

theorem Reachable.extends_le (h : Reachable P M) {i j : Nat} (le : i ≤ j) :
    ((Machine.step P)^[i] M).workspace.Extends ((Machine.step P)^[j] M).workspace := by
  have e := (h.iterate i).extends (j - i)
  rwa [← Function.iterate_add_apply, Nat.sub_add_cancel le] at e

theorem Reachable.symbolOf?_of_starts (h : Reachable P M) (starts : Starts P s m below run script M)
    {j : Nat} (positive : 1 ≤ j) {sys : System}
    (hs : ((Machine.step P)^[j] M).workspace.system? s = some sys) :
    sys.symbolOf? m = some run.symbol := by
  obtain ⟨old, first, x, g, -, hfirst, -, -, -, -, -, begun⟩ := h.begun starts
  obtain ⟨sys', hs', -, symbols⟩ := (h.extends_le positive).systems s first hfirst
  rw [hs] at hs'
  cases hs'
  exact symbols m _ begun.symbol

theorem Reachable.undoes (h : Reachable P M) (starts : Starts P s m below run script M) {e : Error}
    {n : Nat} (returns : ReturnsAfter P below (.error e) n M) :
    ∃ old sys, M.workspace.system? s = some old ∧
      ((Machine.step P)^[n] M).workspace.system? s = some sys ∧ old.RolledBack sys m run.symbol ∧
      ∀ k < n, ∀ i x, ((Machine.step P)^[k] M).workspace.instance? i = some x → x.system = s →
        x.site.map InstanceSite.parent = some run.symbol →
          ((Machine.step P)^[n] M).workspace.instance? i = some { x with site := none } := by
  obtain ⟨old, first, x, g, hold, hfirst, hx, one, -, -, -, begun⟩ := h.begun starts
  obtain ⟨k, run', rfl, above, here, there, runs, unwinds, sys, hs, during⟩ :=
    h.fails starts hold returns
  have reach := h.iterate (k + 1)
  have before := h.hosts_entering starts.1
  have after := (h.iterate (k + 2)).hosts_answering returns.1
  have inside := scopes_lt before reach.hosts hold hs above
  -- The generator that ends is the one that has started, under the same symbol.
  have hm := h.symbolOf?_of_starts starts (Nat.le_add_left 1 k) hs
  obtain ⟨sys', scope, outer, hs', sound, top, owner, hm'⟩ := (runs ▸ reach.hosts).top
  rw [here, hs] at hs'
  cases hs'
  rw [there, hm] at hm'
  have symbol := Option.some.inj hm'
  rw [← symbol] at owner
  obtain ⟨x', hx', schema, -⟩ := (h.extends_le (Nat.le_add_left 1 (k + 1))).modules m x hx
  rw [← schema] at one
  obtain ⟨declared, has⟩ := System.Sound.declared_of_one
    (h.iterate (k + 2)).hosts.sound.modules hx' one
  have cached : ∀ q, old.symbolOf? m = some q → q = run.symbol := by
    intro q hq
    obtain ⟨sys', hs', -, symbols⟩ := h.move.extends.systems s old hold
    rw [hfirst] at hs'
    cases hs'
    have same := symbols m q hq
    rw [begun.symbol] at same
    exact (Option.some.inj same).symm
  rw [← here] at hs
  obtain ⟨kept, hs'⟩ := unwinds.system? hs
  rw [here] at hs hs'
  rw [there, ← symbol, ← owner] at hs'
  have during' := during.undone sound top (owner ▸ hm) kept inside
  refine ⟨old, _, hold, hs', ?_, fun j lt i x hi home site => ?_⟩
  · exact during'.rolledBack (after.sound.systems s _ hs') hx' declared has hm cached (by simp)
      (before.depth_eq after hold hs')
  · rcases (h.extends_le (Nat.le_of_lt_succ lt)).instances i x hi with same | gone
    · apply unwinds.clears reach.hosts.sound same (home.trans here.symm)
      rw [site, symbol]
    · rcases (h.extends_le (Nat.le_succ (k + 1))).instances i _ gone with same | same
      · exact same
      · exact same

theorem Reachable.starts_on_request (h : Reachable P M) {sys : System}
    {x : Module U.GeneratorCode} {g : Generator U.GeneratorCode}
    (hs : M.workspace.system? s = some sys) (hx : M.workspace.module? m = some x)
    (one : x.schema.generators.values = [g]) (idle : sys.isGenerated m = false) {n : Nat}
    (next : ((Machine.step P)^[n] M).control = .entering (.generateModule s m) below)
    (quiet : ∀ k < n, ¬ Requests s m ((Machine.step P)^[k] M)) :
    ∃ run old sys', Starts P s m below run (P.generator g.code) ((Machine.step P)^[n] M) ∧
      ((Machine.step P)^[n] M).workspace.system? s = some old ∧
      ((Machine.step P)^[n + 1] M).workspace.system? s = some sys' ∧
      old.Begun sys' m run.symbol := by
  obtain ⟨old, hold, idle'⟩ := h.stays_idle hs idle quiet
  obtain ⟨x', hx', schema, -⟩ := (h.extends n).modules m x hx
  rw [← schema] at one
  obtain ⟨run, starts⟩ := (h.iterate n).starts_of_idle next hold hx' one idle'
  obtain ⟨old', sys', -, -, hold', hs', -, -, -, -, -, begun⟩ := (h.iterate n).begun starts
  rw [hold] at hold'
  cases hold'
  rw [Function.iterate_succ_apply']
  exact ⟨run, old, sys', starts, hold, hs', begun⟩

/-- A generation that fails is rolled back. Afterwards its module is not generated, and has
its operation under the same symbol and without a body; the scopes are those of before; the
operations of all other modules are as before, but for modules that have been generated
since; the instances that were built in the body are cleared. The next request starts the
same generator, in a new scope and on an empty body. -/
theorem Reachable.rolled_back (h : Reachable P M) (starts : Starts P s m below run script M)
    {e : Error} {n : Nat} (returns : ReturnsAfter P below (.error e) n M) :
    ∃ old sys, M.workspace.system? s = some old ∧
      ((Machine.step P)^[n] M).workspace.system? s = some sys ∧
      old.RolledBack sys m run.symbol ∧
      (∀ k < n, ∀ i x, ((Machine.step P)^[k] M).workspace.instance? i = some x → x.system = s →
        x.site.map InstanceSite.parent = some run.symbol →
          ((Machine.step P)^[n] M).workspace.instance? i = some { x with site := none }) ∧
      ∀ l below', ((Machine.step P)^[n + l] M).control = .entering (.generateModule s m) below' →
        (∀ j < l, ¬ Requests s m ((Machine.step P)^[n + j] M)) →
          ∃ run' old' sys', Starts P s m below' run' script ((Machine.step P)^[n + l] M) ∧
            run'.symbol = run.symbol ∧
            ((Machine.step P)^[n + l] M).workspace.system? s = some old' ∧
            ((Machine.step P)^[n + l + 1] M).workspace.system? s = some sys' ∧
            old'.Begun sys' m run.symbol := by
  obtain ⟨old, sys, hold, hs, rolled, cleared⟩ := h.undoes starts returns
  refine ⟨old, sys, hold, hs, rolled, cleared, fun l below' next quiet => ?_⟩
  obtain ⟨-, -, x, g, -, -, hx, one, rfl, -⟩ := h.begun starts
  have positive : 1 ≤ n := by
    rcases Nat.eq_zero_or_pos n with rfl | pos
    · have answer : M.control = _ := returns.1
      rw [starts.1] at answer
      cases answer
    · exact pos
  obtain ⟨x', hx', schema, -⟩ := (h.extends_le positive).modules m x hx
  rw [← schema] at one
  have shift : ∀ j, (Machine.step P)^[n + j] M = (Machine.step P)^[j] ((Machine.step P)^[n] M) :=
    fun j => by rw [Nat.add_comm, Function.iterate_add_apply]
  rw [Nat.add_assoc]
  simp only [shift] at next quiet ⊢
  obtain ⟨run', old', sys', starts', hold', hs', begun⟩ :=
    (h.iterate n).starts_on_request hs hx' one rolled.idle next quiet
  have symbol : run'.symbol = run.symbol := by
    rw [← shift] at hs'
    have same := h.symbolOf?_of_starts starts (Nat.le_add_left 1 (n + l)) hs'
    rw [begun.symbol] at same
    exact Option.some.inj same
  exact ⟨run', old', sys', starts', symbol, hold', hs', symbol ▸ begun⟩

end Machine

namespace Sample

/-- Generates `Leaf` inside, and fails afterwards. -/
def failing : Script code GeneratorResult :=
  instantiating fun _ => .enter (.generateModule ⟨0⟩ ⟨0⟩) fun _ =>
    .done (.error (.internal .unknownHandle))

/-- The session that generates `Top` twice. -/
def retrying : Script code Unit :=
  .enter (.generateModule ⟨0⟩ ⟨1⟩) fun _ => .enter (.generateModule ⟨0⟩ ⟨1⟩) fun _ => .done ()

/-- The module whose generation is requested. -/
def requested? : Control code Unit → Option (SystemId × ModuleId)
  | .entering (.generateModule s m) _ => some (s, m)
  | _ => none

/-- True if an error is being answered. -/
def isRefusal : Control code Unit → Bool
  | .answering (.error _) _ => true
  | _ => false

theorem requested?_iff {s : SystemId} {m : ModuleId} {M : Machine code Unit} :
    requested? M.control = some (s, m) ↔ M.Requests s m := by
  constructor
  · intro h
    unfold requested? at h
    split at h
    · rename_i below entering
      cases h
      exact ⟨below, entering⟩
    · cases h
  · rintro ⟨below, entering⟩
    rw [entering]
    rfl

/-- What the depth of the stack tells of a request: a generator that is started now returns in
the step that brings the stack back to where it was. -/
theorem starts_and_returns {P : Program code} {M : Machine code Unit}
    (reach : Machine.Reachable P M) {s : SystemId} {m : ModuleId} {depth n : Nat}
    (request : requested? M.control = some (s, m))
    (runs : M.control.activations.length = depth)
    (idle : (M.workspace.system? s).map (fun sys => sys.isGenerated m) = some false)
    (single : (M.workspace.module? m).map (fun x => x.schema.generators.values.length) = some 1)
    (deep : ∀ k < n, depth < ((Machine.step P)^[k + 1] M).control.activations.length)
    (back : ((Machine.step P)^[n + 1] M).control.activations.length = depth) :
    ∃ below run script answer, Machine.Starts P s m below run script M ∧
      Machine.ReturnsAfter P below answer (n + 1) M := by
  obtain ⟨below, entering⟩ := requested?_iff.mp request
  obtain ⟨sys, hs, idle⟩ := Option.map_eq_some_iff.mp idle
  obtain ⟨x, hx, size⟩ := Option.map_eq_some_iff.mp single
  obtain ⟨g, one⟩ := List.length_eq_one_iff.mp size
  obtain ⟨run, starts⟩ := reach.starts_of_idle entering hs hx one idle
  have outside : below.activations.length = depth := by rwa [entering] at runs
  obtain ⟨answer, returns⟩ := reach.returns starts (by rwa [outside]) (by rw [outside, back])
  exact ⟨below, run, _, answer, starts, returns⟩

/-- `Top` fails after it has built `Leaf` and generated it, and is generated anew. -/
theorem rolled_back_after_nested :
    ∃ below run script e, Machine.Starts (program failing) ⟨0⟩ ⟨1⟩ below run script
        (after (program failing) retrying 5) ∧
      Machine.ReturnsAfter (program failing) below (.error e) 9
        (after (program failing) retrying 5) ∧
      (∃ old sys, (after (program failing) retrying 5).workspace.system? ⟨0⟩ = some old ∧
        ((Machine.step (program failing))^[9]
          (after (program failing) retrying 5)).workspace.system? ⟨0⟩ = some sys ∧
        old.RolledBack sys ⟨1⟩ run.symbol) ∧
      ∃ below' run', Machine.Starts (program failing) ⟨0⟩ ⟨1⟩ below' run' script
        ((Machine.step (program failing))^[11] (after (program failing) retrying 5)) := by
  have reach := reachable (program failing) retrying 5
  have first : requested? (after (program failing) retrying 5).control = some (⟨0⟩, ⟨1⟩) := by
    decide +kernel
  have runs : (after (program failing) retrying 5).control.activations.length = 0 := by
    decide +kernel
  have system : ((after (program failing) retrying 5).workspace.system? ⟨0⟩).map
      (fun sys => sys.isGenerated ⟨1⟩) = some false := by
    decide +kernel
  have single : ((after (program failing) retrying 5).workspace.module? ⟨1⟩).map
      (fun x => x.schema.generators.values.length) = some 1 := by
    decide +kernel
  have deep : ∀ k < 8, 0 < ((Machine.step (program failing))^[k + 1]
      (after (program failing) retrying 5)).control.activations.length := by
    decide +kernel
  have back : ((Machine.step (program failing))^[9]
      (after (program failing) retrying 5)).control.activations.length = 0 := by
    decide +kernel
  have refused : isRefusal ((Machine.step (program failing))^[9]
      (after (program failing) retrying 5)).control = true := by
    decide +kernel
  have quiet : ∀ j < 2, requested? ((Machine.step (program failing))^[9 + j]
      (after (program failing) retrying 5)).control = none := by
    decide +kernel
  have second : requested? ((Machine.step (program failing))^[9 + 2]
      (after (program failing) retrying 5)).control = some (⟨0⟩, ⟨1⟩) := by
    decide +kernel
  -- From here on the machine is not to be evaluated any more.
  generalize after (program failing) retrying 5 = M at *
  obtain ⟨below, run, script, answer, starts, returns⟩ :=
    starts_and_returns reach first runs system single deep back
  rw [returns.1] at refused
  cases answer with
  | ok u => cases refused
  | error e =>
      obtain ⟨old, sys', hold, hs', rolled, -, retry⟩ := reach.rolled_back starts returns
      obtain ⟨below', again⟩ := requested?_iff.mp second
      obtain ⟨run', -, -, starts', -⟩ := retry 2 below' again fun j lt request => by
        have none := quiet j lt
        rw [requested?_iff.mpr request] at none
        cases none
      exact ⟨below, run, script, e, starts, returns, ⟨old, sys', hold, hs', rolled⟩,
        below', run', starts'⟩

end Sample

end Hardware
