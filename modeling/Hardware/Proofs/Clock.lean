import Hardware.Proofs.Run
import Hardware.Proofs.Stacks

/-!
The clock of a system. A generator whose module has exactly one clock provides it, and the
innermost generator that provides one is asked. So a generator whose own module has no clock,
or several, is given the clock of a generator that encloses it.
-/
namespace Hardware

variable {U : UserCode} {ρ : Type} {γ : Type}

theorem PortDesc.mem_positions {role : PortRole} {ports : List PortDesc} {i : Nat} :
    i ∈ positions role ports ↔ ∃ p, ports[i]? = some p ∧ p.role = role := by
  simp only [positions, List.mem_filterMap, List.mem_mapIdx]
  constructor
  · rintro ⟨_, ⟨j, hj, rfl⟩, found⟩
    dsimp only at found
    split at found
    · rename_i same
      cases found
      exact ⟨ports[i], List.getElem?_eq_getElem hj, same⟩
    · cases found
  · rintro ⟨p, hp, rfl⟩
    obtain ⟨hi, rfl⟩ := List.getElem?_eq_some_iff.mp hp
    exact ⟨(i, ports[i].role), ⟨i, hi, rfl⟩, if_pos rfl⟩

/-- A module with these ports has exactly one clock, and `v` is the argument at it in the body
of `sym`. -/
def Schema.HasClock (schema : Schema γ) (sym : Ident) (v : Signal) : Prop :=
  ∃ i p, schema.clocks = [i] ∧ schema.inputs[i]? = some p ∧ p.role = .clock ∧
    v = ⟨.arg sym i, p.type⟩

theorem Workspace.clockArg_eq_some_iff {schema : Schema U.GeneratorCode} {sym : Ident}
    {v : Signal} :
    clockArg schema (Design.entryArgs sym (schema.inputs.map PortDesc.toPort)) = some v ↔
      schema.HasClock sym v := by
  unfold clockArg Schema.HasClock
  constructor
  · intro clock
    split at clock
    · rename_i i one
      have mem : i ∈ schema.clocks := by simp [one]
      obtain ⟨p, hp, role⟩ := PortDesc.mem_positions.mp mem
      refine ⟨i, p, one, hp, role, ?_⟩
      simpa [Design.entryArgs, hp, PortDesc.toPort, eq_comm] using clock
    · cases clock
  · rintro ⟨i, p, one, hp, -, rfl⟩
    simp [one, Design.entryArgs, hp, PortDesc.toPort]

/-- The clock that a generator provides is an argument of its own body. -/
theorem GeneratorRun.Sound.clock?_eq_some_iff {ws : Workspace U} {run : GeneratorRun}
    (h : run.Sound ws) : ∃ x, ws.module? run.target = some x ∧
      ∀ v, run.clock? ws = some v ↔ x.schema.HasClock run.symbol v := by
  obtain ⟨x, hx, -, -, args, -⟩ := h.ports
  refine ⟨x, hx, fun v => ?_⟩
  rw [GeneratorRun.clock?, hx, args, Option.bind_some, Workspace.clockArg_eq_some_iff]

theorem Workspace.Hosts.clock?_eq {ws : Workspace U} {runs : List GeneratorRun}
    (h : ws.Hosts runs) {s : SystemId} {sys : System} (hs : ws.system? s = some sys) :
    sys.clock? = (runsIn s runs).findSome? (GeneratorRun.clock? ws) := by
  obtain ⟨-, -, -, clocks⟩ := h.scopeStacks hs
  rw [sys.clock?_eq_head?, clocks, List.head?_filterMap]

namespace Machine

variable {P : Program U} {M : Machine U ρ} {s : SystemId}

open Workspace (runsIn)

/-- The clock of a system is that of the innermost generator whose module has exactly one, and
there is none where no such generator runs. It is what the innermost generator of all provides
only if that one's module has exactly one clock, or no enclosing one's has. -/
theorem Reachable.clock_of_innermost_clocked (h : Reachable P M) {sys : System}
    (hs : M.workspace.system? s = some sys) :
    sys.clock? = (runsIn s M.control.activations).findSome? (GeneratorRun.clock? M.workspace) ∧
      (∀ run ∈ runsIn s M.control.activations, ∃ x, M.workspace.module? run.target = some x ∧
        sys.symbolOf? run.target = some run.symbol ∧
        ∀ v, run.clock? M.workspace = some v ↔ x.schema.HasClock run.symbol v) ∧
      ∀ run outer, runsIn s M.control.activations = run :: outer →
        (sys.clock? = run.clock? M.workspace ↔
          (∃ v, run.clock? M.workspace = some v) ∨
            ∀ other ∈ outer, other.clock? M.workspace = none) := by
  have clock := h.hosts.clock?_eq hs
  refine ⟨clock, fun run mem => ?_, fun run outer nest => ?_⟩
  · obtain ⟨running, rfl⟩ := Workspace.mem_runsIn.mp mem
    have sound := h.hosts.each run running
    obtain ⟨x, hx, provides⟩ := sound.clock?_eq_some_iff
    obtain ⟨sys', hs', hm⟩ := sound.home
    rw [hs] at hs'
    cases hs'
    exact ⟨x, hx, hm, provides⟩
  · rw [clock, nest, List.findSome?_cons]
    cases own : run.clock? M.workspace with
    | some v => simp
    | none => simp [List.findSome?_eq_none_iff]

end Machine

namespace Sample

/-- `Top`, which has a clock here, generates `Leaf`, which has none. -/
def clockedSession : Script code Unit :=
  .call (.newSystem "design" {}) fun _ =>
    .call (.declare (decl "Leaf" false)) fun _ =>
      .call (.declare ((decl "Top" true).clock "clk")) fun _ =>
        .enter (.generateModule ⟨0⟩ ⟨1⟩) fun _ => .done ()

/-- Generates `Leaf` inside. -/
def enclosing : Script code GeneratorResult :=
  .enter (.generateModule ⟨0⟩ ⟨0⟩) fun _ => .done (.ok .nothing)

/-- The machine after `n` steps of that session. -/
def clockedAfter (n : Nat) : Machine code Unit :=
  (Machine.step (program enclosing))^[n] (Machine.initial (0 : Nat) clockedSession)

theorem reachable_clockedAfter (n : Nat) :
    Machine.Reachable (program enclosing) (clockedAfter n) :=
  (Machine.Reachable.initial (0 : Nat) clockedSession).iterate n

/-- In the generator of `Leaf`, which has started, the clock is an argument of `Top`. -/
theorem clock_of_enclosing : ∃ sys inner outer,
    (clockedAfter 7).workspace.system? ⟨0⟩ = some sys ∧
    Workspace.runsIn ⟨0⟩ (clockedAfter 7).control.activations = [inner, outer] ∧
    inner.symbol = "Leaf" ∧ inner.clock? (clockedAfter 7).workspace = none ∧
    sys.clock? = some ⟨.arg "Top" 0, .clock⟩ ∧
    sys.clock? ≠ inner.clock? (clockedAfter 7).workspace := by
  have reach := reachable_clockedAfter 7
  have there : ((clockedAfter 7).workspace.system? ⟨0⟩).isSome = true := by decide +kernel
  have runs : (Workspace.runsIn ⟨0⟩ (clockedAfter 7).control.activations).map
      (fun run => (run.symbol, run.clock? (clockedAfter 7).workspace)) =
        [("Leaf", none), ("Top", some ⟨.arg "Top" 0, .clock⟩)] := by
    decide +kernel
  -- From here on the machine is not to be evaluated any more.
  generalize clockedAfter 7 = M at *
  obtain ⟨sys, hs⟩ := Option.isSome_iff_exists.mp there
  obtain ⟨inner, rest, nest, first, others⟩ := List.map_eq_cons_iff.mp runs
  obtain ⟨outer, none, rfl, second, last⟩ := List.map_eq_cons_iff.mp others
  obtain rfl := List.map_eq_nil_iff.mp last
  obtain ⟨symbol, idle⟩ := Prod.mk.inj first
  obtain ⟨-, provides⟩ := Prod.mk.inj second
  obtain ⟨clock, -, own⟩ := reach.clock_of_innermost_clocked hs
  refine ⟨sys, inner, outer, hs, nest, symbol, idle, ?_, fun same => ?_⟩
  · rw [clock, nest, List.findSome?_cons, idle, List.findSome?_cons, provides]
  · rcases (own inner [outer] nest).mp same with ⟨v, has⟩ | no
    · rw [idle] at has
      cases has
    · rw [no outer (by simp)] at provides
      cases provides

end Sample

end Hardware
