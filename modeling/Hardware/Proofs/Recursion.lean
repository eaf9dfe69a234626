import Hardware.Proofs.Invocations
import Hardware.Proofs.Wiring
import Hardware.Proofs.Worklist

/-!
Modules that contain themselves. No module is instantiated in its own body, but through other
modules it may come back to itself. A cycle is closed only where a module is instantiated whose
generator has started already: one that is not generated has no body, so no path leads on from it.
-/
namespace Hardware

variable {U : UserCode} {ρ : Type}

theorem transGen_of_sinks {α : Type} {R R' : α → α → Prop}
    (new : ∀ a b, R' a b → R a b ∨ ∀ c, ¬ R' b c) {a b : α} (path : Relation.TransGen R' a b)
    (goes_on : ∃ c, R' b c) : Relation.TransGen R a b := by
  induction path with
  | @single b edge =>
      obtain ⟨c, next⟩ := goes_on
      rcases new a b edge with old | sink
      · exact .single old
      · exact absurd next (sink c)
  | @tail b c path edge ih =>
      obtain ⟨d, next⟩ := goes_on
      rcases new b c edge with old | sink
      · exact (ih ⟨c, edge⟩).tail old
      · exact absurd next (sink d)

theorem exists_of_transGen {α : Type} {R : α → α → Prop} {a b : α} (path : Relation.TransGen R a b) :
    ∃ c, R a c := by
  obtain ⟨c, edge, -⟩ := Relation.TransGen.head'_iff.mp path
  exact ⟨c, edge⟩

namespace Workspace

/-- The module with the symbol `p` in `s` is generated. -/
def Marked (ws : Workspace U) (s : SystemId) (p : Ident) : Prop :=
  ∃ sys m, ws.system? s = some sys ∧ sys.symbolOf? m = some p ∧ sys.isGenerated m = true

/-- Each edge starts in a module that is generated, and ends in another one. -/
structure Rooted (ws : Workspace U) : Prop where
  flat : ws.Flat
  proper : ∀ s p q, ws.Instantiates s p q → p ≠ q
  marked : ∀ s p q, ws.Instantiates s p q → ws.Marked s p

end Workspace

namespace Machine

variable {P : Program U} {M : Machine U ρ} {s : SystemId} {m : ModuleId} {p q : Ident}

theorem Reachable.marked_before (h : Reachable P M) (rooted : M.workspace.Rooted)
    (edge : (Machine.step P M).workspace.Instantiates s p q) : M.workspace.Marked s p := by
  rcases h.wires rooted.flat s p q edge with old | ⟨-, -, -, -, -, sys, hs, owner, -⟩
  · exact rooted.marked s p q old
  · obtain ⟨m, hm, gen⟩ := (h.hosts.sound.systems s sys hs).owned p owner
    exact ⟨sys, m, hs, hm, gen⟩

/-- A module keeps its mark unless its body is dropped, and its edges with it. -/
theorem Reachable.marked_after (h : Reachable P M) (marked : M.workspace.Marked s p)
    (edge : (Machine.step P M).workspace.Instantiates s p q) :
    (Machine.step P M).workspace.Marked s p := by
  obtain ⟨sys, m, hs, hm, gen⟩ := marked
  obtain ⟨sys', hs', -, symbols⟩ := h.move.extends.systems s sys hs
  refine ⟨sys', m, hs', symbols m p hm, ?_⟩
  by_contra unmarked
  obtain ⟨below, run, result, e, last, here, there, failed⟩ :=
    h.fails_of_generated hs gen hs' (Bool.eq_false_iff.mpr unmarked)
  obtain ⟨home, hhome, symbol⟩ := (h.hosts.each run (by simp [last, Control.activations])).home
  rw [here, hs] at hhome
  cases hhome
  rw [there, hm] at symbol
  rcases h.ends last with ⟨-, ok⟩ | ⟨unwinds, -⟩
  · rw [failed] at ok
    cases ok
  · obtain ⟨kept, undone⟩ := unwinds.system? (here ▸ hs)
    obtain ⟨dropped, hdropped, b, body, -⟩ := edge
    rw [here] at undone
    rw [undone] at hdropped
    cases hdropped
    rw [Option.some.inj symbol, System.undone, Design.body?_setBody_none] at body
    cases body

theorem Reachable.rooted_step (h : Reachable P M) (rooted : M.workspace.Rooted)
    (flat : ∀ s op loc, M.control.call? = some (.importModule s op loc) → op.Flat) :
    (Machine.step P M).workspace.Rooted where
  flat := by
    refine Workspace.Move.brings rooted.flat h.move ?_
    rintro op ⟨s, loc, calls⟩
    exact flat s op loc calls
  proper s p q edge := by
    rcases h.wires rooted.flat s p q edge with old | ⟨-, -, -, -, other, -⟩
    · exact rooted.proper s p q old
    · exact other
  marked s p q edge := h.marked_after (h.marked_before rooted edge) edge

/-- The next step instantiates the module with the symbol `q` in `s`, and this module is generated
already. -/
def Revisits (s : SystemId) (q : Ident) (M : Machine U ρ) : Prop :=
  ∃ m r sys, M.control.call? = some (.instantiate s m r) ∧ M.workspace.system? s = some sys ∧
    sys.symbolOf? m = some q ∧ sys.isGenerated m = true

theorem Reachable.no_edge_after (h : Reachable P M) (rooted : M.workspace.Rooted)
    (new : M.MayWire s p q) (first : ¬ Revisits s q M) (c : Ident) :
    ¬ (Machine.step P M).workspace.Instantiates s q c := by
  obtain ⟨m, r, calls, -, other, sys, hs, -, at_q⟩ := new
  intro edge
  obtain ⟨sys', n, hs', hn, gen⟩ := h.marked_before rooted edge
  rw [hs] at hs'
  cases hs'
  have system := h.hosts.sound.systems s sys hs
  rcases at_q with hm | free
  · rw [system.injective n m q hn hm] at gen
    exact first ⟨m, r, sys, calls, hs, hm, gen⟩
  · exact system.symbolOf?_ne free n hn

theorem rooted_initial (state : U.State) (session : Script U ρ) :
    (initial state session).workspace.Rooted where
  flat m x op hx := by simp [initial, Workspace.module?] at hx
  proper s p q edge := by
    obtain ⟨sys, hs, -⟩ := edge
    simp [initial, Workspace.system?] at hs
  marked s p q edge := by
    obtain ⟨sys, hs, -⟩ := edge
    simp [initial, Workspace.system?] at hs

variable {state : U.State} {session : Script U ρ} {n : Nat}

theorem reachable_trace (P : Program U) (state : U.State) (session : Script U ρ) (n : Nat) :
    Reachable P (trace P state session n) := (Reachable.initial state session).iterate n

theorem rooted_trace (flat : ∀ i < n, ∀ s op loc,
      (trace P state session i).control.call? = some (.importModule s op loc) → op.Flat) :
    (trace P state session n).workspace.Rooted := by
  induction n with
  | zero => exact rooted_initial state session
  | succ n ih =>
      rw [trace_succ]
      exact (reachable_trace P state session n).rooted_step
        (ih fun i lt => flat i (Nat.lt_succ_of_lt lt)) (flat n (Nat.lt_succ_self n))

/-- In the design of `s`, after `n` steps, an instance of `b` stands in the body of `a`, and at no
time was `b` instantiated after its generator had started. -/
def Descends (P : Program U) (state : U.State) (session : Script U ρ) (n : Nat) (s : SystemId)
    (a b : Ident) : Prop :=
  (trace P state session n).workspace.Instantiates s a b ∧
    ∀ i < n, ¬ Revisits s b (trace P state session i)

/-- Where imports bring no instances along, no module is ever instantiated in its own body, and each
cycle of instances goes through a module that was instantiated after its generator had started:
without these instances there is no cycle. -/
theorem cycles_revisit (P : Program U) (state : U.State) (session : Script U ρ) (n : Nat)
    (flat : ∀ i < n, ∀ s op loc,
      (trace P state session i).control.call? = some (.importModule s op loc) → op.Flat) :
    ∀ s p, ¬ (trace P state session n).workspace.Instantiates s p p ∧
      ¬ Relation.TransGen (Descends P state session n s) p p := by
  intro s p
  refine ⟨fun edge => (rooted_trace flat).proper s p p edge rfl, fun cycle => ?_⟩
  induction n with
  | zero =>
      obtain ⟨q, ⟨sys, hs, -⟩, -⟩ := exists_of_transGen cycle
      simp [trace, initial, Workspace.system?] at hs
  | succ n ih =>
      have flat' := fun i lt => flat i (Nat.lt_succ_of_lt lt)
      refine ih flat' (transGen_of_sinks ?_ cycle (exists_of_transGen cycle))
      rintro a b ⟨edge, first⟩
      have before : ∀ i < n, ¬ Revisits s b (trace P state session i) := fun i lt =>
        first i (Nat.lt_succ_of_lt lt)
      have reach := reachable_trace P state session n
      have rooted := rooted_trace flat'
      rw [trace_succ] at edge
      rcases reach.wires rooted.flat s a b edge with old | new
      · exact .inl ⟨old, before⟩
      · refine .inr fun c next => ?_
        have none := reach.no_edge_after rooted new (first n (Nat.lt_succ_self n)) c
        rw [← trace_succ] at none
        exact none next.1

end Machine

namespace Sample

/-- `Top` and `Leaf` instantiate each other. -/
def entangled : Program code where
  generator g := .call (.instantiate ⟨0⟩ ⟨if g then 0 else 1⟩ { inputs := [], loc := .unknown })
    fun _ => leaf
  producer _ _ := .done (.error (.internal .unknownHandle))

/-- The symbols that are instantiated in the body of `p`. -/
def targets (sys : System) (p : Ident) : List Ident :=
  (((sys.design.body? p).map Block.ops).getD []).filterMap fun o =>
    match o.kind with
    | .inst _ target _ => some target
    | _ => none

theorem instantiates_of_mem_targets {sys : System} {p q : Ident} (mem : q ∈ targets sys p) :
    sys.design.Instantiates p q := by
  obtain ⟨o, ho, inst⟩ := List.mem_filterMap.mp mem
  cases hb : sys.design.body? p with
  | none => simp [hb] at ho
  | some b =>
      simp only [hb, Option.map_some, Option.getD_some] at ho
      split at inst
      · rename_i name target params kind
        cases inst
        exact ⟨b, hb, o, ho, name, params, kind⟩
      · cases inst

def isImport : Option (Call code) → Bool
  | some (.importModule _ _ _) => true
  | _ => false

/-- All that waits is generated without an error, and `Top` contains itself: `Leaf` instantiates it
when it is generated already. -/
theorem recursion_through_leaf :
    generationAnswer? (after entangled generating 18).control = some (.ok ()) ∧
      Relation.TransGen ((after entangled generating 18).workspace.Instantiates ⟨0⟩) "Top" "Top" ∧
      ¬ (after entangled generating 18).workspace.Instantiates ⟨0⟩ "Top" "Top" ∧
      ∃ q ∈ ["Leaf", "Top"], ∃ i < 18, Machine.Revisits ⟨0⟩ q (after entangled generating i) := by
  have edges : ((after entangled generating 18).workspace.system? ⟨0⟩).map
      (fun sys => (targets sys "Top", targets sys "Leaf")) = some (["Leaf"], ["Top"]) := by
    decide +kernel
  have imports : ∀ i < 18, isImport (after entangled generating i).control.call? = false := by
    decide +kernel
  have flat : ∀ i < 18, ∀ s op loc,
      (Machine.trace entangled (0 : Nat) (session generating) i).control.call? =
        some (.importModule s op loc) → op.Flat := by
    intro i lt s op loc calls
    have none := imports i lt
    unfold after at none
    rw [show (Machine.step entangled)^[i] (Machine.initial (0 : Nat) (session generating)) =
      Machine.trace entangled (0 : Nat) (session generating) i from rfl, calls] at none
    cases none
  obtain ⟨sys, hs, found⟩ := Option.map_eq_some_iff.mp edges
  obtain ⟨down, up⟩ := Prod.mk.inj found
  have top_leaf : (after entangled generating 18).workspace.Instantiates ⟨0⟩ "Top" "Leaf" :=
    ⟨sys, hs, instantiates_of_mem_targets (by simp [down])⟩
  have leaf_top : (after entangled generating 18).workspace.Instantiates ⟨0⟩ "Leaf" "Top" :=
    ⟨sys, hs, instantiates_of_mem_targets (by simp [up])⟩
  obtain ⟨irreflexive, closed⟩ :=
    Machine.cycles_revisit entangled (0 : Nat) (session generating) 18 flat ⟨0⟩ "Top"
  refine ⟨by decide +kernel, (Relation.TransGen.single top_leaf).tail leaf_top, irreflexive, ?_⟩
  by_contra none
  have first : ∀ q ∈ ["Leaf", "Top"], ∀ i < 18, ¬ Machine.Revisits ⟨0⟩ q
      (Machine.trace entangled (0 : Nat) (session generating) i) := fun q mem i lt revisits =>
    none ⟨q, mem, i, lt, revisits⟩
  exact closed ((Relation.TransGen.single ⟨top_leaf, first "Leaf" (by simp)⟩).tail
    ⟨leaf_top, first "Top" (by simp)⟩)

end Sample

end Hardware
