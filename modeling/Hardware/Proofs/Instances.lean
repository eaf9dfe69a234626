import Hardware.Proofs.Builder
import Hardware.Proofs.WellFormed

/-!
Instances in a verified design. Verification compares the operands of an instance with the inputs
of its target, and does not look at the results. These agree with the outputs for each instance
that was built as one; for any other they are what the caller made them.
-/
namespace Hardware

namespace BuilderCall

/-- The call on `d` is given `o` by the caller: as an operation to be built, or in the body of a
module, and not as a copy. -/
def Hands (d : Design) (c : BuilderCall) (o : Operation) : Prop :=
  (∃ ip kind operands types attributes loc,
    c = .buildOp ip kind operands types attributes loc ∧
      o = d.newOp kind operands types attributes loc) ∨
  ∃ op b, c = .addModule op ∧ op.body? = some b ∧ o ∈ b.ops ∧
    ∀ q b, d.body? q = some b → o ∉ b.ops

end BuilderCall

namespace Design

variable {d d' : Design} {q : Ident} {b : Block} {o : Operation}

/-- The results of an instance are the outputs of its target. -/
def Answers (d : Design) (o : Operation) : Prop :=
  ∀ name target params, o.kind = .inst name target params →
    ∃ t, d.findModule? target = some t ∧ Connected t.outputs o.results

theorem Answers.mono (h : d.Answers o) (retains : d.Retains d') : d'.Answers o := by
  intro name target params hk
  obtain ⟨t, ht, connected⟩ := h name target params hk
  obtain ⟨body, ht'⟩ := retains target t ht
  exact ⟨t.withBody body, ht', by rwa [ModuleOp.withBody_outputs]⟩

/-- New results are of the types that were asked for. -/
theorem newOp_results_types (d : Design) (kind : OpKind) (operands : List Value)
    (types : List SignalType) (attributes : Attributes) (loc : Location) :
    (d.newOp kind operands types attributes loc).results.map Value.type = types := by
  refine List.ext_getElem (by simp [newOp]) fun i _ _ => ?_
  simp [newOp]

/-- An operation that a call makes is built as what it is, or handed over. -/
theorem answers_of_builds {c : BuilderCall} (built : c.Builds d q o) :
    d.Answers o ∨ c.Hands d o := by
  cases built with
  | op ip kind operands types attributes loc =>
      exact .inr (.inl ⟨ip, kind, operands, types, attributes, loc, rfl, rfl⟩)
  | constant => exact .inl nofun
  | inst ip target name inputs params loc t ht =>
      refine .inl ?_
      rintro _ _ _ ⟨⟩
      exact ⟨t, ht, connected_iff_map_eq.mpr (newOp_results_types d _ _ _ _ _).symm⟩
  | output => exact .inl nofun

/-- What stands in a body after a call stood in one before, or comes from the call. -/
theorem origin_after {c : BuilderCall} (hb : (c.after d).body? q = some b) (mem : o ∈ b.ops) :
    (∃ q b, d.body? q = some b ∧ o ∈ b.ops) ∨ d.Answers o ∨ c.Hands d o := by
  rcases (c.turns d).of_mem_body hb mem with ⟨b', hb', old⟩ | ⟨op, adds, held⟩ | ⟨built, -⟩
  · exact .inl ⟨q, b', hb', old⟩
  · by_cases copy : ∃ q b, d.body? q = some b ∧ o ∈ b.ops
    · exact .inl copy
    · push Not at copy
      exact .inr (.inr (.inr ⟨op, b, adds, held, mem, copy⟩))
  · exact .inr (answers_of_builds built)

/-- Whatever is built, the results of an instance are the outputs of its target, or it was handed
over. -/
theorem answers_run {name : Ident} (calls : List BuilderCall)
    (hb : (run { name } calls).body? q = some b) (mem : o ∈ b.ops) :
    (run { name } calls).Answers o ∨
      ∃ d c, (d, c) ∈ log { name } calls ∧ BuilderCall.Hands d c o := by
  induction calls using List.reverseRecOn generalizing q b with
  | nil => cases hb
  | append_singleton calls c ih =>
      rw [run_append] at hb ⊢
      rw [log_append]
      have retains := retains_run (run { name } calls) [c]
      rcases origin_after hb mem with ⟨q', b', hb', mem'⟩ | answers | handed
      · rcases ih hb' mem' with answers | ⟨d, c', logged, handed⟩
        · exact .inl (answers.mono retains)
        · exact .inr ⟨d, c', List.mem_append_left _ logged, handed⟩
      · exact .inl (answers.mono retains)
      · exact .inr ⟨_, c, List.mem_append_right _ List.mem_cons_self, handed⟩

/-- In a verified design an instance is connected to the inputs of its target. It is connected to
its outputs unless it was handed over. -/
theorem verified_instance {name : Ident} {calls : List BuilderCall}
    (verified : (run { name } calls).verify = .ok ()) {id : OpId}
    (found : (run { name } calls).findOp? q id = some o) {inst target : Ident}
    {params : Option Attr} (hk : o.kind = .inst inst target params) :
    ∃ t, (run { name } calls).findModule? target = some t ∧ Connected t.inputs o.operands ∧
      (Connected t.outputs o.results ∨
        ∃ d c, (d, c) ∈ log { name } calls ∧ BuilderCall.Hands d c o) := by
  obtain ⟨b, hb, here⟩ := Option.bind_eq_some_iff.mp found
  obtain ⟨m, hm, body⟩ := Option.bind_eq_some_iff.mp hb
  have mem : o ∈ b.ops := List.mem_of_find?_eq_some here
  have same : o.id = id := by simpa using List.find?_some here
  have ok := ((verifyModule_eq_ok_iff hm).mp (verify_eq_ok_iff.mp verified q m hm)).2 b body o mem
  have own : (m.body?.bind fun b => b.findOp? o.id) = some o := by
    rw [body, same]
    exact here
  have kind := ((verifyOp_eq_ok_iff hm own).mp ok).2
  simp only [checkKind, hk] at kind
  obtain ⟨t, ht, connected, -⟩ := checkInstance_eq_ok_iff.mp kind
  refine ⟨t, ht, connected, ?_⟩
  rcases answers_run calls hb mem with answers | handed
  · obtain ⟨t', ht', outputs⟩ := answers inst target params hk
    rw [ht] at ht'
    cases ht'
    exact .inl outputs
  · exact .inr handed

end Design

namespace Sample

def holder : ModuleOp where
  sym := "Holder"
  inputs := [⟨"x", .bits 8⟩]
  outputs := []
  attributes := .empty
  loc := .unknown
  kind := .real none

/-- An instance that the caller wants no results of. -/
def mute : Operation where
  id := ⟨0⟩
  kind := .inst "s" "Shifter" (some (.dict [("width", .int 8)]))
  operands := [⟨.arg "Holder" 0, .bits 8⟩]
  results := []
  attributes := .empty
  loc := .unknown

def muting : List BuilderCall := [
  .addModule shifter,
  .addModule holder,
  .addEntryBlock "Holder",
  .buildOp ⟨"Holder"⟩ mute.kind mute.operands [] .empty .unknown,
  .buildOutput ⟨"Holder"⟩ [] .unknown]

/-- The design verifies, although its instance lacks the result for an output of the target. -/
theorem verified_without_results :
    (Design.run { name := "d" } muting).verify = .ok () ∧ ¬ Connected shifter.outputs mute.results ∧
      ∃ d c, (d, c) ∈ Design.log { name := "d" } muting ∧ BuilderCall.Hands d c mute := by
  have verified : (Design.run { name := "d" } muting).verify = .ok () := by decide +kernel
  have found : (Design.run { name := "d" } muting).findOp? "Holder" ⟨0⟩ = some mute := by
    decide +kernel
  have target : (Design.run { name := "d" } muting).findModule? "Shifter" = some shifter := by
    decide +kernel
  have lacking : ¬ Connected shifter.outputs mute.results := nofun
  obtain ⟨t, ht, -, answered⟩ := Design.verified_instance verified found rfl
  rw [target] at ht
  cases ht
  exact ⟨verified, lacking, answered.resolve_left lacking⟩

end Sample

end Hardware
