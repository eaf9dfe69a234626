import Hardware.Proofs.Builder
import Hardware.Proofs.Wrapping

/-!
An operation is verified for good. What verification reads is the interfaces of modules and the
operations numbered before it in one body. Later calls change neither, because the numbers that
they give out are new.
-/
namespace Hardware

namespace BuilderCall

/-- The operands of the operation that a call makes. One that is built as such may name a module
that is not there yet, unless its kind is custom; it does not count here. -/
def operands? : BuilderCall → Option (List Value)
  | .buildOp _ (.custom _) operands _ _ _ => some operands
  | .buildConstant _ _ _ _ => some []
  | .buildInstance _ _ _ inputs _ _ => some inputs
  | .buildOutput _ values _ => some values
  | _ => none

/-- The call puts `op` at the end of the body of `q`. -/
def Appends (c : BuilderCall) (d : Design) (q : Ident) (op : Operation) : Prop :=
  ∃ b, d.body? q = some b ∧ (c.after d).body? q = some (b.push op)

variable {c : BuilderCall} {d : Design} {q : Ident} {op : Operation}

theorem Builds.operands {operands : List Value} (built : c.Builds d q op)
    (used : c.operands? = some operands) : op.operands = operands := by
  cases built with
  | op ip kind =>
      cases kind <;> cases used
      rfl
  | constant => exact Option.some_inj.mp used
  | inst => exact Option.some_inj.mp used
  | output => exact Option.some_inj.mp used

/-- An instance is made of a module of the design. -/
theorem Builds.target {operands : List Value} (built : c.Builds d q op)
    (used : c.operands? = some operands) {name target : Ident} {params : Option Attr}
    (hk : op.kind = .inst name target params) : ∃ t, d.findModule? target = some t := by
  cases built with
  | op ip kind =>
      cases kind <;> cases used
      cases hk
  | constant => cases hk
  | inst _ _ _ _ _ _ t ht =>
      cases hk
      exact ⟨t, ht⟩
  | output => cases hk

theorem Builds.below (built : c.Builds d q op) : op.Below (d.nextOp + 1) where
  id := by
    rw [built.id]
    exact Nat.lt_succ_self _
  results v hv id i source := by
    obtain ⟨j, result⟩ := built.results hv
    rw [source] at result
    cases result
    exact Nat.lt_succ_self _

theorem Appends.builds (h : c.Appends d q op) :
    c.Builds d q op ∧ (c.after d).nextOp = d.nextOp + 1 := by
  obtain ⟨b, hb, hpush⟩ := h
  rcases (c.turns d).of_body hb with same | ⟨-, dropped⟩ | ⟨op', built, hpush', next⟩
  · rw [same] at hpush
    have longer := congrArg (fun b => b.ops.length) (Option.some_inj.mp hpush)
    simp [Block.push] at longer
  · rw [dropped] at hpush
    cases hpush
  · have same : b.push op = b.push op' := Option.some_inj.mp (hpush.symm.trans hpush')
    have last := List.append_cancel_left (congrArg Block.ops same)
    rw [List.singleton_inj.mp last]
    exact ⟨built, next⟩

end BuilderCall

namespace Design

/-- The operations in the bodies of `d` have numbers that were given out. -/
def Numbered (d : Design) : Prop :=
  ∀ q b, d.body? q = some b → ∀ o ∈ b.ops, o.Below d.nextOp

/-- The modules that are added have no body, or are renamed copies of modules that the design has
or had. -/
def Plain (d : Design) (calls : List BuilderCall) : Prop :=
  ∀ i op, calls[i]? = some (.addModule op) → op.body? = none ∨
    ∃ j ≤ i, ∃ q m, (d.run (calls.take j)).findModule? q = some m ∧ op = { m with sym := op.sym }

variable {d d' : Design} {q : Ident}

theorem Numbered.after {c : BuilderCall} (h : d.Numbered)
    (added : ∀ op b, c = .addModule op → op.body? = some b → ∀ o ∈ b.ops, o.Below d.nextOp) :
    (c.after d).Numbered := by
  intro q b hb o ho
  have later := (c.turns d).nextOp_le
  rcases (c.turns d).of_mem_body hb ho with ⟨b', hb', old⟩ | ⟨op, adds, held⟩ | ⟨built, next⟩
  · exact (h q b' hb' o old).mono later
  · exact (added op b adds held o ho).mono later
  · exact next ▸ built.below

theorem nextOp_take_le (d : Design) (calls : List BuilderCall) {i j : Nat} (le : j ≤ i) :
    (d.run (calls.take j)).nextOp ≤ (d.run (calls.take i)).nextOp := by
  have split := List.take_append_drop j (calls.take i)
  rw [List.take_take, Nat.min_eq_left le] at split
  rw [← split, run_append]
  exact nextOp_le_run _ _

/-- Induction on the number of calls: a copy holds what a body held after fewer of them. -/
theorem Plain.numbered {calls : List BuilderCall} (plain : d.Plain calls) (h : d.Numbered) :
    (d.run calls).Numbered := by
  have prefixes : ∀ i, ∀ j ≤ i, (d.run (calls.take j)).Numbered := by
    intro i
    induction i with
    | zero =>
        intro j le
        rw [Nat.le_zero.mp le]
        exact h
    | succ i ih =>
        intro j le
        rcases Nat.le_or_eq_of_le_succ le with le | rfl
        · exact ih j le
        · rw [List.take_add_one, run_append]
          cases hc : calls[i]? with
          | none => exact ih i (Nat.le_refl i)
          | some c =>
              refine (ih i (Nat.le_refl i)).after fun op b added hb o ho => ?_
              rcases plain i op (by rw [hc, added]) with none | ⟨k, le, q, m, hm, copy⟩
              · rw [none] at hb
                cases hb
              · have held : m.body? = some b := (congrArg ModuleOp.body? copy).symm.trans hb
                have body : (d.run (calls.take k)).body? q = some b := by
                  unfold body?
                  rw [hm]
                  exact held
                exact (ih k le q b body o ho).mono (d.nextOp_take_le calls le)
  have all := prefixes calls.length calls.length (Nat.le_refl _)
  rwa [List.take_length] at all

/-- From `d` to `d'` the body of `q` has only grown, by operations with new numbers. -/
structure Prolongs (q : Ident) (d d' : Design) : Prop where
  retains : d.Retains d'
  nextOp : d.nextOp ≤ d'.nextOp
  body : ∀ b, d.body? q = some b → ∃ more, d'.body? q = some { b with ops := b.ops ++ more } ∧
    ∀ o ∈ more, d.nextOp ≤ o.id.index ∧ o.Below d'.nextOp

theorem Prolongs.refl (q : Ident) (d : Design) : Prolongs q d d where
  retains := .refl d
  nextOp := Nat.le_refl _
  body b hb := ⟨[], by rw [List.append_nil]; exact hb, nofun⟩

theorem Prolongs.trans {d'' : Design} (h : Prolongs q d d') (h' : Prolongs q d' d'') :
    Prolongs q d d'' where
  retains := h.retains.trans h'.retains
  nextOp := h.nextOp.trans h'.nextOp
  body b hb := by
    obtain ⟨more, hb', new⟩ := h.body b hb
    obtain ⟨more', hb'', new'⟩ := h'.body _ hb'
    refine ⟨more ++ more', ?_, ?_⟩
    · rw [hb'', List.append_assoc]
    · intro o ho
      rcases List.mem_append.mp ho with ho | ho
      · obtain ⟨later, below⟩ := new o ho
        exact ⟨later, below.mono h'.nextOp⟩
      · obtain ⟨later, below⟩ := new' o ho
        exact ⟨h.nextOp.trans later, below⟩

section Verification

variable {m m' : ModuleOp} {op : Operation}

/-- What comes later in a body does not define what was numbered before. -/
theorem findOp?_prolonged {b : Block} {more : List Operation} {id : OpId}
    (new : ∀ o ∈ more, o.id ≠ id) :
    ({ b with ops := b.ops ++ more } : Block).findOp? id = b.findOp? id := by
  have none : more.find? (fun o => o.id = id) = none :=
    List.find?_eq_none.mpr fun o ho => by simpa using new o ho
  unfold Block.findOp?
  rw [List.find?_append, none, Option.or_none]

/-- A module that has grown defines the same values with old numbers. -/
theorem defines_prolonged {n : Nat} (sym : m'.sym = m.sym) (inputs : m'.inputs = m.inputs)
    (found : ∀ id : OpId, id.index < n →
      (m'.body?.bind fun b => b.findOp? id) = m.body?.bind fun b => b.findOp? id)
    {v : Value} (old : v.Below n) : m'.defines v = m.defines v := by
  unfold ModuleOp.defines
  cases source : v.source with
  | arg owner i => simp only [sym, inputs]
  | result id i => simp only [found id (old id i source)]

theorem checkInstance_retained (h : d.Retains d') {name target : Ident} {params : Option Attr}
    {t : ModuleOp} (ht : d.findModule? target = some t) :
    d'.checkInstance name target params op = d.checkInstance name target params op := by
  obtain ⟨body, ht'⟩ := h target t ht
  unfold checkInstance
  rw [ht, ht']
  simp only [ModuleOp.withBody_inputs, ModuleOp.withBody_params]

theorem checkKind_retained (h : d.Retains d') (body : Option Block)
    (target : ∀ name target params, op.kind = .inst name target params →
      ∃ t, d.findModule? target = some t) :
    d'.checkKind (m.withBody body) op = d.checkKind m op := by
  unfold checkKind
  cases hk : op.kind with
  | constant value => rfl
  | inst name sym params =>
      obtain ⟨t, ht⟩ := target name sym params hk
      exact checkInstance_retained h ht
  | output => simp only [ModuleOp.withBody_outputs, ModuleOp.withBody_sym]
  | symbolMetadata symbol => rfl
  | custom name => rfl

/-- `op` stands in the body of `q` under its number. All numbers there were given out, those of its
operands too, and if it is an instance then of a module of the design. -/
structure Stands (d : Design) (q : Ident) (op : Operation) : Prop where
  placed : ∃ b, d.body? q = some b ∧ b.findOp? op.id = some op ∧ ∀ o ∈ b.ops, o.Below d.nextOp
  operands : ∀ v ∈ op.operands, v.Below d.nextOp
  target : ∀ name target params, op.kind = .inst name target params →
    ∃ t, d.findModule? target = some t

/-- While a body only grows, what stands in it stays there. -/
theorem Prolongs.stands (p : Prolongs q d d') (h : d.Stands q op) : d'.Stands q op where
  placed := by
    obtain ⟨b, hb, found, below⟩ := h.placed
    obtain ⟨more, hb', new⟩ := p.body b hb
    refine ⟨_, hb', ?_, ?_⟩
    · unfold Block.findOp? at found ⊢
      rw [List.find?_append, found, Option.some_or]
    · intro o ho
      rcases List.mem_append.mp ho with old | later
      · exact (below o old).mono p.nextOp
      · exact (new o later).2
  operands v hv := (h.operands v hv).mono p.nextOp
  target name target params hk := by
    obtain ⟨t, ht⟩ := h.target name target params hk
    obtain ⟨body, ht'⟩ := p.retains target t ht
    exact ⟨_, ht'⟩

/-- While a body only grows, verification of what stands in it gives the same answer. -/
theorem Prolongs.verifyOp (p : Prolongs q d d') (h : d.Stands q op) :
    d'.verifyOp q op.id = d.verifyOp q op.id := by
  obtain ⟨b, hb, found, below⟩ := h.placed
  obtain ⟨m, hm, hk⟩ := kind_of_body? hb
  obtain ⟨body, hm'⟩ := p.retains q m hm
  obtain ⟨more, hb', new⟩ := p.body b hb
  have body' : (m.withBody body).body? = some { b with ops := b.ops ++ more } := by
    rw [← hb', body?, hm', Option.bind_some]
  have same : ∀ id : OpId, id.index < d.nextOp →
      ((m.withBody body).body?.bind fun b => b.findOp? id) = m.body?.bind fun b => b.findOp? id := by
    intro id old
    rw [body', ModuleOp.body?_of_kind hk, Option.bind_some, Option.bind_some]
    refine findOp?_prolonged fun o ho e => ?_
    have later := (new o ho).1
    rw [e] at later
    omega
  have scope : checkOperands (m.withBody body) op = checkOperands m op := by
    refine forM_congr fun v hv => ?_
    rw [defines_prolonged (m.withBody_sym body) (m.withBody_inputs body) same (h.operands v hv),
      ModuleOp.withBody_sym]
  have here : (m.body?.bind fun b => b.findOp? op.id) = some op := by
    rw [ModuleOp.body?_of_kind hk]
    exact found
  have numbered := (below op (List.mem_of_find?_eq_some found)).id
  unfold Design.verifyOp
  simp only [hm, hm', same op.id numbered, here, scope, checkKind_retained p.retains body h.target]

end Verification

end Design

namespace Sample

/-- A module that puts out a byte. -/
def source (sym : Ident) (body : Option Block) : ModuleOp where
  sym
  inputs := []
  outputs := [⟨"y", .bits 8⟩]
  attributes := .empty
  loc := .unknown
  kind := .real body

def five : Value := ⟨.result ⟨0⟩ 0, .bits 8⟩

end Sample

end Hardware
