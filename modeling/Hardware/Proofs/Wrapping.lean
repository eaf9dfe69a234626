import Hardware.Proofs.Verification

/-!
Numbers of operations in words of 32 bits. The model counts operations without a bound. A machine
keeps its counter, and every number that was taken from it, in a word, where the count starts anew
after `2 ^ 32` operations; `Design.wrap` is a design as such words hold it. What is looked up and
verified there is what is looked up and verified in the design itself, if the numbers at hand are
all below the limit.
-/
namespace Hardware

def OpId.wrap (id : OpId) : OpId := ⟨id.index % 2 ^ 32⟩

namespace Value

def wrap (v : Value) : Value :=
  match v.source with
  | .arg _ _ => v
  | .result id i => { v with source := .result id.wrap i }

/-- The value is an argument, or a result of an operation with a number below `n`. -/
def Below (n : Nat) (v : Value) : Prop := ∀ id i, v.source = .result id i → id.index < n

end Value

namespace Operation

def wrap (op : Operation) : Operation :=
  { op with
    id := op.id.wrap
    operands := op.operands.map Value.wrap
    results := op.results.map Value.wrap }

/-- The operation and its results have numbers below `n`. Operands may come from elsewhere. -/
structure Below (n : Nat) (op : Operation) : Prop where
  id : op.id.index < n
  results : ∀ v ∈ op.results, v.Below n

end Operation

def Block.wrap (b : Block) : Block where
  args := b.args.map Value.wrap
  ops := b.ops.map Operation.wrap

def ModuleOp.wrap (m : ModuleOp) : ModuleOp := m.modifyBody Block.wrap

def Design.wrap (d : Design) : Design :=
  { d with
    modules := ⟨d.modules.entries.map fun e => (e.1, e.2.wrap)⟩
    metadata := d.metadata.map Operation.wrap
    nextOp := d.nextOp % 2 ^ 32 }

theorem OpId.wrap_eq {id : OpId} (h : id.index < 2 ^ 32) : id.wrap = id := by
  unfold wrap
  rw [Nat.mod_eq_of_lt h]

namespace Value

variable {v : Value} {m n : Nat}

theorem Below.mono (h : v.Below m) (le : m ≤ n) : v.Below n :=
  fun id i source => (h id i source).trans_le le

theorem Below.wrap_eq (h : v.Below (2 ^ 32)) : v.wrap = v := by
  unfold wrap
  split
  · rfl
  · rename_i id i source
    rw [OpId.wrap_eq (h id i source), ← source]

theorem wrap_values {vs : List Value} (h : ∀ v ∈ vs, v.Below (2 ^ 32)) : vs.map wrap = vs :=
  (List.map_congr_left fun v hv => (h v hv).wrap_eq).trans (List.map_id vs)

end Value

namespace Operation

variable {op : Operation} {m n : Nat}

theorem Below.mono (h : op.Below m) (le : m ≤ n) : op.Below n where
  id := h.id.trans_le le
  results v hv := (h.results v hv).mono le

/-- An operation that uses and makes values with small numbers is held as it is. -/
theorem Below.wrap_eq (h : op.Below (2 ^ 32)) (operands : ∀ v ∈ op.operands, v.Below (2 ^ 32)) :
    op.wrap = op := by
  unfold wrap
  rw [OpId.wrap_eq h.id, Value.wrap_values operands, Value.wrap_values h.results]

end Operation

/-- Where all numbers are small, an operation is found in words just as it is found by number. -/
theorem Block.findOp?_wrap {b : Block} (below : ∀ o ∈ b.ops, o.id.index < 2 ^ 32) (id : OpId) :
    b.wrap.findOp? id = (b.findOp? id).map Operation.wrap := by
  unfold findOp? wrap
  rw [List.find?_map]
  refine congrArg _ (List.find?_congr fun o ho => ?_)
  simp only [Function.comp_apply, Operation.wrap, OpId.wrap_eq (below o ho)]

namespace ModuleOp

theorem body?_wrap (m : ModuleOp) : m.wrap.body? = m.body?.map Block.wrap := by
  obtain ⟨sym, inputs, outputs, attributes, loc, kind⟩ := m
  cases kind <;> rfl

theorem findOp?_wrap {m : ModuleOp} {b : Block} (hb : m.body? = some b)
    (below : ∀ o ∈ b.ops, o.id.index < 2 ^ 32) (id : OpId) :
    (m.wrap.body?.bind fun b => b.findOp? id) = (b.findOp? id).map Operation.wrap := by
  rw [body?_wrap, hb]
  exact Block.findOp?_wrap below id

end ModuleOp

namespace Design

variable {d : Design} {q : Ident}

theorem findModule?_wrap (d : Design) (q : Ident) :
    d.wrap.findModule? q = (d.findModule? q).map ModuleOp.wrap := by
  unfold findModule? OrderedMap.get? wrap
  dsimp only
  generalize d.modules.entries = es
  induction es with
  | nil => rfl
  | cons e es ih =>
      obtain ⟨r, m⟩ := e
      simp only [List.map_cons, OrderedMap.lookup_cons_if, ih]
      split <;> rfl

/-- An operation is found in words as it is found by number. -/
theorem findOp?_wrap {b : Block} (hb : d.body? q = some b)
    (below : ∀ o ∈ b.ops, o.id.index < 2 ^ 32) (id : OpId) :
    d.wrap.findOp? q id = (d.findOp? q id).map Operation.wrap := by
  obtain ⟨m, hm, body⟩ := Option.bind_eq_some_iff.mp hb
  unfold findOp? body?
  rw [findModule?_wrap, hm]
  simp only [Option.map_some, Option.bind_some, body]
  exact ModuleOp.findOp?_wrap body below id

end Design

end Hardware
