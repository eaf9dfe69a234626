import Hardware.Design.Building
import Hardware.Proofs.Effect
import Hardware.Proofs.NameSupply
import Hardware.Proofs.OrderedMap

/-!
What the building steps do to a design, seen through `findModule?`. Each step has one
law that tells its outcomes apart; a step that fails leaves the design as it was.
-/
namespace Hardware

namespace ModuleOp

@[simp] theorem withBody_sym (m : ModuleOp) (body : Option Block) :
    (m.withBody body).sym = m.sym := by
  unfold withBody
  split <;> rfl

@[simp] theorem withBody_inputs (m : ModuleOp) (body : Option Block) :
    (m.withBody body).inputs = m.inputs := by
  unfold withBody
  split <;> rfl

@[simp] theorem withBody_outputs (m : ModuleOp) (body : Option Block) :
    (m.withBody body).outputs = m.outputs := by
  unfold withBody
  split <;> rfl

@[simp] theorem withBody_isExternal (m : ModuleOp) (body : Option Block) :
    (m.withBody body).isExternal = m.isExternal := by
  obtain ⟨sym, inputs, outputs, attributes, loc, kind⟩ := m
  cases kind <;> rfl

@[simp] theorem withBody_params (m : ModuleOp) (body : Option Block) :
    (m.withBody body).params = m.params := by
  obtain ⟨sym, inputs, outputs, attributes, loc, kind⟩ := m
  cases kind <;> rfl

/-- A later body replaces an earlier one. -/
@[simp] theorem withBody_withBody (m : ModuleOp) (body body' : Option Block) :
    (m.withBody body).withBody body' = m.withBody body' := by
  obtain ⟨sym, inputs, outputs, attributes, loc, kind⟩ := m
  cases kind <;> rfl

theorem kind_withBody {m : ModuleOp} {old body : Option Block} (h : m.kind = .real old) :
    (m.withBody body).kind = .real body := by
  unfold withBody
  rw [h]

theorem withBody_of_kind {m : ModuleOp} {body : Option Block} (h : m.kind = .real body) :
    m.withBody body = m := by
  obtain ⟨sym, inputs, outputs, attributes, loc, kind⟩ := m
  cases h
  rfl

theorem body?_of_kind {m : ModuleOp} {body : Option Block} (h : m.kind = .real body) :
    m.body? = body := by
  unfold body?
  rw [h]

theorem kind_of_body? {m : ModuleOp} {b : Block} (h : m.body? = some b) :
    m.kind = .real (some b) := by
  unfold body? at h
  split at h
  · rename_i body hk
    rw [hk, h]
  · cases h

theorem body?_of_isExternal {m : ModuleOp} (h : m.isExternal = true) : m.body? = none := by
  unfold isExternal at h
  unfold body?
  split at h
  · rename_i params hk
    rw [hk]
  · cases h

/-- A module with the body that it has is the module itself. -/
theorem withBody_body? (m : ModuleOp) : m.withBody m.body? = m := by
  obtain ⟨sym, inputs, outputs, attributes, loc, kind⟩ := m
  cases kind <;> rfl

theorem body?_withBody_none (m : ModuleOp) : (m.withBody none).body? = none := by
  obtain ⟨sym, inputs, outputs, attributes, loc, kind⟩ := m
  cases kind <;> rfl

end ModuleOp

namespace Block

/-- No operation ends the body. -/
def IsOpen (b : Block) : Prop := ∀ op ∈ b.ops, op.isTerminator = false

/-- The last operation ends the body, and no other does. -/
def IsClosed (b : Block) : Prop :=
  ∃ init last, b.ops = init ++ [last] ∧ last.isTerminator = true ∧
    ∀ op ∈ init, op.isTerminator = false

theorem IsOpen.not_terminated {b : Block} (h : b.IsOpen) : b.isTerminated = false := by
  unfold isTerminated
  cases hl : b.ops.getLast? with
  | none => rfl
  | some op => exact h op (List.mem_of_getLast? hl)

theorem IsClosed.terminated {b : Block} (h : b.IsClosed) : b.isTerminated = true := by
  obtain ⟨init, last, hops, hlast, -⟩ := h
  simp [isTerminated, hops, hlast]

theorem IsClosed.inner {b : Block} (h : b.IsClosed) :
    b.ops.dropLast.any Operation.isTerminator = false := by
  obtain ⟨init, last, hops, -, inner⟩ := h
  simpa [hops] using inner

theorem isOpen_empty (args : List Value) : ({ args } : Block).IsOpen :=
  fun _ h => absurd h List.not_mem_nil

theorem IsOpen.push {b : Block} (h : b.IsOpen) {op : Operation} (hop : op.isTerminator = false) :
    (b.push op).IsOpen := by
  intro o ho
  rcases List.mem_append.mp ho with ho | ho
  · exact h o ho
  · rw [List.mem_singleton.mp ho]
    exact hop

theorem IsOpen.close {b : Block} (h : b.IsOpen) {op : Operation} (hop : op.isTerminator = true) :
    (b.push op).IsClosed := ⟨b.ops, op, rfl, hop, h⟩

/-- To change the operation that was just pushed is to push the changed one. -/
theorem modifyOp_push {b : Block} {op : Operation} (fresh : ∀ o ∈ b.ops, o.id ≠ op.id)
    (f : Operation → Operation) : (b.push op).modifyOp op.id f = b.push (f op) := by
  have listed : ∀ ops : List Operation, (∀ o ∈ ops, o.id ≠ op.id) →
      modifyOps op.id f (ops ++ [op]) = ops ++ [f op] := by
    intro ops
    induction ops with
    | nil => simp [modifyOps]
    | cons o ops ih =>
        intro h
        rw [List.cons_append, modifyOps, if_neg (h o (by simp)),
          ih fun o' h' => h o' (by simp [h'])]
        rfl
  simp only [modifyOp, push, listed b.ops fresh]

end Block

namespace Design

variable {d : Design}

@[simp] theorem findModule?_setBody (d : Design) (sym q : Ident) (body : Option Block) :
    (d.setBody sym body).findModule? q =
      if q = sym then (d.findModule? q).map fun m => m.withBody body else d.findModule? q := by
  unfold setBody modifyModule findModule?
  rw [OrderedMap.get?_modify]
  split
  · rename_i h
    rw [h]
  · rfl

/-- The next operation of a design. -/
def newOp (d : Design) (kind : OpKind) (operands : List Value) (types : List SignalType)
    (attributes : Attributes) (loc : Location) : Operation where
  id := ⟨d.nextOp⟩
  kind
  operands
  results := types.mapIdx fun i t => ⟨.result ⟨d.nextOp⟩ i, t⟩
  attributes
  loc

/-- `op` behind the operations of `b`, the body of `sym`. -/
def push (d : Design) (sym : Ident) (b : Block) (op : Operation) : Design :=
  { d.setBody sym (some (b.push op)) with nextOp := d.nextOp + 1 }

@[simp] theorem findModule?_push (d : Design) (sym q : Ident) (b : Block) (op : Operation) :
    (d.push sym b op).findModule? q =
      if q = sym then (d.findModule? q).map fun m => m.withBody (some (b.push op))
      else d.findModule? q :=
  findModule?_setBody d sym q _

theorem kind_of_body? {sym : Ident} {b : Block} (h : d.body? sym = some b) :
    ∃ op, d.findModule? sym = some op ∧ op.kind = .real (some b) := by
  obtain ⟨op, hop, hb⟩ := Option.bind_eq_some_iff.mp h
  exact ⟨op, hop, ModuleOp.kind_of_body? hb⟩

theorem body?_of_kind {sym : Ident} {op : ModuleOp} {body : Option Block}
    (h : d.findModule? sym = some op) (hk : op.kind = .real body) : d.body? sym = body := by
  unfold body?
  rw [h]
  exact ModuleOp.body?_of_kind hk

theorem body?_setBody_self {sym : Ident} {m : ModuleOp} {old : Option Block}
    (hm : d.findModule? sym = some m) (hk : m.kind = .real old) (body : Option Block) :
    (d.setBody sym body).body? sym = body := by
  unfold body?
  rw [findModule?_setBody, if_pos rfl, hm]
  exact ModuleOp.body?_of_kind (ModuleOp.kind_withBody hk)

theorem body?_setBody_ne {sym q : Ident} (h : q ≠ sym) (body : Option Block) :
    (d.setBody sym body).body? q = d.body? q := by
  unfold body?
  rw [findModule?_setBody, if_neg h]

theorem body?_setBody_none (d : Design) (sym : Ident) : (d.setBody sym none).body? sym = none := by
  unfold body?
  rw [findModule?_setBody, if_pos rfl]
  cases d.findModule? sym with
  | none => rfl
  | some m => exact ModuleOp.body?_withBody_none m

/-- To push is to change one body. -/
theorem body?_push {sym : Ident} {b : Block} (hb : d.body? sym = some b) (op : Operation)
    (q : Ident) : (d.push sym b op).body? q = if q = sym then some (b.push op) else d.body? q := by
  change (d.setBody sym _).body? q = _
  split
  · rename_i same
    obtain ⟨m, hm, hk⟩ := kind_of_body? hb
    rw [same, body?_setBody_self hm hk]
  · rename_i other
    rw [body?_setBody_ne other]

/-- An operation that was just pushed can be changed in place. -/
theorem modifyOp_push {sym : Ident} {b : Block} {op : Operation} (hb : d.body? sym = some b)
    (fresh : ∀ o ∈ b.ops, o.id ≠ op.id) (f : Operation → Operation) :
    (d.push sym b op).modifyOp sym op.id f = d.push sym b (f op) := by
  obtain ⟨m, hm, hk⟩ := kind_of_body? hb
  have entry : ∀ x : ModuleOp,
      ModuleOp.modifyBody (x.withBody (some (b.push op))) (fun b => b.modifyOp op.id f) =
        x.withBody (some (b.push (f op))) := by
    intro x
    obtain ⟨sym, inputs, outputs, attributes, loc, kind⟩ := x
    cases kind with
    | external params => rfl
    | real body =>
        simp only [ModuleOp.modifyBody, ModuleOp.withBody, ModuleOp.body?, Option.map_some,
          Block.modifyOp_push fresh]
  unfold modifyOp modifyBody push setBody modifyModule OrderedMap.modify
  simp only [List.map_map]
  congr 3
  funext e
  simp only [Function.comp_apply]
  split
  · simp [entry]
  · simp_all

section Building

theorem addModule_ends (d : Design) (op : ModuleOp) :
    (addModule op).Ends d
      (fun sym d' => sym = op.sym ∧ d.findModule? op.sym = none ∧
        d' = { d with
          symbols := d.symbols.reserve [op.sym], modules := d.modules.insert op.sym op })
      fun _ d' => d' = d ∧ d.findModule? op.sym ≠ none := by
  unfold addModule
  refine .bind ?_
  simp only [Effect.ends_get]
  split
  · rename_i h
    exact ⟨rfl, by simpa [OrderedMap.contains, findModule?, Option.isSome_iff_ne_none] using h⟩
  · rename_i h
    refine .bind (Effect.ends_set.mpr ⟨rfl, ?_, rfl⟩)
    simpa [OrderedMap.contains, findModule?] using h

theorem addEntryBlock_ends (d : Design) (sym : Ident) :
    (addEntryBlock sym).Ends d
      (fun args d' => ∃ op, d.findModule? sym = some op ∧ op.kind = .real none ∧
        args = entryArgs sym op.inputs ∧ d' = d.setBody sym (some { args }))
      fun _ d' => d' = d ∧ ¬ ∃ op, d.findModule? sym = some op ∧ op.kind = .real none := by
  unfold addEntryBlock
  refine .bind ?_
  simp only [Effect.ends_get]
  split
  · rename_i h
    exact ⟨rfl, by simp [h]⟩
  · rename_i op h
    split
    · rename_i hk
      exact ⟨rfl, by simp [h, hk]⟩
    · rename_i hk
      exact ⟨rfl, by simp [h, hk]⟩
    · rename_i hk
      exact .bind (Effect.ends_set.mpr ⟨op, h, hk, rfl, rfl⟩)

/-- A body is dropped unless the module is external or not there at all. It is gone in any case. -/
theorem clearBody_ends (d : Design) (sym : Ident) :
    (clearBody sym).Ends d (fun _ d' => d' = d.setBody sym none)
      fun _ d' => d' = d ∧ d.body? sym = none := by
  unfold clearBody
  refine .bind ?_
  simp only [Effect.ends_get]
  split
  · rename_i unknown
    exact ⟨rfl, by simp [body?, unknown]⟩
  · rename_i op known
    split
    · rename_i external
      refine .bind ⟨rfl, ?_⟩
      unfold body?
      rw [known]
      exact ModuleOp.body?_of_isExternal external
    · rfl

theorem openBlock_ok {ip : InsertionPoint} {b : Block} (h : d.openBlock ip = .ok b) :
    d.body? ip.owner = some b ∧ b.isTerminated = false := by
  unfold openBlock at h
  split at h
  · cases h
  · rename_i block hb
    split at h
    · cases h
    · rename_i ht
      cases h
      exact ⟨hb, by simpa using ht⟩

theorem openBlock_eq_ok {ip : InsertionPoint} {b : Block} (hb : d.body? ip.owner = some b)
    (opened : b.isTerminated = false) : d.openBlock ip = .ok b := by
  unfold openBlock
  rw [hb]
  simp only [opened]
  rfl

/-- A body grows at its end, and only where it is open. -/
theorem buildOp_ends (d : Design) (ip : InsertionPoint) (kind : OpKind) (operands : List Value)
    (types : List SignalType) (attributes : Attributes) (loc : Location) :
    (buildOp ip kind operands types attributes loc).Ends d
      (fun op d' => ∃ b, d.body? ip.owner = some b ∧ b.isTerminated = false ∧
        op = d.newOp kind operands types attributes loc ∧ d' = d.push ip.owner b op)
      fun _ d' => d' = d ∧ ∀ b, d.openBlock ip ≠ .ok b := by
  unfold buildOp
  refine .bind ?_
  simp only [Effect.ends_get]
  refine .bind (Effect.ends_ofExcept (fun b h => ?_) fun e h => ⟨rfl, fun b hb => ?_⟩)
  · obtain ⟨hb, ht⟩ := openBlock_ok h
    refine .bind (Effect.ends_set.mpr ?_)
    simp only [Block.push, List.getLast?_append, List.getLast?_singleton, Option.some_or]
    exact ⟨b, hb, ht, rfl, rfl⟩
  · rw [h] at hb
    cases hb

/-- A constant is held by the type that it is built with. -/
theorem buildConstant_ends (d : Design) (ip : InsertionPoint) (type : SignalType)
    (value : Constant) (loc : Location) :
    (buildConstant ip type value loc).Ends d
      (fun v d' => ∃ b, d.body? ip.owner = some b ∧ b.isTerminated = false ∧
        type.check value = .ok () ∧ v = ⟨.result ⟨d.nextOp⟩ 0, type⟩ ∧
        d' = d.push ip.owner b (d.newOp (.constant value) [] [type] .empty loc))
      fun _ d' => d' = d ∧ (type.check value ≠ .ok () ∨ ∀ b, d.openBlock ip ≠ .ok b) := by
  unfold buildConstant
  refine .bind (Effect.ends_ofExcept (fun _ h => ?_) fun e h => ⟨rfl, .inl fun fits => ?_⟩)
  · refine .bind ((buildOp_ends d ip _ _ _ _ loc).imp ?_ fun _ _ h => ⟨h.1, .inr h.2⟩)
    rintro op d' ⟨b, hb, ht, rfl, rfl⟩
    exact ⟨b, hb, ht, h, rfl, rfl⟩
  · rw [h] at fits
    cases fits

/-- An instance of another module of the design, with a result for each of its outputs. -/
theorem buildInstance_ends (d : Design) (ip : InsertionPoint) (target name : Ident)
    (inputs : List Value) (params : Option Attr) (loc : Location) :
    (buildInstance ip target name inputs params loc).Ends d
      (fun op d' => ∃ b t, d.body? ip.owner = some b ∧ b.isTerminated = false ∧
        target ≠ ip.owner ∧ d.findModule? target = some t ∧
        op = d.newOp (.inst name target params) inputs (t.outputs.map Port.type)
          (instanceAttributes name target) loc ∧
        d' = d.push ip.owner b op)
      fun _ d' => d' = d ∧ (target = ip.owner ∨ d.findModule? target = none ∨
        ∀ b, d.openBlock ip ≠ .ok b) := by
  unfold buildInstance
  split
  · rename_i self
    exact .bind ⟨rfl, .inl self⟩
  · rename_i other
    refine .bind ?_
    simp only [Effect.ends_get]
    split
    · rename_i unknown
      exact ⟨rfl, .inr (.inl unknown)⟩
    · rename_i t ht
      refine (buildOp_ends d ip _ _ _ _ loc).imp ?_ fun _ _ h => ⟨h.1, .inr (.inr h.2)⟩
      rintro op d' ⟨b, hb, hterm, rfl, rfl⟩
      exact ⟨b, t, hb, hterm, other, ht, rfl, rfl⟩

end Building

end Design

end Hardware
