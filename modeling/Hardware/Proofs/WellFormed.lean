import Hardware.Proofs.Constants

/-!
What verification accepts. A design verifies just if it is well formed, and that is said here
without the verifier: of a body by what stands in it, of an operation by what it uses and names.
-/
namespace Hardware

/-- One value for each port, and of its type. -/
def Connected (ports : List Port) (values : List Value) : Prop :=
  List.Forall₂ (fun p v => p.type = v.type) ports values

theorem connected_iff_map_eq {ports : List Port} {values : List Value} :
    Connected ports values ↔ ports.map Port.type = values.map Value.type := by
  rw [← List.forall₂_eq_eq_eq, List.forall₂_map_left_iff, List.forall₂_map_right_iff]
  rfl

/-- The first entry under `name` in the dictionary `params` is `v`. -/
def Binds (params : Option Attr) (name : Ident) (v : Attr) : Prop :=
  ∃ before after, params = some (.dict (before ++ (name, v) :: after)) ∧
    ∀ e ∈ before, e.1 ≠ name

/-- What operations in the body of `m` may use: an argument, of the type of that input, or a
result of an operation in the same body. A result is named by the number of its operation and by
its position there. -/
def ModuleOp.InScope (m : ModuleOp) (v : Value) : Prop :=
  match v.source with
  | .arg owner i => owner = m.sym ∧ ∃ port, m.inputs[i]? = some port ∧ port.type = v.type
  | .result id i => ∃ b op, m.body? = some b ∧ op ∈ b.ops ∧ op.id = id ∧ op.results[i]? = some v

/-- `v` is an argument of `m`, of the type of that input, or stands among the results of some
operation in its body, at the position that it names. -/
def ModuleOp.MadeWithin (m : ModuleOp) (v : Value) : Prop :=
  match v.source with
  | .arg owner i => owner = m.sym ∧ ∃ port, m.inputs[i]? = some port ∧ port.type = v.type
  | .result _ i => ∃ b op, m.body? = some b ∧ op ∈ b.ops ∧ op.results[i]? = some v

namespace Design

/-- An operation in the body of `m` agrees with what it names: a constant with the type of its
first result, an instance with its target, and an output with `m`. -/
structure Agrees (d : Design) (m : ModuleOp) (op : Operation) : Prop where
  constant : ∀ c, op.kind = .constant c → ∃ r ∈ op.results.head?, r.type.Holds c
  inst : ∀ name target params, op.kind = .inst name target params →
    ∃ t, d.findModule? target = some t ∧ Connected t.inputs op.operands ∧
      ∀ p ∈ t.params, ∃ v, Binds params p.name v ∧ v.paramKind = p.kind
  output : op.kind = .output → Connected m.outputs op.operands

/-- What is asked of an operation in the body of `m`. -/
structure Fits (d : Design) (m : ModuleOp) (op : Operation) : Prop extends d.Agrees m op where
  operands : ∀ v ∈ op.operands, m.InScope v

/-- Each real module has a body that ends in its only terminator, and each operation in a body
fits there. -/
structure WellFormed (d : Design) : Prop where
  closed : ∀ q m, d.findModule? q = some m → m.isExternal = false →
    ∃ b, m.body? = some b ∧ b.IsClosed
  fits : ∀ q m b, d.findModule? q = some m → m.body? = some b → ∀ op ∈ b.ops, d.Fits m op

/-- As `WellFormed`, but a result that is used may be one of any operation in the body. The two
differ where results were exchanged between operations after these were built. -/
structure LooselyFormed (d : Design) : Prop where
  closed : ∀ q m, d.findModule? q = some m → m.isExternal = false →
    ∃ b, m.body? = some b ∧ b.IsClosed
  agrees : ∀ q m b, d.findModule? q = some m → m.body? = some b → ∀ op ∈ b.ops, d.Agrees m op
  operands : ∀ q m b, d.findModule? q = some m → m.body? = some b → ∀ op ∈ b.ops,
    ∀ v ∈ op.operands, m.MadeWithin v

end Design

namespace Block

variable {b : Block} {op : Operation} {id : OpId}

/-- Where no number comes twice, each operation is found under its own. -/
theorem findOp?_eq_some_iff (distinct : (b.ops.map Operation.id).Nodup) :
    b.findOp? id = some op ↔ op ∈ b.ops ∧ op.id = id := by
  constructor
  · intro found
    exact ⟨List.mem_of_find?_eq_some found, by simpa using List.find?_some found⟩
  · rintro ⟨mem, rfl⟩
    unfold findOp?
    generalize b.ops = ops at distinct mem
    induction ops with
    | nil => cases mem
    | cons o ops ih =>
        obtain ⟨fresh, distinct⟩ := List.nodup_cons.mp distinct
        rcases List.mem_cons.mp mem with rfl | mem
        · exact List.find?_cons_of_pos (by simp)
        · have other : o.id ≠ op.id := fun same => fresh (same ▸ List.mem_map_of_mem mem)
          rw [List.find?_cons_of_neg (by simpa using other)]
          exact ih distinct mem

theorem isClosed_iff : b.IsClosed ↔
    b.isTerminated = true ∧ b.ops.dropLast.any Operation.isTerminator = false := by
  constructor
  · intro closed
    exact ⟨closed.terminated, closed.inner⟩
  · intro ⟨terminated, inner⟩
    rcases List.eq_nil_or_concat' b.ops with empty | ⟨init, last, split⟩
    · simp [isTerminated, empty] at terminated
    · refine ⟨init, last, split, ?_, ?_⟩
      · simpa [isTerminated, split] using terminated
      · simpa [split] using inner

end Block

theorem ModuleOp.defines_iff_inScope {m : ModuleOp}
    (distinct : ∀ b, m.body? = some b → (b.ops.map Operation.id).Nodup) (v : Value) :
    m.defines v = true ↔ m.InScope v := by
  unfold defines InScope
  cases v.source with
  | arg owner i => simp [Option.map_eq_some_iff]
  | result id i =>
      simp only [decide_eq_true_eq, Option.bind_eq_some_iff]
      constructor
      · rintro ⟨op, ⟨b, hb, found⟩, result⟩
        obtain ⟨mem, same⟩ := (Block.findOp?_eq_some_iff (distinct b hb)).mp found
        exact ⟨b, op, hb, mem, same, result⟩
      · rintro ⟨b, op, hb, mem, same, result⟩
        exact ⟨op, ⟨b, hb, (Block.findOp?_eq_some_iff (distinct b hb)).mpr ⟨mem, same⟩⟩, result⟩

namespace Design

variable {d : Design} {m : ModuleOp} {op : Operation} {q : Ident}

theorem boundParam_eq_some_iff {params : Option Attr} {name : Ident} {v : Attr} :
    boundParam params name = some v ↔ Binds params name v := by
  unfold boundParam
  constructor
  · intro bound
    obtain ⟨entries, dict, found⟩ := Option.bind_eq_some_iff.mp bound
    obtain ⟨before, after, rfl, first⟩ := List.lookup_eq_some_iff.mp found
    obtain ⟨attr, rfl, entries⟩ := Option.bind_eq_some_iff.mp dict
    refine ⟨before, after, ?_, ?_⟩
    · cases attr <;> cases entries
      rfl
    · intro e he same
      simpa [same] using first e he
  · rintro ⟨before, after, rfl, first⟩
    refine List.lookup_eq_some_iff.mpr ⟨before, after, rfl, ?_⟩
    intro e he
    simpa using (first e he).symm

theorem checkInstanceParams_eq_ok_iff {name : Ident} {params : Option Attr}
    {decls : List ParamDecl} : checkInstanceParams name params decls op = .ok () ↔
      ∀ p ∈ decls, ∃ v, Binds params p.name v ∧ v.paramKind = p.kind := by
  rw [checkInstanceParams, forM_eq_ok_iff]
  refine forall₂_congr fun p _ => ?_
  simp only [← boundParam_eq_some_iff]
  cases boundParam params p.name with
  | none => exact iff_of_false throw_ne_ok (by simp)
  | some v => simp only [ite_ok_eq_ok_iff, Option.some_inj, exists_eq_left']

theorem checkInstanceInputs_eq_ok_iff {name : Ident} {ports : List Port}
    (length : ports.length = op.operands.length) :
    checkInstanceInputs name ports op = .ok () ↔ Connected ports op.operands := by
  rw [checkInstanceInputs, forM_eq_ok_iff, Connected, List.forall₂_iff_zip]
  simp only [ite_ok_eq_ok_iff, Prod.forall, length, true_and]

theorem checkInstance_eq_ok_iff {name target : Ident} {params : Option Attr} :
    d.checkInstance name target params op = .ok () ↔
      ∃ t, d.findModule? target = some t ∧ Connected t.inputs op.operands ∧
        ∀ p ∈ t.params, ∃ v, Binds params p.name v ∧ v.paramKind = p.kind := by
  unfold checkInstance
  cases d.findModule? target with
  | none => exact iff_of_false throw_ne_ok (by simp)
  | some t =>
      simp only [Option.some_inj, exists_eq_left', guard_eq_ok_iff, not_not, bind_eq_ok_iff,
        checkInstanceParams_eq_ok_iff]
      rw [← and_assoc, and_congr_left_iff]
      intro _
      constructor
      · intro ⟨length, inputs⟩
        exact (checkInstanceInputs_eq_ok_iff length).mp inputs
      · intro connected
        have length := List.Forall₂.length_eq connected
        exact ⟨length, (checkInstanceInputs_eq_ok_iff length).mpr connected⟩

/-- A constant needs a result to be compared with. -/
theorem checkKind_eq_ok_iff (results : ∀ c, op.kind = .constant c → op.results ≠ []) :
    d.checkKind m op = .ok () ↔ d.Agrees m op := by
  unfold checkKind
  cases hk : op.kind with
  | constant c =>
      obtain ⟨r, rs, hr⟩ := List.exists_cons_of_ne_nil (results c hk)
      simp only [hr, SignalType.check_eq_ok_iff]
      constructor
      · intro holds
        constructor <;> simp [hk, hr, holds]
      · intro agrees
        simpa [hr] using agrees.constant c hk
  | inst name target params =>
      simp only [checkInstance_eq_ok_iff]
      constructor
      · intro fits
        constructor <;> simp [hk, fits]
      · intro agrees
        exact agrees.inst name target params hk
  | output =>
      simp only [ite_ok_eq_ok_iff, ← connected_iff_map_eq]
      constructor
      · intro connected
        constructor <;> simp [hk, connected]
      · intro agrees
        exact agrees.output hk
  | symbolMetadata symbol => exact iff_of_true rfl (by constructor <;> simp [hk])
  | custom name => exact iff_of_true rfl (by constructor <;> simp [hk])

theorem checkOperands_eq_ok_iff :
    checkOperands m op = .ok () ↔ ∀ v ∈ op.operands, m.defines v = true := by
  rw [checkOperands, forM_eq_ok_iff]
  simp only [ite_ok_eq_ok_iff]

theorem verifyOp_eq_ok_iff {id : OpId} (hm : d.findModule? q = some m)
    (found : (m.body?.bind fun b => b.findOp? id) = some op) :
    d.verifyOp q id = .ok () ↔ checkOperands m op = .ok () ∧ d.checkKind m op = .ok () := by
  unfold verifyOp
  simp only [hm, found, bind_eq_ok_iff]

/-- Where no number comes twice, an operation verifies just if it fits. -/
theorem verifyOp_eq_ok_iff_fits (hm : d.findModule? q = some m)
    (distinct : ∀ b, m.body? = some b → (b.ops.map Operation.id).Nodup) {b : Block}
    (hb : m.body? = some b) (mem : op ∈ b.ops)
    (results : ∀ c, op.kind = .constant c → op.results ≠ []) :
    d.verifyOp q op.id = .ok () ↔ d.Fits m op := by
  have found : (m.body?.bind fun b => b.findOp? op.id) = some op := by
    rw [hb]
    exact (Block.findOp?_eq_some_iff (distinct b hb)).mpr ⟨mem, rfl⟩
  rw [verifyOp_eq_ok_iff hm found, checkOperands_eq_ok_iff, checkKind_eq_ok_iff results]
  simp only [ModuleOp.defines_iff_inScope distinct]
  constructor
  · intro ⟨operands, agrees⟩
    exact { agrees with operands }
  · intro fits
    exact ⟨fits.operands, fits.toAgrees⟩

theorem verifyModule_eq_ok_iff (hm : d.findModule? q = some m) :
    d.verifyModule q = .ok () ↔ (m.isExternal = false → ∃ b, m.body? = some b ∧ b.IsClosed) ∧
      ∀ b, m.body? = some b → ∀ op ∈ b.ops, d.verifyOp q op.id = .ok () := by
  unfold verifyModule ModuleOp.isExternal ModuleOp.body?
  simp only [hm]
  cases m.kind with
  | external params => simp [pure, Except.pure]
  | real body =>
      cases body with
      | none => exact iff_of_false throw_ne_ok (by simp)
      | some b =>
          simp only [guard_eq_ok_iff, forM_eq_ok_iff, Bool.not_eq_true', Bool.not_eq_true,
            Bool.not_eq_false, forall_const, Option.some_inj, exists_eq_left', forall_eq',
            Block.isClosed_iff, and_assoc]

theorem verify_eq_ok_iff : d.verify = .ok () ↔
    ∀ q m, d.findModule? q = some m → d.verifyModule q = .ok () := by
  rw [verify, forM_eq_ok_iff]
  simp only [OrderedMap.mem_keys_iff, Option.isSome_iff_exists, forall_exists_index]
  rfl

/-- Where no number comes twice in a body and each constant has a result, a design verifies just
if it is well formed. -/
theorem verify_eq_ok_iff_wellFormed
    (distinct : ∀ q m b, d.findModule? q = some m → m.body? = some b →
      (b.ops.map Operation.id).Nodup)
    (results : ∀ q m b, d.findModule? q = some m → m.body? = some b →
      ∀ op ∈ b.ops, ∀ c, op.kind = .constant c → op.results ≠ []) :
    d.verify = .ok () ↔ d.WellFormed := by
  rw [verify_eq_ok_iff]
  constructor
  · intro verified
    constructor
    · intro q m hm
      exact ((verifyModule_eq_ok_iff hm).mp (verified q m hm)).1
    · intro q m b hm hb op mem
      have ok := ((verifyModule_eq_ok_iff hm).mp (verified q m hm)).2 b hb op mem
      exact (verifyOp_eq_ok_iff_fits hm (distinct q m · hm) hb mem (results q m b hm hb op mem)).mp ok
  · intro formed q m hm
    refine (verifyModule_eq_ok_iff hm).mpr ⟨formed.closed q m hm, ?_⟩
    intro b hb op mem
    exact (verifyOp_eq_ok_iff_fits hm (distinct q m · hm) hb mem (results q m b hm hb op mem)).mpr
      (formed.fits q m b hm hb op mem)

end Design

namespace Sample

def byteOf (id : OpId) : Value := ⟨.result id 0, .bits 8⟩

/-- An external module with a byte in, a byte out and a width. -/
def shifter : ModuleOp where
  sym := "Shifter"
  inputs := [⟨"a", .bits 8⟩]
  outputs := [⟨"y", .bits 8⟩]
  attributes := .empty
  loc := .unknown
  kind := .external [⟨"width", .integer⟩]

/-- A module that puts a constant through an instance of the other. -/
def shifting : ModuleOp where
  sym := "Shifting"
  inputs := []
  outputs := [⟨"y", .bits 8⟩]
  attributes := .empty
  loc := .unknown
  kind :=
    let width : Attr := .dict [("width", .int 8), ("width", .unit)]
    .real (some { ops := [
      ⟨⟨0⟩, .constant (.int 5), [], [byteOf ⟨0⟩], .empty, .unknown⟩,
      ⟨⟨1⟩, .inst "s" "Shifter" (some width), [byteOf ⟨0⟩], [byteOf ⟨1⟩], .empty, .unknown⟩,
      ⟨⟨2⟩, .output, [byteOf ⟨1⟩], [], .empty, .unknown⟩] })

def shifters : Design :=
  { name := "d", modules := ⟨[("Shifter", shifter), ("Shifting", shifting)]⟩ }

theorem wellFormed_shifters : shifters.WellFormed := by
  have listed : ∀ q m b, shifters.findModule? q = some m → m.body? = some b →
      b ∈ shifters.modules.entries.filterMap fun e => e.2.body? := by
    intro q m b hm hb
    exact List.mem_filterMap.mpr ⟨(q, m), OrderedMap.mem_entries_of_get? hm, hb⟩
  have distinct : ∀ q m b, shifters.findModule? q = some m → m.body? = some b →
      (b.ops.map Operation.id).Nodup := by
    intro q m b hm hb
    have all : ∀ b ∈ shifters.modules.entries.filterMap fun e => e.2.body?,
        (b.ops.map Operation.id).Nodup := by decide
    exact all b (listed q m b hm hb)
  have results : ∀ q m b, shifters.findModule? q = some m → m.body? = some b →
      ∀ op ∈ b.ops, ∀ c, op.kind = .constant c → op.results ≠ [] := by
    intro q m b hm hb op mem c hk
    have all : ∀ b ∈ shifters.modules.entries.filterMap fun e => e.2.body?,
        ∀ op ∈ b.ops, op.results = [] → op.kind = .output := by decide
    intro empty
    rw [all b (listed q m b hm hb) op mem empty] at hk
    cases hk
  exact (Design.verify_eq_ok_iff_wellFormed distinct results).mp (by decide +kernel)

/-- Two constants that each have the result of the other, and an output that uses one of them. -/
def crossedBody : Block where
  ops := [
    ⟨⟨0⟩, .constant (.int 5), [], [byteOf ⟨1⟩], .empty, .unknown⟩,
    ⟨⟨1⟩, .constant (.int 6), [], [byteOf ⟨0⟩], .empty, .unknown⟩,
    ⟨⟨2⟩, .output, [byteOf ⟨0⟩], [], .empty, .unknown⟩]

def crossed : ModuleOp where
  sym := "Crossed"
  inputs := []
  outputs := [⟨"y", .bits 8⟩]
  attributes := .empty
  loc := .unknown
  kind := .real (some crossedBody)

def crossing : Design := { name := "d", modules := ⟨[("Crossed", crossed)]⟩ }

/-- It is not enough that some operation of the body has the value that is used: it must be the
operation of that number. -/
theorem loosely_formed_refused :
    (∀ q m b, crossing.findModule? q = some m → m.body? = some b →
      (b.ops.map Operation.id).Nodup) ∧
    (∀ q m b, crossing.findModule? q = some m → m.body? = some b →
      ∀ op ∈ b.ops, ∀ c, op.kind = .constant c → op.results ≠ []) ∧
    crossing.LooselyFormed ∧ crossing.verify ≠ .ok () := by
  have only : ∀ q m, crossing.findModule? q = some m → m = crossed := by
    intro q m hm
    have mem : (q, m) ∈ [("Crossed", crossed)] := OrderedMap.mem_entries_of_get? hm
    exact congrArg Prod.snd (List.mem_singleton.mp mem)
  have body : ∀ q m b, crossing.findModule? q = some m → m.body? = some b →
      m = crossed ∧ b = crossedBody := by
    intro q m b hm hb
    cases only q m hm
    exact ⟨rfl, (Option.some.inj hb).symm⟩
  have results : ∀ op ∈ crossedBody.ops, ∀ c, op.kind = .constant c → op.results ≠ [] := by
    have all : ∀ op ∈ crossedBody.ops, op.results = [] → op.kind = .output := by decide
    intro op mem c hk empty
    rw [all op mem empty] at hk
    cases hk
  refine ⟨?_, ?_, ?_, by decide +kernel⟩
  · intro q m b hm hb
    cases (body q m b hm hb).2
    decide
  · intro q m b hm hb
    cases (body q m b hm hb).2
    exact results
  constructor
  case closed =>
    intro q m hm _
    cases only q m hm
    exact ⟨crossedBody, rfl, Block.isClosed_iff.mpr (by decide)⟩
  case agrees =>
    intro q m b hm hb op mem
    obtain ⟨rfl, rfl⟩ := body q m b hm hb
    have checked : ∀ op ∈ crossedBody.ops, crossing.checkKind crossed op = .ok () := by
      decide +kernel
    exact (Design.checkKind_eq_ok_iff (results op mem)).mp (checked op mem)
  case operands =>
    intro q m b hm hb op mem v hv
    obtain ⟨rfl, rfl⟩ := body q m b hm hb
    have used : ∀ op ∈ crossedBody.ops, ∀ v ∈ op.operands, v = byteOf ⟨0⟩ := by decide
    cases used op mem v hv
    exact ⟨crossedBody, ⟨⟨1⟩, .constant (.int 6), [], [byteOf ⟨0⟩], .empty, .unknown⟩, rfl,
      by decide, rfl⟩

end Sample

end Hardware
