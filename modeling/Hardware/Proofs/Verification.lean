import Hardware.Design.Verification
import Hardware.Proofs.Design

/-!
Verification while a design grows. What a body defines stays defined, and an operation
that verifies goes on doing so, for as long as operations and modules are only added.
-/
namespace Hardware

theorem bind_eq_ok_iff {x y : Except Error PUnit} :
    (x >>= fun _ => y) = .ok () ↔ x = .ok () ∧ y = .ok () := by
  cases x with
  | error e => simp [bind, Except.bind]
  | ok u => simp [bind, Except.bind]

theorem forM_eq_ok_iff {α : Type} {f : α → Except Error PUnit} {as : List α} :
    as.forM f = .ok () ↔ ∀ a ∈ as, f a = .ok () := by
  induction as with
  | nil => simp [List.forM, pure, Except.pure]
  | cons a as ih =>
      have unfolded : (a :: as).forM f = (f a >>= fun _ => as.forM f) := rfl
      rw [unfolded, bind_eq_ok_iff, ih]
      simp

theorem forM_congr {α : Type} {f g : α → Except Error PUnit} {as : List α}
    (same : ∀ a ∈ as, f a = g a) : as.forM f = as.forM g := by
  induction as with
  | nil => rfl
  | cons a as ih =>
      have unfolded (f : α → Except Error PUnit) :
          (a :: as).forM f = (f a >>= fun _ => as.forM f) := rfl
      rw [unfolded, unfolded, same a List.mem_cons_self,
        ih fun a' h => same a' (List.mem_cons_of_mem a h)]

theorem throw_ne_ok {e : Error} : (throw e : Except Error PUnit) ≠ .ok () := nofun

theorem ite_throw_eq_ok_iff {p : Prop} [Decidable p] {e : Error} :
    (if p then throw e else pure () : Except Error PUnit) = .ok () ↔ ¬ p := by
  by_cases h : p
  · rw [if_pos h]
    exact iff_of_false throw_ne_ok fun no => no h
  · rw [if_neg h]
    exact iff_of_true rfl h

theorem ite_ok_eq_ok_iff {p : Prop} [Decidable p] {e : Error} :
    (if p then pure () else throw e : Except Error PUnit) = .ok () ↔ p := by
  by_cases h : p
  · rw [if_pos h]
    exact iff_of_true rfl h
  · rw [if_neg h]
    exact iff_of_false throw_ne_ok h

/-- A check that comes first has to pass as well. -/
theorem guard_eq_ok_iff {p : Prop} [Decidable p] {e : Error} {x : Except Error PUnit} :
    (if p then (throw e : Except Error PUnit) >>= fun _ => x else x) = .ok () ↔
      ¬ p ∧ x = .ok () := by
  by_cases h : p
  · rw [if_pos h]
    exact iff_of_false throw_ne_ok fun no => no.1 h
  · rw [if_neg h]
    exact (and_iff_right h).symm

namespace Block

variable {b : Block} {op : Operation}

theorem findOp?_push_of_some {id : OpId} {o : Operation} (h : b.findOp? id = some o) :
    (b.push op).findOp? id = some o := by
  unfold findOp? push at *
  rw [List.find?_append, h]
  rfl

theorem findOp?_push_self (fresh : ∀ o ∈ b.ops, o.id ≠ op.id) :
    (b.push op).findOp? op.id = some op := by
  have none : b.ops.find? (fun o => o.id = op.id) = none :=
    List.find?_eq_none.mpr fun o ho => by simpa using fresh o ho
  unfold findOp? push
  rw [List.find?_append, none]
  simp

end Block

namespace ModuleOp

/-- `m'` has the interface of `m` and, under their numbers, its operations. -/
structure Grows (m m' : ModuleOp) : Prop where
  sym : m'.sym = m.sym
  inputs : m'.inputs = m.inputs
  outputs : m'.outputs = m.outputs
  params : m'.params = m.params
  found : ∀ id o, (m.body?.bind fun b => b.findOp? id) = some o →
    (m'.body?.bind fun b => b.findOp? id) = some o

theorem Grows.refl (m : ModuleOp) : m.Grows m := ⟨rfl, rfl, rfl, rfl, fun _ _ h => h⟩

theorem Grows.trans {m m' m'' : ModuleOp} (g : m.Grows m') (g' : m'.Grows m'') : m.Grows m'' where
  sym := g'.sym.trans g.sym
  inputs := g'.inputs.trans g.inputs
  outputs := g'.outputs.trans g.outputs
  params := g'.params.trans g.params
  found id o h := g'.found id o (g.found id o h)

theorem Grows.push {m : ModuleOp} {b : Block} (hk : m.kind = .real (some b)) (op : Operation) :
    m.Grows (m.withBody (some (b.push op))) where
  sym := withBody_sym m _
  inputs := withBody_inputs m _
  outputs := withBody_outputs m _
  params := withBody_params m _
  found id o h := by
    rw [body?_of_kind hk] at h
    rw [body?_of_kind (kind_withBody hk)]
    exact Block.findOp?_push_of_some h

/-- A body may be opened where there is none. -/
theorem Grows.withBody {m : ModuleOp} (hk : m.kind = .real none) (body : Option Block) :
    m.Grows (m.withBody body) where
  sym := withBody_sym m _
  inputs := withBody_inputs m _
  outputs := withBody_outputs m _
  params := withBody_params m _
  found id o h := by
    rw [body?_of_kind hk] at h
    cases h

theorem Grows.defines {m m' : ModuleOp} (g : m.Grows m') {v : Value} (h : m.defines v = true) :
    m'.defines v = true := by
  unfold ModuleOp.defines at *
  split at h
  · rw [g.sym, g.inputs]
    exact h
  · rename_i op i source
    obtain ⟨o, ho, hv⟩ := Option.bind_eq_some_iff.mp (of_decide_eq_true h)
    exact decide_eq_true (Option.bind_eq_some_iff.mpr ⟨o, g.found op o ho, hv⟩)

end ModuleOp

namespace Design

variable {d d' : Design}

/-- Every module of `d` is still in `d'`, where it may have grown. -/
def Grows (d d' : Design) : Prop :=
  ∀ q m, d.findModule? q = some m → ∃ m', d'.findModule? q = some m' ∧ m.Grows m'

theorem Grows.refl (d : Design) : d.Grows d := fun _ m h => ⟨m, h, .refl m⟩

theorem Grows.trans {d'' : Design} (g : d.Grows d') (g' : d'.Grows d'') : d.Grows d'' := by
  intro q m h
  obtain ⟨m', h', grows⟩ := g q m h
  obtain ⟨m'', h'', grows'⟩ := g' q m' h'
  exact ⟨m'', h'', grows.trans grows'⟩

/-- An operation in a body stays there under its number. -/
theorem Grows.findOp? (g : d.Grows d') {sym : Ident} {id : OpId} {op : Operation}
    (h : d.findOp? sym id = some op) : d'.findOp? sym id = some op := by
  unfold Design.findOp? Design.body? at *
  obtain ⟨b, hb, hop⟩ := Option.bind_eq_some_iff.mp h
  obtain ⟨m, hm, body⟩ := Option.bind_eq_some_iff.mp hb
  obtain ⟨m', hm', more⟩ := g sym m hm
  rw [hm', Option.bind_some]
  exact more.found id op (by rw [body]; exact hop)

/-- A design grows where one of its modules does. -/
theorem Grows.of_find {sym : Ident} {m : ModuleOp} {body : Option Block}
    (hm : d.findModule? sym = some m) (g : m.Grows (m.withBody body))
    (find : ∀ q, d'.findModule? q =
      if q = sym then (d.findModule? q).map fun m => m.withBody body else d.findModule? q) :
    d.Grows d' := by
  intro q x hx
  rw [find]
  split
  · rename_i hq
    rw [hq, hm] at hx
    cases hx
    exact ⟨m.withBody body, by rw [hq, hm]; rfl, g⟩
  · exact ⟨x, hx, .refl x⟩

theorem Grows.push {sym : Ident} {b : Block} (hb : d.body? sym = some b) (op : Operation) :
    d.Grows (d.push sym b op) := by
  obtain ⟨m, hm, hk⟩ := kind_of_body? hb
  exact .of_find hm (.push hk op) fun q => findModule?_push d sym q b op

theorem Grows.insert {sym : Ident} (free : d.findModule? sym = none) (op : ModuleOp)
    (h : d'.modules = d.modules.insert sym op) : d.Grows d' := by
  intro q m hm
  have other : q ≠ sym := fun e => by rw [e, free] at hm; cases hm
  refine ⟨m, ?_, .refl m⟩
  unfold findModule?
  rw [h, OrderedMap.get?_insert_ne _ _ other]
  exact hm

theorem Grows.checkInstance (g : d.Grows d') {name target : Ident} {params : Option Attr}
    {op : Operation} (h : d.checkInstance name target params op = .ok ()) :
    d'.checkInstance name target params op = .ok () := by
  unfold Design.checkInstance at *
  split at h
  · cases h
  · rename_i t ht
    obtain ⟨t', ht', grows⟩ := g target t ht
    rw [ht']
    simp only [grows.inputs, grows.params]
    exact h

/-- The operations that verify in `d` verify in every design into which it grows. -/
theorem Grows.verifyOp (g : d.Grows d') {sym : Ident} {id : OpId}
    (h : d.verifyOp sym id = .ok ()) : d'.verifyOp sym id = .ok () := by
  unfold Design.verifyOp at *
  split at h
  · cases h
  · rename_i m hm
    obtain ⟨m', hm', grows⟩ := g sym m hm
    split at h
    · cases h
    · rename_i op hop
      simp only [hm', grows.found id op hop]
      obtain ⟨operands, kind⟩ := bind_eq_ok_iff.mp h
      refine bind_eq_ok_iff.mpr ⟨?_, ?_⟩
      · apply forM_eq_ok_iff.mpr
        intro v hv
        have old := forM_eq_ok_iff.mp operands v hv
        split at old
        · rename_i defined
          rw [if_pos (grows.defines defined)]
          rfl
        · cases old
      · unfold checkKind at *
        split
        · rename_i c hc
          rw [hc] at kind
          exact kind
        · rename_i name target params hk
          rw [hk] at kind
          exact g.checkInstance kind
        · rename_i hk
          rw [hk] at kind
          rw [grows.outputs, grows.sym]
          exact kind
        · rfl
        · rfl

section Push

variable {sym : Ident} {m : ModuleOp} {b : Block} {op : Operation}

/-- The operation just pushed verifies if its operands were defined and it agrees with what
it names. -/
theorem verifyOp_push (hm : d.findModule? sym = some m) (hk : m.kind = .real (some b))
    (fresh : ∀ o ∈ b.ops, o.id ≠ op.id) (operands : ∀ v ∈ op.operands, m.defines v = true)
    (kind : (d.push sym b op).checkKind (m.withBody (some (b.push op))) op = .ok ()) :
    (d.push sym b op).verifyOp sym op.id = .ok () := by
  have found : (d.push sym b op).findModule? sym = some (m.withBody (some (b.push op))) := by
    rw [findModule?_push, if_pos rfl, hm]
    rfl
  have body : (m.withBody (some (b.push op))).body? = some (b.push op) :=
    ModuleOp.body?_of_kind (ModuleOp.kind_withBody hk)
  unfold verifyOp
  rw [found]
  simp only [body, Option.bind_some, Block.findOp?_push_self fresh]
  refine bind_eq_ok_iff.mpr ⟨forM_eq_ok_iff.mpr fun v hv => ?_, kind⟩
  rw [if_pos ((ModuleOp.Grows.push hk op).defines (operands v hv))]
  rfl

/-- The operation just pushed defines its results, which are numbered in order. -/
theorem defines_result_push (hk : m.kind = .real (some b)) (fresh : ∀ o ∈ b.ops, o.id ≠ op.id)
    {v : Value} {i : Nat} (source : v.source = .result op.id i) (hv : op.results[i]? = some v) :
    (m.withBody (some (b.push op))).defines v = true := by
  unfold ModuleOp.defines
  rw [source, ModuleOp.body?_of_kind (ModuleOp.kind_withBody hk)]
  simp only [Option.bind_some, Block.findOp?_push_self fresh, hv, decide_true]

end Push

/-- What the verification of one module asks for. -/
structure Complete (d : Design) (q : Ident) (op : ModuleOp) : Prop where
  body : op.isExternal = false → ∃ b, op.kind = .real (some b) ∧ b.IsClosed
  verified : ∀ b, op.body? = some b → ∀ o ∈ b.ops, d.verifyOp q o.id = .ok ()

theorem verifyModule_eq_ok {q : Ident} {op : ModuleOp} (hop : d.findModule? q = some op)
    (c : d.Complete q op) : d.verifyModule q = .ok () := by
  unfold verifyModule
  rw [hop]
  cases hk : op.kind with
  | external file => simp only [hk]; rfl
  | real body =>
      obtain ⟨b, kind, closed⟩ := c.body (by simp [ModuleOp.isExternal, hk])
      rw [hk] at kind
      cases kind
      simp only [hk, closed.terminated, closed.inner]
      exact forM_eq_ok_iff.mpr (c.verified b (ModuleOp.body?_of_kind hk))

/-- A design in which each module is complete verifies. -/
theorem verify_eq_ok (complete : ∀ q op, d.findModule? q = some op → d.Complete q op) :
    d.verify = .ok () := by
  apply forM_eq_ok_iff.mpr
  intro q hq
  obtain ⟨op, hop⟩ := Option.isSome_iff_exists.mp ((OrderedMap.mem_keys_iff _ _).mp hq)
  exact verifyModule_eq_ok hop (complete q op hop)

end Design

end Hardware
