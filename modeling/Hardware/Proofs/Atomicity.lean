import Hardware.Proofs.Design

/-!
The building steps are all or nothing. One that fails leaves the design as it was, however far its
checks had come. One that builds puts a single operation at the end of a body, under the next
number, and changes nothing else. An operation that was put there is found there.
-/
namespace Hardware

namespace Error

/-- The error is a fault in the structure of the design. -/
def IsStructural (e : Error) : Prop := ∃ fault, e = .structural fault

theorem isStructural (fault : StructureFault) : (structural fault).IsStructural := ⟨fault, rfl⟩

theorem IsStructural.ne_internal {e : Error} (h : e.IsStructural) (fault : InternalFault) :
    e ≠ .internal fault := by
  obtain ⟨cause, rfl⟩ := h
  nofun

end Error

/-- The operation numbered `n` is what was asked for. Its results are numbered from 0. -/
structure Operation.Fulfils (op : Operation) (n : Nat) (kind : OpKind) (operands : List Value)
    (types : List SignalType) (attributes : Attributes) (loc : Location) : Prop where
  id : op.id = ⟨n⟩
  kind : op.kind = kind
  operands : op.operands = operands
  results : ∀ i : Nat, op.results[i]? = types[i]?.map fun t => ⟨.result ⟨n⟩ i, t⟩
  attributes : op.attributes = attributes
  loc : op.loc = loc

theorem forM_eq_error {α : Type} {f : α → Except Error PUnit} {as : List α} {e : Error}
    (h : as.forM f = .error e) : ∃ a ∈ as, f a = .error e := by
  induction as with
  | nil => cases h
  | cons a as ih =>
      have unfolded : (a :: as).forM f = (f a >>= fun _ => as.forM f) := rfl
      rw [unfolded] at h
      cases hf : f a with
      | ok u =>
          rw [hf] at h
          obtain ⟨a', mem, later⟩ := ih h
          exact ⟨a', List.mem_cons_of_mem a mem, later⟩
      | error e' =>
          rw [hf] at h
          exact ⟨a, List.mem_cons_self, hf.trans h⟩

/-- The check of a constant reports nothing but a constant that does not fit. -/
theorem SignalType.check_structural {t : SignalType} {c : Constant} {e : Error}
    (h : t.check c = .error e) : e.IsStructural := by
  fun_induction SignalType.check t c generalizing e with
  | case1 | case3 | case5 | case7 | case9 =>
      cases h
      exact Error.isStructural _
  | case2 | case4 | case6 | case8 => cases h
  | case10 elem len vs len' ih =>
      obtain ⟨v, -, fails⟩ := forM_eq_error h
      exact ih v fails
  | case11 =>
      cases h
      exact Error.isStructural _

namespace Design

variable {d d' : Design}

/-- What a failing step is: the design is as before, and no operation has vanished. -/
structure Refuses (d : Design) (e : Error) (d' : Design) : Prop where
  unchanged : d' = d
  present : e ≠ .internal .operationVanished

/-- What a step is that builds: `d'` is `d` with `op` at the end of the body of `sym`. -/
structure Gains (d : Design) (sym : Ident) (op : Operation) (d' : Design) : Prop where
  body : ∃ m b, d.findModule? sym = some m ∧ m.body? = some b ∧
    d'.findModule? sym = some (m.withBody (some { b with ops := b.ops ++ [op] }))
  others : ∀ q, q ≠ sym → d'.findModule? q = d.findModule? q
  order : d'.modules.keys = d.modules.keys
  name : d'.name = d.name
  metadata : d'.metadata = d.metadata
  symbols : d'.symbols = d.symbols
  nextOp : d'.nextOp = d.nextOp + 1

theorem gains_push {sym : Ident} {b : Block} (hb : d.body? sym = some b) (op : Operation) :
    d.Gains sym op (d.push sym b op) where
  body := by
    obtain ⟨m, hm, hk⟩ := kind_of_body? hb
    refine ⟨m, b, hm, ModuleOp.body?_of_kind hk, ?_⟩
    rw [findModule?_push, if_pos rfl, hm]
    rfl
  others q other := by rw [findModule?_push, if_neg other]
  order := d.modules.keys_modify sym _
  name := rfl
  metadata := rfl
  symbols := rfl
  nextOp := rfl

theorem newOp_fulfils (d : Design) (kind : OpKind) (operands : List Value)
    (types : List SignalType) (attributes : Attributes) (loc : Location) :
    (d.newOp kind operands types attributes loc).Fulfils d.nextOp kind operands types attributes
      loc where
  id := rfl
  kind := rfl
  operands := rfl
  results i := by simp [newOp]
  attributes := rfl
  loc := rfl

section Faults

theorem openBlock_structural {ip : InsertionPoint} {e : Error} (h : d.openBlock ip = .error e) :
    e.IsStructural := by
  unfold openBlock at h
  split at h
  · cases h
    exact Error.isStructural _
  · split at h
    · cases h
      exact Error.isStructural _
    · cases h

theorem addModule_faults (d : Design) (op : ModuleOp) :
    (addModule op).Ends d (fun _ _ => True) fun e _ => e.IsStructural := by
  unfold addModule
  refine .bind ?_
  simp only [Effect.ends_get]
  split
  · exact Error.isStructural _
  · exact .bind trivial

theorem addEntryBlock_faults (d : Design) (sym : Ident) :
    (addEntryBlock sym).Ends d (fun _ _ => True) fun e _ => e.IsStructural := by
  unfold addEntryBlock
  refine .bind ?_
  simp only [Effect.ends_get]
  split
  · exact Error.isStructural _
  · split
    · exact Error.isStructural _
    · exact Error.isStructural _
    · exact .bind trivial

theorem clearBody_faults (d : Design) (sym : Ident) :
    (clearBody sym).Ends d (fun _ _ => True) fun e _ => e.IsStructural := by
  unfold clearBody
  refine .bind ?_
  simp only [Effect.ends_get]
  split
  · exact Error.isStructural _
  · split
    · exact .bind (Error.isStructural _)
    · trivial

/-- The search for the new operation at the end of its body does not fail. -/
theorem buildOp_faults (d : Design) (ip : InsertionPoint) (kind : OpKind) (operands : List Value)
    (types : List SignalType) (attributes : Attributes) (loc : Location) :
    (buildOp ip kind operands types attributes loc).Ends d (fun _ _ => True)
      fun e _ => e.IsStructural := by
  unfold buildOp
  refine .bind ?_
  simp only [Effect.ends_get]
  refine .bind (Effect.ends_ofExcept (fun b _ => ?_) fun e h => openBlock_structural h)
  refine .bind ?_
  simp [Block.push]

theorem buildConstant_faults (d : Design) (ip : InsertionPoint) (type : SignalType)
    (value : Constant) (loc : Location) :
    (buildConstant ip type value loc).Ends d (fun _ _ => True) fun e _ => e.IsStructural := by
  unfold buildConstant
  refine .bind (Effect.ends_ofExcept (fun _ _ => ?_) fun e h => SignalType.check_structural h)
  exact .bind (buildOp_faults d ip _ _ _ _ loc)

theorem buildInstance_faults (d : Design) (ip : InsertionPoint) (target name : Ident)
    (inputs : List Value) (params : Option Attr) (loc : Location) :
    (buildInstance ip target name inputs params loc).Ends d (fun _ _ => True)
      fun e _ => e.IsStructural := by
  unfold buildInstance
  split
  · exact .bind (Error.isStructural _)
  · refine .bind ?_
    simp only [Effect.ends_get]
    split
    · exact Error.isStructural _
    · exact buildOp_faults d ip _ _ _ _ loc

end Faults

/-- A law about the state after a failure and one about the error make a refusal. -/
theorem refuses_of_faults {α : Type} {x : Effect Design α} {Q : α → Design → Prop}
    {R : Prop} (h : x.Ends d Q fun _ d' => d' = d ∧ R)
    (faults : x.Ends d (fun _ _ => True) fun e _ => e.IsStructural) :
    x.Ends d Q d.Refuses :=
  (h.and faults).imp (fun _ _ both => both.1) fun _ _ both =>
    ⟨both.1.1, both.2.ne_internal _⟩

theorem buildOp_gains (d : Design) (ip : InsertionPoint) (kind : OpKind) (operands : List Value)
    (types : List SignalType) (attributes : Attributes) (loc : Location) :
    (buildOp ip kind operands types attributes loc).Ends d
      (fun op d' => d.Gains ip.owner op d' ∧
        op.Fulfils d.nextOp kind operands types attributes loc) d.Refuses := by
  refine (refuses_of_faults (buildOp_ends d ip kind operands types attributes loc)
    (buildOp_faults d ip kind operands types attributes loc)).imp ?_ fun _ _ h => h
  rintro op d' ⟨b, hb, -, rfl, rfl⟩
  exact ⟨gains_push hb _, newOp_fulfils d kind operands types attributes loc⟩

theorem buildConstant_gains (d : Design) (ip : InsertionPoint) (type : SignalType)
    (value : Constant) (loc : Location) :
    (buildConstant ip type value loc).Ends d
      (fun v d' => ∃ op, d.Gains ip.owner op d' ∧
        op.Fulfils d.nextOp (.constant value) [] [type] .empty loc ∧ op.results = [v])
      d.Refuses := by
  refine (refuses_of_faults (buildConstant_ends d ip type value loc)
    (buildConstant_faults d ip type value loc)).imp ?_ fun _ _ h => h
  rintro v d' ⟨b, hb, -, -, rfl, rfl⟩
  exact ⟨_, gains_push hb _, newOp_fulfils d _ _ _ _ loc, rfl⟩

theorem buildInstance_gains (d : Design) (ip : InsertionPoint) (target name : Ident)
    (inputs : List Value) (params : Option Attr) (loc : Location) :
    (buildInstance ip target name inputs params loc).Ends d
      (fun op d' => d.Gains ip.owner op d' ∧
        ∃ t, d.findModule? target = some t ∧
          op.Fulfils d.nextOp (.inst name target params) inputs (t.outputs.map Port.type)
            (instanceAttributes name target) loc) d.Refuses := by
  refine (refuses_of_faults (buildInstance_ends d ip target name inputs params loc)
    (buildInstance_faults d ip target name inputs params loc)).imp ?_ fun _ _ h => h
  rintro op d' ⟨b, t, hb, -, -, ht, rfl, rfl⟩
  exact ⟨gains_push hb _, t, ht, newOp_fulfils d _ _ _ _ loc⟩

/-- Each building step either fails and leaves the design as it was, or succeeds. One that builds an
operation then adds just that operation, as it was asked for, at the end of the body. -/
theorem steps_all_or_nothing (d : Design) :
    (∀ op, (addModule op).Ends d (fun _ _ => True) d.Refuses) ∧
    (∀ sym, (addEntryBlock sym).Ends d (fun _ _ => True) d.Refuses) ∧
    (∀ sym, (clearBody sym).Ends d (fun _ _ => True) d.Refuses) ∧
    (∀ ip kind operands types attributes loc,
      (buildOp ip kind operands types attributes loc).Ends d
        (fun op d' => d.Gains ip.owner op d' ∧
          op.Fulfils d.nextOp kind operands types attributes loc) d.Refuses) ∧
    (∀ ip type value loc, (buildConstant ip type value loc).Ends d
      (fun v d' => ∃ op, d.Gains ip.owner op d' ∧
        op.Fulfils d.nextOp (.constant value) [] [type] .empty loc ∧ op.results = [v]) d.Refuses) ∧
    (∀ ip target name inputs params loc,
      (buildInstance ip target name inputs params loc).Ends d
        (fun op d' => d.Gains ip.owner op d' ∧
          ∃ t, d.findModule? target = some t ∧
            op.Fulfils d.nextOp (.inst name target params) inputs (t.outputs.map Port.type)
              (instanceAttributes name target) loc) d.Refuses) ∧
    ∀ ip values loc, (buildOutput ip values loc).Ends d
      (fun op d' => d.Gains ip.owner op d' ∧
        op.Fulfils d.nextOp .output values [] .empty loc) d.Refuses := by
  refine ⟨fun op => ?_, fun sym => ?_, fun sym => ?_, buildOp_gains d, buildConstant_gains d,
    buildInstance_gains d, fun ip values loc => buildOp_gains d ip .output values [] .empty loc⟩
  · exact (refuses_of_faults (addModule_ends d op) (addModule_faults d op)).imp
      (fun _ _ _ => trivial) fun _ _ h => h
  · exact (refuses_of_faults (addEntryBlock_ends d sym) (addEntryBlock_faults d sym)).imp
      (fun _ _ _ => trivial) fun _ _ h => h
  · exact (refuses_of_faults (clearBody_ends d sym) (clearBody_faults d sym)).imp
      (fun _ _ _ => trivial) fun _ _ h => h

end Design

end Hardware
