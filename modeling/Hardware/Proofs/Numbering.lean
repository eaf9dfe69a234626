import Hardware.Proofs.Atomicity
import Hardware.Proofs.Finality

/-!
The numbers of operations. Bodies and metadata share one count, which goes on when a body is dropped
and stands still when a call fails. So the operations ever built are numbered without gaps, a number
leads to one operation only, and a result of an operation that is gone is defined nowhere.
-/
namespace Hardware

/-- Where the operations of a design stand. -/
inductive Place where
  | body (sym : Ident)
  | metadata
  deriving DecidableEq, Repr

/-- The operations at a place, in order. -/
def Design.opsAt (d : Design) : Place → List Operation
  | .body sym => ((d.body? sym).map Block.ops).getD []
  | .metadata => d.metadata

theorem Design.mem_opsAt_body {d : Design} {q : Ident} {op : Operation} :
    op ∈ d.opsAt (.body q) ↔ ∃ b, d.body? q = some b ∧ op ∈ b.ops := by
  change op ∈ ((d.body? q).map Block.ops).getD [] ↔ _
  cases d.body? q <;> simp

/-- `d'` is `d` with `op` at the end of the place `p`, under the next number. -/
structure Design.Extended (d : Design) (p : Place) (op : Operation) (d' : Design) : Prop where
  id : op.id = ⟨d.nextOp⟩
  nextOp : d'.nextOp = d.nextOp + 1
  ops : d'.opsAt p = d.opsAt p ++ [op]
  others : ∀ p', p' ≠ p → d'.opsAt p' = d.opsAt p'
  results : ∀ v ∈ op.results, ∃ i, v.source = .result op.id i

theorem Design.Gains.extended {d d' : Design} {sym : Ident} {op : Operation} {kind : OpKind}
    {operands : List Value} {types : List SignalType} {attributes : Attributes} {loc : Location}
    (gains : d.Gains sym op d')
    (fulfils : op.Fulfils d.nextOp kind operands types attributes loc) :
    d.Extended (.body sym) op d' where
  id := fulfils.id
  nextOp := gains.nextOp
  ops := by
    obtain ⟨m, b, hm, hb, hm'⟩ := gains.body
    have real := ModuleOp.kind_of_body? hb
    have grown : (m.withBody (some { b with ops := b.ops ++ [op] })).kind =
        .real (some { b with ops := b.ops ++ [op] }) := ModuleOp.kind_withBody real
    have body' := ModuleOp.body?_of_kind grown
    simp only [Design.opsAt, Design.body?, hm, hm', Option.bind_some, hb, body', Option.map_some,
      Option.getD_some]
  others p other := by
    cases p with
    | body q =>
        have same := gains.others q fun e => other (congrArg Place.body e)
        simp only [Design.opsAt, Design.body?, same]
    | metadata => exact gains.metadata
  results v hv := by
    obtain ⟨i, at_i⟩ := List.getElem?_of_mem hv
    have result := fulfils.results i
    rw [at_i] at result
    obtain ⟨t, -, rfl⟩ := Option.map_eq_some_iff.mp result.symm
    exact ⟨i, by rw [fulfils.id]⟩

namespace BuilderCall

variable {c : BuilderCall} {d d' : Design} {p : Place} {op o : Operation} {vs : List Value}

/-- Where the operation goes that the call builds. -/
def place? : BuilderCall → Option Place
  | .buildOp ip _ _ _ _ _ => some (.body ip.owner)
  | .buildConstant ip _ _ _ => some (.body ip.owner)
  | .buildInstance ip _ _ _ _ _ => some (.body ip.owner)
  | .buildOutput ip _ _ => some (.body ip.owner)
  | .addSymbolMetadata _ _ _ => some .metadata
  | _ => none

/-- The operation that the call builds on `d`, if it succeeds: it is the last one where it goes. -/
def built? (c : BuilderCall) (d : Design) : Option Operation :=
  match c.perform d with
  | .ok _ d' => c.place?.bind fun p => (d'.opsAt p).getLast?
  | .error _ _ => none

/-- The call does not drop what stands at `p`. -/
def Spares (c : BuilderCall) (p : Place) : Prop := ∀ q, p = .body q → c ≠ .clearBody q

/-- No module comes with a body. -/
def Bodiless (c : BuilderCall) : Prop := ∀ m, c = .addModule m → m.body? = none

theorem perform_extends (c : BuilderCall) (d : Design) :
    c.perform.Ends d (fun _ d' => ∀ p, c.place? = some p → ∃ op, d.Extended p op d')
      fun _ d' => d' = d := by
  cases c with
  | buildOp ip kind operands types attributes loc =>
      refine .bind ((Design.buildOp_gains d ip kind operands types attributes loc).imp ?_
        fun _ _ h => h.unchanged)
      rintro op d' ⟨gains, fulfils⟩ _ ⟨⟩
      exact ⟨op, gains.extended fulfils⟩
  | buildConstant ip type value loc =>
      refine .bind ((Design.buildConstant_gains d ip type value loc).imp ?_
        fun _ _ h => h.unchanged)
      rintro v d' ⟨op, gains, fulfils, -⟩ _ ⟨⟩
      exact ⟨op, gains.extended fulfils⟩
  | buildInstance ip target name inputs params loc =>
      refine .bind ((Design.buildInstance_gains d ip target name inputs params loc).imp ?_
        fun _ _ h => h.unchanged)
      rintro op d' ⟨gains, t, -, fulfils⟩ _ ⟨⟩
      exact ⟨op, gains.extended fulfils⟩
  | buildOutput ip values loc =>
      refine .bind ((Design.buildOp_gains d ip .output values [] .empty loc).imp ?_
        fun _ _ h => h.unchanged)
      rintro op d' ⟨gains, fulfils⟩ _ ⟨⟩
      exact ⟨op, gains.extended fulfils⟩
  | addSymbolMetadata symbol attributes loc =>
      rintro _ ⟨⟩
      refine ⟨_, rfl, rfl, rfl, fun p other => ?_, nofun⟩
      cases p with
      | body q => rfl
      | metadata => exact absurd rfl other
  | uniqueSymbol | addModule | addEntryBlock | clearBody =>
      exact (perform_ends _ d).imp (fun _ _ _ => nofun) fun _ _ h => h

theorem Builds.place? {q : Ident} (built : c.Builds d q op) : c.place? = some (.body q) := by
  cases built <;> rfl

theorem Turns.counts (h : c.Turns d vs d') (none : c.place? = none) :
    d'.nextOp = d.nextOp ∧ d'.metadata = d.metadata := by
  cases h with
  | appends b hb built =>
      rw [built.place?] at none
      cases none
  | records => cases none
  | refuses | grants | adds | opens | clears => exact ⟨rfl, rfl⟩

/-- Either nothing is built and the count stands still, or one operation takes the next number. -/
theorem built?_cases (c : BuilderCall) (d : Design) :
    (c.built? d = none ∧ (c.after d).nextOp = d.nextOp ∧ (c.after d).metadata = d.metadata) ∨
      ∃ p op, c.place? = some p ∧ c.built? d = some op ∧ d.Extended p op (c.after d) := by
  have extends' := c.perform_extends d
  have turns := c.perform_ends d
  unfold built? after Effect.outcome
  cases hc : c.perform d with
  | error e d' =>
      rw [extends'.of_error hc]
      exact .inl ⟨rfl, rfl, rfl⟩
  | ok vs d' =>
      cases hp : c.place? with
      | none => exact .inl ⟨rfl, (turns.of_ok hc).counts hp⟩
      | some p =>
          obtain ⟨op, extended⟩ := extends'.of_ok hc p hp
          refine .inr ⟨p, op, rfl, ?_, extended⟩
          change (d'.opsAt p).getLast? = some op
          rw [extended.ops, List.getLast?_concat]

theorem extended_of_built? (built : c.built? d = some op) :
    ∃ p, c.place? = some p ∧ d.Extended p op (c.after d) := by
  rcases c.built?_cases d with ⟨none, -⟩ | ⟨p, op', place, built', extended⟩
  · rw [none] at built
    cases built
  · rw [built'] at built
    cases built
    exact ⟨p, place, extended⟩

/-- A dropped body is gone, also when there was none that could be dropped. -/
theorem body?_clearBody (d : Design) (q : Ident) :
    ((BuilderCall.clearBody q).after d).body? q = none := by
  have ends : (BuilderCall.clearBody q).perform.Ends d (fun _ d' => d'.body? q = none)
      fun _ d' => d'.body? q = none := by
    refine .bind ((Design.clearBody_ends d q).imp ?_ ?_)
    · rintro _ d' rfl
      exact d.body?_setBody_none q
    · rintro _ d' ⟨rfl, none⟩
      exact none
  exact ends.outcome

/-- What becomes of the operations at a place: they stay unless they are dropped together, and the
one that is built there joins them. -/
theorem mem_opsAt_after (bodiless : c.Bodiless) :
    o ∈ (c.after d).opsAt p ↔
      (o ∈ d.opsAt p ∧ c.Spares p) ∨ (c.place? = some p ∧ c.built? d = some o) := by
  rcases c.built?_cases d with ⟨none, next, metadata⟩ | ⟨p', op, place, built, extended⟩
  · simp only [none, reduceCtorEq, and_false, or_false]
    cases p with
    | metadata =>
        change o ∈ (c.after d).metadata ↔ o ∈ d.metadata ∧ _
        rw [metadata]
        exact (and_iff_left nofun).symm
    | body q =>
        have body := (c.turns d).body q
        change o ∈ (((c.after d).body? q).map Block.ops).getD [] ↔
          o ∈ ((d.body? q).map Block.ops).getD [] ∧ _
        by_cases drops : c = .clearBody q
        · rw [drops, body?_clearBody]
          exact iff_of_false nofun fun kept => kept.2 q rfl rfl
        · have spares : c.Spares (.body q) := by
            rintro _ ⟨⟩
            exact drops
          rw [and_iff_left spares]
          generalize d.body? q = old at body ⊢
          generalize (c.after d).body? q = new at body ⊢
          cases body with
          | stays => exact Iff.rfl
          | added m own => rw [bodiless m rfl]
          | opened args => exact Iff.rfl
          | cleared => exact absurd rfl drops
          | pushed b built next' => omega
  · have spares : c.Spares p := by
      rintro q - rfl
      cases place
    rw [place, built, and_iff_left spares]
    by_cases same : p = p'
    · rw [same, extended.ops, List.mem_append, List.mem_singleton]
      simp [eq_comm]
    · rw [extended.others p same]
      simp [Ne.symm same]

end BuilderCall

namespace Design

variable {d : Design} {calls after after' : List BuilderCall} {p p' : Place} {op op' : Operation}

/-- The operations that the calls build, in the order of building. -/
def built (d : Design) (calls : List BuilderCall) : List Operation :=
  (d.log calls).filterMap fun (d, c) => c.built? d

/-- One of the calls builds `op` at `p`, and `after` are the calls behind it. -/
def BuiltAt (d : Design) (calls : List BuilderCall) (p : Place) (op : Operation)
    (after : List BuilderCall) : Prop :=
  ∃ before c, calls = before ++ c :: after ∧ c.place? = some p ∧ c.built? (d.run before) = some op

theorem nextOp_lt_run {c : BuilderCall} (built : c.built? d = some op) :
    d.nextOp < (d.run (c :: calls)).nextOp := by
  obtain ⟨p, -, extended⟩ := BuilderCall.extended_of_built? built
  have later := nextOp_le_run (c.after d) calls
  rw [extended.nextOp] at later
  exact later

theorem nil_of_count {c : BuilderCall} {before mid rest : List BuilderCall}
    (built : c.built? (d.run before) = some op) (next : c :: after = mid ++ rest)
    (count : (d.run before).nextOp = (d.run (before ++ mid)).nextOp) : mid = [] := by
  cases mid with
  | nil => rfl
  | cons x mid =>
      cases next
      rw [run_append] at count
      exact absurd count (nextOp_lt_run built).ne

theorem BuiltAt.unique (h : d.BuiltAt calls p op after) (h' : d.BuiltAt calls p' op' after')
    (same : op.id = op'.id) : p = p' ∧ op = op' ∧ after = after' := by
  obtain ⟨before, c, rfl, place, built⟩ := h
  obtain ⟨before', c', split, place', built'⟩ := h'
  obtain ⟨_, -, extended⟩ := BuilderCall.extended_of_built? built
  obtain ⟨_, -, extended'⟩ := BuilderCall.extended_of_built? built'
  have count : (d.run before).nextOp = (d.run before').nextOp := by
    rw [extended.id, extended'.id] at same
    exact congrArg OpId.index same
  have here : before = before' := by
    rcases List.append_eq_append_iff.mp split with ⟨mid, more, rest⟩ | ⟨mid, more, rest⟩
    · rw [more, nil_of_count built rest (more ▸ count), List.append_nil]
    · rw [more, nil_of_count built' rest (more ▸ count.symm), List.append_nil]
  cases here
  cases List.append_cancel_left split
  rw [place] at place'
  rw [built] at built'
  exact ⟨Option.some_inj.mp place', Option.some_inj.mp built', rfl⟩

theorem BuiltAt.of_last {c : BuilderCall} (place : c.place? = some p)
    (built : c.built? (d.run calls) = some op) : d.BuiltAt (calls ++ [c]) p op [] :=
  ⟨calls, c, rfl, place, built⟩

theorem BuiltAt.append (h : d.BuiltAt calls p op after) (c : BuilderCall) :
    d.BuiltAt (calls ++ [c]) p op (after ++ [c]) := by
  obtain ⟨before, c', rfl, place, built⟩ := h
  exact ⟨before, c', by simp, place, built⟩

theorem BuiltAt.cases_append {c : BuilderCall} (h : d.BuiltAt (calls ++ [c]) p op after) :
    (∃ after', after = after' ++ [c] ∧ d.BuiltAt calls p op after') ∨
      (after = [] ∧ c.place? = some p ∧ c.built? (d.run calls) = some op) := by
  obtain ⟨before, c', split, place, built⟩ := h
  rcases List.eq_nil_or_concat' after with rfl | ⟨after', last, rfl⟩
  · obtain ⟨rfl, single⟩ := List.append_inj' split rfl
    cases single
    exact .inr ⟨rfl, place, built⟩
  · rw [← List.cons_append, ← List.append_assoc] at split
    obtain ⟨rfl, single⟩ := List.append_inj' split rfl
    cases single
    exact .inl ⟨after', rfl, before, c', rfl, place, built⟩

/-- Every call of the list spares the place. -/
def Spared (after : List BuilderCall) (p : Place) : Prop := ∀ c ∈ after, c.Spares p

/-- Where operations stand after some calls: those that were built there and not dropped since. -/
theorem mem_opsAt_run {name : Ident} (bodiless : ∀ c ∈ calls, c.Bodiless) :
    op ∈ (run { name } calls).opsAt p ↔ ∃ after, BuiltAt { name } calls p op after ∧
      Spared after p := by
  induction calls using List.reverseRecOn with
  | nil =>
      refine iff_of_false ?_ ?_
      · cases p <;> exact List.not_mem_nil
      · rintro ⟨after, ⟨before, c, split, -⟩, -⟩
        simp at split
  | append_singleton calls c ih =>
      have step := BuilderCall.mem_opsAt_after (d := run { name } calls) (p := p) (o := op)
        (bodiless c (by simp))
      rw [run_append]
      refine step.trans ?_
      rw [ih fun c' h => bodiless c' (by simp [h])]
      constructor
      · rintro (⟨⟨after, built, spared⟩, spares⟩ | ⟨place, built⟩)
        · refine ⟨after ++ [c], built.append c, fun c' h => ?_⟩
          rcases List.mem_append.mp h with h | h
          · exact spared c' h
          · rw [List.mem_singleton.mp h]
            exact spares
        · exact ⟨[], .of_last place built, nofun⟩
      · rintro ⟨after, built, spared⟩
        rcases built.cases_append with ⟨after', rfl, built'⟩ | ⟨-, place, last⟩
        · exact .inl ⟨⟨after', built', fun c' h => spared c' (by simp [h])⟩, spared c (by simp)⟩
        · exact .inr ⟨place, last⟩

theorem ids_built (name : Ident) (calls : List BuilderCall) :
    (built { name } calls).map Operation.id =
      (List.range (run { name } calls).nextOp).map OpId.mk := by
  induction calls using List.reverseRecOn with
  | nil => rfl
  | append_singleton calls c ih =>
      unfold built at *
      rw [log_append, List.filterMap_append, List.map_append, ih, run_append]
      change _ ++ ([(run { name } calls, c)].filterMap _).map _ =
        (List.range (c.after (run { name } calls)).nextOp).map OpId.mk
      rcases c.built?_cases (run { name } calls) with ⟨none, next, -⟩ | ⟨p, op, -, some, extended⟩
      · simp [none, next]
      · simp [some, extended.nextOp, extended.id, List.range_succ]

theorem mem_built {name : Ident} :
    op ∈ built { name } calls ↔ ∃ p after, BuiltAt { name } calls p op after := by
  induction calls using List.reverseRecOn with
  | nil =>
      refine iff_of_false List.not_mem_nil ?_
      rintro ⟨p, after, before, c, split, -⟩
      simp at split
  | append_singleton calls c ih =>
      have split : op ∈ built { name } (calls ++ [c]) ↔
          op ∈ built { name } calls ∨ c.built? (run { name } calls) = some op := by
        unfold built
        rw [log_append, List.filterMap_append, List.mem_append]
        simp [log, eq_comm]
      rw [split, ih]
      constructor
      · rintro (⟨p, after, built⟩ | last)
        · exact ⟨p, _, built.append c⟩
        · obtain ⟨p, place, -⟩ := BuilderCall.extended_of_built? last
          exact ⟨p, _, .of_last place last⟩
      · rintro ⟨p, after, built⟩
        rcases built.cases_append with ⟨after', -, earlier⟩ | ⟨-, -, last⟩
        · exact .inl ⟨p, after', earlier⟩
        · exact .inr last

theorem checkOperands_refuses {m : ModuleOp} {v : Value} (used : v ∈ op.operands)
    (undefined : m.defines v = false) :
    ∃ w ∈ op.operands, m.defines w = false ∧
      checkOperands m op =
        .error ((Error.structural (.undefinedOperand w.source m.sym)).located op.loc) := by
  unfold checkOperands
  generalize op.operands = operands at used ⊢
  induction operands with
  | nil => cases used
  | cons w operands ih =>
      have first (f : Value → Except Error PUnit) :
          (w :: operands).forM f = (f w >>= fun _ => operands.forM f) := rfl
      rw [first]
      cases hw : m.defines w with
      | false => exact ⟨w, List.mem_cons_self, hw, rfl⟩
      | true =>
          have rest : v ∈ operands := by
            rcases List.mem_cons.mp used with rfl | rest
            · rw [undefined] at hw
              cases hw
            · exact rest
          obtain ⟨x, mem, none, error⟩ := ih rest
          exact ⟨x, List.mem_cons_of_mem w mem, none, error⟩

theorem verifyOp_refuses {q : Ident} {m : ModuleOp} {id : OpId} {v : Value}
    (hm : d.findModule? q = some m) (found : d.findOp? q id = some op) (used : v ∈ op.operands)
    (undefined : m.defines v = false) :
    ∃ w ∈ op.operands, m.defines w = false ∧
      d.verifyOp q id =
        .error ((Error.structural (.undefinedOperand w.source m.sym)).located op.loc) := by
  obtain ⟨w, mem, none, error⟩ := checkOperands_refuses used undefined
  refine ⟨w, mem, none, ?_⟩
  have here : (m.body?.bind fun b => b.findOp? id) = some op := by
    unfold findOp? body? at found
    rw [hm] at found
    exact found
  unfold verifyOp
  simp only [hm, here, error]
  rfl

theorem mem_opsAt_of_findOp? {q : Ident} {id : OpId} (found : d.findOp? q id = some op) :
    op ∈ d.opsAt (.body q) ∧ op.id = id := by
  obtain ⟨b, hb, here⟩ := Option.bind_eq_some_iff.mp found
  exact ⟨mem_opsAt_body.mpr ⟨b, hb, List.mem_of_find?_eq_some here⟩,
    by simpa using List.find?_some here⟩

theorem exists_findOp?_of_mem {q : Ident} (mem : op ∈ d.opsAt (.body q)) :
    ∃ o, d.findOp? q op.id = some o := by
  obtain ⟨b, hb, here⟩ := mem_opsAt_body.mp mem
  unfold findOp?
  rw [hb]
  exact Option.isSome_iff_exists.mp (List.find?_isSome.mpr ⟨op, here, by simp⟩)

section Reuse

variable {name : Ident} (bodiless : ∀ c ∈ calls, c.Bodiless)
include bodiless

theorem findOp?_built {q : Ident} (built : BuiltAt { name } calls (.body q) op after)
    (kept : .clearBody q ∉ after) : (run { name } calls).findOp? q op.id = some op := by
  have spared : Spared after (.body q) := by
    rintro c mem _ ⟨⟩ rfl
    exact kept mem
  obtain ⟨o, found⟩ := exists_findOp?_of_mem
    ((mem_opsAt_run bodiless).mpr ⟨after, built, spared⟩)
  obtain ⟨mem, id⟩ := mem_opsAt_of_findOp? found
  obtain ⟨after', built', -⟩ := (mem_opsAt_run bodiless).mp mem
  obtain ⟨-, rfl, -⟩ := built'.unique built id
  exact found

theorem findOp?_dropped {q : Ident} (built : BuiltAt { name } calls (.body q) op after)
    (dropped : .clearBody q ∈ after) (q' : Ident) :
    (run { name } calls).findOp? q' op.id = none := by
  cases found : (run { name } calls).findOp? q' op.id with
  | none => rfl
  | some o =>
      obtain ⟨mem, id⟩ := mem_opsAt_of_findOp? found
      obtain ⟨after', built', spared⟩ := (mem_opsAt_run bodiless).mp mem
      obtain ⟨place, -, rfl⟩ := built'.unique built id
      exact absurd rfl (spared _ dropped q place)

theorem not_defines_dropped {q : Ident} (built : BuiltAt { name } calls (.body q) op after)
    (dropped : .clearBody q ∈ after) {v : Value} (result : v ∈ op.results) {q' : Ident}
    {m : ModuleOp} (hm : (run { name } calls).findModule? q' = some m) : m.defines v = false := by
  have nowhere := findOp?_dropped bodiless built dropped q'
  obtain ⟨before, c, -, -, made⟩ := built
  obtain ⟨_, -, extended⟩ := BuilderCall.extended_of_built? made
  obtain ⟨i, source⟩ := extended.results v result
  unfold findOp? body? at nowhere
  rw [hm, Option.bind_some] at nowhere
  unfold ModuleOp.defines
  simp [source, nowhere]

/-- Numbers of operations are never reused. The operations ever built, whatever was dropped and
whatever failed, have the numbers from 0 in the order of building. An operation is found under its
number as long as its body is kept. Once the body is dropped, no module defines its results, and an
operation that uses one does not verify. -/
theorem ids_never_reused :
    (built { name } calls).map Operation.id =
        (List.range (run { name } calls).nextOp).map OpId.mk ∧
      (∀ op, op ∈ built { name } calls ↔ ∃ p after, BuiltAt { name } calls p op after) ∧
      (∀ p op, op ∈ (run { name } calls).opsAt p → op ∈ built { name } calls) ∧
      (∀ q op after, BuiltAt { name } calls (.body q) op after → .clearBody q ∉ after →
        (run { name } calls).findOp? q op.id = some op) ∧
      ∀ q op after, BuiltAt { name } calls (.body q) op after → .clearBody q ∈ after →
        ∀ v ∈ op.results, ∀ q' m, (run { name } calls).findModule? q' = some m →
          m.defines v = false ∧
            ∀ id o, (run { name } calls).findOp? q' id = some o → v ∈ o.operands →
              ∃ w ∈ o.operands, m.defines w = false ∧ (run { name } calls).verifyOp q' id =
                .error ((Error.structural (.undefinedOperand w.source m.sym)).located o.loc) := by
  refine ⟨ids_built name calls, fun op => mem_built, fun p op mem => ?_,
    fun q op after built kept => findOp?_built bodiless built kept,
    fun q op after built dropped v result q' m hm => ?_⟩
  · obtain ⟨after, built, -⟩ := (mem_opsAt_run bodiless).mp mem
    exact mem_built.mpr ⟨p, after, built⟩
  · have undefined := not_defines_dropped bodiless built dropped result hm
    exact ⟨undefined, fun id o found used => verifyOp_refuses hm found used undefined⟩

end Reuse

end Design

namespace Sample

/-- A body is dropped and built anew. One constant does not fit, and the output is a value from the
dropped body. -/
def recycling : List BuilderCall := [
  .addModule (source "A" none),
  .addEntryBlock "A",
  .buildConstant ⟨"A"⟩ (.bits 8) (.int 5) .unknown,
  .addSymbolMetadata "A" .empty .unknown,
  .clearBody "A",
  .addEntryBlock "A",
  .buildConstant ⟨"A"⟩ (.bits 8) (.int 300) .unknown,
  .buildConstant ⟨"A"⟩ (.bits 8) (.int 7) .unknown,
  .buildOutput ⟨"A"⟩ [five] .unknown]

/-- The constants before and after the body was dropped. -/
def fiveOp : Operation := ⟨⟨0⟩, .constant (.int 5), [], [five], .empty, .unknown⟩

def sevenOp : Operation := ⟨⟨2⟩, .constant (.int 7), [], [⟨.result ⟨2⟩ 0, .bits 8⟩], .empty, .unknown⟩

def misuse : Operation := ⟨⟨3⟩, .output, [five], [], .empty, .unknown⟩

/-- The new constant does not take the number of the old one, whose value is refused. -/
theorem stale_value_refused :
    (∀ c ∈ recycling, c.Bodiless) ∧
      (Design.built { name := "d" } recycling).map Operation.id = [⟨0⟩, ⟨1⟩, ⟨2⟩, ⟨3⟩] ∧
      (Design.run { name := "d" } recycling).findOp? "A" ⟨2⟩ = some sevenOp ∧
      ∃ w ∈ [five], (Design.run { name := "d" } recycling).verifyOp "A" ⟨3⟩ =
        .error (.structural (.undefinedOperand w.source "A")) := by
  have bodiless : ∀ c ∈ recycling, c.Bodiless := by
    intro c mem m adds
    rw [adds] at mem
    simp only [recycling, List.mem_cons, BuilderCall.addModule.injEq, reduceCtorEq, or_false,
      List.not_mem_nil] at mem
    rw [mem]
    rfl
  have builtNew : Design.BuiltAt { name := "d" } recycling (.body "A") sevenOp (recycling.drop 8) :=
    ⟨recycling.take 7, _, rfl, rfl, by decide +kernel⟩
  have builtOld : Design.BuiltAt { name := "d" } recycling (.body "A") fiveOp (recycling.drop 3) :=
    ⟨recycling.take 2, _, rfl, rfl, by decide +kernel⟩
  have held : (Design.run { name := "d" } recycling).findModule? "A" =
      some (source "A" (some ⟨[], [sevenOp, misuse]⟩)) := by decide +kernel
  obtain ⟨ids, -, -, found, refused⟩ := @Design.ids_never_reused recycling "d" bodiless
  obtain ⟨-, verified⟩ := refused "A" fiveOp _ builtOld (by decide) five (by decide) "A" _ held
  obtain ⟨w, mem, -, error⟩ := verified ⟨3⟩ misuse (by decide +kernel) (by decide)
  exact ⟨bodiless, ids.trans (by decide +kernel), found "A" sevenOp _ builtNew (by decide), w, mem, error⟩

end Sample

end Hardware
