import Hardware.Proofs.Design

/-!
A design and the calls that build it. What one call does is told apart by `Turns`; from this it
follows for any list of calls that modules stay, that interfaces do not change, and that the
numbers of operations only grow.
-/
namespace Hardware

/-- The calls that build a design. -/
inductive BuilderCall where
  | uniqueSymbol (base : Ident)
  | addModule (op : ModuleOp)
  | addEntryBlock (sym : Ident)
  | clearBody (sym : Ident)
  | buildOp (ip : InsertionPoint) (kind : OpKind) (operands : List Value)
      (types : List SignalType) (attributes : Attributes) (loc : Location)
  | buildConstant (ip : InsertionPoint) (type : SignalType) (value : Constant) (loc : Location)
  | buildInstance (ip : InsertionPoint) (target name : Ident) (inputs : List Value)
      (params : Option Attr) (loc : Location)
  | buildOutput (ip : InsertionPoint) (values : List Value) (loc : Location)
  | addSymbolMetadata (symbol : Ident) (attributes : Attributes) (loc : Location)
  deriving DecidableEq, Repr

namespace BuilderCall

/-- Make the call. It gives the values that it has defined: the arguments of a body, or the
results of an operation. -/
def perform : BuilderCall → Effect Design (List Value)
  | .uniqueSymbol base => do
    discard <| Design.uniqueSymbol base
    pure []
  | .addModule op => do
    discard <| Design.addModule op
    pure []
  | .addEntryBlock sym => Design.addEntryBlock sym
  | .clearBody sym => do
    Design.clearBody sym
    pure []
  | .buildOp ip kind operands types attributes loc => do
    let op ← Design.buildOp ip kind operands types attributes loc
    pure op.results
  | .buildConstant ip type value loc => do
    let v ← Design.buildConstant ip type value loc
    pure [v]
  | .buildInstance ip target name inputs params loc => do
    let op ← Design.buildInstance ip target name inputs params loc
    pure op.results
  | .buildOutput ip values loc => do
    let op ← Design.buildOutput ip values loc
    pure op.results
  | .addSymbolMetadata symbol attributes loc => do
    discard <| Design.addSymbolMetadata symbol attributes loc
    pure []

/-- The design after the call, whether it succeeds or fails. -/
def after (c : BuilderCall) (d : Design) : Design := (c.perform.outcome d).2

/-- The values that the call gives. -/
def values (c : BuilderCall) (d : Design) : List Value := ((c.perform.outcome d).1.toOption).getD []

/-- The operation that a call of `d` makes for the body of `sym`. -/
inductive Builds (d : Design) : BuilderCall → Ident → Operation → Prop
  | op (ip kind operands types attributes loc) :
      Builds d (.buildOp ip kind operands types attributes loc) ip.owner
        (d.newOp kind operands types attributes loc)
  | constant (ip type value loc) :
      Builds d (.buildConstant ip type value loc) ip.owner
        (d.newOp (.constant value) [] [type] .empty loc)
  | inst (ip target name inputs params loc t) (ht : d.findModule? target = some t) :
      Builds d (.buildInstance ip target name inputs params loc) ip.owner
        (d.newOp (.inst name target params) inputs (t.outputs.map Port.type)
          (Design.instanceAttributes name target) loc)
  | output (ip values loc) :
      Builds d (.buildOutput ip values loc) ip.owner (d.newOp .output values [] .empty loc)

/-- What a call can do to a design, with the values that it gives. -/
inductive Turns (d : Design) : BuilderCall → List Value → Design → Prop
  | refuses (c) : Turns d c [] d
  | grants (base symbols) : Turns d (.uniqueSymbol base) [] { d with symbols }
  | adds (op) (free : d.findModule? op.sym = none) (symbols) :
      Turns d (.addModule op) [] { d with symbols, modules := d.modules.insert op.sym op }
  | opens (sym m) (hm : d.findModule? sym = some m) (hk : m.kind = .real none) :
      Turns d (.addEntryBlock sym) (Design.entryArgs sym m.inputs)
        (d.setBody sym (some { args := Design.entryArgs sym m.inputs }))
  | clears (sym) : Turns d (.clearBody sym) [] (d.setBody sym none)
  | appends {c sym op} (b) (hb : d.body? sym = some b) (built : Builds d c sym op) :
      Turns d c op.results (d.push sym b op)
  | records (symbol attributes loc) (metadata : List Operation) :
      Turns d (.addSymbolMetadata symbol attributes loc) []
        { d with metadata, nextOp := d.nextOp + 1 }

theorem Builds.id {d : Design} {c : BuilderCall} {sym : Ident} {op : Operation}
    (h : Builds d c sym op) : op.id = ⟨d.nextOp⟩ := by
  cases h <;> rfl

theorem Builds.results {d : Design} {c : BuilderCall} {sym : Ident} {op : Operation}
    (h : Builds d c sym op) {v : Value} (hv : v ∈ op.results) :
    ∃ i, v.source = .result ⟨d.nextOp⟩ i := by
  have numbered : ∀ types : List SignalType,
      v ∈ types.mapIdx (fun i t => (⟨.result ⟨d.nextOp⟩ i, t⟩ : Value)) →
        ∃ i, v.source = .result ⟨d.nextOp⟩ i := by
    intro types hv
    obtain ⟨i, _, rfl⟩ := List.mem_mapIdx.mp hv
    exact ⟨i, rfl⟩
  cases h <;> exact numbered _ hv

theorem perform_ends (c : BuilderCall) (d : Design) :
    c.perform.Ends d (fun vs d' => c.Turns d vs d') fun _ d' => d' = d := by
  cases c with
  | uniqueSymbol base => exact .grants base _
  | addModule op =>
      refine .bind (.bind ((Design.addModule_ends d op).imp ?_ fun _ _ h => h.1))
      rintro sym d' ⟨-, free, rfl⟩
      exact .adds op free _
  | addEntryBlock sym =>
      refine (Design.addEntryBlock_ends d sym).imp ?_ fun _ _ h => h.1
      rintro args d' ⟨m, hm, hk, rfl, rfl⟩
      exact .opens sym m hm hk
  | clearBody sym =>
      refine .bind ((Design.clearBody_ends d sym).imp ?_ fun _ _ h => h.1)
      rintro _ d' rfl
      exact .clears sym
  | buildOp ip kind operands types attributes loc =>
      refine .bind ((Design.buildOp_ends d ip kind operands types attributes loc).imp ?_
        fun _ _ h => h.1)
      rintro op d' ⟨b, hb, -, rfl, rfl⟩
      exact .appends b hb (.op ip kind operands types attributes loc)
  | buildConstant ip type value loc =>
      refine .bind ((Design.buildConstant_ends d ip type value loc).imp ?_ fun _ _ h => h.1)
      rintro v d' ⟨b, hb, -, -, rfl, rfl⟩
      exact .appends b hb (.constant ip type value loc)
  | buildInstance ip target name inputs params loc =>
      refine .bind ((Design.buildInstance_ends d ip target name inputs params loc).imp ?_
        fun _ _ h => h.1)
      rintro op d' ⟨b, t, hb, -, -, ht, rfl, rfl⟩
      exact .appends b hb (.inst ip target name inputs params loc t ht)
  | buildOutput ip values loc =>
      refine .bind ((Design.buildOp_ends d ip .output values [] .empty loc).imp ?_ fun _ _ h => h.1)
      rintro op d' ⟨b, hb, -, rfl, rfl⟩
      exact .appends b hb (.output ip values loc)
  | addSymbolMetadata symbol attributes loc => exact .records symbol attributes loc _

theorem turns (c : BuilderCall) (d : Design) : c.Turns d (c.values d) (c.after d) := by
  have ends := c.perform_ends d
  unfold values after Effect.outcome
  unfold Effect.Ends at ends
  cases hc : c.perform d with
  | ok vs d' =>
      rw [hc] at ends
      exact ends
  | error e d' =>
      rw [hc] at ends
      cases ends
      exact .refuses c

end BuilderCall

namespace Design

/-- Each module of `d` is still in `d'`, up to its body. -/
def Retains (d d' : Design) : Prop :=
  ∀ q m, d.findModule? q = some m → ∃ body, d'.findModule? q = some (m.withBody body)

theorem Retains.of_eq {d d' : Design} (h : d'.modules = d.modules) : d.Retains d' := by
  intro q m hm
  refine ⟨m.body?, ?_⟩
  rw [m.withBody_body?]
  unfold findModule?
  rw [h]
  exact hm

theorem Retains.refl (d : Design) : d.Retains d := .of_eq rfl

theorem Retains.trans {d d' d'' : Design} (h : d.Retains d') (h' : d'.Retains d'') :
    d.Retains d'' := by
  intro q m hm
  obtain ⟨body, hm'⟩ := h q m hm
  obtain ⟨body', hm''⟩ := h' q _ hm'
  exact ⟨body', by rw [hm'', ModuleOp.withBody_withBody]⟩

theorem Retains.setBody (d : Design) (sym : Ident) (body : Option Block) :
    d.Retains (d.setBody sym body) := by
  intro q m hm
  rw [findModule?_setBody, hm]
  split
  · exact ⟨body, rfl⟩
  · exact ⟨m.body?, by rw [m.withBody_body?]⟩

end Design

namespace BuilderCall

variable {c : BuilderCall} {d d' : Design} {vs : List Value}

/-- Calls neither remove modules nor change their interfaces. -/
theorem Turns.retains (h : c.Turns d vs d') : d.Retains d' := by
  cases h with
  | refuses => exact .refl d
  | grants base symbols => exact .of_eq rfl
  | adds op free symbols =>
      intro q m hm
      have other : q ≠ op.sym := fun e => by rw [e, free] at hm; cases hm
      refine ⟨m.body?, ?_⟩
      rw [m.withBody_body?]
      exact (d.modules.get?_insert_ne op other).trans hm
  | opens sym m hm hk => exact .setBody d sym _
  | clears sym => exact .setBody d sym _
  | appends b hb built => exact Design.Retains.setBody d _ _
  | records symbol attributes loc metadata => exact .of_eq rfl

theorem Turns.nextOp_le (h : c.Turns d vs d') : d.nextOp ≤ d'.nextOp := by
  cases h with
  | appends => exact Nat.le_succ _
  | records => exact Nat.le_succ _
  | refuses | grants | adds | opens | clears => exact Nat.le_refl _

/-- What a call can do to the body of `q`. -/
inductive TurnsBody (d d' : Design) (q : Ident) :
    BuilderCall → Option Block → Option Block → Prop
  | stays (c body) : TurnsBody d d' q c body body
  | added (op) (own : op.sym = q) : TurnsBody d d' q (.addModule op) none op.body?
  | opened (args) : TurnsBody d d' q (.addEntryBlock q) none (some { args })
  | cleared (body) : TurnsBody d d' q (.clearBody q) body none
  | pushed {c op} (b) (built : Builds d c q op) (next : d'.nextOp = d.nextOp + 1) :
      TurnsBody d d' q c (some b) (some (b.push op))

/-- A body is opened and dropped as a whole, and else only grows at its end. -/
theorem Turns.body (h : c.Turns d vs d') (q : Ident) :
    TurnsBody d d' q c (d.body? q) (d'.body? q) := by
  cases h with
  | refuses => exact .stays c _
  | grants base symbols => exact .stays _ _
  | adds op free symbols =>
      unfold Design.body? Design.findModule?
      by_cases own : op.sym = q
      · have none : d.modules.get? q = none := own ▸ free
        rw [none, ← own, OrderedMap.get?_insert_self]
        exact .added op rfl
      · rw [OrderedMap.get?_insert_ne _ _ (Ne.symm own)]
        exact .stays _ _
  | opens sym m hm hk =>
      by_cases same : q = sym
      · rw [same, Design.body?_of_kind hm hk, Design.body?_setBody_self hm hk]
        exact .opened _
      · rw [Design.body?_setBody_ne same]
        exact .stays _ _
  | clears sym =>
      by_cases same : q = sym
      · rw [same, Design.body?_setBody_none]
        exact .cleared _
      · rw [Design.body?_setBody_ne same]
        exact .stays _ _
  | @appends _ sym op b hb built =>
      rw [Design.body?_push hb]
      by_cases same : q = sym
      · rw [if_pos same, same, hb]
        exact .pushed b built rfl
      · rw [if_neg same]
        exact .stays _ _
  | records symbol attributes loc metadata => exact .stays _ _

/-- A body that is there stays as it is, is dropped, or gets one more operation. -/
theorem Turns.of_body (h : c.Turns d vs d') {q : Ident} {b : Block} (hb : d.body? q = some b) :
    d'.body? q = some b ∨ (c = .clearBody q ∧ d'.body? q = none) ∨
      ∃ op, c.Builds d q op ∧ d'.body? q = some (b.push op) ∧ d'.nextOp = d.nextOp + 1 := by
  have body := h.body q
  rw [hb] at body
  generalize hold : some b = old at body
  generalize d'.body? q = new at body
  cases body with
  | stays => exact .inl rfl
  | added => cases hold
  | opened => cases hold
  | cleared => exact .inr (.inl ⟨rfl, rfl⟩)
  | @pushed _ op b built next =>
      cases hold
      exact .inr (.inr ⟨op, built, rfl, next⟩)

/-- What stands in a body after a call stood there before, came with a module, or was built. -/
theorem Turns.of_mem_body (h : c.Turns d vs d') {q : Ident} {b : Block} {o : Operation}
    (hb : d'.body? q = some b) (mem : o ∈ b.ops) :
    (∃ b, d.body? q = some b ∧ o ∈ b.ops) ∨ (∃ op, c = .addModule op ∧ op.body? = some b) ∨
      (c.Builds d q o ∧ d'.nextOp = d.nextOp + 1) := by
  have body := h.body q
  rw [hb] at body
  generalize d.body? q = old at body
  generalize hnew : some b = new at body
  cases body with
  | stays => exact .inl ⟨b, hnew.symm, mem⟩
  | added op own => exact .inr (.inl ⟨op, rfl, rfl⟩)
  | opened args =>
      cases hnew
      cases mem
  | cleared => cases hnew
  | @pushed _ op b built next =>
      cases hnew
      rcases List.mem_append.mp mem with old | last
      · exact .inl ⟨b, rfl, old⟩
      · rw [List.mem_singleton.mp last]
        exact .inr (.inr ⟨built, next⟩)

end BuilderCall

namespace Design

/-- The design after a list of calls. -/
def run (d : Design) (calls : List BuilderCall) : Design := calls.foldl (fun d c => c.after d) d

/-- The calls, each with the design that it was made on. -/
def log (d : Design) : List BuilderCall → List (Design × BuilderCall)
  | [] => []
  | c :: calls => (d, c) :: (c.after d).log calls

/-- All values that a list of calls gives. -/
def produced (d : Design) (calls : List BuilderCall) : List Value :=
  (d.log calls).flatMap fun (d, c) => c.values d

variable {d : Design}

theorem run_append (d : Design) (calls more : List BuilderCall) :
    d.run (calls ++ more) = (d.run calls).run more := List.foldl_append

theorem log_append (d : Design) (calls more : List BuilderCall) :
    d.log (calls ++ more) = d.log calls ++ (d.run calls).log more := by
  induction calls generalizing d with
  | nil => rfl
  | cons c calls ih => exact congrArg _ (ih (c.after d))

theorem retains_run (d : Design) (calls : List BuilderCall) : d.Retains (d.run calls) := by
  induction calls generalizing d with
  | nil => exact .refl d
  | cons c calls ih => exact (c.turns d).retains.trans (ih (c.after d))

theorem nextOp_le_run (d : Design) (calls : List BuilderCall) : d.nextOp ≤ (d.run calls).nextOp := by
  induction calls generalizing d with
  | nil => exact Nat.le_refl _
  | cons c calls ih => exact (c.turns d).nextOp_le.trans (ih (c.after d))

end Design

end Hardware
