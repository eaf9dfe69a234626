import Hardware.Proofs.Creation

/-!
How an instance is built. A call that succeeds keeps track of an instance that stands in the
body of the innermost running generator. One that fails is not undone: what it had built by
then stays in the body, and a symbol that it was granted stays granted.
-/
namespace Hardware

variable {U : UserCode}

namespace System.Pushes

variable {sys : System} {ws : Workspace U} {scope : Scope GeneratorSite}
  {outer : List (Scope GeneratorSite)} {b : Block} {op : Operation}

theorem fresh (P : sys.Pushes scope outer b op) (h : sys.Sound ws) :
    ∃ mop, sys.design.findModule? scope.site.ip.owner = some mop ∧
      mop.kind = .real (some b) ∧ ∀ o ∈ b.ops, o.id ≠ op.id := by
  obtain ⟨b', body, -, numbered⟩ := h.body?_top P.top
  rw [P.body] at body
  cases body
  obtain ⟨mop, hop, hk⟩ := Design.kind_of_body? P.body
  refine ⟨mop, hop, hk, fun o ho e => ?_⟩
  have lt := numbered o ho
  rw [e, P.id] at lt
  exact Nat.lt_irrefl _ lt

theorem verifyOp (P : sys.Pushes scope outer b op) (h : sys.Sound ws)
    (operands : ∀ v ∈ op.operands, sys.Defined v)
    (kind : ∀ mop, sys.design.findModule? scope.site.ip.owner = some mop →
      (sys.push scope.site.ip.owner b op).design.checkKind
        (mop.withBody (some (b.push op))) op = .ok ()) :
    (sys.push scope.site.ip.owner b op).design.verifyOp scope.site.ip.owner op.id = .ok () := by
  obtain ⟨mop, hop, hk, fresh⟩ := P.fresh h
  refine Design.verifyOp_push hop hk fresh (fun v hv => ?_) (kind mop hop)
  obtain ⟨scope', outer', mop', top, hop', defined⟩ := operands v hv
  rw [P.top] at top
  cases top
  rw [hop] at hop'
  cases hop'
  exact defined

/-- The results of the operation are defined from then on. -/
theorem defined (P : sys.Pushes scope outer b op) (h : sys.Sound ws) {v : Value} {i : Nat}
    (source : v.source = .result op.id i) (hv : op.results[i]? = some v) :
    (sys.push scope.site.ip.owner b op).Defined v := by
  obtain ⟨mop, hop, hk, fresh⟩ := P.fresh h
  refine ⟨scope, outer, mop.withBody (some (b.push op)), P.top, ?_,
    Design.defines_result_push hk fresh source hv⟩
  rw [System.push, Design.findModule?_push, if_pos rfl, hop]
  rfl

theorem defined_of_mem (P : sys.Pushes scope outer b op) (h : sys.Sound ws)
    {types : List SignalType}
    (results : op.results = types.mapIdx fun i t => ⟨.result ⟨sys.design.nextOp⟩ i, t⟩)
    {v : Value} (hv : v ∈ op.results) : (sys.push scope.site.ip.owner b op).Defined v := by
  obtain ⟨i, hi⟩ := List.mem_iff_getElem?.mp hv
  refine P.defined h ?_ hi
  rw [results, List.getElem?_mapIdx] at hi
  obtain ⟨t, -, rfl⟩ := Option.map_eq_some_iff.mp hi
  rw [P.id]

end System.Pushes

theorem System.Sound.building {sys : System} {ws : Workspace U} (h : sys.Sound ws)
    {scope : Scope GeneratorSite} {outer : List (Scope GeneratorSite)}
    (top : sys.running.scopes = scope :: outer) : sys.Building := by
  obtain ⟨b, body, opened, -⟩ := h.body?_top top
  exact ⟨scope, outer, b, top, body, opened.not_terminated⟩

theorem System.IsInstance.holds {sys : System} {ws : Workspace U} {scope : Scope GeneratorSite}
    {outer : List (Scope GeneratorSite)} {b : Block} {op : Operation} {target name : Ident}
    {m : ModuleId} (inst : sys.IsInstance target name op) (P : sys.Pushes scope outer b op)
    (h : sys.Sound ws) (hm : sys.symbolOf? m = some target) :
    (sys.push scope.site.ip.owner b op).Holds name m ⟨scope.site.ip.owner, op.id, op.results⟩ := by
  obtain ⟨params, kind⟩ := inst.kind
  obtain ⟨t, ht, results⟩ := inst.results
  obtain ⟨mop, hop, hk, fresh⟩ := P.fresh h
  obtain ⟨t', ht', grows⟩ := Design.Grows.push P.body op target t ht
  refine ⟨target, t', op, params, hm, ht', ?_, kind, rfl, ?_⟩
  · have body : (sys.push scope.site.ip.owner b op).design.body? scope.site.ip.owner =
        some (b.push op) := by
      refine Design.body?_of_kind ?_ (ModuleOp.kind_withBody hk)
      rw [System.push, Design.findModule?_push, if_pos rfl, hop]
      rfl
    rw [Design.findOp?, body]
    exact Block.findOp?_push_self fresh
  · rw [grows.outputs, P.id]
    exact results

namespace PortDesc

/-- The constant that has to be built where a port is bound to a value. -/
def constant? (p : PortDesc) : PortValue → Option (SignalType × Constant)
  | .signal _ => none
  | .constant c => some (p.type, c)
  | .disconnected => some (p.type, p.type.zero)

/-- The constants for several ports, in port order. -/
def constants (slots : List (PortDesc × PortValue)) : List (SignalType × Constant) :=
  slots.flatMap fun slot => (slot.1.constant? slot.2).toList

end PortDesc

/-- The type can hold the constant. -/
def Constant.Fits (c : Constant) (type : SignalType) : Prop := type.check c = .ok ()

/-- The operation is a constant, and its type can hold it. -/
structure Operation.IsConstant (op : Operation) (c : SignalType × Constant) : Prop where
  kind : op.kind = .constant c.2
  types : op.results.map Value.type = [c.1]
  fits : c.2.Fits c.1

/-- The operand that an input gets: the signal that it is bound to, or else the constant that is
built for it, which is found among `ops`. -/
inductive PortDesc.Feeds (ops : List Operation) : PortDesc × PortValue → Value → Prop
  | signal (p : PortDesc) (v : Value) : Feeds ops (p, .signal v) v
  | constant {p : PortDesc} {value : PortValue} {c : SignalType × Constant} {op : Operation}
      {v : Value} (converted : p.constant? value = some c) (built : op ∈ ops)
      (holds : op.IsConstant c) (result : op.results = [v]) : Feeds ops (p, value) v

theorem PortDesc.Feeds.mono {ops more : List Operation} {slot : PortDesc × PortValue} {v : Value}
    (h : PortDesc.Feeds ops slot v) (sub : ops ⊆ more) : PortDesc.Feeds more slot v := by
  cases h with
  | signal p v => exact .signal p v
  | constant converted built holds result => exact .constant converted (sub built) holds result

/-- What has been built on top of `old`, where `scope` was the innermost scope and `b` its body:
the body has got the operations `ops`, and `names` are granted. -/
structure System.Builds (old sys : System) (scope : Scope GeneratorSite)
    (outer : List (Scope GeneratorSite)) (b : Block) (names : NameSupply)
    (ops : List Operation) : Prop where
  instances : sys.instances = old.instances
  worklist : sys.worklist = old.worklist
  scopes : sys.running.scopes = { scope with names } :: outer
  body : sys.design.body? scope.site.ip.owner = some { b with ops := b.ops ++ ops }

namespace System.Builds

variable {old sys : System} {scope scope' : Scope GeneratorSite}
  {outer outer' : List (Scope GeneratorSite)} {b b' : Block} {names : NameSupply}
  {ops : List Operation} {op : Operation}

theorem start (top : old.running.scopes = scope :: outer)
    (body : old.design.body? scope.site.ip.owner = some b) :
    old.Builds old scope outer b scope.names [] where
  instances := rfl
  worklist := rfl
  scopes := top
  body := by rw [List.append_nil, body]

theorem of_created {ws ws' : Workspace U} {s : SystemId} {m : ModuleId} {sym : Ident}
    (h : ws.Sound) (created : Workspace.Created ws s m sym ws') (hs : ws.system? s = some old)
    (hs' : ws'.system? s = some sys) (top : old.running.scopes = scope :: outer)
    (body : old.design.body? scope.site.ip.owner = some b) :
    old.Builds sys scope outer b scope.names [] := by
  obtain ⟨mop, hop, hk⟩ := Design.kind_of_body? body
  have found := created.findModule? h hs hs' hop
  have body' : sys.design.body? scope.site.ip.owner = some { b with ops := b.ops ++ [] } := by
    rw [List.append_nil]
    exact Design.body?_of_kind found hk
  cases created with
  | cached hold hsym =>
      rw [hs'] at hs
      cases hs
      exact start top body
  | declared hold hx declared new =>
      rw [hs] at hold
      cases hold
      rw [Workspace.system?_setSystem_self hs] at hs'
      cases hs'
      exact ⟨rfl, rfl, top, body'⟩
  | @imported _ x _ hold hx held new free =>
      rw [hs] at hold
      cases hold
      have there : (ws.setModule m { x with origin := .imported none }).system? s = some old := hs
      rw [Workspace.system?_setSystem_self there] at hs'
      cases hs'
      exact ⟨rfl, rfl, top, body'⟩

theorem push (a : old.Builds sys scope outer b names ops) (P : sys.Pushes scope' outer' b' op) :
    old.Builds (sys.push scope'.site.ip.owner b' op) scope outer b names (ops ++ [op]) := by
  have top := P.top
  have body := P.body
  rw [a.scopes] at top
  cases top
  obtain ⟨mop, hop, hk⟩ := Design.kind_of_body? body
  rw [a.body] at body
  cases body
  refine ⟨a.instances, a.worklist, a.scopes, ?_⟩
  have found :
      (sys.push scope.site.ip.owner { b with ops := b.ops ++ ops } op).design.findModule?
          scope.site.ip.owner =
        some (mop.withBody (some { b with ops := b.ops ++ (ops ++ [op]) })) := by
    rw [System.push, Design.findModule?_push, if_pos rfl, hop, Option.map_some, Block.push,
      List.append_assoc]
  exact Design.body?_of_kind found (ModuleOp.kind_withBody hk)

theorem grant (a : old.Builds sys scope outer b names ops) (base : Ident)
    (top : sys.running.scopes = scope' :: outer') :
    old.Builds
      { sys with running := ⟨{ scope' with names := (scope'.names.uniquify base).2 } :: outer'⟩ }
      scope outer b (names.uniquify base).2 ops := by
  rw [a.scopes] at top
  cases top
  exact ⟨a.instances, a.worklist, rfl, a.body⟩

end System.Builds

/-- The innermost scope is still `scope`, but with `names` granted, and its body `b` has got the
operations `ops`. -/
structure System.Gains (sys : System) (scope : Scope GeneratorSite)
    (outer : List (Scope GeneratorSite)) (b : Block) (names : NameSupply)
    (ops : List Operation) : Prop where
  scopes : sys.running.scopes = { scope with names } :: outer
  body : sys.design.body? scope.site.ip.owner = some { b with ops := b.ops ++ ops }

theorem System.Builds.gains {old sys : System} {scope : Scope GeneratorSite}
    {outer : List (Scope GeneratorSite)} {b : Block} {names : NameSupply} {ops : List Operation}
    (a : old.Builds sys scope outer b names ops) : sys.Gains scope outer b names ops :=
  ⟨a.scopes, a.body⟩

namespace Workspace

variable {ws ws' : Workspace U} {s : SystemId} {m : ModuleId} {p : Permit}

/-- If `m` has a generator, it is generated or waits for it. -/
def Waits (ws : Workspace U) (s : SystemId) (m : ModuleId) : Prop :=
  ∀ x, ws.module? m = some x → x.hasGenerator = true →
    ∃ sys, ws.system? s = some sys ∧ (sys.isGenerated m = true ∨ m ∈ sys.worklist)

/-- The results of the instance `i` are defined where `s` is building. -/
def Sited (ws : Workspace U) (s : SystemId) (i : InstanceId) : Prop :=
  ∃ x site sys, ws.instance? i = some x ∧ x.site = some site ∧ ws.system? s = some sys ∧
    ∀ v ∈ site.results, sys.Defined v

theorem enqueue_ends (p : Permit) (queued : p.queued s m) {x : Module U.GeneratorCode}
    {sys : System} {sym : Ident} (hs : ws.system? s = some sys) (hx : ws.module? m = some x)
    (gen : x.hasGenerator = true) (hsym : sys.symbolOf? m = some sym) :
    (updateSystem s (System.enqueue m)).Ends ws
      (fun _ ws' => ws' = ws.setSystem s (sys.enqueue m) ∧ Changes p ws ws' ∧ ws'.Waits s m)
      fun _ _ => False := by
  refine updateSystem_ends hs ⟨rfl, .single (.enqueue hs hx gen hsym queued),
    fun _ _ _ => ⟨_, system?_setSystem_self hs _, ?_⟩⟩
  unfold System.enqueue
  cases done : sys.isGenerated m with
  | true => exact .inl (by simpa using done)
  | false => exact .inr (by simp)

/-- Only a constant changes anything, and what is pushed for it verifies. -/
theorem buildConstant_ends (h : ws.Sound) (p : Permit) (s : SystemId) (type : SignalType)
    (c : Constant) :
    (onSystem s (System.buildConstant type c)).Ends ws
      (fun v ws' => Changes p ws ws' ∧ v.type = type ∧
        (∃ sys, ws'.system? s = some sys ∧ sys.Defined v) ∧
        ∃ sys scope outer b op, ws.system? s = some sys ∧ sys.Pushes scope outer b op ∧
          op.IsConstant (type, c) ∧ op.results = [v] ∧
          ws' = ws.setSystem s (sys.push scope.site.ip.owner b op))
      fun _ ws' => ws' = ws ∧ ∀ sys, ws.system? s = some sys → sys.Building →
        ¬ c.Fits type := by
  refine onSystem_ends (fun none => ⟨rfl, fun sys hs => ?_⟩) fun sys hs =>
    (System.buildConstant_ends sys type c).imp ?_ ?_
  · rw [none] at hs
    cases hs
  · rintro v _ ⟨scope, outer, b, op, P, fits, kind, operands, results, rfl, rfl⟩
    have sound := h.systems s sys hs
    have inner : op.isTerminator = false := by
      unfold Operation.isTerminator
      rw [kind]
    have constant : op.IsConstant (type, c) := ⟨kind, by rw [results]; rfl, fits⟩
    refine ⟨.single (.push hs P.top P.body inner P.id fun _ => ?_), rfl,
      ⟨_, system?_setSystem_self hs _, ?_⟩, sys, scope, outer, b, op, hs, P, constant, results,
      rfl⟩
    · apply P.verifyOp sound (by simp [operands])
      intro mop _
      unfold Design.checkKind
      rw [kind, results]
      exact fits
    · refine P.defined sound (i := 0) ?_ (by simp [results])
      rw [P.id]
  · rintro _ _ ⟨rfl, misfit⟩
    refine ⟨setSystem_self hs, fun sys' hs' => ?_⟩
    rw [hs] at hs'
    cases hs'
    exact misfit

theorem uniquify_ends (p : Permit) (s : SystemId) (base : Ident) :
    (onSystem s (System.uniquify base)).Ends ws
      (fun name ws' => Changes p ws ws' ∧ ∃ sys scope outer, ws.system? s = some sys ∧
        sys.running.scopes = scope :: outer ∧ name = (scope.names.uniquify base).1 ∧
        ws' = ws.setSystem s
          { sys with running := ⟨{ scope with names := (scope.names.uniquify base).2 } :: outer⟩ })
      fun _ ws' => ws' = ws ∧ ∀ sys, ws.system? s = some sys → sys.running.scopes = [] := by
  refine onSystem_ends (fun none => ⟨rfl, fun sys hs => ?_⟩) fun sys hs =>
    (System.uniquify_ends sys base).imp ?_ ?_
  · rw [none] at hs
    cases hs
  · rintro _ _ ⟨scope, outer, top, same, rfl⟩
    exact ⟨.single (.grant hs top base), sys, scope, outer, hs, top, same, rfl⟩
  · rintro _ _ ⟨rfl, none⟩
    refine ⟨setSystem_self hs, fun sys' hs' => ?_⟩
    rw [hs] at hs'
    cases hs'
    exact none

section Builds

variable {old sys : System} {scope : Scope GeneratorSite} {outer : List (Scope GeneratorSite)}
  {b : Block} {names : NameSupply} {ops : List Operation}

theorem inputConstant_ends (h : ws.Sound) (p : Permit) (hs : ws.system? s = some sys)
    (a : old.Builds sys scope outer b names ops) (type : SignalType) (c : Constant) :
    (onSystem s (System.buildConstant type c)).Ends ws
      (fun v ws' => Changes p ws ws' ∧ ∃ sys' op, ws'.system? s = some sys' ∧
        old.Builds sys' scope outer b names (ops ++ [op]) ∧ op.IsConstant (type, c) ∧
        op.results = [v])
      fun _ ws' => ws' = ws ∧ ¬ c.Fits type := by
  refine (buildConstant_ends h p s type c).imp ?_ ?_
  · rintro v _ ⟨changes, -, -, sys', scope', outer', b', op, hs', P, constant, result, rfl⟩
    rw [hs] at hs'
    cases hs'
    exact ⟨changes, _, op, system?_setSystem_self hs _, a.push P, constant, result⟩
  · rintro _ _ ⟨rfl, misfit⟩
    exact ⟨rfl, misfit sys hs ((h.systems s sys hs).building a.scopes)⟩

theorem inputValue_ends (h : ws.Sound) (p : Permit) (hs : ws.system? s = some sys)
    (a : old.Builds sys scope outer b names ops) (port : PortDesc) (v : PortValue) :
    (inputValue s port v).Ends ws
      (fun operand ws' => Changes p ws ws' ∧ ∃ sys' new, ws'.system? s = some sys' ∧
        old.Builds sys' scope outer b names (ops ++ new) ∧
        List.Forall₂ Operation.IsConstant new (port.constant? v).toList ∧
        PortDesc.Feeds new (port, v) operand)
      fun _ ws' => ws' = ws ∧ ∃ c, port.constant? v = some c ∧ ¬ c.2.Fits c.1 := by
  have built {c : Constant} (converted : port.constant? v = some (port.type, c)) :
      (onSystem s (System.buildConstant port.type c)).Ends ws
        (fun operand ws' => Changes p ws ws' ∧ ∃ sys' new, ws'.system? s = some sys' ∧
          old.Builds sys' scope outer b names (ops ++ new) ∧
          List.Forall₂ Operation.IsConstant new (port.constant? v).toList ∧
          PortDesc.Feeds new (port, v) operand)
        fun _ ws' => ws' = ws ∧ ∃ c, port.constant? v = some c ∧ ¬ c.2.Fits c.1 := by
    rw [converted]
    refine (inputConstant_ends h p hs a port.type c).imp ?_ fun _ _ no => ⟨no.1, _, rfl, no.2⟩
    rintro operand _ ⟨changes, sys', op, hs', a', constant, result⟩
    exact ⟨changes, sys', [op], hs', a', .cons constant .nil,
      .constant converted (List.mem_singleton_self op) constant result⟩
  cases v with
  | signal v => exact ⟨.refl, sys, [], hs, by rwa [List.append_nil], .nil, .signal port v⟩
  | constant c => exact built rfl
  | disconnected => exact built rfl

theorem inputValues_ends (p : Permit) (s : SystemId) (slots : List (PortDesc × PortValue)) :
    ∀ {ws : Workspace U} {sys : System} {ops : List Operation}, ws.Sound →
      ws.system? s = some sys → old.Builds sys scope outer b names ops →
      (slots.mapM fun (port, v) => inputValue s port v).Ends ws
        (fun values ws' => Changes p ws ws' ∧ ∃ sys' new, ws'.system? s = some sys' ∧
          old.Builds sys' scope outer b names (ops ++ new) ∧
          List.Forall₂ Operation.IsConstant new (PortDesc.constants slots) ∧
          List.Forall₂ (PortDesc.Feeds new) slots values)
        fun _ ws' => Changes p ws ws' ∧ ∃ sys' new built rest, ∃ c : SignalType × Constant,
          ws'.system? s = some sys' ∧ old.Builds sys' scope outer b names (ops ++ new) ∧
          PortDesc.constants slots = built ++ c :: rest ∧ ¬ c.2.Fits c.1 ∧
          List.Forall₂ Operation.IsConstant new built := by
  induction slots with
  | nil =>
      intro ws sys ops h hs a
      exact ⟨.refl, sys, [], hs, by rwa [List.append_nil], .nil, .nil⟩
  | cons slot slots ih =>
      intro ws sys ops h hs a
      obtain ⟨port, v⟩ := slot
      have split : PortDesc.constants ((port, v) :: slots) =
          (port.constant? v).toList ++ PortDesc.constants slots := rfl
      rw [List.mapM_cons, split]
      refine .bind ((inputValue_ends h p hs a port v).imp ?_ ?_)
      · rintro value ws₁ ⟨c₁, sys₁, first, hs₁, a₁, constant, feeds⟩
        refine .bind ((ih (Changes.sound h c₁) hs₁ a₁).imp ?_ ?_)
        · rintro values ws₂ ⟨c₂, sys₂, new, hs₂, a₂, constants, others⟩
          rw [List.append_assoc] at a₂
          refine ⟨c₁.trans c₂, sys₂, first ++ new, hs₂, a₂, List.rel_append constant constants,
            .cons (feeds.mono (List.subset_append_left first new)) ?_⟩
          exact others.imp fun _ _ fed => fed.mono (List.subset_append_right first new)
        · rintro _ ws₂ ⟨c₂, sys₂, new, built, rest, c, hs₂, a₂, same, misfit, constants⟩
          rw [List.append_assoc] at a₂
          exact ⟨c₁.trans c₂, sys₂, first ++ new, _, rest, c, hs₂, a₂,
            by rw [same, List.append_assoc], misfit, List.rel_append constant constants⟩
      · rintro _ _ ⟨rfl, c, same, misfit⟩
        exact ⟨.refl, sys, [], [], PortDesc.constants slots, c, hs, by rwa [List.append_nil],
          by rw [same]; rfl, misfit, .nil⟩

theorem grantName_ends (p : Permit) (hs : ws.system? s = some sys)
    (a : old.Builds sys scope outer b names ops) (base : Ident) :
    (onSystem s (System.uniquify base)).Ends ws
      (fun name ws' => Changes p ws ws' ∧ name = (names.uniquify base).1 ∧
        ∃ sys', ws'.system? s = some sys' ∧
          old.Builds sys' scope outer b (names.uniquify base).2 ops)
      fun _ _ => False := by
  refine (uniquify_ends p s base).imp ?_ ?_
  · rintro name _ ⟨changes, sys', scope', outer', hs', top, same, rfl⟩
    rw [hs] at hs'
    cases hs'
    have granted := a.grant base top
    rw [a.scopes] at top
    cases top
    exact ⟨changes, same, _, system?_setSystem_self hs _, granted⟩
  · rintro _ _ ⟨rfl, none⟩
    have empty := none sys hs
    rw [a.scopes] at empty
    cases empty

/-- An instance that fails to verify is pushed nevertheless. -/
theorem buildInstance_ends (h : ws.Sound) (hs : ws.system? s = some sys)
    (a : old.Builds sys scope outer b names ops)
    (verified : p.verified s → sys.conf.verifyInstances = true) {target : Ident}
    (known : sys.symbolOf? m = some target) (name : Ident) (inputs : List Value)
    (params : Option Attr) (appid : Option AppId) (loc : Location) :
    (onSystem s (System.buildInstance scope.site.ip target name inputs params appid loc)).Ends ws
      (fun r ws' => Changes p ws ws' ∧ ∃ sys' op, ws'.system? s = some sys' ∧
        (∀ v ∈ r.2, sys'.Defined v) ∧ sys'.Holds name m ⟨scope.site.ip.owner, r.1, r.2⟩ ∧
        (∃ params, op.kind = .inst name target params) ∧ op.operands = inputs ∧
        old.Builds sys' scope outer b names (ops ++ [op]))
      fun _ ws' => Changes { p with verified := fun _ => False } ws ws' ∧
        (ws' = ws ∧ target = scope.site.ip.owner ∨
          ∃ sys' op, ws'.system? s = some sys' ∧ sys'.symbolOf? m = some target ∧
            (∃ params, op.kind = .inst name target params) ∧ op.operands = inputs ∧
            sys'.design.verifyOp scope.site.ip.owner op.id ≠ .ok () ∧
            old.Builds sys' scope outer b names (ops ++ [op])) := by
  have sound := h.systems s sys hs
  apply onSystem_ends_of_some hs
  have fresh : ∀ b, sys.design.body? scope.site.ip.owner = some b →
      ∀ o ∈ b.ops, o.id ≠ ⟨sys.design.nextOp⟩ := by
    intro b body o ho e
    obtain ⟨b', body', -, numbered⟩ := sound.body?_top a.scopes
    rw [body] at body'
    cases body'
    have lt := numbered o ho
    rw [e] at lt
    exact Nat.lt_irrefl _ lt
  refine (System.buildInstance_ends sys a.scopes fresh target name inputs params appid loc).imp
    ?_ ?_
  · rintro _ _ ⟨b, op, P, inst, operands, rfl, rfl, checks⟩
    obtain ⟨t, -, results⟩ := inst.results
    exact ⟨.single (.push hs P.top P.body inst.inner P.id fun v => checks (verified v)),
      _, op, system?_setSystem_self hs _, fun v hv => P.defined_of_mem sound results hv,
      inst.holds P sound known, inst.kind, operands, a.push P⟩
  · rintro _ _ (⟨rfl, cause⟩ | ⟨b, op, P, inst, operands, rfl, on, unverified⟩)
    · rw [setSystem_self hs]
      refine ⟨.refl, .inl ⟨rfl, (cause (sound.building a.scopes)).resolve_right fun unknown => ?_⟩⟩
      obtain ⟨-, op, -, hop, -⟩ := sound.present m target known
      rw [unknown] at hop
      cases hop
    · exact ⟨.single (.push hs P.top P.body inst.inner P.id False.elim), .inr
        ⟨_, op, system?_setSystem_self hs _, known, inst.kind, operands, unverified,
          a.push P⟩⟩

end Builds

theorem keepInstance_ends {x : Module U.GeneratorCode} {sys : System} {sym : Ident}
    (queued : p.queued s m) (hs : ws.system? s = some sys) (hx : ws.module? m = some x)
    (hsym : sys.symbolOf? m = some sym) (inst : Instance) (home : inst.system = s)
    (placed : ∀ site, inst.site = some site → sys.Holds inst.name inst.target site)
    (within : ∀ site, inst.site = some site → site.parent ∈ sys.owners)
    (gen : Bool) (same : gen = x.hasGenerator) :
    (do
      let i ← addInstance inst
      updateSystem s fun sys => { sys with instances := sys.instances ++ [i] }
      if gen then
        updateSystem s (System.enqueue m)
      pure i : Effect (Workspace U) InstanceId).Ends ws
      (fun i ws' => Changes p ws ws' ∧ ws'.Waits s m ∧ ws'.instance? i = some inst ∧
        ∃ sys', ws'.system? s = some sys' ∧ sys'.design = sys.design ∧ sys'.running = sys.running)
      fun _ _ => False := by
  subst home same
  refine .bind ?_
  change (updateSystem inst.system _ >>= _).Ends { ws with instances := ws.instances ++ [inst] } _ _
  have there : ({ ws with instances := ws.instances ++ [inst] } : Workspace U).system? inst.system =
      some sys := hs
  refine .bind (updateSystem_ends there ?_)
  have tracked : Changes p ws _ := .single (.track hs placed within)
  have last : (ws.instances ++ [inst])[ws.instances.length]? = some inst := by simp
  split
  · rename_i gen
    have self := system?_setSystem_self there
      { sys with instances := sys.instances ++ [⟨ws.instances.length⟩] }
    refine .bind ((enqueue_ends p queued self hx gen hsym).imp ?_ fun _ _ no => no.elim)
    rintro _ _ ⟨rfl, more, waits⟩
    refine ⟨tracked.trans more, waits, last, ?_⟩
    refine ⟨_, system?_setSystem_self self _, ?_⟩
    obtain ⟨waiting, same, -⟩ := System.enqueue_eq
      { sys with instances := sys.instances ++ [⟨ws.instances.length⟩] } m
    rw [same]
    exact ⟨rfl, rfl⟩
  · rename_i none
    refine ⟨tracked, fun y hy gen => ?_, last, _, system?_setSystem_self there _, rfl, rfl⟩
    rw [module?_setSystem] at hy
    have same : y = x := Option.some.inj (hy.symm.trans hx)
    rw [same] at gen
    exact absurd gen none

/-- The last steps of a call of `instantiate`, once the constants `ops` are built: the name is
granted, the instance is built and kept track of. -/
theorem placeInstance_ends (h : ws.Sound) (queued : p.queued s m) {old sys : System}
    {scope : Scope GeneratorSite} {outer : List (Scope GeneratorSite)} {b : Block}
    {ops : List Operation} {x x' : Module U.GeneratorCode} {target : Ident}
    (hs : ws.system? s = some sys) (hx : ws.module? m = some x') (schema : x'.schema = x.schema)
    (a : old.Builds sys scope outer b scope.names ops)
    (verified : p.verified s → sys.conf.verifyInstances = true)
    (known : sys.symbolOf? m = some target) (r : InstanceRequest) (values : List Value) :
    (do
      let name ← onSystem s (System.uniquify (r.name.getD x.schema.name))
      let params := if x.hasGenerator then none else x.parameters
      let (op, results) ←
        onSystem s (System.buildInstance scope.site.ip target name values params r.appid r.loc)
      let site : InstanceSite := { parent := scope.site.ip.owner, op, results }
      let i ← addInstance { name, system := s, target := m, appid := r.appid, site := some site }
      updateSystem s fun sys => { sys with instances := sys.instances ++ [i] }
      if x.hasGenerator then
        updateSystem s (System.enqueue m)
      pure i : Effect (Workspace U) InstanceId).Ends ws
      (fun i ws' => (Changes p ws ws' ∧ ws'.Waits s m ∧ ws'.Sited s i) ∧
        ∃ sys' op params, ws'.system? s = some sys' ∧
          op.kind = .inst (scope.names.uniquify (r.name.getD x.schema.name)).1 target params ∧
          op.operands = values ∧
          sys'.Gains scope outer b (scope.names.uniquify (r.name.getD x.schema.name)).2
            (ops ++ [op]) ∧
          ∃ inst, ws'.instance? i = some inst ∧
            inst.name = (scope.names.uniquify (r.name.getD x.schema.name)).1)
      fun _ ws' => Changes p.failed ws ws' ∧ ∃ sys', ws'.system? s = some sys' ∧
        (sys'.symbolOf? m = some scope.site.ip.owner ∧
            old.Builds sys' scope outer b
              (scope.names.uniquify (r.name.getD x.schema.name)).2 ops ∨
          ∃ op params, sys'.symbolOf? m = some target ∧
            op.kind = .inst (scope.names.uniquify (r.name.getD x.schema.name)).1 target params ∧
            op.operands = values ∧ sys'.design.verifyOp scope.site.ip.owner op.id ≠ .ok () ∧
            old.Builds sys' scope outer b
              (scope.names.uniquify (r.name.getD x.schema.name)).2 (ops ++ [op])) := by
  refine .bind ((grantName_ends p.quiet hs a _).imp (fun name ws₁ ok => ?_)
    fun _ _ no => no.elim)
  obtain ⟨c₁, naming, sys₁, hs₁, a₁⟩ := ok
  obtain ⟨sys₁', hs₁', conf, symbols₁⟩ := (Changes.extends c₁).systems s sys hs
  rw [hs₁] at hs₁'
  cases hs₁'
  have known₁ := symbols₁ m target known
  have verified₁ : p.quiet.verified s → sys₁.conf.verifyInstances = true := fun v => by
    rw [conf]
    exact verified v
  refine .bind ((buildInstance_ends (Changes.sound h c₁) hs₁ a₁ verified₁ known₁ _ _ _ _ _).imp
    (fun built ws₂ ok => ?_) fun _ ws₂ no => ?_)
  · obtain ⟨c₂, sys₂, op, hs₂, defined, holds, ⟨params, kind⟩, operands, a₂⟩ := ok
    have c : Changes p.quiet ws ws₂ := c₁.trans c₂
    obtain ⟨y, hy, schema', -⟩ := (Changes.extends c).modules m x' hx
    obtain ⟨sys₂', hs₂', -, symbols⟩ := (Changes.extends c).systems s sys hs
    rw [hs₂] at hs₂'
    cases hs₂'
    have gen : x.hasGenerator = y.hasGenerator := by
      unfold Module.hasGenerator
      rw [schema', schema]
    have placed : ∀ site, some (⟨scope.site.ip.owner, built.1, built.2⟩ : InstanceSite) =
        some site → sys₂.Holds name m site := by
      rintro _ ⟨⟩
      exact holds
    have within : ∀ site, some (⟨scope.site.ip.owner, built.1, built.2⟩ : InstanceSite) =
        some site → site.parent ∈ sys₂.owners := by
      rintro _ ⟨⟩
      simp only [System.owners, a₂.scopes, List.map_cons, List.mem_cons_self]
    refine (keepInstance_ends queued hs₂ hy (symbols m target known) _ rfl placed within _
      gen).imp ?_ fun _ _ no => no.elim
    rintro i ws' ⟨c₃, waits, hi, sys', hs', design, running⟩
    refine ⟨⟨(Changes.mono p.quiet_le c).trans c₃, waits, _, _, sys', hi, rfl, hs', ?_⟩,
      sys', op, params, hs', naming ▸ kind, operands, ⟨?_, ?_⟩, _, hi, naming⟩
    · intro v hv
      unfold System.Defined
      rw [design, running]
      exact defined v hv
    · rw [running]
      exact a₂.scopes
    · rw [design]
      exact a₂.body
  · obtain ⟨c₂, cause⟩ := no
    refine ⟨(Changes.mono p.quiet_le_failed c₁).trans c₂, ?_⟩
    rcases cause with
      ⟨rfl, self⟩ | ⟨sys₂, op, hs₂, hsym, ⟨params, kind⟩, operands, unverified, a₂⟩
    · exact ⟨sys₁, hs₁, .inl ⟨self ▸ known₁, a₁⟩⟩
    · exact ⟨sys₂, hs₂, .inr ⟨op, params, hsym, naming ▸ kind, operands, unverified, a₂⟩⟩

/-- How a call of `instantiate` fails that is made on `sys`, and what it leaves. Nothing has been
built if the inputs were refused or the module could get no operation. Otherwise the constants
stay that were built before the failure; a symbol stays granted where all of them fit; an
instance stays that does not verify. -/
inductive Aborts (m : ModuleId) (r : InstanceRequest) (x : Module U.GeneratorCode)
    (sys sys' : System) (scope : Scope GeneratorSite) (outer : List (Scope GeneratorSite))
    (b : Block) : Prop
  | refused (cause : (∀ bound, x.bindInputs r.inputs ≠ .ok bound) ∨ sys.Refuses m x)
      (same : sys' = sys)
  | misfit {bound : List PortValue} {built rest : List (SignalType × Constant)}
      {c : SignalType × Constant} {ops : List Operation}
      (inputs : x.bindInputs r.inputs = .ok bound)
      (known : ¬ sys.Refuses m x)
      (constants : PortDesc.constants (x.schema.inputs.zip bound) = built ++ c :: rest)
      (misfit : ¬ c.2.Fits c.1) (left : List.Forall₂ Operation.IsConstant ops built)
      (builds : sys.Builds sys' scope outer b scope.names ops)
  | itself {bound : List PortValue} {ops : List Operation}
      (inputs : x.bindInputs r.inputs = .ok bound) (known : ¬ sys.Refuses m x)
      (left : List.Forall₂ Operation.IsConstant ops
        (PortDesc.constants (x.schema.inputs.zip bound)))
      (own : sys'.symbolOf? m = some scope.site.ip.owner)
      (builds : sys.Builds sys' scope outer b
        (scope.names.uniquify (r.name.getD x.schema.name)).2 ops)
  | unverified {bound : List PortValue} {ops : List Operation} {op : Operation} {sym : Ident}
      {params : Option Attr} (inputs : x.bindInputs r.inputs = .ok bound)
      (known : ¬ sys.Refuses m x)
      (left : List.Forall₂ Operation.IsConstant ops
        (PortDesc.constants (x.schema.inputs.zip bound)))
      (hsym : sys'.symbolOf? m = some sym)
      (kind : op.kind = .inst (scope.names.uniquify (r.name.getD x.schema.name)).1 sym params)
      (unverified : sys'.design.verifyOp scope.site.ip.owner op.id ≠ .ok ())
      (builds : sys.Builds sys' scope outer b
        (scope.names.uniquify (r.name.getD x.schema.name)).2 (ops ++ [op]))

/-- What a call of `instantiate` has left in `s` that failed. -/
def Aborted (ws : Workspace U) (s : SystemId) (m : ModuleId) (r : InstanceRequest)
    (ws' : Workspace U) : Prop :=
  ∀ sys x scope outer b, ws.system? s = some sys → ws.module? m = some x →
    sys.running.scopes = scope :: outer → sys.design.body? scope.site.ip.owner = some b →
      ∃ sys', ws'.system? s = some sys' ∧ Aborts m r x sys sys' scope outer b

/-- One system, module, scope and body is all that such a call sees. -/
theorem Aborted.intro {ws ws' : Workspace U} {r : InstanceRequest} {x : Module U.GeneratorCode}
    {sys sys' : System} {scope : Scope GeneratorSite} {outer : List (Scope GeneratorSite)}
    {b : Block} (hs : ws.system? s = some sys) (hx : ws.module? m = some x)
    (top : sys.running.scopes = scope :: outer)
    (body : sys.design.body? scope.site.ip.owner = some b) (hs' : ws'.system? s = some sys')
    (a : Aborts m r x sys sys' scope outer b) : ws.Aborted s m r ws' := by
  intro sys₁ x₁ scope₁ outer₁ b₁ hs₁ hx₁ top₁ body₁
  rw [hs] at hs₁
  rw [hx] at hx₁
  cases hs₁
  cases hx₁
  rw [top] at top₁
  cases top₁
  rw [body] at body₁
  cases body₁
  exact ⟨sys', hs', a⟩

/-- What a call of `instantiate` has added whose inputs were bound to `bound`: constants for the
inputs in port order, then a symbol unless the module can get no operation or one of the constants
does not fit, and then the instance, which the inputs feed. -/
inductive Assembles (m : ModuleId) (r : InstanceRequest) (x : Module U.GeneratorCode)
    (sys : System) (scope : Scope GeneratorSite) (outer : List (Scope GeneratorSite)) (b : Block)
    (bound : List PortValue) (sys' : System) : Prop
  | unnamed {built rest : List (SignalType × Constant)} {ops : List Operation}
      (stopped : sys.Refuses m x ∨
        ∃ c ∈ PortDesc.constants (x.schema.inputs.zip bound), ¬ c.2.Fits c.1)
      (constants : PortDesc.constants (x.schema.inputs.zip bound) = built ++ rest)
      (left : List.Forall₂ Operation.IsConstant ops built)
      (gains : sys'.Gains scope outer b scope.names ops)
  | named {ops : List Operation} (known : ¬ sys.Refuses m x)
      (left : List.Forall₂ Operation.IsConstant ops
        (PortDesc.constants (x.schema.inputs.zip bound)))
      (gains : sys'.Gains scope outer b
        (scope.names.uniquify (r.name.getD x.schema.name)).2 ops)
  | placed {ops : List Operation} {op : Operation} {target : Ident} {params : Option Attr}
      (known : ¬ sys.Refuses m x)
      (left : List.Forall₂ Operation.IsConstant ops
        (PortDesc.constants (x.schema.inputs.zip bound)))
      (kind : op.kind =
        .inst (scope.names.uniquify (r.name.getD x.schema.name)).1 target params)
      (operands : List.Forall₂ (PortDesc.Feeds ops) (x.schema.inputs.zip bound) op.operands)
      (gains : sys'.Gains scope outer b
        (scope.names.uniquify (r.name.getD x.schema.name)).2 (ops ++ [op]))

/-- What a call of `instantiate` has added in `s`, if its inputs were bound. -/
def Assembled (ws : Workspace U) (s : SystemId) (m : ModuleId) (r : InstanceRequest)
    (ws' : Workspace U) : Prop :=
  ∀ sys x scope outer b bound, ws.system? s = some sys → ws.module? m = some x →
    sys.running.scopes = scope :: outer → sys.design.body? scope.site.ip.owner = some b →
      x.bindInputs r.inputs = .ok bound →
        ∃ sys', ws'.system? s = some sys' ∧ Assembles m r x sys scope outer b bound sys'

theorem Assembled.intro {ws ws' : Workspace U} {r : InstanceRequest} {x : Module U.GeneratorCode}
    {sys sys' : System} {scope : Scope GeneratorSite} {outer : List (Scope GeneratorSite)}
    {b : Block} {bound : List PortValue} (hs : ws.system? s = some sys)
    (hx : ws.module? m = some x) (top : sys.running.scopes = scope :: outer)
    (body : sys.design.body? scope.site.ip.owner = some b)
    (inputs : x.bindInputs r.inputs = .ok bound) (hs' : ws'.system? s = some sys')
    (a : Assembles m r x sys scope outer b bound sys') : ws.Assembled s m r ws' := by
  intro sys₁ x₁ scope₁ outer₁ b₁ bound₁ hs₁ hx₁ top₁ body₁ inputs₁
  rw [hs] at hs₁
  rw [hx] at hx₁
  cases hs₁
  cases hx₁
  rw [top] at top₁
  cases top₁
  rw [body] at body₁
  cases body₁
  rw [inputs] at inputs₁
  cases inputs₁
  exact ⟨sys', hs', a⟩

/-- Where a call of `instantiate` succeeds, the last that it has added is the instance `i`. -/
inductive Installs (ws : Workspace U) (s : SystemId) (i : InstanceId) (ws' : Workspace U) : Prop
  | intro {sys sys' : System} {scope : Scope GeneratorSite} {outer : List (Scope GeneratorSite)}
      {b : Block} {names : NameSupply} {constants : List (SignalType × Constant)}
      {ops : List Operation} {op : Operation} {inst : Instance} {target : Ident}
      {params : Option Attr} (hs : ws.system? s = some sys)
      (top : sys.running.scopes = scope :: outer)
      (body : sys.design.body? scope.site.ip.owner = some b) (hs' : ws'.system? s = some sys')
      (hi : ws'.instance? i = some inst) (left : List.Forall₂ Operation.IsConstant ops constants)
      (kind : op.kind = .inst inst.name target params)
      (gains : sys'.Gains scope outer b names (ops ++ [op])) : Installs ws s i ws'

theorem instantiate_ends (h : ws.Sound) (made : p.made s m) (queued : p.queued s m)
    (verified : p.verified s → ∀ sys, ws.system? s = some sys → sys.conf.verifyInstances = true)
    (r : InstanceRequest) :
    (instantiate s m r).Ends ws
      (fun i ws' => (Changes p ws ws' ∧ ws'.Waits s m ∧ ws'.Sited s i) ∧
        ws.Assembled s m r ws' ∧ ws.Installs s i ws')
      fun _ ws' => Changes p.failed ws ws' ∧ ws.Aborted s m r ws' ∧ ws.Assembled s m r ws' := by
  unfold instantiate getModule
  refine .bind (resolve_ends (fun x hx => ?_) fun none => ?_)
  · refine .bind (onSystem_ends (fun none => ?_) fun sys hs =>
      (System.currentPoint_ends sys).imp ?_ ?_)
    · refine ⟨.refl, fun _ _ _ _ _ hs => ?_, fun _ _ _ _ _ _ hs => ?_⟩ <;>
      · rw [none] at hs
        cases hs
    · rintro ip _ ⟨same, scope, outer, top, rfl⟩
      rw [same, setSystem_self hs]
      obtain ⟨b, body, -⟩ := (h.systems s sys hs).body?_top top
      have aborted {ws' : Workspace U} {sys' : System} (hs' : ws'.system? s = some sys')
          (a : Aborts m r x sys sys' scope outer b) : ws.Aborted s m r ws' :=
        .intro hs hx top body hs' a
      refine .bind (Effect.ends_locating (Effect.ends_ofExcept (fun bound inputs => ?_)
        fun e refused => ⟨.refl, aborted hs (.refused (.inl fun bound ok => ?_) rfl),
          fun _ y _ _ _ _ _ hy _ _ ok => ?_⟩))
      · have assembled {ws' : Workspace U} {sys' : System} (hs' : ws'.system? s = some sys')
            (a : Assembles m r x sys scope outer b bound sys') : ws.Assembled s m r ws' :=
          .intro hs hx top body inputs hs' a
        refine .bind ((createOp_ends h s m).imp (fun sym ws₁ created => ?_) ?_)
        · have c₁ : Changes p.quiet ws ws₁ := created.changes made
          have h₁ := Changes.sound h c₁
          have known := created.not_refuses h hs hx
          obtain ⟨-, sys₁, -, hs₁, hsym, -⟩ := created.symbolOf?
          have a₁ := System.Builds.of_created h created hs hs₁ top body
          refine .bind ((inputValues_ends p.quiet s _ h₁ hs₁ a₁).imp (fun values ws₂ ok => ?_) ?_)
          · obtain ⟨c₂, sys₂, ops, hs₂, a₂, constants, feeds⟩ := ok
            rw [List.nil_append] at a₂
            have c : Changes p.quiet ws ws₂ := c₁.trans c₂
            obtain ⟨x', hx', schema, -⟩ := (Changes.extends c).modules m x hx
            obtain ⟨sys₂', hs₂', -, symbols⟩ := (Changes.extends c₂).systems s sys₁ hs₁
            obtain ⟨sys₂'', hs₂'', conf, -⟩ := (Changes.extends c).systems s sys hs
            rw [hs₂] at hs₂' hs₂''
            cases hs₂'
            cases hs₂''
            have verified₂ : p.verified s → sys₂.conf.verifyInstances = true := fun v => by
              rw [conf]
              exact verified v sys hs
            refine (placeInstance_ends (Changes.sound h c) queued hs₂ hx' schema a₂ verified₂
              (symbols m sym hsym) r values).imp ?_ ?_
            · rintro i ws' ⟨⟨c₃, waits, sited⟩, sys', op, params, hs', kind, operands, gains, inst,
                hi, named⟩
              exact ⟨⟨(Changes.mono p.quiet_le c).trans c₃, waits, sited⟩,
                assembled hs' (.placed known constants kind (operands ▸ feeds) gains),
                .intro hs top body hs' hi constants (named.symm ▸ kind) gains⟩
            · rintro _ ws' ⟨c₃, sys', hs', left⟩
              refine ⟨(Changes.mono p.quiet_le_failed c).trans c₃, ?_⟩
              rcases left with ⟨own, a₃⟩ | ⟨op, params, hsym', kind, operands, unverified, a₃⟩
              · exact ⟨aborted hs' (.itself inputs known constants own a₃),
                  assembled hs' (.named known constants a₃.gains)⟩
              · exact ⟨aborted hs' (.unverified inputs known constants hsym' kind unverified a₃),
                  assembled hs' (.placed known constants kind (operands ▸ feeds) a₃.gains)⟩
          · rintro _ ws₂ ⟨c₂, sys₂, ops, built, rest, c, hs₂, a₂, same, misfit, constants⟩
            rw [List.nil_append] at a₂
            exact ⟨Changes.mono p.quiet_le_failed (c₁.trans c₂),
              aborted hs₂ (.misfit inputs known same misfit constants a₂),
              assembled hs₂ (.unnamed (.inr ⟨c, by simp [same], misfit⟩) same constants a₂.gains)⟩
        · rintro _ _ ⟨rfl, refuses⟩
          exact ⟨.refl, aborted hs (.refused (.inr (refuses sys x hs hx)) rfl),
            assembled hs (.unnamed (.inl (refuses sys x hs hx)) (List.nil_append _).symm .nil
              (System.Builds.start top body).gains)⟩
      · rw [refused] at ok
        cases ok
      · rw [hx] at hy
        cases hy
        rw [refused] at ok
        cases ok
    · rintro _ _ ⟨same, none⟩
      rw [same, setSystem_self hs]
      refine ⟨.refl, fun _ _ _ _ _ hs' _ top => ?_, fun _ _ _ _ _ _ hs' _ top => ?_⟩ <;>
      · rw [hs] at hs'
        cases hs'
        rw [none] at top
        cases top
  · refine ⟨.refl, fun _ _ _ _ _ _ hx => ?_, fun _ _ _ _ _ _ _ hx => ?_⟩ <;>
    · rw [none] at hx
      cases hx

end Workspace

end Hardware
