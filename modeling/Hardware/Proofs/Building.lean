import Hardware.Proofs.Change
import Hardware.Proofs.Verification

/-!
How the operations of a system end. An operation that builds either fails and leaves the
system as it was, or pushes one operation into the body of the innermost running
generator; only an instance that does not verify fails and stays.
-/
namespace Hardware.System

variable {sys : System}

/-- `v` is defined in the body of the innermost running generator. -/
def Defined (sys : System) (v : Value) : Prop :=
  ∃ scope outer op, sys.running.scopes = scope :: outer ∧
    sys.design.findModule? scope.site.ip.owner = some op ∧ op.defines v = true

/-- `op` is the next operation of `sys`, and `b` the open body that it goes into. -/
structure Pushes (sys : System) (scope : Scope GeneratorSite)
    (outer : List (Scope GeneratorSite)) (b : Block) (op : Operation) : Prop where
  top : sys.running.scopes = scope :: outer
  body : sys.design.body? scope.site.ip.owner = some b
  opened : b.isTerminated = false
  id : op.id = ⟨sys.design.nextOp⟩

/-- There is only one innermost scope. -/
theorem Pushes.scope_eq {scope scope' : Scope GeneratorSite}
    {outer outer' : List (Scope GeneratorSite)} {b : Block} {op : Operation}
    (P : sys.Pushes scope outer b op) (top : sys.running.scopes = scope' :: outer') :
    scope' = scope ∧ outer' = outer :=
  List.cons.inj (top.symm.trans P.top)

/-- A generator is running, and its body is open. -/
def Building (sys : System) : Prop :=
  ∃ scope outer b, sys.running.scopes = scope :: outer ∧
    sys.design.body? scope.site.ip.owner = some b ∧ b.isTerminated = false

theorem Building.openBlock {scope : Scope GeneratorSite} {outer : List (Scope GeneratorSite)}
    (h : sys.Building) (top : sys.running.scopes = scope :: outer) :
    ∃ b, sys.design.openBlock scope.site.ip = .ok b := by
  obtain ⟨scope', outer', b, top', body, opened⟩ := h
  rw [top] at top'
  cases top'
  exact ⟨b, Design.openBlock_eq_ok body opened⟩

theorem currentPoint_ends (sys : System) :
    currentPoint.Ends sys
      (fun ip sys' => sys' = sys ∧ ∃ scope outer, sys.running.scopes = scope :: outer ∧
        ip = scope.site.ip)
      fun _ sys' => sys' = sys ∧ sys.running.scopes = [] := by
  unfold currentPoint
  refine .bind ?_
  simp only [Effect.ends_get]
  split
  · rename_i scope outer top
    exact ⟨rfl, scope, outer, top, rfl⟩
  · rename_i none
    exact ⟨rfl, none⟩

theorem uniquify_ends (sys : System) (base : Ident) :
    (uniquify base).Ends sys
      (fun name sys' => ∃ scope outer, sys.running.scopes = scope :: outer ∧
        name = (scope.names.uniquify base).1 ∧ sys' =
          { sys with running := ⟨{ scope with names := (scope.names.uniquify base).2 } :: outer⟩ })
      fun _ sys' => sys' = sys ∧ sys.running.scopes = [] := by
  unfold uniquify ScopeStack.uniquify
  refine Effect.ends_on (.bind ?_)
  simp only [Effect.ends_get]
  split
  · rename_i scope outer top
    exact .bind (Effect.ends_set.mpr ⟨scope, outer, top, rfl, rfl⟩)
  · rename_i none
    exact ⟨rfl, none⟩

theorem buildOp_ends (sys : System) (name : Ident) (operands : List Signal)
    (types : List SignalType) (loc : Location) :
    (buildOp name operands types loc).Ends sys
      (fun sigs sys' => ∃ scope outer b,
        sys.Pushes scope outer b (sys.design.newOp (.custom name) operands types .empty loc) ∧
        sigs = (sys.design.newOp (.custom name) operands types .empty loc).results ∧
        sys' = sys.push scope.site.ip.owner b
          (sys.design.newOp (.custom name) operands types .empty loc))
      fun _ sys' => sys' = sys := by
  unfold buildOp
  refine .bind ((currentPoint_ends sys).imp ?_ fun _ _ h => h.1)
  rintro ip _ ⟨rfl, scope, outer, top, rfl⟩
  refine .bind (Effect.ends_on ((Design.buildOp_ends _ _ _ _ _ _ _).imp ?_ ?_))
  · rintro op _ ⟨b, body, opened, rfl, rfl⟩
    exact ⟨scope, outer, b, ⟨top, body, opened, rfl⟩, rfl, rfl⟩
  · rintro _ _ ⟨rfl, -⟩
    rfl

theorem buildConstant_ends (sys : System) (type : SignalType) (value : Constant) :
    (buildConstant type value).Ends sys
      (fun v sys' => ∃ scope outer b op, sys.Pushes scope outer b op ∧
        type.check value = .ok () ∧ op.kind = .constant value ∧ op.operands = [] ∧
        op.results = [v] ∧ v = ⟨.result ⟨sys.design.nextOp⟩ 0, type⟩ ∧
        sys' = sys.push scope.site.ip.owner b op)
      fun _ sys' => sys' = sys ∧ (sys.Building → type.check value ≠ .ok ()) := by
  unfold buildConstant
  refine .bind ((currentPoint_ends sys).imp ?_ ?_)
  · rintro ip _ ⟨rfl, scope, outer, top, rfl⟩
    refine .bind ?_
    simp only [Effect.ends_get]
    refine Effect.ends_on ((Design.buildConstant_ends _ _ _ _ _).imp ?_ ?_)
    · rintro v _ ⟨b, body, opened, fits, rfl, rfl⟩
      exact ⟨scope, outer, b, _, ⟨top, body, opened, rfl⟩, fits, rfl, rfl, rfl, rfl, rfl⟩
    · rintro _ _ ⟨rfl, misfit | closed⟩
      · exact ⟨rfl, fun _ => misfit⟩
      · refine ⟨rfl, fun building => ?_⟩
        obtain ⟨b, opened⟩ := building.openBlock top
        exact absurd opened (closed b)
  · rintro _ _ ⟨rfl, none⟩
    refine ⟨rfl, fun building => ?_⟩
    obtain ⟨scope, outer, b, top, -⟩ := building
    rw [none] at top
    cases top

theorem buildOutput_ends (sys : System) (values : List Value) :
    (buildOutput values).Ends sys
      (fun _ sys' => ∃ scope outer b op, sys.Pushes scope outer b op ∧ op.kind = .output ∧
        op.operands = values ∧ sys' = sys.push scope.site.ip.owner b op)
      fun _ sys' => sys' = sys := by
  unfold buildOutput
  refine .bind ((currentPoint_ends sys).imp ?_ fun _ _ h => h.1)
  rintro ip _ ⟨rfl, scope, outer, top, rfl⟩
  refine .bind ?_
  simp only [Effect.ends_get]
  refine .bind (Effect.ends_on ((Design.buildOp_ends _ _ _ _ _ _ _).imp ?_ ?_))
  · rintro op _ ⟨b, body, opened, rfl, rfl⟩
    exact ⟨scope, outer, b, _, ⟨top, body, opened, rfl⟩, rfl, rfl, rfl⟩
  · rintro _ _ ⟨rfl, -⟩
    rfl

/-- What an instance operation of `target` looks like when it is pushed: it goes by `name` and
has a result for each output of `target`. -/
structure IsInstance (sys : System) (target name : Ident) (op : Operation) : Prop where
  kind : ∃ params, op.kind = .inst name target params
  results : ∃ t, sys.design.findModule? target = some t ∧ op.results =
    (t.outputs.map Port.type).mapIdx fun i type => ⟨.result ⟨sys.design.nextOp⟩ i, type⟩

theorem IsInstance.inner {target name : Ident} {op : Operation}
    (h : sys.IsInstance target name op) : op.isTerminator = false := by
  obtain ⟨params, hk⟩ := h.kind
  unfold Operation.isTerminator
  rw [hk]

/-- To change the operation that was just pushed is to push the changed one. -/
theorem push_modifyOp {sym : Ident} {b : Block} {op : Operation}
    (body : sys.design.body? sym = some b) (fresh : ∀ o ∈ b.ops, o.id ≠ op.id)
    (f : Operation → Operation) :
    { sys.push sym b op with design := (sys.push sym b op).design.modifyOp sym op.id f } =
      sys.push sym b (f op) := by
  have pushed := Design.modifyOp_push body fresh f
  unfold System.push
  rw [pushed]

theorem verified_ends (sys : System) (owner : Ident) (id : OpId) (results : List Value) :
    (do
      let s ← get
      if s.conf.verifyInstances then
        Effect.ofExcept (s.design.verifyOp owner id)
      pure (id, results) : Effect System (OpId × List Value)).Ends sys
      (fun r sys' => r = (id, results) ∧ sys' = sys ∧
        (sys.conf.verifyInstances = true → sys.design.verifyOp owner id = .ok ()))
      fun _ sys' => sys' = sys ∧ sys.conf.verifyInstances = true ∧
        sys.design.verifyOp owner id ≠ .ok () := by
  refine .bind ?_
  simp only [Effect.ends_get]
  split
  · rename_i on
    refine .bind (Effect.ends_ofExcept (fun _ h => ⟨rfl, rfl, fun _ => h⟩) fun e h => ?_)
    refine ⟨rfl, on, fun verified => ?_⟩
    rw [h] at verified
    cases verified
  · rename_i off
    exact ⟨rfl, rfl, fun on => absurd on off⟩

/-- `fresh` says that the number of the next operation is a new one. -/
theorem buildInstance_ends (sys : System) {scope : Scope GeneratorSite}
    {outer : List (Scope GeneratorSite)} (top : sys.running.scopes = scope :: outer)
    (fresh : ∀ b, sys.design.body? scope.site.ip.owner = some b →
      ∀ o ∈ b.ops, o.id ≠ ⟨sys.design.nextOp⟩)
    (target name : Ident) (inputs : List Value) (params : Option Attr) (appid : Option AppId)
    (loc : Location) :
    (buildInstance scope.site.ip target name inputs params appid loc).Ends sys
      (fun r sys' => ∃ b op, sys.Pushes scope outer b op ∧ sys.IsInstance target name op ∧
        op.operands = inputs ∧ r = (op.id, op.results) ∧
        sys' = sys.push scope.site.ip.owner b op ∧
        (sys.conf.verifyInstances = true →
          sys'.design.verifyOp scope.site.ip.owner op.id = .ok ()))
      fun _ sys' => (sys' = sys ∧ (sys.Building → target = scope.site.ip.owner ∨
          sys.design.findModule? target = none)) ∨
        ∃ b op, sys.Pushes scope outer b op ∧ sys.IsInstance target name op ∧
          op.operands = inputs ∧ sys' = sys.push scope.site.ip.owner b op ∧
          sys.conf.verifyInstances = true ∧
          sys'.design.verifyOp scope.site.ip.owner op.id ≠ .ok () := by
  unfold buildInstance
  refine .bind (Effect.ends_on ((Design.buildInstance_ends _ _ _ _ _ _ _).imp ?_ ?_))
  · rintro op _ ⟨b, t, body, opened, other, ht, rfl, rfl⟩
    have checked : ∀ o, sys.Pushes scope outer b o → sys.IsInstance target name o →
        o.operands = inputs → (do
          let s ← get
          if s.conf.verifyInstances then
            Effect.ofExcept (s.design.verifyOp scope.site.ip.owner o.id)
          pure (o.id, o.results) : Effect System (OpId × List Value)).Ends
          (sys.push scope.site.ip.owner b o)
          (fun r sys' => ∃ b op, sys.Pushes scope outer b op ∧ sys.IsInstance target name op ∧
            op.operands = inputs ∧ r = (op.id, op.results) ∧
            sys' = sys.push scope.site.ip.owner b op ∧
            (sys.conf.verifyInstances = true →
              sys'.design.verifyOp scope.site.ip.owner op.id = .ok ()))
          fun _ sys' => (sys' = sys ∧ (sys.Building → target = scope.site.ip.owner ∨
              sys.design.findModule? target = none)) ∨
            ∃ b op, sys.Pushes scope outer b op ∧ sys.IsInstance target name op ∧
              op.operands = inputs ∧ sys' = sys.push scope.site.ip.owner b op ∧
              sys.conf.verifyInstances = true ∧
              sys'.design.verifyOp scope.site.ip.owner op.id ≠ .ok () := by
      intro o P inst operands
      refine (verified_ends (sys.push scope.site.ip.owner b o) _ _ _).imp ?_ ?_
      · rintro _ _ ⟨rfl, rfl, verified⟩
        exact ⟨b, o, P, inst, operands, rfl, rfl, verified⟩
      · rintro _ _ ⟨rfl, on, unverified⟩
        exact .inr ⟨b, o, P, inst, operands, rfl, on, unverified⟩
    cases appid with
    | none => exact checked _ ⟨top, body, opened, rfl⟩ ⟨⟨params, rfl⟩, t, ht, rfl⟩ rfl
    | some a =>
        refine .bind (Effect.ends_modify.mpr ?_)
        refine .of_eq (push_modifyOp body (fresh b body) fun o =>
          { o with attributes := o.attributes.insert "appid" a.toAttr }) ?_
        exact checked _ ⟨top, body, opened, rfl⟩ ⟨⟨params, rfl⟩, t, ht, rfl⟩ rfl
  · rintro e _ ⟨rfl, cause⟩
    refine .inl ⟨rfl, fun building => ?_⟩
    obtain ⟨b, opened⟩ := building.openBlock top
    rcases cause with self | unknown | closed
    · exact .inl self
    · exact .inr unknown
    · exact absurd opened (closed b)

end Hardware.System
