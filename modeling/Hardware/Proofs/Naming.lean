import Hardware.Proofs.Binding
import Hardware.Proofs.NameSupply
import Hardware.Proofs.Wiring

/-!
How the names in a system change. In one step at most one name is granted, and only by the
innermost scope; at most one instance is built, in the body of the generator that has this scope,
and it goes by the name that was just granted. The start of a generator adds an empty scope and an
empty body, and its end takes the scope away again.
-/
namespace Hardware

variable {U : UserCode} {ρ : Type}

/-- The name of an instance. -/
def Operation.instanceName? (op : Operation) : Option Ident :=
  match op.kind with
  | .inst name _ _ => some name
  | _ => none

theorem Operation.IsConstant.instanceName? {op : Operation} {c : SignalType × Constant}
    (h : op.IsConstant c) : op.instanceName? = none := by
  unfold Operation.instanceName?
  rw [h.kind]

theorem Operation.instanceName?_of_kind {op : Operation} {name target : Ident}
    {params : Option Attr} (kind : op.kind = .inst name target params) :
    op.instanceName? = some name := by
  unfold Operation.instanceName?
  rw [kind]

theorem instanceNames_constants {ops : List Operation} {cs : List (SignalType × Constant)}
    (h : List.Forall₂ Operation.IsConstant ops cs) :
    ops.filterMap Operation.instanceName? = [] := by
  induction h with
  | nil => rfl
  | cons first _ ih => rw [List.filterMap_cons_none first.instanceName?, ih]

theorem fits_constants {ops : List Operation} {cs : List (SignalType × Constant)}
    (h : List.Forall₂ Operation.IsConstant ops cs) : ∀ c ∈ cs, c.2.Fits c.1 := by
  induction h with
  | nil => exact fun c hc => absurd hc (List.not_mem_nil)
  | cons first _ ih =>
      intro c hc
      rcases List.mem_cons.mp hc with rfl | rest
      · exact first.fits
      · exact ih c rest

namespace Design

variable {d d' : Design} {sym q : Ident} {b : Block} {op : Operation}

/-- The names of the instances in the body of `q`, in the order in which they were built. -/
def instanceNames (d : Design) (q : Ident) : List Ident :=
  (d.body? q).elim [] fun b => b.ops.filterMap Operation.instanceName?

theorem instanceNames_of_body (body : d.body? q = some b) :
    d.instanceNames q = b.ops.filterMap Operation.instanceName? := by
  unfold instanceNames
  rw [body]
  rfl

theorem instanceNames_of_none (body : d.body? q = none) : d.instanceNames q = [] := by
  unfold instanceNames
  rw [body]
  rfl

theorem instanceNames_congr (same : d'.findModule? q = d.findModule? q) :
    d'.instanceNames q = d.instanceNames q := by
  unfold instanceNames body?
  rw [same]

theorem instanceNames_push (body : d.body? sym = some b) (op : Operation) (q : Ident) :
    (d.push sym b op).instanceNames q =
      if q = sym then d.instanceNames q ++ op.instanceName?.toList else d.instanceNames q := by
  unfold instanceNames
  rw [body?_push body]
  split
  · rename_i same
    rw [same, body]
    cases named : op.instanceName? <;> simp [Block.push, named]
  · rfl

theorem instanceNames_setBody {body : Option Block} (empty : ∀ b, body = some b → b.ops = [])
    (q : Ident) :
    (d.setBody sym body).instanceNames q = if q = sym then [] else d.instanceNames q := by
  split
  · rename_i same
    subst same
    cases hb : (d.setBody q body).body? q with
    | none => exact instanceNames_of_none hb
    | some b =>
        rw [instanceNames_of_body hb, empty b (eq_of_body?_setBody hb)]
        rfl
  · rename_i other
    unfold instanceNames
    rw [body?_setBody_ne other]

end Design

namespace System

variable {sys sys' sys'' : System} {q : Ident}

/-- No name is granted, and no instance is built in an operation that is there already. -/
structure Quiet (sys sys' : System) : Prop where
  running : sys'.running = sys.running
  ops : ∀ q op, sys.design.findModule? q = some op → ∃ op', sys'.design.findModule? q = some op'
  names : ∀ q op, sys.design.findModule? q = some op →
    sys'.design.instanceNames q = sys.design.instanceNames q

theorem Quiet.refl (sys : System) : sys.Quiet sys :=
  ⟨rfl, fun _ op h => ⟨op, h⟩, fun _ _ _ => rfl⟩

theorem Quiet.trans (h : sys.Quiet sys') (h' : sys'.Quiet sys'') : sys.Quiet sys'' where
  running := h'.running.trans h.running
  ops q op hop := by
    obtain ⟨op', hop'⟩ := h.ops q op hop
    exact h'.ops q op' hop'
  names q op hop := by
    obtain ⟨op', hop'⟩ := h.ops q op hop
    exact (h'.names q op' hop').trans (h.names q op hop)

/-- What was there stays as it is. -/
theorem Quiet.of_kept (running : sys'.running = sys.running)
    (kept : ∀ q op, sys.design.findModule? q = some op → sys'.design.findModule? q = some op) :
    sys.Quiet sys' :=
  ⟨running, fun q op hop => ⟨op, kept q op hop⟩,
    fun q op hop => Design.instanceNames_congr ((kept q op hop).trans hop.symm)⟩

/-- The innermost scope has granted a name for `base`, and the body of its owner may have got an
instance of this name. -/
structure Grants (sys : System) (scope : Scope GeneratorSite) (outer : List (Scope GeneratorSite))
    (base : Ident) (sys' : System) : Prop where
  top : sys.running.scopes = scope :: outer
  scopes : sys'.running.scopes = { scope with names := (scope.names.uniquify base).2 } :: outer
  ops : ∀ q op, sys.design.findModule? q = some op → ∃ op', sys'.design.findModule? q = some op'
  others : ∀ q op, sys.design.findModule? q = some op → q ≠ scope.site.ip.owner →
    sys'.design.instanceNames q = sys.design.instanceNames q
  own : sys'.design.instanceNames scope.site.ip.owner =
      sys.design.instanceNames scope.site.ip.owner ∨
    sys'.design.instanceNames scope.site.ip.owner =
      sys.design.instanceNames scope.site.ip.owner ++ [(scope.names.uniquify base).1]


/-- Whatever a call builds, it builds in the body of the innermost running generator. -/
theorem Keeps.names {p : Permit} {s : SystemId} (k : sys.Keeps p s sys')
    {scope : Scope GeneratorSite} {outer : List (Scope GeneratorSite)}
    (top : sys.running.scopes = scope :: outer) :
    (∀ q op, sys.design.findModule? q = some op → ∃ op', sys'.design.findModule? q = some op') ∧
      ∀ q op, sys.design.findModule? q = some op → q ≠ scope.site.ip.owner →
        sys'.design.instanceNames q = sys.design.instanceNames q := by
  constructor
  · intro q op hop
    rcases k.ops q op hop with same | ⟨-, b, changed⟩
    · exact ⟨op, same⟩
    · exact ⟨_, changed⟩
  · intro q op hop other
    rcases k.ops q op hop with same | ⟨own, -⟩
    · exact Design.instanceNames_congr (same.trans hop.symm)
    · rw [System.owners, top] at own
      exact absurd (Option.some.inj own).symm other

theorem Gains.names {scope : Scope GeneratorSite} {outer : List (Scope GeneratorSite)} {b : Block}
    {names : NameSupply} {ops : List Operation} (g : sys'.Gains scope outer b names ops)
    (body : sys.design.body? scope.site.ip.owner = some b) :
    sys'.design.instanceNames scope.site.ip.owner =
      sys.design.instanceNames scope.site.ip.owner ++ ops.filterMap Operation.instanceName? := by
  rw [Design.instanceNames_of_body g.body, Design.instanceNames_of_body body,
    List.filterMap_append]

theorem Quiet.push {scope : Scope GeneratorSite} {outer : List (Scope GeneratorSite)} {b : Block}
    {op : Operation} (P : sys.Pushes scope outer b op) (plain : op.instanceName? = none) :
    sys.Quiet (sys.push scope.site.ip.owner b op) where
  running := rfl
  ops q o ho := by
    rw [System.push, Design.findModule?_push]
    split
    · exact ⟨_, by rw [ho]; rfl⟩
    · exact ⟨o, ho⟩
  names q o _ := by
    rw [System.push, Design.instanceNames_push P.body, plain, Option.toList_none, List.append_nil,
      ite_self]

theorem buildConstant_quiet (sys : System) (type : SignalType) (c : Constant) :
    (buildConstant type c).Ends sys (fun _ sys' => sys.Quiet sys')
      fun _ sys' => sys.Quiet sys' := by
  refine (buildConstant_ends sys type c).imp ?_ ?_
  · rintro v _ ⟨scope, outer, b, op, P, -, kind, -, -, -, rfl⟩
    refine .push P ?_
    unfold Operation.instanceName?
    rw [kind]
  · rintro _ _ ⟨rfl, -⟩
    exact .refl _

theorem buildOp_quiet (sys : System) (name : Ident) (operands : List Signal)
    (types : List SignalType) (loc : Location) :
    (buildOp name operands types loc).Ends sys (fun _ sys' => sys.Quiet sys')
      fun _ sys' => sys.Quiet sys' := by
  refine (buildOp_ends sys name operands types loc).imp ?_ ?_
  · rintro _ _ ⟨scope, outer, b, P, -, rfl⟩
    exact .push P rfl
  · rintro _ _ rfl
    exact .refl _

end System

namespace Workspace

open Effect

variable {ws ws' ws'' : Workspace U} {s t : SystemId} {m : ModuleId} {sys : System} {α : Type}

/-- The system `s`, if it was there, is left quiet. -/
def Quiet (s : SystemId) (ws ws' : Workspace U) : Prop :=
  ∀ sys, ws.system? s = some sys → ∃ sys', ws'.system? s = some sys' ∧ sys.Quiet sys'

theorem Quiet.refl (s : SystemId) (ws : Workspace U) : ws.Quiet s ws :=
  fun sys hs => ⟨sys, hs, .refl sys⟩

theorem Quiet.trans (h : Quiet s ws ws') (h' : Quiet s ws' ws'') : Quiet s ws ws'' := by
  intro sys hs
  obtain ⟨sys', hs', q⟩ := h sys hs
  obtain ⟨sys'', hs'', q'⟩ := h' sys' hs'
  exact ⟨sys'', hs'', q.trans q'⟩

theorem Quiet.of_same (same : ws'.system? s = ws.system? s) : Quiet s ws ws' :=
  fun sys hs => ⟨sys, same.trans hs, .refl sys⟩

theorem Quiet.of_works (same : ws'.works = ws.works) : Quiet s ws ws' := by
  intro sys hs
  have found := congrArg (fun all => all[s.index]?) same
  simp only [works, List.getElem?_map] at found
  change (ws'.system? s).map (fun sys => (sys.design, sys.running)) =
    (ws.system? s).map fun sys => (sys.design, sys.running) at found
  rw [hs] at found
  obtain ⟨sys', hs', both⟩ := Option.map_eq_some_iff.mp found
  obtain ⟨design, running⟩ := Prod.mk.inj both
  exact ⟨sys', hs', .of_kept running fun q op hop => by rw [design, hop]⟩

theorem Quiet.setSystem {old new : System} (ht : ws.system? t = some old) (q : old.Quiet new) :
    Quiet s ws (ws.setSystem t new) := by
  intro sys hs
  rw [system?_setSystem ht]
  split
  · rename_i same
    subst same
    rw [ht] at hs
    cases hs
    exact ⟨new, rfl, q⟩
  · exact ⟨sys, hs, .refl sys⟩

/-- The operation of a module is created next to those that are there. -/
theorem Created.quiet (h : ws.Sound) {sym : Ident} (c : Created ws t m sym ws') :
    Quiet s ws ws' := by
  intro sys hs
  obtain ⟨old, new, ht, ht', -, running, -⟩ := c.symbolOf?
  by_cases same : s = t
  · subst same
    rw [hs] at ht
    cases ht
    exact ⟨new, ht', .of_kept running fun q op => c.findModule? h hs ht'⟩
  · refine ⟨sys, ?_, .refl sys⟩
    cases c with
    | cached => exact hs
    | declared => exact (system?_setSystem_ne _ same).trans hs
    | imported => exact (system?_setSystem_ne _ same).trans hs

section Maintains

theorem quiet_of_works {x : Effect (Workspace U) α} (leaves : x.Leaves works) :
    x.Maintains (ws.Quiet s) :=
  leaves.maintains fun _ _ same h => h.trans (.of_works same)

theorem quiet_onSystem {x : Effect System α}
    (quiet : ∀ sys, x.Ends sys (fun _ sys' => sys.Quiet sys') fun _ sys' => sys.Quiet sys') :
    (onSystem t x).Maintains (ws.Quiet s) := fun _ h =>
  onSystem_ends (fun _ => h) fun sys ht =>
    (quiet sys).imp (fun _ _ q => h.trans (.setSystem ht q)) fun _ _ q => h.trans (.setSystem ht q)

/-- Whatever is done in another system. -/
theorem quiet_onSystem_of_ne (other : s ≠ t) (x : Effect System α) :
    (onSystem t x).Maintains (ws.Quiet s) := fun mid h =>
  onSystem_ends (fun _ => h) fun sys _ => by
    have kept (new : System) : ws.Quiet s (mid.setSystem t new) :=
      h.trans (.of_same (system?_setSystem_ne new other))
    unfold Ends
    cases x sys with
    | ok a new => exact kept new
    | error e new => exact kept new

theorem quiet_buildConstant (t : SystemId) (type : SignalType) (c : Constant) :
    (onSystem t (System.buildConstant type c)).Maintains (ws.Quiet s) :=
  quiet_onSystem fun sys => sys.buildConstant_quiet type c

theorem addTop_quiet (h : ws.Sound) (t : SystemId) (m : ModuleId) :
    (addTop t m).Ends ws (fun _ ws' => ws.Quiet s ws') fun _ ws' => ws.Quiet s ws' := by
  unfold addTop
  refine .bind ((createOp_ends h t m).imp (fun sym ws₁ created => ?_) ?_)
  · refine Maintains.bind (quiet_of_works (leaves_resolve _)) ?_ ws₁ (created.quiet h)
    intro x
    split
    · exact quiet_of_works ((leaves_works_enqueue t m).bind fun _ => leaves_pure sym)
    · exact maintains_pure sym
  · rintro _ _ ⟨rfl, -⟩
    exact .refl s _

theorem instantiate_quiet_of_ne (h : ws.Sound) (other : s ≠ t) (m : ModuleId)
    (r : InstanceRequest) :
    (instantiate t m r).Ends ws (fun _ ws' => ws.Quiet s ws') fun _ ws' => ws.Quiet s ws' := by
  unfold instantiate getModule
  refine .bind (resolve_ends (fun x _ => ?_) fun _ => .refl s ws)
  refine .bind (onSystem_ends (fun _ => .refl s ws) fun sys ht =>
    (System.currentPoint_ends sys).imp ?_ ?_)
  · rintro ip _ ⟨same, -⟩
    rw [same, setSystem_self ht]
    refine .bind (ends_locating (ends_ofExcept (fun bound _ => ?_) fun _ _ => .refl s ws))
    refine .bind ((createOp_ends h t m).imp (fun sym ws₁ created => ?_) ?_)
    · refine Maintains.bind (Maintains.mapM (fun input => ?_) _) ?_ ws₁ (created.quiet h)
      · exact maintains_inputValue (quiet_buildConstant t) input.1 input.2
      intro values
      refine (quiet_onSystem_of_ne other _).bind fun name => ?_
      refine (quiet_onSystem_of_ne other _).bind fun built => ?_
      exact quiet_of_works (leaves_works_keep t m _ _)
    · rintro _ _ ⟨rfl, -⟩
      exact .refl s _
  · rintro _ _ ⟨same, -⟩
    rw [same, setSystem_self ht]
    exact .refl s ws

end Maintains

/-- Without a module and a running generator nothing is instantiated. -/
theorem instantiate_nowhere (hs : ws.system? s = some sys)
    (nowhere : ws.module? m = none ∨ sys.running.scopes = []) (r : InstanceRequest) :
    (instantiate s m r).Ends ws (fun _ _ => False) fun _ ws' => ws' = ws := by
  unfold instantiate getModule
  refine .bind (resolve_ends (fun x hx => ?_) fun _ => rfl)
  refine .bind (onSystem_ends_of_some hs ((System.currentPoint_ends sys).imp ?_ ?_))
  · rintro ip _ ⟨-, scope, outer, top, -⟩
    rcases nowhere with unknown | none
    · rw [unknown] at hx
      cases hx
    · rw [none] at top
      cases top
  · rintro _ _ ⟨rfl, -⟩
    exact setSystem_self hs

end Workspace

namespace Call

open Effect Workspace

variable {ws : Workspace U} {s : SystemId} {sys : System} {c : Call U} {base base' : Ident}

/-- The call asks the innermost scope of `s` for a name made from `base`. A call of `instantiate`
does so once its inputs are built. -/
inductive Asks (ws : Workspace U) (s : SystemId) : Call U → Ident → Prop
  | symbol {sys : System} (base : Ident) (hs : ws.system? s = some sys)
      (nested : sys.running.scopes ≠ []) : Asks ws s (.uniquify s base) base
  | inst {sys : System} {m : ModuleId} {r : InstanceRequest} {x : Module U.GeneratorCode}
      {bound : List PortValue} (hs : ws.system? s = some sys)
      (nested : sys.running.scopes ≠ []) (hx : ws.module? m = some x)
      (inputs : x.bindInputs r.inputs = .ok bound) (known : ¬ sys.Refuses m x)
      (fits : ∀ c ∈ PortDesc.constants (x.schema.inputs.zip bound), c.2.Fits c.1) :
      Asks ws s (.instantiate s m r) (r.name.getD x.schema.name)

theorem Asks.unique (h : c.Asks ws s base) (h' : c.Asks ws s base') : base = base' := by
  cases h with
  | symbol => cases h' with | symbol => rfl
  | inst _ _ hx =>
      cases h' with
      | inst _ _ hx' =>
          rw [hx] at hx'
          cases hx'
          rfl

/-- What a call does to the names in `s`: it grants a name in the innermost scope if and only if it
asks for one. -/
def Renames (c : Call U) (ws : Workspace U) (s : SystemId) (sys sys' : System) : Prop :=
  (∀ base, ¬ c.Asks ws s base) ∧ sys.Quiet sys' ∨
    ∃ base scope outer, c.Asks ws s base ∧ sys.Grants scope outer base sys'

theorem uniquify_renames (hs : ws.system? s = some sys) (base : Ident) :
    (uniquify s base : Call U).perform.Ends ws
      (fun name ws' => ∃ sys' scope outer, ws'.system? s = some sys' ∧
        sys.Grants scope outer base sys' ∧ sys'.design = sys.design ∧
          name = (scope.names.uniquify base).1)
      fun _ ws' => ws' = ws ∧ sys.running.scopes = [] := by
  refine onSystem_ends_of_some hs ((System.uniquify_ends sys base).imp ?_ ?_)
  · rintro _ _ ⟨scope, outer, top, rfl, rfl⟩
    exact ⟨_, scope, outer, system?_setSystem_self hs _, ⟨top, rfl, fun _ op h => ⟨op, h⟩,
      fun _ _ _ _ => rfl, .inl rfl⟩, rfl, rfl⟩
  · rintro _ _ ⟨rfl, none⟩
    exact ⟨setSystem_self hs, none⟩

theorem Asks.nested (h : c.Asks ws s base) (hs : ws.system? s = some sys) :
    sys.running.scopes ≠ [] := by
  cases h with
  | symbol _ hs' nested =>
      rw [hs] at hs'
      cases hs'
      exact nested
  | inst hs' nested =>
      rw [hs] at hs'
      cases hs'
      exact nested

theorem Asks.of_instantiate {m : ModuleId} {r : InstanceRequest}
    (h : (instantiate s m r : Call U).Asks ws s base) (hs : ws.system? s = some sys) :
    ∃ x bound, ws.module? m = some x ∧ x.bindInputs r.inputs = .ok bound ∧ ¬ sys.Refuses m x ∧
      ∀ c ∈ PortDesc.constants (x.schema.inputs.zip bound), c.2.Fits c.1 := by
  cases h with
  | inst hs' nested hx inputs known fits =>
      rw [hs] at hs'
      cases hs'
      exact ⟨_, _, hx, inputs, known, fits⟩

/-- Where a call of `instantiate` changes nothing, it has not come to asking for a name. -/
theorem instantiate_idle (hs : ws.system? s = some sys) {m : ModuleId} {r : InstanceRequest}
    (idle : ws.module? m = none ∨ sys.running.scopes = [] ∨
      ∃ x scope outer e, ws.module? m = some x ∧ sys.running.scopes = scope :: outer ∧
        x.bindInputs r.inputs = .error e) :
    ((instantiate s m r : Call U).perform.outcome ws).2 = ws ∧
      ∀ base, ¬ (instantiate s m r : Call U).Asks ws s base := by
  have nowhere (no : ws.module? m = none ∨ sys.running.scopes = []) :
      ((instantiate s m r : Call U).perform.outcome ws).2 = ws :=
    Ends.outcome ((instantiate_nowhere hs no r).imp (fun _ _ no => no.elim) fun _ _ same => same)
  rcases idle with none | none | ⟨x, scope, outer, e, hx, top, refused⟩
  · refine ⟨nowhere (.inl none), fun base asks => ?_⟩
    obtain ⟨x, bound, hx, -⟩ := asks.of_instantiate hs
    rw [none] at hx
    cases hx
  · exact ⟨nowhere (.inr none), fun base asks => asks.nested hs none⟩
  · refine ⟨?_, fun base asks => ?_⟩
    · have failed : (instantiate s m r : Call U).perform ws = .error (e.located r.loc) ws :=
        instantiate_refused hs hx top refused
      rw [outcome, failed]
    · obtain ⟨y, bound, hy, inputs, -⟩ := asks.of_instantiate hs
      rw [hx] at hy
      cases hy
      rw [refused] at inputs
      cases inputs

theorem instantiate_renames (h : ws.Sound) (hs : ws.system? s = some sys) (m : ModuleId)
    (r : InstanceRequest) :
    ∃ sys', ((instantiate s m r : Call U).perform.outcome ws).2.system? s = some sys' ∧
      (instantiate s m r : Call U).Renames ws s sys sys' := by
  by_cases idle : ws.module? m = none ∨ sys.running.scopes = [] ∨
      ∃ x scope outer e, ws.module? m = some x ∧ sys.running.scopes = scope :: outer ∧
        x.bindInputs r.inputs = .error e
  · obtain ⟨same, silent⟩ := instantiate_idle hs idle
    exact ⟨sys, by rw [same, hs], .inl ⟨silent, .refl sys⟩⟩
  · simp only [not_or, not_exists, not_and] at idle
    obtain ⟨known, nested, bound⟩ := idle
    obtain ⟨x, hx⟩ := Option.ne_none_iff_exists'.mp known
    obtain ⟨scope, outer, top⟩ := List.exists_cons_of_ne_nil nested
    obtain ⟨b, body, -⟩ := (h.systems s sys hs).body?_top top
    cases inputs : x.bindInputs r.inputs with
    | error e => exact absurd inputs (bound x scope outer e hx top)
    | ok bound =>
        have ends := instantiate_ends (p := .any) (s := s) (m := m) h trivial trivial
          (fun no => no.elim) r
        obtain ⟨⟨p, changes⟩, assembled⟩ := Ends.outcome
          (S := fun ws' => (∃ p, Changes p ws ws') ∧ ws.Assembled s m r ws')
          (ends.imp (fun _ _ ok => ⟨⟨_, ok.1.1⟩, ok.2.1⟩) fun _ _ no => ⟨⟨_, no.1⟩, no.2.2⟩)
        obtain ⟨sys', hs', a⟩ := assembled sys x scope outer b bound hs hx top body inputs
        obtain ⟨sys'', hs'', k⟩ := Changes.keeps_of_system? h changes hs
        have same := hs'.symm.trans hs''
        cases same
        obtain ⟨ops, others⟩ := k.names top
        refine ⟨sys', hs', ?_⟩
        cases a with
        | unnamed stopped constants left gains =>
            refine .inl ⟨fun base asks => ?_, ?_, ops, fun q op hop => ?_⟩
            · obtain ⟨y, bound', hy, inputs', known, fits⟩ := asks.of_instantiate hs
              rw [hx] at hy
              cases hy
              rw [inputs] at inputs'
              cases inputs'
              rcases stopped with refuses | ⟨c, mem, misfit⟩
              · exact known refuses
              · exact misfit (fits c mem)
            · have scopes : sys'.running.scopes = sys.running.scopes := gains.scopes.trans top.symm
              exact congrArg ScopeStack.mk scopes
            · by_cases own : q = scope.site.ip.owner
              · rw [own, gains.names body, instanceNames_constants left, List.append_nil]
              · exact others q op hop own
        | named known left gains =>
            have fits := fits_constants left
            refine .inr ⟨_, scope, outer, .inst hs nested hx inputs known fits, top, gains.scopes,
              ops, others, .inl ?_⟩
            rw [gains.names body, instanceNames_constants left, List.append_nil]
        | placed known left kind operands gains =>
            have fits := fits_constants left
            refine .inr ⟨_, scope, outer, .inst hs nested hx inputs known fits, top, gains.scopes,
              ops, others, .inr ?_⟩
            rw [gains.names body, List.filterMap_append, instanceNames_constants left,
              List.nil_append, List.filterMap_cons_some (Operation.instanceName?_of_kind kind),
              List.filterMap_nil]

/-- The instance that a call of `instantiate` answers with is the last one in the body. -/
theorem instantiate_installs (h : ws.Sound) (hs : ws.system? s = some sys) {m : ModuleId}
    {r : InstanceRequest} {i : InstanceId} {ws' : Workspace U}
    (answers : (instantiate s m r : Call U).perform ws = .ok i ws') :
    ∃ sys' inst owner, sys.owners.head? = some owner ∧ ws'.system? s = some sys' ∧
      ws'.instance? i = some inst ∧
      sys'.design.instanceNames owner = sys.design.instanceNames owner ++ [inst.name] := by
  have ends := instantiate_ends (p := .any) (s := s) (m := m) h trivial trivial
    (fun no => no.elim) r
  obtain ⟨-, -, installs⟩ := ends.of_ok answers
  cases installs with
  | intro hs' top body after hi left kind gains =>
      rw [hs] at hs'
      cases hs'
      refine ⟨_, _, _, by rw [System.owners, top]; rfl, after, hi, ?_⟩
      rw [gains.names body, List.filterMap_append, instanceNames_constants left, List.nil_append,
        List.filterMap_cons_some (Operation.instanceName?_of_kind kind), List.filterMap_nil]

/-- Every call either leaves the names in `s` quiet or grants the name that it asks for. -/
theorem perform_renames (c : Call U) (h : ws.Sound) (hs : ws.system? s = some sys) :
    ∃ sys', (c.perform.outcome ws).2.system? s = some sys' ∧ c.Renames ws s sys sys' := by
  have still (quiet : ws.Quiet s (c.perform.outcome ws).2) (none : ∀ base, ¬ c.Asks ws s base) :
      ∃ sys', (c.perform.outcome ws).2.system? s = some sys' ∧ c.Renames ws s sys sys' := by
    obtain ⟨sys', hs', q⟩ := quiet sys hs
    exact ⟨sys', hs', .inl ⟨none, q⟩⟩
  cases c with
  | newSystem name conf =>
      refine ⟨sys, ?_, .inl ⟨(by rintro _ ⟨⟩), .refl sys⟩⟩
      exact (List.getElem?_append_left (lt_of_system? hs)).trans hs
  | addTop t m => exact still (addTop_quiet h t m).outcome (by rintro _ ⟨⟩)
  | uniquify t base =>
      by_cases same : s = t
      · subst same
        cases hc : (uniquify s base : Call U).perform ws with
        | ok name ws' =>
            obtain ⟨sys', scope, outer, hs', g, -, -⟩ := (uniquify_renames hs base).of_ok hc
            have nested : sys.running.scopes ≠ [] := fun none => by
              rw [g.top] at none
              cases none
            refine ⟨sys', by rw [outcome, hc]; exact hs', .inr ⟨base, scope, outer, ?_, g⟩⟩
            exact .symbol base hs nested
        | error e ws' =>
            obtain ⟨rfl, none⟩ := (uniquify_renames hs base).of_error hc
            refine ⟨sys, by rw [outcome, hc]; exact hs, .inl ⟨?_, .refl sys⟩⟩
            exact fun _ asks => asks.nested hs none
      · refine still (quiet_onSystem_of_ne same _ ws (.refl s ws)).outcome ?_
        rintro _ ⟨⟩
        exact same rfl
  | buildOp t name operands types loc =>
      refine still (quiet_onSystem (fun sys => ?_) ws (.refl s ws)).outcome (by rintro _ ⟨⟩)
      exact sys.buildOp_quiet name operands types loc
  | instantiate t m r =>
      by_cases same : s = t
      · subst same
        exact instantiate_renames h hs m r
      · refine still (instantiate_quiet_of_ne h same m r).outcome ?_
        rintro _ ⟨⟩
        exact same rfl
  | _ => exact still (.of_works ((leaves_works _ rfl).outcome ws)) (by rintro _ ⟨⟩)

end Call

end Hardware
