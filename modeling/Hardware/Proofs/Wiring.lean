import Hardware.Proofs.Checked
import Hardware.Proofs.Memory
import Hardware.Proofs.Start

/-!
The instances in a design, seen as edges between modules. Instantiation adds an edge from the module
that is being generated to the module that is instantiated, and it is the only step that adds one.
Edges go where a body is taken away.
-/
namespace Hardware

variable {U : UserCode} {ρ : Type}

/-- No instance comes along with the operation. -/
def ModuleOp.Flat (op : ModuleOp) : Prop :=
  ∀ b, op.body? = some b → ∀ o ∈ b.ops, ∀ name target params, o.kind ≠ .inst name target params

namespace Design

variable {d d' d'' : Design} {E : Ident → Ident → Prop} {sym : Ident} {b : Block} {op : Operation}

/-- In the body of `p` stands an instance of `q`. -/
def Instantiates (d : Design) (p q : Ident) : Prop :=
  ∃ b, d.body? p = some b ∧ ∃ o ∈ b.ops, ∃ name params, o.kind = .inst name q params

/-- The edges that `d'` has and `d` has not are among `E`. -/
def Wires (E : Ident → Ident → Prop) (d d' : Design) : Prop :=
  ∀ p q, d'.Instantiates p q → d.Instantiates p q ∨ E p q

theorem Wires.refl (d : Design) : d.Wires E d := fun _ _ h => .inl h

theorem Wires.trans (h : d.Wires E d') (h' : d'.Wires E d'') : d.Wires E d'' := fun p q edge =>
  (h' p q edge).elim (h p q) .inr

/-- Edges are read off the bodies. -/
theorem wires_of_body? (bodies : ∀ q b, d'.body? q = some b → d.body? q = some b ∨
    ∀ o ∈ b.ops, ∀ name target params, o.kind = .inst name target params →
      d.Instantiates q target ∨ E q target) : d.Wires E d' := by
  rintro p q ⟨b, hb, o, mem, name, params, kind⟩
  rcases bodies p b hb with same | new
  · exact .inl ⟨b, same, o, mem, name, params, kind⟩
  · exact new o mem name q params kind

theorem wires_push (hb : d.body? sym = some b)
    (new : ∀ name target params, op.kind = .inst name target params → E sym target) :
    d.Wires E (d.push sym b op) := by
  refine wires_of_body? fun q b' hb' => ?_
  rw [body?_push hb] at hb'
  split at hb'
  · rename_i same
    cases hb'
    refine .inr fun o mem name target params kind => ?_
    rcases List.mem_append.mp mem with old | last
    · exact .inl ⟨b, same ▸ hb, o, old, name, params, kind⟩
    · rw [List.mem_singleton.mp last] at kind
      exact .inr (same ▸ new name target params kind)
  · exact .inl hb'

/-- The body of a module is what it was just set to. -/
theorem eq_of_body?_setBody {body : Option Block} (hb : (d.setBody sym body).body? sym = some b) :
    body = some b := by
  obtain ⟨m', hm', hk'⟩ := kind_of_body? hb
  rw [findModule?_setBody, if_pos rfl] at hm'
  obtain ⟨m, -, rfl⟩ := Option.map_eq_some_iff.mp hm'
  obtain ⟨s, inputs, outputs, attributes, loc, kind⟩ := m
  cases kind with
  | real old => exact ModuleKind.real.inj hk'
  | external params => cases hk'

/-- A body that is opened or dropped has no operation. -/
theorem wires_setBody {body : Option Block} (empty : ∀ b, body = some b → b.ops = []) :
    d.Wires E (d.setBody sym body) := by
  refine wires_of_body? fun q b hb => ?_
  by_cases same : q = sym
  · subst same
    refine .inr fun o mem => ?_
    rw [empty b (eq_of_body?_setBody hb)] at mem
    cases mem
  · rw [body?_setBody_ne same] at hb
    exact .inl hb

theorem wires_insert {m : ModuleOp} (flat : m.Flat)
    (modules : d'.modules = d.modules.insert m.sym m) : d.Wires E d' := by
  refine wires_of_body? fun q b hb => ?_
  unfold body? findModule? at hb ⊢
  rw [modules, OrderedMap.get?_insert] at hb
  split at hb
  · exact .inr fun o mem name target params kind => absurd kind (flat b hb o mem name target params)
  · exact .inl hb

theorem mem_modifyOps {id : OpId} {f : Operation → Operation} {ops : List Operation}
    {o : Operation} (mem : o ∈ Block.modifyOps id f ops) :
    o ∈ ops ∨ ∃ o' ∈ ops, o = f o' := by
  induction ops with
  | nil => cases mem
  | cons x ops ih =>
      unfold Block.modifyOps at mem
      split at mem
      · rcases List.mem_cons.mp mem with rfl | rest
        · exact .inr ⟨x, List.mem_cons_self, rfl⟩
        · exact .inl (List.mem_cons_of_mem x rest)
      · rcases List.mem_cons.mp mem with rfl | rest
        · exact .inl List.mem_cons_self
        · rcases ih rest with old | ⟨o', old, changed⟩
          · exact .inl (List.mem_cons_of_mem x old)
          · exact .inr ⟨o', List.mem_cons_of_mem x old, changed⟩

/-- A change of an operation that leaves its kind leaves the edges. -/
theorem wires_modifyOp {id : OpId} {f : Operation → Operation} (kind : ∀ o, (f o).kind = o.kind) :
    d.Wires E (d.modifyOp sym id f) := by
  refine wires_of_body? fun q b hb => ?_
  obtain ⟨m', hm', hk'⟩ := kind_of_body? hb
  unfold modifyOp modifyBody modifyModule findModule? at hm'
  rw [OrderedMap.get?_modify] at hm'
  split at hm'
  · rename_i same
    obtain ⟨m, hm, rfl⟩ := Option.map_eq_some_iff.mp hm'
    obtain ⟨s, inputs, outputs, attributes, loc, real⟩ := m
    cases real with
    | external params => cases hk'
    | real body =>
        cases body with
        | none => cases hk'
        | some old =>
            cases hk'
            have here : d.body? q = some old := body?_of_kind (same ▸ hm) rfl
            refine .inr fun o mem name target params inst => ?_
            rcases mem_modifyOps mem with old' | ⟨o', old', rfl⟩
            · exact .inl ⟨old, here, o, old', name, params, inst⟩
            · exact .inl ⟨old, here, o', old', name, params, (kind o').symm.trans inst⟩
  · exact .inl (body?_of_kind hm' hk')

end Design

namespace Effect

variable {σ τ α β : Type} {S : σ → Prop} {part : σ → τ}

/-- `x` maintains `S`, whether it succeeds or fails. -/
def Maintains (S : σ → Prop) (x : Effect σ α) : Prop :=
  ∀ s, S s → x.Ends s (fun _ t => S t) fun _ t => S t

theorem maintains_pure (a : α) : (pure a : Effect σ α).Maintains S := fun _ h => h

theorem maintains_throw (e : Error) : (throw e : Effect σ α).Maintains S := fun _ h => h

theorem Maintains.bind {x : Effect σ α} {f : α → Effect σ β} (hx : x.Maintains S)
    (hf : ∀ a, (f a).Maintains S) : (x >>= f).Maintains S := fun s hs =>
  .bind ((hx s hs).imp (fun a t ht => hf a t ht) fun _ _ ht => ht)

theorem Maintains.mapM {f : α → Effect σ β} (h : ∀ a, (f a).Maintains S) (as : List α) :
    (as.mapM f).Maintains S := fun _ hs => ends_mapM hs fun a _ t ht => h a t ht

theorem Maintains.forM {f : α → Effect σ PUnit} (h : ∀ a, (f a).Maintains S) (as : List α) :
    (as.forM f).Maintains S := fun _ hs => ends_forM hs fun a _ t ht => h a t ht

/-- What depends on a part only is maintained by whatever leaves this part alone. -/
theorem Leaves.maintains {x : Effect σ α} (leaves : x.Leaves part)
    (congr : ∀ s t, part t = part s → S s → S t) : x.Maintains S := fun s hs =>
  (leaves s).imp (fun _ t same => congr s t same hs) fun _ t same => congr s t same hs

end Effect

namespace Workspace

open Effect

variable {ws ws' ws'' : Workspace U} {E : SystemId → Ident → Ident → Prop} {s : SystemId}
  {m : ModuleId} {α : Type}

/-- In the design of `s` an instance of `q` stands in the body of `p`. -/
def Instantiates (ws : Workspace U) (s : SystemId) (p q : Ident) : Prop :=
  ∃ sys, ws.system? s = some sys ∧ sys.design.Instantiates p q

/-- The edges that `ws'` has and `ws` has not are among `E`. -/
def Wires (E : SystemId → Ident → Ident → Prop) (ws ws' : Workspace U) : Prop :=
  ∀ s p q, ws'.Instantiates s p q → ws.Instantiates s p q ∨ E s p q

/-- The designs of all systems. -/
def designs (ws : Workspace U) : List Design := ws.systems.map System.design

/-- The designs of all systems, with the scopes in which they are built. -/
def works (ws : Workspace U) : List (Design × ScopeStack GeneratorSite) :=
  ws.systems.map fun sys => (sys.design, sys.running)

theorem designs_of_works (same : ws'.works = ws.works) : ws'.designs = ws.designs := by
  have first := congrArg (List.map Prod.fst) same
  simpa only [works, designs, List.map_map, Function.comp_def] using first

theorem Wires.refl (ws : Workspace U) : ws.Wires E ws := fun _ _ _ h => .inl h

theorem Wires.trans (h : ws.Wires E ws') (h' : ws'.Wires E ws'') : ws.Wires E ws'' :=
  fun s p q edge => (h' s p q edge).elim (h s p q) .inr

theorem wires_of_designs (same : ws'.designs = ws.designs) : ws.Wires E ws' := by
  rintro s p q ⟨sys', hs', edge⟩
  have found := congrArg (fun ds => ds[s.index]?) same
  simp only [designs, List.getElem?_map] at found
  change (ws'.system? s).map System.design = (ws.system? s).map System.design at found
  rw [hs'] at found
  obtain ⟨sys, hs, design⟩ := Option.map_eq_some_iff.mp found.symm
  exact .inl ⟨sys, hs, design ▸ edge⟩

theorem wires_setSystem {sys sys' : System} (hs : ws.system? s = some sys)
    (wires : sys.design.Wires (E s) sys'.design) : ws.Wires E (ws.setSystem s sys') := by
  rintro t p q ⟨other, ht, edge⟩
  rw [system?_setSystem hs] at ht
  split at ht
  · rename_i same
    cases ht
    subst same
    exact (wires p q edge).imp_left fun old => ⟨sys, hs, old⟩
  · exact .inl ⟨other, ht, edge⟩

theorem wires_of_works (same : ws'.works = ws.works) : ws.Wires E ws' :=
  wires_of_designs (designs_of_works same)

theorem maintains_of_works {x : Effect (Workspace U) α} (leaves : x.Leaves works) :
    x.Maintains (ws.Wires E) :=
  leaves.maintains fun _ _ same h => h.trans (wires_of_works same)

theorem works_setSystem {sys sys' : System} (hs : ws.system? s = some sys)
    (design : sys'.design = sys.design) (running : sys'.running = sys.running) :
    (ws.setSystem s sys').works = ws.works := by
  refine List.ext_getElem? fun i => ?_
  unfold works setSystem
  rw [List.getElem?_map, List.getElem?_map, List.getElem?_set]
  split
  · rename_i here
    have found : ws.systems[s.index]? = some sys := hs
    rw [← here, if_pos (lt_of_system? hs), found, Option.map_some, Option.map_some, design,
      running]
  · rfl

/-- An effect on a system that builds wires what it builds there. -/
theorem maintains_onSystem {x : Effect System α}
    (wires : ∀ sys, x.Ends sys (fun _ sys' => sys.design.Wires (E s) sys'.design)
      fun _ sys' => sys.design.Wires (E s) sys'.design) :
    (onSystem s x).Maintains (ws.Wires E) := fun _ h =>
  onSystem_ends (fun _ => h) fun sys hs =>
    (wires sys).imp (fun _ _ w => h.trans (wires_setSystem hs w))
      fun _ _ w => h.trans (wires_setSystem hs w)

end Workspace

namespace System

open Effect

variable {sys : System} {E : Ident → Ident → Prop}

/-- The innermost running generator may not be one, but what is pushed is no instance. -/
theorem buildConstant_wires (sys : System) (type : SignalType) (c : Constant) :
    (buildConstant type c).Ends sys (fun _ sys' => sys.design.Wires E sys'.design)
      fun _ sys' => sys.design.Wires E sys'.design := by
  refine (buildConstant_ends sys type c).imp ?_ ?_
  · rintro v _ ⟨scope, outer, b, op, P, -, kind, -, -, -, rfl⟩
    refine Design.wires_push P.body fun name target params inst => ?_
    rw [kind] at inst
    cases inst
  · rintro _ _ ⟨rfl, -⟩
    exact .refl _

theorem buildOp_wires (sys : System) (name : Ident) (operands : List Signal)
    (types : List SignalType) (loc : Location) :
    (buildOp name operands types loc).Ends sys (fun _ sys' => sys.design.Wires E sys'.design)
      fun _ sys' => sys.design.Wires E sys'.design := by
  refine (buildOp_ends sys name operands types loc).imp ?_ ?_
  · rintro _ _ ⟨scope, outer, b, P, -, rfl⟩
    exact Design.wires_push P.body nofun
  · rintro _ _ rfl
    exact .refl _

/-- An instance is an edge between two different modules. -/
theorem buildInstance_wires (sys : System) (ip : InsertionPoint) (target name : Ident)
    (inputs : List Value) (params : Option Attr) (appid : Option AppId) (loc : Location)
    (edge : target ≠ ip.owner → E ip.owner target) :
    (buildInstance ip target name inputs params appid loc).Ends sys
      (fun _ sys' => sys.design.Wires E sys'.design)
      fun _ sys' => sys.design.Wires E sys'.design := by
  have verified (owner : Ident) (id : OpId) (results : List Value) : (do
      let s ← get
      if s.conf.verifyInstances then
        Effect.ofExcept (s.design.verifyOp owner id)
      pure (id, results) : Effect System (OpId × List Value)).Maintains
        fun sys' => sys.design.Wires E sys'.design := by
    intro sys' h
    refine (verified_ends sys' owner id results).imp ?_ ?_
    · rintro _ _ ⟨-, rfl, -⟩
      exact h
    · rintro _ _ ⟨rfl, -⟩
      exact h
  unfold buildInstance
  refine .bind (ends_on ((Design.buildInstance_ends _ _ _ _ _ _ _).imp ?_ ?_))
  · rintro op _ ⟨b, t, body, -, other, -, rfl, rfl⟩
    have pushed : sys.design.Wires E (sys.design.push ip.owner b
        (sys.design.newOp (.inst name target params) inputs (t.outputs.map Port.type)
          (Design.instanceAttributes name target) loc)) := by
      refine Design.wires_push body ?_
      rintro _ _ _ ⟨⟩
      exact edge other
    cases appid with
    | none => exact verified _ _ _ _ pushed
    | some a =>
        refine .bind (ends_modify.mpr ?_)
        exact verified _ _ _ _ (pushed.trans (Design.wires_modifyOp fun _ => rfl))
  · rintro _ _ ⟨rfl, -⟩
    exact .refl _

end System

namespace Workspace

open Effect

variable {ws ws' : Workspace U} {E : SystemId → Ident → Ident → Prop} {s : SystemId}
  {m : ModuleId}

/-- No module brings an instance along. -/
def Flat (ws : Workspace U) : Prop := ws.Brings ModuleOp.Flat

theorem toOp_flat {γ : Type} (x : Module γ) (file : String) (sym : Ident) :
    (x.toOp file sym).Flat := by
  intro b body
  have none : (x.toOp file sym).body? = none := by
    unfold Module.toOp ModuleOp.body?
    cases x.hasGenerator <;> rfl
  rw [none] at body
  cases body

/-- The creation of an operation brings no edge. -/
theorem Created.wires (flat : ws.Flat) {sym : Ident} (c : Created ws s m sym ws') :
    ws.Wires E ws' := by
  cases c with
  | cached => exact .refl ws
  | declared hs hx declared new =>
      exact wires_setSystem hs (Design.wires_insert (toOp_flat _ _ _) rfl)
  | @imported sys x op hs hx held new free =>
      have there : (ws.setModule m { x with origin := .imported none }).system? s = some sys := hs
      exact (wires_of_designs rfl).trans
        (wires_setSystem there (Design.wires_insert (flat m x op hx held) rfl))

/-- The symbol that a module gets is new, unless it had it already. -/
theorem Created.symbol {sym : Ident} (h : ws.Sound) (c : Created ws s m sym ws') {sys : System}
    (hs : ws.system? s = some sys) :
    sys.symbolOf? m = some sym ∨ sys.design.findModule? sym = none := by
  cases c with
  | cached hs' hsym =>
      rw [hs] at hs'
      cases hs'
      exact .inl hsym
  | declared hs' hx declared new =>
      rw [hs] at hs'
      cases hs'
      exact .inr (System.freshSymbol_free (h.systems s sys hs) _)
  | imported hs' hx held new free =>
      rw [hs] at hs'
      cases hs'
      exact .inr free

/-- The edges that an instantiation of `m` may add in `s`: they come from a module whose generator
is running, and go to the operation of `m`, which is another one. -/
def MayWire (ws : Workspace U) (s : SystemId) (m : ModuleId) (t : SystemId) (p q : Ident) : Prop :=
  t = s ∧ p ≠ q ∧ ∃ sys, ws.system? s = some sys ∧ p ∈ sys.owners ∧
    (sys.symbolOf? m = some q ∨ sys.design.findModule? q = none)

theorem maintains_buildConstant (s : SystemId) (type : SignalType) (c : Constant) :
    (onSystem s (System.buildConstant type c)).Maintains (ws.Wires E) :=
  maintains_onSystem fun sys => sys.buildConstant_wires type c

/-- An input is a signal or a constant that is built. -/
theorem maintains_inputValue {S : Workspace U → Prop} {s : SystemId}
    (constants : ∀ type c, (onSystem s (System.buildConstant type c)).Maintains S) (p : PortDesc)
    (v : PortValue) : (inputValue s p v).Maintains S := by
  cases v with
  | signal v => exact maintains_pure v
  | constant c => exact constants p.type c
  | disconnected => exact constants p.type p.type.zero

theorem leaves_works_update (s : SystemId) {f : System → System}
    (design : ∀ sys, (f sys).design = sys.design) (running : ∀ sys, (f sys).running = sys.running) :
    (updateSystem s f : Effect (Workspace U) Unit).Leaves works := fun _ =>
  onSystem_ends (fun _ => rfl) fun sys hs => works_setSystem hs (design sys) (running sys)

theorem maintains_uniquify (s : SystemId) (base : Ident) :
    (onSystem s (System.uniquify base)).Maintains (ws.Wires E) := by
  refine maintains_onSystem fun sys => (System.uniquify_ends sys base).imp ?_ ?_
  · rintro _ _ ⟨scope, outer, -, -, rfl⟩
    exact .refl _
  · rintro _ _ ⟨rfl, -⟩
    exact .refl _

theorem leaves_works_enqueue (s : SystemId) (m : ModuleId) :
    (updateSystem s (System.enqueue m) : Effect (Workspace U) Unit).Leaves works := by
  refine leaves_works_update s (fun sys => ?_) fun sys => ?_
  · obtain ⟨waiting, same, -⟩ := sys.enqueue_eq m
    rw [same]
  · obtain ⟨waiting, same, -⟩ := sys.enqueue_eq m
    rw [same]

/-- To keep track of an instance is no part of building it. -/
theorem leaves_works_keep (s : SystemId) (m : ModuleId) (inst : Instance) (gen : Bool) :
    (do
      let i ← addInstance inst
      updateSystem s fun sys => { sys with instances := sys.instances ++ [i] }
      if gen then
        updateSystem s (System.enqueue m)
      pure i : Effect (Workspace U) InstanceId).Leaves works := by
  refine Leaves.bind (fun _ => rfl) fun i => ?_
  refine Leaves.bind (leaves_works_update s (fun _ => rfl) fun _ => rfl) fun _ => ?_
  split
  · exact (leaves_works_enqueue s m).bind fun _ => leaves_pure i
  · exact leaves_pure i

/-- An instantiation adds edges from the innermost running generator to the module that is
instantiated, and no other. -/
theorem instantiate_wires (h : ws.Sound) (flat : ws.Flat) (s : SystemId) (m : ModuleId)
    (r : InstanceRequest) :
    (instantiate s m r).Ends ws (fun _ ws' => ws.Wires (ws.MayWire s m) ws')
      fun _ ws' => ws.Wires (ws.MayWire s m) ws' := by
  unfold instantiate getModule
  refine .bind (resolve_ends (fun x hx => ?_) fun _ => .refl ws)
  refine .bind (onSystem_ends (fun _ => .refl ws) fun sys hs =>
    (System.currentPoint_ends sys).imp ?_ ?_)
  · rintro ip _ ⟨same, scope, outer, top, rfl⟩
    rw [same, setSystem_self hs]
    refine .bind (ends_locating (ends_ofExcept (fun bound _ => ?_) fun _ _ => .refl ws))
    refine .bind ((createOp_ends h s m).imp (fun sym ws₁ created => ?_) ?_)
    · have edge : sym ≠ scope.site.ip.owner → ws.MayWire s m s scope.site.ip.owner sym := by
        intro other
        exact ⟨rfl, Ne.symm other, sys, hs, by simp [System.owners, top], created.symbol h hs⟩
      refine Maintains.bind (Maintains.mapM (fun input => ?_) _) ?_ ws₁ (created.wires flat)
      · exact maintains_inputValue (maintains_buildConstant s) input.1 input.2
      intro values
      refine (maintains_uniquify s _).bind fun name => ?_
      refine (maintains_onSystem fun sys =>
        sys.buildInstance_wires _ _ _ _ _ _ _ edge).bind fun built => ?_
      exact maintains_of_works (leaves_works_keep s m _ _)
    · rintro _ _ ⟨rfl, -⟩
      exact .refl _
  · rintro _ _ ⟨same, -⟩
    rw [same, setSystem_self hs]
    exact .refl ws

theorem addTop_wires (h : ws.Sound) (flat : ws.Flat) (s : SystemId) (m : ModuleId) :
    (addTop s m).Ends ws (fun _ ws' => ws.Wires E ws') fun _ ws' => ws.Wires E ws' := by
  unfold addTop
  refine .bind ((createOp_ends h s m).imp (fun sym ws₁ created => ?_) ?_)
  · refine Maintains.bind (maintains_of_works (leaves_resolve _)) ?_ ws₁
      (created.wires flat)
    intro x
    split
    · exact maintains_of_works ((leaves_works_enqueue s m).bind fun _ => leaves_pure sym)
    · exact maintains_pure sym
  · rintro _ _ ⟨rfl, -⟩
    exact .refl _

theorem leaves_works_importModule (s : SystemId) (op : ModuleOp) (loc : Location) :
    (importModule s op loc : Effect (Workspace U) ModuleId).Leaves works := by
  refine (leaves_resolve _).bind fun sys => ?_
  split
  · exact fun _ => rfl
  · exact fun _ => rfl

theorem leaves_works_clearInstances (s : SystemId) :
    (clearInstances s : Effect (Workspace U) Unit).Leaves works := by
  refine (leaves_resolve _).bind fun sys => ?_
  refine Leaves.bind (leaves_modify fun ws => ?_) fun _ => ?_
  · exact releaseInstances_leaves (fun _ _ => rfl) ws _
  · exact leaves_works_update s (fun _ => rfl) fun _ => rfl

theorem leaves_works_clearInstance (i : InstanceId) :
    (clearInstance i : Effect (Workspace U) Unit).Leaves works :=
  (leaves_resolve _).bind fun _ =>
    leaves_modify fun ws => releaseInstance_leaves (fun _ _ => rfl) ws i

theorem leaves_works_endProduction (run : ProducerRun) (result : ProducerResult) :
    (endProduction run result : Effect (Workspace U) ModuleId).Leaves works := by
  refine (leaves_ofExcept _).bind fun m => (leaves_resolve _).bind fun x => ?_
  refine (leaves_resolve _).bind fun cache => ?_
  exact Leaves.bind (leaves_modify fun _ => rfl) fun _ => leaves_pure m

end Workspace

namespace Call

open Effect Workspace

variable {ws : Workspace U}

/-- The edges that a call may add. -/
def MayWire (ws : Workspace U) : Call U → SystemId → Ident → Ident → Prop
  | .instantiate s m _ => ws.MayWire s m
  | _ => fun _ _ _ => False

/-- True of the calls that touch a design or a scope. -/
def works : Call U → Bool
  | .newSystem .. | .addTop .. | .uniquify .. | .buildOp .. | .instantiate .. => true
  | _ => false

theorem leaves_works (c : Call U) (idle : c.works = false) :
    c.perform.Leaves Workspace.works := by
  cases c with
  | snapshot => exact leaves_get
  | setState state => exact leaves_modify fun _ => rfl
  | newCache => exact fun _ => rfl
  | newFactory name signature producer loc =>
      refine Leaves.bind ((leaves_ofExcept _).locating loc) fun _ => ?_
      exact Leaves.bind leaves_get fun _ => Leaves.bind (leaves_modify fun _ => rfl) fun _ =>
        leaves_pure _
  | declare decl => exact Leaves.bind (leaves_ofExcept _) fun _ => fun _ => rfl
  | importModule s op loc => exact leaves_works_importModule s op loc
  | clearInstance i => exact leaves_works_clearInstance i
  | clearInstances s => exact leaves_works_clearInstances s
  | newSystem | addTop | uniquify | buildOp | instantiate => cases idle

theorem perform_wires (c : Call U) (h : ws.Sound) (flat : ws.Flat) :
    c.perform.Ends ws (fun _ ws' => ws.Wires (c.MayWire ws) ws')
      fun _ ws' => ws.Wires (c.MayWire ws) ws' := by
  cases c with
  | newSystem name conf =>
      rintro s p q ⟨sys, hs, edge⟩
      rcases before_addSystem hs with there | ⟨-, name, conf, rfl⟩
      · exact .inl ⟨sys, there, edge⟩
      · obtain ⟨b, hb, -⟩ := edge
        cases hb
  | addTop s m => exact addTop_wires h flat s m
  | uniquify s base => exact maintains_uniquify s base ws (.refl ws)
  | buildOp s name operands types loc =>
      exact maintains_onSystem (fun sys => sys.buildOp_wires name operands types loc) ws (.refl ws)
  | instantiate s m r => exact instantiate_wires h flat s m r
  | _ => exact maintains_of_works (leaves_works _ rfl) ws (.refl ws)

end Call

namespace Ports

open Effect

variable {S : Workspace U → Prop}

theorem maintains_assignable
    (constants : ∀ s type c, (Workspace.onSystem s (System.buildConstant type c)).Maintains S)
    (port : Ident) (type : SignalType) (v : PortValue) :
    (assignable port type v).Maintains fun st : PortState U => S st.2 := by
  cases v with
  | signal v =>
      dsimp only [assignable]
      split
      · exact maintains_pure v
      · exact maintains_throw _
  | constant c =>
      refine Maintains.bind (fun st h => h) fun st => ?_
      intro st' h
      exact ends_on (constants _ type c _ h)
  | disconnected => exact maintains_throw _

theorem maintains_assign
    (constants : ∀ s type c, (Workspace.onSystem s (System.buildConstant type c)).Maintains S)
    (port : Ident) (v : PortValue) :
    (assign port v).Maintains fun st : PortState U => S st.2 := by
  refine Maintains.bind (fun st h => h) fun st => ?_
  split
  · split <;> exact maintains_throw _
  · exact (maintains_assignable constants port _ v).bind fun _ => fun _ h => h

/-- A call at a port changes the workspace by building constants only. -/
theorem maintains_perform
    (constants : ∀ s type c, (Workspace.onSystem s (System.buildConstant type c)).Maintains S)
    (c : PortCall) : c.perform.Maintains fun st : PortState U => S st.2 := by
  have look {α : Type} {r : PortState U → Except Error α} :
      (do
        let st ← get
        Effect.ofExcept (r st) : Effect (PortState U) α).Maintains fun st => S st.2 :=
    Maintains.bind (fun _ h => h) fun st _ h => ends_ofExcept (fun _ _ => h) fun _ _ => h
  cases c with
  | read port => exact look
  | assign port v => exact maintains_assign constants port v
  | assignAll values =>
      refine Maintains.bind (fun _ h => h) fun st => ?_
      dsimp only
      split
      · exact fun _ h => h
      · exact Maintains.forM (fun value => maintains_assign constants value.1 value.2) values
  | check => exact look
  | owner => exact fun _ h => h
  | system => exact fun _ h => h

end Ports

namespace Workspace

variable {ws ws' : Workspace U} {E : SystemId → Ident → Ident → Prop} {s : SystemId}
  {m : ModuleId} {run : GeneratorRun}

/-- A body that is opened is empty. -/
theorem Opens.wires {code : U.GeneratorCode} (o : Opens ws s m run code ws') : ws.Wires E ws' := by
  cases o with
  | intro site hs =>
      refine wires_setSystem hs (Design.wires_setBody ?_)
      rintro b ⟨⟩
      rfl

/-- A body is closed by an output. -/
theorem Closes.wires (c : Closes ws run ws') : ws.Wires E ws' := by
  cases c with
  | intro hs P kind =>
      refine wires_setSystem hs (Design.wires_push P.body fun name target params inst => ?_)
      rw [kind] at inst
      cases inst

theorem Unwinds.wires (u : Unwinds ws run ws') : ws.Wires E ws' := by
  cases u with
  | @intro sys hs =>
      have there : (ws.releaseInstances (sys.instances.filter (ws.isInside run.symbol))).system?
          run.system = some sys := by
        rwa [system?_releaseInstances]
      exact (wires_of_works (releaseInstances_leaves (fun _ _ => rfl) ws _)).trans
        (wires_setSystem there (Design.wires_setBody nofun))

end Workspace

namespace Machine

open Effect Workspace

variable {P : Program U} {M : Machine U ρ}

/-- The edges that the next step may add. -/
def MayWire (M : Machine U ρ) (s : SystemId) (p q : Ident) : Prop :=
  ∃ m r, M.control.call? = some (.instantiate s m r) ∧ M.workspace.MayWire s m s p q

theorem wires_call {c : Call U} (h : M.workspace.Sound) (flat : M.workspace.Flat)
    (calls : M.control.call? = some c) :
    M.workspace.Wires M.MayWire (c.perform.outcome M.workspace).2 := by
  intro s p q edge
  rcases (c.perform_wires h flat).outcome s p q edge with old | new
  · exact .inl old
  · cases c with
    | instantiate t m r =>
        obtain ⟨rfl, may⟩ := new
        exact .inr ⟨m, r, calls, rfl, may⟩
    | _ => exact new.elim

theorem nextWaiting_works (ws : Workspace U) (s : SystemId) (below : Stack U ρ .generation) :
    (nextWaiting ws s below).workspace.works = ws.works := by
  unfold nextWaiting
  split
  · rfl
  · rename_i sys hs
    split
    · rfl
    · rename_i m rest first
      have popped : (ws.setSystem s { sys with worklist := rest }).works = ws.works :=
        works_setSystem hs rfl rfl
      simp only
      split <;> exact popped

/-- A step adds no edge but by an instantiation. -/
theorem Reachable.wires (h : Reachable P M) (flat : M.workspace.Flat) :
    M.workspace.Wires M.MayWire (Machine.step P M).workspace := by
  have hosts := h.hosts
  have acts := step_acts P M
  generalize (Machine.step P M).workspace = ws at acts
  cases acts with
  | call calls => exact wires_call hosts.sound flat calls
  | @port run c next below asks =>
      exact Ends.outcome (S := fun st : PortState U => M.workspace.Wires _ st.2)
        (Ports.maintains_perform Workspace.maintains_buildConstant c (run.ports, M.workspace)
          (.refl M.workspace))
  | @generated run result below last =>
      rw [last] at hosts
      obtain ⟨sys, -, -, hs, -⟩ := hosts.top
      exact ((endGeneration_ends run result hs).imp (fun _ _ closes => closes.wires)
        fun _ _ unwinds => unwinds.wires).outcome
  | @produced run result below last =>
      exact wires_of_works ((leaves_works_endProduction run result).outcome M.workspace)
  | @drains s below entering => exact wires_of_works (nextWaiting_works M.workspace s below)
  | @begins s m below entering =>
      have ends := beginGeneration_ends hosts.sound s m
      cases hb : beginGeneration s m M.workspace with
      | ok r ws' =>
          obtain ⟨sym, mid, created, opens⟩ := ends.of_ok hb
          rw [start_begins hb]
          exact (created.wires flat).trans opens.wires
      | error e ws' =>
          rw [start_refused hb, (ends.of_error hb).1]
          exact .refl M.workspace
  | still => exact .refl M.workspace

end Machine

end Hardware
