import Hardware.Design.Verification
import Hardware.Proofs.Invariant

/-!
The elementary changes of a workspace. Whatever a call does, whether it succeeds or fails,
is a sequence of these; the start and the end of a generator are changes of their own,
which no call makes. Each change keeps the invariant and takes nothing back.
-/
namespace Hardware

variable {U : UserCode} {γ : Type}

namespace System

/-- The metadata records that a declared module gets with its operation. -/
def records (sys : System) (x : Module γ) (sym : Ident) : List Operation :=
  if sys.conf.emitMetadata then
    let found := if sys.conf.autoProvenance then sys.conf.provenance else none
    [{ id := ⟨sys.design.nextOp⟩, kind := .symbolMetadata sym, operands := [], results := []
       attributes := x.metadataRecord found, loc := x.schema.loc }]
  else []

/-- The symbol that the operation of a declared module would get. -/
def freshSymbol (sys : System) (x : Module γ) : Ident := (sys.design.symbols.uniquify x.name).1

/-- The system after the operation of a declared module `x` was created. -/
def create (sys : System) (m : ModuleId) (x : Module γ) : System :=
  let sym := sys.freshSymbol x
  let records := sys.records x sym
  { sys with
    design := { sys.design with
      modules := sys.design.modules.insert sym (x.toOp sys.conf.externalOutputFile sym)
      symbols := (sys.design.symbols.uniquify x.name).2.reserve [sym]
      metadata := sys.design.metadata ++ records
      nextOp := sys.design.nextOp + records.length }
    symbols := sys.symbols.insert m sym }

/-- The system after it took in the operation of an imported module. -/
def adopt (sys : System) (m : ModuleId) (op : ModuleOp) : System :=
  { sys with
    design := { sys.design with
      modules := sys.design.modules.insert op.sym op
      symbols := sys.design.symbols.reserve [op.sym] }
    symbols := sys.symbols.insert m op.sym }

/-- The system with `op` at the end of the body `b` of `sym`. -/
def push (sys : System) (sym : Ident) (b : Block) (op : Operation) : System :=
  { sys with design := sys.design.push sym b op }

/-- In the body of `site.parent` stands, under its number, an instance of the operation of `m`
that goes by `name`. Its results are those of `site`, one for each output of `m`. -/
def Holds (sys : System) (name : Ident) (m : ModuleId) (site : InstanceSite) : Prop :=
  ∃ sym target op params, sys.symbolOf? m = some sym ∧ sys.design.findModule? sym = some target ∧
    sys.design.findOp? site.parent site.op = some op ∧ op.kind = .inst name sym params ∧
    op.results = site.results ∧
    site.results = (target.outputs.map Port.type).mapIdx fun i type => ⟨.result site.op i, type⟩

end System

/-- What may be done: in which systems whatever is pushed must verify, which modules may get
an operation, which may be made to wait, and which operations may be brought along. The last
two are not for changes: from which systems a waiting module may be taken, and which values
that a generator is given may be assigned to its outputs. -/
structure Permit where
  verified : SystemId → Prop
  made : SystemId → ModuleId → Prop
  queued : SystemId → ModuleId → Prop
  brought : ModuleOp → Prop
  drained : SystemId → Prop
  assigned : Value → Prop

namespace Permit

/-- What may be done before a module is made to wait. -/
def quiet (p : Permit) : Permit := { p with queued := fun _ _ => False }

/-- What a call that fails may do. It lets no module wait, and what it pushed may be wrong. -/
def failed (p : Permit) : Permit := { p.quiet with verified := fun _ => False }

/-- Everything is permitted, and nothing has to verify. -/
def any : Permit where
  verified _ := False
  made _ _ := True
  queued _ _ := True
  brought _ := True
  drained _ := True
  assigned _ := True

/-- Only `m` may get an operation, and only in `s`. -/
def creating (s : SystemId) (m : ModuleId) : Permit where
  verified _ := True
  made t n := t = s ∧ n = m
  queued _ _ := False
  brought _ := False
  drained _ := False
  assigned _ := False

/-- `p` permits no more changes than `q`. -/
structure Le (p q : Permit) : Prop where
  verified : ∀ s, q.verified s → p.verified s
  made : ∀ s m, p.made s m → q.made s m
  queued : ∀ s m, p.queued s m → q.queued s m
  brought : ∀ op, p.brought op → q.brought op

theorem quiet_le (p : Permit) : p.quiet.Le p :=
  ⟨fun _ h => h, fun _ _ h => h, fun _ _ h => h.elim, fun _ h => h⟩

theorem quiet_le_failed (p : Permit) : p.quiet.Le p.failed :=
  ⟨fun _ h => h.elim, fun _ _ h => h, fun _ _ h => h, fun _ h => h⟩

end Permit

namespace Workspace

/-- One elementary change within a permit. -/
inductive Change (p : Permit) : Workspace U → Workspace U → Prop
  | aside {ws ws' : Workspace U} (modules : ws'.modules = ws.modules)
      (instances : ws'.instances = ws.instances) (systems : ws'.systems = ws.systems) :
      Change p ws ws'
  | addSystem (ws : Workspace U) (name : Ident) (conf : SystemConf) :
      Change p ws { ws with systems := ws.systems ++ [System.new name conf] }
  | addModule (ws : Workspace U) {x : Module U.GeneratorCode} (sound : x.Sound)
      (brought : ∀ op, x.origin = .imported (some op) → p.brought op) :
      Change p ws { ws with modules := ws.modules ++ [x] }
  | setParameters {ws : Workspace U} {m : ModuleId} {x : Module U.GeneratorCode}
      (hx : ws.module? m = some x) (params : Attr) :
      Change p ws (ws.setModule m { x with parameters := some params })
  | create {ws : Workspace U} {s : SystemId} {sys : System} {m : ModuleId}
      {x : Module U.GeneratorCode} (hs : ws.system? s = some sys) (hx : ws.module? m = some x)
      (declared : x.isImported = false) (new : sys.symbolOf? m = none) (made : p.made s m) :
      Change p ws (ws.setSystem s (sys.create m x))
  | adopt {ws : Workspace U} {s : SystemId} {sys : System} {m : ModuleId}
      {x : Module U.GeneratorCode} {op : ModuleOp} (hs : ws.system? s = some sys)
      (hx : ws.module? m = some x) (held : x.origin = .imported (some op))
      (new : sys.symbolOf? m = none) (free : sys.design.findModule? op.sym = none)
      (made : p.made s m) :
      Change p ws
        ((ws.setModule m { x with origin := .imported none }).setSystem s (sys.adopt m op))
  | push {ws : Workspace U} {s : SystemId} {sys : System} {scope : Scope GeneratorSite}
      {outer : List (Scope GeneratorSite)} {b : Block} {op : Operation}
      (hs : ws.system? s = some sys) (top : sys.running.scopes = scope :: outer)
      (body : sys.design.body? scope.site.ip.owner = some b)
      (inner : op.isTerminator = false) (id : op.id = ⟨sys.design.nextOp⟩)
      (verified : p.verified s →
        (sys.design.push scope.site.ip.owner b op).verifyOp scope.site.ip.owner op.id = .ok ()) :
      Change p ws (ws.setSystem s (sys.push scope.site.ip.owner b op))
  | grant {ws : Workspace U} {s : SystemId} {sys : System} {scope : Scope GeneratorSite}
      {outer : List (Scope GeneratorSite)} (hs : ws.system? s = some sys)
      (top : sys.running.scopes = scope :: outer) (base : Ident) :
      Change p ws (ws.setSystem s
        { sys with running := ⟨{ scope with names := (scope.names.uniquify base).2 } :: outer⟩ })
  | enqueue {ws : Workspace U} {s : SystemId} {sys : System} {m : ModuleId}
      {x : Module U.GeneratorCode} {sym : Ident} (hs : ws.system? s = some sys)
      (hx : ws.module? m = some x) (gen : x.hasGenerator = true)
      (hsym : sys.symbolOf? m = some sym) (queued : p.queued s m) :
      Change p ws (ws.setSystem s (sys.enqueue m))
  | track {ws : Workspace U} {sys : System} {x : Instance} (hs : ws.system? x.system = some sys)
      (placed : ∀ site, x.site = some site → sys.Holds x.name x.target site)
      (within : ∀ site, x.site = some site → site.parent ∈ sys.owners) :
      Change p ws
        (({ ws with instances := ws.instances ++ [x] } : Workspace U).setSystem x.system
          { sys with instances := sys.instances ++ [⟨ws.instances.length⟩] })
  | release (ws : Workspace U) (i : InstanceId) : Change p ws (ws.releaseInstance i)
  | forget {ws : Workspace U} {s : SystemId} {sys : System} (hs : ws.system? s = some sys) :
      Change p ws
        ((ws.releaseInstances sys.instances).setSystem s { sys with instances := [] })

/-- Any number of changes, one after the other. -/
abbrev Changes (p : Permit) : Workspace U → Workspace U → Prop :=
  Relation.ReflTransGen (Change p)

theorem Change.mono {p q : Permit} {ws ws' : Workspace U} (le : p.Le q) (c : Change p ws ws') :
    Change q ws ws' := by
  cases c with
  | aside modules instances systems => exact .aside modules instances systems
  | addSystem name conf => exact .addSystem ws name conf
  | addModule sound brought =>
      exact .addModule ws sound fun op h => le.brought op (brought op h)
  | setParameters hx params => exact .setParameters hx params
  | create hs hx declared new made => exact .create hs hx declared new (le.made _ _ made)
  | adopt hs hx held new free made => exact .adopt hs hx held new free (le.made _ _ made)
  | push hs top body inner id verified =>
      exact .push hs top body inner id fun h => verified (le.verified _ h)
  | grant hs top base => exact .grant hs top base
  | enqueue hs hx gen hsym queued => exact .enqueue hs hx gen hsym (le.queued _ _ queued)
  | track hs placed within => exact .track hs placed within
  | release i => exact .release ws i
  | forget hs => exact .forget hs

theorem Changes.mono {p q : Permit} {ws ws' : Workspace U} (le : p.Le q)
    (c : Changes p ws ws') : Changes q ws ws' :=
  Relation.ReflTransGen.mono (fun _ _ => Change.mono le) _ _ c

end Workspace

namespace System

variable {sys sys' : System} {ws : Workspace U}

theorem freshSymbol_free (h : sys.Sound ws) (x : Module γ) :
    sys.design.findModule? (sys.freshSymbol x) = none := by
  cases hf : sys.design.findModule? (sys.freshSymbol x) with
  | none => rfl
  | some op => exact absurd (h.issued _ op hf) (NameSupply.uniquify_not_mem _ _)

theorem Sound.not_generated (h : sys.Sound ws) {m : ModuleId} (new : sys.symbolOf? m = none) :
    sys.isGenerated m = false := by
  cases hg : sys.isGenerated m with
  | false => rfl
  | true =>
      obtain ⟨-, sym, -, -, hsym, -⟩ := h.generated m hg
      rw [new] at hsym
      cases hsym

/-- A free symbol is that of no module. -/
theorem Sound.symbolOf?_ne (h : sys.Sound ws) {q : Ident} (free : sys.design.findModule? q = none)
    (n : ModuleId) : sys.symbolOf? n ≠ some q := by
  intro hn
  obtain ⟨-, op, -, hop, -⟩ := h.present n q hn
  rw [free] at hop
  cases hop

theorem Sound.not_owner (h : sys.Sound ws) {q : Ident} (free : sys.design.findModule? q = none) :
    q ∉ sys.owners := by
  intro ho
  obtain ⟨n, hn, -⟩ := h.owned q ho
  exact h.symbolOf?_ne free n hn

/-- A new operation under a free symbol keeps the invariant. -/
theorem Sound.addOp (h : sys.Sound ws) {m : ModuleId} {x : Module U.GeneratorCode} {op : ModuleOp}
    (hx : ws.module? m = some x) (new : sys.symbolOf? m = none)
    (free : sys.design.findModule? op.sym = none)
    (modules : sys'.design.modules = sys.design.modules.insert op.sym op)
    (issued : ∀ q, q = op.sym ∨ q ∈ sys.design.symbols.issued → q ∈ sys'.design.symbols.issued)
    (nextOp : sys.design.nextOp ≤ sys'.design.nextOp)
    (symbols : sys'.symbols = sys.symbols.insert m op.sym)
    (generated : sys'.generated = sys.generated) (running : sys'.running = sys.running)
    (worklist : sys'.worklist = sys.worklist)
    (outputs : op.outputs = x.schema.outputs.map PortDesc.toPort)
    (carries : x.isImported = false → sys.isGenerated m = false → op.sym ∉ sys.owners →
      sys.Carries m x.schema op.sym op) : sys'.Sound ws := by
  have find : ∀ q, sys'.design.findModule? q =
      if q = op.sym then some op else sys.design.findModule? q := fun q => by
    unfold Design.findModule?
    rw [modules, OrderedMap.get?_insert]
  have symbol : ∀ n, sys'.symbolOf? n = if n = m then some op.sym else sys.symbolOf? n := by
    intro n
    unfold symbolOf?
    rw [symbols, OrderedMap.get?_insert]
  have kept : ∀ n sym, sys.symbolOf? n = some sym → sys'.symbolOf? n = some sym := by
    intro n sym hn
    rw [symbol, if_neg (fun e => by rw [e, new] at hn; cases hn), hn]
  have gen : ∀ n, sys'.isGenerated n = sys.isGenerated n := fun n => by
    simp only [isGenerated, generated]
  have own : sys'.owners = sys.owners := by simp only [owners, running]
  constructor
  case named =>
    intro q o ho
    rw [find] at ho
    split at ho
    · rename_i hq
      cases ho
      exact hq.symm
    · exact h.named q o ho
  case issued =>
    intro q o ho
    rw [find] at ho
    split at ho
    · rename_i hq
      exact issued q (.inl hq)
    · exact issued q (.inr (h.issued q o ho))
  case injective =>
    intro n n' sym hn hn'
    rw [symbol] at hn hn'
    split at hn <;> split at hn' <;> rename_i e e'
    · rw [e, e']
    · cases hn
      exact absurd hn' (h.symbolOf?_ne free n')
    · cases hn'
      exact absurd hn (h.symbolOf?_ne free n)
    · exact h.injective n n' sym hn hn'
  case present =>
    intro n sym hn
    rw [symbol] at hn
    split at hn
    · rename_i e
      cases hn
      subst e
      refine ⟨x, op, hx, by rw [find, if_pos rfl], fun declared => ?_⟩
      have fresh := carries declared (h.not_generated new) (h.not_owner free)
      exact fresh.congr (gen _) (by rw [own]) nextOp
    · obtain ⟨y, o, hy, ho, carries⟩ := h.present n sym hn
      refine ⟨y, o, hy, ?_, fun declared => (carries declared).congr (gen n) (by rw [own]) nextOp⟩
      rw [find, if_neg (fun e => by rw [e, free] at ho; cases ho), ho]
  case outputs =>
    intro n y sym o hy hn ho
    rw [symbol] at hn
    rw [find] at ho
    split at hn
    · rename_i e
      cases hn
      rw [if_pos rfl] at ho
      cases ho
      rw [e, hx] at hy
      cases hy
      exact outputs
    · have other : sym ≠ op.sym := fun e => h.symbolOf?_ne free n (e ▸ hn)
      rw [if_neg other] at ho
      exact h.outputs n y sym o hy hn ho
  case generated =>
    intro n hn
    obtain ⟨y, sym, g, hy, hsym, rest⟩ := h.generated n ((gen n) ▸ hn)
    exact ⟨y, sym, g, hy, kept n sym hsym, rest⟩
  case owned =>
    intro sym ho
    obtain ⟨n, hn, hg⟩ := h.owned sym (own ▸ ho)
    exact ⟨n, kept n sym hn, (gen n).trans hg⟩
  case nodup => exact own ▸ h.nodup
  case waiting =>
    intro n hn
    obtain ⟨y, sym, hy, hg, hsym⟩ := h.waiting n (worklist ▸ hn)
    exact ⟨y, sym, hy, hg, kept n sym hsym⟩

theorem toOp_sym (x : Module γ) (file : String) (sym : Ident) : (x.toOp file sym).sym = sym := rfl

theorem Sound.create (h : sys.Sound ws) {m : ModuleId} {x : Module U.GeneratorCode}
    (hx : ws.module? m = some x) (new : sys.symbolOf? m = none) : (sys.create m x).Sound ws := by
  have free : sys.design.findModule?
      (x.toOp sys.conf.externalOutputFile (sys.freshSymbol x)).sym = none := freshSymbol_free h x
  refine h.addOp hx new free rfl ?_ (Nat.le_add_right _ _) rfl rfl rfl rfl rfl ?_
  · intro q hq
    simp only [System.create, NameSupply.reserve, NameSupply.issued_uniquify]
    rcases hq with rfl | hq
    · simp [toOp_sym]
    · simp [hq]
  · intro _ notGen notOwned
    refine ⟨rfl, ?_, ?_, ?_, ?_⟩
    · intro hg
      simp [Module.toOp, Module.hasGenerator, hg, ModuleOp.isExternal]
    · intro hg
      refine ⟨none, ?_, .idle notGen notOwned⟩
      simp [Module.toOp, Module.hasGenerator, hg]
    · intro b hb
      cases hg : x.hasGenerator <;> simp [Module.toOp, hg, ModuleOp.body?] at hb
    · intro b hb
      cases hg : x.hasGenerator <;> simp [Module.toOp, hg, ModuleOp.body?] at hb

theorem Sound.adopt (h : sys.Sound ws) {m : ModuleId} {x : Module U.GeneratorCode} {op : ModuleOp}
    (hx : ws.module? m = some x) (imported : x.isImported = true)
    (outputs : op.outputs = x.schema.outputs.map PortDesc.toPort)
    (new : sys.symbolOf? m = none) (free : sys.design.findModule? op.sym = none) :
    (sys.adopt m op).Sound ws := by
  refine h.addOp hx new free rfl ?_ (Nat.le_refl _) rfl rfl rfl rfl outputs ?_
  · intro q hq
    simpa [System.adopt, NameSupply.reserve] using hq
  · intro declared
    rw [imported] at declared
    cases declared

/-- A new body keeps what the operation has of its schema, if it goes with its stage. -/
theorem Carries.withBody {m : ModuleId} {schema : Schema γ} {sym : Ident} {op : ModuleOp}
    {old body : Option Block} (h : sys.Carries m schema sym op) (hk : op.kind = .real old)
    (stage : sys'.Stage m sym body)
    (distinct : ∀ b, body = some b → (b.ops.map Operation.id).Nodup)
    (numbered : ∀ b, body = some b → ∀ o ∈ b.ops, o.id.index < sys'.design.nextOp) :
    sys'.Carries m schema sym (op.withBody body) := by
  have kind : (op.withBody body).kind = .real body := ModuleOp.kind_withBody hk
  constructor
  case inputs => rw [ModuleOp.withBody_inputs, h.inputs]
  case external =>
    intro hg
    rw [ModuleOp.withBody_isExternal, h.external hg]
  case stage => exact fun _ => ⟨body, kind, stage⟩
  case distinct =>
    intro b hb
    exact distinct b (by rw [← hb, ModuleOp.body?_of_kind kind])
  case numbered =>
    intro b hb
    exact numbered b (by rw [← hb, ModuleOp.body?_of_kind kind])

/-- A new body for one module keeps the invariant if it goes with a stage of that module. -/
theorem Sound.restage (h : sys.Sound ws) {m : ModuleId} {x : Module U.GeneratorCode} {sym : Ident}
    {op : ModuleOp} {old body : Option Block} (hx : ws.module? m = some x)
    (hm : sys.symbolOf? m = some sym) (declared : x.isImported = false)
    (hop : sys.design.findModule? sym = some op) (hk : op.kind = .real old)
    (find : ∀ q, sys'.design.findModule? q =
      if q = sym then (sys.design.findModule? q).map fun o => o.withBody body
      else sys.design.findModule? q)
    (issued : sys'.design.symbols = sys.design.symbols)
    (nextOp : sys.design.nextOp ≤ sys'.design.nextOp) (symbols : sys'.symbols = sys.symbols)
    (worklist : sys'.worklist = sys.worklist)
    (generated : ∀ n, n ≠ m → sys'.isGenerated n = sys.isGenerated n)
    (one : sys'.isGenerated m = true → ∃ g, x.schema.generators.values = [g])
    (owners : ∀ q, q ≠ sym → (q ∈ sys'.owners ↔ q ∈ sys.owners)) (nodup : sys'.owners.Nodup)
    (stage : sys'.Stage m sym body)
    (distinct : ∀ b, body = some b → (b.ops.map Operation.id).Nodup)
    (numbered : ∀ b, body = some b → ∀ o ∈ b.ops, o.id.index < sys'.design.nextOp) :
    sys'.Sound ws := by
  have symbol : ∀ n, sys'.symbolOf? n = sys.symbolOf? n := fun n => by
    simp only [symbolOf?, symbols]
  constructor
  case named =>
    intro q o ho
    rw [find] at ho
    split at ho
    · obtain ⟨o', ho', rfl⟩ := Option.map_eq_some_iff.mp ho
      rw [ModuleOp.withBody_sym]
      exact h.named q o' ho'
    · exact h.named q o ho
  case issued =>
    intro q o ho
    rw [find] at ho
    rw [issued]
    split at ho
    · obtain ⟨o', ho', -⟩ := Option.map_eq_some_iff.mp ho
      exact h.issued q o' ho'
    · exact h.issued q o ho
  case injective =>
    intro n n' q hn hn'
    rw [symbol] at hn hn'
    exact h.injective n n' q hn hn'
  case present =>
    intro n q hn
    rw [symbol] at hn
    obtain ⟨y, o, hy, ho, carries⟩ := h.present n q hn
    by_cases hq : q = sym
    · subst hq
      obtain rfl := h.injective n m q hn hm
      rw [hop] at ho
      cases ho
      rw [hx] at hy
      cases hy
      exact ⟨x, op.withBody body, hx, by rw [find, if_pos rfl, hop]; rfl,
        fun dec => (carries dec).withBody hk stage distinct numbered⟩
    · refine ⟨y, o, hy, by rw [find, if_neg hq, ho], fun dec => ?_⟩
      have hnm : n ≠ m := fun e => hq (by rw [e, hm] at hn; cases hn; rfl)
      exact (carries dec).congr (generated n hnm) (owners q hq) nextOp
  case outputs =>
    intro n y q o hy hn ho
    rw [symbol] at hn
    rw [find] at ho
    split at ho
    · obtain ⟨o', ho', rfl⟩ := Option.map_eq_some_iff.mp ho
      rw [ModuleOp.withBody_outputs]
      exact h.outputs n y q o' hy hn ho'
    · exact h.outputs n y q o hy hn ho
  case generated =>
    intro n hn
    by_cases hnm : n = m
    · subst hnm
      obtain ⟨g, hg⟩ := one hn
      exact ⟨x, sym, g, hx, (symbol n).trans hm, declared, hg⟩
    · obtain ⟨y, q, g, hy, hq, rest⟩ := h.generated n ((generated n hnm) ▸ hn)
      exact ⟨y, q, g, hy, (symbol n).trans hq, rest⟩
  case owned =>
    intro q ho
    by_cases hq : q = sym
    · subst hq
      refine ⟨m, (symbol m).trans hm, ?_⟩
      cases stage with
      | idle _ o => exact absurd ho o
      | running g _ _ => exact g
      | complete _ o _ => exact absurd ho o
    · obtain ⟨n, hn, hg⟩ := h.owned q ((owners q hq).mp ho)
      have hnm : n ≠ m := fun e => hq (by rw [e, hm] at hn; cases hn; rfl)
      exact ⟨n, (symbol n).trans hn, (generated n hnm).trans hg⟩
  case nodup => exact nodup
  case waiting =>
    intro n hn
    obtain ⟨y, q, hy, hg, hq⟩ := h.waiting n (worklist ▸ hn)
    exact ⟨y, q, hy, hg, (symbol n).trans hq⟩

end System

end Hardware
