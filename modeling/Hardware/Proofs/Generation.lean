import Hardware.Generation
import Hardware.Proofs.Calls

/-!
The start and the end of a generator. A generator that starts opens the body of its module;
one that ends well closes it; one that fails takes the body away again. Each keeps the
invariant of the workspace.
-/
namespace Hardware

variable {U : UserCode}

namespace System

variable {sys : System} {ws : Workspace U}

/-- The system in which the body of `m` is open and its generator has begun. -/
def opened (sys : System) (m : ModuleId) (site : GeneratorSite) (args : List Value) : System :=
  { sys with
    design := sys.design.setBody site.ip.owner (some { args })
    generated := sys.generated ++ [m]
    running := sys.running.enter site }

/-- The system in which `op` has closed the body `b` of `sym`, and the generator has ended. -/
def closed (sys : System) (sym : Ident) (b : Block) (op : Operation) : System :=
  { sys.push sym b op with running := sys.running.leave }

/-- The system in which the generation of `m` was undone. -/
def undone (sys : System) (m : ModuleId) (sym : Ident) (kept : List InstanceId) : System :=
  { sys with
    design := sys.design.setBody sym none
    generated := sys.generated.filter fun x => x ≠ m
    running := sys.running.leave
    instances := kept }

@[simp] theorem isGenerated_opened (m n : ModuleId) (site : GeneratorSite) (args : List Value) :
    (sys.opened m site args).isGenerated n = (sys.isGenerated n || decide (n = m)) := by
  simp [isGenerated, opened, List.contains_eq_mem]

@[simp] theorem isGenerated_undone (m n : ModuleId) (sym : Ident) (kept : List InstanceId) :
    (sys.undone m sym kept).isGenerated n = (sys.isGenerated n && decide (n ≠ m)) := by
  simp [isGenerated, undone, List.contains_eq_mem, List.mem_filter]

@[simp] theorem owners_opened (m : ModuleId) (site : GeneratorSite) (args : List Value) :
    (sys.opened m site args).owners = site.ip.owner :: sys.owners := rfl

@[simp] theorem owners_closed (sym : Ident) (b : Block) (op : Operation) :
    (sys.closed sym b op).owners = sys.owners.tail := by
  simp [owners, closed, ScopeStack.leave]

@[simp] theorem owners_undone (m : ModuleId) (sym : Ident) (kept : List InstanceId) :
    (sys.undone m sym kept).owners = sys.owners.tail := by
  simp [owners, undone, ScopeStack.leave]

/-- A module with one generator is a declared one. -/
theorem Sound.declared_of_one (modules : ∀ m x, ws.module? m = some x → x.Sound) {m : ModuleId}
    {x : Module U.GeneratorCode} {g : Generator U.GeneratorCode} (hx : ws.module? m = some x)
    (one : x.schema.generators.values = [g]) :
    x.isImported = false ∧ x.schema.hasGenerator = true := by
  have has := Schema.hasGenerator_of_one one
  refine ⟨?_, has⟩
  cases hi : x.isImported with
  | false => rfl
  | true =>
      have none : x.schema.hasGenerator = false := (modules m x hx).imported hi
      rw [has] at none
      cases none

theorem Sound.opened (h : sys.Sound ws) {m : ModuleId} {x : Module U.GeneratorCode}
    {op : ModuleOp} {site : GeneratorSite} (hx : ws.module? m = some x)
    (declared : x.isImported = false) (one : ∃ g, x.schema.generators.values = [g])
    (hm : sys.symbolOf? m = some site.ip.owner)
    (hop : sys.design.findModule? site.ip.owner = some op) (hk : op.kind = .real none)
    (idle : sys.isGenerated m = false) (args : List Value) :
    (sys.opened m site args).Sound ws := by
  have free : site.ip.owner ∉ sys.owners := by
    intro ho
    obtain ⟨n, hn, gen⟩ := h.owned _ ho
    rw [h.injective n m _ hn hm, idle] at gen
    cases gen
  refine h.restage hx hm declared hop hk (fun q => Design.findModule?_setBody _ _ q _) rfl
    (Nat.le_refl _) rfl rfl ?_ (fun _ => one) ?_ ?_ (.running ?_ ?_ (Block.isOpen_empty args)) ?_ ?_
  · intro n hnm
    simp [hnm]
  · intro q hq
    simp [hq]
  · rw [owners_opened]
    exact List.nodup_cons.mpr ⟨free, h.nodup⟩
  · simp
  · simp
  · rintro b ⟨⟩
    exact List.nodup_nil
  · rintro b ⟨⟩ o ho
    cases ho

/-- What the innermost running generator is closed and undone by. -/
theorem Sound.target_top (h : sys.Sound ws) {m : ModuleId} {scope : Scope GeneratorSite}
    {outer : List (Scope GeneratorSite)} (top : sys.running.scopes = scope :: outer)
    (hm : sys.symbolOf? m = some scope.site.ip.owner) :
    ∃ x op b, ws.module? m = some x ∧ x.isImported = false ∧ sys.isGenerated m = true ∧
      sys.design.findModule? scope.site.ip.owner = some op ∧ op.kind = .real (some b) ∧
      sys.Carries m x.schema scope.site.ip.owner op ∧ b.IsOpen ∧
      (∃ g, x.schema.generators.values = [g]) ∧
      sys.owners.tail.Nodup ∧ scope.site.ip.owner ∉ sys.owners.tail := by
  obtain ⟨n, x, op, b, hn, hx, declared, gen, hop, hk, carries, opened⟩ := h.top top
  obtain rfl := h.injective n m _ hn hm
  obtain ⟨x', -, g, hx', -, -, one⟩ := h.generated n gen
  rw [hx] at hx'
  cases hx'
  have nodup := h.nodup
  have owners : sys.owners = scope.site.ip.owner :: sys.owners.tail := by
    simp [System.owners, top]
  rw [owners] at nodup
  obtain ⟨free, rest⟩ := List.nodup_cons.mp nodup
  exact ⟨x, op, b, hx, declared, gen, hop, hk, carries, opened, ⟨g, one⟩, rest, free⟩

theorem mem_owners_tail {scope : Scope GeneratorSite} {outer : List (Scope GeneratorSite)}
    (top : sys.running.scopes = scope :: outer) {q : Ident} (hq : q ≠ scope.site.ip.owner) :
    q ∈ sys.owners.tail ↔ q ∈ sys.owners := by
  simp [owners, top, hq]

theorem Sound.closed (h : sys.Sound ws) {m : ModuleId} {scope : Scope GeneratorSite}
    {outer : List (Scope GeneratorSite)} {b : Block} {op : Operation}
    (P : sys.Pushes scope outer b op) (hm : sys.symbolOf? m = some scope.site.ip.owner)
    (last : op.isTerminator = true) : (sys.closed scope.site.ip.owner b op).Sound ws := by
  obtain ⟨x, mop, b', hx, declared, gen, hop, hk, carries, opened, one, nodup, free⟩ :=
    h.target_top P.top hm
  have same := Design.body?_of_kind hop hk
  rw [P.body] at same
  cases same
  have hb := ModuleOp.body?_of_kind hk
  have ids := ids_push (carries.distinct b hb) (carries.numbered b hb) P.id
  refine h.restage hx hm declared hop hk (fun q => Design.findModule?_push _ _ _ _ _) rfl
    (Nat.le_succ _) rfl rfl (fun _ _ => rfl) (fun _ => one) ?_ ?_
    (.complete gen ?_ (opened.close last)) ?_ ?_
  · intro q hq
    rw [owners_closed]
    exact mem_owners_tail P.top hq
  · rw [owners_closed]
    exact nodup
  · rw [owners_closed]
    exact free
  · rintro _ ⟨⟩
    exact ids.1
  · rintro _ ⟨⟩
    exact ids.2

theorem Sound.undone (h : sys.Sound ws) {m : ModuleId} {scope : Scope GeneratorSite}
    {outer : List (Scope GeneratorSite)} (top : sys.running.scopes = scope :: outer)
    (hm : sys.symbolOf? m = some scope.site.ip.owner) (kept : List InstanceId) :
    (sys.undone m scope.site.ip.owner kept).Sound ws := by
  obtain ⟨x, mop, b', hx, declared, gen, hop, hk, -, -, one, nodup, free⟩ := h.target_top top hm
  refine h.restage hx hm declared hop hk (fun q => Design.findModule?_setBody _ _ q _) rfl
    (Nat.le_refl _) rfl rfl ?_ (fun _ => one) ?_ ?_ (.idle ?_ ?_) ?_ ?_
  · intro n hnm
    simp [hnm]
  · intro q hq
    rw [owners_undone]
    exact mem_owners_tail top hq
  · rw [owners_undone]
    exact nodup
  · simp
  · rw [owners_undone]
    exact free
  · rintro b ⟨⟩
  · rintro b ⟨⟩

end System

namespace Workspace

variable {ws ws' : Workspace U} {s : SystemId} {m : ModuleId} {run : GeneratorRun}

/-- The generator of `m` starts in `s`, where `m` has an operation already. -/
inductive Opens (ws : Workspace U) (s : SystemId) (m : ModuleId) :
    GeneratorRun → U.GeneratorCode → Workspace U → Prop
  | intro {sys : System} {x : Module U.GeneratorCode} {g : Generator U.GeneratorCode}
      {op : ModuleOp} (site : GeneratorSite) (hs : ws.system? s = some sys)
      (hx : ws.module? m = some x) (one : x.schema.generators.values = [g])
      (idle : sys.isGenerated m = false) (hsym : sys.symbolOf? m = some site.ip.owner)
      (hop : sys.design.findModule? site.ip.owner = some op) (hk : op.kind = .real none)
      (loc : site.loc = g.loc)
      (clock : site.clock = clockArg x.schema (Design.entryArgs site.ip.owner op.inputs)) :
      Opens ws s m
        { symbol := site.ip.owner, loc := g.loc
          ports := .opened s m x.schema.inputs x.schema.outputs
            (Design.entryArgs site.ip.owner op.inputs) }
        g.code (ws.setSystem s (sys.opened m site (Design.entryArgs site.ip.owner op.inputs)))

/-- A generator that ends well closes the body at the innermost running generator. -/
inductive Closes (ws : Workspace U) (run : GeneratorRun) : Workspace U → Prop
  | intro {sys : System} {scope : Scope GeneratorSite} {outer : List (Scope GeneratorSite)}
      {b : Block} {op : Operation} (hs : ws.system? run.system = some sys)
      (P : sys.Pushes scope outer b op) (kind : op.kind = .output)
      (assigned : run.ports.unassigned = [])
      (operands : op.operands = run.ports.slots.filterMap id) :
      Closes ws run (ws.setSystem run.system (sys.closed scope.site.ip.owner b op))

/-- True of the instances whose operation stands in the body of `sym`. -/
def isInside (ws : Workspace U) (sym : Ident) (i : InstanceId) : Bool := ws.parent? i = some sym

/-- A generator that fails leaves its module without a body, and clears what it built there. -/
inductive Unwinds (ws : Workspace U) (run : GeneratorRun) : Workspace U → Prop
  | intro {sys : System} (hs : ws.system? run.system = some sys) :
      Unwinds ws run
        ((ws.releaseInstances (sys.instances.filter (ws.isInside run.symbol))).setSystem run.system
          (sys.undone run.target run.symbol
            (sys.instances.filter fun i => !ws.isInside run.symbol i)))

/-- The operation of a module that was not generated has no body yet. -/
theorem Created.idle (h : ws.Sound) {sym : Ident} (c : Created ws s m sym ws') {sys : System}
    {x : Module U.GeneratorCode} {g : Generator U.GeneratorCode} (hs : ws.system? s = some sys)
    (hx : ws.module? m = some x) (one : x.schema.generators.values = [g])
    (gen : sys.isGenerated m = false) :
    ∃ sys' x' op, ws'.system? s = some sys' ∧ ws'.module? m = some x' ∧
      x'.schema = x.schema ∧ sys'.isGenerated m = false ∧ sys'.symbolOf? m = some sym ∧
      sys'.design.findModule? sym = some op ∧ op.kind = .real none := by
  obtain ⟨declared, has⟩ := System.Sound.declared_of_one h.modules hx one
  have sound := Changes.sound h c.any
  obtain ⟨old, sys', hold, hs', hsym, -, generated⟩ := c.symbolOf?
  rw [hs] at hold
  cases hold
  obtain ⟨x', hx', schema, imported⟩ := (Changes.extends c.any).modules m x hx
  obtain ⟨y, op, hy, hop, carries⟩ := (sound.systems s sys' hs').present m sym hsym
  rw [hx'] at hy
  cases hy
  obtain ⟨body, hk, stage⟩ := (carries (imported.trans declared)).stage (schema ▸ has)
  have idle : sys'.isGenerated m = false := by
    rw [← gen, System.isGenerated, System.isGenerated, generated]
  refine ⟨sys', x', op, hs', hx', schema, idle, hsym, hop, ?_⟩
  cases stage with
  | idle => exact hk
  | running g => rw [idle] at g; cases g
  | complete g => rw [idle] at g; cases g

/-- The body is opened, the module is marked, and the scope of the generator is entered. -/
theorem openBody_ends {sys : System} {x : Module U.GeneratorCode} {g : Generator U.GeneratorCode}
    {sym : Ident} {op : ModuleOp} (hs : ws.system? s = some sys) (hx : ws.module? m = some x)
    (one : x.schema.generators.values = [g]) (idle : sys.isGenerated m = false)
    (hsym : sys.symbolOf? m = some sym) (hop : sys.design.findModule? sym = some op)
    (hk : op.kind = .real none) :
    (do
      let args ← onSystem s (System.onDesign (Design.addEntryBlock sym))
      updateSystem s (System.markGenerated m)
      let site : GeneratorSite := { ip := ⟨sym⟩, loc := g.loc, clock := clockArg x.schema args }
      updateSystem s (System.enterScope site)
      let ports := Ports.opened s m x.schema.inputs x.schema.outputs args
      pure ({ symbol := sym, loc := g.loc, ports }, g.code) :
        Effect (Workspace U) (GeneratorRun × U.GeneratorCode)).Ends ws
      (fun r ws' => Opens ws s m r.1 r.2 ws') fun _ _ => False := by
  refine .bind (onSystem_ends_of_some hs ?_)
  refine Effect.ends_on ((Design.addEntryBlock_ends _ _).imp ?_ ?_)
  · rintro args _ ⟨op', hop', -, rfl, rfl⟩
    rw [hop] at hop'
    cases hop'
    refine .bind (updateSystem_ends (system?_setSystem_self hs _) ?_)
    rw [setSystem_setSystem]
    refine .bind (updateSystem_ends (system?_setSystem_self hs _) ?_)
    have marked (d : Design) : System.markGenerated m { sys with design := d } =
        { sys with design := d, generated := sys.generated ++ [m] } :=
      if_neg (ne_true_of_eq_false idle)
    rw [setSystem_setSystem, marked]
    exact .intro ⟨⟨sym⟩, g.loc, clockArg x.schema (Design.entryArgs sym op.inputs)⟩ hs hx one idle
      hsym hop hk rfl rfl
  · rintro _ _ ⟨-, no⟩
    exact no ⟨op, hop, hk⟩

/-- A generator starts whenever its module has just this one and is not generated yet. -/
theorem beginGeneration_ends (h : ws.Sound) (s : SystemId) (m : ModuleId) :
    (beginGeneration s m).Ends ws
      (fun r ws' => ∃ sym mid, Created ws s m sym mid ∧ Opens mid s m r.1 r.2 ws')
      fun e ws' => ws' = ws ∧ ∀ sys x g, ws.system? s = some sys → ws.module? m = some x →
        x.schema.generators.values = [g] → sys.isGenerated m = true ∧
          e = .generation (.alreadyGenerated x.name) := by
  unfold beginGeneration getModule getSystem
  refine .bind (resolve_ends (fun x hx => ?_) fun none => ⟨rfl, fun _ _ _ _ hx => ?_⟩)
  · split
    · rename_i g one
      refine .bind (resolve_ends (fun sys hs => ?_) fun none => ⟨rfl, fun _ _ _ hs => ?_⟩)
      · cases gen : sys.isGenerated m with
        | true =>
            refine .bind ⟨rfl, fun sys' x' _ hs' hx' _ => ?_⟩
            rw [hs] at hs'
            rw [hx] at hx'
            cases hs'
            cases hx'
            exact ⟨gen, rfl⟩
        | false =>
            refine .bind ((createOp_ends h s m).imp (fun sym mid created => ?_) ?_)
            · obtain ⟨sys', x', op, hs', hx', schema, idle, hsym, hop, hk⟩ :=
                created.idle h hs hx one gen
              rw [← schema] at one ⊢
              refine (openBody_ends hs' hx' one idle hsym hop hk).imp ?_ fun _ _ no => no.elim
              exact fun r ws' opens => ⟨sym, mid, created, opens⟩
            · rintro _ _ ⟨-, refuses⟩
              have declared := (System.Sound.declared_of_one h.modules hx one).1
              rw [(refuses sys x hs hx).imported] at declared
              cases declared
      · rw [none] at hs
        cases hs
    · rename_i many
      refine ⟨rfl, fun _ y g _ hy one => ?_⟩
      rw [hx] at hy
      cases hy
      exact absurd one (many g)
  · rw [none] at hx
    cases hx

theorem closeBody_ends (run : GeneratorRun) (result : GeneratorResult) {sys : System}
    (hs : ws.system? run.system = some sys) :
    (closeBody run result).Ends ws
      (fun _ ws' => ∃ scope outer b op, sys.Pushes scope outer b op ∧ op.kind = .output ∧
        run.ports.unassigned = [] ∧ op.operands = run.ports.slots.filterMap id ∧
        ws' = ws.setSystem run.system (sys.push scope.site.ip.owner b op))
      fun _ ws' => ws' = ws := by
  unfold closeBody
  refine .bind (Effect.ends_ofExcept (fun returned _ => ?_) fun _ _ => rfl)
  have output : (do
      let values ← Effect.ofExcept (run.ports.outputValues ((← get).moduleName run.target))
      onSystem run.system (System.buildOutput values) : Effect (Workspace U) Unit).Ends ws
      (fun _ ws' => ∃ scope outer b op, sys.Pushes scope outer b op ∧ op.kind = .output ∧
        run.ports.unassigned = [] ∧ op.operands = run.ports.slots.filterMap id ∧
        ws' = ws.setSystem run.system (sys.push scope.site.ip.owner b op))
      fun _ ws' => ws' = ws := by
    refine .bind ?_
    simp only [Effect.ends_get]
    refine .bind (Effect.ends_ofExcept (fun values hv => ?_) fun _ _ => rfl)
    unfold Ports.outputValues Ports.check at hv
    split at hv
    · rename_i all
      cases hv
      refine onSystem_ends_of_some hs ((System.buildOutput_ends sys _).imp ?_ ?_)
      · rintro _ _ ⟨scope, outer, b, op, P, kind, operands, rfl⟩
        exact ⟨scope, outer, b, op, P, kind, by simpa using all, operands, rfl⟩
      · rintro _ _ rfl
        exact setSystem_self hs
    · cases hv
  split
  · exact .bind rfl
  · exact output

theorem releaseInstance_setSystem (ws : Workspace U) (s : SystemId) (sys : System)
    (i : InstanceId) :
    (ws.setSystem s sys).releaseInstance i = (ws.releaseInstance i).setSystem s sys := by
  unfold releaseInstance
  rw [instance?_setSystem]
  split <;> rfl

theorem releaseInstances_setSystem (ws : Workspace U) (s : SystemId) (sys : System)
    (is : List InstanceId) :
    (ws.setSystem s sys).releaseInstances is = (ws.releaseInstances is).setSystem s sys := by
  unfold releaseInstances
  induction is generalizing ws with
  | nil => rfl
  | cons i is ih =>
      rw [List.foldl_cons, List.foldl_cons, releaseInstance_setSystem, ih]

theorem endGeneration_ends (run : GeneratorRun) (result : GeneratorResult) {sys : System}
    (hs : ws.system? run.system = some sys) :
    (endGeneration run result).Ends ws (fun _ ws' => Closes ws run ws')
      fun _ ws' => Unwinds ws run ws' := by
  have ends := closeBody_ends run result hs
  unfold Effect.Ends endGeneration at *
  cases hc : closeBody run result ws with
  | ok u ws₁ =>
      rw [hc] at ends
      obtain ⟨scope, outer, b, op, P, kind, assigned, operands, rfl⟩ := ends
      have there := system?_setSystem_self hs (sys.push scope.site.ip.owner b op)
      simp only [modifySystem_eq there, setSystem_setSystem]
      exact .intro hs P kind assigned operands
  | error e ws₁ =>
      rw [hc] at ends
      subst ends
      have there := system?_setSystem_self hs sys.leaveScope
      have unwound : unwind run.system run.target run.symbol
          (ws₁.modifySystem run.system System.leaveScope) =
          (ws₁.releaseInstances
            (sys.instances.filter (ws₁.isInside run.symbol))).setSystem run.system
            (sys.undone run.target run.symbol
              (sys.instances.filter fun i => !ws₁.isInside run.symbol i)) := by
        unfold unwind
        rw [modifySystem_eq hs, there]
        change modifySystem run.system _ ((ws₁.setSystem run.system sys.leaveScope).releaseInstances
          (sys.instances.filter (ws₁.isInside run.symbol))) = _
        have released : (ws₁.releaseInstances
            (sys.instances.filter (ws₁.isInside run.symbol))).system? run.system = some sys := by
          rwa [system?_releaseInstances]
        rw [releaseInstances_setSystem, modifySystem_eq (system?_setSystem_self released _),
          setSystem_setSystem]
        rfl
      simp only [unwound]
      exact .intro hs

end Workspace

end Hardware
