import Hardware.Proofs.Generation
import Hardware.Proofs.Ports

/-!
The generators that have begun and not ended. In each system they are, from the innermost
to the outermost, the owners of its scopes, and the start or the end of a generator moves
both by one.
-/
namespace Hardware

variable {U : UserCode}

/-- What holds of a generator for as long as it runs: its module has its symbol, and its
ports are those of the module. -/
structure GeneratorRun.Sound (ws : Workspace U) (run : GeneratorRun) : Prop where
  home : ∃ sys, ws.system? run.system = some sys ∧ sys.symbolOf? run.target = some run.symbol
  ports : ∃ x, ws.module? run.target = some x ∧ run.ports.inputs = x.schema.inputs ∧
    run.ports.outputs = x.schema.outputs ∧
    run.ports.args = Design.entryArgs run.symbol (x.schema.inputs.map PortDesc.toPort) ∧
    run.ports.slots.length = run.ports.outputs.length

theorem GeneratorRun.Sound.extends {ws ws' : Workspace U} {run : GeneratorRun}
    (h : run.Sound ws) (e : ws.Extends ws') : run.Sound ws' where
  home := by
    obtain ⟨sys, hs, hm⟩ := h.home
    obtain ⟨sys', hs', -, symbols⟩ := e.systems _ sys hs
    exact ⟨sys', hs', symbols _ _ hm⟩
  ports := by
    obtain ⟨x, hx, rest⟩ := h.ports
    obtain ⟨x', hx', schema, -⟩ := e.modules _ x hx
    exact ⟨x', hx', schema ▸ rest⟩

/-- The argument that is the clock of the generator's module, if it has exactly one clock. -/
def GeneratorRun.clock? (ws : Workspace U) (run : GeneratorRun) : Option Signal :=
  (ws.module? run.target).bind fun x => Workspace.clockArg x.schema run.ports.args

/-- What the scope of a generator keeps for it. -/
def GeneratorRun.site (ws : Workspace U) (run : GeneratorRun) : GeneratorSite :=
  { ip := ⟨run.symbol⟩, loc := run.loc, clock := run.clock? ws }

theorem GeneratorRun.Sound.site_eq {ws ws' : Workspace U} {run : GeneratorRun}
    (h : run.Sound ws) (e : ws.Extends ws') : run.site ws' = run.site ws := by
  obtain ⟨x, hx, -⟩ := h.ports
  obtain ⟨x', hx', schema, -⟩ := e.modules _ x hx
  simp only [GeneratorRun.site, GeneratorRun.clock?, hx, hx', Option.bind_some, schema]

namespace Workspace

variable {ws ws' : Workspace U} {s : SystemId} {m : ModuleId} {run : GeneratorRun} {p : Permit}
  {runs runs' : List GeneratorRun}

/-- The generators that run in `s`. -/
def runsIn (s : SystemId) (runs : List GeneratorRun) : List GeneratorRun :=
  runs.filter fun run => run.system = s

theorem mem_runsIn : run ∈ runsIn s runs ↔ run ∈ runs ∧ run.system = s := by
  simp [runsIn]

theorem runsIn_cons (s : SystemId) (run : GeneratorRun) (runs : List GeneratorRun) :
    runsIn s (run :: runs) = if run.system = s then run :: runsIn s runs else runsIn s runs := by
  unfold runsIn
  rw [List.filter_cons]
  by_cases h : run.system = s <;> simp [h]

/-- What the scopes of the generators keep that run in `s`. -/
def sitesIn (ws : Workspace U) (s : SystemId) (runs : List GeneratorRun) : List GeneratorSite :=
  (runsIn s runs).map (GeneratorRun.site ws)

theorem sitesIn_cons (ws : Workspace U) (s : SystemId) (run : GeneratorRun)
    (runs : List GeneratorRun) : ws.sitesIn s (run :: runs) =
      if run.system = s then run.site ws :: ws.sitesIn s runs else ws.sitesIn s runs := by
  unfold sitesIn
  rw [runsIn_cons, apply_ite (List.map _), List.map_cons]

theorem sitesIn_eq (each : ∀ run ∈ runs, run.Sound ws) (e : ws.Extends ws') (s : SystemId) :
    ws'.sitesIn s runs = ws.sitesIn s runs :=
  List.map_congr_left fun run hrun => (each run (mem_runsIn.mp hrun).1).site_eq e

/-- The symbols of the generators that run in `s`. -/
def ownersIn (s : SystemId) (runs : List GeneratorRun) : List Ident :=
  (runs.filter fun run => run.system = s).map GeneratorRun.symbol

theorem ownersIn_cons (s : SystemId) (run : GeneratorRun) (runs : List GeneratorRun) :
    ownersIn s (run :: runs) =
      if run.system = s then run.symbol :: ownersIn s runs else ownersIn s runs := by
  change (runsIn s (run :: runs)).map _ = _
  rw [runsIn_cons, apply_ite (List.map _), List.map_cons]
  rfl

/-- The modules whose generators run in `s`. -/
def targetsIn (s : SystemId) (runs : List GeneratorRun) : List ModuleId :=
  (runs.filter fun run => run.system = s).map GeneratorRun.target

theorem targetsIn_cons (s : SystemId) (run : GeneratorRun) (runs : List GeneratorRun) :
    targetsIn s (run :: runs) =
      if run.system = s then run.target :: targetsIn s runs else targetsIn s runs := by
  change (runsIn s (run :: runs)).map _ = _
  rw [runsIn_cons, apply_ite (List.map _), List.map_cons]
  rfl

theorem owners_sitesIn (ws : Workspace U) (s : SystemId) (runs : List GeneratorRun) :
    (ws.sitesIn s runs).map (fun site => site.ip.owner) = ownersIn s runs := by
  simp [sitesIn, runsIn, ownersIn, GeneratorRun.site]

theorem mem_targetsIn : m ∈ targetsIn s runs ↔ ∃ run ∈ runs, run.system = s ∧ run.target = m := by
  simp [targetsIn, and_assoc]

/-- The invariant of a workspace in which the generators `runs` are running. -/
structure Hosts (ws : Workspace U) (runs : List GeneratorRun) : Prop where
  sound : ws.Sound
  each : ∀ run ∈ runs, run.Sound ws
  sites : ∀ s sys, ws.system? s = some sys →
    sys.running.scopes.map Scope.site = ws.sitesIn s runs

theorem Hosts.owners (h : ws.Hosts runs) (s : SystemId) (sys : System)
    (hs : ws.system? s = some sys) : sys.owners = ownersIn s runs := by
  rw [System.owners_eq_sites, h.sites s sys hs, owners_sitesIn]

theorem Hosts.top (h : ws.Hosts (run :: runs)) :
    ∃ sys scope outer, ws.system? run.system = some sys ∧ sys.Sound ws ∧
      sys.running.scopes = scope :: outer ∧ scope.site.ip.owner = run.symbol ∧
      sys.symbolOf? run.target = some run.symbol := by
  obtain ⟨sys, hs, hm⟩ := (h.each run (by simp)).home
  have owners := h.owners run.system sys hs
  rw [ownersIn_cons, if_pos rfl] at owners
  cases top : sys.running.scopes with
  | nil => simp [System.owners, top] at owners
  | cons scope outer =>
      simp only [System.owners, top, List.map_cons, List.cons.injEq] at owners
      exact ⟨sys, scope, outer, hs, h.sound.systems _ sys hs, top, owners.1, hm⟩

/-- What one step does, within a permit, to a workspace and to the generators that run in it. -/
inductive Move (p : Permit) :
    Workspace U → List GeneratorRun → Workspace U → List GeneratorRun → Prop
  | call {ws ws' : Workspace U} {runs : List GeneratorRun} (c : Changes p ws ws') :
      Move p ws runs ws' runs
  | port {ws ws' : Workspace U} {run : GeneratorRun} {runs : List GeneratorRun} {ports : Ports}
      {given : List Signal} (step : Ports.Step p given (run.ports, ws) (ports, ws'))
      (allowed : ∀ v ∈ given, p.assigned v) :
      Move p ws (run :: runs) ws' ({ run with ports } :: runs)
  | pop {ws : Workspace U} {runs : List GeneratorRun} {s : SystemId} {sys : System}
      {m : ModuleId} {rest : List ModuleId} (drained : p.drained s)
      (hs : ws.system? s = some sys) (first : sys.worklist = m :: rest) :
      Move p ws runs (ws.setSystem s { sys with worklist := rest }) runs
  | begins {ws mid ws' : Workspace U} {runs : List GeneratorRun} {s : SystemId} {m : ModuleId}
      {sym : Ident} {run : GeneratorRun} {code : U.GeneratorCode}
      (created : Created ws s m sym mid) (opens : Opens mid s m run code ws') :
      Move p ws runs ws' (run :: runs)
  | closes {ws ws' : Workspace U} {run : GeneratorRun} {runs : List GeneratorRun}
      (c : Closes ws run ws') : Move p ws (run :: runs) ws' runs
  | unwinds {ws ws' : Workspace U} {run : GeneratorRun} {runs : List GeneratorRun}
      (u : Unwinds ws run ws') : Move p ws (run :: runs) ws' runs

theorem Opens.extends {code : U.GeneratorCode} (o : Opens ws s m run code ws') :
    ws.Extends ws' := by
  cases o with
  | intro site hs hx one idle hsym hop hk => exact .of_setSystem hs rfl fun _ _ h => h

theorem Closes.extends (c : Closes ws run ws') : ws.Extends ws' := by
  cases c with
  | intro hs P kind assigned operands => exact .of_setSystem hs rfl fun _ _ h => h

theorem Unwinds.extends (u : Unwinds ws run ws') : ws.Extends ws' := by
  cases u with
  | @intro sys hs =>
      refine (Extends.of_releaseInstances (sys.instances.filter (ws.isInside run.symbol))).trans
        (.of_setSystem (?_ : _ = some sys) rfl fun _ _ h => h)
      rwa [system?_releaseInstances]

theorem Closes.system? (c : Closes ws run ws') : ∃ sys sym b op,
    ws.system? run.system = some sys ∧ ws'.system? run.system = some (sys.closed sym b op) := by
  cases c with
  | intro hs P kind assigned operands =>
      exact ⟨_, _, _, _, hs, system?_setSystem_self hs _⟩

theorem Unwinds.system? (u : ws.Unwinds run ws') {sys : System}
    (hs : ws.system? run.system = some sys) :
    ∃ kept, ws'.system? run.system = some (sys.undone run.target run.symbol kept) := by
  cases u with
  | @intro sys' hs' =>
      rw [hs] at hs'
      cases hs'
      refine ⟨_, system?_setSystem_self (?_ : _ = some sys) _⟩
      rwa [system?_releaseInstances]

theorem Move.extends (h : Move p ws runs ws' runs') : ws.Extends ws' := by
  cases h with
  | call c => exact Changes.extends c
  | port step allowed => exact Changes.extends step.changes
  | pop drained hs first => exact .of_setSystem hs rfl fun _ _ h => h
  | begins created opens => exact (Changes.extends created.any).trans opens.extends
  | closes c => exact c.extends
  | unwinds u => exact u.extends

/-- The scope that a generator enters keeps what the generator says of itself. -/
theorem Opens.site_eq {code : U.GeneratorCode} (o : Opens ws s m run code ws') :
    ∃ sys args, ws.system? s = some sys ∧ run.system = s ∧ run.target = m ∧
      ws' = ws.setSystem s (sys.opened m (run.site ws) args) := by
  cases o with
  | @intro sys x g op site hs hx one idle hsym hop hk loc clock =>
      refine ⟨sys, Design.entryArgs site.ip.owner op.inputs, hs, rfl, rfl, ?_⟩
      unfold GeneratorRun.site GeneratorRun.clock? GeneratorRun.target Ports.opened
      rw [hx, Option.bind_some, ← clock, ← loc]

theorem Opens.sound {code : U.GeneratorCode} (h : ws.Sound) (o : Opens ws s m run code ws') :
    ws'.Sound := by
  have e := o.extends
  cases o with
  | intro site hs hx one idle hsym hop hk =>
      have declared := (System.Sound.declared_of_one h.modules hx one).1
      exact h.setSystem hs e
        ((h.systems _ _ hs).opened hx declared ⟨_, one⟩ hsym hop hk idle _) fun _ _ _ _ _ hi => hi

theorem Hosts.closes (h : ws.Hosts (run :: runs)) (c : Closes ws run ws') : ws'.Sound := by
  have e := c.extends
  obtain ⟨sys, scope, outer, hs, sound, top, owner, hm⟩ := h.top
  cases c with
  | intro hs' P kind assigned operands =>
      rw [hs] at hs'
      cases hs'
      have last : ∀ {op : Operation}, op.kind = .output → op.isTerminator = true := by
        intro op hk
        unfold Operation.isTerminator
        rw [hk]
      obtain ⟨rfl, rfl⟩ := P.scope_eq top
      exact h.sound.setSystem hs e (sound.closed P (owner ▸ hm) (last kind)) fun _ _ _ _ _ hi => hi

/-- The instances that lose their place in the registry have lost their site. -/
theorem Hosts.unwinds (h : ws.Hosts (run :: runs)) (u : Unwinds ws run ws') : ws'.Sound := by
  obtain ⟨sys, scope, outer, hs, sound, top, owner, hm⟩ := h.top
  cases u with
  | intro hs' =>
      rw [hs] at hs'
      cases hs'
      have there : (ws.releaseInstances (sys.instances.filter (ws.isInside run.symbol))).system?
          run.system = some sys := by
        rwa [system?_releaseInstances]
      refine (h.sound.releaseInstances _).setSystem there
        (.of_setSystem there rfl fun _ _ h => h) ?_ fun i x hi _ site member => ?_
      · have undone := sound.undone top (owner ▸ hm)
          (sys.instances.filter fun i => !ws.isInside run.symbol i)
        rw [owner] at undone
        exact undone.extends (.of_releaseInstances _)
      · refine List.mem_filter.mpr ⟨member, ?_⟩
        by_cases inside : ws.isInside run.symbol i = true
        · rw [instance?_releaseInstances, if_pos (List.mem_filter.mpr ⟨member, inside⟩)] at hi
          obtain ⟨y, -, rfl⟩ := Option.map_eq_some_iff.mp hi
          cases site
        · simpa using inside

theorem Hosts.pop (h : ws.Hosts runs) {sys : System} {rest : List ModuleId}
    (hs : ws.system? s = some sys) (first : sys.worklist = m :: rest) :
    (ws.setSystem s { sys with worklist := rest }).Sound := by
  refine h.sound.setSystem hs (.of_setSystem hs rfl fun _ _ h => h) ?_ fun _ _ _ _ _ hi => hi
  refine (h.sound.systems s sys hs).of_same rfl rfl rfl rfl fun n hn => .inl ?_
  rw [first]
  exact List.mem_cons_of_mem m hn

theorem Hosts.sitesIn_nil (h : ws.Hosts runs) (none : ws.system? s = none) :
    ws.sitesIn s runs = [] := by
  unfold sitesIn runsIn
  refine List.map_eq_nil_iff.mpr (List.filter_eq_nil_iff.mpr fun run hrun here => ?_)
  obtain ⟨sys, hs, -⟩ := (h.each run hrun).home
  rw [of_decide_eq_true here, none] at hs
  cases hs

theorem Hosts.ownersIn_nil (h : ws.Hosts runs) (none : ws.system? s = none) :
    ownersIn s runs = [] := by
  rw [← owners_sitesIn ws, h.sitesIn_nil none]
  rfl

theorem Hosts.changes (h : ws.Hosts runs) (c : Changes p ws ws') : ws'.Hosts runs where
  sound := Changes.sound h.sound c
  each run hrun := (h.each run hrun).extends (Changes.extends c)
  sites s sys' hs' := by
    obtain ⟨sys, before, k⟩ := Changes.keeps h.sound c hs'
    rw [k.sites, sitesIn_eq h.each (Changes.extends c)]
    rcases before with there | ⟨gone, name, conf, rfl⟩
    · exact h.sites s sys there
    · rw [h.sitesIn_nil gone]
      rfl

theorem Hosts.opens (h : ws.Hosts runs) {code : U.GeneratorCode}
    (o : Opens ws s m run code ws') : ws'.Hosts (run :: runs) := by
  have e := o.extends
  have sound := o.sound h.sound
  refine ⟨sound, fun r hr => ?_, fun t sys' ht => ?_⟩
  · rcases List.mem_cons.mp hr with rfl | hr
    · cases o with
      | @intro sys x g op site hs hx one idle hsym hop hk loc clock =>
          obtain ⟨y, o, hy, ho, carries⟩ := (h.sound.systems s sys hs).present m _ hsym
          rw [hx] at hy
          rw [hop] at ho
          cases hy
          cases ho
          have declared := (System.Sound.declared_of_one h.sound.modules hx one).1
          refine ⟨⟨_, system?_setSystem_self hs _, hsym⟩, x, hx, rfl, rfl, ?_, ?_⟩
          · rw [← (carries declared).inputs]
            rfl
          · simp [Ports.opened]
    · exact (h.each r hr).extends e
  · obtain ⟨sys, args, hs, rfl, rfl, rfl⟩ := o.site_eq
    have same : run.site (ws.setSystem run.system (sys.opened run.target (run.site ws) args)) =
        run.site ws := rfl
    rw [system?_setSystem hs] at ht
    rw [sitesIn_cons, sitesIn_eq h.each e, same]
    split at ht
    · rename_i hts
      cases ht
      rw [if_pos hts.symm, hts, ← h.sites _ sys hs]
      rfl
    · rename_i hts
      rw [if_neg (Ne.symm hts)]
      exact h.sites t sys' ht

/-- Where a generator ends, its system loses the innermost scope, and no other does. -/
theorem Hosts.ends (h : ws.Hosts (run :: runs)) (sound : ws'.Sound) (e : ws.Extends ws')
    {sys' : System} (hs' : ws'.system? run.system = some sys')
    (left : ∀ sys, ws.system? run.system = some sys → sys'.running = sys.running.leave)
    (others : ∀ t, t ≠ run.system → ws'.system? t = ws.system? t) : ws'.Hosts runs where
  sound := sound
  each r hr := (h.each r (by simp [hr])).extends e
  sites t other ht := by
    rw [sitesIn_eq (fun r hr => h.each r (List.mem_cons_of_mem run hr)) e]
    by_cases hts : t = run.system
    · subst hts
      rw [hs'] at ht
      cases ht
      obtain ⟨sys, hs, -⟩ := (h.each run (by simp)).home
      have sites := h.sites _ sys hs
      rw [sitesIn_cons, if_pos rfl] at sites
      rw [left sys hs, ScopeStack.leave, List.map_tail, sites, List.tail_cons]
    · rw [others t hts] at ht
      rw [h.sites t other ht, sitesIn_cons, if_neg (Ne.symm hts)]

theorem Move.hosts (h : ws.Hosts runs) (step : Move p ws runs ws' runs') : ws'.Hosts runs' := by
  have e := step.extends
  cases step with
  | call c => exact h.changes c
  | @port _ run runs ports given step allowed =>
      have same : run.ports.Same ports := step.same
      have after := h.changes step.changes
      refine ⟨after.sound, fun r hr => ?_, fun s sys hs => ?_⟩
      · rcases List.mem_cons.mp hr with rfl | hr
        · obtain ⟨home, x, hx, inputs, outputs, args, size⟩ := after.each run (by simp)
          unfold GeneratorRun.system GeneratorRun.target at home
          unfold GeneratorRun.target at hx
          rw [← same.system, ← same.target] at home
          rw [← same.target] at hx
          refine ⟨home, x, hx, same.inputs.trans inputs, same.outputs.trans outputs,
            same.args.trans args, ?_⟩
          exact same.size.trans (size.trans (congrArg List.length same.outputs.symm))
        · exact after.each r (by simp [hr])
      · rw [after.sites s sys hs, sitesIn_cons, sitesIn_cons]
        unfold GeneratorRun.system GeneratorRun.site GeneratorRun.clock? GeneratorRun.target
        rw [same.system, same.target, same.args]
  | @pop _ s sys m rest drained hs first =>
      refine ⟨h.pop hs first, fun r hr => (h.each r hr).extends e, fun t other ht => ?_⟩
      rw [sitesIn_eq h.each e]
      rw [system?_setSystem hs] at ht
      split at ht
      · rename_i hts
        cases ht
        exact hts ▸ h.sites s sys hs
      · exact h.sites t other ht
  | begins created opens => exact (h.changes created.any).opens opens
  | closes c =>
      have sound := h.closes c
      cases c with
      | intro hs P kind assigned operands =>
          refine h.ends sound e (system?_setSystem_self hs _) (fun sys hs' => ?_)
            fun t ht => system?_setSystem_ne _ ht
          rw [hs] at hs'
          cases hs'
          rfl
  | @unwinds _ run _ u =>
      have sound := h.unwinds u
      cases u with
      | @intro sys hs =>
          have there : (ws.releaseInstances (sys.instances.filter (ws.isInside run.symbol))).system?
              run.system = some sys := by
            rwa [system?_releaseInstances]
          refine h.ends sound e (system?_setSystem_self there _) (fun sys hs' => ?_) fun t ht => ?_
          · rw [hs] at hs'
            cases hs'
            rfl
          · rw [system?_setSystem_ne _ ht, system?_releaseInstances]

end Workspace

/-- What a move does to one system, and to the list of modules whose generators run in it. -/
inductive System.Tick (p : Permit) (s : SystemId) (sys : System) (targets : List ModuleId) :
    System → List ModuleId → Prop
  | keeps {sys' : System} (k : sys.Keeps p s sys') : Tick p s sys targets sys' targets
  | pop {m : ModuleId} {rest : List ModuleId} (drained : p.drained s)
      (first : sys.worklist = m :: rest) :
      Tick p s sys targets { sys with worklist := rest } targets
  | opened {mid : System} {m : ModuleId} {site : GeneratorSite} {op : ModuleOp}
      (args : List Value) (k : sys.Keeps (.creating s m) s mid)
      (running : mid.running = sys.running)
      (ops : ∀ q op, sys.design.findModule? q = some op → mid.design.findModule? q = some op)
      (idle : mid.isGenerated m = false) (hm : mid.symbolOf? m = some site.ip.owner)
      (only : ∀ n, mid.symbolOf? n = some site.ip.owner → n = m)
      (hop : mid.design.findModule? site.ip.owner = some op) (hk : op.kind = .real none) :
      Tick p s sys targets (mid.opened m site args) (m :: targets)
  | closed {m : ModuleId} {rest : List ModuleId} {scope : Scope GeneratorSite}
      {outer : List (Scope GeneratorSite)} {b : Block} {op : Operation}
      (last : targets = m :: rest) (P : sys.Pushes scope outer b op)
      (hm : sys.symbolOf? m = some scope.site.ip.owner) :
      Tick p s sys targets (sys.closed scope.site.ip.owner b op) rest
  | undone {m : ModuleId} {rest : List ModuleId} {scope : Scope GeneratorSite}
      {outer : List (Scope GeneratorSite)} (last : targets = m :: rest)
      (top : sys.running.scopes = scope :: outer)
      (hm : sys.symbolOf? m = some scope.site.ip.owner) (kept : List InstanceId) :
      Tick p s sys targets (sys.undone m scope.site.ip.owner kept) rest

namespace Workspace

variable {ws ws' : Workspace U} {s : SystemId} {runs runs' : List GeneratorRun} {p : Permit}

theorem Opens.tick_before (h : ws.Sound) {mid : Workspace U} {t : SystemId} {m : ModuleId}
    {sym : Ident} {run : GeneratorRun} {code : U.GeneratorCode}
    (created : Created ws t m sym mid) (opens : Opens mid t m run code ws') {sys' : System}
    (hs' : ws'.system? s = some sys') : ∃ sys, ws.Before s sys ∧
      sys.Tick p s (targetsIn s runs) sys' (targetsIn s (run :: runs)) := by
  have made : (Permit.creating t m).made t m := ⟨rfl, rfl⟩
  cases opens with
  | @intro mid x g op site hmid hx one idle hm hop hk =>
      rw [system?_setSystem hmid] at hs'
      rw [targetsIn_cons]
      change ∃ sys : System, _ ∧ sys.Tick p s _ sys'
        (if t = s then m :: targetsIn s runs else targetsIn s runs)
      split at hs'
      · rename_i hst
        subst hst
        cases hs'
        obtain ⟨sys, mid', hs, hmid', -, running, -⟩ := created.symbolOf?
        rw [hmid] at hmid'
        cases hmid'
        obtain ⟨mid', hmid', k⟩ := Changes.keeps_of_system? h (created.changes made) hs
        rw [hmid] at hmid'
        cases hmid'
        have sound := (Changes.sound h created.any).systems _ mid hmid
        rw [if_pos rfl]
        exact ⟨sys, .inl hs, .opened _ k running (fun _ _ => created.findModule? h hs hmid) idle hm
          (fun n hn => sound.injective n _ _ hn hm) hop hk⟩
      · rename_i hst
        obtain ⟨sys, before, k⟩ := Changes.keeps h (created.changes made) hs'
        rw [if_neg (Ne.symm hst)]
        refine ⟨sys, before, .keeps (System.Keeps.mono (fun n here => ?_) (fun n no => ?_) k)⟩
        · exact absurd here.1 hst
        · exact no.elim

theorem Hosts.tick_of_closes {run : GeneratorRun} (h : ws.Hosts (run :: runs))
    (c : Closes ws run ws') {sys' : System} (hs' : ws'.system? s = some sys') :
    ∃ sys, ws.system? s = some sys ∧
      sys.Tick p s (targetsIn s (run :: runs)) sys' (targetsIn s runs) := by
  obtain ⟨top, scope, outer, ht, sound, first, owner, hm⟩ := h.top
  rw [targetsIn_cons]
  cases c with
  | intro ht' P kind assigned operands =>
      rw [ht] at ht'
      cases ht'
      rw [system?_setSystem ht] at hs'
      obtain ⟨rfl, rfl⟩ := P.scope_eq first
      split at hs'
      · rename_i hst
        cases hs'
        exact ⟨top, hst ▸ ht, .closed (if_pos hst.symm) P (owner ▸ hm)⟩
      · rename_i hst
        rw [if_neg (Ne.symm hst)]
        exact ⟨sys', hs', .keeps (.refl p s sys')⟩

theorem Hosts.tick_of_unwinds {run : GeneratorRun} (h : ws.Hosts (run :: runs))
    (u : Unwinds ws run ws') {sys' : System} (hs' : ws'.system? s = some sys') :
    ∃ sys, ws.system? s = some sys ∧
      sys.Tick p s (targetsIn s (run :: runs)) sys' (targetsIn s runs) := by
  obtain ⟨top, scope, outer, ht, sound, first, owner, hm⟩ := h.top
  rw [targetsIn_cons]
  cases u with
  | @intro other ht' =>
      rw [ht] at ht'
      cases ht'
      rw [system?_setSystem (by rwa [system?_releaseInstances])] at hs'
      split at hs'
      · rename_i hst
        cases hs'
        rw [← owner]
        exact ⟨top, hst ▸ ht, .undone (if_pos hst.symm) first (owner ▸ hm) _⟩
      · rename_i hst
        rw [system?_releaseInstances] at hs'
        rw [if_neg (Ne.symm hst)]
        exact ⟨sys', hs', .keeps (.refl p s sys')⟩

/-- A move touches one system at most beyond what changes keep. -/
theorem Move.tick_before (h : ws.Hosts runs) (step : Move p ws runs ws' runs') {sys' : System}
    (hs' : ws'.system? s = some sys') : ∃ sys, ws.Before s sys ∧
      sys.Tick p s (targetsIn s runs) sys' (targetsIn s runs') := by
  cases step with
  | call c =>
      obtain ⟨sys, before, k⟩ := Changes.keeps h.sound c hs'
      exact ⟨sys, before, .keeps k⟩
  | @port _ run runs ports given step allowed =>
      have same : run.ports.Same ports := step.same
      obtain ⟨sys, before, k⟩ := Changes.keeps h.sound step.changes hs'
      have targets : targetsIn s ({ run with ports } :: runs) = targetsIn s (run :: runs) := by
        rw [targetsIn_cons, targetsIn_cons]
        unfold GeneratorRun.system GeneratorRun.target
        rw [same.system, same.target]
      rw [targets]
      exact ⟨sys, before, .keeps k⟩
  | @pop _ t other m rest drained ht first =>
      rw [system?_setSystem ht] at hs'
      split at hs'
      · rename_i hst
        cases hs'
        exact ⟨other, .inl (hst ▸ ht), .pop (hst ▸ drained) first⟩
      · exact ⟨sys', .inl hs', .keeps (.refl p s sys')⟩
  | begins created opens => exact opens.tick_before h.sound created hs'
  | closes c =>
      obtain ⟨sys, hs, tick⟩ := h.tick_of_closes c hs'
      exact ⟨sys, .inl hs, tick⟩
  | unwinds u =>
      obtain ⟨sys, hs, tick⟩ := h.tick_of_unwinds u hs'
      exact ⟨sys, .inl hs, tick⟩

theorem Move.tick (h : ws.Hosts runs) (step : Move p ws runs ws' runs') {sys : System}
    (hs : ws.system? s = some sys) : ∃ sys', ws'.system? s = some sys' ∧
      sys.Tick p s (targetsIn s runs) sys' (targetsIn s runs') := by
  obtain ⟨sys', hs', -⟩ := step.extends.systems s sys hs
  obtain ⟨old, before, tick⟩ := step.tick_before h hs'
  rcases before with there | ⟨gone, -⟩
  · rw [hs] at there
    cases there
    exact ⟨sys', hs', tick⟩
  · rw [hs] at gone
    cases gone

end Workspace

namespace System

variable {sys sys' : System} {s : SystemId} {m : ModuleId} {targets targets' : List ModuleId}
  {p : Permit}

/-- A module is marked in no other way than by the start of its generator. -/
theorem Tick.starts (t : sys.Tick p s targets sys' targets') (idle : sys.isGenerated m = false)
    (gen : sys'.isGenerated m = true) : targets' = m :: targets := by
  cases t with
  | keeps k =>
      rw [k.isGenerated, idle] at gen
      cases gen
  | pop drained first =>
      change sys.isGenerated m = true at gen
      rw [idle] at gen
      cases gen
  | opened args k running ops free hm only hop hk =>
      rw [isGenerated_opened, k.isGenerated, idle, Bool.false_or] at gen
      rw [of_decide_eq_true gen]
  | closed last P hm =>
      change sys.isGenerated m = true at gen
      rw [idle] at gen
      cases gen
  | undone last top hm kept =>
      rw [isGenerated_undone, idle, Bool.false_and] at gen
      cases gen

/-- Where one more generator runs, it has just started, on a system that has at most made the
operation of its module. -/
theorem Tick.opened_of_cons (t : sys.Tick p s targets sys' (m :: targets)) :
    ∃ mid site args op, sys.Keeps (.creating s m) s mid ∧ mid.running = sys.running ∧
      (∀ q op, sys.design.findModule? q = some op → mid.design.findModule? q = some op) ∧
      mid.isGenerated m = false ∧ mid.symbolOf? m = some site.ip.owner ∧
      (∀ n, mid.symbolOf? n = some site.ip.owner → n = m) ∧
      mid.design.findModule? site.ip.owner = some op ∧ op.kind = .real none ∧
      sys' = mid.opened m site args := by
  generalize began : m :: targets = targets' at t
  cases t with
  | keeps k => exact absurd began (List.cons_ne_self _ _)
  | pop drained first => exact absurd began (List.cons_ne_self _ _)
  | @opened mid n site op args k running ops idle hm only hop hk =>
      cases began
      exact ⟨mid, site, args, op, k, running, ops, idle, hm, only, hop, hk, rfl⟩
  | closed last P hm =>
      have size := congrArg List.length last
      rw [← began] at size
      simp only [List.length_cons] at size
      omega
  | undone last top hm kept =>
      have size := congrArg List.length last
      rw [← began] at size
      simp only [List.length_cons] at size
      omega

/-- The mark of a module is taken away in no other way than by the end of its generator. -/
theorem Tick.stays (t : sys.Tick p s targets sys' targets') (gen : sys.isGenerated m = true)
    (ended : m ∉ targets) : sys'.isGenerated m = true ∧ m ∉ targets' := by
  cases t with
  | keeps k => exact ⟨(k.isGenerated m).trans gen, ended⟩
  | pop drained first => exact ⟨gen, ended⟩
  | @opened mid n site op args k running ops idle hm only hop hk =>
      have gen' := (k.isGenerated m).trans gen
      refine ⟨by simp [gen'], fun mem => ?_⟩
      rcases List.mem_cons.mp mem with rfl | mem
      · rw [gen'] at idle
        cases idle
      · exact ended mem
  | closed last P hm =>
      rw [last] at ended
      exact ⟨gen, fun mem => ended (List.mem_cons_of_mem _ mem)⟩
  | undone last top hm kept =>
      rw [last, List.mem_cons, not_or] at ended
      exact ⟨by simp [gen, ended.1], ended.2⟩

/-- So the generator whose end takes the mark away is the innermost one. -/
theorem Tick.ends (t : sys.Tick p s targets sys' targets') (gen : sys.isGenerated m = true)
    (idle : sys'.isGenerated m = false) : targets = m :: targets' := by
  cases t with
  | keeps k =>
      rw [k.isGenerated, gen] at idle
      cases idle
  | pop drained first =>
      change sys.isGenerated m = false at idle
      rw [gen] at idle
      cases idle
  | opened args k running ops free hm only hop hk =>
      rw [isGenerated_opened, k.isGenerated, gen] at idle
      cases idle
  | closed last P hm =>
      change sys.isGenerated m = false at idle
      rw [gen] at idle
      cases idle
  | @undone n rest scope outer last top hm kept =>
      rw [isGenerated_undone, gen, Bool.true_and, decide_eq_false_iff_not, not_not] at idle
      rw [last, idle]

/-- A module gets its operation where the permit says so, or where its generator starts. -/
theorem Tick.made (t : sys.Tick p s targets sys' targets') {sym : Ident}
    (hm : sys'.symbolOf? m = some sym) :
    sys.symbolOf? m = some sym ∨ p.made s m ∨ targets' = m :: targets := by
  cases t with
  | keeps k => exact (k.made m sym hm).imp_right .inl
  | pop drained first => exact .inl hm
  | opened args k running ops free hm' only hop hk =>
      exact (k.made m sym hm).imp_right fun made => .inr (by rw [made.2])
  | closed last P hm' => exact .inl hm
  | undone last top hm' kept => exact .inl hm

theorem Tick.queued (t : sys.Tick p s targets sys' targets') (hm : m ∈ sys'.worklist) :
    m ∈ sys.worklist ∨ p.queued s m := by
  cases t with
  | keeps k => exact k.queued m hm
  | pop drained first => exact .inl (first ▸ List.mem_cons_of_mem _ hm)
  | opened args k running ops free hm' only hop hk =>
      exact (k.queued m hm).imp_right False.elim
  | closed last P hm' => exact .inl hm
  | undone last top hm' kept => exact .inl hm

theorem Tick.waits (t : sys.Tick p s targets sys' targets') (hm : m ∈ sys.worklist) :
    m ∈ sys'.worklist ∨ p.drained s := by
  cases t with
  | keeps k => exact .inl (k.waits m hm)
  | pop drained first => exact .inr drained
  | opened args k running ops free hm' only hop hk => exact .inl (k.waits m hm)
  | closed last P hm' => exact .inl hm
  | undone last top hm' kept => exact .inl hm

end System

end Hardware
