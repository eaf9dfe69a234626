import Hardware.Proofs.FirstFree
import Hardware.Proofs.Naming
import Hardware.Proofs.Rollback
import Hardware.Proofs.Worklist

/-!
The names in the body of one module. While its generator runs, the names in the body were all
granted by one supply, that of the scope of the generator, which was empty when the generator began.
Only what this generator asks for itself reaches the supply: a nested generator has a scope of its
own, and so has the next attempt after a failure.
-/
namespace Hardware

variable {U : UserCode} {ρ : Type}

/-- The names of the instances in a body and, while its generator runs, the supply of its scope. -/
structure Naming where
  names : List Ident
  supply : Option NameSupply

namespace Naming

variable {asks : Ident → Prop} {idle : Prop} {n n' : Naming} {name : Ident}

/-- What one step does to the names in a body. `asks` tells for which names the generator asks in
it, `idle` if it can begin. -/
inductive Step (asks : Ident → Prop) (idle : Prop) : Naming → Naming → Prop
  | stays (silent : ∀ base, ¬ asks base) (n : Naming) : Step asks idle n n
  | grants {base : Ident} (asked : asks base) (names : List Ident) (supply : NameSupply)
      {built : List Ident} (placed : built = [] ∨ built = [(supply.uniquify base).1]) :
      Step asks idle ⟨names, some supply⟩ ⟨names ++ built, some (supply.uniquify base).2⟩
  | begins (new : idle) (n : Naming) : Step asks idle n ⟨[], some {}⟩
  | ends (silent : ∀ base, ¬ asks base) (names : List Ident) (supply : Option NameSupply) :
      Step asks idle ⟨names, supply⟩ ⟨names, none⟩
  | undone (silent : ∀ base, ¬ asks base) (n : Naming) : Step asks idle n ⟨[], none⟩

/-- All names in the body differ, and the supply, if there is one, does not grant them again. -/
structure Apart (n : Naming) : Prop where
  nodup : n.names.Nodup
  issued : ∀ supply ∈ n.supply, ∀ name ∈ n.names, name ∈ supply.issued

/-- The body has no instance of this name, and does not get one from the supply. -/
structure Free (name : Ident) (n : Naming) : Prop where
  absent : name ∉ n.names
  issued : ∀ supply ∈ n.supply, name ∈ supply.issued

theorem Apart.empty (supply : Option NameSupply) : Apart ⟨[], supply⟩ :=
  ⟨List.nodup_nil, fun _ _ _ none => absurd none List.not_mem_nil⟩

theorem Apart.step (h : n.Apart) (step : Step asks idle n n') : n'.Apart := by
  cases step with
  | stays silent => exact h
  | @grants base asked names supply built placed =>
      have taken := h.issued supply rfl
      rcases placed with rfl | rfl
      · rw [List.append_nil]
        refine ⟨h.nodup, ?_⟩
        rintro _ ⟨⟩ name mem
        rw [supply.issued_uniquify]
        exact List.mem_cons_of_mem _ (taken name mem)
      · refine ⟨?_, ?_⟩
        · refine List.nodup_append.mpr ⟨h.nodup, List.nodup_singleton _, ?_⟩
          rintro name mem _ new rfl
          rw [List.mem_singleton.mp new] at mem
          exact supply.uniquify_not_mem base (taken _ mem)
        · rintro _ ⟨⟩ name mem
          rw [supply.issued_uniquify]
          rcases List.mem_append.mp mem with old | new
          · exact List.mem_cons_of_mem _ (taken name old)
          · exact List.mem_singleton.mp new ▸ List.mem_cons_self
  | begins => exact .empty _
  | ends silent names supply => exact ⟨h.nodup, nofun⟩
  | undone => exact .empty none

/-- As long as the generator does not begin anew, a free name stays free. -/
theorem Free.step (h : n.Free name) (step : Step asks idle n n') (begun : ¬ idle) :
    n'.Free name := by
  cases step with
  | stays silent => exact h
  | @grants base asked names supply built placed =>
      have taken := h.issued supply rfl
      refine ⟨fun mem => ?_, ?_⟩
      · rcases List.mem_append.mp mem with old | new
        · exact h.absent old
        · rcases placed with rfl | rfl
          · cases new
          · rw [List.mem_singleton.mp new] at taken
            exact supply.uniquify_not_mem base taken
      · rintro _ ⟨⟩
        rw [supply.issued_uniquify]
        exact List.mem_cons_of_mem _ taken
  | begins new => exact absurd new begun
  | ends silent names supply => exact ⟨h.absent, nofun⟩
  | undone silent => exact ⟨List.not_mem_nil, nofun⟩

end Naming

/-- The supply of a generator that has asked for names for `bases`, in this order. -/
def NameSupply.askedFor (bases : List Ident) : NameSupply :=
  (({} : NameSupply).supplied (bases.map .uniquify)).2

theorem NameRequest.serveAll_append {σ : Type} (grant : σ → Ident → Ident × σ)
    (keep : σ → List Ident → σ) (s : σ) (requests more : List NameRequest) :
    (serveAll grant keep s (requests ++ more)).2 =
      (serveAll grant keep (serveAll grant keep s requests).2 more).2 := by
  induction requests generalizing s with
  | nil => rfl
  | cons request requests ih => cases request <;> exact ih _

theorem NameSupply.askedFor_append (bases : List Ident) (base : Ident) :
    askedFor (bases ++ [base]) = ((askedFor bases).uniquify base).2 := by
  unfold askedFor supplied
  rw [List.map_append, NameRequest.serveAll_append]
  rfl

/-- The supply of a running generator that has asked for `bases`. -/
def Naming.Supplied (bases : List Ident) (n : Naming) : Prop :=
  ∀ supply ∈ n.supply, supply = NameSupply.askedFor bases

theorem Naming.Supplied.stays {asks : Ident → Prop} {idle : Prop} {n n' : Naming}
    {bases : List Ident} (h : n.Supplied bases) (step : Step asks idle n n') (begun : ¬ idle)
    (silent : ∀ base, ¬ asks base) : n'.Supplied bases := by
  cases step with
  | stays => exact h
  | grants asked => exact absurd asked (silent _)
  | begins new => exact absurd new begun
  | ends => exact nofun
  | undone => exact nofun

theorem Naming.Supplied.grants {asks : Ident → Prop} {idle : Prop} {n n' : Naming}
    {bases : List Ident} {base : Ident} (h : n.Supplied bases) (step : Step asks idle n n')
    (begun : ¬ idle) (asked : asks base) (one : ∀ other, asks other → other = base) :
    n'.Supplied (bases ++ [base]) ∧
      (n'.names = n.names ∨
        n'.names = n.names ++ [((NameSupply.askedFor bases).uniquify base).1]) := by
  cases step with
  | stays silent => exact absurd asked (silent base)
  | @grants other asked' names supply built placed =>
      obtain rfl := one other asked'
      obtain rfl := h supply rfl
      refine ⟨?_, ?_⟩
      · rintro _ ⟨⟩
        exact (NameSupply.askedFor_append bases other).symm
      · exact placed.imp (fun none => by rw [none, List.append_nil]) fun new => by rw [new]
  | begins new => exact absurd new begun
  | ends silent => exact absurd asked (silent base)
  | undone silent => exact absurd asked (silent base)

namespace System

variable {sys sys' : System} {q : Ident} {op : ModuleOp} {scope : Scope GeneratorSite}
  {outer : List (Scope GeneratorSite)} {base : Ident}

/-- The names in the body of `q`. -/
def naming (sys : System) (q : Ident) : Naming where
  names := sys.design.instanceNames q
  supply := (sys.running.scopes.find? fun c => c.site.ip.owner = q).map Scope.names

theorem Quiet.naming (h : sys.Quiet sys') (found : sys.design.findModule? q = some op) :
    sys'.naming q = sys.naming q := by
  unfold System.naming
  rw [h.names q op found, h.running]

theorem Grants.naming_ne (g : sys.Grants scope outer base sys')
    (found : sys.design.findModule? q = some op) (other : q ≠ scope.site.ip.owner) :
    sys'.naming q = sys.naming q := by
  unfold System.naming
  rw [g.others q op found other, g.scopes, g.top]
  simp [Ne.symm other]

theorem Grants.naming_self (g : sys.Grants scope outer base sys') :
    ∃ built, (built = [] ∨ built = [(scope.names.uniquify base).1]) ∧
      sys.naming scope.site.ip.owner =
        ⟨sys.design.instanceNames scope.site.ip.owner, some scope.names⟩ ∧
      sys'.naming scope.site.ip.owner =
        ⟨sys.design.instanceNames scope.site.ip.owner ++ built,
          some (scope.names.uniquify base).2⟩ := by
  have before : sys.naming scope.site.ip.owner =
      ⟨sys.design.instanceNames scope.site.ip.owner, some scope.names⟩ := by
    unfold System.naming
    rw [g.top]
    simp
  have after : sys'.naming scope.site.ip.owner =
      ⟨sys'.design.instanceNames scope.site.ip.owner, some (scope.names.uniquify base).2⟩ := by
    unfold System.naming
    rw [g.scopes]
    simp
  rw [after]
  rcases g.own with same | new
  · exact ⟨[], .inl rfl, before, by rw [same, List.append_nil]⟩
  · exact ⟨_, .inr rfl, before, by rw [new]⟩

theorem naming_opened (sys : System) (m : ModuleId) (site : GeneratorSite) (args : List Value)
    (q : Ident) : (sys.opened m site args).naming q =
      if q = site.ip.owner then ⟨[], some {}⟩ else sys.naming q := by
  have names : (sys.design.setBody site.ip.owner (some { args })).instanceNames q =
      if q = site.ip.owner then [] else sys.design.instanceNames q :=
    Design.instanceNames_setBody (by rintro b ⟨⟩; rfl) q
  unfold System.naming opened ScopeStack.enter
  dsimp only
  rw [names]
  split
  · rename_i same
    simp [same]
  · rename_i other
    simp [Ne.symm other]

theorem find?_tail (nodup : sys.owners.Nodup) (top : sys.running.scopes = scope :: outer)
    (q : Ident) : (sys.running.leave.scopes.find? fun c => c.site.ip.owner = q) =
      if q = scope.site.ip.owner then none
      else sys.running.scopes.find? fun c => c.site.ip.owner = q := by
  unfold ScopeStack.leave
  rw [top, List.tail_cons]
  split
  · rename_i same
    rw [owners, top, List.map_cons, List.nodup_cons] at nodup
    refine List.find?_eq_none.mpr fun c hc owner => nodup.1 (List.mem_map.mpr ⟨c, hc, ?_⟩)
    rw [← same]
    exact of_decide_eq_true owner
  · rename_i other
    simp [Ne.symm other]

theorem naming_closed {b : Block} {o : Operation} (nodup : sys.owners.Nodup)
    (P : sys.Pushes scope outer b o) (plain : o.instanceName? = none) (q : Ident) :
    (sys.closed scope.site.ip.owner b o).naming q =
      if q = scope.site.ip.owner then ⟨sys.design.instanceNames q, none⟩ else sys.naming q := by
  have names := Design.instanceNames_push P.body o q
  rw [plain, Option.toList_none, List.append_nil, ite_self] at names
  unfold System.naming closed System.push
  dsimp only
  rw [names, find?_tail nodup P.top]
  split <;> rfl

theorem naming_undone (nodup : sys.owners.Nodup) (top : sys.running.scopes = scope :: outer)
    (m : ModuleId) (kept : List InstanceId) (q : Ident) :
    (sys.undone m scope.site.ip.owner kept).naming q =
      if q = scope.site.ip.owner then ⟨[], none⟩ else sys.naming q := by
  have names : (sys.design.setBody scope.site.ip.owner none).instanceNames q =
      if q = scope.site.ip.owner then [] else sys.design.instanceNames q :=
    Design.instanceNames_setBody (by nofun) q
  unfold System.naming undone
  dsimp only
  rw [names, find?_tail nodup top]
  split <;> rfl

end System

namespace Workspace

variable {ws ws' : Workspace U} {s : SystemId} {m : ModuleId} {runs : List GeneratorRun}
  {sys : System} {q : Ident}

theorem Hosts.head?_owners (h : ws.Hosts runs) (hs : ws.system? s = some sys)
    (hm : sys.symbolOf? m = some q) :
    sys.owners.head? = some q ↔ (targetsIn s runs).head? = some m := by
  have owners : sys.owners = (runsIn s runs).map GeneratorRun.symbol := h.owners s sys hs
  have targets : targetsIn s runs = (runsIn s runs).map GeneratorRun.target := rfl
  rw [owners, targets, List.head?_map, List.head?_map]
  cases first : runsIn s runs with
  | nil => simp
  | cons run rest =>
      obtain ⟨mem, here⟩ := mem_runsIn.mp (first ▸ List.mem_cons_self)
      obtain ⟨sys', hs', known⟩ := (h.each run mem).home
      rw [here, hs] at hs'
      cases hs'
      simp only [List.head?_cons, Option.map_some, Option.some.injEq]
      constructor
      · rintro rfl
        exact (h.sound.systems s sys hs).injective _ _ _ known hm
      · rintro rfl
        rw [known] at hm
        exact Option.some.inj hm

end Workspace

namespace Machine

open Effect Workspace

variable {P : Program U} {M : Machine U ρ} {s : SystemId} {m : ModuleId} {sys : System}
  {q base : Ident}

/-- The generator of `m` is the innermost of those that run in `s`. -/
def Innermost (s : SystemId) (m : ModuleId) (M : Machine U ρ) : Prop :=
  (targetsIn s M.control.activations).head? = some m

/-- In the next step the generator of `m` asks `s` for a name made from `base`: it calls for a
symbol, or instantiates a module. -/
def Asks (s : SystemId) (m : ModuleId) (base : Ident) (M : Machine U ρ) : Prop :=
  Innermost s m M ∧ ∃ c, M.control.call? = some c ∧ c.Asks M.workspace s base

theorem Asks.unique {other : Ident} (h : Asks s m base M) (h' : Asks s m other M) :
    other = base := by
  obtain ⟨-, c, calls, asks⟩ := h
  obtain ⟨-, c', calls', asks'⟩ := h'
  rw [calls] at calls'
  cases calls'
  exact asks'.unique asks

theorem not_asks (silent : M.control.call? = none) : ¬ Asks s m base M := by
  rintro ⟨-, c, calls, -⟩
  rw [silent] at calls
  cases calls

/-- What a step does to the names in one body. -/
abbrev NamingStep (s : SystemId) (m : ModuleId) (q : Ident) (sys : System) (M : Machine U ρ)
    (sys' : System) : Prop :=
  Naming.Step (fun base => Asks s m base M) (sys.isGenerated m = false) (sys.naming q)
    (sys'.naming q)

/-- A step that makes no call and neither starts nor ends a generator is quiet. -/
theorem step_quiet (P : Program U) (M : Machine U ρ) (silent : M.control.call? = none)
    (unstarted : ∀ t n below, M.control ≠ .entering (.generateModule t n) below)
    (unended : ∀ run result below, M.control ≠ .generator run (.done result) below) :
    M.workspace.Quiet s (step P M).workspace := by
  have acts := step_acts P M
  generalize (step P M).workspace = ws at acts
  cases acts with
  | call calls =>
      rw [silent] at calls
      cases calls
  | @port run c next below asks =>
      exact Ends.outcome (S := fun st : PortState U => M.workspace.Quiet s st.2)
        (Ports.maintains_perform quiet_buildConstant c (run.ports, M.workspace) (.refl s _))
  | @generated run result below last => exact absurd last (unended run result below)
  | @produced run result below last =>
      exact .of_works ((leaves_works_endProduction run result).outcome M.workspace)
  | @drains t below entering => exact .of_works (nextWaiting_works M.workspace t below)
  | @begins t n below entering => exact absurd entering (unstarted t n below)
  | still => exact .refl s M.workspace

section Step

variable (h : Reachable P M) (hs : M.workspace.system? s = some sys)
  (hm : sys.symbolOf? m = some q)
include h hs hm

theorem Reachable.naming_quiet (silent : M.control.call? = none) {ws' : Workspace U}
    (quiet : M.workspace.Quiet s ws') :
    ∃ sys', ws'.system? s = some sys' ∧ NamingStep s m q sys M sys' := by
  obtain ⟨x, op, -, found, -⟩ := (h.hosts.sound.systems s sys hs).present m q hm
  obtain ⟨sys', hs', quiet⟩ := quiet sys hs
  refine ⟨sys', hs', ?_⟩
  unfold NamingStep
  rw [quiet.naming found]
  exact .stays (fun _ => not_asks silent) _

theorem Reachable.naming_call {c : Call U} (calls : M.control.call? = some c) :
    ∃ sys', (Machine.step P M).workspace.system? s = some sys' ∧
      NamingStep s m q sys M sys' := by
  have hosts := h.hosts
  obtain ⟨x, op, -, found, -⟩ := (hosts.sound.systems s sys hs).present m q hm
  obtain ⟨sys', hs', renames⟩ := c.perform_renames hosts.sound hs
  rw [(step_call (P := P) calls).1]
  refine ⟨sys', hs', ?_⟩
  unfold NamingStep
  rcases renames with ⟨silent, quiet⟩ | ⟨base, scope, outer, asks, g⟩
  · rw [quiet.naming found]
    refine .stays ?_ _
    rintro base ⟨-, c', calls', asks⟩
    rw [calls] at calls'
    cases calls'
    exact silent base asks
  · have inner : Innermost s m M ↔ q = scope.site.ip.owner := by
      unfold Innermost
      rw [← hosts.head?_owners hs hm, System.owners, g.top, List.map_cons, List.head?_cons,
        Option.some.injEq, eq_comm]
    by_cases own : q = scope.site.ip.owner
    · have asked : Asks s m base M := ⟨inner.mpr own, c, calls, asks⟩
      obtain ⟨built, placed, before, after⟩ := g.naming_self
      rw [own, before, after]
      exact .grants asked _ _ placed
    · rw [g.naming_ne found own]
      exact .stays (fun _ asked => own (inner.mp asked.1)) _

theorem Reachable.naming_begins {t : SystemId} {n : ModuleId} {below : Stack U ρ .generation}
    (entering : M.control = .entering (.generateModule t n) below) :
    ∃ sys', (Machine.step P M).workspace.system? s = some sys' ∧
      NamingStep s m q sys M sys' := by
  have sound := h.hosts.sound
  have silent : M.control.call? = none := by
    rw [entering]
    rfl
  have quiet (ws' : Workspace U) (same : M.workspace.Quiet s ws') :=
    h.naming_quiet hs hm silent same
  obtain ⟨ws, control⟩ := M
  cases entering
  have entered : Machine.step P ⟨ws, .entering (.generateModule t n) below⟩ =
      start P ws (.generateModule t n) below := rfl
  rw [entered]
  have ends := beginGeneration_ends sound t n
  cases hb : beginGeneration t n ws with
  | error e ws' =>
      rw [start_refused hb, (ends.of_error hb).1]
      exact quiet ws (.refl s ws)
  | ok r ws' =>
      obtain ⟨run, code⟩ := r
      obtain ⟨sym, mid, created, opens⟩ := ends.of_ok hb
      rw [start_begins hb]
      have midSound := Changes.sound sound created.any
      obtain ⟨x, op, -, found, -⟩ := (sound.systems s sys hs).present m q hm
      obtain ⟨sys₁, hs₁, quiet₁⟩ := created.quiet (s := s) sound sys hs
      cases opens with
      | @intro opened x' g op' site ht hx one idle hn hop hk =>
          by_cases here : s = t
          · subst here
            rw [hs₁] at ht
            cases ht
            obtain ⟨old, new, hold, hnew, -, -, generated⟩ := created.symbolOf?
            rw [hs] at hold
            rw [hs₁] at hnew
            cases hold
            cases hnew
            obtain ⟨sys₂, hs₂, -, symbols⟩ := (Changes.extends created.any).systems s sys hs
            rw [hs₁] at hs₂
            cases hs₂
            refine ⟨_, system?_setSystem_self hs₁ _, ?_⟩
            unfold NamingStep
            rw [System.naming_opened, quiet₁.naming found]
            split
            · rename_i own
              have same : m = n := by
                refine (midSound.systems s sys₁ hs₁).injective m n q (symbols m q hm) ?_
                rw [hn, own]
              subst same
              refine .begins ?_ _
              rwa [System.isGenerated, generated] at idle
            · exact .stays (fun _ => not_asks silent) _
          · refine ⟨sys₁, (system?_setSystem_ne _ here).trans hs₁, ?_⟩
            unfold NamingStep
            rw [quiet₁.naming found]
            exact .stays (fun _ => not_asks silent) _

theorem Reachable.naming_ends {run : GeneratorRun} {result : GeneratorResult}
    {below : Stack U ρ .generation} (last : M.control = .generator run (.done result) below) :
    ∃ sys', (Machine.step P M).workspace.system? s = some sys' ∧
      NamingStep s m q sys M sys' := by
  have sound := h.hosts.sound.systems s sys hs
  have silent : ∀ base, ¬ Asks s m base M := fun _ => not_asks (by rw [last]; rfl)
  have stays {sys' : System} (same : sys' = sys) : NamingStep s m q sys M sys' := by
    subst same
    exact .stays silent _
  rcases h.ends last with ⟨closes, -⟩ | ⟨unwinds, -⟩
  · generalize (Machine.step P M).workspace = ws' at closes
    cases closes with
    | @intro old scope outer b op hold pushes kind =>
        by_cases here : s = run.system
        · rw [← here, hs] at hold
          cases hold
          rw [← here]
          refine ⟨_, system?_setSystem_self hs _, ?_⟩
          have plain : op.instanceName? = none := by
            unfold Operation.instanceName?
            rw [kind]
          unfold NamingStep
          rw [System.naming_closed sound.nodup pushes plain]
          split
          · exact .ends silent _ _
          · exact .stays silent _
        · exact ⟨sys, (system?_setSystem_ne _ here).trans hs, stays rfl⟩
  · obtain ⟨old, scope, outer, hold, -, top, owner, -⟩ := Hosts.top (last ▸ h.hosts)
    generalize (Machine.step P M).workspace = ws' at unwinds
    cases unwinds with
    | @intro old' hold' =>
        rw [hold] at hold'
        cases hold'
        have released : (M.workspace.releaseInstances
            (old.instances.filter (M.workspace.isInside run.symbol))).system? s = some sys := by
          rwa [system?_releaseInstances]
        by_cases here : s = run.system
        · rw [← here, hs] at hold
          cases hold
          rw [← here]
          refine ⟨_, system?_setSystem_self released _, ?_⟩
          unfold NamingStep
          rw [← owner, System.naming_undone sound.nodup top]
          split
          · exact .undone silent _
          · exact .stays silent _
        · exact ⟨sys, (system?_setSystem_ne _ here).trans released, stays rfl⟩

/-- One step of the machine, seen from one body. -/
theorem Reachable.naming_step : ∃ sys', (Machine.step P M).workspace.system? s = some sys' ∧
    sys'.symbolOf? m = some q ∧ NamingStep s m q sys M sys' := by
  obtain ⟨sys', hs', -, symbols⟩ := h.move.extends.systems s sys hs
  have named : ∃ sys', (Machine.step P M).workspace.system? s = some sys' ∧
      NamingStep s m q sys M sys' := by
    cases calls : M.control.call? with
    | some c => exact h.naming_call hs hm calls
    | none =>
        by_cases entering : ∃ t n below, M.control = .entering (.generateModule t n) below
        · obtain ⟨t, n, below, entering⟩ := entering
          exact h.naming_begins hs hm entering
        · by_cases last : ∃ run result below, M.control = .generator run (.done result) below
          · obtain ⟨run, result, below, last⟩ := last
            exact h.naming_ends hs hm last
          · refine h.naming_quiet hs hm calls (step_quiet P M calls ?_ ?_)
            · exact fun t n below same => entering ⟨t, n, below, same⟩
            · exact fun run result below same => last ⟨run, result, below, same⟩
  obtain ⟨sys'', hs'', step⟩ := named
  rw [hs'] at hs''
  cases hs''
  exact ⟨sys', hs', symbols m q hm, step⟩

end Step

theorem Reachable.hasOp_of_generated (h : Reachable P M) (gen : Generated s m M) : HasOp s m M := by
  obtain ⟨sys, hs, gen⟩ := gen
  obtain ⟨x, sym, g, -, hm, -⟩ := (h.hosts.sound.systems s sys hs).generated m gen
  exact ⟨sys, sym, hs, hm⟩

theorem Reachable.no_names_of_new (h : Reachable P M) {sys' : System}
    (hs' : (Machine.step P M).workspace.system? s = some sys') (hm : sys'.symbolOf? m = some q)
    {x : Module U.GeneratorCode} (hx : (Machine.step P M).workspace.module? m = some x)
    (declared : x.isImported = false) (new : ¬ HasOp s m M) :
    sys'.design.instanceNames q = [] := by
  obtain ⟨y, op, hy, found, carries⟩ := (h.step.hosts.sound.systems s sys' hs').present m q hm
  rw [hx] at hy
  cases hy
  have carries := carries declared
  cases gen : x.schema.hasGenerator with
  | false =>
      refine Design.instanceNames_of_none ?_
      unfold Design.body?
      rw [found]
      exact ModuleOp.body?_of_isExternal (carries.external gen)
  | true =>
      obtain ⟨body, kind, stage⟩ := carries.stage gen
      cases marked : sys'.isGenerated m with
      | false =>
          cases stage with
          | idle => exact Design.instanceNames_of_none (Design.body?_of_kind found kind)
          | running yes => rw [marked] at yes; cases yes
          | complete yes => rw [marked] at yes; cases yes
      | true =>
          obtain ⟨sys, generated, -, -, tick⟩ := h.tick hs'
          have idle : sys.isGenerated m = false :=
            Bool.eq_false_iff.mpr fun gen => new (h.hasOp_of_generated (generated m gen))
          obtain ⟨run, began, rfl, rfl⟩ := h.move.started (tick.starts idle marked)
          obtain ⟨below, script, starts⟩ := starts_of_cons h.hosts.sound began
          obtain ⟨old, sys'', -, -, -, hs'', -, -, -, -, -, begun⟩ := h.begun starts
          rw [hs'] at hs''
          cases hs''
          obtain ⟨args, body⟩ := begun.body
          have same := begun.symbol
          rw [hm] at same
          rw [Option.some.inj same]
          exact Design.instanceNames_of_body body

/-- In the body of a declared module all instances go by different names. -/
theorem Reachable.apart (h : Reachable P M) (hs : M.workspace.system? s = some sys)
    (hm : sys.symbolOf? m = some q) {x : Module U.GeneratorCode}
    (hx : M.workspace.module? m = some x) (declared : x.isImported = false) :
    (sys.naming q).Apart := by
  induction h generalizing sys x with
  | initial state session => cases hs
  | @step M h ih =>
      by_cases old : HasOp s m M
      · obtain ⟨before, q', hbefore, hm'⟩ := old
        obtain ⟨after, hs', hm'', step⟩ := h.naming_step hbefore hm'
        rw [hs] at hs'
        cases hs'
        rw [hm] at hm''
        cases hm''
        obtain ⟨y, -, hy, -⟩ := (h.hosts.sound.systems s before hbefore).present m q hm'
        obtain ⟨x', hx', -, imported⟩ := h.move.extends.modules m y hy
        rw [hx] at hx'
        cases hx'
        exact (ih hbefore hm' hy (imported.symm.trans declared)).step step
      · have none := h.no_names_of_new hs hm hx declared old
        refine ⟨?_, fun supply _ name mem => ?_⟩
        · rw [System.naming, none]
          exact List.nodup_nil
        · rw [System.naming, none] at mem
          cases mem

/-- The names that the generator of `m` has asked for within `n` steps, in order. What is asked for
meanwhile by other generators of `s` is not among them. -/
inductive AskedFor (P : Program U) (s : SystemId) (m : ModuleId) (M : Machine U ρ) :
    Nat → List Ident → Prop
  | start : AskedFor P s m M 0 []
  | asks {n : Nat} {bases : List Ident} {base : Ident} (before : AskedFor P s m M n bases)
      (asks : Asks s m base ((step P)^[n] M)) : AskedFor P s m M (n + 1) (bases ++ [base])
  | silent {n : Nat} {bases : List Ident} (before : AskedFor P s m M n bases)
      (silent : ∀ base, ¬ Asks s m base ((step P)^[n] M)) : AskedFor P s m M (n + 1) bases

/-- Where the generator of `m` asks for a name in the next step, it is given `name`: as a symbol, or
as the name of the instance that is built, if one is. -/
structure Gives (P : Program U) (s : SystemId) (m : ModuleId) (name : Ident)
    (M : Machine U ρ) : Prop where
  symbol : ∀ base, M.control.call? = some (.uniquify s base) →
    (Call.uniquify s base).perform M.workspace = .ok name (step P M).workspace
  body : ∀ sys q, M.workspace.system? s = some sys → sys.symbolOf? m = some q →
    ∃ sys', (step P M).workspace.system? s = some sys' ∧
      (sys'.design.instanceNames q = sys.design.instanceNames q ∨
        sys'.design.instanceNames q = sys.design.instanceNames q ++ [name])
  inst : ∀ target r i ws', M.control.call? = some (.instantiate s target r) →
    (Call.instantiate s target r).perform M.workspace = .ok i ws' →
      ∃ inst, ws'.instance? i = some inst ∧ inst.name = name

section Gives

variable (h : Reachable P M) (hs : M.workspace.system? s = some sys)
  (hm : sys.symbolOf? m = some q) {bases : List Ident}
  (supplied : (sys.naming q).Supplied bases) (asks : Asks s m base M)
include h hs hm supplied asks

theorem Reachable.gives_symbol (calls : M.control.call? = some (.uniquify s base)) :
    (Call.uniquify s base).perform M.workspace =
      .ok ((NameSupply.askedFor bases).uniquify base).1 (Machine.step P M).workspace := by
  have inner := (h.hosts.head?_owners hs hm).mpr asks.1
  have renames := Call.uniquify_renames (U := U) hs base
  rw [(step_call (P := P) calls).1, outcome]
  cases hc : (Call.uniquify s base).perform M.workspace with
  | ok name ws' =>
      obtain ⟨sys', scope, outer, -, g, -, rfl⟩ := renames.of_ok hc
      obtain ⟨built, -, before, -⟩ := g.naming_self
      rw [System.owners, g.top] at inner
      rw [← Option.some.inj inner, before] at supplied
      rw [supplied scope.names rfl]
  | error e ws' =>
      obtain ⟨-, none⟩ := renames.of_error hc
      rw [System.owners, none] at inner
      cases inner

theorem Reachable.gives (gen : sys.isGenerated m = true) :
    Gives P s m ((NameSupply.askedFor bases).uniquify base).1 M := by
  obtain ⟨sys', hs', hm', step⟩ := h.naming_step hs hm
  have begun : sys.isGenerated m ≠ false := by
    rw [gen]
    nofun
  obtain ⟨-, names⟩ := supplied.grants step begun asks fun other => asks.unique
  refine ⟨fun other calls => ?_, fun before q' hbefore hq' => ?_, fun target r i ws' calls ok => ?_⟩
  · have same : other = base := by
      refine asks.unique ⟨asks.1, _, calls, .symbol other hs fun none => ?_⟩
      have inner := (h.hosts.head?_owners hs hm).mpr asks.1
      rw [System.owners, none] at inner
      cases inner
    subst same
    exact h.gives_symbol hs hm supplied asks calls
  · rw [hs] at hbefore
    cases hbefore
    rw [hm] at hq'
    cases hq'
    exact ⟨sys', hs', names⟩
  · obtain ⟨after, inst, owner, inner, hafter, hi, installed⟩ :=
      Call.instantiate_installs h.hosts.sound hs ok
    have own := (h.hosts.head?_owners hs hm).mpr asks.1
    rw [inner] at own
    cases own
    rw [(step_call (P := P) calls).1, outcome, ok] at hs'
    have same := hs'.symm.trans hafter
    cases same
    refine ⟨inst, hi, ?_⟩
    rcases names with same | given
    · have twice := installed.symm.trans same
      simp [System.naming] at twice
    · have both := installed.symm.trans given
      exact List.singleton_injective (List.append_cancel_left both)

end Gives

/-- How the names given to a generator go on from what it has asked for. -/
theorem Reachable.supplied_within (h : Reachable P M) (hs : M.workspace.system? s = some sys)
    (hm : sys.symbolOf? m = some q) (new : (sys.naming q).Supplied []) (n : Nat)
    (gen : ∀ k < n, Generated s m ((Machine.step P)^[k] M)) :
    ∃ bases now, AskedFor P s m M n bases ∧
      ((Machine.step P)^[n] M).workspace.system? s = some now ∧ now.symbolOf? m = some q ∧
        (now.naming q).Supplied bases := by
  induction n with
  | zero => exact ⟨[], sys, .start, hs, hm, new⟩
  | succ n ih =>
      obtain ⟨bases, now, asked, hnow, hm', supplied⟩ :=
        ih fun k lt => gen k (Nat.lt_succ_of_lt lt)
      obtain ⟨next, hnext, hm'', step⟩ := (h.iterate n).naming_step hnow hm'
      have begun : now.isGenerated m ≠ false := by
        obtain ⟨now', hnow', marked⟩ := gen n (Nat.lt_succ_self n)
        rw [hnow] at hnow'
        cases hnow'
        rw [marked]
        nofun
      by_cases silent : ∀ base, ¬ Asks s m base ((Machine.step P)^[n] M)
      · refine ⟨bases, next, .silent asked silent, ?_, hm'', supplied.stays step begun silent⟩
        rw [Function.iterate_succ_apply']
        exact hnext
      · rw [not_forall_not] at silent
        obtain ⟨base, asks⟩ := silent
        refine ⟨bases ++ [base], next, .asks asked asks, ?_, hm'', ?_⟩
        · rw [Function.iterate_succ_apply']
          exact hnext
        · exact (supplied.grants step begun asks fun other => asks.unique).1

theorem Reachable.free_within (h : Reachable P M) {name : Ident}
    (hs : M.workspace.system? s = some sys) (hm : sys.symbolOf? m = some q)
    (free : (sys.naming q).Free name) (n : Nat)
    (gen : ∀ k < n, Generated s m ((Machine.step P)^[k] M)) :
    ∃ now, ((Machine.step P)^[n] M).workspace.system? s = some now ∧
      now.symbolOf? m = some q ∧ (now.naming q).Free name := by
  induction n with
  | zero => exact ⟨sys, hs, hm, free⟩
  | succ n ih =>
      obtain ⟨now, hnow, hm', free⟩ := ih fun k lt => gen k (Nat.lt_succ_of_lt lt)
      obtain ⟨next, hnext, hm'', step⟩ := (h.iterate n).naming_step hnow hm'
      rw [Function.iterate_succ_apply']
      refine ⟨next, hnext, hm'', free.step step fun idle => ?_⟩
      obtain ⟨now', hnow', marked⟩ := gen n (Nat.lt_succ_self n)
      rw [hnow] at hnow'
      cases hnow'
      rw [marked] at idle
      cases idle

/-- A symbol that is handed out is the name of no instance before, and is free from then on. -/
theorem Reachable.free_of_uniquify (h : Reachable P M) (inner : Innermost s m M) {name : Ident}
    (calls : M.control.call? = some (.uniquify s base)) {ws' : Workspace U}
    (ok : (Call.uniquify s base).perform M.workspace = .ok name ws') :
    ∃ sys q sys', M.workspace.system? s = some sys ∧ sys.symbolOf? m = some q ∧
      name ∉ sys.design.instanceNames q ∧
      (Machine.step P M).workspace.system? s = some sys' ∧ sys'.symbolOf? m = some q ∧
      (sys'.naming q).Free name := by
  obtain ⟨run, mem, here, rfl⟩ := mem_targetsIn.mp (List.mem_of_mem_head? inner)
  obtain ⟨sys, hs, hm⟩ := (h.hosts.each run mem).home
  rw [here] at hs
  obtain ⟨x, -, -, hx, -, declared, -⟩ :=
    (h.hosts.sound.systems s sys hs).generated run.target
      (h.hosts.generated_of_mem mem (here ▸ hs))
  obtain ⟨sys', hs', hm', -⟩ := h.naming_step hs hm
  obtain ⟨sys'', scope, outer, hs'', g, design, rfl⟩ :=
    (Call.uniquify_renames (U := U) hs base).of_ok ok
  have after := (step_call (P := P) calls).1
  rw [outcome, ok] at after
  have same := (hs'.symm.trans (congrArg (Workspace.system? · s) after)).trans hs''
  cases same
  have own := (h.hosts.head?_owners hs hm).mpr inner
  rw [System.owners, g.top] at own
  have owner : scope.site.ip.owner = run.symbol := Option.some.inj own
  obtain ⟨built, -, before, now⟩ := g.naming_self
  rw [owner] at before now
  have taken := (h.apart hs hm hx declared).issued
  rw [before] at taken
  have absent : (scope.names.uniquify base).1 ∉ sys.design.instanceNames run.symbol :=
    fun old => scope.names.uniquify_not_mem base (taken _ rfl _ old)
  refine ⟨sys, run.symbol, sys', hs, hm, absent, hs', hm', ?_, ?_⟩
  · rw [System.naming, design]
    exact absent
  · rw [now]
    rintro _ ⟨⟩
    rw [scope.names.issued_uniquify]
    exact List.mem_cons_self

/-- The names of the instances in the body of a declared module differ. They differ, too, from every
symbol that the generator of the module was given while it was the innermost of its system, before
or after them, unless it has failed since. What a generator is given follows from what it has asked
for itself, in this order, since it began, as if there were no other supply of names. -/
theorem Reachable.instance_names_unique (h : Reachable P M) (s : SystemId) (m : ModuleId) :
    (∀ sys x q, M.workspace.system? s = some sys → M.workspace.module? m = some x →
      x.isImported = false → sys.symbolOf? m = some q → (sys.design.instanceNames q).Nodup) ∧
    (∀ base name ws', Innermost s m M → M.control.call? = some (.uniquify s base) →
      (Call.uniquify s base).perform M.workspace = .ok name ws' →
      ∀ n, (∀ k ≤ n, Generated s m ((Machine.step P)^[k] M)) → ∀ sys q,
        ((Machine.step P)^[n] M).workspace.system? s = some sys → sys.symbolOf? m = some q →
          name ∉ sys.design.instanceNames q) ∧
    ∀ below run script, Starts P s m below run script M →
      ∀ n, (∀ k ≤ n, Generated s m ((Machine.step P)^[k] (Machine.step P M))) →
        ∃ bases, AskedFor P s m (Machine.step P M) n bases ∧
          ∀ base, Asks s m base ((Machine.step P)^[n] (Machine.step P M)) →
            Gives P s m ((NameSupply.askedFor bases).uniquify base).1
              ((Machine.step P)^[n] (Machine.step P M)) := by
  refine ⟨fun sys x q hs hx declared hm => (h.apart hs hm hx declared).nodup, ?_, ?_⟩
  · intro base name ws' inner calls ok n gen now q hnow hm
    obtain ⟨sys, q', sys', hs, hsym, absent, hs', hm', free⟩ := h.free_of_uniquify inner calls ok
    cases n with
    | zero =>
        have same := hs.symm.trans hnow
        cases same
        rw [hsym] at hm
        cases hm
        exact absent
    | succ n =>
        obtain ⟨now', hnow', hq, still⟩ := h.step.free_within hs' hm' free n fun k lt => by
          rw [← Function.iterate_succ_apply]
          exact gen (k + 1) (Nat.succ_le_succ (Nat.le_of_lt lt))
        rw [← Function.iterate_succ_apply, hnow] at hnow'
        cases hnow'
        rw [hm] at hq
        cases hq
        exact still.absent
  · intro below run script starts n gen
    obtain ⟨old, sys, x, g, -, hs, -, -, -, -, -, begun⟩ := h.begun starts
    have new : (sys.naming run.symbol).Supplied [] := by
      obtain ⟨site, owner, scopes⟩ := begun.scope
      intro supply found
      rw [System.naming, scopes] at found
      simp only [List.find?_cons, owner, decide_true, Option.map_some, Option.mem_def,
        Option.some.injEq] at found
      exact found.symm
    obtain ⟨bases, now, asked, hnow, hm, supplied⟩ :=
      h.step.supplied_within hs begun.symbol new n fun k lt => gen k (Nat.le_of_lt lt)
    refine ⟨bases, asked, fun base asks => ?_⟩
    obtain ⟨now', hnow', marked⟩ := gen n (Nat.le_refl n)
    rw [hnow] at hnow'
    cases hnow'
    exact (h.step.iterate n).gives hnow hm supplied asks marked

end Machine

namespace Sample

/-- Asks for the symbol `Leaf`, and then instantiates `Leaf` twice. -/
def symbolFirst : Script code GeneratorResult :=
  .call (.uniquify ⟨0⟩ "Leaf") fun _ => instantiating fun _ => top

/-- The name from which the next step makes a symbol, and what it makes of it. -/
def symbol? (M : Machine code Unit) : Option (Ident × Option Ident) :=
  match M.control.call? with
  | some (.uniquify ⟨0⟩ base) =>
    match (Call.uniquify ⟨0⟩ base : Call code).perform M.workspace with
    | .ok name _ => some (base, some name)
    | .error _ _ => some (base, none)
  | _ => none

theorem uniquify_of_symbol? {M : Machine code Unit} {base name : Ident}
    (symbol : symbol? M = some (base, some name)) :
    M.control.call? = some (.uniquify ⟨0⟩ base) ∧
      ∃ ws', (Call.uniquify ⟨0⟩ base : Call code).perform M.workspace = .ok name ws' := by
  unfold symbol? at symbol
  split at symbol
  · rename_i base' calls
    split at symbol
    · rename_i name' ws' ok
      cases symbol
      exact ⟨calls, ws', ok⟩
    · cases symbol
  · cases symbol

/-- The names of the instances in the body of `Top`, if it is marked as generated. -/
def namesInTop (M : Machine code Unit) : Option (List Ident) :=
  (M.workspace.system? ⟨0⟩).bind fun sys =>
    if sys.isGenerated ⟨1⟩ && sys.symbolOf? ⟨1⟩ = some "Top" then
      some (sys.design.instanceNames "Top")
    else none

theorem generated_of_namesInTop {M : Machine code Unit} {names : List Ident}
    (found : namesInTop M = some names) : ∃ sys, M.workspace.system? ⟨0⟩ = some sys ∧
      sys.isGenerated ⟨1⟩ = true ∧ sys.symbolOf? ⟨1⟩ = some "Top" ∧
      sys.design.instanceNames "Top" = names := by
  obtain ⟨sys, hs, found⟩ := Option.bind_eq_some_iff.mp found
  split at found
  · rename_i both
    rw [Bool.and_eq_true, decide_eq_true_eq] at both
    exact ⟨sys, hs, both.1, both.2, Option.some.inj found⟩
  · cases found

/-- The machine in which the generator of `Top` is about to start. -/
def beforeSymbol : Machine code Unit := after (program symbolFirst) generating 6

/-- `Leaf` is handed out as a symbol, so the instances go by other names. -/
theorem instances_avoid_symbol : ∃ below run script sys,
    Machine.Starts (program symbolFirst) ⟨0⟩ ⟨1⟩ below run script beforeSymbol ∧
    Machine.Gives (program symbolFirst) ⟨0⟩ ⟨1⟩ "Leaf"
      (Machine.step (program symbolFirst) beforeSymbol) ∧
    ((Machine.step (program symbolFirst))^[4]
      (Machine.step (program symbolFirst) beforeSymbol)).workspace.system? ⟨0⟩ = some sys ∧
    sys.design.instanceNames "Top" = ["Leaf_1", "Leaf_2"] ∧
    (sys.design.instanceNames "Top").Nodup ∧ "Leaf" ∉ sys.design.instanceNames "Top" := by
  have reach : Machine.Reachable (program symbolFirst) beforeSymbol := reachable _ _ _
  have request : requested? beforeSymbol.control = some (⟨0⟩, ⟨1⟩) := by
    decide +kernel
  have idle : (beforeSymbol.workspace.system? ⟨0⟩).map (fun sys => sys.isGenerated ⟨1⟩) =
      some false := by
    decide +kernel
  have single : (beforeSymbol.workspace.module? ⟨1⟩).map
      (fun x => x.schema.generators.values.length) = some 1 := by
    decide +kernel
  have symbol : symbol? (Machine.step (program symbolFirst) beforeSymbol) =
      some ("Leaf", some "Leaf") := by
    decide +kernel
  have inner : Machine.Innermost ⟨0⟩ ⟨1⟩ (Machine.step (program symbolFirst) beforeSymbol) := by
    unfold Machine.Innermost
    decide +kernel
  have marked : ∀ k ≤ 4, (namesInTop ((Machine.step (program symbolFirst))^[k]
      (Machine.step (program symbolFirst) beforeSymbol))).isSome = true := by
    decide +kernel
  have names : namesInTop ((Machine.step (program symbolFirst))^[4]
      (Machine.step (program symbolFirst) beforeSymbol)) = some ["Leaf_1", "Leaf_2"] := by
    decide +kernel
  have declared : (((Machine.step (program symbolFirst))^[4] (Machine.step (program symbolFirst)
      beforeSymbol)).workspace.module? ⟨1⟩).map Module.isImported = some false := by
    decide +kernel
  -- From here on the machine is not to be evaluated any more.
  generalize beforeSymbol = M at *
  obtain ⟨below, entering⟩ := requested?_iff.mp request
  obtain ⟨old, hold, idle⟩ := Option.map_eq_some_iff.mp idle
  obtain ⟨x, hx, size⟩ := Option.map_eq_some_iff.mp single
  obtain ⟨g, one⟩ := List.length_eq_one_iff.mp size
  obtain ⟨run, starts⟩ := reach.starts_of_idle entering hold hx one idle
  have gen : ∀ k ≤ 4, Machine.Generated ⟨0⟩ ⟨1⟩ ((Machine.step (program symbolFirst))^[k]
      (Machine.step (program symbolFirst) M)) := by
    intro k le
    obtain ⟨names, found⟩ := Option.isSome_iff_exists.mp (marked k le)
    obtain ⟨sys, hs, gen, -⟩ := generated_of_namesInTop found
    exact ⟨sys, hs, gen⟩
  obtain ⟨calls, ws', ok⟩ := uniquify_of_symbol? symbol
  obtain ⟨sys, hs, -, hm, same⟩ := generated_of_namesInTop names
  obtain ⟨y, hy, declared⟩ := Option.map_eq_some_iff.mp declared
  obtain ⟨-, -, given⟩ := reach.instance_names_unique ⟨0⟩ ⟨1⟩
  obtain ⟨-, apart, -⟩ := reach.step.instance_names_unique ⟨0⟩ ⟨1⟩
  obtain ⟨distinct, -, -⟩ := (reach.step.iterate 4).instance_names_unique ⟨0⟩ ⟨1⟩
  obtain ⟨bases, asked, gives⟩ := given below run _ starts 0 fun k le =>
    gen k (Nat.le_trans le (Nat.zero_le 4))
  refine ⟨below, run, _, sys, starts, ?_, hs, same, distinct sys y "Top" hs hy declared hm,
    apart "Leaf" "Leaf" ws' inner calls ok 4 gen sys "Top" hs hm⟩
  obtain ⟨now, hnow, -⟩ := gen 0 (Nat.zero_le 4)
  have nested : now.running.scopes ≠ [] := by
    intro none
    obtain ⟨sys', scope, outer, -, g, -⟩ :=
      (Call.uniquify_renames (U := code) hnow "Leaf").of_ok ok
    have top := g.top
    rw [none] at top
    cases top
  cases asked with
  | start => exact gives "Leaf" ⟨inner, _, calls, .symbol "Leaf" hnow nested⟩

end Sample

end Hardware
