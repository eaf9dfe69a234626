import Hardware.Proofs.Activation

/-!
The scopes of the generators that run, as four stacks. The names granted, the insertion points, the
locations and the clocks are stacks of their own, and a generator that ends takes from the clocks
only if it had put one there. The one stack of scopes moves just as these four do, so they are
balanced: what has been entered since some point is on top of what was there at that point.
-/
namespace Hardware

variable {U : UserCode}

/-- What the scopes hold, as stacks of their own: the names granted, the insertion points, the
locations, and the clocks of those scopes that have one. -/
@[ext] structure ScopeStacks where
  contexts : List NameSupply
  points : List InsertionPoint
  locs : List Location
  clocks : List Signal

namespace ScopeStacks

variable {old s : ScopeStacks} {site : GeneratorSite} {sites : List GeneratorSite}

/-- Only a site with a clock adds to the clocks. -/
def enter (site : GeneratorSite) (s : ScopeStacks) : ScopeStacks where
  contexts := {} :: s.contexts
  points := site.ip :: s.points
  locs := site.loc :: s.locs
  clocks := site.clock.toList ++ s.clocks

/-- Leave a scope that was entered with a clock, or without. -/
def leave (clocked : Bool) (s : ScopeStacks) : ScopeStacks where
  contexts := s.contexts.tail
  points := s.points.tail
  locs := s.locs.tail
  clocks := if clocked then s.clocks.tail else s.clocks

/-- Replace the names that are granted in the innermost scope. -/
def grant (names : NameSupply) (s : ScopeStacks) : ScopeStacks :=
  { s with contexts := s.contexts.modifyHead fun _ => names }

/-- Who keeps in mind whether a clock was added gets the stacks of before back. -/
theorem leave_enter (site : GeneratorSite) (s : ScopeStacks) :
    (s.enter site).leave site.clock.isSome = s := by
  cases hc : site.clock <;> simp [enter, leave, hc]

theorem leave_grant (names : NameSupply) (s : ScopeStacks) (clocked : Bool) :
    (s.grant names).leave clocked = s.leave clocked := by
  simp [grant, leave]

theorem grant_grant (names names' : NameSupply) (s : ScopeStacks) :
    (s.grant names).grant names' = s.grant names' := by
  cases hc : s.contexts <;> simp [grant, hc]

/-- `s` is `old` with `sites` entered on top, from the innermost to the outermost, and with any
names granted there. -/
inductive Since (old : ScopeStacks) : List GeneratorSite → ScopeStacks → Prop
  | same : Since old [] old
  | entered {s : ScopeStacks} {sites : List GeneratorSite} (site : GeneratorSite)
      (names : NameSupply) (since : Since old sites s) :
      Since old (site :: sites) ((s.enter site).grant names)

theorem Since.enter (h : old.Since sites s) (site : GeneratorSite) :
    old.Since (site :: sites) (s.enter site) := .entered site {} h

theorem Since.leave (h : old.Since (site :: sites) s) :
    old.Since sites (s.leave site.clock.isSome) := by
  cases h with
  | entered _ names since => rwa [leave_grant, leave_enter]

theorem Since.grant (h : old.Since (site :: sites) s) (names : NameSupply) :
    old.Since (site :: sites) (s.grant names) := by
  cases h with
  | entered _ _ since =>
      rw [grant_grant]
      exact .entered site names since

end ScopeStacks

namespace System

variable {old sys sys' : System} {p : Permit} {s : SystemId} {targets targets' : List ModuleId}

/-- What the scopes keep for their owners. -/
def sites (sys : System) : List GeneratorSite := sys.running.scopes.map Scope.site

def scopeStacks (sys : System) : ScopeStacks where
  contexts := sys.running.scopes.map Scope.names
  points := sys.running.scopes.map fun c => c.site.ip
  locs := sys.running.scopes.map fun c => c.site.loc
  clocks := sys.running.scopes.filterMap fun c => c.site.clock

theorem length_sites (sys : System) : sys.sites.length = sys.running.scopes.length :=
  List.length_map _

/-- All but the names are part of what the scopes keep for their owners. -/
theorem scopeStacks_eq_sites (sys : System) :
    sys.scopeStacks.contexts.length = sys.sites.length ∧
      sys.scopeStacks.points = sys.sites.map GeneratorSite.ip ∧
      sys.scopeStacks.locs = sys.sites.map GeneratorSite.loc ∧
      sys.scopeStacks.clocks = sys.sites.filterMap GeneratorSite.clock := by
  simp [scopeStacks, sites, Function.comp_def, List.filterMap_map]

theorem clock?_eq_head? (sys : System) : sys.clock? = sys.scopeStacks.clocks.head? := by
  rw [scopeStacks, List.head?_filterMap]
  rfl

theorem scopeStacks_of_enter {site : GeneratorSite}
    (entered : sys'.running = sys.running.enter site) :
    sys'.scopeStacks = sys.scopeStacks.enter site := by
  cases hc : site.clock <;>
    simp [scopeStacks, ScopeStacks.enter, entered, ScopeStack.enter, hc]

theorem scopeStacks_of_top {scope : Scope GeneratorSite} {outer : List (Scope GeneratorSite)}
    (top : sys.running.scopes = scope :: outer) (left : sys'.running = sys.running.leave) :
    sys.sites = scope.site :: sys'.sites ∧
      sys.scopeStacks = (sys'.scopeStacks.enter scope.site).grant scope.names := by
  have rest : sys'.running.scopes = outer := by rw [left, ScopeStack.leave, top, List.tail_cons]
  constructor
  · rw [sites, sites, top, rest, List.map_cons]
  · cases hc : scope.site.clock <;>
      simp [scopeStacks, ScopeStacks.enter, ScopeStacks.grant, top, rest, hc]

theorem scopeStacks_of_leave {scope : Scope GeneratorSite} {outer : List (Scope GeneratorSite)}
    (top : sys.running.scopes = scope :: outer) (left : sys'.running = sys.running.leave) :
    sys'.scopeStacks = sys.scopeStacks.leave scope.site.clock.isSome := by
  rw [(scopeStacks_of_top top left).2, ScopeStacks.leave_grant, ScopeStacks.leave_enter]

/-- Nothing but the names in the innermost scope is left open by the sites and the outer scopes. -/
theorem scopeStacks_of_tail (outer : sys'.running.scopes.tail = sys.running.scopes.tail)
    (same : sys'.sites = sys.sites) : ∃ names, sys'.scopeStacks = sys.scopeStacks.grant names := by
  obtain ⟨-, points, locs, clocks⟩ := sys.scopeStacks_eq_sites
  obtain ⟨-, points', locs', clocks'⟩ := sys'.scopeStacks_eq_sites
  rw [same] at points' locs' clocks'
  have contexts : ∃ names, sys'.scopeStacks.contexts =
      sys.scopeStacks.contexts.modifyHead fun _ => names := by
    unfold sites at same
    unfold scopeStacks
    cases top : sys.running.scopes with
    | nil =>
        rw [top] at same
        exact ⟨{}, by rw [List.map_eq_nil_iff.mp same]; rfl⟩
    | cons scope rest =>
        rw [top] at same outer
        obtain ⟨scope', rest', top', -⟩ := List.map_eq_cons_iff.mp same
        rw [top'] at outer ⊢
        exact ⟨scope'.names, congrArg (scope'.names :: ·) (congrArg (List.map Scope.names) outer)⟩
  obtain ⟨names, contexts⟩ := contexts
  exact ⟨names, ScopeStacks.ext contexts (points'.trans points.symm) (locs'.trans locs.symm)
    (clocks'.trans clocks.symm)⟩

/-- The stacks move with the generators that run: all grow by one where a generator starts and
shrink by one where it ends, the clocks only if its scope has one. -/
theorem Tick.scopeStacks (t : sys.Tick p s targets sys' targets') :
    (∃ m site, targets' = m :: targets ∧ sys'.sites = site :: sys.sites ∧
      sys'.scopeStacks = sys.scopeStacks.enter site) ∨
    (∃ m site, targets = m :: targets' ∧ sys.sites = site :: sys'.sites ∧
      sys'.scopeStacks = sys.scopeStacks.leave site.clock.isSome) ∨
    targets' = targets ∧ sys'.sites = sys.sites ∧
      ∃ names, sys'.scopeStacks = sys.scopeStacks.grant names := by
  have leaves {scope : Scope GeneratorSite} {outer : List (Scope GeneratorSite)}
      (top : sys.running.scopes = scope :: outer) (left : sys'.running = sys.running.leave) :
      sys.sites = scope.site :: sys'.sites ∧
        sys'.scopeStacks = sys.scopeStacks.leave scope.site.clock.isSome :=
    ⟨(scopeStacks_of_top top left).1, scopeStacks_of_leave top left⟩
  cases t with
  | keeps k => exact .inr (.inr ⟨rfl, k.sites, scopeStacks_of_tail k.outer k.sites⟩)
  | pop drained first => exact .inr (.inr ⟨rfl, rfl, scopeStacks_of_tail rfl rfl⟩)
  | @opened mid m site op args k running ops idle hm only hop hk =>
      have entered := congrArg (ScopeStack.enter site) running
      refine .inl ⟨m, site, rfl, ?_, scopeStacks_of_enter entered⟩
      exact congrArg (fun r : ScopeStack GeneratorSite => r.scopes.map Scope.site) entered
  | @closed m rest scope outer b op last P hm =>
      exact .inr (.inl ⟨m, scope.site, last, leaves P.top rfl⟩)
  | @undone m rest scope outer last top hm kept =>
      exact .inr (.inl ⟨m, scope.site, last, leaves top rfl⟩)

/-- On top of the stacks of `old`, generators may have started since. -/
def EnteredSince (old sys : System) : Prop :=
  ∃ inner, sys.sites = inner ++ old.sites ∧ old.scopeStacks.Since inner sys.scopeStacks

theorem EnteredSince.refl (sys : System) : sys.EnteredSince sys := ⟨[], rfl, .same⟩

theorem EnteredSince.started (e : old.EnteredSince sys) {m : ModuleId}
    (t : sys.Tick p s targets sys' (m :: targets)) : old.EnteredSince sys' := by
  obtain ⟨inner, sites, since⟩ := e
  rcases t.scopeStacks with ⟨-, site, -, sites', enters⟩ | ⟨n, -, last, -⟩ | ⟨same, -⟩
  · exact ⟨site :: inner, by rw [sites', sites]; rfl, enters ▸ since.enter site⟩
  · have size := congrArg List.length last
    simp only [List.length_cons] at size
    omega
  · exact absurd same (List.cons_ne_self _ _)

theorem EnteredSince.tick (e : old.EnteredSince sys) (t : sys.Tick p s targets sys' targets')
    (inside : old.running.scopes.length < sys.running.scopes.length) : old.EnteredSince sys' := by
  obtain ⟨inner, sites, since⟩ := e
  cases inner with
  | nil =>
      rw [← length_sites, ← length_sites, sites] at inside
      exact absurd inside (Nat.lt_irrefl _)
  | cons c inner =>
      rcases t.scopeStacks with
        ⟨-, site, -, sites', enters⟩ | ⟨-, site, -, sites', leaves⟩ | ⟨-, sites', names, grants⟩
      · exact ⟨site :: c :: inner, by rw [sites', sites]; rfl, enters ▸ since.enter site⟩
      · obtain ⟨rfl, rest⟩ := List.cons.inj (sites'.symm.trans sites)
        exact ⟨inner, rest, leaves ▸ since.leave⟩
      · exact ⟨c :: inner, by rw [sites', sites], grants ▸ since.grant names⟩

theorem EnteredSince.of_leave {scope : Scope GeneratorSite} {outer : List (Scope GeneratorSite)}
    (top : sys.running.scopes = scope :: outer) (left : old.running = sys.running.leave) :
    old.EnteredSince sys := by
  obtain ⟨sites, entered⟩ := scopeStacks_of_top top left
  exact ⟨[scope.site], sites, entered ▸ .entered scope.site scope.names .same⟩

theorem EnteredSince.eq (e : old.EnteredSince sys)
    (depth : sys.running.scopes.length = old.running.scopes.length) :
    sys.scopeStacks = old.scopeStacks := by
  obtain ⟨inner, sites, since⟩ := e
  rw [← length_sites, ← length_sites, sites, List.length_append] at depth
  obtain rfl := List.length_eq_zero_iff.mp (by omega : inner.length = 0)
  generalize sys.scopeStacks = now at since
  cases since
  rfl

/-- Stacks that are as high as before are the same but for the innermost names, if the innermost
scope was not counted. -/
theorem EnteredSince.eq_grant {base : System} (e : base.EnteredSince sys)
    {scope : Scope GeneratorSite} {outer : List (Scope GeneratorSite)}
    (top : old.running.scopes = scope :: outer) (left : base.running = old.running.leave)
    (same : sys.sites = old.sites) : ∃ names, sys.scopeStacks = old.scopeStacks.grant names := by
  obtain ⟨inner, sites, since⟩ := e
  obtain ⟨before, entered⟩ := scopeStacks_of_top top left
  have one : [scope.site] ++ base.sites = inner ++ base.sites :=
    before.symm.trans (same.symm.trans sites)
  obtain rfl := List.append_cancel_right one
  generalize sys.scopeStacks = now at since
  cases since with
  | entered _ names bottom =>
      cases bottom
      exact ⟨names, by rw [entered, ScopeStacks.grant_grant]⟩

end System

theorem Workspace.Hosts.scopeStacks {ws : Workspace U} {s : SystemId} {runs : List GeneratorRun}
    {sys : System} (h : ws.Hosts runs) (hs : ws.system? s = some sys) :
    sys.scopeStacks.contexts.length = (runsIn s runs).length ∧
      sys.scopeStacks.points = (runsIn s runs).map (fun run => ⟨run.symbol⟩) ∧
      sys.scopeStacks.locs = (runsIn s runs).map GeneratorRun.loc ∧
      sys.scopeStacks.clocks = (runsIn s runs).filterMap (GeneratorRun.clock? ws) := by
  obtain ⟨depth, points, locs, clocks⟩ := sys.scopeStacks_eq_sites
  have sites : sys.sites = ws.sitesIn s runs := h.sites s sys hs
  rw [sites, sitesIn] at depth points locs clocks
  simp only [List.length_map, List.map_map, List.filterMap_map] at depth points locs clocks
  exact ⟨depth, points, locs, clocks⟩

end Hardware
