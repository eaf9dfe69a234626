import Hardware.Ports
import Hardware.Proofs.Rollback
import Hardware.Proofs.Wrapping

/-!
Instances are where they say they are. For as long as an instance has a site, its system keeps
track of it and holds an operation there with a result for each output of its module; once it
has none, it never gives out a signal again. A body that an instance was built in was begun empty
and got all its numbers from the counter of its system, so words of 32 bits tell its operations
apart until the counter runs over.
-/
namespace Hardware

variable {U : UserCode} {ρ : Type}

namespace System

variable {sys sys' : System} {name : Ident} {m : ModuleId} {site : InstanceSite}

theorem Holds.of_grows (h : sys.Holds name m site) (grows : sys.design.Grows sys'.design)
    (symbols : ∀ n q, sys.symbolOf? n = some q → sys'.symbolOf? n = some q) :
    sys'.Holds name m site := by
  obtain ⟨sym, target, op, params, hm, ht, hop, kind, same, results⟩ := h
  obtain ⟨target', ht', more⟩ := grows sym target ht
  exact ⟨sym, target', op, params, symbols m sym hm, ht', grows.findOp? hop, kind, same,
    by rw [results, more.outputs]⟩

theorem Holds.undone (h : sys.Holds name m site) {n : ModuleId} {q : Ident}
    (other : site.parent ≠ q) (kept : List InstanceId) :
    (sys.undone n q kept).Holds name m site := by
  obtain ⟨sym, target, op, params, hm, ht, hop, kind, same, results⟩ := h
  have find : ∀ r, (sys.undone n q kept).design.findModule? r =
      if r = q then (sys.design.findModule? r).map fun o => o.withBody none
      else sys.design.findModule? r := fun r => Design.findModule?_setBody _ _ r _
  have found : (sys.undone n q kept).design.findOp? site.parent site.op = some op := by
    unfold Design.findOp? Design.body? at *
    rwa [find, if_neg other]
  by_cases own : sym = q
  · refine ⟨sym, target.withBody none, op, params, hm, ?_, found, kind, same, ?_⟩
    · rw [find, if_pos own, ht]
      rfl
    · rw [results, ModuleOp.withBody_outputs]
  · exact ⟨sym, target, op, params, hm, by rw [find, if_neg own, ht], found, kind, same, results⟩

/-- In words of 32 bits, an operation is found under the number of the instance `x`: an instance that
has its name, the symbol of its module and its results. -/
def Finds (sys : System) (x : Instance) (site : InstanceSite) : Prop :=
  ∃ sym op params, sys.symbolOf? x.target = some sym ∧
    sys.design.wrap.findOp? site.parent site.op = some op ∧
    op.kind = .inst x.name sym params ∧ op.results = site.results

end System

namespace Workspace

variable {ws ws' : Workspace U} {s : SystemId} {p : Permit} {runs runs' : List GeneratorRun}

/-- Each instance that has a site stands there in its system. -/
def Placed (ws : Workspace U) : Prop :=
  ∀ i x site, ws.instance? i = some x → x.site = some site →
    ∃ sys, ws.system? x.system = some sys ∧ sys.Holds x.name x.target site

theorem Placed.setSystem (placed : ws.Placed) {sys sys' : System} (hs : ws.system? s = some sys)
    (keeps : ∀ i x site, ws.instance? i = some x → x.site = some site → x.system = s →
      sys.Holds x.name x.target site → sys'.Holds x.name x.target site) :
    (ws.setSystem s sys').Placed := by
  intro i x site hi hx
  obtain ⟨old, hold, holds⟩ := placed i x site hi hx
  rw [system?_setSystem hs]
  split
  · rename_i home
    rw [home, hs] at hold
    cases hold
    exact ⟨sys', rfl, keeps i x site hi hx home holds⟩
  · exact ⟨old, hold, holds⟩

theorem instance?_of_released {is : List InstanceId} {i : InstanceId} {x : Instance}
    {site : InstanceSite} (hi : (ws.releaseInstances is).instance? i = some x)
    (hx : x.site = some site) : i ∉ is ∧ ws.instance? i = some x := by
  rw [instance?_releaseInstances] at hi
  split at hi
  · obtain ⟨y, -, rfl⟩ := Option.map_eq_some_iff.mp hi
    cases hx
  · rename_i kept
    exact ⟨kept, hi⟩

theorem Placed.releaseInstances (placed : ws.Placed) (is : List InstanceId) :
    (ws.releaseInstances is).Placed := by
  intro i x site hi hx
  obtain ⟨-, hi⟩ := instance?_of_released hi hx
  rw [system?_releaseInstances]
  exact placed i x site hi hx

/-- An instance with a site had it before, or is the one that is now kept track of. -/
theorem Change.instance_before (c : Change p ws ws') {i : InstanceId} {x : Instance}
    {site : InstanceSite} (hi : ws'.instance? i = some x) (hx : x.site = some site) :
    ws.instance? i = some x ∨ ∃ sys, ws.system? x.system = some sys ∧
      sys.Holds x.name x.target site ∧ site.parent ∈ sys.owners := by
  cases c with
  | aside modules instances systems =>
      rw [instance?, instances] at hi
      exact .inl hi
  | addSystem name conf => exact .inl hi
  | addModule sound brought => exact .inl hi
  | setParameters hm params => exact .inl hi
  | create hs hm declared new made => exact .inl hi
  | adopt hs hm held new free made => exact .inl hi
  | push hs top body inner id verified => exact .inl hi
  | grant hs top base => exact .inl hi
  | enqueue hs hm gen hsym queued => exact .inl hi
  | @track sys y hs placed within =>
      rw [instance?_setSystem, instance?, List.getElem?_append] at hi
      split at hi
      · exact .inl hi
      · have last := List.mem_singleton.mp (List.mem_of_getElem? hi)
        subst last
        exact .inr ⟨sys, hs, placed site hx, within site hx⟩
  | release j =>
      have one : (ws.releaseInstances [j]).instance? i = some x := hi
      exact .inl (instance?_of_released one hx).2
  | forget hs => exact .inl (instance?_of_released hi hx).2

theorem Change.placed (h : ws.Sound) (placed : ws.Placed) (c : Change p ws ws') : ws'.Placed := by
  intro i x site hi hx
  have before : ∃ sys, ws.system? x.system = some sys ∧ sys.Holds x.name x.target site := by
    rcases c.instance_before hi hx with old | ⟨sys, hs, holds, -⟩
    · exact placed i x site old hx
    · exact ⟨sys, hs, holds⟩
  obtain ⟨sys, hs, holds⟩ := before
  obtain ⟨sys', hs', k⟩ := Changes.keeps_of_system? h (.single c) hs
  exact ⟨sys', hs', holds.of_grows k.grows k.symbols⟩

theorem Changes.placed (h : ws.Sound) (placed : ws.Placed) (c : Changes p ws ws') :
    ws'.Placed := by
  induction c with
  | refl => exact placed
  | tail some step ih => exact step.placed (Changes.sound h some) ih

theorem Opens.placed {m : ModuleId} {run : GeneratorRun} {code : U.GeneratorCode}
    (placed : ws.Placed) (opens : Opens ws s m run code ws') : ws'.Placed := by
  cases opens with
  | intro site hs hx one idle hsym hop hk =>
      refine placed.setSystem hs fun _ _ _ _ _ _ holds => holds.of_grows ?_ fun _ _ h => h
      exact .of_find hop (.withBody hk _) fun q => Design.findModule?_setBody _ _ q _

theorem Closes.placed {run : GeneratorRun} (placed : ws.Placed) (closes : Closes ws run ws') :
    ws'.Placed := by
  cases closes with
  | intro hs P kind assigned operands =>
      refine placed.setSystem hs fun _ _ _ _ _ _ holds => holds.of_grows ?_ fun _ _ h => h
      exact .push P.body _

/-- The instances in the body that is taken away are among those that are released. -/
theorem Unwinds.placed {run : GeneratorRun} (h : ws.Sound) (placed : ws.Placed)
    (unwinds : Unwinds ws run ws') : ws'.Placed := by
  cases unwinds with
  | @intro sys hs =>
      have there : (ws.releaseInstances (sys.instances.filter (ws.isInside run.symbol))).system?
          run.system = some sys := by
        rwa [system?_releaseInstances]
      refine (placed.releaseInstances _).setSystem there fun i x site hi hx home holds => ?_
      refine holds.undone (fun inside => ?_) _
      obtain ⟨kept, hi⟩ := instance?_of_released hi hx
      obtain ⟨sys', hs', tracked⟩ := h.tracked i x hi
      rw [home, hs] at hs'
      cases hs'
      refine kept (List.mem_filter.mpr ⟨tracked (by rw [hx]; rfl), ?_⟩)
      simp [isInside, parent?, hi, hx, inside]

theorem Move.placed (h : ws.Hosts runs) (placed : ws.Placed) (step : Move p ws runs ws' runs') :
    ws'.Placed := by
  cases step with
  | call c => exact Changes.placed h.sound placed c
  | port step allowed => exact Changes.placed h.sound placed step.changes
  | pop drained hs first => exact placed.setSystem hs fun _ _ _ _ _ _ holds => holds
  | begins created opens => exact opens.placed (Changes.placed h.sound placed created.any)
  | closes c => exact c.placed placed
  | unwinds u => exact u.placed h.sound placed

section Housed

variable {sys : System} {q : Ident}

/-- `q` is the symbol of a declared module. -/
def DeclaredAt (ws : Workspace U) (s : SystemId) (q : Ident) : Prop :=
  ∃ sys m x, ws.system? s = some sys ∧ sys.symbolOf? m = some q ∧ ws.module? m = some x ∧
    x.isImported = false

/-- Each instance that has a site stands in the body of a declared module. -/
def Housed (ws : Workspace U) : Prop :=
  ∀ i x site, ws.instance? i = some x → x.site = some site → ws.DeclaredAt x.system site.parent

theorem DeclaredAt.extends (h : ws.DeclaredAt s q) (e : ws.Extends ws') : ws'.DeclaredAt s q := by
  obtain ⟨sys, m, x, hs, hm, hx, declared⟩ := h
  obtain ⟨sys', hs', -, symbols⟩ := e.systems s sys hs
  obtain ⟨x', hx', -, same⟩ := e.modules m x hx
  exact ⟨sys', m, x', hs', symbols m q hm, hx', same.trans declared⟩

theorem Sound.declaredAt (h : ws.Sound) (hs : ws.system? s = some sys) (own : q ∈ sys.owners) :
    ws.DeclaredAt s q := by
  obtain ⟨m, hm, gen⟩ := (h.systems s sys hs).owned q own
  obtain ⟨x, -, -, hx, -, declared, -⟩ := (h.systems s sys hs).generated m gen
  exact ⟨sys, m, x, hs, hm, hx, declared⟩

/-- The numbers in the body of a declared module come from the counter of its system. -/
theorem Sound.numbered (h : ws.Sound) (hs : ws.system? s = some sys) (home : ws.DeclaredAt s q)
    {b : Block} (hb : sys.design.body? q = some b) :
    ∀ o ∈ b.ops, o.id.index < sys.design.nextOp := by
  obtain ⟨sys', m, x, hs', hm, hx, declared⟩ := home
  rw [hs] at hs'
  cases hs'
  obtain ⟨y, op, hy, hop, carries⟩ := (h.systems s sys hs).present m q hm
  rw [hx] at hy
  cases hy
  refine (carries declared).numbered b ?_
  rwa [Design.body?, hop, Option.bind_some] at hb

theorem Housed.of_extends (housed : ws.Housed) (e : ws.Extends ws')
    (before : ∀ i x site, ws'.instance? i = some x → x.site = some site →
      ws.instance? i = some x) : ws'.Housed :=
  fun i x site hi hx => (housed i x site (before i x site hi hx) hx).extends e

theorem Change.housed (h : ws.Sound) (housed : ws.Housed) (c : Change p ws ws') : ws'.Housed := by
  intro i x site hi hx
  rcases c.instance_before hi hx with old | ⟨sys, hs, -, own⟩
  · exact (housed i x site old hx).extends c.extends
  · exact (h.declaredAt hs own).extends c.extends

theorem Changes.housed (h : ws.Sound) (housed : ws.Housed) (c : Changes p ws ws') :
    ws'.Housed := by
  induction c with
  | refl => exact housed
  | tail some step ih => exact step.housed (Changes.sound h some) ih

theorem Move.housed (h : ws.Sound) (housed : ws.Housed) (step : Move p ws runs ws' runs') :
    ws'.Housed := by
  cases step with
  | call c => exact Changes.housed h housed c
  | port step allowed => exact Changes.housed h housed step.changes
  | pop drained hs first =>
      exact housed.of_extends (.of_setSystem hs rfl fun _ _ h => h) fun _ _ _ hi _ => hi
  | begins created opens =>
      have ready := Changes.housed h housed created.any
      cases opens with
      | intro site hs hx one idle hsym hop hk =>
          exact ready.of_extends (.of_setSystem hs rfl fun _ _ h => h) fun _ _ _ hi _ => hi
  | closes c =>
      cases c with
      | intro hs P kind assigned operands =>
          exact housed.of_extends (.of_setSystem hs rfl fun _ _ h => h) fun _ _ _ hi _ => hi
  | unwinds u =>
      refine housed.of_extends u.extends ?_
      cases u with
      | intro hs => exact fun _ _ _ hi hx => (instance?_of_released hi hx).2

end Housed

section Outputs

variable {i : InstanceId} {x : Instance} {site : InstanceSite} {y : Module U.GeneratorCode}

theorem map_mapIdx {α β γ : Type} (as : List α) (f : Nat → α → β) (g : β → γ) :
    (as.mapIdx f).map g = as.mapIdx fun k a => g (f k a) := by
  apply List.ext_getElem?
  intro k
  simp [Function.comp_def]

theorem table_keys (ports : List PortDesc) :
    (ports.mapIdx fun k p => (p.name, (k, p))).map Prod.fst = ports.map PortDesc.name := by
  rw [map_mapIdx]
  apply List.ext_getElem?
  intro k
  simp

end Outputs

theorem Sound.found (h : ws.Sound) (placed : ws.Placed) (housed : ws.Housed) {i : InstanceId}
    {x : Instance} {site : InstanceSite} {sys : System} (hi : ws.instance? i = some x)
    (hx : x.site = some site) (hs : ws.system? x.system = some sys)
    (few : sys.design.nextOp < 2 ^ 32) : sys.Finds x site := by
  obtain ⟨sys', hs', sym, target, op, params, hm, -, hop, kind, same, results⟩ :=
    placed i x site hi hx
  rw [hs] at hs'
  cases hs'
  obtain ⟨b, body, found⟩ := Option.bind_eq_some_iff.mp hop
  have below : ∀ o ∈ b.ops, o.id.index < 2 ^ 32 := fun o ho =>
    (h.numbered hs (housed i x site hi hx) body o ho).trans few
  have number : site.op.index < 2 ^ 32 := by
    have named : op.id = site.op := by simpa using List.find?_some found
    exact named ▸ below op (List.mem_of_find?_eq_some found)
  have small : ∀ v ∈ site.results, v.Below (2 ^ 32) := by
    intro v hv id k source
    rw [results] at hv
    obtain ⟨_, _, rfl⟩ := List.mem_mapIdx.mp hv
    cases source
    exact number
  refine ⟨sym, op.wrap, params, hm, ?_, kind, ?_⟩
  · rw [Design.findOp?_wrap body below, hop, Option.map_some]
  · exact (congrArg (List.map Value.wrap) same).trans (Value.wrap_values small)

end Workspace

namespace Machine

variable {P : Program U} {M : Machine U ρ}

theorem Reachable.placed (h : Reachable P M) : M.workspace.Placed := by
  induction h with
  | initial state session =>
      intro i x site hi
      simp [Machine.initial, Workspace.instance?] at hi
  | step h ih => exact h.move.placed h.hosts ih

theorem Reachable.housed (h : Reachable P M) : M.workspace.Housed := by
  induction h with
  | initial state session =>
      intro i x site hi
      simp [Machine.initial, Workspace.instance?] at hi
  | step h ih => exact h.move.housed h.hosts.sound ih

end Machine

namespace Sample

end Sample

end Hardware
