import Hardware.Proofs.Change

/-!
Each elementary change keeps the invariant of a workspace, takes nothing back, and leaves
the stack of running generators as it is.
-/
namespace Hardware

variable {U : UserCode}

namespace System

variable {sys : System} {ws : Workspace U}

/-- The innermost running generator has an open body. -/
theorem Sound.top (h : sys.Sound ws) {scope : Scope GeneratorSite}
    {outer : List (Scope GeneratorSite)} (top : sys.running.scopes = scope :: outer) :
    ∃ m x op b, sys.symbolOf? m = some scope.site.ip.owner ∧ ws.module? m = some x ∧
      x.isImported = false ∧ sys.isGenerated m = true ∧
      sys.design.findModule? scope.site.ip.owner = some op ∧ op.kind = .real (some b) ∧
      sys.Carries m x.schema scope.site.ip.owner op ∧ b.IsOpen := by
  have mem : scope.site.ip.owner ∈ sys.owners := by simp [owners, top]
  obtain ⟨m, hm, gen⟩ := h.owned _ mem
  obtain ⟨x, op, hx, hop, carries⟩ := h.present m _ hm
  obtain ⟨x', sym, g, hx', -, declared, one⟩ := h.generated m gen
  rw [hx] at hx'
  cases hx'
  have has := Schema.hasGenerator_of_one one
  obtain ⟨body, hk, stage⟩ := (carries declared).stage has
  cases stage with
  | idle g _ => rw [gen] at g; cases g
  | complete _ o _ => exact absurd mem o
  | running _ _ opened =>
      exact ⟨m, x, op, _, hm, hx, declared, gen, hop, hk, carries declared, opened⟩

/-- The body at the innermost running generator. -/
theorem Sound.body?_top (h : sys.Sound ws) {scope : Scope GeneratorSite}
    {outer : List (Scope GeneratorSite)} (top : sys.running.scopes = scope :: outer) :
    ∃ b, sys.design.body? scope.site.ip.owner = some b ∧ b.IsOpen ∧
      ∀ o ∈ b.ops, o.id.index < sys.design.nextOp := by
  obtain ⟨m, x, op, b, -, -, -, -, hop, hk, carries, opened⟩ := h.top top
  exact ⟨b, Design.body?_of_kind hop hk, opened,
    carries.numbered b (ModuleOp.body?_of_kind hk)⟩

theorem ids_push {b : Block} {op : Operation} {n : Nat} (distinct : (b.ops.map Operation.id).Nodup)
    (numbered : ∀ o ∈ b.ops, o.id.index < n) (id : op.id = ⟨n⟩) :
    ((b.push op).ops.map Operation.id).Nodup ∧ ∀ o ∈ (b.push op).ops, o.id.index < n + 1 := by
  constructor
  · simp only [Block.push, List.map_append, List.map_cons, List.map_nil]
    refine List.nodup_append.mpr ⟨distinct, by simp, ?_⟩
    intro i hi j hj same
    obtain ⟨o, ho, rfl⟩ := List.mem_map.mp hi
    have lt := numbered o ho
    rw [same, List.mem_singleton.mp hj, id] at lt
    exact absurd lt (Nat.lt_irrefl n)
  · intro o ho
    rcases List.mem_append.mp ho with ho | ho
    · exact Nat.lt_succ_of_lt (numbered o ho)
    · rw [List.mem_singleton.mp ho, id]
      exact Nat.lt_succ_self n

theorem Sound.push (h : sys.Sound ws) {scope : Scope GeneratorSite}
    {outer : List (Scope GeneratorSite)} {b : Block} {op : Operation}
    (top : sys.running.scopes = scope :: outer)
    (body : sys.design.body? scope.site.ip.owner = some b) (inner : op.isTerminator = false)
    (id : op.id = ⟨sys.design.nextOp⟩) : (sys.push scope.site.ip.owner b op).Sound ws := by
  obtain ⟨m, x, mop, b', hm, hx, declared, gen, hop, hk, carries, opened⟩ := h.top top
  have same := Design.body?_of_kind hop hk
  rw [body] at same
  cases same
  have hb := ModuleOp.body?_of_kind hk
  have ids := ids_push (carries.distinct b hb) (carries.numbered b hb) id
  refine h.restage hx hm declared hop hk (fun q => Design.findModule?_push _ _ _ _ _) rfl
    (Nat.le_succ _) rfl rfl (fun _ _ => rfl) ?_ (fun _ _ => Iff.rfl) h.nodup ?_ ?_ ?_
  · intro _
    obtain ⟨x', sym, g, hx', -, -, one⟩ := h.generated m gen
    rw [hx] at hx'
    cases hx'
    exact ⟨g, one⟩
  · exact .running gen (by simp [owners, System.push, top]) (opened.push inner)
  · rintro _ ⟨⟩
    exact ids.1
  · rintro _ ⟨⟩
    exact ids.2

/-- Nothing but the worklist changes where a module is told to wait. -/
theorem enqueue_eq (sys : System) (m : ModuleId) :
    ∃ waiting, sys.enqueue m = { sys with worklist := waiting } ∧
      (∀ n ∈ sys.worklist, n ∈ waiting) ∧ ∀ n ∈ waiting, n ∈ sys.worklist ∨ n = m := by
  unfold enqueue
  split
  · exact ⟨sys.worklist, rfl, fun n hn => hn, fun n hn => .inl hn⟩
  · refine ⟨sys.worklist ++ [m], rfl, fun n hn => List.mem_append_left _ hn, ?_⟩
    intro n hn
    simpa using hn

theorem Sound.enqueue (h : sys.Sound ws) {m : ModuleId} {x : Module U.GeneratorCode} {sym : Ident}
    (hx : ws.module? m = some x) (gen : x.hasGenerator = true) (hm : sys.symbolOf? m = some sym) :
    (sys.enqueue m).Sound ws := by
  obtain ⟨waiting, same, -, sub⟩ := sys.enqueue_eq m
  rw [same]
  refine h.of_same rfl rfl rfl rfl fun n hn => ?_
  rcases sub n hn with hn | rfl
  · exact .inl hn
  · exact .inr ⟨x, sym, hx, gen, hm⟩

end System

namespace Workspace

variable {ws ws' : Workspace U} {p : Permit}

theorem Extends.of_setSystem {s : SystemId} {sys sys' : System} (hs : ws.system? s = some sys)
    (conf : sys'.conf = sys.conf)
    (symbols : ∀ m sym, sys.symbolOf? m = some sym → sys'.symbolOf? m = some sym) :
    ws.Extends (ws.setSystem s sys') where
  modules m x hx := ⟨x, hx, rfl, rfl⟩
  systems t other ht := by
    by_cases hts : t = s
    · subst hts
      rw [hs] at ht
      cases ht
      exact ⟨sys', system?_setSystem_self hs sys', conf, symbols⟩
    · exact ⟨other, (system?_setSystem_ne sys' hts).trans ht, rfl, fun _ _ h => h⟩
  instances i x hx := .inl hx

theorem Extends.of_setModule {m : ModuleId} {x x' : Module U.GeneratorCode}
    (hx : ws.module? m = some x) (schema : x'.schema = x.schema)
    (imported : x'.isImported = x.isImported) : ws.Extends (ws.setModule m x') where
  modules n y hy := by
    rw [module?_setModule hx]
    by_cases hnm : n = m
    · subst hnm
      rw [hx] at hy
      cases hy
      exact ⟨x', if_pos rfl, schema, imported⟩
    · exact ⟨y, by rw [if_neg hnm, hy], rfl, rfl⟩
  systems s sys hs := ⟨sys, hs, rfl, fun _ _ h => h⟩
  instances i y hy := .inl hy

theorem Extends.of_releaseInstances (is : List InstanceId) :
    ws.Extends (ws.releaseInstances is) where
  modules m x hx := ⟨x, by simpa using hx, rfl, rfl⟩
  systems s sys hs := ⟨sys, by simpa using hs, rfl, fun _ _ h => h⟩
  instances i x hx := by
    rw [instance?_releaseInstances]
    split
    · exact .inr (by rw [hx]; rfl)
    · exact .inl hx

theorem Extends.of_addInstance (ws : Workspace U) (x : Instance) :
    ws.Extends { ws with instances := ws.instances ++ [x] } where
  modules _ x hx := ⟨x, hx, rfl, rfl⟩
  systems _ sys hs := ⟨sys, hs, rfl, fun _ _ h => h⟩
  instances _ _ hy :=
    .inl ((List.getElem?_append_left (List.getElem?_eq_some_iff.mp hy).1).trans hy)

theorem isImported_of_origin {x : Module U.GeneratorCode} {held : Option ModuleOp}
    (h : x.origin = .imported held) : x.isImported = true := by
  unfold Module.isImported
  rw [h]

theorem symbolOf?_create {sys : System} {m n : ModuleId} {x : Module U.GeneratorCode} {sym : Ident}
    (new : sys.symbolOf? m = none) (h : sys.symbolOf? n = some sym) :
    (sys.create m x).symbolOf? n = some sym := by
  have : n ≠ m := fun e => by rw [e, new] at h; cases h
  unfold System.symbolOf? System.create
  rw [OrderedMap.get?_insert_ne _ _ this]
  exact h

theorem symbolOf?_adopt {sys : System} {m n : ModuleId} {op : ModuleOp} {sym : Ident}
    (new : sys.symbolOf? m = none) (h : sys.symbolOf? n = some sym) :
    (sys.adopt m op).symbolOf? n = some sym := by
  have : n ≠ m := fun e => by rw [e, new] at h; cases h
  unfold System.symbolOf? System.adopt
  rw [OrderedMap.get?_insert_ne _ _ this]
  exact h

theorem Change.extends (c : Change p ws ws') : ws.Extends ws' := by
  cases c with
  | aside modules instances systems =>
      refine ⟨fun m x h => ⟨x, ?_, rfl, rfl⟩, fun s sys h => ⟨sys, ?_, rfl, fun _ _ h => h⟩,
        fun i x h => .inl ?_⟩
      · rwa [module?, modules]
      · rwa [system?, systems]
      · rwa [instance?, instances]
  | addSystem name conf =>
      refine ⟨fun m x h => ⟨x, h, rfl, rfl⟩, fun s sys h => ⟨sys, ?_, rfl, fun _ _ h => h⟩,
        fun i x h => .inl h⟩
      exact (List.getElem?_append_left (lt_of_system? h)).trans h
  | addModule sound brought =>
      refine ⟨fun m x h => ⟨x, ?_, rfl, rfl⟩, fun s sys h => ⟨sys, h, rfl, fun _ _ h => h⟩,
        fun i x h => .inl h⟩
      exact (List.getElem?_append_left (List.getElem?_eq_some_iff.mp h).1).trans h
  | setParameters hx params => exact .of_setModule hx rfl rfl
  | create hs hx declared new made =>
      exact .of_setSystem hs rfl fun n sym h => symbolOf?_create new h
  | @adopt s sys m x op hs hx held new free made =>
      have taken : ws.Extends (ws.setModule m { x with origin := .imported none }) :=
        .of_setModule hx rfl (isImported_of_origin held).symm
      have there : (ws.setModule m { x with origin := .imported none }).system? s = some sys := hs
      exact taken.trans (.of_setSystem there rfl fun n sym h => symbolOf?_adopt new h)
  | push hs => exact .of_setSystem hs rfl fun _ _ h => h
  | grant hs => exact .of_setSystem hs rfl fun _ _ h => h
  | @enqueue s sys m x sym hs =>
      obtain ⟨waiting, same, -⟩ := sys.enqueue_eq m
      rw [same]
      exact .of_setSystem hs rfl fun _ _ h => h
  | @track sys x hs placed within =>
      exact (Extends.of_addInstance ws x).trans (.of_setSystem hs rfl fun _ _ h => h)
  | release i => exact .of_releaseInstances [i]
  | @forget s sys hs =>
      have there : (ws.releaseInstances sys.instances).system? s = some sys := by
        rwa [system?_releaseInstances]
      exact (Extends.of_releaseInstances sys.instances).trans
        (.of_setSystem there rfl fun _ _ h => h)

theorem Changes.extends (c : Changes p ws ws') : ws.Extends ws' := by
  induction c with
  | refl => exact .refl ws
  | tail _ step ih => exact ih.trans step.extends

/-- A system may be replaced by a sound one that tracks every instance which has a site. -/
theorem Sound.setSystem (h : ws.Sound) {s : SystemId} {sys sys' : System}
    (hs : ws.system? s = some sys) (e : ws.Extends (ws.setSystem s sys')) (sound : sys'.Sound ws)
    (instances : ∀ i x, ws.instance? i = some x → x.system = s → x.site.isSome = true →
      i ∈ sys.instances → i ∈ sys'.instances) : (ws.setSystem s sys').Sound where
  modules := h.modules
  systems t other ht := by
    rw [system?_setSystem hs] at ht
    split at ht
    · cases ht
      exact sound.extends e
    · exact (h.systems t other ht).extends e
  tracked i x hi := by
    obtain ⟨old, hold, kept⟩ := h.tracked i x hi
    by_cases hxs : x.system = s
    · rw [hxs, hs] at hold
      cases hold
      exact ⟨sys', by rw [hxs, system?_setSystem_self hs],
        fun site => instances i x hi hxs site (kept site)⟩
    · exact ⟨old, by rw [system?_setSystem_ne _ hxs, hold], kept⟩

theorem Sound.setModule (h : ws.Sound) {m : ModuleId} {x x' : Module U.GeneratorCode}
    (hx : ws.module? m = some x) (e : ws.Extends (ws.setModule m x')) (sound : x'.Sound) :
    (ws.setModule m x').Sound where
  modules n y hy := by
    rw [module?_setModule hx] at hy
    split at hy
    · cases hy
      exact sound
    · exact h.modules n y hy
  systems s sys hs := (h.systems s sys hs).extends e
  tracked := h.tracked

theorem Sound.releaseInstances (h : ws.Sound) (is : List InstanceId) :
    (ws.releaseInstances is).Sound where
  modules m x hx := h.modules m x (by simpa using hx)
  systems s sys hs :=
    (h.systems s sys (by simpa using hs)).extends (.of_releaseInstances is)
  tracked i x hi := by
    rw [instance?_releaseInstances] at hi
    split at hi
    · obtain ⟨y, hy, rfl⟩ := Option.map_eq_some_iff.mp hi
      obtain ⟨sys, hs, -⟩ := h.tracked i y hy
      exact ⟨sys, by simpa using hs, fun site => by cases site⟩
    · simpa using h.tracked i x hi

theorem Sound.addInstance (h : ws.Sound) {x : Instance} {sys : System}
    (hs : ws.system? x.system = some sys)
    (e : ws.Extends (({ ws with instances := ws.instances ++ [x] } : Workspace U).setSystem
      x.system { sys with instances := sys.instances ++ [⟨ws.instances.length⟩] })) :
    (({ ws with instances := ws.instances ++ [x] } : Workspace U).setSystem x.system
      { sys with instances := sys.instances ++ [⟨ws.instances.length⟩] }).Sound where
  modules := h.modules
  systems t other ht := by
    have there : ({ ws with instances := ws.instances ++ [x] } : Workspace U).system? x.system =
        some sys := hs
    rw [system?_setSystem there] at ht
    split at ht
    · cases ht
      have same :
          System.Sound ws { sys with instances := sys.instances ++ [⟨ws.instances.length⟩] } :=
        (h.systems _ sys hs).of_same rfl rfl rfl rfl fun _ hm => .inl hm
      exact same.extends e
    · exact (h.systems t other ht).extends e
  tracked i y hi := by
    have there : ({ ws with instances := ws.instances ++ [x] } : Workspace U).system? x.system =
        some sys := hs
    rw [system?_setSystem there]
    rw [instance?_setSystem, instance?, List.getElem?_append] at hi
    split at hi
    · obtain ⟨old, hold, kept⟩ := h.tracked i y hi
      split
      · rename_i hys
        rw [hys, hs] at hold
        cases hold
        exact ⟨_, rfl, fun site => List.mem_append_left _ (kept site)⟩
      · exact ⟨old, hold, kept⟩
    · rename_i ge
      have last : i.index = ws.instances.length ∧ y = x := by
        obtain ⟨lt, eq⟩ := List.getElem?_eq_some_iff.mp hi
        simp only [List.length_singleton] at lt
        exact ⟨by omega, by simpa using eq.symm⟩
      obtain ⟨hlast, rfl⟩ := last
      rw [if_pos rfl]
      refine ⟨_, rfl, fun _ => List.mem_append_right _ (List.mem_singleton.mpr ?_)⟩
      exact InstanceId.index_inj.mp hlast

/-- What is not modelled further may change. -/
theorem Sound.of_same (h : ws.Sound) (e : ws.Extends ws') (modules : ws'.modules = ws.modules)
    (systems : ws'.systems = ws.systems) (instances : ws'.instances = ws.instances) :
    ws'.Sound where
  modules m x hx := by
    rw [module?, modules] at hx
    exact h.modules m x hx
  systems s sys hs := by
    rw [system?, systems] at hs
    exact (h.systems s sys hs).extends e
  tracked i x hi := by
    rw [instance?, instances] at hi
    rw [system?, systems]
    exact h.tracked i x hi

theorem Sound.addSystem (h : ws.Sound) (name : Ident) (conf : SystemConf)
    (e : ws.Extends { ws with systems := ws.systems ++ [System.new name conf] }) :
    ({ ws with systems := ws.systems ++ [System.new name conf] } : Workspace U).Sound where
  modules := h.modules
  systems s sys hs := by
    rw [system?, List.getElem?_append] at hs
    split at hs
    · exact (h.systems s sys hs).extends e
    · rw [List.mem_singleton.mp (List.mem_of_getElem? hs)]
      exact System.sound_new name conf
  tracked i x hi := by
    obtain ⟨sys, hs, kept⟩ := h.tracked i x hi
    exact ⟨sys, (List.getElem?_append_left (lt_of_system? hs)).trans hs, kept⟩

theorem Sound.addModule (h : ws.Sound) {x : Module U.GeneratorCode} (sound : x.Sound)
    (e : ws.Extends { ws with modules := ws.modules ++ [x] }) :
    ({ ws with modules := ws.modules ++ [x] } : Workspace U).Sound where
  modules m y hy := by
    rw [module?, List.getElem?_append] at hy
    split at hy
    · exact h.modules m y hy
    · rw [List.mem_singleton.mp (List.mem_of_getElem? hy)]
      exact sound
  systems s sys hs := (h.systems s sys hs).extends e
  tracked := h.tracked

/-- The instances that lose their place in the registry have lost their site. -/
theorem Sound.forget (h : ws.Sound) {s : SystemId} {sys : System}
    (hs : ws.system? s = some sys) :
    ((ws.releaseInstances sys.instances).setSystem s { sys with instances := [] }).Sound := by
  have there : (ws.releaseInstances sys.instances).system? s = some sys := by
    rwa [system?_releaseInstances]
  have same : System.Sound ws { sys with instances := [] } :=
    (h.systems s sys hs).of_same rfl rfl rfl rfl fun _ hm => .inl hm
  refine (h.releaseInstances sys.instances).setSystem there
    (.of_setSystem there rfl fun _ _ h => h)
    (same.extends (.of_releaseInstances sys.instances)) ?_
  intro i x hi _ site member
  rw [instance?_releaseInstances, if_pos member] at hi
  obtain ⟨y, -, rfl⟩ := Option.map_eq_some_iff.mp hi
  cases site

theorem Change.sound (h : ws.Sound) (c : Change p ws ws') : ws'.Sound := by
  have e := c.extends
  cases c with
  | aside modules instances systems => exact h.of_same e modules systems instances
  | addSystem name conf => exact h.addSystem name conf e
  | addModule sound brought => exact h.addModule sound e
  | @setParameters m x hx params =>
      have sound := h.modules m x hx
      exact h.setModule hx e ⟨sound.imported, sound.held, sound.outputs⟩
  | create hs hx declared new made =>
      exact h.setSystem hs e ((h.systems _ _ hs).create hx new) fun _ _ _ _ _ hi => hi
  | @adopt s sys m x op hs hx held new free made =>
      have taken : ws.Extends (ws.setModule m { x with origin := .imported none }) :=
        .of_setModule hx rfl (isImported_of_origin held).symm
      have sound := h.setModule hx taken
        ⟨fun _ => (h.modules m x hx).imported (isImported_of_origin held),
          fun _ gone => (by cases gone), fun _ gone => (by cases gone)⟩
      have there : (ws.setModule m { x with origin := .imported none }).system? s = some sys := hs
      refine sound.setSystem there ?_ ?_ fun _ _ _ _ _ hi => hi
      · exact .of_setSystem there rfl fun n sym h => symbolOf?_adopt new h
      · exact ((h.systems s sys hs).adopt hx (isImported_of_origin held)
          ((h.modules m x hx).outputs op held) new free).extends taken
  | push hs top body inner id verified =>
      exact h.setSystem hs e ((h.systems _ _ hs).push top body inner id) fun _ _ _ _ _ hi => hi
  | @grant s sys scope outer hs top base =>
      refine h.setSystem hs e ?_ fun _ _ _ _ _ hi => hi
      exact (h.systems s sys hs).of_same rfl rfl rfl (by simp [System.owners, top])
        fun _ hm => .inl hm
  | @enqueue s sys m x sym hs hx gen hsym queued =>
      refine h.setSystem hs e ((h.systems s sys hs).enqueue hx gen hsym) fun i _ _ _ _ hi => ?_
      obtain ⟨waiting, same, -⟩ := sys.enqueue_eq m
      rwa [same]
  | track hs placed within => exact h.addInstance hs e
  | release i => exact h.releaseInstances [i]
  | forget hs => exact h.forget hs

theorem Changes.sound (h : ws.Sound) (c : Changes p ws ws') : ws'.Sound := by
  induction c with
  | refl => exact h
  | tail _ step ih => exact step.sound ih

end Workspace

end Hardware
