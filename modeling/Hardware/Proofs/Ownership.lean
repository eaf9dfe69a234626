import Hardware.Proofs.Symbols

/-!
The operation that an imported module brings along is in one place only: still with the module,
or in the design of one system. It moves once, to a symbol that is free, and no generator writes
to it.
-/
namespace Hardware

variable {U : UserCode} {ρ : Type}

/-- The operation that an imported module has brought along and not given away. -/
def Module.held? {γ : Type} (x : Module γ) : Option ModuleOp :=
  match x.origin with
  | .imported held => held
  | .declared => none

namespace System

/-- What the design of `sys` has under the symbol of `m` stays as it is. -/
structure Spares (m : ModuleId) (sys sys' : System) : Prop where
  symbol : sys'.symbolOf? m = sys.symbolOf? m
  op : ∀ sym, sys.symbolOf? m = some sym →
    sys'.design.findModule? sym = sys.design.findModule? sym

variable {m : ModuleId} {sys mid sys' : System} {ws : Workspace U}

theorem Spares.refl (m : ModuleId) (sys : System) : sys.Spares m sys := ⟨rfl, fun _ _ => rfl⟩

theorem Spares.trans (h : sys.Spares m mid) (h' : mid.Spares m sys') : sys.Spares m sys' where
  symbol := h'.symbol.trans h.symbol
  op sym hm := (h'.op sym (h.symbol.trans hm)).trans (h.op sym hm)

theorem Spares.of_same (symbols : sys'.symbols = sys.symbols) (design : sys'.design = sys.design) :
    sys.Spares m sys' where
  symbol := by rw [symbolOf?, symbols, symbolOf?]
  op sym _ := by rw [design]

/-- Only the operation `q` of another module was changed. -/
theorem Spares.of_other {q : Ident} (other : sys.symbolOf? m ≠ some q)
    (symbols : sys'.symbols = sys.symbols)
    (find : ∀ r, r ≠ q → sys'.design.findModule? r = sys.design.findModule? r) :
    sys.Spares m sys' where
  symbol := by rw [symbolOf?, symbols, symbolOf?]
  op sym hm := find sym fun e => other (e ▸ hm)

/-- Another module has got an operation under a free symbol. -/
theorem Spares.of_insert {n : ModuleId} {q : Ident} {op : ModuleOp} (sound : sys.Sound ws)
    (other : n ≠ m) (free : sys.design.findModule? q = none)
    (symbols : sys'.symbols = sys.symbols.insert n q)
    (modules : sys'.design.modules = sys.design.modules.insert q op) : sys.Spares m sys' where
  symbol := by
    unfold symbolOf?
    rw [symbols, OrderedMap.get?_insert_ne _ _ other.symm]
  op sym hm := by
    have ne : sym ≠ q := fun e => sound.symbolOf?_ne free m (e ▸ hm)
    unfold Design.findModule?
    rw [modules, OrderedMap.get?_insert_ne _ _ ne]

/-- No generator runs on the operation of an imported module. -/
theorem Sound.imported_not_owner (h : sys.Sound ws) {x : Module U.GeneratorCode}
    (hx : ws.module? m = some x) (imported : x.isImported = true) {q : Ident}
    (owned : q ∈ sys.owners) : sys.symbolOf? m ≠ some q := by
  intro hm
  obtain ⟨n, hn, gen⟩ := h.owned q owned
  obtain rfl := h.injective n m q hn hm
  obtain ⟨y, -, -, hy, -, declared, -⟩ := h.generated n gen
  rw [hx] at hy
  cases hy
  rw [imported] at declared
  cases declared

end System

namespace Workspace

variable {ws mid ws' : Workspace U} {m : ModuleId} {op : ModuleOp} {s : SystemId}
  {sys sys' : System} {p : Permit}

def held? (ws : Workspace U) (m : ModuleId) : Option ModuleOp :=
  (ws.module? m).bind Module.held?

/-- The operation `op`, which `m` has brought along, is either still there, and no system has it,
or it is in the design of exactly one system, under its own symbol. -/
inductive Owned (ws : Workspace U) (m : ModuleId) (op : ModuleOp) : Prop
  | held (here : ws.held? m = some op)
      (nowhere : ∀ s sys, ws.system? s = some sys → sys.symbolOf? m = none) : Owned ws m op
  | moved {s : SystemId} {sys : System} (gone : ws.held? m = none)
      (hs : ws.system? s = some sys) (hm : sys.symbolOf? m = some op.sym)
      (hop : sys.design.findModule? op.sym = some op)
      (only : ∀ t sys', ws.system? t = some sys' → t ≠ s → sys'.symbolOf? m = none) :
      Owned ws m op

/-- Neither the module `m` nor what the systems have of it is touched. -/
structure Spares (m : ModuleId) (ws ws' : Workspace U) : Prop where
  held : ws'.held? m = ws.held? m
  systems : ∀ s sys', ws'.system? s = some sys' → ∃ sys, ws.Before s sys ∧ sys.Spares m sys'

theorem Spares.of_systems (held : ws'.held? m = ws.held? m)
    (same : ∀ s, ws'.system? s = ws.system? s) : ws.Spares m ws' :=
  ⟨held, fun s sys' hs => ⟨sys', .inl (same s ▸ hs), .refl m sys'⟩⟩

theorem Spares.setSystem {new : System} (hs : ws.system? s = some sys)
    (spares : sys.Spares m new) : ws.Spares m (ws.setSystem s new) := by
  refine ⟨rfl, fun t sys' ht => ?_⟩
  rw [system?_setSystem hs] at ht
  split at ht
  · rename_i hts
    cases ht
    exact ⟨sys, .inl (hts ▸ hs), spares⟩
  · exact ⟨sys', .inl ht, .refl m sys'⟩

theorem Spares.addInstance (ws : Workspace U) (y : Instance) :
    ws.Spares m { ws with instances := ws.instances ++ [y] } :=
  .of_systems rfl fun _ => rfl

theorem Spares.releaseInstances (ws : Workspace U) (is : List InstanceId) :
    ws.Spares m (ws.releaseInstances is) := by
  refine .of_systems ?_ fun s => system?_releaseInstances ws is s
  rw [held?, module?_releaseInstances, held?]

theorem Spares.trans (h : ws.Spares m mid) (e : ws.Extends mid) (h' : mid.Spares m ws') :
    ws.Spares m ws' := by
  refine ⟨h'.held.trans h.held, fun s sys' hs => ?_⟩
  obtain ⟨sysm, before, last⟩ := h'.systems s sys' hs
  rcases before.earlier e with there | before
  · obtain ⟨sys, was, first⟩ := h.systems s sysm there
    exact ⟨sys, was, first.trans last⟩
  · exact ⟨sysm, before, last⟩

/-- What is not touched stays where it is. -/
theorem Owned.spared (h : ws.Owned m op) (e : ws.Extends ws') (spares : ws.Spares m ws') :
    ws'.Owned m op := by
  have none_left : ∀ {t sys'}, ws'.system? t = some sys' →
      (∀ sys, ws.system? t = some sys → sys.symbolOf? m = none) → sys'.symbolOf? m = none := by
    intro t sys' ht unknown
    obtain ⟨sys, there | ⟨-, name, conf, rfl⟩, spared⟩ := spares.systems t sys' ht
    · rw [spared.symbol, unknown sys there]
    · rw [spared.symbol]
      rfl
  cases h with
  | held here nowhere =>
      exact .held (spares.held.trans here) fun t sys' ht => none_left ht (nowhere t)
  | @moved s sys gone hs hm hop only =>
      obtain ⟨sys', hs', -⟩ := e.systems s sys hs
      obtain ⟨old, there | ⟨new, -⟩, spared⟩ := spares.systems s sys' hs'
      · rw [hs] at there
        cases there
        exact .moved (spares.held.trans gone) hs' (spared.symbol.trans hm)
          ((spared.op _ hm).trans hop) fun t sys' ht ne =>
            none_left ht fun sys there => only t sys there ne
      · rw [hs] at new
        cases new

theorem held?_setModule {n : ModuleId} {x : Module U.GeneratorCode} (hx : ws.module? n = some x)
    (new : Module U.GeneratorCode) :
    (ws.setModule n new).held? m = if m = n then new.held? else ws.held? m := by
  unfold held?
  rw [module?_setModule hx]
  split <;> rfl

/-- An operation that moves is in the design of one system then, and nowhere else. -/
theorem Owned.adopted {x : Module U.GeneratorCode} {q : ModuleOp} (h : ws.Owned m op)
    (hs : ws.system? s = some sys) (hx : ws.module? m = some x)
    (origin : x.origin = .imported (some q)) :
    ((ws.setModule m { x with origin := .imported none }).setSystem s (sys.adopt m q)).Owned
      m op := by
  have holds : ws.held? m = some q := by
    simp [held?, hx, Module.held?, origin]
  have there : (ws.setModule m { x with origin := .imported none }).system? s = some sys := hs
  cases h with
  | moved gone => rw [holds] at gone; cases gone
  | held here nowhere =>
      obtain rfl : q = op := Option.some.inj (holds.symm.trans here)
      refine .moved ?_ (system?_setSystem_self there _) (OrderedMap.get?_insert_self _ _ _)
        (OrderedMap.get?_insert_self _ _ _) fun t sys' ht ne => ?_
      · change (ws.setModule m _).held? m = none
        rw [held?_setModule hx, if_pos rfl]
        rfl
      · rw [system?_setSystem_ne _ ne] at ht
        exact nowhere t sys' ht

theorem Change.owned (h : ws.Sound) (c : Change p ws ws') {x : Module U.GeneratorCode}
    (hx : ws.module? m = some x) (imported : x.isImported = true) (owned : ws.Owned m op) :
    ws'.Owned m op := by
  have e := c.extends
  cases c with
  | aside modules instances systems =>
      refine owned.spared e (.of_systems ?_ fun s => congrArg (fun l => l[s.index]?) systems)
      unfold held? module?
      rw [modules]
  | addSystem name conf =>
      exact owned.spared e ⟨rfl, fun s sys' hs => ⟨sys', before_addSystem hs, .refl m sys'⟩⟩
  | @addModule y sound brought =>
      have kept : (ws.modules ++ [y])[m.index]? = ws.modules[m.index]? :=
        List.getElem?_append_left (List.getElem?_eq_some_iff.mp hx).1
      exact owned.spared e (.of_systems (congrArg (Option.bind · Module.held?) kept) fun _ => rfl)
  | @setParameters n y hy params =>
      refine owned.spared e (.of_systems ?_ fun s => rfl)
      rw [held?_setModule hy]
      split
      · rename_i same
        rw [held?, same, hy]
        rfl
      · rfl
  | @create s sys n y hs hy declared new made =>
      have free := System.freshSymbol_free (h.systems s sys hs) y
      have other : n ≠ m := fun same => by
        rw [same, hx] at hy
        cases hy
        rw [imported] at declared
        cases declared
      exact owned.spared e (.setSystem hs (.of_insert (h.systems s sys hs) other free rfl rfl))
  | @adopt s sys n y q hs hy held new free made =>
      by_cases same : n = m
      · subst same
        exact owned.adopted hs hy held
      · have there : (ws.setModule n { y with origin := .imported none }).system? s = some sys := hs
        have spared : ws.Spares m (ws.setModule n { y with origin := .imported none }) := by
          refine .of_systems ?_ fun _ => rfl
          rw [held?_setModule hy, if_neg (Ne.symm same)]
        refine owned.spared e (spared.trans ?_ (.setSystem there ?_))
        · exact .of_setModule hy rfl (isImported_of_origin held).symm
        · exact .of_insert (h.systems s sys hs) same free rfl rfl
  | @push s sys scope outer b o hs top body inner id verified =>
      have owner : scope.site.ip.owner ∈ sys.owners := by simp [System.owners, top]
      have other := (h.systems s sys hs).imported_not_owner hx imported owner
      refine owned.spared e (.setSystem hs (.of_other other rfl fun r ne => ?_))
      rw [System.push, Design.findModule?_push, if_neg ne]
  | grant hs top base => exact owned.spared e (.setSystem hs (.of_same rfl rfl))
  | @enqueue s sys n y sym hs hy gen hsym queued =>
      obtain ⟨waiting, same, -⟩ := sys.enqueue_eq n
      rw [same] at e ⊢
      exact owned.spared e (.setSystem hs (.of_same rfl rfl))
  | @track sys y hs placed within =>
      have there : ({ ws with instances := ws.instances ++ [y] } : Workspace U).system? y.system =
          some sys := hs
      exact owned.spared e ((Spares.addInstance ws y).trans (.of_addInstance ws y)
        (.setSystem there (.of_same rfl rfl)))
  | release i => exact owned.spared e (.releaseInstances ws [i])
  | @forget s sys hs =>
      have there : (ws.releaseInstances sys.instances).system? s = some sys := by
        rwa [system?_releaseInstances]
      exact owned.spared e ((Spares.releaseInstances ws _).trans (.of_releaseInstances _)
        (.setSystem there (.of_same rfl rfl)))

theorem Changes.owned (h : ws.Sound) (c : Changes p ws ws') {x : Module U.GeneratorCode}
    (hx : ws.module? m = some x) (imported : x.isImported = true) (owned : ws.Owned m op) :
    ws'.Owned m op := by
  induction c with
  | refl => exact owned
  | tail some step ih =>
      obtain ⟨y, hy, -, same⟩ := (Changes.extends some).modules m x hx
      exact step.owned (Changes.sound h some) hy (same.trans imported) ih

variable {x : Module U.GeneratorCode} {run : GeneratorRun}

theorem Opens.spares (h : ws.Sound) {n : ModuleId} {code : U.GeneratorCode}
    (o : Opens ws s n run code ws') (hx : ws.module? m = some x) (imported : x.isImported = true) :
    ws.Spares m ws' := by
  cases o with
  | @intro sys y g o site hs hy one idle hn hop hk =>
      have declared := (System.Sound.declared_of_one h.modules hy one).1
      refine .setSystem hs (.of_other (q := site.ip.owner) (fun hm => ?_) rfl fun r ne => ?_)
      · obtain rfl := (h.systems s sys hs).injective n m _ hn hm
        rw [hx] at hy
        cases hy
        rw [imported] at declared
        cases declared
      · rw [System.opened, Design.findModule?_setBody, if_neg ne]

theorem Closes.spares (h : ws.Sound) (c : Closes ws run ws') (hx : ws.module? m = some x)
    (imported : x.isImported = true) : ws.Spares m ws' := by
  cases c with
  | @intro sys scope outer b o hs P kind assigned operands =>
      have owner : scope.site.ip.owner ∈ sys.owners := by simp [System.owners, P.top]
      have other := (h.systems _ sys hs).imported_not_owner hx imported owner
      refine .setSystem hs (.of_other other rfl fun r ne => ?_)
      rw [System.closed, System.push, Design.findModule?_push, if_neg ne]

theorem Unwinds.spares {runs : List GeneratorRun} (h : ws.Hosts (run :: runs))
    (u : Unwinds ws run ws') (hx : ws.module? m = some x) (imported : x.isImported = true) :
    ws.Spares m ws' := by
  obtain ⟨top, scope, outer, ht, sound, first, owner, -⟩ := h.top
  cases u with
  | @intro sys hs =>
      rw [ht] at hs
      cases hs
      have there : (ws.releaseInstances (top.instances.filter (ws.isInside run.symbol))).system?
          run.system = some top := by
        rwa [system?_releaseInstances]
      have owned : run.symbol ∈ top.owners := by simp [System.owners, first, owner]
      have other := sound.imported_not_owner hx imported owned
      refine (Spares.releaseInstances ws _).trans (.of_releaseInstances _) (.setSystem there ?_)
      refine .of_other other rfl fun r ne => ?_
      rw [System.undone, Design.findModule?_setBody, if_neg ne]

theorem Move.owned {runs runs' : List GeneratorRun} (h : ws.Hosts runs)
    (step : Move p ws runs ws' runs') (hx : ws.module? m = some x)
    (imported : x.isImported = true) (owned : ws.Owned m op) : ws'.Owned m op := by
  have e := step.extends
  cases step with
  | call c => exact Changes.owned h.sound c hx imported owned
  | port step allowed => exact Changes.owned h.sound step.changes hx imported owned
  | pop drained hs first => exact owned.spared e (.setSystem hs (.of_same rfl rfl))
  | begins created opens =>
      obtain ⟨y, hy, -, same⟩ := (Changes.extends created.any).modules m x hx
      have sound := Changes.sound h.sound created.any
      exact (Changes.owned h.sound created.any hx imported owned).spared opens.extends
        (opens.spares sound hy (same.trans imported))
  | closes c => exact owned.spared e (c.spares h.sound hx imported)
  | unwinds u => exact owned.spared e (u.spares h hx imported)

theorem Owned.not_known (h : ws.Owned m op) (hs : ws.system? s = some sys)
    (free : sys.design.findModule? op.sym = none) : sys.symbolOf? m = none := by
  cases h with
  | held here nowhere => exact nowhere s sys hs
  | @moved t other gone ht hm hop only =>
      by_cases same : s = t
      · rw [same, ht] at hs
        cases hs
        rw [hop] at free
        cases free
      · exact only s sys hs same

theorem Owned.symbol_eq (h : ws.Owned m op) (hs : ws.system? s = some sys) {sym : Ident}
    (hm : sys.symbolOf? m = some sym) : sym = op.sym := by
  cases h with
  | held here nowhere =>
      rw [nowhere s sys hs] at hm
      cases hm
  | @moved t other gone ht hm' hop only =>
      by_cases same : s = t
      · rw [same, ht] at hs
        cases hs
        exact Option.some.inj (hm.symm.trans hm')
      · rw [only s sys hs same] at hm
        cases hm

theorem Owned.held_eq (h : ws.Owned m op) {q : ModuleOp} (here : ws.held? m = some q) :
    q = op := by
  cases h with
  | held there nowhere => exact Option.some.inj (here.symm.trans there)
  | moved gone hs hm hop only =>
      rw [here] at gone
      cases gone

/-- What an attempt to give the imported module `m` its operation in `s` does. Each call that
may create an operation makes such an attempt, but for a generation, which is refused before. -/
structure Attempted (ws : Workspace U) (s : SystemId) (m : ModuleId) (op : ModuleOp) : Prop where
  unchanged : ∀ e ws', createOp s m ws = .error e ws' → ws' = ws ∧ addTop s m ws = .error e ws ∧
    ∀ r, ∃ e', instantiate s m r ws = .error e' ws
  cause : ∀ e ws' sys, createOp s m ws = .error e ws' → ws.system? s = some sys →
    (sys.design.findModule? op.sym).isSome ∨ ws.held? m = none
  moves : ∀ sym ws', createOp s m ws = .ok sym ws' → sym = op.sym ∧ ws'.Owned m op
  free : ∀ sys, ws.system? s = some sys → sys.design.findModule? op.sym = none →
    ((∃ sym ws', createOp s m ws = .ok sym ws') ↔ ws.held? m = some op)
  ungenerated : ∃ e, beginGeneration s m ws = .error e ws

theorem instantiate_of_refused {e : Error} (refused : createOp s m ws = .error e ws)
    (r : InstanceRequest) : ∃ e', instantiate s m r ws = .error e' ws := by
  have ends : (instantiate s m r).Ends ws (fun _ _ => False) fun _ ws' => ws' = ws := by
    unfold instantiate getModule
    refine .bind (resolve_ends (fun x hx => ?_) fun _ => rfl)
    refine .bind (onSystem_ends (fun _ => rfl) fun sys hs =>
      (System.currentPoint_ends sys).imp ?_ ?_)
    · rintro ip _ ⟨same, -⟩
      rw [same, setSystem_self hs]
      refine .bind (Effect.ends_locating (Effect.ends_ofExcept (fun bound _ => ?_) fun _ _ => rfl))
      exact .bind (Effect.ends_of_error refused rfl)
    · rintro e' _ ⟨same, -⟩
      rw [same, setSystem_self hs]
  cases hi : instantiate s m r ws with
  | ok i ws' => exact (ends.of_ok hi).elim
  | error e' ws' => exact ⟨e', by rw [ends.of_error hi]⟩

theorem addTop_of_refused {e : Error} (refused : createOp s m ws = .error e ws) :
    addTop s m ws = .error e ws := by
  have ends : (addTop s m).Ends ws (fun _ _ => False) fun e' ws' => e' = e ∧ ws' = ws :=
    .bind (Effect.ends_of_error refused ⟨rfl, rfl⟩)
  cases ha : addTop s m ws with
  | ok sym ws' => exact (ends.of_ok ha).elim
  | error e' ws' =>
      obtain ⟨rfl, rfl⟩ := ends.of_error ha
      rfl

theorem Owned.attempted (owned : ws.Owned m op) (h : ws.Sound) (hx : ws.module? m = some x)
    (imported : x.isImported = true) (s : SystemId) : ws.Attempted s m op := by
  have ends := createOp_ends h s m
  have holds : ∀ {held}, x.origin = .imported held → ws.held? m = held := by
    intro held origin
    simp [held?, hx, Module.held?, origin]
  have cause : ∀ e ws' sys, createOp s m ws = .error e ws' → ws.system? s = some sys →
      (sys.design.findModule? op.sym).isSome ∨ ws.held? m = none := by
    intro e ws' sys failed hs
    obtain ⟨-, held, origin, cause⟩ := (ends.of_error failed).2 sys x hs hx
    cases held with
    | none => exact .inr (holds origin)
    | some q =>
        rcases cause with none | taken
        · cases none
        · rw [(h.modules m x hx).name_eq origin, owned.held_eq (holds origin)] at taken
          exact .inl (Option.isSome_iff_ne_none.mpr taken)
  constructor
  case unchanged =>
    intro e ws' failed
    have same := (ends.of_error failed).1
    rw [same] at failed
    exact ⟨same, addTop_of_refused failed, instantiate_of_refused failed⟩
  case cause => exact cause
  case moves =>
    intro sym ws' ok
    have created := ends.of_ok ok
    have after := Changes.owned h created.any hx imported owned
    obtain ⟨-, sys', -, hs', hm, -⟩ := created.symbolOf?
    exact ⟨after.symbol_eq hs' hm, after⟩
  case free =>
    intro sys hs free
    constructor
    · rintro ⟨sym, ws', ok⟩
      have given := (ends.of_ok ok).not_refuses h hs hx
      cases origin : x.origin with
      | declared => simp [Module.isImported, origin] at imported
      | imported held =>
          cases held with
          | none => exact absurd ⟨owned.not_known hs free, none, origin, .inl rfl⟩ given
          | some q => rw [holds origin, owned.held_eq (holds origin)]
    · intro here
      cases hc : createOp s m ws with
      | ok sym ws' => exact ⟨sym, ws', rfl⟩
      | error e ws' =>
          rcases cause e ws' sys hc hs with taken | gone
          · rw [free] at taken
            cases taken
          · rw [here] at gone
            cases gone
  case ungenerated =>
    have begun := beginGeneration_ends h s m
    cases hb : beginGeneration s m ws with
    | error e ws' => exact ⟨e, by rw [(begun.of_error hb).1]⟩
    | ok r ws' =>
        obtain ⟨run, code⟩ := r
        obtain ⟨sym, mid, created, opens⟩ := begun.of_ok hb
        obtain ⟨y, hy, -, same⟩ := (Changes.extends created.any).modules m x hx
        cases opens with
        | intro site hs hz one =>
            have declared := (System.Sound.declared_of_one (Changes.sound h created.any).modules
              hz one).1
            rw [hy] at hz
            cases hz
            rw [same, imported] at declared
            cases declared

/-- A module that is taken in is a new one, and holds its operation. -/
theorem importModule_takes (ws : Workspace U) (s : SystemId) (op : ModuleOp) (loc : Location) :
    (importModule s op loc).Ends ws
      (fun m ws' => m = ⟨ws.modules.length⟩ ∧
        ws' = { ws with modules := ws.modules ++ [Module.ofOp op loc] })
      fun _ ws' => ws' = ws := by
  unfold importModule getSystem
  refine .bind (resolve_ends (fun sys _ => ?_) fun _ => rfl)
  split
  · exact .bind rfl
  · exact ⟨rfl, rfl⟩

end Workspace

namespace Machine

variable {P : Program U} {M : Machine U ρ} {m : ModuleId} {op : ModuleOp}

/-- A module that is taken in holds its operation, and no system knows it. -/
theorem Reachable.owned_of_import (h : Reachable P M) {s : SystemId} {loc : Location}
    (calls : M.control.call? = some (.importModule s op loc)) {ws : Workspace U}
    (taken : Workspace.importModule s op loc M.workspace = .ok m ws) :
    (Machine.step P M).workspace.Owned m op ∧
      ∃ x, (Machine.step P M).workspace.module? m = some x ∧ x.isImported = true := by
  have after : (Machine.step P M).workspace = ws := by
    rw [(step_call calls).1, Effect.outcome]
    simp only [Call.perform, taken]
  obtain ⟨rfl, rfl⟩ := (Workspace.importModule_takes M.workspace s op loc).of_ok taken
  rw [after]
  have found : (M.workspace.modules ++ [Module.ofOp op loc])[M.workspace.modules.length]? =
      some (Module.ofOp op loc) := by simp
  refine ⟨.held ?_ fun t sys ht => ?_, _, found, rfl⟩
  · exact congrArg (Option.bind · Module.held?) found
  · cases hm : sys.symbolOf? ⟨M.workspace.modules.length⟩ with
    | none => rfl
    | some sym =>
        obtain ⟨x, -, hx, -⟩ := (h.hosts.sound.systems t sys ht).present _ sym hm
        exact absurd (List.getElem?_eq_some_iff.mp hx).1 (Nat.lt_irrefl _)

/-- The operation that an imported module has brought along is in one place at every later point
of the run, and there unchanged. -/
theorem Reachable.owned_linearly (h : Reachable P M) {s : SystemId} {loc : Location}
    (calls : M.control.call? = some (.importModule s op loc)) {ws : Workspace U}
    (taken : Workspace.importModule s op loc M.workspace = .ok m ws) (n : Nat) :
    ((Machine.step P)^[n + 1] M).workspace.Owned m op ∧
      ∀ t, ((Machine.step P)^[n + 1] M).workspace.Attempted t m op := by
  have kept : ((Machine.step P)^[n + 1] M).workspace.Owned m op ∧
      ∃ x, ((Machine.step P)^[n + 1] M).workspace.module? m = some x ∧ x.isImported = true := by
    induction n with
    | zero => exact h.owned_of_import calls taken
    | succ n ih =>
        obtain ⟨owned, x, hx, imported⟩ := ih
        have at_n := h.iterate (n + 1)
        obtain ⟨y, hy, -, same⟩ := at_n.move.extends.modules m x hx
        rw [Function.iterate_succ_apply']
        exact ⟨at_n.move.owned at_n.hosts hx imported owned, y, hy, same.trans imported⟩
  obtain ⟨owned, x, hx, imported⟩ := kept
  exact ⟨owned, owned.attempted (h.iterate (n + 1)).hosts.sound hx imported⟩

end Machine

namespace Sample

/-- An operation from elsewhere, which no system has. -/
def shared : ModuleOp where
  sym := "Fifo"
  inputs := []
  outputs := [⟨"o", .bits 1⟩]
  attributes := .empty
  loc := .unknown
  kind := .external []

/-- It is taken in and added to two systems, the second of which does not get it. -/
def sharing : Script code Unit :=
  .call (.newSystem "first" {}) fun _ =>
    .call (.newSystem "second" {}) fun _ =>
      .call (.importModule ⟨0⟩ shared .unknown) fun _ =>
        .call (.addTop ⟨0⟩ ⟨0⟩) fun _ => .call (.addTop ⟨1⟩ ⟨0⟩) fun _ => .done ()

def sharingAfter (n : Nat) : Machine code Unit :=
  (Machine.step (program top))^[n] (Machine.initial (0 : Nat) sharing)

theorem reachable_sharingAfter (n : Nat) : Machine.Reachable (program top) (sharingAfter n) :=
  (Machine.Reachable.initial (0 : Nat) sharing).iterate n

/-- The operation that the next call takes in, and the module that it makes of it. -/
def import? (M : Machine code Unit) : Option (SystemId × ModuleOp × Location × ModuleId) :=
  match M.control.call? with
  | some (.importModule s op loc) =>
    match Workspace.importModule s op loc M.workspace with
    | .ok m _ => some (s, op, loc, m)
    | .error _ _ => none
  | _ => none

theorem of_import? {M : Machine code Unit} {s : SystemId} {op : ModuleOp} {loc : Location}
    {m : ModuleId} (h : import? M = some (s, op, loc, m)) :
    M.control.call? = some (.importModule s op loc) ∧
      ∃ ws, Workspace.importModule s op loc M.workspace = .ok m ws := by
  unfold import? at h
  split at h
  · rename_i calls
    split at h
    · rename_i taken
      cases h
      exact ⟨calls, _, taken⟩
    · cases h
  · cases h

/-- After both calls the operation is in the first system only. -/
theorem owned_by_first : ∃ ws,
    (sharingAfter 2).control.call? = some (.importModule ⟨0⟩ shared .unknown) ∧
    Workspace.importModule ⟨0⟩ shared .unknown (sharingAfter 2).workspace = .ok ⟨0⟩ ws ∧
    ((Machine.step (program top))^[3] (sharingAfter 2)).workspace.Owned ⟨0⟩ shared ∧
    ((Machine.step (program top))^[3] (sharingAfter 2)).workspace.held? ⟨0⟩ = none := by
  have importing : import? (sharingAfter 2) = some (⟨0⟩, shared, .unknown, ⟨0⟩) := by
    decide +kernel
  have gone : ((Machine.step (program top))^[3] (sharingAfter 2)).workspace.held? ⟨0⟩ = none := by
    decide +kernel
  have reach := reachable_sharingAfter 2
  -- From here on the machine is not to be evaluated any more.
  generalize sharingAfter 2 = M at *
  obtain ⟨calls, ws, taken⟩ := of_import? importing
  exact ⟨ws, calls, taken, (reach.owned_linearly calls taken 2).1, gone⟩

end Sample

end Hardware
