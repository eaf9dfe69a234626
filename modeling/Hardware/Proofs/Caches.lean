import Hardware.Proofs.Memory
import Hardware.Proofs.Run
import Hardware.Proofs.Signature

/-!
What the caches keep. A module is kept in no other step than the one in which its producer ends
well, and no producer is started for a place that is taken. So what is kept can only be replaced
by a producer that was running already: one that has reached its own place again.
-/
namespace Hardware

variable {U : UserCode} {ρ : Type}

namespace Workspace

open Effect

theorem cache?_setCache_self {ws : Workspace U} {c : CacheId} {cache : Cache}
    (hc : ws.cache? c = some cache) (new : Cache) : (ws.setCache c new).cache? c = some new :=
  List.getElem?_set_self (List.getElem?_eq_some_iff.mp hc).1

theorem cache?_setCache_ne {ws : Workspace U} {c d : CacheId} (new : Cache) (h : d ≠ c) :
    (ws.setCache c new).cache? d = ws.cache? d :=
  List.getElem?_set_ne fun e => h (by
    cases c
    cases d
    cases e
    rfl)

/-- The module that is kept where `place` says. -/
def kept? (ws : Workspace U) (place : ProducerRun) : Option ModuleId :=
  (ws.cache? place.cache).bind fun cache => cache.get? (place.factory, place.key)

theorem kept?_congr {ws ws' : Workspace U} (h : ws'.caches = ws.caches) (place : ProducerRun) :
    ws'.kept? place = ws.kept? place := by
  unfold kept? cache?
  rw [h]

theorem kept?_of_cache? {ws : Workspace U} {place : ProducerRun} {cache : Cache}
    (hc : ws.cache? place.cache = some cache) :
    ws.kept? place = cache.get? (place.factory, place.key) := by
  rw [kept?, hc, Option.bind_some]

/-- From `ws` to `ws'` nothing is kept anew, handles stay good, and modules and factories stay
as they are. -/
structure Steady (ws ws' : Workspace U) : Prop where
  kept : ∀ place, ws'.kept? place = ws.kept? place
  caches : ws.caches.length ≤ ws'.caches.length
  factories : ws.factories <+: ws'.factories
  parameters : ws.parameters <+: ws'.parameters

theorem steady_of_memory {ws ws' : Workspace U} (same : ws'.memory = ws.memory) : ws.Steady ws' := by
  obtain ⟨caches, others⟩ := Prod.mk.inj same
  obtain ⟨factories, parameters⟩ := Prod.mk.inj others
  constructor
  case kept => exact kept?_congr caches
  case caches => exact Nat.le_of_eq (congrArg List.length caches.symm)
  case factories => exact factories ▸ List.prefix_rfl
  case parameters => exact parameters ▸ List.prefix_rfl

theorem kept?_addCache (ws : Workspace U) (place : ProducerRun) :
    (addCache.outcome ws).2.kept? place = ws.kept? place := by
  change ((ws.caches ++ [.empty])[place.cache.index]?).bind _ =
    (ws.caches[place.cache.index]?).bind _
  rcases Nat.lt_trichotomy place.cache.index ws.caches.length with lt | last | gt
  · rw [List.getElem?_append_left lt]
  · rw [last, List.getElem?_concat_length, List.getElem?_eq_none (Nat.le_refl _)]
    rfl
  · rw [List.getElem?_eq_none, List.getElem?_eq_none (Nat.le_of_lt gt)]
    rw [List.length_append, List.length_singleton]
    omega

theorem steady_addCache (ws : Workspace U) : ws.Steady (addCache.outcome ws).2 where
  kept := kept?_addCache ws
  caches := by
    change ws.caches.length ≤ (ws.caches ++ [OrderedMap.empty]).length
    simp
  factories := List.prefix_rfl
  parameters := List.prefix_rfl

theorem addFactory_steady (ws : Workspace U) (name : Ident) (signature : Signature)
    (producer : U.ProducerCode) (loc : Location) :
    (addFactory name signature producer loc).Ends ws (fun _ ws' => ws.Steady ws')
      fun _ ws' => ws.Steady ws' := by
  unfold addFactory
  refine .bind (ends_locating (ends_ofExcept (fun _ _ => ?_) fun _ _ => steady_of_memory rfl))
  refine .bind (ends_get.mpr (.bind (ends_modify.mpr ?_)))
  exact ⟨fun _ => rfl, Nat.le_refl _, List.prefix_append _ _, List.prefix_rfl⟩

theorem steady_addModule (ws : Workspace U) (x : Module U.GeneratorCode) :
    ws.Steady { ws with modules := ws.modules ++ [x] } where
  kept _ := rfl
  caches := Nat.le_refl _
  factories := List.prefix_rfl
  parameters := by
    unfold parameters
    rw [List.map_append]
    exact List.prefix_append _ _

theorem declare_steady (ws : Workspace U) (decl : Declaration U.GeneratorCode) :
    (declare decl).Ends ws (fun _ ws' => ws.Steady ws') fun _ ws' => ws.Steady ws' :=
  .bind (ends_ofExcept (fun _ _ => steady_addModule ws _) fun _ _ => steady_of_memory rfl)

theorem importModule_steady (ws : Workspace U) (s : SystemId) (op : ModuleOp) (loc : Location) :
    (importModule s op loc).Ends ws (fun _ ws' => ws.Steady ws') fun _ ws' => ws.Steady ws' := by
  refine .bind (resolve_ends (fun sys _ => ?_) fun _ => steady_of_memory rfl)
  split
  · exact steady_of_memory rfl
  · exact steady_addModule ws _

/-- No call changes what is kept, or the parameters of a module. -/
theorem steady_perform (c : Call U) (ws : Workspace U) : ws.Steady (c.perform.outcome ws).2 := by
  have of_leaves : c.perform.Leaves Workspace.memory → ws.Steady (c.perform.outcome ws).2 :=
    fun h => steady_of_memory (h.outcome ws)
  cases c with
  | newCache => exact steady_addCache ws
  | newFactory name signature producer loc =>
      exact (addFactory_steady ws name signature producer loc).outcome
  | declare decl => exact (declare_steady ws decl).outcome
  | importModule s op loc => exact (importModule_steady ws s op loc).outcome
  | setState state => exact of_leaves (leaves_modify fun _ => rfl)
  | newSystem name conf => exact of_leaves fun _ => rfl
  | _ => exact of_leaves (Call.leaves_of_isInside outside_memory _ rfl)

theorem kept?_insert_self {ws : Workspace U} {run : ProducerRun} {cache : Cache}
    (hc : ws.cache? run.cache = some cache) (m : ModuleId) :
    (ws.setCache run.cache (cache.insert (run.factory, run.key) m)).kept? run = some m := by
  rw [kept?_of_cache? (cache?_setCache_self hc _), OrderedMap.get?_insert_self]

theorem kept?_insert_ne {ws : Workspace U} {place run : ProducerRun} {cache : Cache}
    (hc : ws.cache? run.cache = some cache) (m : ModuleId) (h : place ≠ run) :
    (ws.setCache run.cache (cache.insert (run.factory, run.key) m)).kept? place =
      ws.kept? place := by
  by_cases same : place.cache = run.cache
  · have apart : (place.factory, place.key) ≠ (run.factory, run.key) := by
      obtain ⟨f, c, k⟩ := place
      rintro ⟨⟩
      exact h (congrArg (ProducerRun.mk _ · _) same)
    have before : ws.cache? place.cache = some cache := same ▸ hc
    have after := cache?_setCache_self before (cache.insert (run.factory, run.key) m)
    rw [← same, kept?_of_cache? after, kept?_of_cache? before]
    exact cache.get?_insert_ne m apart
  · unfold kept?
    rw [cache?_setCache_ne _ same]

/-- From `ws` to `ws'` the module `m` is kept at `place` and gets the parameters of that place. -/
structure Takes (place : ProducerRun) (m : ModuleId) (ws ws' : Workspace U) : Prop where
  kept : ws'.kept? place = some m
  others : ∀ other, other ≠ place → ws'.kept? other = ws.kept? other
  caches : ws'.caches.length = ws.caches.length
  factories : ws'.factories = ws.factories
  known : m.index < ws.parameters.length
  parameters : ws'.parameters = ws.parameters.set m.index (some place.key)

theorem endProduction_takes (ws : Workspace U) (run : ProducerRun) (result : ProducerResult) :
    (endProduction run result).Ends ws (fun m ws' => result = .ok m ∧ Takes run m ws ws')
      fun _ ws' => ws' = ws := by
  unfold endProduction getModule
  refine .bind (ends_ofExcept (fun m made => ?_) fun _ _ => rfl)
  refine .bind (resolve_ends (fun x hx => ?_) fun _ => rfl)
  refine .bind (resolve_ends (fun cache hc => ?_) fun _ => rfl)
  have same : (ws.setModule m { x with parameters := some run.key }).cache? run.cache = some cache :=
    hc
  refine .bind (ends_modify.mpr ⟨made, ?_⟩)
  constructor
  case kept => exact kept?_insert_self same m
  case others => exact fun _ other => kept?_insert_ne same m other
  case caches => exact List.length_set
  case factories => rfl
  case known =>
    unfold parameters
    rw [List.length_map]
    exact (List.getElem?_eq_some_iff.mp hx).1
  case parameters => exact List.map_set

/-- The place that a call of `f` goes by: its canonical parameters, if the arguments bind. -/
def place? (ws : Workspace U) (f : FactoryId) (c : CacheId) (args : Args) : Option ProducerRun :=
  (ws.factory? f).bind fun x => (x.signature.bind args).toOption.bind fun bound =>
    bound.canonical.toOption.map fun key => { factory := f, cache := c, key }

theorem place?_of_bind {ws : Workspace U} {f : FactoryId} {x : Factory U.ProducerCode} {args : Args}
    {bound : BoundArgs} {key : Attr} (hf : ws.factory? f = some x)
    (hb : x.signature.bind args = .ok bound) (hk : bound.canonical = .ok key) (c : CacheId) :
    ws.place? f c args = some { factory := f, cache := c, key } := by
  simp [place?, hf, hb, hk, Except.toOption]

/-- A call that does not fail at once has a place, and goes on with what is kept there. -/
theorem beginProduction_looks (ws : Workspace U) (f : FactoryId) (c : CacheId) (args : Args) :
    (beginProduction f c args).Ends ws
      (fun look ws' => ws' = ws ∧ ∃ x cache bound key, ws.factory? f = some x ∧
        ws.cache? c = some cache ∧ x.signature.bind args = .ok bound ∧
        bound.canonical = .ok key ∧ look = lookupUnder f x c cache key bound)
      fun _ ws' => ws' = ws := by
  unfold beginProduction
  refine .bind (resolve_ends (fun x hf => ?_) fun _ => rfl)
  refine .bind (resolve_ends (fun cache hc => ?_) fun _ => rfl)
  refine .bind (ends_ofExcept (fun bound hb => ?_) fun _ _ => rfl)
  refine .bind (ends_ofExcept (fun key hk => ?_) fun _ _ => rfl)
  have binds : x.signature.bind args = .ok bound := by
    unfold bindArgs at hb
    split at hb
    · rename_i hx
      cases hb
      exact hx
    · cases hb
  have looks : ∀ look, look = lookupUnder f x c cache key bound → ws = ws ∧ ∃ x cache bound key,
      ws.factory? f = some x ∧ ws.cache? c = some cache ∧ x.signature.bind args = .ok bound ∧
        bound.canonical = .ok key ∧ look = lookupUnder f x c cache key bound :=
    fun look h => ⟨rfl, x, cache, bound, key, hf, hc, binds, hk, h⟩
  split
  · rename_i found
    exact looks _ (by simp only [lookupUnder, found])
  · rename_i free
    exact looks _ (by simp only [lookupUnder, free])

end Workspace

/-- The producers that wait on a stack for an answer, from the innermost to the outermost. -/
def Stack.productions : {a : Awaited} → Stack U ρ a → List ProducerRun
  | _, .session _ => []
  | _, .generator _ _ below => below.productions
  | _, .producer run _ below => run :: below.productions
  | _, .worklist _ below => below.productions

/-- The producers that have begun and not ended. -/
def Control.productions : Control U ρ → List ProducerRun
  | .halted _ => []
  | .session _ => []
  | .generator _ _ below => below.productions
  | .producer run _ below => run :: below.productions
  | .entering _ below => below.productions
  | .answering _ below => below.productions

namespace Machine

variable {P : Program U} {M : Machine U ρ} {place : ProducerRun} {m : ModuleId}

section Outside

variable {τ : Type} {part : Workspace U → τ} (out : Workspace.Outside part)
include out

theorem nextWaiting_outside (ws : Workspace U) (s : SystemId) (st : Stack U ρ .generation) :
    part (nextWaiting ws s st).workspace = part ws ∧
      (nextWaiting ws s st).control.productions = st.productions := by
  unfold nextWaiting
  split
  · exact ⟨rfl, rfl⟩
  · rename_i sys hs
    split
    · exact ⟨rfl, rfl⟩
    · simp only
      split <;> exact ⟨out.systems ws s sys _ hs, rfl⟩

theorem generateModule_outside (ws : Workspace U) (s : SystemId) (m : ModuleId)
    (st : Stack U ρ .generation) :
    part (start P ws (.generateModule s m) st).workspace = part ws ∧
      (start P ws (.generateModule s m) st).control.productions = st.productions := by
  have leaves := out.beginGeneration s m ws
  cases hb : Workspace.beginGeneration s m ws with
  | ok r ws' =>
      rw [start_begins hb]
      exact ⟨leaves.of_ok hb, rfl⟩
  | error e ws' =>
      rw [start_refused hb]
      exact ⟨leaves.of_error hb, rfl⟩

end Outside

/-- In the next step a call of `f` that goes by `place` begins, and starts the producer. -/
structure Begins (P : Program U) (f : FactoryId) (c : CacheId) (args : Args) (place : ProducerRun)
    (M : Machine U ρ) : Prop where
  goes : M.workspace.place? f c args = some place
  starts : ∃ x bound below, M.workspace.factory? f = some x ∧ x.signature.bind args = .ok bound ∧
    M.control = .entering (.callFactory f c args) below ∧
    step P M = ⟨M.workspace, .producer place (P.producer x.producer bound) below⟩

/-- The next step leaves what is kept. It may start a producer, or be the end of one that fails. -/
structure LeavesPlaces (P : Program U) (M : Machine U ρ) : Prop where
  steady : M.workspace.Steady (step P M).workspace
  runs : (step P M).control.productions = M.control.productions ∨
    (∃ f c args place, Begins P f c args place M ∧
      (step P M).control.productions = place :: M.control.productions) ∨
    ∃ run e below, M.control.productions = run :: below.productions ∧
      (step P M).control = .answering (a := .production) (.error e) below

/-- In the next step the producer of `place` ends well with `m`, which is then kept there. -/
structure Keeps (P : Program U) (place : ProducerRun) (m : ModuleId)
    (below : Stack U ρ .production) (M : Machine U ρ) : Prop where
  last : M.control = .producer place (.done (.ok m)) below
  answers : (step P M).control = .answering (a := .production) (.ok m) below
  takes : Workspace.Takes place m M.workspace (step P M).workspace

theorem leavesPlaces_of_same (memory : (step P M).workspace.memory = M.workspace.memory)
    (runs : (step P M).control.productions = M.control.productions) : LeavesPlaces P M where
  steady := Workspace.steady_of_memory memory
  runs := .inl runs

theorem leavesPlaces_of_call {c : Call U} (calls : M.control.call? = some c)
    (runs : (step P M).control.productions = M.control.productions) : LeavesPlaces P M where
  steady := by
    rw [(step_call calls).1]
    exact Workspace.steady_perform c M.workspace
  runs := .inl runs

/-- A call of a factory is answered with what is kept, starts the producer, or fails. -/
theorem callFactory_step (P : Program U) {f : FactoryId} {c : CacheId} {args : Args}
    {below : Stack U ρ .production} (entering : M.control = .entering (.callFactory f c args) below) :
    (∃ place m, M.workspace.place? f c args = some place ∧ M.workspace.kept? place = some m ∧
      step P M = ⟨M.workspace, .answering (a := .production) (.ok m) below⟩) ∨
    (∃ place, Begins P f c args place M ∧ M.workspace.kept? place = none ∧
      c.index < M.workspace.caches.length) ∨
    ∃ e, step P M = ⟨M.workspace, .answering (a := .production) (.error e) below⟩ := by
  obtain ⟨ws, control⟩ := M
  cases entering
  have looks := Workspace.beginProduction_looks ws f c args
  cases hb : Workspace.beginProduction f c args ws with
  | error e ws' =>
      obtain rfl := looks.of_error hb
      exact .inr (.inr ⟨e, by simp only [step, start, hb]⟩)
  | ok look ws' =>
      obtain ⟨rfl, x, cache, bound, key, hf, hc, binds, hk, rfl⟩ := looks.of_ok hb
      have goes := Workspace.place?_of_bind hf binds hk c
      cases found : cache.get? (f, key) with
      | some m =>
          refine .inl ⟨_, m, goes, (Workspace.kept?_of_cache? hc).trans found, ?_⟩
          simp only [step, start, hb, Workspace.lookupUnder, found]
      | none =>
          refine .inr (.inl ⟨_, ⟨goes, x, bound, below, hf, binds, rfl, ?_⟩,
            (Workspace.kept?_of_cache? hc).trans found, (List.getElem?_eq_some_iff.mp hc).1⟩)
          simp only [step, start, hb, Workspace.lookupUnder, found]

theorem Begins.free {f : FactoryId} {c : CacheId} {args : Args} (begins : Begins P f c args place M) :
    M.workspace.kept? place = none ∧ c.index < M.workspace.caches.length := by
  obtain ⟨x, bound, below, hf, binds, entering, stepped⟩ := begins.starts
  rcases callFactory_step P entering with ⟨_, m, -, -, hit⟩ | ⟨other, begins', free⟩ | ⟨e, failed⟩
  · rw [stepped] at hit
    cases hit
  · have same := begins.goes.symm.trans begins'.goes
    cases same
    exact free
  · rw [stepped] at failed
    cases failed

theorem callFactory_leavesPlaces (P : Program U) (ws : Workspace U) (f : FactoryId) (c : CacheId)
    (args : Args) (below : Stack U ρ .production) :
    LeavesPlaces P ⟨ws, .entering (.callFactory f c args) below⟩ where
  steady := by
    have same : (start P ws (.callFactory f c args) below).workspace = ws :=
      (start_callFactory f c args below).1
    exact Workspace.steady_of_memory (congrArg Workspace.memory same)
  runs := by
    rcases callFactory_step (M := ⟨ws, .entering (.callFactory f c args) below⟩) P rfl with
      ⟨place, m, -, -, hit⟩ | ⟨place, begins, -⟩ | ⟨e, failed⟩
    · exact .inl (by rw [hit]; rfl)
    · obtain ⟨x, bound, below', -, -, entering, stepped⟩ := begins.starts
      cases entering
      exact .inr (.inl ⟨f, c, args, place, begins, by rw [stepped]; rfl⟩)
    · exact .inl (by rw [failed]; rfl)

theorem LeavesPlaces.free (leaves : LeavesPlaces P M) :
    ∀ place ∈ (step P M).control.productions,
      place ∈ M.control.productions ∨ M.workspace.kept? place = none := by
  intro place running
  rcases leaves.runs with same | ⟨f, c, args, new, begins, more⟩ | ⟨run, e, below, ended, answers⟩
  · exact .inl (same ▸ running)
  · rw [more] at running
    rcases List.mem_cons.mp running with rfl | running
    · exact .inr begins.free.1
    · exact .inl running
  · rw [answers] at running
    rw [ended]
    exact .inl (List.mem_cons_of_mem run running)

theorem producer_done_places (P : Program U) (ws : Workspace U) (run : ProducerRun)
    (result : ProducerResult) (below : Stack U ρ .production) :
    LeavesPlaces P ⟨ws, .producer run (.done result) below⟩ ∨
      ∃ m, Keeps P run m below ⟨ws, .producer run (.done result) below⟩ := by
  have ends := Workspace.endProduction_takes ws run result
  cases he : Workspace.endProduction run result ws with
  | ok m ws' =>
      obtain ⟨rfl, takes⟩ := ends.of_ok he
      have stepped : step P ⟨ws, .producer run (.done (.ok m)) below⟩ =
          ⟨ws', .answering (a := .production) (.ok m) below⟩ := by
        simp only [step, stepProducer, Effect.outcome, he]
      refine .inr ⟨m, rfl, ?_, ?_⟩
      · rw [stepped]
      · rw [stepped]
        exact takes
  | error e ws' =>
      obtain rfl := ends.of_error he
      have stepped : step P ⟨ws', .producer run (.done result) below⟩ =
          ⟨ws', .answering (a := .production) (.error e) below⟩ := by
        simp only [step, stepProducer, Effect.outcome, he]
      refine .inl ⟨?_, .inr (.inr ⟨run, e, below, rfl, by rw [stepped]⟩)⟩
      rw [stepped]
      exact Workspace.steady_of_memory rfl

theorem step_places (P : Program U) (M : Machine U ρ) :
    LeavesPlaces P M ∨ ∃ place m below, Keeps P place m below M := by
  obtain ⟨ws, control⟩ := M
  have rests := leavesPlaces_of_same (P := P) (M := ⟨ws, control⟩)
  cases control with
  | halted result => exact .inl (rests rfl rfl)
  | session script =>
      cases script with
      | done r => exact .inl (rests rfl rfl)
      | call c next => exact .inl (leavesPlaces_of_call rfl rfl)
      | port c next => exact .inl (rests rfl rfl)
      | enter e next => exact .inl (rests rfl rfl)
  | generator run script below =>
      cases script with
      | done r => exact .inl (rests (Workspace.outside_memory.endGeneration ws run r) rfl)
      | call c next => exact .inl (leavesPlaces_of_call rfl rfl)
      | port c next =>
          have leaves := Ports.leaves_perform (U := U) Workspace.outside_memory c
          exact .inl (rests (leaves.outcome (run.ports, ws)) rfl)
      | enter e next => exact .inl (rests rfl rfl)
  | producer run script below =>
      cases script with
      | done r =>
          rcases producer_done_places P ws run r below with leaves | ⟨m, keeps⟩
          · exact .inl leaves
          · exact .inr ⟨run, m, below, keeps⟩
      | call c next => exact .inl (leavesPlaces_of_call rfl rfl)
      | port c next => exact .inl (rests rfl rfl)
      | enter e next => exact .inl (rests rfl rfl)
  | entering e below =>
      cases e with
      | generate s =>
          obtain ⟨memory, runs⟩ := nextWaiting_outside Workspace.outside_memory ws s below
          exact .inl (rests memory runs)
      | generateModule s m =>
          obtain ⟨memory, runs⟩ :=
            generateModule_outside (P := P) Workspace.outside_memory ws s m below
          exact .inl (rests memory runs)
      | callFactory f c args => exact .inl (callFactory_leavesPlaces P ws f c args below)
  | answering answer below =>
      cases below with
      | session next => exact .inl (rests rfl rfl)
      | generator run next below => exact .inl (rests rfl rfl)
      | producer run next below => exact .inl (rests rfl rfl)
      | worklist s below => cases answer <;> exact .inl (rests rfl rfl)

/-- What is kept at a place of which no producer is running stays there. -/
theorem kept_iterate (kept : M.workspace.kept? place = some m)
    (idle : place ∉ M.control.productions) (n : Nat) :
    ((step P)^[n] M).workspace.kept? place = some m ∧
      place ∉ ((step P)^[n] M).control.productions := by
  induction n with
  | zero => exact ⟨kept, idle⟩
  | succ n ih =>
      rw [Function.iterate_succ_apply']
      obtain ⟨kept, idle⟩ := ih
      generalize (step P)^[n] M = N at kept idle
      rcases step_places P N with leaves | ⟨run, m', below, keeps⟩
      · refine ⟨(leaves.steady.kept place).trans kept, fun running => ?_⟩
        rcases leaves.free place running with running | free
        · exact idle running
        · rw [kept] at free
          cases free
      · rw [keeps.last] at idle
        obtain ⟨other, idle⟩ := not_or.mp (List.mem_cons.not.mp idle)
        refine ⟨(keeps.takes.others place other).trans kept, ?_⟩
        rw [keeps.answers]
        exact idle

/-- A module that is made while no other producer of its place is running is kept for good, and
the producer never runs for this place again. -/
theorem Keeps.forever {below : Stack U ρ .production} (keeps : Keeps P place m below M)
    (alone : place ∉ below.productions) (n : Nat) :
    ((step P)^[n + 1] M).workspace.kept? place = some m ∧
      place ∉ ((step P)^[n + 1] M).control.productions := by
  rw [Function.iterate_succ_apply]
  refine kept_iterate keeps.takes.kept ?_ n
  rw [keeps.answers]
  exact alone

/-- A call whose module is kept is answered with it, and nothing changes. -/
theorem step_of_kept {f : FactoryId} {c : CacheId} {args : Args} {below : Stack U ρ .production}
    (entering : M.control = .entering (.callFactory f c args) below)
    {x : Factory U.ProducerCode} (hf : M.workspace.factory? f = some x) {bound : BoundArgs}
    (hb : x.signature.bind args = .ok bound) {key : Attr} (hk : bound.canonical = .ok key)
    (kept : M.workspace.kept? { factory := f, cache := c, key } = some m) :
    step P M = ⟨M.workspace, .answering (a := .production) (.ok m) below⟩ := by
  obtain ⟨ws, control⟩ := M
  cases entering
  obtain ⟨cache, hc, found⟩ := Option.bind_eq_some_iff.mp kept
  have found : cache.get? (f, key) = some m := found
  simp only [step, start, Workspace.beginProduction_eq hf hc hb hk, Workspace.lookupUnder, found]

/-- Once a module was made while no other producer of its place was running, each later call that
goes by this place returns it. -/
theorem Keeps.same_module {below : Stack U ρ .production} (keeps : Keeps P place m below M)
    (alone : place ∉ below.productions) {n : Nat} {args : Args} {st : Stack U ρ .production}
    (entering : ((step P)^[n + 1] M).control =
      .entering (.callFactory place.factory place.cache args) st)
    {x : Factory U.ProducerCode}
    (hf : ((step P)^[n + 1] M).workspace.factory? place.factory = some x) {bound : BoundArgs}
    (hb : x.signature.bind args = .ok bound) (hk : bound.canonical = .ok place.key) :
    (step P)^[n + 2] M =
      ⟨((step P)^[n + 1] M).workspace, .answering (a := .production) (.ok m) st⟩ := by
  rw [Function.iterate_succ_apply']
  exact step_of_kept entering hf hb hk (keeps.forever alone n).1

end Machine

/-! A producer that calls its own factory, with the parameters that it was called with. -/
namespace Sample

/-- Declares `name`. -/
def declaring (name : Ident) : Script code ProducerResult :=
  .call (.declare (decl name false)) fun m => .done m

/-- When it runs for the first time, the producer has `Leaf` made by another call of its factory,
and then makes `Top`. -/
def reentrant : Program code where
  generator _ := leaf
  producer _ _ := .call .snapshot fun seen =>
    match seen with
    | .ok ws =>
      if ws.state = (0 : Nat) then
        .call (.setState (1 : Nat)) fun _ =>
          .enter (.callFactory ⟨0⟩ ⟨0⟩ {}) fun _ => declaring "Top"
      else declaring "Leaf"
    | .error e => .done (.error e)

def calling : Script code Unit :=
  .call .newCache fun _ =>
    .call (.newFactory "make" ⟨[]⟩ () .unknown) fun _ =>
      .enter (.callFactory ⟨0⟩ ⟨0⟩ {}) fun _ => .done ()

def callingAfter (n : Nat) : Machine code Unit :=
  (Machine.step reentrant)^[n] (Machine.initial (0 : Nat) calling)

/-- The place of a call without arguments. -/
def nullary : ProducerRun := { factory := ⟨0⟩, cache := ⟨0⟩, key := .dict [] }

/-- The module that the inner call returns is replaced by that of the outer one. -/
theorem replaced_by_outer :
    (callingAfter 11).workspace.kept? nullary = some ⟨0⟩ ∧
      (callingAfter 11).control.productions = [nullary] ∧
      (callingAfter 14).workspace.kept? nullary = some ⟨1⟩ := by
  decide +kernel

end Sample

end Hardware
