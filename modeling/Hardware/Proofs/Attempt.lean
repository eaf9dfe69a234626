import Hardware.Proofs.Start

/-!
A generation that fails is rolled back. For as long as the attempt lasts, whatever happens
to the system happens above the scopes that were there before, and changes only operations
of modules that were not generated then.
-/
namespace Hardware

variable {U : UserCode} {ρ : Type}

namespace System

variable {old sys sys' : System} {ws ws' : Workspace U} {s : SystemId}

/-- The operation `q` is as it was, and its module is generated only if it was before. -/
def Untouched (old sys : System) (q : Ident) (op : ModuleOp) : Prop :=
  sys.design.findModule? q = some op ∧
    ∀ n, sys.symbolOf? n = some q → sys.isGenerated n = true → old.isGenerated n = true

/-- The operation `q` has got a body, and its module has been generated since. -/
def Rebuilt (old sys : System) (q : Ident) (op : ModuleOp) : Prop :=
  op.kind = .real none ∧ ∃ n b, sys.symbolOf? n = some q ∧ old.isGenerated n = false ∧
    sys.isGenerated n = true ∧ sys.design.findModule? q = some (op.withBody (some b))

/-- What has become of the system `old` while generators ran on top of its scopes. -/
structure During (old sys : System) : Prop where
  scopes : ∃ inner, sys.running.scopes = inner ++ old.running.scopes ∧
    ∀ c ∈ inner, ∃ n, sys.symbolOf? n = some c.site.ip.owner ∧ old.isGenerated n = false
  kept : ∀ n, old.isGenerated n = true → sys.isGenerated n = true
  ops : ∀ q op, old.design.findModule? q = some op → old.Untouched sys q op ∨ old.Rebuilt sys q op

theorem During.running_eq (d : old.During sys)
    (depth : sys.running.scopes.length = old.running.scopes.length) :
    sys.running = old.running := by
  obtain ⟨inner, scopes, -⟩ := d.scopes
  have none : inner = [] := by
    rw [scopes, List.length_append] at depth
    exact List.length_eq_zero_iff.mp (by omega)
  rw [none, List.nil_append] at scopes
  exact congrArg ScopeStack.mk scopes

/-- The module of an inner scope was rebuilt, if it had an operation before. -/
theorem Rebuilt.of_running {q : Ident} {op : ModuleOp} {n : ModuleId}
    (hn : sys.symbolOf? n = some q) (gen : sys.isGenerated n = true)
    (new : old.isGenerated n = false) (known : old.Untouched sys q op ∨ old.Rebuilt sys q op) :
    old.Rebuilt sys q op := by
  rcases known with ⟨-, same⟩ | rebuilt
  · rw [same n hn gen] at new
    cases new
  · exact rebuilt

theorem Untouched.keeps (h : sys.Sound ws) {p : Permit} (k : sys.Keeps p s sys') {q : Ident}
    {op : ModuleOp} (u : old.Untouched sys q op)
    (found : sys'.design.findModule? q = some op) : old.Untouched sys' q op := by
  refine ⟨found, fun n hn gen => ?_⟩
  rw [k.isGenerated] at gen
  obtain ⟨-, sym, -, -, hsym, -⟩ := h.generated n gen
  have same := k.symbols n sym hsym
  rw [hn] at same
  cases same
  exact u.2 n hsym gen

theorem Rebuilt.keeps {p : Permit} (k : sys.Keeps p s sys') {q : Ident} {op : ModuleOp}
    (r : old.Rebuilt sys q op) : old.Rebuilt sys' q op := by
  obtain ⟨hk, n, b, hn, new, gen, found⟩ := r
  have gen' := (k.isGenerated n).trans gen
  rcases k.ops q _ found with same | ⟨-, b', same⟩
  · exact ⟨hk, n, b, k.symbols n q hn, new, gen', same⟩
  · rw [ModuleOp.withBody_withBody] at same
    exact ⟨hk, n, b', k.symbols n q hn, new, gen', same⟩

theorem During.refl (sys : System) : sys.During sys where
  scopes := ⟨[], rfl, fun _ h => absurd h List.not_mem_nil⟩
  kept _ gen := gen
  ops _ _ h := .inl ⟨h, fun _ _ gen => gen⟩

theorem During.keeps (d : old.During sys) (h : sys.Sound ws) {p : Permit} (k : sys.Keeps p s sys')
    (inside : old.running.scopes.length < sys.running.scopes.length) : old.During sys' := by
  obtain ⟨inner, scopes, fresh⟩ := d.scopes
  cases inner with
  | nil =>
      rw [scopes] at inside
      exact absurd inside (Nat.lt_irrefl _)
  | cons c inner =>
      have tail := k.outer
      have sites := k.sites
      rw [scopes] at tail sites
      refine ⟨?_, fun n gen => (k.isGenerated n).trans (d.kept n gen), fun q op hop => ?_⟩
      · cases htop : sys'.running.scopes with
        | nil =>
            rw [htop] at sites
            cases sites
        | cons c' rest =>
            rw [htop] at tail sites
            obtain ⟨site, -⟩ := List.cons.inj sites
            refine ⟨c' :: inner, by rw [List.tail_cons] at tail; rw [tail]; rfl, fun x hx => ?_⟩
            rcases List.mem_cons.mp hx with rfl | hx
            · obtain ⟨n, hn, new⟩ := fresh c (by simp)
              exact ⟨n, by rw [site]; exact k.symbols n _ hn, new⟩
            · obtain ⟨n, hn, new⟩ := fresh x (by simp [hx])
              exact ⟨n, k.symbols n _ hn, new⟩
      · rcases d.ops q op hop with untouched | rebuilt
        · rcases k.ops q op untouched.1 with same | ⟨top, -⟩
          · exact .inl (untouched.keeps h k same)
          · -- The operation at the top belongs to an inner scope, so it was rebuilt.
            have owner : c.site.ip.owner = q := by
              simpa [owners, scopes] using top
            obtain ⟨n, hn, new⟩ := fresh c (by simp)
            have gen : sys.isGenerated n = true := by
              obtain ⟨n', hn', gen⟩ := h.owned c.site.ip.owner (by simp [owners, scopes])
              rwa [h.injective n' n _ hn' hn] at gen
            rw [owner] at hn
            exact .inr ((Rebuilt.of_running hn gen new (.inl untouched)).keeps k)
        · exact .inr (rebuilt.keeps k)

/-- The innermost scope belongs to a module that was not generated before. -/
theorem During.top (d : old.During sys) (h : sys.Sound ws) {m : ModuleId}
    {scope : Scope GeneratorSite} {outer : List (Scope GeneratorSite)}
    (inside : old.running.scopes.length < sys.running.scopes.length)
    (top : sys.running.scopes = scope :: outer)
    (hm : sys.symbolOf? m = some scope.site.ip.owner) :
    old.isGenerated m = false ∧ sys.isGenerated m = true ∧ ∃ inner,
      outer = inner ++ old.running.scopes ∧
        ∀ c ∈ inner, ∃ n, sys.symbolOf? n = some c.site.ip.owner ∧ old.isGenerated n = false := by
  obtain ⟨inner, scopes, fresh⟩ := d.scopes
  cases inner with
  | nil =>
      rw [scopes] at inside
      exact absurd inside (Nat.lt_irrefl _)
  | cons c inner =>
      rw [top] at scopes
      obtain ⟨rfl, rest⟩ := List.cons.inj scopes
      obtain ⟨n, hn, new⟩ := fresh scope (by simp)
      obtain rfl := h.injective n m _ hn hm
      obtain ⟨n', hn', gen⟩ := h.owned scope.site.ip.owner (by simp [owners, top])
      obtain rfl := h.injective n' n _ hn' hn
      exact ⟨new, gen, inner, rest, fun c hc => fresh c (by simp [hc])⟩

theorem During.opened (d : old.During sys) {m : ModuleId} {site : GeneratorSite} {mop : ModuleOp}
    (idle : sys.isGenerated m = false) (hm : sys.symbolOf? m = some site.ip.owner)
    (only : ∀ n, sys.symbolOf? n = some site.ip.owner → n = m)
    (hop : sys.design.findModule? site.ip.owner = some mop) (hk : mop.kind = .real none)
    (args : List Value) : old.During (sys.opened m site args) := by
  obtain ⟨inner, scopes, fresh⟩ := d.scopes
  have new : old.isGenerated m = false := by
    cases hg : old.isGenerated m with
    | false => rfl
    | true => rw [d.kept m hg] at idle; cases idle
  refine ⟨⟨{ site } :: inner, ?_, fun c hc => ?_⟩, fun n gen => ?_, fun q op hq => ?_⟩
  · simp [System.opened, ScopeStack.enter, scopes]
  · rcases List.mem_cons.mp hc with rfl | hc
    · exact ⟨m, hm, new⟩
    · exact fresh c hc
  · simp [d.kept n gen]
  · have find : (sys.opened m site args).design.findModule? q = if q = site.ip.owner
        then (sys.design.findModule? q).map fun o => o.withBody (some { args })
        else sys.design.findModule? q := Design.findModule?_setBody _ _ q _
    by_cases own : q = site.ip.owner
    · subst own
      rcases d.ops _ op hq with ⟨found, -⟩ | ⟨-, n, b, hn, -, gen, -⟩
      · rw [hop] at found
        cases found
        exact .inr ⟨hk, m, { args }, hm, new, by simp, by rw [find, if_pos rfl, hop]; rfl⟩
      · rw [only n hn, idle] at gen
        cases gen
    · rw [if_neg own] at find
      rcases d.ops q op hq with ⟨found, same⟩ | ⟨kind, n, b, hn, before, gen, found⟩
      · refine .inl ⟨find.trans found, fun n hn gen => ?_⟩
        have other : n ≠ m := by
          rintro rfl
          have e := hn.symm.trans hm
          exact own (Option.some.inj e)
        exact same n hn (by simpa [other] using gen)
      · exact .inr ⟨kind, n, b, hn, before, by simp [gen], find.trans found⟩

theorem During.closed (d : old.During sys) (h : sys.Sound ws) {m : ModuleId}
    {scope : Scope GeneratorSite} {outer : List (Scope GeneratorSite)} {b : Block}
    {o : Operation} (P : sys.Pushes scope outer b o)
    (hm : sys.symbolOf? m = some scope.site.ip.owner)
    (inside : old.running.scopes.length < sys.running.scopes.length) :
    old.During (sys.closed scope.site.ip.owner b o) := by
  obtain ⟨new, gen, inner, rest, fresh⟩ := d.top h inside P.top hm
  refine ⟨⟨inner, ?_, fresh⟩, d.kept, fun q op hq => ?_⟩
  · simp [System.closed, ScopeStack.leave, P.top, rest]
  · have find : (sys.closed scope.site.ip.owner b o).design.findModule? q =
        if q = scope.site.ip.owner
        then (sys.design.findModule? q).map fun x => x.withBody (some (b.push o))
        else sys.design.findModule? q := Design.findModule?_push _ _ q _ _
    by_cases own : q = scope.site.ip.owner
    · subst own
      obtain ⟨kind, n, b', hn, before, gen', found⟩ :=
        Rebuilt.of_running hm gen new (d.ops _ op hq)
      refine .inr ⟨kind, n, b.push o, hn, before, gen', ?_⟩
      rw [find, if_pos rfl, found, Option.map_some, ModuleOp.withBody_withBody]
    · rw [if_neg own] at find
      rcases d.ops q op hq with ⟨found, same⟩ | ⟨kind, n, b', hn, before, gen', found⟩
      · exact .inl ⟨find.trans found, same⟩
      · exact .inr ⟨kind, n, b', hn, before, gen', find.trans found⟩

theorem During.undone (d : old.During sys) (h : sys.Sound ws) {m : ModuleId}
    {scope : Scope GeneratorSite} {outer : List (Scope GeneratorSite)}
    (top : sys.running.scopes = scope :: outer) (hm : sys.symbolOf? m = some scope.site.ip.owner)
    (kept : List InstanceId) (inside : old.running.scopes.length < sys.running.scopes.length) :
    old.During (sys.undone m scope.site.ip.owner kept) := by
  obtain ⟨new, gen, inner, rest, fresh⟩ := d.top h inside top hm
  refine ⟨⟨inner, ?_, fresh⟩, fun n hn => ?_, fun q op hq => ?_⟩
  · simp [System.undone, ScopeStack.leave, top, rest]
  · have other : n ≠ m := by
      rintro rfl
      rw [new] at hn
      cases hn
    simp [d.kept n hn, other]
  · have find : (sys.undone m scope.site.ip.owner kept).design.findModule? q =
        if q = scope.site.ip.owner then (sys.design.findModule? q).map fun x => x.withBody none
        else sys.design.findModule? q := Design.findModule?_setBody _ _ q _
    by_cases own : q = scope.site.ip.owner
    · subst own
      obtain ⟨kind, n, b', hn, before, gen', found⟩ :=
        Rebuilt.of_running hm gen new (d.ops _ op hq)
      refine .inl ⟨?_, fun n' hn' gen'' => ?_⟩
      · rw [find, if_pos rfl, found, Option.map_some, ModuleOp.withBody_withBody,
          ModuleOp.withBody_of_kind kind]
      · rw [h.injective n' m _ hn' hm] at gen''
        simp at gen''
    · rw [if_neg own] at find
      rcases d.ops q op hq with ⟨found, same⟩ | ⟨kind, n, b', hn, before, gen', found⟩
      · refine .inl ⟨find.trans found, fun n hn gen'' => ?_⟩
        rw [isGenerated_undone, Bool.and_eq_true] at gen''
        exact same n hn gen''.1
      · have other : n ≠ m := by
          rintro rfl
          have e := hn.symm.trans hm
          exact own (Option.some.inj e)
        exact .inr ⟨kind, n, b', hn, before, by simp [gen', other], find.trans found⟩

theorem During.created (d : old.During sys) {m : ModuleId} (k : sys.Keeps (.creating s m) s sys')
    (running : sys'.running = sys.running)
    (ops : ∀ q op, sys.design.findModule? q = some op → sys'.design.findModule? q = some op)
    (idle : sys'.isGenerated m = false) : old.During sys' := by
  obtain ⟨inner, scopes, fresh⟩ := d.scopes
  refine ⟨⟨inner, running ▸ scopes, fun c hc => ?_⟩,
    fun n gen => (k.isGenerated n).trans (d.kept n gen), fun q op hop => ?_⟩
  · obtain ⟨n, hn, new⟩ := fresh c hc
    exact ⟨n, k.symbols n _ hn, new⟩
  · rcases d.ops q op hop with ⟨found, same⟩ | rebuilt
    · refine .inl ⟨ops q op found, fun n hn gen => ?_⟩
      rcases k.made n q hn with known | ⟨-, rfl⟩
      · exact same n known ((k.isGenerated n).symm.trans gen)
      · rw [idle] at gen
        cases gen
    · exact .inr (rebuilt.keeps k)

theorem During.started (d : old.During sys) {p : Permit} {m : ModuleId} {targets : List ModuleId}
    (t : sys.Tick p s targets sys' (m :: targets)) : old.During sys' := by
  obtain ⟨mid, site, args, op, k, running, ops, idle, hm, only, hop, hk, rfl⟩ := t.opened_of_cons
  exact (d.created k running ops idle).opened idle hm only hop hk args

/-- One move keeps to what is above the old scopes, as long as something is. -/
theorem During.tick (d : old.During sys) (h : sys.Sound ws) {p : Permit}
    {targets targets' : List ModuleId} (t : sys.Tick p s targets sys' targets')
    (inside : old.running.scopes.length < sys.running.scopes.length) : old.During sys' := by
  cases t with
  | keeps k => exact d.keeps h k inside
  | pop drained first => exact ⟨d.scopes, d.kept, d.ops⟩
  | opened args k running ops idle hm only hop hk =>
      exact (d.created k running ops idle).opened idle hm only hop hk args
  | closed last P hm => exact d.closed h P hm inside
  | undone last top hm kept => exact d.undone h top hm kept inside

end System

/-- On this stack, above `below`, a generator of `m` in `s` is waiting. -/
inductive Stack.Above (s : SystemId) (m : ModuleId) (below : Stack U ρ .generation) :
    {a : Awaited} → Stack U ρ a → Prop
  | here {a : Awaited} {run : GeneratorRun}
      (next : Except Error a.Result → Script U GeneratorResult) (system : run.system = s)
      (target : run.target = m) : Above s m below (.generator run next below)
  | generator {a : Awaited} (run : GeneratorRun)
      (next : Except Error a.Result → Script U GeneratorResult) {st : Stack U ρ .generation}
      (h : Above s m below st) : Above s m below (.generator run next st)
  | producer {a : Awaited} (run : ProducerRun)
      (next : Except Error a.Result → Script U ProducerResult) {st : Stack U ρ .production}
      (h : Above s m below st) : Above s m below (.producer run next st)
  | worklist (t : SystemId) {st : Stack U ρ .generation} (h : Above s m below st) :
      Above s m below (.worklist t st)

/-- A generator of `m` in `s` is running on top of `below`. -/
def Control.Above (s : SystemId) (m : ModuleId) (below : Stack U ρ .generation) :
    Control U ρ → Prop
  | .halted _ => False
  | .session _ => False
  | .generator run script st =>
    Stack.Above s m below (.generator (a := .generation) run (fun _ => script) st)
  | .producer run script st =>
    Stack.Above s m below (.producer (a := .production) run (fun _ => script) st)
  | .entering _ st => Stack.Above s m below st
  | .answering _ st => Stack.Above s m below st

namespace Stack

variable {s : SystemId} {m : ModuleId} {below : Stack U ρ .generation} {a : Awaited}

theorem Above.activations {st : Stack U ρ a} (h : Stack.Above s m below st) :
    ∃ above run, st.activations = above ++ run :: below.activations ∧ run.system = s ∧
      run.target = m := by
  induction h with
  | here next system target => exact ⟨[], _, rfl, system, target⟩
  | generator run next h ih =>
      obtain ⟨above, r, e, rest⟩ := ih
      exact ⟨run :: above, r, by rw [Stack.activations, e]; rfl, rest⟩
  | producer run next h ih => exact ih
  | worklist t h ih => exact ih

theorem not_above_self : ¬ Stack.Above s m below below := by
  intro h
  obtain ⟨inner, run, e, -⟩ := h.activations
  have size := congrArg List.length e
  simp only [List.length_append, List.length_cons] at size
  omega

/-- What happens to the code of a generator does not matter to the stack. -/
theorem Above.generator_congr {b : Awaited} {run run' : GeneratorRun}
    {next : Except Error a.Result → Script U GeneratorResult}
    (next' : Except Error b.Result → Script U GeneratorResult) {st : Stack U ρ .generation}
    (h : Stack.Above s m below (.generator run next st)) (system : run'.system = run.system)
    (target : run'.target = run.target) : Stack.Above s m below (.generator run' next' st) := by
  cases h with
  | here _ here there => exact .here next' (system.trans here) (target.trans there)
  | generator _ _ h => exact .generator run' next' h

theorem Above.producer_congr {b : Awaited} {run : ProducerRun}
    {next : Except Error a.Result → Script U ProducerResult}
    (next' : Except Error b.Result → Script U ProducerResult) {st : Stack U ρ .production}
    (h : Stack.Above s m below (.producer run next st)) :
    Stack.Above s m below (.producer run next' st) := by
  cases h with
  | producer _ _ h => exact .producer run next' h

end Stack

theorem Control.Above.activations {c : Control U ρ} {s : SystemId} {m : ModuleId}
    {below : Stack U ρ .generation} (h : c.Above s m below) :
    ∃ above run, c.activations = above ++ run :: below.activations ∧ run.system = s ∧
      run.target = m := by
  cases c with
  | halted result => exact h.elim
  | session script => exact h.elim
  | generator run script st => exact Stack.Above.activations h
  | producer run script st =>
      cases h with
      | producer _ _ h => exact h.activations
  | entering e st => exact Stack.Above.activations h
  | answering answer st => exact Stack.Above.activations h

namespace Machine

variable {P : Program U} {M : Machine U ρ} {s : SystemId} {m : ModuleId}
  {below : Stack U ρ .generation}

theorem nextWaiting_above (ws : Workspace U) (t : SystemId) {st : Stack U ρ .generation}
    (h : Stack.Above s m below st) : (nextWaiting ws t st).control.Above s m below := by
  unfold nextWaiting
  split
  · exact h
  · split
    · exact h
    · simp only
      split
      · exact h
      · exact .worklist t h

theorem start_above (ws : Workspace U) {a : Awaited} (e : Entry a) {st : Stack U ρ a}
    (h : Stack.Above s m below st) : (start P ws e st).control.Above s m below := by
  cases e with
  | generate t => exact nextWaiting_above ws t h
  | generateModule t n =>
      cases hb : Workspace.beginGeneration t n ws with
      | ok r ws' =>
          rw [start_begins hb]
          exact .generator _ _ h
      | error e ws' =>
          rw [start_refused hb]
          exact h
  | callFactory f c args =>
      cases hb : Workspace.beginProduction f c args ws with
      | ok r ws' =>
          cases r with
          | hit n =>
              simp only [start, hb]
              exact h
          | miss run code bound =>
              simp only [start, hb]
              exact .producer _ _ h
      | error e ws' =>
          simp only [start, hb]
          exact h

theorem step_above (sound : M.workspace.Sound) (h : M.control.Above s m below) :
    (step P M).control.Above s m below ∨ ∃ run result, M.control =
      .generator run (.done result) below ∧ run.system = s ∧ run.target = m := by
  obtain ⟨ws, control⟩ := M
  cases control with
  | halted result => exact h.elim
  | session script => exact h.elim
  | generator run script st =>
      cases script with
      | done r =>
          cases h with
          | here next system target => exact .inr ⟨run, r, rfl, system, target⟩
          | generator _ _ h => exact .inl h
      | call c next => exact .inl (h.generator_congr _ rfl rfl)
      | port c next =>
          have sound' : ((run.ports, ws) : PortState U).2.Sound := sound
          have ends := (c.perform_ends sound' .any).imp (fun _ _ ok => ok.1) fun _ _ no => no
          have stepped := ends.outcome
          exact .inl (h.generator_congr _ stepped.same.system stepped.same.target)
      | enter e next => exact .inl (h.generator_congr _ rfl rfl)
  | producer run script st =>
      cases script with
      | done r =>
          cases h with
          | producer _ _ h => exact .inl h
      | call c next => exact .inl (h.producer_congr _)
      | port c next => exact .inl (h.producer_congr _)
      | enter e next => exact .inl (h.producer_congr _)
  | entering e st => exact .inl (start_above ws e h)
  | answering answer st =>
      cases h with
      | here next system target => exact .inl (.here _ system target)
      | generator run next h => exact .inl (.generator run _ h)
      | producer run next h => exact .inl (.producer run _ h)
      | worklist t h => cases answer <;> exact .inl h

/-- What waits on `below` is answered after `n` steps, and not before. -/
def ReturnsAfter (P : Program U) (below : Stack U ρ .generation) (answer : Except Error Unit)
    (n : Nat) (M : Machine U ρ) : Prop :=
  ((step P)^[n] M).control = .answering (a := .generation) answer below ∧
    ∀ k < n, ∀ other, ((step P)^[k] M).control ≠ .answering (a := .generation) other below

theorem scopes_lt {ws : Workspace U} {old sys : System} (h : ws.Hosts below.activations)
    (h' : M.workspace.Hosts M.control.activations) (hs : ws.system? s = some old)
    (hs' : M.workspace.system? s = some sys) (above : M.control.Above s m below) :
    old.running.scopes.length < sys.running.scopes.length := by
  obtain ⟨inner, run, runs, rfl, -⟩ := above.activations
  have owners := congrArg List.length (h.owners _ old hs)
  have owners' := congrArg List.length (h'.owners _ sys hs')
  rw [runs] at owners'
  simp only [System.owners, Workspace.ownersIn, List.length_map, List.filter_append,
    List.length_append, List.filter_cons, decide_true, if_true, List.length_cons] at owners owners'
  omega

end Machine

end Hardware
