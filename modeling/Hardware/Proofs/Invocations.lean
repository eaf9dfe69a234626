import Hardware.Proofs.Caches

/-!
Calls of factories, from the step in which they are made to the one in which they are answered.
Producers are on the stack in the order in which they began, so a call is answered when as many of
them run as before. Until then its own producer stays where it is, and what ends above it was
begun by a nested call.
-/
namespace Hardware

variable {U : UserCode} {ρ : Type}

namespace Workspace

end Workspace

namespace Machine

variable {P : Program U} {M : Machine U ρ} {place : ProducerRun} {m : ModuleId} {n : Nat}

/-- The call that is made in `M` is answered after `n + 1` steps: the first time that no more
producers run than before. -/
structure AnsweredAfter (P : Program U) (answer : Except Error ModuleId) (n : Nat)
    (M : Machine U ρ) : Prop where
  pending : ∀ k < n, M.control.productions.length <
    ((step P)^[k + 1] M).control.productions.length
  answers : ∃ below, ((step P)^[n + 1] M).control = .answering (a := .production) answer below ∧
    below.productions.length = M.control.productions.length

/-- A call that goes by `place` is made in `M`, and returns `m` after `n + 1` steps. -/
structure Succeeds (P : Program U) (place : ProducerRun) (m : ModuleId) (n : Nat)
    (M : Machine U ρ) : Prop where
  makes : ∃ f c args below, M.control = .entering (.callFactory f c args) below ∧
    M.workspace.place? f c args = some place
  answered : AnsweredAfter P (.ok m) n M

theorem step_productions (P : Program U) (M : Machine U ρ) :
    (step P M).control.productions = M.control.productions ∨
    (∃ f c args place, Begins P f c args place M ∧
      (step P M).control.productions = place :: M.control.productions) ∨
    ∃ run, M.control.productions = run :: (step P M).control.productions ∧
      ∀ m below, (step P M).control = .answering (a := .production) (.ok m) below →
        Keeps P run m below M := by
  rcases step_places P M with leaves | ⟨run, m, below, keeps⟩
  · rcases leaves.runs with same | begins | ⟨run, e, below, ended, answers⟩
    · exact .inl same
    · exact .inr (.inl begins)
    · refine .inr (.inr ⟨run, by rw [answers]; exact ended, fun m below' ok => ?_⟩)
      rw [answers] at ok
      cases ok
  · refine .inr (.inr ⟨run, by rw [keeps.answers, keeps.last]; rfl, fun m' below' ok => ?_⟩)
    have same := keeps.answers.symm.trans ok
    cases same
    exact keeps

theorem step_handles (P : Program U) (M : Machine U ρ) :
    M.workspace.factories <+: (step P M).workspace.factories ∧
      M.workspace.caches.length ≤ (step P M).workspace.caches.length ∧
      M.workspace.parameters.length ≤ (step P M).workspace.parameters.length := by
  rcases step_places P M with leaves | ⟨run, m, below, keeps⟩
  · exact ⟨leaves.steady.factories, leaves.steady.caches, leaves.steady.parameters.length_le⟩
  · have takes := keeps.takes
    refine ⟨takes.factories ▸ List.prefix_rfl, Nat.le_of_eq takes.caches.symm, ?_⟩
    rw [takes.parameters, List.length_set]

/-- A producer stays where it is on the stack until as many run as before it. -/
theorem suffix_step {run : ProducerRun} {outer : List ProducerRun}
    (stands : run :: outer <:+ M.control.productions)
    (deep : outer.length < (step P M).control.productions.length) :
    run :: outer <:+ (step P M).control.productions := by
  rcases step_productions P M with same | ⟨f, c, args, new, -, more⟩ | ⟨last, ended, -⟩
  · rwa [same]
  · rw [more]
    exact stands.trans (List.suffix_cons _ _)
  · rw [ended] at stands
    rcases List.suffix_cons_iff.mp stands with own | inner
    · rw [(List.cons.inj own).2] at deep
      exact absurd deep (Nat.lt_irrefl _)
    · exact inner

theorem Begins.stands {f : FactoryId} {c : CacheId} {args : Args}
    (begins : Begins P f c args place M)
    (pending : ∀ k < n, M.control.productions.length <
      ((step P)^[k + 1] M).control.productions.length) {k : Nat} (lt : k < n) :
    place :: M.control.productions <:+ ((step P)^[k + 1] M).control.productions := by
  induction k with
  | zero =>
      obtain ⟨x, bound, below, -, -, entering, stepped⟩ := begins.starts
      rw [Function.iterate_one, stepped, entering]
      exact List.suffix_rfl
  | succ k ih =>
      have deep := pending (k + 1) lt
      rw [Function.iterate_succ_apply'] at deep ⊢
      exact suffix_step (ih (Nat.lt_of_succ_lt lt)) deep

/-- A call that is answered when its producer is the last one left is answered by it. -/
theorem keeps_of_answers {outer : List ProducerRun} {below : Stack U ρ .production}
    (stands : place :: outer <:+ M.control.productions)
    (answers : (step P M).control = .answering (a := .production) (.ok m) below)
    (size : below.productions.length = outer.length) : Keeps P place m below M := by
  have left : (step P M).control.productions = below.productions := by rw [answers]; rfl
  have longer := stands.length_le
  rw [List.length_cons] at longer
  rcases step_productions P M with same | ⟨f, c, args, new, -, more⟩ | ⟨run, ended, keeps⟩
  · rw [← same, left] at longer
    omega
  · have more := congrArg List.length more
    rw [left, List.length_cons] at more
    omega
  · rw [ended, left] at stands
    have same := stands.eq_of_length (by simp [size])
    rw [(List.cons.inj same).1]
    exact keeps m below answers

theorem AnsweredAfter.at_once {answer answer' : Except Error ModuleId}
    {below : Stack U ρ .production} (h : AnsweredAfter P answer n M)
    (depth : M.control.productions = below.productions)
    (stepped : step P M = ⟨M.workspace, .answering (a := .production) answer' below⟩) :
    n = 0 ∧ answer' = answer := by
  cases n with
  | zero =>
      obtain ⟨last, answers, -⟩ := h.answers
      rw [Function.iterate_one, stepped] at answers
      cases answers
      exact ⟨rfl, rfl⟩
  | succ n =>
      have deep := h.pending 0 (Nat.succ_pos n)
      rw [Function.iterate_one, stepped, depth] at deep
      exact absurd deep (Nat.lt_irrefl _)

theorem AnsweredAfter.unique {answer answer' : Except Error ModuleId} {n' : Nat}
    (h : AnsweredAfter P answer n M) (h' : AnsweredAfter P answer' n' M) :
    n = n' ∧ answer = answer' := by
  obtain ⟨below, answers, size⟩ := h.answers
  obtain ⟨below', answers', size'⟩ := h'.answers
  rcases Nat.lt_trichotomy n n' with lt | rfl | gt
  · have deep := h'.pending n lt
    rw [answers] at deep
    exact absurd size (Nat.ne_of_gt deep)
  · cases answers.symm.trans answers'
    exact ⟨rfl, rfl⟩
  · have deep := h.pending n' gt
    rw [answers'] at deep
    exact absurd size' (Nat.ne_of_gt deep)

theorem Succeeds.cases (h : Succeeds P place m n M) :
    (n = 0 ∧ M.workspace.kept? place = some m) ∨
      ∃ below, Keeps P place m below ((step P)^[n] M) := by
  obtain ⟨⟨f, c, args, below, entering, goes⟩, answered⟩ := h
  have depth : M.control.productions = below.productions := by rw [entering]; rfl
  rcases callFactory_step P entering with ⟨other, m', goes', kept, hit⟩ | ⟨other, begins, -⟩ |
    ⟨e, failed⟩
  · obtain ⟨rfl, same⟩ := answered.at_once depth hit
    cases same
    cases goes.symm.trans goes'
    exact .inl ⟨rfl, kept⟩
  · cases goes.symm.trans begins.goes
    obtain ⟨last, answers, size⟩ := answered.answers
    cases n with
    | zero =>
        obtain ⟨x, bound, below', -, -, -, stepped⟩ := begins.starts
        rw [Function.iterate_one, stepped] at answers
        cases answers
    | succ n =>
        have stands := begins.stands answered.pending (Nat.lt_succ_self n)
        rw [Function.iterate_succ_apply'] at answers
        exact .inr ⟨last, keeps_of_answers stands answers size⟩
  · cases (answered.at_once depth failed).2

/-- The machine when a session has made `n` steps. -/
def trace (P : Program U) (state : U.State) (session : Script U ρ) (n : Nat) : Machine U ρ :=
  (step P)^[n] (initial state session)

variable {state : U.State} {session : Script U ρ}

theorem trace_succ (P : Program U) (state : U.State) (session : Script U ρ) (n : Nat) :
    trace P state session (n + 1) = step P (trace P state session n) :=
  Function.iterate_succ_apply' _ _ _

theorem iterate_trace (P : Program U) (state : U.State) (session : Script U ρ) (k n : Nat) :
    (step P)^[k] (trace P state session n) = trace P state session (k + n) :=
  (Function.iterate_add_apply _ _ _ _).symm

theorem begun_of_running {inner outer : List ProducerRun} {run : ProducerRun}
    (stack : (trace P state session n).control.productions = inner ++ run :: outer) :
    ∃ i < n, (∃ f c args, Begins P f c args run (trace P state session i)) ∧
      (trace P state session i).control.productions = outer ∧
      ∀ k, i < k → k ≤ n → outer.length < (trace P state session k).control.productions.length := by
  induction n generalizing inner with
  | zero => cases inner <;> cases stack
  | succ n ih =>
      have here : outer.length < (trace P state session (n + 1)).control.productions.length := by
        rw [stack, List.length_append, List.length_cons]
        omega
      -- A producer that stood there before the step was begun then, and the call is pending still.
      have before : ∀ inner',
          (trace P state session n).control.productions = inner' ++ run :: outer →
          ∃ i < n + 1, (∃ f c args, Begins P f c args run (trace P state session i)) ∧
            (trace P state session i).control.productions = outer ∧ ∀ k, i < k → k ≤ n + 1 →
              outer.length < (trace P state session k).control.productions.length := by
        intro inner' stack'
        obtain ⟨i, lt, begins, depth, pending⟩ := ih stack'
        refine ⟨i, Nat.lt_succ_of_lt lt, begins, depth, fun k gt le => ?_⟩
        rcases Nat.le_or_eq_of_le_succ le with le | rfl
        · exact pending k gt le
        · exact here
      rw [trace_succ] at stack
      rcases step_productions P (trace P state session n) with
        same | ⟨f, c, args, new, begins, more⟩ | ⟨last, ended, -⟩
      · exact before inner (same ▸ stack)
      · rw [more] at stack
        cases inner with
        | nil =>
            obtain ⟨rfl, same⟩ := List.cons.inj stack
            refine ⟨n, Nat.lt_succ_self n, ⟨f, c, args, begins⟩, same, fun k gt le => ?_⟩
            rw [Nat.le_antisymm le gt]
            exact here
        | cons first inner => exact before inner (List.cons.inj stack).2
      · exact before (last :: inner) (by rw [ended, stack]; rfl)

/-- A producer that ends well answers a call, which was pending since the producer began. -/
theorem Keeps.succeeds {below : Stack U ρ .production}
    (keeps : Keeps P place m below (trace P state session n)) :
    ∃ i < n, Succeeds P place m (n - i) (trace P state session i) ∧ ∀ k, i < k → k ≤ n →
      below.productions.length < (trace P state session k).control.productions.length := by
  have stack : (trace P state session n).control.productions =
      [] ++ place :: below.productions := by
    rw [keeps.last]
    rfl
  obtain ⟨i, lt, ⟨f, c, args, begins⟩, depth, pending⟩ := begun_of_running stack
  obtain ⟨x, bound, below', -, -, entering, -⟩ := begins.starts
  refine ⟨i, lt, ⟨⟨f, c, args, below', entering, begins.goes⟩, ?_, below, ?_, ?_⟩, pending⟩
  · intro k bound
    rw [depth, iterate_trace]
    exact pending _ (by omega) (by omega)
  · rw [iterate_trace, (by omega : n - i + 1 + i = n + 1), trace_succ]
    exact keeps.answers
  · rw [depth]

end Machine

end Hardware
