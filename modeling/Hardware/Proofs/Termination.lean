import Hardware.Proofs.Attempt
import Hardware.Proofs.Declared
import Hardware.Proofs.Traversal
import Hardware.Proofs.Worklist

/-!
Generation terminates. A body makes finitely many calls of its own, so only calls that start other
bodies could go on forever. They cannot be nested without end, since no module has its generator on
the stack twice. Nor can a worklist be drained forever, though it may grow with every generator: the
first failure ends the call, and otherwise each generator finishes a module, which stays so.
-/
namespace Hardware

variable {U : UserCode} {ρ : Type}

/-- How many generators and producers wait on a stack. -/
def Stack.load {a : Awaited} (st : Stack U ρ a) : Nat :=
  st.activations.length + st.productions.length

namespace Machine

variable {P : Program U} {M : Machine U ρ} {s : SystemId} {m : ModuleId}
  {below : Stack U ρ .generation} {modules : Finset ModuleId} {bound : Nat}

/-- What waits on `below` is not answered within `n` steps. -/
def Unanswered (P : Program U) (below : Stack U ρ .generation) (n : Nat) (M : Machine U ρ) : Prop :=
  ∀ k ≤ n, ∀ answer, ((step P)^[k] M).control ≠ .answering (a := .generation) answer below

/-- Until what waits on `below` is answered, only generators of `modules` run, and no more than
`bound` generators and producers at a time. -/
structure Bounded (P : Program U) (below : Stack U ρ .generation) (modules : Finset ModuleId)
    (bound : Nat) (M : Machine U ρ) : Prop where
  reachable : Reachable P M
  targets : ∀ n, Unanswered P below n M →
    ∀ run ∈ ((step P)^[n] M).control.activations, run.target ∈ modules
  load : ∀ n, Unanswered P below n M → ((step P)^[n] M).control.activations.length +
    ((step P)^[n] M).control.productions.length ≤ bound

theorem unanswered_zero
    (now : ∀ answer, M.control ≠ .answering (a := .generation) answer below) :
    Unanswered P below 0 M := by
  intro k le
  rw [Nat.le_zero.mp le]
  exact now

theorem unanswered_succ {n : Nat}
    (now : ∀ answer, M.control ≠ .answering (a := .generation) answer below)
    (later : Unanswered P below n (step P M)) : Unanswered P below (n + 1) M := by
  intro k le
  cases k with
  | zero => exact now
  | succ k =>
      rw [Function.iterate_succ_apply]
      exact later k (Nat.le_of_succ_le_succ le)

theorem Bounded.step (h : Bounded P below modules bound M)
    (now : ∀ answer, M.control ≠ .answering (a := .generation) answer below) :
    Bounded P below modules bound (step P M) where
  reachable := h.reachable.step
  targets n later := by
    rw [← Function.iterate_succ_apply]
    exact h.targets (n + 1) (unanswered_succ now later)
  load n later := by
    rw [← Function.iterate_succ_apply]
    exact h.load (n + 1) (unanswered_succ now later)

/-- The machine comes to meet `goal`, unless what waits on `below` is answered before. -/
inductive Leads (P : Program U) (below : Stack U ρ .generation) (goal : Machine U ρ → Prop) :
    Machine U ρ → Prop
  | here {M : Machine U ρ} (met : goal M) : Leads P below goal M
  | answered {M : Machine U ρ} {answer : Except Error Unit}
      (answers : M.control = .answering (a := .generation) answer below) : Leads P below goal M
  | later {M : Machine U ρ} (next : Leads P below goal (step P M)) : Leads P below goal M

theorem Bounded.leads {goal : Machine U ρ → Prop} (h : Bounded P below modules bound M)
    (next : Bounded P below modules bound (Machine.step P M) →
      Leads P below goal (Machine.step P M)) : Leads P below goal M := by
  by_cases now : ∃ answer, M.control = .answering (a := .generation) answer below
  · obtain ⟨answer, answers⟩ := now
    exact .answered answers
  · exact .later (next (h.step fun answer answers => now ⟨answer, answers⟩))

theorem Leads.bind {goal goal' : Machine U ρ → Prop} (leads : Leads P below goal M)
    (h : Bounded P below modules bound M)
    (next : ∀ n, Bounded P below modules bound ((Machine.step P)^[n] M) →
      goal ((Machine.step P)^[n] M) → Leads P below goal' ((Machine.step P)^[n] M)) :
    Leads P below goal' M := by
  induction leads with
  | here met => exact next 0 h met
  | answered answers => exact .answered answers
  | @later M leads ih =>
      refine h.leads fun h' => ih h' fun n h' met => ?_
      rw [← Function.iterate_succ_apply] at h' met ⊢
      exact next (n + 1) h' met

/-- What waits on `st` is being answered. -/
def Answers {a : Awaited} (st : Stack U ρ a) (M : Machine U ρ) : Prop :=
  ∃ answer, M.control = .answering answer st

/-- What waits on `st` is being told how the generation of `m` went. -/
def Reports (modules : Finset ModuleId) (s : SystemId) (m : ModuleId)
    (st : Stack U ρ .generation) (M : Machine U ρ) : Prop :=
  ∃ answer, M.control = .answering (a := .generation) answer st ∧
    (answer = .ok () → m ∈ modules ∧ M.workspace.Finished st.activations s m)

/-- Every call that lets other bodies run comes to an answer, if there is room for `room` more
bodies on top of those that wait for it. -/
def Returns (P : Program U) (below : Stack U ρ .generation) (modules : Finset ModuleId)
    (bound room : Nat) : Prop :=
  ∀ (a : Awaited) (M : Machine U ρ) (e : Entry a) (st : Stack U ρ a),
    Bounded P below modules bound M → M.control = .entering e st → bound ≤ st.load + room →
      Leads P below (Answers st) M

section Bodies

variable {room : Nat} (returns : Returns (ρ := ρ) P below modules bound room)
include returns

theorem Returns.generator (script : Script U GeneratorResult) (M : Machine U ρ)
    (run : GeneratorRun) (st : Stack U ρ .generation) (h : Bounded P below modules bound M)
    (control : M.control = .generator run script st) (enough : bound ≤ st.load + 1 + room) :
    Leads P below (Reports modules run.system run.target st) M := by
  induction script generalizing M run with
  | done result =>
      have hosts := h.reachable.hosts
      have now : Unanswered P below 0 M := unanswered_zero (by rw [control]; nofun)
      have target : run.target ∈ modules := by
        refine h.targets 0 now run ?_
        change run ∈ M.control.activations
        rw [control]
        exact List.mem_cons_self
      rw [control] at hosts
      rcases h.reachable.ends control with ⟨closes, ok⟩ | ⟨-, e, failed⟩
      · exact .later (.here ⟨_, ok, fun _ => ⟨target, hosts.finished closes⟩⟩)
      · exact .later (.here ⟨_, failed, nofun⟩)
  | call c script ih =>
      obtain ⟨ws, _⟩ := M
      cases control
      exact h.leads fun h' => ih _ _ run h' rfl
  | port c script ih =>
      obtain ⟨ws, _⟩ := M
      cases control
      have sound : ((run.ports, ws) : PortState U).2.Sound := h.reachable.hosts.sound
      have ends := (c.perform_ends sound .any).imp (fun _ _ ok => ok.1) fun _ _ no => no
      have same := ends.outcome.same
      refine h.leads fun h' => ?_
      have leads := ih (c.perform.outcome (run.ports, ws)).1 _
        { run with ports := (c.perform.outcome (run.ports, ws)).2.1 } h' rfl
      generalize c.perform.outcome (run.ports, ws) = after at same leads
      have system : ({ run with ports := after.2.1 } : GeneratorRun).system = run.system :=
        same.system
      have target : ({ run with ports := after.2.1 } : GeneratorRun).target = run.target :=
        same.target
      rwa [system, target] at leads
  | enter e script ih =>
      obtain ⟨ws, _⟩ := M
      cases control
      refine h.leads fun h' => (returns _ _ e (.generator run script st) h' rfl ?_).bind h' ?_
      · simp only [Stack.load, Stack.activations, Stack.productions, List.length_cons] at enough ⊢
        omega
      · rintro n h' ⟨answer, answers⟩
        generalize (Machine.step P)^[n] _ = M' at h' answers
        obtain ⟨ws', _⟩ := M'
        cases answers
        exact h'.leads fun h' => ih answer _ run h' rfl

theorem Returns.producer (script : Script U ProducerResult) (M : Machine U ρ)
    (run : ProducerRun) (st : Stack U ρ .production) (h : Bounded P below modules bound M)
    (control : M.control = .producer run script st) (enough : bound ≤ st.load + 1 + room) :
    Leads P below (Answers st) M := by
  induction script generalizing M with
  | done result =>
      obtain ⟨ws, _⟩ := M
      cases control
      exact .later (.here ⟨_, rfl⟩)
  | call c script ih =>
      obtain ⟨ws, _⟩ := M
      cases control
      exact h.leads fun h' => ih _ _ h' rfl
  | port c script ih =>
      obtain ⟨ws, _⟩ := M
      cases control
      exact h.leads fun h' => ih _ _ h' rfl
  | enter e script ih =>
      obtain ⟨ws, _⟩ := M
      cases control
      refine h.leads fun h' => (returns _ _ e (.producer run script st) h' rfl ?_).bind h' ?_
      · simp only [Stack.load, Stack.activations, Stack.productions, List.length_cons] at enough ⊢
        omega
      · rintro n h' ⟨answer, answers⟩
        generalize (Machine.step P)^[n] _ = M' at h' answers
        obtain ⟨ws', _⟩ := M'
        cases answers
        exact h'.leads fun h' => ih answer _ h' rfl

end Bodies

section Entries

variable {room : Nat} (smaller : ∀ r, room = r + 1 → Returns (ρ := ρ) P below modules bound r)
include smaller

theorem generateModule_leads {st : Stack U ρ .generation} (h : Bounded P below modules bound M)
    (control : M.control = .entering (.generateModule s m) st) (enough : bound ≤ st.load + room) :
    Leads P below (Reports modules s m st) M := by
  rcases starts_or_refused P control with ⟨run, script, starts⟩ | ⟨e, refused⟩
  · obtain ⟨rfl, rfl⟩ := h.reachable.home starts
    refine h.leads fun h' => ?_
    have load := h'.load 0 (unanswered_zero (by rw [starts.2]; rintro _ ⟨⟩))
    change (step P M).control.activations.length + (step P M).control.productions.length ≤ bound
      at load
    rw [starts.2] at load
    simp only [Control.activations, Control.productions, List.length_cons] at load
    unfold Stack.load at enough
    obtain ⟨r, rfl⟩ : ∃ r, room = r + 1 := ⟨room - 1, by omega⟩
    refine (smaller r rfl).generator script _ run st h' starts.2 ?_
    unfold Stack.load
    omega
  · exact .later (.here ⟨_, refused, fun ok => by cases ok⟩)

theorem callFactory_leads {f : FactoryId} {c : CacheId} {args : Args}
    {st : Stack U ρ .production} (h : Bounded P below modules bound M)
    (control : M.control = .entering (.callFactory f c args) st)
    (enough : bound ≤ st.load + room) : Leads P below (Answers st) M := by
  rcases callFactory_step P control with ⟨place, m, -, -, hit⟩ | ⟨place, begins, -⟩ | ⟨e, failed⟩
  · exact .later (.here ⟨_, congrArg Machine.control hit⟩)
  · obtain ⟨x, args, st', -, -, control', starts⟩ := begins.starts
    rw [control] at control'
    cases control'
    refine h.leads fun h' => ?_
    have started := congrArg Machine.control starts
    have load := h'.load 0 (unanswered_zero (by rw [started]; nofun))
    change (step P M).control.activations.length + (step P M).control.productions.length ≤ bound
      at load
    rw [started] at load
    simp only [Control.activations, Control.productions, List.length_cons] at load
    unfold Stack.load at enough
    obtain ⟨r, rfl⟩ : ∃ r, room = r + 1 := ⟨room - 1, by omega⟩
    refine (smaller r rfl).producer _ _ place st h' started ?_
    unfold Stack.load
    omega
  · exact .later (.here ⟨_, congrArg Machine.control failed⟩)

end Entries

open Classical in
/-- The modules of which no generator has ended well in `s`. -/
noncomputable def unfinished (modules : Finset ModuleId) (s : SystemId) (M : Machine U ρ) :
    Finset ModuleId :=
  modules.filter fun m => ¬ M.workspace.Finished M.control.activations s m

theorem mem_unfinished : m ∈ unfinished modules s M ↔
    m ∈ modules ∧ ¬ M.workspace.Finished M.control.activations s m := by
  simp [unfinished]

theorem Reachable.unfinished_subset (h : Reachable P M) (n : Nat) :
    unfinished modules s ((Machine.step P)^[n] M) ⊆ unfinished modules s M := by
  intro m later
  obtain ⟨mem, unfinished⟩ := mem_unfinished.mp later
  exact mem_unfinished.mpr ⟨mem, fun finished => unfinished (h.stays_finished finished n)⟩

theorem Reachable.unfinished_lt (h : Reachable P M) (n : Nat) (mem : m ∈ modules)
    (before : ¬ M.workspace.Finished M.control.activations s m)
    (after : ((Machine.step P)^[n] M).workspace.Finished
      ((Machine.step P)^[n] M).control.activations s m) :
    (unfinished modules s ((Machine.step P)^[n] M)).card < (unfinished modules s M).card := by
  refine Finset.card_lt_card (Finset.ssubset_iff_of_subset (h.unfinished_subset n) |>.mpr ?_)
  exact ⟨m, mem_unfinished.mpr ⟨mem, before⟩, fun later => (mem_unfinished.mp later).2 after⟩

/-- One module leaves the worklist of `s`, if there is one. The rest is drained next, unless the
module that has left is not finished: then it is generated first. -/
theorem generate_step {st : Stack U ρ .generation}
    (control : M.control = .entering (.generate s) st) :
    (∃ answer, (step P M).control = .answering (a := .generation) answer st) ∨
    ∃ sys m rest, M.workspace.system? s = some sys ∧ sys.worklist = m :: rest ∧
      (step P M).workspace.system? s = some { sys with worklist := rest } ∧
      ((step P M).control = .entering (.generate s) st ∨
        ¬ M.workspace.Finished M.control.activations s m ∧
          (step P M).control = .entering (.generateModule s m) (.worklist s st)) := by
  rw [step_generate control]
  cases hs : M.workspace.system? s with
  | none =>
      refine .inl ⟨.error (.internal .unknownHandle), ?_⟩
      unfold nextWaiting
      rw [hs]
  | some sys =>
      rcases nextWaiting_cases M.workspace s st hs with
        ⟨-, same⟩ | ⟨m, rest, first, ⟨-, same⟩ | ⟨idle, same⟩⟩
      · exact .inl ⟨.ok (), by rw [same]⟩
      · rw [same]
        exact .inr ⟨sys, m, rest, rfl, first, Workspace.system?_setSystem_self hs _, .inl rfl⟩
      · rw [same]
        refine .inr ⟨sys, m, rest, rfl, first, Workspace.system?_setSystem_self hs _,
          .inr ⟨fun finished => ?_, rfl⟩⟩
        obtain ⟨sys', hs', gen⟩ := finished.generated
        rw [hs] at hs'
        cases hs'
        rw [idle] at gen
        cases gen

theorem step_worklist_ok {st : Stack U ρ .generation}
    (answers : M.control = .answering (a := .generation) (.ok ()) (.worklist s st)) :
    (step P M).control = .entering (.generate s) st := by
  unfold step
  rw [answers]
  rfl

theorem step_worklist_error {e : Error} {st : Stack U ρ .generation}
    (answers : M.control = .answering (a := .generation) (.error e) (.worklist s st)) :
    (step P M).control = .answering (a := .generation) (.error e) st := by
  unfold step
  rw [answers]
  rfl

section Drain

variable {room : Nat} (smaller : ∀ r, room = r + 1 → Returns (ρ := ρ) P below modules bound r)
  {st : Stack U ρ .generation} (enough : bound ≤ st.load + room)
include smaller enough

/-- A worklist is drained to its end, if that is so wherever fewer modules are unfinished. -/
theorem drain_leads {left : Nat}
    (fewer : ∀ M : Machine U ρ, Bounded P below modules bound M →
      M.control = .entering (.generate s) st → (unfinished modules s M).card < left →
        Leads P below (Answers st) M)
    (worklist : List ModuleId) (M : Machine U ρ) (h : Bounded P below modules bound M)
    (control : M.control = .entering (.generate s) st)
    (waits : ∀ sys, M.workspace.system? s = some sys → sys.worklist = worklist)
    (le : (unfinished modules s M).card ≤ left) : Leads P below (Answers st) M := by
  induction worklist generalizing M with
  | nil =>
      rcases generate_step (P := P) control with answers | ⟨sys, m, rest, hs, first, -⟩
      · exact .later (.here answers)
      · rw [waits sys hs] at first
        cases first
  | cons m rest ih =>
      rcases generate_step (P := P) control with answers | ⟨sys, m', rest', hs, first, after, next⟩
      · exact .later (.here answers)
      · rw [waits sys hs] at first
        cases first
        rcases next with drains | ⟨before, generates⟩
        · refine h.leads fun h' => ih _ h' drains (fun sys' hs' => ?_) ?_
          · rw [after] at hs'
            cases hs'
            rfl
          · exact (Finset.card_le_card (h.reachable.unfinished_subset 1)).trans le
        · refine h.leads fun h' => (generateModule_leads smaller h' generates enough).bind h' ?_
          rintro n h' ⟨answer, answers, finished⟩
          cases answer with
          | error e => exact .later (.here ⟨.error e, step_worklist_error answers⟩)
          | ok u =>
              obtain ⟨mem, finished⟩ := finished rfl
              have back := step_worklist_ok (P := P) answers
              refine h'.leads fun h'' => fewer _ h'' back (Nat.lt_of_lt_of_le ?_ le)
              rw [← Function.iterate_succ_apply, ← Function.iterate_succ_apply' (Machine.step P)]
              refine h.reachable.unfinished_lt _ mem before ?_
              rw [Function.iterate_succ_apply', Function.iterate_succ_apply]
              refine h'.reachable.stays_finished ?_ 1
              rwa [answers]

theorem generate_leads (M : Machine U ρ) (h : Bounded P below modules bound M)
    (control : M.control = .entering (.generate s) st) : Leads P below (Answers st) M := by
  induction size : (unfinished modules s M).card using Nat.strong_induction_on generalizing M with
  | _ left ih =>
      have fewer : ∀ M : Machine U ρ, Bounded P below modules bound M →
          M.control = .entering (.generate s) st → (unfinished modules s M).card < left →
            Leads P below (Answers st) M := fun M h control lt => ih _ lt M h control rfl
      refine drain_leads smaller enough fewer ((M.workspace.system? s).elim [] System.worklist) M h
        control (fun sys hs => ?_) (Nat.le_of_eq size)
      rw [hs]
      rfl

end Drain

theorem returns_of_smaller {room : Nat}
    (smaller : ∀ r, room = r + 1 → Returns (ρ := ρ) P below modules bound r) :
    Returns (ρ := ρ) P below modules bound room := by
  intro a M e st h control enough
  cases e with
  | generate s => exact generate_leads smaller enough M h control
  | generateModule s m =>
      refine (generateModule_leads smaller h control enough).bind h ?_
      rintro n - ⟨answer, answers, -⟩
      exact .here ⟨answer, answers⟩
  | callFactory f c args => exact callFactory_leads smaller h control enough

/-- Each body that begins takes up room, so in the end every call is answered. -/
theorem calls_return (P : Program U) (below : Stack U ρ .generation) (modules : Finset ModuleId)
    (bound room : Nat) : Returns P below modules bound room := by
  induction room with
  | zero => exact returns_of_smaller nofun
  | succ room ih =>
      refine returns_of_smaller fun r same => ?_
      obtain rfl := Nat.succ.inj same
      exact ih

theorem Leads.answer (leads : Leads P below (Answers below) M) :
    ∃ n answer, ReturnsAfter P below answer n M := by
  have answered : ∃ n, Answers below ((Machine.step P)^[n] M) := by
    induction leads with
    | here met => exact ⟨0, met⟩
    | answered answers => exact ⟨0, _, answers⟩
    | later _ ih =>
        obtain ⟨n, answers⟩ := ih
        exact ⟨n + 1, by rwa [Function.iterate_succ_apply]⟩
  classical
  obtain ⟨answer, answers⟩ := Nat.find_spec answered
  refine ⟨Nat.find answered, answer, answers, fun k lt other early => ?_⟩
  exact Nat.find_min answered lt ⟨other, early⟩

theorem Reachable.target_declared (h : Reachable P M) {run : GeneratorRun}
    (mem : run ∈ M.control.activations) : run.target ∈ M.workspace.declared := by
  obtain ⟨sys, hs, -⟩ := (h.hosts.each run mem).home
  have generated := h.hosts.generated_of_mem mem hs
  obtain ⟨x, sym, g, hx, -, here, -⟩ := (h.hosts.sound.systems _ sys hs).generated _ generated
  rw [Workspace.mem_declared, Workspace.declares_eq hx, here]
  rfl

theorem Reachable.runsIn_le (h : Reachable P M) (s : SystemId) :
    (Workspace.runsIn s M.control.activations).length ≤ M.workspace.declared.card := by
  have distinct : ((Workspace.runsIn s M.control.activations).map GeneratorRun.target).Nodup := by
    have pairs : ((Workspace.runsIn s M.control.activations).map
        fun run => (run.system, run.target)).Nodup :=
      (List.filter_sublist.map _).nodup h.hosts.nodup
    have same : (Workspace.runsIn s M.control.activations).map
        (fun run => (run.system, run.target)) =
          ((Workspace.runsIn s M.control.activations).map GeneratorRun.target).map (s, ·) := by
      rw [List.map_map]
      refine List.map_congr_left fun run mem => ?_
      rw [(Workspace.mem_runsIn.mp mem).2]
      rfl
    rw [same] at pairs
    exact pairs.of_map _
  rw [← List.length_map (f := GeneratorRun.target), ← List.toFinset_card_of_nodup distinct]
  refine Finset.card_le_card fun m there => ?_
  obtain ⟨run, mem, rfl⟩ := List.mem_map.mp (List.mem_toFinset.mp there)
  exact h.target_declared (Workspace.mem_runsIn.mp mem).1

section Confined

variable {systems : Finset SystemId}

/-- Generators run in the systems in which they ran at the beginning, and in those in which one was
requested. -/
theorem Reachable.systems_within (h : Reachable P M)
    (running : ∀ run ∈ M.control.activations, run.system ∈ systems) (n : Nat)
    (requests : ∀ k < n, ∀ s m, Requests s m ((Machine.step P)^[k] M) → s ∈ systems) :
    ∀ run ∈ ((Machine.step P)^[n] M).control.activations, run.system ∈ systems := by
  induction n with
  | zero => exact running
  | succ n ih =>
      have before := ih fun k lt => requests k (Nat.lt_succ_of_lt lt)
      have reach := h.iterate n
      rw [Function.iterate_succ_apply']
      intro run mem
      rcases reach.move.activations with ⟨new, began⟩ | ⟨last, ended⟩ | same
      · rw [began] at mem
        rcases List.mem_cons.mp mem with rfl | mem
        · obtain ⟨st, script, starts⟩ := starts_of_cons reach.hosts.sound began
          exact requests n (Nat.lt_succ_self n) _ _ ⟨st, starts.1⟩
        · exact before run mem
      · exact before run (ended ▸ List.mem_cons_of_mem last mem)
      · have still : run.target ∈ Workspace.targetsIn run.system
            (Machine.step P ((Machine.step P)^[n] M)).control.activations :=
          Workspace.mem_targetsIn.mpr ⟨run, mem, rfl, rfl⟩
        rw [(same run.system).1] at still
        obtain ⟨old, mem, system, -⟩ := Workspace.mem_targetsIn.mp still
        exact system ▸ before old mem

theorem Reachable.activations_le (h : Reachable P M)
    (running : ∀ run ∈ M.control.activations, run.system ∈ systems) :
    M.control.activations.length ≤ systems.card * M.workspace.declared.card := by
  have distinct := h.hosts.nodup
  rw [← Finset.card_product, ← List.length_map (f := fun run => (run.system, run.target)),
    ← List.toFinset_card_of_nodup distinct]
  refine Finset.card_le_card fun pair there => ?_
  obtain ⟨run, mem, rfl⟩ := List.mem_map.mp (List.mem_toFinset.mp there)
  exact Finset.mem_product.mpr ⟨running run mem, h.target_declared mem⟩

/-- A call that generates modules comes to an answer, if meanwhile no module is declared and modules
are requested in `systems` only. The generators may request whichever modules they like, even those
that are running, catch errors and try again. Producers may run too, if no more than `depth` of them
wait for one another. In no system do more generators ever run than there are modules. -/
theorem Reachable.generation_terminates (h : Reachable P M) {e : Entry .generation}
    (entering : M.control = .entering e below) (systems : Finset SystemId) (depth : Nat)
    (fixed : ∀ n, Unanswered P below n M → ¬ Declares ((Machine.step P)^[n] M))
    (running : ∀ run ∈ below.activations, run.system ∈ systems)
    (requests : ∀ n, Unanswered P below n M → ∀ s m,
      Requests s m ((Machine.step P)^[n] M) → s ∈ systems)
    (producers : ∀ n, Unanswered P below n M →
      ((Machine.step P)^[n] M).control.productions.length ≤ depth) :
    ∃ n answer, ReturnsAfter P below answer n M ∧ ∀ k ≤ n,
      ((Machine.step P)^[k] M).control.activations.length ≤
          systems.card * M.workspace.declared.card ∧
        ∀ s, (Workspace.runsIn s ((Machine.step P)^[k] M).control.activations).length ≤
          M.workspace.declared.card := by
  have start : ∀ run ∈ M.control.activations, run.system ∈ systems := by
    rw [entering]
    exact running
  -- Whatever holds until the answer carries over to the answer itself, one step later.
  have same : ∀ n, (∀ k < n, Unanswered P below k M) →
      ((Machine.step P)^[n] M).workspace.declared = M.workspace.declared := fun n pending =>
    iterate_declared fun k lt => fixed k (pending k lt)
  have nesting : ∀ n, (∀ k < n, Unanswered P below k M) →
      ((Machine.step P)^[n] M).control.activations.length ≤
        systems.card * M.workspace.declared.card := by
    intro n pending
    rw [← same n pending]
    exact (h.iterate n).activations_le
      (h.systems_within start n fun k lt => requests k (pending k lt))
  have earlier {n : Nat} (pending : Unanswered P below n M) : ∀ k < n, Unanswered P below k M :=
    fun k lt i le => pending i (le.trans (Nat.le_of_lt lt))
  have bounded : Bounded P below M.workspace.declared
      (systems.card * M.workspace.declared.card + depth) M := by
    refine ⟨h, fun n pending run mem => ?_, fun n pending => ?_⟩
    · rw [← same n (earlier pending)]
      exact (h.iterate n).target_declared mem
    · exact Nat.add_le_add (nesting n (earlier pending)) (producers n pending)
  have leads : Leads P below (Answers below) M :=
    calls_return P below M.workspace.declared _ _ _ M e below bounded entering (Nat.le_add_left _ _)
  obtain ⟨n, answer, returned⟩ := leads.answer
  refine ⟨n, answer, returned, fun k le => ?_⟩
  have pending : ∀ i < k, Unanswered P below i M := fun i lt j le' =>
    returned.2 j (Nat.lt_of_le_of_lt le' (Nat.lt_of_lt_of_le lt le))
  refine ⟨nesting k pending, fun s => ?_⟩
  rw [← same k pending]
  exact (h.iterate k).runsIn_le s

end Confined

end Machine

namespace Sample

/-- `Top` asks for `Leaf` twice. `Leaf` asks for `Top`, which is running, and for all that waits,
and fails the first time that it runs. -/
def obstinate : Program code where
  generator g :=
    if g then
      .enter (.generateModule ⟨0⟩ ⟨0⟩) fun _ => .enter (.generateModule ⟨0⟩ ⟨0⟩) fun _ => leaf
    else
      .enter (.generateModule ⟨0⟩ ⟨1⟩) fun _ => .enter (.generate ⟨0⟩) fun _ =>
        .call .snapshot fun seen =>
          match seen with
          | .ok ws =>
            if ws.state = (0 : Nat) then
              .call (.setState (1 : Nat)) fun _ => .done (.error (.internal .unknownHandle))
            else leaf
          | .error e => .done (.error e)
  producer _ _ := .done (.error (.internal .unknownHandle))

/-- True if no module is declared next, no module of another system than the first is requested, and
no producer is running. -/
def isConfined (M : Machine code Unit) : Bool :=
  (M.control.call?.all fun c => !c.isDeclare) &&
    ((requested? M.control).all fun r => r.1 = ⟨0⟩) && M.control.productions.isEmpty

/-- The two modules generate each other, fail and try again, and come to an end. -/
theorem obstinate_ends : ∃ below n answer,
    (after obstinate generating 5).control = .entering (.generate ⟨0⟩) below ∧
      Machine.ReturnsAfter obstinate below answer n (after obstinate generating 5) ∧
      ∀ k ≤ n, ((Machine.step obstinate)^[k]
        (after obstinate generating 5)).control.activations.length ≤ 2 := by
  have reach := reachable obstinate generating 5
  have test : returnsOk obstinate 30 (after obstinate generating 5) = true := by
    decide +kernel
  have idle : (after obstinate generating 5).control.activations = [] := by
    decide +kernel
  have confined : ∀ k < 30, isConfined
      ((Machine.step obstinate)^[k] (after obstinate generating 5)) = true := by
    decide +kernel
  have two : (after obstinate generating 5).workspace.declared.card = 2 := by
    decide +kernel
  -- From here on the machine is not to be evaluated any more.
  generalize after obstinate generating 5 = M at *
  obtain ⟨below, entering, returns⟩ := returns_of_returnsOk reach test
  have confined : ∀ n, Machine.Unanswered obstinate below n M →
      isConfined ((Machine.step obstinate)^[n] M) = true := fun n pending =>
    confined n (Nat.lt_of_not_le fun le => pending 30 le _ returns.1)
  simp only [isConfined, Bool.and_eq_true, Option.all_eq_true, decide_eq_true_eq,
    List.isEmpty_iff] at confined
  rw [entering] at idle
  have idle : below.activations = [] := idle
  obtain ⟨n, answer, ends, nesting⟩ := reach.generation_terminates entering {⟨0⟩} 0
    (fun n pending ⟨decl, calls⟩ => nomatch (confined n pending).1.1 _ calls)
    (fun run mem => by rw [idle] at mem; cases mem)
    (fun n pending s m request => by
      rw [Finset.mem_singleton]
      exact (confined n pending).1.2 _ (requested?_iff.mpr request))
    (fun n pending => by rw [(confined n pending).2]; rfl)
  rw [two, Finset.card_singleton, Nat.one_mul] at nesting
  exact ⟨below, n, answer, entering, ends, fun k le => (nesting k le).1⟩

end Sample

end Hardware
