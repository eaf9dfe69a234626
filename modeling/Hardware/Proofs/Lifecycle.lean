import Hardware.Proofs.Run

/-!
The life of a module in a system. Its operation has a body from the moment its generator
starts, unless that generator fails; the body is open for exactly as long as the generator
runs. So no generator is entered while it runs, and each completes at most once.
-/
namespace Hardware

variable {U : UserCode} {ρ : Type}

namespace Workspace

variable {ws ws' : Workspace U} {s : SystemId} {m : ModuleId} {run : GeneratorRun}
  {runs runs' : List GeneratorRun}

theorem mem_ownersIn {q : Ident} :
    q ∈ ownersIn s runs ↔ ∃ run ∈ runs, run.system = s ∧ run.symbol = q := by
  simp [ownersIn, and_assoc]

theorem Hosts.mem_owners_iff (h : ws.Hosts runs) {sys : System} {sym : Ident}
    (hs : ws.system? s = some sys) (hm : sys.symbolOf? m = some sym) :
    sym ∈ sys.owners ↔ ∃ run ∈ runs, run.system = s ∧ run.target = m := by
  have known : ∀ run ∈ runs, run.system = s → sys.symbolOf? run.target = some run.symbol := by
    rintro run hrun rfl
    obtain ⟨sys', hs', ht⟩ := (h.each run hrun).home
    rw [hs] at hs'
    cases hs'
    exact ht
  rw [h.owners s sys hs, mem_ownersIn]
  constructor
  · rintro ⟨run, hrun, here, rfl⟩
    exact ⟨run, hrun, here, (h.sound.systems s sys hs).injective _ _ _ (known run hrun here) hm⟩
  · rintro ⟨run, hrun, here, rfl⟩
    have same := known run hrun here
    rw [hm] at same
    exact ⟨run, hrun, here, (Option.some.inj same).symm⟩

theorem Hosts.generated_of_mem (h : ws.Hosts runs) (hrun : run ∈ runs) {sys : System}
    (hs : ws.system? run.system = some sys) : sys.isGenerated run.target = true := by
  obtain ⟨sys', hs', hm⟩ := (h.each run hrun).home
  rw [hs] at hs'
  cases hs'
  have owner := (h.mem_owners_iff hs hm).mpr ⟨run, hrun, rfl, rfl⟩
  obtain ⟨n, hn, gen⟩ := (h.sound.systems _ sys hs).owned _ owner
  rwa [(h.sound.systems _ sys hs).injective n run.target _ hn hm] at gen

theorem Hosts.nodup (h : ws.Hosts runs) :
    (runs.map fun run => (run.system, run.target)).Nodup := by
  have symbols : ∀ r ∈ runs, ∀ r' ∈ runs, r.system = r'.system → r.target = r'.target →
      r.symbol = r'.symbol := by
    intro r hr r' hr' hsys htarget
    obtain ⟨sys, hs, hm⟩ := (h.each r hr).home
    obtain ⟨sys', hs', hm'⟩ := (h.each r' hr').home
    rw [hsys, hs'] at hs
    cases hs
    rw [htarget, hm'] at hm
    exact (Option.some.inj hm).symm
  have owners : ∀ s, (ownersIn s runs).Nodup := by
    intro s
    cases hs : ws.system? s with
    | none =>
        rw [h.ownersIn_nil hs]
        exact List.nodup_nil
    | some sys =>
        rw [← h.owners s sys hs]
        exact (h.sound.systems s sys hs).nodup
  clear h
  induction runs with
  | nil => exact List.nodup_nil
  | cons run runs ih =>
      refine List.nodup_cons.mpr ⟨fun twice => ?_, ih ?_ fun s => ?_⟩
      · obtain ⟨r, hr, same⟩ := List.mem_map.mp twice
        obtain ⟨hsys, htarget⟩ := Prod.mk.inj same
        have own := owners run.system
        rw [ownersIn_cons, if_pos rfl] at own
        refine (List.nodup_cons.mp own).1 (mem_ownersIn.mpr ⟨r, hr, hsys, ?_⟩)
        exact symbols r (by simp [hr]) run (by simp) hsys htarget
      · exact fun r hr r' hr' => symbols r (by simp [hr]) r' (by simp [hr'])
      · have own := owners s
        rw [ownersIn_cons] at own
        split at own
        · exact (List.nodup_cons.mp own).2
        · exact own

/-- The generator of `m` has ended in `s`, and ended well. -/
structure Finished (ws : Workspace U) (runs : List GeneratorRun) (s : SystemId) (m : ModuleId) :
    Prop where
  generated : ∃ sys, ws.system? s = some sys ∧ sys.isGenerated m = true
  ended : m ∉ targetsIn s runs

theorem Hosts.finished (h : ws.Hosts (run :: runs)) (c : ws.Closes run ws') :
    ws'.Finished runs run.system run.target := by
  constructor
  · cases c with
    | intro hs P kind assigned operands =>
        have gen := h.generated_of_mem (by simp) hs
        exact ⟨_, system?_setSystem_self hs _, gen⟩
  · intro running
    obtain ⟨r, hr, here, there⟩ := mem_targetsIn.mp running
    refine (List.nodup_cons.mp h.nodup).1 (List.mem_map.mpr ⟨r, hr, ?_⟩)
    rw [here, there]

/-- What is finished stays so: it is neither started again nor undone. -/
theorem Finished.move (h : ws.Hosts runs) (f : ws.Finished runs s m)
    {p : Permit} (step : Move p ws runs ws' runs') : ws'.Finished runs' s m := by
  obtain ⟨sys, hs, gen⟩ := f.generated
  obtain ⟨sys', hs', tick⟩ := step.tick h hs
  obtain ⟨gen', ended⟩ := tick.stays gen f.ended
  exact ⟨⟨sys', hs', gen'⟩, ended⟩

end Workspace

/-- Where the operation of `m`, under the symbol `sym`, is in its life. -/
structure System.Lifecycle (sys : System) (m : ModuleId) (sym : Ident) : Prop where
  body : ∃ op body, sys.design.findModule? sym = some op ∧ op.kind = .real body ∧
    (sys.isGenerated m = true ↔ body.isSome = true) ∧
    ∀ b, body = some b → (b.isTerminated = false ↔ sym ∈ sys.owners) ∧
      (sym ∈ sys.owners → b.IsOpen) ∧ (sym ∉ sys.owners → b.IsClosed)
  once : sys.owners.count sym ≤ 1

theorem System.Sound.lifecycle_of_symbolOf? {ws : Workspace U} {sys : System}
    (h : sys.Sound ws) {m : ModuleId} {x : Module U.GeneratorCode} {sym : Ident}
    (hx : ws.module? m = some x) (declared : x.isImported = false) (gen : x.hasGenerator = true)
    (hm : sys.symbolOf? m = some sym) : sys.Lifecycle m sym := by
  refine ⟨?_, List.nodup_iff_count_le_one.mp h.nodup sym⟩
  obtain ⟨y, op, hy, hop, carries⟩ := h.present m sym hm
  rw [hx] at hy
  cases hy
  obtain ⟨body, hk, stage⟩ := (carries declared).stage gen
  refine ⟨op, body, hop, hk, ?_⟩
  cases stage with
  | idle idle free =>
      refine ⟨by simp [idle], fun b hb => ?_⟩
      cases hb
  | running marked owner opened =>
      refine ⟨by simp [marked], ?_⟩
      rintro b ⟨⟩
      exact ⟨⟨fun _ => owner, fun _ => opened.not_terminated⟩, fun _ => opened,
        fun free => absurd owner free⟩
  | complete marked free closed =>
      refine ⟨by simp [marked], ?_⟩
      rintro b ⟨⟩
      refine ⟨⟨fun opened => ?_, fun owner => absurd owner free⟩, fun owner => absurd owner free,
        fun _ => closed⟩
      rw [closed.terminated] at opened
      cases opened

namespace Machine

variable {P : Program U} {M : Machine U ρ} {s : SystemId} {m : ModuleId}

/-- The next step ends a generator of `m` in `s`, and ends it well. -/
def Completes (P : Program U) (s : SystemId) (m : ModuleId) (M : Machine U ρ) : Prop :=
  ∃ run result below, M.control = .generator run (.done result) below ∧ run.system = s ∧
    run.target = m ∧ (step P M).control = .answering (a := .generation) (.ok ()) below

theorem Reachable.finished (h : Reachable P M) (done : Completes P s m M) :
    (Machine.step P M).workspace.Finished (Machine.step P M).control.activations s m := by
  obtain ⟨run, result, below, last, rfl, rfl, answer⟩ := done
  have hosts := h.hosts
  rw [last] at hosts
  rw [answer]
  rcases h.ends last with ⟨closes, -⟩ | ⟨-, e, failed⟩
  · exact hosts.finished closes
  · rw [answer] at failed
    cases failed

theorem Reachable.stays_finished (h : Reachable P M)
    (f : M.workspace.Finished M.control.activations s m) (n : Nat) :
    ((Machine.step P)^[n] M).workspace.Finished
      ((Machine.step P)^[n] M).control.activations s m := by
  induction n with
  | zero => exact f
  | succ n ih =>
      rw [Function.iterate_succ_apply']
      exact ih.move (h.iterate n).hosts (h.iterate n).move

/-- A generator that has completed does not complete again. -/
theorem Reachable.completes_once (h : Reachable P M) {i j : Nat} (lt : i < j)
    (first : Completes P s m ((Machine.step P)^[i] M)) :
    ¬ Completes P s m ((Machine.step P)^[j] M) := by
  rintro ⟨run, result, below, control, here, there, -⟩
  have f := (h.iterate i).step.stays_finished ((h.iterate i).finished first) (j - (i + 1))
  rw [← Function.iterate_succ_apply' (Machine.step P) i M, ← Function.iterate_add_apply,
    Nat.sub_add_cancel lt] at f
  exact f.ended (Workspace.mem_targetsIn.mpr
    ⟨run, by simp [control, Control.activations], here, there⟩)

theorem Reachable.refused (h : Reachable P M) {below : Stack U ρ .generation}
    (entering : M.control = .entering (.generateModule s m) below) {sys : System}
    (hs : M.workspace.system? s = some sys) (gen : sys.isGenerated m = true) :
    ∃ x, M.workspace.module? m = some x ∧ Machine.step P M =
      ⟨M.workspace, .answering (.error (.generation (.alreadyGenerated x.name))) below⟩ := by
  obtain ⟨ws, control⟩ := M
  cases entering
  have sound := h.hosts.sound
  obtain ⟨x, sym, g, hx, -, -, one⟩ := (sound.systems s sys hs).generated m gen
  have ends := Workspace.beginGeneration_ends sound s m
  refine ⟨x, hx, ?_⟩
  cases hb : Workspace.beginGeneration s m ws with
  | ok r ws' =>
      obtain ⟨run, code⟩ := r
      obtain ⟨sym', mid, created, opens⟩ := ends.of_ok hb
      obtain ⟨old, sys', hold, hs', -, -, generated⟩ := created.symbolOf?
      rw [hs] at hold
      cases hold
      cases opens with
      | intro site hs'' _ _ idle _ _ _ =>
          rw [hs'] at hs''
          cases hs''
          rw [System.isGenerated, generated] at idle
          rw [System.isGenerated, idle] at gen
          cases gen
  | error e ws' =>
      obtain ⟨rfl, refusal⟩ := ends.of_error hb
      obtain ⟨-, rfl⟩ := refusal sys x g hs hx one
      exact start_refused hb below

/-- In every state that a session reaches, the mark of a declared module with a generator,
the body of its operation and the running generators agree. No generator is on the stack
twice, one that runs is not entered again, and none completes a second time. -/
theorem Reachable.lifecycle (h : Reachable P M) (s : SystemId) (m : ModuleId) :
    (∀ sys x sym, M.workspace.system? s = some sys → M.workspace.module? m = some x →
      x.isImported = false → x.hasGenerator = true → sys.symbolOf? m = some sym →
        sys.Lifecycle m sym ∧
          (sym ∈ sys.owners ↔ ∃ run ∈ M.control.activations, run.system = s ∧ run.target = m)) ∧
    (M.control.activations.map fun run => (run.system, run.target)).Nodup ∧
    (∀ below, M.control = .entering (.generateModule s m) below →
      (∃ run ∈ M.control.activations, run.system = s ∧ run.target = m) →
        ∃ x, M.workspace.module? m = some x ∧ Machine.step P M =
          ⟨M.workspace, .answering (.error (.generation (.alreadyGenerated x.name))) below⟩) ∧
    ∀ i j, Completes P s m ((Machine.step P)^[i] M) → Completes P s m ((Machine.step P)^[j] M) →
      i = j := by
  refine ⟨?_, h.hosts.nodup, ?_, fun i j hi hj => ?_⟩
  · intro sys x sym hs hx declared gen hm
    exact ⟨(h.hosts.sound.systems s sys hs).lifecycle_of_symbolOf? hx declared gen hm,
      h.hosts.mem_owners_iff hs hm⟩
  · rintro below entering ⟨run, hrun, rfl, rfl⟩
    obtain ⟨sys, hs, -⟩ := (h.hosts.each run hrun).home
    exact h.refused entering hs (h.hosts.generated_of_mem hrun hs)
  · rcases Nat.lt_trichotomy i j with lt | same | lt
    · exact absurd hj (h.completes_once lt hi)
    · exact same
    · exact absurd hi (h.completes_once lt hj)

end Machine

namespace Sample

/-- While the generator of `Top` runs, its body is open, and it is on the stack once. -/
theorem lifecycle_while_running :
    ∃ sys, (after (program top) generating 10).workspace.system? ⟨0⟩ = some sys ∧
      sys.Lifecycle ⟨1⟩ "Top" ∧ "Top" ∈ sys.owners ∧
      ∃ run ∈ (after (program top) generating 10).control.activations,
        run.system = ⟨0⟩ ∧ run.target = ⟨1⟩ := by
  have system : ((after (program top) generating 10).workspace.system? ⟨0⟩).map
      (fun sys => (sys.symbolOf? ⟨1⟩, sys.owners)) = some (some "Top", ["Top"]) := by
    decide +kernel
  have declared : ((after (program top) generating 10).workspace.module? ⟨1⟩).map
      (fun x => (x.isImported, x.hasGenerator)) = some (false, true) := by
    decide +kernel
  obtain ⟨sys, hs, known⟩ := Option.map_eq_some_iff.mp system
  obtain ⟨x, hx, kind⟩ := Option.map_eq_some_iff.mp declared
  obtain ⟨symbol, owners⟩ := Prod.mk.inj known
  obtain ⟨imported, gen⟩ := Prod.mk.inj kind
  obtain ⟨life, running⟩ :=
    (Machine.Reachable.lifecycle (reachable (program top) generating 10) ⟨0⟩ ⟨1⟩).1 sys x "Top"
      hs hx imported gen symbol
  have owner : "Top" ∈ sys.owners := by simp [owners]
  exact ⟨sys, hs, life, owner, running.mp owner⟩

end Sample

end Hardware
