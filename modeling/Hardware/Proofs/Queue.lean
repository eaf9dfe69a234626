import Hardware.Proofs.Activation

/-!
The worklist of a system as a queue. Calls put modules at its end only. So the modules that were
taken from its front, followed by those that still wait, are at any time the modules that were put
there, without those that need no run.
-/
namespace Hardware

variable {U : UserCode}

namespace System

variable {old sys sys' sys'' : System} {m : ModuleId} {l l' more : List ModuleId} {p : Permit}
  {s : SystemId}

/-- The modules of `l` that are not generated, each where it occurs first. -/
def due (sys : System) (l : List ModuleId) : List ModuleId :=
  (l.filter fun m => !sys.isGenerated m).eraseDups

theorem mem_due : m ∈ sys.due l ↔ m ∈ l ∧ sys.isGenerated m = false := by
  unfold due
  rw [List.mem_eraseDups, List.mem_filter, Bool.not_eq_true']

theorem due_concat_of_mem (known : sys.isGenerated m = true ∨ m ∈ l) :
    sys.due (l ++ [m]) = sys.due l := by
  unfold due
  rw [List.filter_append]
  cases gen : sys.isGenerated m with
  | true => simp [gen]
  | false =>
      have mem : m ∈ l := known.resolve_left (by simp [gen])
      rw [List.eraseDups_append]
      simp [List.removeAll, gen, mem]

theorem due_concat_of_new (idle : sys.isGenerated m = false) (new : m ∉ l) :
    sys.due (l ++ [m]) = sys.due l ++ [m] := by
  unfold due
  rw [List.filter_append, List.eraseDups_append]
  simp [List.removeAll, List.eraseDups_cons, idle, new]

/-- Nothing is due any more of what is generated or came before. -/
theorem due_append_of_mem (known : ∀ m ∈ l', sys.isGenerated m = true ∨ m ∈ l) :
    sys.due (l ++ l') = sys.due l := by
  induction l' using List.reverseRecOn with
  | nil => rw [List.append_nil]
  | append_singleton l' m ih =>
      have before := ih fun n mem => known n (List.mem_append_left _ mem)
      rw [← List.append_assoc, due_concat_of_mem, before]
      exact (known m (by simp)).imp_right (List.mem_append_left _)

theorem due_append_congr (same : sys.due l = sys.due l') (more : List ModuleId) :
    sys.due (l ++ more) = sys.due (l' ++ more) := by
  induction more using List.reverseRecOn with
  | nil => rw [List.append_nil, List.append_nil, same]
  | append_singleton more m ih =>
      rw [← List.append_assoc, ← List.append_assoc]
      -- What came before on one side has come before on the other, unless it is generated.
      have mem : m ∈ l ++ more ∧ sys.isGenerated m = false ↔
          m ∈ l' ++ more ∧ sys.isGenerated m = false := by
        rw [← mem_due, ← mem_due, ih]
      by_cases known : sys.isGenerated m = true ∨ m ∈ l ++ more
      · have known' : sys.isGenerated m = true ∨ m ∈ l' ++ more := by
          rcases known with gen | there
          · exact .inl gen
          · cases gen : sys.isGenerated m with
            | true => exact .inl rfl
            | false => exact .inr (mem.mp ⟨there, gen⟩).1
        rw [due_concat_of_mem known, due_concat_of_mem known', ih]
      · rw [not_or, Bool.not_eq_true] at known
        have new' : m ∉ l' ++ more := fun there => known.2 (mem.mpr ⟨there, known.1⟩).1
        rw [due_concat_of_new known.1 known.2, due_concat_of_new known.1 new', ih]

theorem due_eq_self (distinct : l.Nodup) (idle : ∀ m ∈ l, sys.isGenerated m = false) :
    sys.due l = l := by
  induction l using List.reverseRecOn with
  | nil => rfl
  | append_singleton l m ih =>
      rw [List.nodup_append] at distinct
      have new : m ∉ l := fun mem => distinct.2.2 m mem m (by simp) rfl
      rw [due_concat_of_new (idle m (by simp)) new,
        ih distinct.1 fun n mem => idle n (List.mem_append_left _ mem)]

/-- Only modules that a permit lets wait come to the worklist, and they come to its end. -/
def Appends (p : Permit) (s : SystemId) (sys sys' : System) : Prop :=
  ∃ more, sys'.worklist = sys.worklist ++ more ∧ ∀ m ∈ more, p.queued s m

theorem Appends.of_worklist (same : sys'.worklist = sys.worklist) : sys.Appends p s sys' :=
  ⟨[], by rw [same, List.append_nil], nofun⟩

theorem Appends.trans (h : sys.Appends p s sys') (h' : sys'.Appends p s sys'') :
    sys.Appends p s sys'' := by
  obtain ⟨more, appends, queued⟩ := h
  obtain ⟨more', appends', queued'⟩ := h'
  refine ⟨more ++ more', by rw [appends', appends, List.append_assoc], fun m mem => ?_⟩
  exact (List.mem_append.mp mem).elim (queued m) (queued' m)

theorem Appends.enqueue (queued : p.queued s m) : sys.Appends p s (sys.enqueue m) := by
  unfold System.enqueue
  split
  · exact .of_worklist rfl
  · exact ⟨[m], rfl, fun n mem => List.mem_singleton.mp mem ▸ queued⟩

/-- All that is asked for since `old` was there, in this order, is what has been run, what is to be
run next, and what waits. -/
structure InOrder (old : System) (asked ran next : List ModuleId) (now : System) : Prop where
  marked : ∀ m, now.isGenerated m = true ↔ old.isGenerated m = true ∨ m ∈ ran
  distinct : (ran ++ next).Nodup
  idle : ∀ m ∈ ran ++ next, old.isGenerated m = false
  queue : old.due asked = old.due (ran ++ next ++ now.worklist)

variable {asked ran next rest : List ModuleId} {now now' : System}

theorem InOrder.refl (old : System) : old.InOrder old.worklist [] [] old where
  marked m := by simp
  distinct := List.nodup_nil
  idle := nofun
  queue := rfl

/-- What is asked for comes to the end of the worklist, unless it needs no run. -/
theorem InOrder.asks (h : old.InOrder asked ran next now) {new : Option ModuleId}
    (marks : ∀ m, now'.isGenerated m = now.isGenerated m)
    (worklist : now'.worklist = now.worklist ++ more) (only : ∀ m ∈ more, new = some m)
    (waits : ∀ m, new = some m → now'.isGenerated m = true ∨ m ∈ now'.worklist) :
    old.InOrder (asked ++ new.toList) ran next now' where
  marked m := by rw [marks, h.marked]
  distinct := h.distinct
  idle := h.idle
  queue := by
    rw [worklist, ← List.append_assoc]
    have same := due_append_congr h.queue new.toList
    rw [same]
    cases new with
    | none =>
        have none : more = [] := List.eq_nil_iff_forall_not_mem.mpr fun m mem => nomatch only m mem
        rw [none]
        rfl
    | some n =>
        cases more with
        | nil =>
            rw [List.append_nil]
            refine due_concat_of_mem ?_
            rcases waits n rfl with gen | wait
            · rw [marks, h.marked] at gen
              exact gen.imp_right fun mem => by simp [mem]
            · rw [worklist, List.append_nil] at wait
              exact .inr (List.mem_append_right _ wait)
        | cons m more =>
            obtain rfl := Option.some.inj (only m List.mem_cons_self)
            rw [List.append_cons]
            refine (due_append_of_mem fun n mem => .inr ?_).symm
            rw [Option.some.inj (only n (List.mem_cons_of_mem _ mem)).symm]
            exact List.mem_append_right _ (List.mem_singleton_self _)

/-- The first that waits needs no run. -/
theorem InOrder.skips (h : old.InOrder asked ran [] now) (first : now.worklist = m :: rest)
    (gen : now.isGenerated m = true) : old.InOrder asked ran [] { now with worklist := rest } where
  marked := h.marked
  distinct := h.distinct
  idle := h.idle
  queue := by
    rw [h.queue, first, List.append_nil, List.append_cons]
    exact due_append_congr (due_concat_of_mem ((h.marked m).mp gen)) rest

/-- The first that waits is to be run. -/
theorem InOrder.takes (h : old.InOrder asked ran [] now) (first : now.worklist = m :: rest)
    (idle : now.isGenerated m = false) :
    old.InOrder asked ran [m] { now with worklist := rest } where
  marked := h.marked
  distinct := by
    have distinct := h.distinct
    rw [List.append_nil] at distinct
    refine List.nodup_append.mpr ⟨distinct, List.nodup_singleton m, fun n mem n' mem' same => ?_⟩
    rw [List.mem_singleton.mp mem'] at same
    rw [(h.marked m).mpr (.inr (same ▸ mem))] at idle
    cases idle
  idle n mem := by
    rcases List.mem_append.mp mem with before | here
    · exact h.idle n (List.mem_append_left _ before)
    · rw [List.mem_singleton.mp here]
      exact Bool.eq_false_iff.mpr fun gen =>
        Bool.eq_false_iff.mp idle ((h.marked m).mpr (.inl gen))
  queue := by rw [h.queue, first, List.append_nil, List.append_cons]

/-- What was to be run is run. -/
theorem InOrder.starts (h : old.InOrder asked ran [m] now)
    (marks : ∀ n, now'.isGenerated n = true ↔ now.isGenerated n = true ∨ n = m)
    (worklist : now'.worklist = now.worklist) : old.InOrder asked (ran ++ [m]) [] now' where
  marked n := by
    rw [marks, h.marked, List.mem_append, List.mem_singleton, or_assoc]
  distinct := by rw [List.append_nil]; exact h.distinct
  idle := by rw [List.append_nil]; exact h.idle
  queue := by rw [h.queue, worklist, List.append_nil]

/-- Where nothing waits, all that is due has been run. -/
theorem InOrder.due_eq (h : old.InOrder asked ran [] now) (empty : now.worklist = []) :
    old.due asked = ran := by
  have distinct := h.distinct
  have idle := h.idle
  rw [List.append_nil] at distinct idle
  rw [h.queue, empty, List.append_nil, List.append_nil]
  exact due_eq_self distinct idle

end System

namespace Workspace

variable {ws ws' ws'' : Workspace U} {p : Permit} {s : SystemId} {sys : System}

/-- Each system that is there stays, and modules come to the end of its worklist only. -/
def Queues (p : Permit) (ws ws' : Workspace U) : Prop :=
  ∀ s sys, ws.system? s = some sys → ∃ sys', ws'.system? s = some sys' ∧ sys.Appends p s sys'

theorem Queues.of_systems (same : ∀ s, ws'.system? s = ws.system? s) : ws.Queues p ws' :=
  fun s sys hs => ⟨sys, (same s).trans hs, .of_worklist rfl⟩

theorem Queues.trans (h : Queues p ws ws') (h' : Queues p ws' ws'') : Queues p ws ws'' := by
  intro s sys hs
  obtain ⟨sys', hs', appends⟩ := h s sys hs
  obtain ⟨sys'', hs'', appends'⟩ := h' s sys' hs'
  exact ⟨sys'', hs'', appends.trans appends'⟩

theorem queues_setSystem {t : SystemId} {old new : System} (ht : ws.system? t = some old)
    (appends : old.Appends p t new) : ws.Queues p (ws.setSystem t new) := by
  intro s sys hs
  rw [system?_setSystem ht]
  split
  · rename_i hst
    subst hst
    rw [hs] at ht
    cases ht
    exact ⟨new, rfl, appends⟩
  · exact ⟨sys, hs, .of_worklist rfl⟩

theorem Change.queues (c : Change p ws ws') : ws.Queues p ws' := by
  cases c with
  | aside modules instances systems => exact .of_systems fun s => by rw [system?, systems]; rfl
  | addSystem name conf =>
      intro s sys hs
      refine ⟨sys, ?_, .of_worklist rfl⟩
      rw [system?, List.getElem?_append_left (lt_of_system? hs)]
      exact hs
  | addModule sound brought => exact .of_systems fun _ => rfl
  | setParameters hx params => exact .of_systems fun _ => rfl
  | create hs hx declared new made => exact queues_setSystem hs (.of_worklist rfl)
  | @adopt t sys m x op hs hx held new free made =>
      have there : (ws.setModule m { x with origin := .imported none }).system? t = some sys := hs
      exact queues_setSystem there (.of_worklist rfl)
  | push hs top body inner id verified => exact queues_setSystem hs (.of_worklist rfl)
  | grant hs top base => exact queues_setSystem hs (.of_worklist rfl)
  | enqueue hs hx gen hsym queued => exact queues_setSystem hs (.enqueue queued)
  | @track sys x hs placed within =>
      have there : ({ ws with instances := ws.instances ++ [x] } : Workspace U).system? x.system =
          some sys := hs
      exact queues_setSystem there (.of_worklist rfl)
  | release i => exact .of_systems fun s => system?_releaseInstance ws i s
  | @forget t sys hs =>
      have there : (ws.releaseInstances sys.instances).system? t = some sys := by
        rwa [system?_releaseInstances]
      exact (Queues.of_systems fun s => system?_releaseInstances ws _ s).trans
        (queues_setSystem there (.of_worklist rfl))

theorem Changes.queues (c : Changes p ws ws') : ws.Queues p ws' := by
  induction c with
  | refl => exact .of_systems fun _ => rfl
  | tail some step ih => exact ih.trans step.queues

theorem Opens.queues {m : ModuleId} {run : GeneratorRun} {code : U.GeneratorCode}
    (o : Opens ws s m run code ws') : ws.Queues p ws' := by
  cases o with
  | intro site hs => exact queues_setSystem hs (.of_worklist rfl)

theorem Closes.queues {run : GeneratorRun} (c : Closes ws run ws') : ws.Queues p ws' := by
  cases c with
  | intro hs => exact queues_setSystem hs (.of_worklist rfl)

theorem Unwinds.queues {run : GeneratorRun} (u : Unwinds ws run ws') : ws.Queues p ws' := by
  cases u with
  | @intro sys hs =>
      have there : (ws.releaseInstances (sys.instances.filter (ws.isInside run.symbol))).system?
          run.system = some sys := by
        rwa [system?_releaseInstances]
      exact (Queues.of_systems fun s => system?_releaseInstances ws _ s).trans
        (queues_setSystem there (.of_worklist rfl))

/-- Where no module is let wait, any permit will do. -/
theorem Queues.of_quiet {q : Permit} (h : Queues q ws ws') (quiet : ∀ s m, ¬ q.queued s m) :
    Queues p ws ws' := by
  intro s sys hs
  obtain ⟨sys', hs', more, same, queued⟩ := h s sys hs
  exact ⟨sys', hs', more, same, fun m mem => (quiet s m (queued m mem)).elim⟩

/-- A step takes the first module that waits, or lets more of them wait. -/
theorem Move.queues {runs runs' : List GeneratorRun} (step : Move p ws runs ws' runs')
    (undrained : ∀ s, ¬ p.drained s) : ws.Queues p ws' := by
  cases step with
  | call c => exact Changes.queues c
  | port step allowed => exact Changes.queues step.changes
  | pop drained hs first => exact (undrained _ drained).elim
  | @begins mid _ _ t m _ _ _ created opens =>
      have made : (Permit.creating t m).made t m := ⟨rfl, rfl⟩
      have before := (Changes.queues (created.changes made)).of_quiet (p := p) fun _ _ no => no
      exact before.trans opens.queues
  | closes c => exact c.queues
  | unwinds u => exact u.queues

end Workspace

end Hardware
