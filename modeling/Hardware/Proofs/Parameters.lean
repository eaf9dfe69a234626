import Hardware.Proofs.Invocations

/-!
Modules that factories make carry the parameters that they were asked for. The parameters of a
module are written once only, because a producer is trusted to return a module that it has declared
itself: no other call returns this module but those that find it kept, and these are for the same
place.
-/
namespace Hardware

variable {U : UserCode} {ρ : Type}

namespace Workspace

end Workspace

namespace Machine

variable {P : Program U} {M : Machine U ρ} {place : ProducerRun} {m : ModuleId}
  {own : List (List ModuleId)} {made : ProducerRun → ModuleId → Prop}

/-- The modules that a producer declares or imports in the next step, by a call of its own. -/
def declares (P : Program U) (M : Machine U ρ) : List ModuleId :=
  match M.control with
  | .producer _ (.call _ _) _ =>
    let known := M.workspace.modules.length
    (List.range' known ((step P M).workspace.modules.length - known)).map ModuleId.mk
  | _ => []

/-- What each of the running producers has declared, brought up to date with the next step. One
that begins has declared nothing; one that ends is left out. -/
def track (P : Program U) (M : Machine U ρ) (own : List (List ModuleId)) : List (List ModuleId) :=
  let before := M.control.productions.length
  let after := (step P M).control.productions.length
  if before < after then [] :: own
  else if after < before then own.tail
  else own.modifyHead (M.declares P ++ ·)

/-- What each of the running producers has declared itself, from the innermost to the outermost,
when a session has made `n` steps. -/
def declared (P : Program U) (state : U.State) (session : Script U ρ) : Nat → List (List ModuleId)
  | 0 => []
  | n + 1 => track P (trace P state session n) (declared P state session n)

/-- Every producer that ends well returns a module that it has declared itself. -/
def Honest (P : Program U) (state : U.State) (session : Script U ρ) : Prop :=
  ∀ n run m below, (trace P state session n).control = .producer run (.done (.ok m)) below →
    ∃ own outer, declared P state session n = own :: outer ∧ m ∈ own

theorem mem_declares (h : m ∈ declares P M) :
    M.workspace.parameters.length ≤ m.index ∧
      m.index < (step P M).workspace.parameters.length := by
  unfold declares at h
  split at h
  · obtain ⟨i, mem, rfl⟩ := List.mem_map.mp h
    unfold Workspace.parameters
    rw [List.length_map, List.length_map]
    have range := List.mem_range'_1.mp mem
    simp only
    omega
  · cases h

theorem nodup_declares (P : Program U) (M : Machine U ρ) : (declares P M).Nodup := by
  unfold declares
  split
  · refine List.Nodup.map (fun i j same => ?_) (List.nodup_range' ..)
    exact ModuleId.mk.inj same
  · exact List.nodup_nil

theorem flatten_track_sublist (P : Program U) (M : Machine U ρ) (own : List (List ModuleId)) :
    (track P M own).flatten.Sublist (declares P M ++ own.flatten) := by
  unfold track
  simp only
  split
  · exact List.sublist_append_right _ _
  · split
    · exact (List.tail_sublist own).flatten.trans (List.sublist_append_right _ _)
    · cases own with
      | nil => exact List.nil_sublist _
      | cons first outer =>
          rw [List.modifyHead_cons, List.flatten_cons, List.flatten_cons, List.append_assoc]

theorem track_of_keeps {below : Stack U ρ .production} (keeps : Keeps P place m below M)
    (own : List (List ModuleId)) : track P M own = own.tail := by
  unfold track
  rw [keeps.answers, keeps.last]
  simp [Control.productions]

/-- `own` are the modules that the running producers have declared, and `made` tells for which
places modules were made. A module that was made belongs to no running producer, so its parameters
are not written again. -/
structure Tidy (M : Machine U ρ) (own : List (List ModuleId))
    (made : ProducerRun → ModuleId → Prop) : Prop where
  known : ∀ m ∈ own.flatten, m.index < M.workspace.parameters.length
  distinct : own.flatten.Nodup
  spent : ∀ place m, made place m → m ∉ own.flatten
  carries : ∀ place m, made place m → M.workspace.parameters[m.index]? = some (some place.key)
  one : ∀ place other m, made place m → made other m → place = other
  kept : ∀ place m, M.workspace.kept? place = some m → made place m

theorem tidy_initial (state : U.State) (session : Script U ρ) :
    Tidy (initial state session) [] fun _ _ => False where
  known := nofun
  distinct := List.nodup_nil
  spent := nofun
  carries := nofun
  one := nofun
  kept := nofun

theorem Tidy.known_step (t : Tidy M own made) :
    ∀ m ∈ (track P M own).flatten, m.index < (step P M).workspace.parameters.length := by
  intro m mem
  rcases List.mem_append.mp ((flatten_track_sublist P M own).subset mem) with new | old
  · exact (mem_declares new).2
  · exact (t.known m old).trans_le (step_handles P M).2.2

theorem Tidy.distinct_step (t : Tidy M own made) : (track P M own).flatten.Nodup := by
  refine (flatten_track_sublist P M own).nodup ?_
  refine List.nodup_append.mpr ⟨nodup_declares P M, t.distinct, fun m new m' old same => ?_⟩
  have late := (mem_declares new).1
  have early := t.known m' old
  rw [same] at late
  omega

/-- A module that was made is not declared again. -/
theorem Tidy.spent_step (t : Tidy M own made) (was : made place m) :
    m ∉ (track P M own).flatten := by
  intro mem
  rcases List.mem_append.mp ((flatten_track_sublist P M own).subset mem) with new | old
  · have late := (mem_declares new).1
    have early := (List.getElem?_eq_some_iff.mp (t.carries place m was)).1
    omega
  · exact t.spent place m was old

/-- A step in which no producer ends well. -/
theorem Tidy.leave (t : Tidy M own made) (leaves : LeavesPlaces P M) :
    Tidy (step P M) (track P M own) made where
  known := t.known_step
  distinct := t.distinct_step
  spent _ _ was := t.spent_step was
  carries place m was := by
    obtain ⟨new, split⟩ := leaves.steady.parameters
    have lt := (List.getElem?_eq_some_iff.mp (t.carries place m was)).1
    rw [← split, List.getElem?_append_left lt]
    exact t.carries place m was
  one := t.one
  kept place m kept := t.kept place m ((leaves.steady.kept place).symm.trans kept)

/-- A step in which a producer ends well, with a module that it has declared itself. -/
theorem Tidy.keep {below : Stack U ρ .production} (t : Tidy M own made)
    (keeps : Keeps P place m below M) {first : List ModuleId} {outer : List (List ModuleId)}
    (lists : own = first :: outer) (mem : m ∈ first) :
    Tidy (step P M) (track P M own) fun p n => made p n ∨ p = place ∧ n = m := by
  have takes := keeps.takes
  have held : m ∈ own.flatten := by
    rw [lists]
    exact List.mem_append_left _ mem
  have other : ∀ p n, made p n → n ≠ m := fun p n was same => t.spent p n was (same ▸ held)
  constructor
  case known => exact t.known_step
  case distinct => exact t.distinct_step
  case spent =>
    rintro p n (was | ⟨rfl, rfl⟩)
    · exact t.spent_step was
    · rw [track_of_keeps keeps, lists, List.tail_cons]
      have apart := t.distinct
      rw [lists, List.flatten_cons] at apart
      exact fun later => List.disjoint_of_nodup_append apart mem later
  case carries =>
    rintro p n (was | ⟨rfl, rfl⟩)
    · have ne : m.index ≠ n.index := fun e => other p n was (ModuleId.index_inj.mp e.symm)
      rw [takes.parameters, List.getElem?_set_ne ne]
      exact t.carries p n was
    · rw [takes.parameters, List.getElem?_set_self takes.known]
  case one =>
    rintro p p' n (was | ⟨rfl, rfl⟩) (was' | ⟨rfl, same⟩)
    · exact t.one p p' n was was'
    · exact absurd same (other p n was)
    · exact absurd rfl (other p' n was')
    · rfl
  case kept =>
    intro p n kept
    by_cases same : p = place
    · rw [same, takes.kept] at kept
      cases kept
      exact .inr ⟨same, rfl⟩
    · exact .inl (t.kept p n ((takes.others p same).symm.trans kept))

section Session

variable {state : U.State} {session : Script U ρ}

/-- In one of the first `n` steps the producer of `place` has ended well, with `m`. -/
def Made (P : Program U) (state : U.State) (session : Script U ρ) (n : Nat) (place : ProducerRun)
    (m : ModuleId) : Prop :=
  ∃ i < n, ∃ below, Keeps P place m below (trace P state session i)

theorem Made.mono {n k : Nat} (le : n ≤ k) (h : Made P state session n place m) :
    Made P state session k place m := by
  obtain ⟨i, lt, keeps⟩ := h
  exact ⟨i, lt.trans_le le, keeps⟩

theorem made_succ {n : Nat} : Made P state session (n + 1) place m ↔
    Made P state session n place m ∨ ∃ below, Keeps P place m below (trace P state session n) := by
  constructor
  · rintro ⟨i, lt, keeps⟩
    rcases Nat.lt_succ_iff_lt_or_eq.mp lt with lt | rfl
    · exact .inl ⟨i, lt, keeps⟩
    · exact .inr keeps
  · rintro (made | keeps)
    · exact made.mono (Nat.le_succ n)
    · exact ⟨n, Nat.lt_succ_self n, keeps⟩

/-- Induction on the steps: `Tidy` is kept by those in which a producer ends well, and by the
others. -/
theorem Honest.tidy (honest : Honest P state session) (n : Nat) :
    Tidy (trace P state session n) (declared P state session n) (Made P state session n) := by
  induction n with
  | zero =>
      have none : Made P state session 0 = fun _ _ => False := by
        funext place m
        simp [Made]
      rw [none]
      exact tidy_initial state session
  | succ n ih =>
      rw [trace_succ, declared]
      by_cases ends : ∃ place m below, Keeps P place m below (trace P state session n)
      · obtain ⟨place, m, below, keeps⟩ := ends
        obtain ⟨first, outer, lists, mem⟩ := honest n place m below keeps.last
        have now : Made P state session (n + 1) =
            fun p k => Made P state session n p k ∨ p = place ∧ k = m := by
          funext p k
          rw [made_succ]
          refine propext (or_congr_right ⟨?_, ?_⟩)
          · rintro ⟨below', keeps'⟩
            cases keeps.last.symm.trans keeps'.last
            exact ⟨rfl, rfl⟩
          · rintro ⟨rfl, rfl⟩
            exact ⟨below, keeps⟩
        rw [now]
        exact ih.keep keeps lists mem
      · have now : Made P state session (n + 1) = Made P state session n := by
          funext p k
          rw [made_succ]
          refine propext (or_iff_left ?_)
          rintro ⟨below, keeps⟩
          exact ends ⟨p, k, below, keeps⟩
        rw [now]
        exact ih.leave ((step_places P _).resolve_right ends)

end Session

end Machine

/-! A producer that fails when it runs for the first time. -/
namespace Sample

end Sample

end Hardware
