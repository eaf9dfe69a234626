import Hardware.Proofs.Effect
import Hardware.Workspace

/-!
Handles of a workspace: what a change of one thing under its handle leaves of the others,
and how the operations that look a handle up end.
-/
namespace Hardware

theorem SystemId.index_inj {s t : SystemId} : s.index = t.index ↔ s = t := by
  cases s
  cases t
  simp

theorem ModuleId.index_inj {m n : ModuleId} : m.index = n.index ↔ m = n := by
  cases m
  cases n
  simp

theorem InstanceId.index_inj {i j : InstanceId} : i.index = j.index ↔ i = j := by
  cases i
  cases j
  simp

namespace Workspace

variable {U : UserCode} {ws : Workspace U}

theorem lt_of_system? {s : SystemId} {sys : System} (h : ws.system? s = some sys) :
    s.index < ws.systems.length := (List.getElem?_eq_some_iff.mp h).1

theorem system?_setSystem {s : SystemId} {sys : System} (h : ws.system? s = some sys)
    (new : System) (t : SystemId) :
    (ws.setSystem s new).system? t = if t = s then some new else ws.system? t := by
  unfold system? setSystem
  rw [List.getElem?_set]
  by_cases hts : t = s
  · subst hts
    simp [lt_of_system? h]
  · simp [SystemId.index_inj, hts, Ne.symm hts]

theorem system?_setSystem_self {s : SystemId} {sys : System} (h : ws.system? s = some sys)
    (new : System) : (ws.setSystem s new).system? s = some new := by
  rw [system?_setSystem h, if_pos rfl]

theorem system?_setSystem_ne {s t : SystemId} (new : System) (h : t ≠ s) :
    (ws.setSystem s new).system? t = ws.system? t := by
  simp [system?, setSystem, SystemId.index_inj, h.symm]

@[simp] theorem module?_setSystem (ws : Workspace U) (s : SystemId) (sys : System) (m : ModuleId) :
    (ws.setSystem s sys).module? m = ws.module? m := rfl

@[simp] theorem instance?_setSystem (ws : Workspace U) (s : SystemId) (sys : System)
    (i : InstanceId) : (ws.setSystem s sys).instance? i = ws.instance? i := rfl

/-- Setting a system twice is setting it once. -/
@[simp] theorem setSystem_setSystem (ws : Workspace U) (s : SystemId) (sys new : System) :
    (ws.setSystem s sys).setSystem s new = ws.setSystem s new := by
  simp [setSystem]

theorem setSystem_self {s : SystemId} {sys : System} (h : ws.system? s = some sys) :
    ws.setSystem s sys = ws := by
  obtain ⟨hlt, rfl⟩ := List.getElem?_eq_some_iff.mp h
  simp [setSystem]

theorem module?_setModule {m : ModuleId} {x : Module U.GeneratorCode} (h : ws.module? m = some x)
    (new : Module U.GeneratorCode) (n : ModuleId) :
    (ws.setModule m new).module? n = if n = m then some new else ws.module? n := by
  unfold module? setModule
  rw [List.getElem?_set]
  by_cases hnm : n = m
  · subst hnm
    simp [(List.getElem?_eq_some_iff.mp h).1]
  · simp [ModuleId.index_inj, hnm, Ne.symm hnm]

theorem modifySystem_eq {s : SystemId} {sys : System} (h : ws.system? s = some sys)
    (f : System → System) : ws.modifySystem s f = ws.setSystem s (f sys) := by
  simp [modifySystem, h]

section Release

variable {τ : Type} {f : Workspace U → τ}

/-- What does not depend on instances stays as it is when they are released. -/
theorem releaseInstance_leaves (apart : ∀ (ws : Workspace U) instances,
    f { ws with instances } = f ws) (ws : Workspace U) (i : InstanceId) :
    f (ws.releaseInstance i) = f ws := by
  unfold releaseInstance
  split
  · exact apart ws _
  · rfl

theorem releaseInstances_leaves (apart : ∀ (ws : Workspace U) instances,
    f { ws with instances } = f ws) (ws : Workspace U) (is : List InstanceId) :
    f (ws.releaseInstances is) = f ws := by
  unfold releaseInstances
  induction is generalizing ws with
  | nil => rfl
  | cons i is ih => rw [List.foldl_cons, ih, releaseInstance_leaves apart]

@[simp] theorem system?_releaseInstance (ws : Workspace U) (i : InstanceId) (s : SystemId) :
    (ws.releaseInstance i).system? s = ws.system? s :=
  releaseInstance_leaves (f := fun ws => ws.system? s) (fun _ _ => rfl) ws i

@[simp] theorem module?_releaseInstance (ws : Workspace U) (i : InstanceId) (m : ModuleId) :
    (ws.releaseInstance i).module? m = ws.module? m :=
  releaseInstance_leaves (f := fun ws => ws.module? m) (fun _ _ => rfl) ws i

theorem instance?_releaseInstance (ws : Workspace U) (i j : InstanceId) :
    (ws.releaseInstance i).instance? j =
      if j = i then (ws.instance? j).map fun x => { x with site := none } else ws.instance? j := by
  unfold releaseInstance
  split
  · rename_i x hx
    unfold instance? setInstance at *
    rw [List.getElem?_set]
    by_cases hji : j = i
    · subst hji
      obtain ⟨hlt, rfl⟩ := List.getElem?_eq_some_iff.mp hx
      simp [hlt]
    · simp [InstanceId.index_inj, hji, Ne.symm hji]
  · rename_i hx
    split
    · rename_i hji
      subst hji
      simp [hx]
    · rfl

@[simp] theorem system?_releaseInstances (ws : Workspace U) (is : List InstanceId) (s : SystemId) :
    (ws.releaseInstances is).system? s = ws.system? s :=
  releaseInstances_leaves (f := fun ws => ws.system? s) (fun _ _ => rfl) ws is

@[simp] theorem module?_releaseInstances (ws : Workspace U) (is : List InstanceId) (m : ModuleId) :
    (ws.releaseInstances is).module? m = ws.module? m :=
  releaseInstances_leaves (f := fun ws => ws.module? m) (fun _ _ => rfl) ws is

/-- Exactly the instances of the list lose their sites. -/
theorem instance?_releaseInstances (ws : Workspace U) (is : List InstanceId) (j : InstanceId) :
    (ws.releaseInstances is).instance? j =
      if j ∈ is then (ws.instance? j).map fun x => { x with site := none }
      else ws.instance? j := by
  unfold releaseInstances
  induction is generalizing ws with
  | nil => simp
  | cons i is ih =>
      rw [List.foldl_cons, ih, instance?_releaseInstance]
      by_cases hji : j = i
      · subst hji
        by_cases hj : j ∈ is <;> simp [hj, Function.comp_def]
      · simp [hji]

end Release

section Ends

variable {α : Type} {Q : α → Workspace U → Prop} {E : Error → Workspace U → Prop}

theorem resolve_ends {look : Workspace U → Option α} (hQ : ∀ a, look ws = some a → Q a ws)
    (hE : look ws = none → E (.internal .unknownHandle) ws) : (resolve look).Ends ws Q E := by
  unfold resolve
  refine .bind ?_
  simp only [Effect.ends_get]
  cases h : look ws with
  | some a => exact hQ a h
  | none => exact hE h

theorem onSystem_ends {s : SystemId} {x : Effect System α}
    (hE : ws.system? s = none → E (.internal .unknownHandle) ws)
    (hx : ∀ sys, ws.system? s = some sys →
      x.Ends sys (fun a new => Q a (ws.setSystem s new)) fun e new => E e (ws.setSystem s new)) :
    (onSystem s x).Ends ws Q E :=
  .bind (resolve_ends (fun sys h => Effect.ends_on (hx sys h)) hE)

/-- A system that is known to be there is found. -/
theorem onSystem_ends_of_some {s : SystemId} {sys : System} {x : Effect System α}
    (hs : ws.system? s = some sys)
    (hx : x.Ends sys (fun a new => Q a (ws.setSystem s new)) fun e new =>
      E e (ws.setSystem s new)) : (onSystem s x).Ends ws Q E := by
  refine onSystem_ends (fun none => ?_) fun sys' hs' => ?_
  · rw [hs] at none
    cases none
  · rw [hs] at hs'
    cases hs'
    exact hx

theorem updateSystem_ends {s : SystemId} {sys : System} {f : System → System}
    {Q : Unit → Workspace U → Prop} (hs : ws.system? s = some sys)
    (hQ : Q () (ws.setSystem s (f sys))) : (updateSystem s f).Ends ws Q E :=
  onSystem_ends_of_some hs hQ

end Ends

end Workspace

end Hardware
