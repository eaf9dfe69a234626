import Hardware.Effect
import Mathlib

/-!
How effects end. `x.Ends s Q E` says that `x`, started in `s`, either ends well in `Q`
or fails in `E`. The laws follow the combinators, so that an operation is read from its
first step to its last without unfolding what a step does.
-/
namespace Hardware.Effect

variable {σ τ α β : Type}

def Ends (x : Effect σ α) (s : σ) (Q : α → σ → Prop) (E : Error → σ → Prop) : Prop :=
  match x s with
  | .ok a t => Q a t
  | .error e t => E e t

section

variable {x : Effect σ α} {f : α → Effect σ β} {s : σ} {Q Q' : α → σ → Prop}
  {R : β → σ → Prop} {E E' : Error → σ → Prop}

theorem Ends.imp (h : x.Ends s Q E) (hQ : ∀ a t, Q a t → Q' a t)
    (hE : ∀ e t, E e t → E' e t) : x.Ends s Q' E' := by
  unfold Ends at *
  cases hx : x s with
  | ok a t =>
      rw [hx] at h
      exact hQ a t h
  | error e t =>
      rw [hx] at h
      exact hE e t h

theorem Ends.and (h : x.Ends s Q E) (h' : x.Ends s Q' E') :
    x.Ends s (fun a t => Q a t ∧ Q' a t) fun e t => E e t ∧ E' e t := by
  unfold Ends at *
  cases hx : x s with
  | ok a t =>
      rw [hx] at h h'
      exact ⟨h, h'⟩
  | error e t =>
      rw [hx] at h h'
      exact ⟨h, h'⟩

theorem Ends.of_eq {t : σ} (hs : s = t) (h : x.Ends t Q E) : x.Ends s Q E := by
  rw [hs]
  exact h

theorem Ends.of_ok {a : α} {t : σ} (h : x.Ends s Q E) (hx : x s = .ok a t) : Q a t := by
  unfold Ends at h
  rwa [hx] at h

theorem ends_of_ok {a : α} {t : σ} (hx : x s = .ok a t) (h : Q a t) : x.Ends s Q E := by
  unfold Ends
  rwa [hx]

theorem ends_of_error {e : Error} {t : σ} (hx : x s = .error e t) (h : E e t) : x.Ends s Q E := by
  unfold Ends
  rwa [hx]

theorem Ends.of_error {e : Error} {t : σ} (h : x.Ends s Q E) (hx : x s = .error e t) :
    E e t := by
  unfold Ends at h
  rwa [hx] at h

/-- What holds in both cases holds of the state that is left. -/
theorem Ends.outcome {S : σ → Prop} (h : x.Ends s (fun _ t => S t) fun _ t => S t) :
    S (x.outcome s).2 := by
  unfold Ends at h
  unfold Effect.outcome
  cases hx : x s <;> simpa [hx] using h

theorem ends_bind_iff :
    (x >>= f).Ends s R E ↔ x.Ends s (fun a t => (f a).Ends t R E) E := by
  unfold Ends
  change (match EStateM.bind x f s with | .ok a t => R a t | .error e t => E e t) ↔ _
  unfold EStateM.bind
  cases x s <;> rfl

theorem Ends.bind (h : x.Ends s (fun a t => (f a).Ends t R E) E) : (x >>= f).Ends s R E :=
  ends_bind_iff.mpr h

end

section

variable {s : σ} {Q : α → σ → Prop} {E : Error → σ → Prop}

@[simp] theorem ends_pure {a : α} : (pure a : Effect σ α).Ends s Q E ↔ Q a s := Iff.rfl

@[simp] theorem ends_throw {e : Error} : (throw e : Effect σ α).Ends s Q E ↔ E e s := Iff.rfl

@[simp] theorem ends_get {Q : σ → σ → Prop} : (get : Effect σ σ).Ends s Q E ↔ Q s s := Iff.rfl

@[simp] theorem ends_set {t : σ} {Q : PUnit → σ → Prop} :
    (set t : Effect σ PUnit).Ends s Q E ↔ Q ⟨⟩ t := Iff.rfl

@[simp] theorem ends_modify {f : σ → σ} {Q : PUnit → σ → Prop} :
    (modify f : Effect σ PUnit).Ends s Q E ↔ Q ⟨⟩ (f s) := Iff.rfl

theorem ends_ofExcept {r : Except Error α} (hQ : ∀ a, r = .ok a → Q a s)
    (hE : ∀ e, r = .error e → E e s) : (ofExcept r).Ends s Q E := by
  cases r with
  | ok a => exact hQ a rfl
  | error e => exact hE e rfl

theorem ends_on {part : σ → τ} {put : τ → σ → σ} {x : Effect τ α}
    (h : x.Ends (part s) (fun a t => Q a (put t s)) fun e t => E e (put t s)) :
    (x.on part put).Ends s Q E := by
  unfold Ends on at *
  cases hx : x (part s) <;> simpa [hx] using h

theorem ends_locating {loc : Location} {x : Effect σ α}
    (h : x.Ends s Q fun e t => E (e.located loc) t) : (x.locating loc).Ends s Q E := by
  unfold Ends locating at *
  cases hx : x s <;> simpa [hx] using h

/-- A list of effects keeps an invariant that each of them keeps. -/
theorem ends_mapM {S : σ → Prop} {f : α → Effect σ β} :
    ∀ {as : List α} {s : σ}, S s →
      (∀ a ∈ as, ∀ t, S t → (f a).Ends t (fun _ u => S u) E) →
        (as.mapM f).Ends s (fun _ t => S t) E
  | [], _, hs, _ => by simpa using hs
  | a :: as, _, hs, step => by
      rw [List.mapM_cons]
      refine .bind ((step a (by simp) _ hs).imp (fun b t ht => ?_) fun _ _ h => h)
      refine .bind ((ends_mapM ht fun a' h => step a' (by simp [h])).imp (fun bs u hu => ?_)
        fun _ _ h => h)
      exact hu

theorem ends_forM {S : σ → Prop} {f : α → Effect σ PUnit} :
    ∀ {as : List α} {s : σ}, S s →
      (∀ a ∈ as, ∀ t, S t → (f a).Ends t (fun _ u => S u) E) →
        (as.forM f).Ends s (fun _ t => S t) E
  | [], _, hs, _ => hs
  | a :: as, _, hs, step =>
      .bind ((step a (by simp) _ hs).imp
        (fun _ _ ht => ends_forM ht fun a' h => step a' (by simp [h])) fun _ _ h => h)

end

end Hardware.Effect
