import Hardware.Error

/-!
Operations on a state that may fail. What an operation did before it failed stays
done, so each operation says itself what a failure leaves behind: its result holds the
state in both cases.
-/
namespace Hardware

abbrev Effect (σ α : Type) := EStateM Error σ α

namespace Effect

variable {σ τ α β : Type}

/-- Fail if `r` does. -/
def ofExcept : Except Error α → Effect σ α
  | .ok a => pure a
  | .error e => throw e

/-- Run `x` on a part of the state. -/
def on (part : σ → τ) (put : τ → σ → σ) (x : Effect τ α) : Effect σ α := fun s =>
  match x (part s) with
  | .ok a t => .ok a (put t s)
  | .error e t => .error e (put t s)

/-- Report a failure of `x` as being about `loc`. -/
def locating (loc : Location) (x : Effect σ α) : Effect σ α := fun s =>
  match x s with
  | .ok a t => .ok a t
  | .error e t => .error (e.located loc) t

/-- The outcome of `x` from `s`, apart from the state. -/
def outcome (x : Effect σ α) (s : σ) : Except Error α × σ :=
  match x s with
  | .ok a t => (.ok a, t)
  | .error e t => (.error e, t)

end Effect

end Hardware
