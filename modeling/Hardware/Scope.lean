import Hardware.Effect
import Hardware.NameSupply

/-!
Scopes of local symbols. Each running generator has a scope of its own; the scopes lie
on a stack, and only the innermost one grants symbols.
-/
namespace Hardware

/-- One scope: the symbols granted in it, and what else its owner keeps with it. -/
structure Scope (α : Type) where
  names : NameSupply := {}
  site : α
  deriving DecidableEq, Repr

/-- Scopes from the innermost to the outermost. -/
structure ScopeStack (α : Type) where
  scopes : List (Scope α) := []
  deriving DecidableEq, Repr

namespace ScopeStack

variable {α : Type}

def depth (s : ScopeStack α) : Nat := s.scopes.length

/-- Enter a scope in which no symbol is granted yet. -/
def enter (site : α) (s : ScopeStack α) : ScopeStack α := ⟨{ site } :: s.scopes⟩

/-- Leave the innermost scope, if there is one. -/
def leave (s : ScopeStack α) : ScopeStack α := ⟨s.scopes.tail⟩

/-- The innermost scope. -/
def current : Effect (ScopeStack α) (Scope α) := do
  match (← get).scopes with
  | scope :: _ => pure scope
  | [] => throw (.internal .noScope)

/-- Leave the innermost scope and return it. -/
def exit : Effect (ScopeStack α) (Scope α) := do
  match (← get).scopes with
  | scope :: outer =>
    set (ScopeStack.mk outer)
    pure scope
  | [] => throw (.internal .scopeNotEntered)

/-- A symbol made from `base` that the innermost scope has not granted before. -/
def uniquify (base : Ident) : Effect (ScopeStack α) Ident := do
  match (← get).scopes with
  | scope :: outer =>
    let (name, names) := scope.names.uniquify base
    set (ScopeStack.mk ({ scope with names } :: outer))
    pure name
  | [] => throw (.internal .noScope)

end ScopeStack

end Hardware
