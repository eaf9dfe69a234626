import Hardware.Ident

/-!
A supply of names for one scope. The first request for a name is granted as it
stands; a later one gets the first of `name_1`, `name_2`, … that is still free.
-/
namespace Hardware

/-- `counters` holds, newest first, the last suffix granted for each base name:
every smaller suffix is known to be taken, so a search resumes behind it. -/
structure NameSupply where
  issued : List Ident := []
  counters : List (Ident × Nat) := []
  deriving DecidableEq, Repr

namespace NameSupply

/-- A supply that never grants one of `names`. -/
def ofTaken (names : List Ident) : NameSupply := { issued := names }

def suffixed (base : Ident) (k : Nat) : Ident := base ++ "_" ++ toString k

/-- The first suffix from `k` on that is free. Among `fuel` suffixes more than there
are names one is free, so the search of `firstFree` never ends for want of fuel. -/
def search (issued : List Ident) (base : Ident) : Nat → Nat → Nat
  | 0, k => k
  | fuel + 1, k =>
    if issued.contains (suffixed base k) then search issued base fuel (k + 1) else k

def firstFree (issued : List Ident) (base : Ident) (k : Nat) : Nat :=
  search issued base (issued.length + 1) k

/-- True of every name that was granted or reserved. -/
def contains (s : NameSupply) (name : Ident) : Bool := s.issued.contains name

/-- Reserve names without granting them. -/
def reserve (s : NameSupply) (names : List Ident) : NameSupply :=
  { s with issued := names ++ s.issued }

/-- The last suffix granted for `base`, zero if there is none. -/
def counter (s : NameSupply) (base : Ident) : Nat := (s.counters.lookup base).getD 0

/-- A free name for `base`, and the supply that has granted it. -/
def uniquify (s : NameSupply) (base : Ident) : Ident × NameSupply :=
  if s.contains base then
    let k := firstFree s.issued base (s.counter base + 1)
    let name := suffixed base k
    (name, { issued := name :: s.issued, counters := (base, k) :: s.counters })
  else (base, { s with issued := base :: s.issued })

end NameSupply

end Hardware
