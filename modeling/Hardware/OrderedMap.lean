/-!
Finite maps that remember an order. A key that is set anew goes to the end of the
order, whether or not it was there before; a value changed in place keeps its position.
-/
namespace Hardware

/-- Entries in the order in which they were last set. -/
structure OrderedMap (α β : Type) where
  entries : List (α × β) := []
  deriving DecidableEq, Repr

namespace OrderedMap

variable {α β : Type} [DecidableEq α]

def empty : OrderedMap α β := {}

def keys (m : OrderedMap α β) : List α := m.entries.map Prod.fst

def values (m : OrderedMap α β) : List β := m.entries.map Prod.snd

def size (m : OrderedMap α β) : Nat := m.entries.length

def isEmpty (m : OrderedMap α β) : Bool := m.entries.isEmpty

def get? (m : OrderedMap α β) (k : α) : Option β := m.entries.lookup k

def contains (m : OrderedMap α β) (k : α) : Bool := (m.get? k).isSome

def erase (m : OrderedMap α β) (k : α) : OrderedMap α β :=
  ⟨m.entries.filter fun e => e.1 ≠ k⟩

/-- Set `k` to `v`, behind every other entry. -/
def insert (m : OrderedMap α β) (k : α) (v : β) : OrderedMap α β :=
  ⟨(m.erase k).entries ++ [(k, v)]⟩

/-- Change the value at `k` in place. Nothing happens if `k` is not set. -/
def modify (m : OrderedMap α β) (k : α) (f : β → β) : OrderedMap α β :=
  ⟨m.entries.map fun e => if e.1 = k then (e.1, f e.2) else e⟩

/-- Set the entries one after the other. -/
def ofList (entries : List (α × β)) : OrderedMap α β :=
  entries.foldl (fun m e => m.insert e.1 e.2) empty

end OrderedMap

end Hardware
