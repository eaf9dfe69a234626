/-!
Identifiers: the names of ports, modules, parameters and symbols. They are plain
text, compared code point by code point, and one that starts with an underscore is
reserved. A list is sorted by an identifier of its elements so that those with equal keys
keep their order.
-/
namespace Hardware

abbrev Ident := String

namespace Ident

/-- Reserved identifiers start with an underscore. -/
def isReserved (name : Ident) : Bool := name.toList.head? == some '_'

/-- A list of names as it stands in a message. -/
def join (names : List Ident) : String := ", ".intercalate names

end Ident

variable {α : Type}

/-- Put `x` in front of the first element whose key is not smaller. -/
def insertByKey (key : α → Ident) (x : α) : List α → List α
  | [] => [x]
  | y :: ys => if key x ≤ key y then x :: y :: ys else y :: insertByKey key x ys

def sortByKey (key : α → Ident) : List α → List α
  | [] => []
  | x :: xs => insertByKey key x (sortByKey key xs)

/-- The first key that two neighbours share. In a sorted list it is the least repeated key. -/
def firstRepeated (key : α → Ident) : List α → Option Ident
  | x :: y :: rest => if key x = key y then some (key x) else firstRepeated key (y :: rest)
  | _ => none

end Hardware
