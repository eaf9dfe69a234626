import Hardware.Error
import Hardware.Ident

/-!
Canonical attributes, in which every dictionary is sorted by key. Two attributes that
differ only in the order of dictionary entries have the same canonical form.
-/
namespace Hardware

namespace Attr

/-- A dictionary with its entries sorted by key. Fails if a key occurs twice. -/
def ofEntries (entries : List (Ident × Attr)) : Except Error Attr :=
  let sorted := sortByKey Prod.fst entries
  match firstRepeated Prod.fst sorted with
  | some key => throw (.structural (.repeatedKey key))
  | none => pure (.dict sorted)

mutual

/-- The same value with every dictionary in it sorted by key. Entries with equal keys
keep their order. -/
def canonical : Attr → Attr
  | .dict es => .dict (sortByKey Prod.fst (canonicalEntries es))
  | .array vs => .array (canonicals vs)
  | .unit => .unit
  | .bool b => .bool b
  | .int i => .int i
  | .str s => .str s
  | .type t => .type t
  | .outputFile name => .outputFile name
  | .appId name index => .appId name index
  | .symbolRef symbol => .symbolRef symbol

def canonicals : List Attr → List Attr
  | [] => []
  | v :: vs => v.canonical :: canonicals vs

def canonicalEntries : List (Ident × Attr) → List (Ident × Attr)
  | [] => []
  | (k, v) :: es => (k, v.canonical) :: canonicalEntries es

end

end Attr

end Hardware
