import Hardware.SignalType

/-!
Raw constants, which a user gives in place of a signal.
-/
namespace Hardware

inductive Constant where
  | int (value : Int)
  | array (values : List Constant)
  deriving Inhabited, Repr

namespace Constant

mutual

def text : Constant → String
  | .int v => toString v
  | .array vs => "[" ++ ", ".intercalate (texts vs) ++ "]"

def texts : List Constant → List String
  | [] => []
  | v :: vs => v.text :: texts vs

end

mutual

def same : Constant → Constant → Bool
  | .int a, .int b => a = b
  | .array as, .array bs => sameAll as bs
  | _, _ => false

def sameAll : List Constant → List Constant → Bool
  | [], [] => true
  | a :: as, b :: bs => same a b && sameAll as bs
  | _, _ => false

end

mutual

theorem same_iff : ∀ a b : Constant, same a b = true ↔ a = b
  | .int _, .int _ => by simp [same]
  | .array as, .array bs => by simp [same, sameAll_iff as bs]
  | .int _, .array _ => by simp [same]
  | .array _, .int _ => by simp [same]

theorem sameAll_iff : ∀ as bs : List Constant, sameAll as bs = true ↔ as = bs
  | [], [] => by simp [sameAll]
  | a :: as, b :: bs => by simp [sameAll, same_iff a b, sameAll_iff as bs]
  | [], _ :: _ => by simp [sameAll]
  | _ :: _, [] => by simp [sameAll]

end

instance : DecidableEq Constant := fun a b => decidable_of_iff _ (same_iff a b)

def ofBool (b : Bool) : Constant := .int (if b then 1 else 0)

end Constant

/-- The constant of a type whose bits are all zero. An empty array needs no element, which
could be too large to build. -/
def SignalType.zero : SignalType → Constant
  | .array elem len => .array (if len = 0 then [] else List.replicate len elem.zero)
  | _ => .int 0

end Hardware
