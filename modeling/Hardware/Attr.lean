import Hardware.Ident
import Hardware.SignalType
import Hardware.Text.Quoted
import Hardware.OrderedMap

/-!
Attribute values, which are attached to operations and serve as module parameters:
their equality, their two written forms, and the kind of parameter each one can bind.
-/
namespace Hardware

/-- `dict` keeps its entries as given; a canonical dictionary is sorted by key. -/
inductive Attr where
  | unit
  | bool (b : Bool)
  | int (i : Int)
  | str (s : String)
  | type (t : SignalType)
  | array (values : List Attr)
  | dict (entries : List (Ident × Attr))
  | outputFile (name : String)
  | appId (name : Ident) (index : Option Nat)
  | symbolRef (symbol : Ident)
  deriving Inhabited, Repr

/-- The kinds of value that a formal parameter accepts. -/
inductive ParamKind where
  | unit | bool | integer | string | type | array | dict | symbol
  deriving DecidableEq, Repr

/-- A name with an optional index, as in `fifo[2]`. -/
def indexed (name : Ident) : Option Nat → String
  | some i => s!"{name}[{i}]"
  | none => name

namespace ParamKind

/-- The name of the kind. -/
def name : ParamKind → String
  | .unit => "unit"
  | .bool => "bool"
  | .integer => "integer"
  | .string => "string"
  | .type => "type"
  | .array => "array"
  | .dict => "dict"
  | .symbol => "symbol"

def all : List ParamKind := [.unit, .bool, .integer, .string, .type, .array, .dict, .symbol]

/-- The kind with a name. -/
def named? (name : String) : Option ParamKind := all.find? fun k => k.name = name

/-- Units and strings have no type of their own and are both written `none`. -/
def text : ParamKind → String
  | .unit => "none"
  | .bool => "i1"
  | .integer => "i64"
  | .string => "none"
  | .type => "!hw.type"
  | .array => "!hw.array"
  | .dict => "!hw.dict"
  | .symbol => "!hw.symbol"

end ParamKind

namespace Attr

mutual

def same : Attr → Attr → Bool
  | .unit, .unit => true
  | .bool a, .bool b => a = b
  | .int a, .int b => a = b
  | .str a, .str b => a = b
  | .type a, .type b => a = b
  | .array as, .array bs => sameAll as bs
  | .dict as, .dict bs => sameEntries as bs
  | .outputFile a, .outputFile b => a = b
  | .appId a i, .appId b j => a = b && i = j
  | .symbolRef a, .symbolRef b => a = b
  | _, _ => false

def sameAll : List Attr → List Attr → Bool
  | [], [] => true
  | a :: as, b :: bs => same a b && sameAll as bs
  | _, _ => false

def sameEntries : List (Ident × Attr) → List (Ident × Attr) → Bool
  | [], [] => true
  | (k, a) :: as, (l, b) :: bs => k = l && same a b && sameEntries as bs
  | _, _ => false

end

mutual

theorem eq_of_same : ∀ a b : Attr, same a b = true → a = b
  | .unit, b, h => by cases b <;> simp_all [same]
  | .bool _, b, h => by cases b <;> simp_all [same]
  | .int _, b, h => by cases b <;> simp_all [same]
  | .str _, b, h => by cases b <;> simp_all [same]
  | .type _, b, h => by cases b <;> simp_all [same]
  | .array as, b, h => by
    cases b <;> simp_all [same]
    exact eq_of_sameAll _ _ h
  | .dict as, b, h => by
    cases b <;> simp_all [same]
    exact eq_of_sameEntries _ _ h
  | .outputFile _, b, h => by cases b <;> simp_all [same]
  | .appId _ _, b, h => by cases b <;> simp_all [same]
  | .symbolRef _, b, h => by cases b <;> simp_all [same]

theorem eq_of_sameAll : ∀ as bs : List Attr, sameAll as bs = true → as = bs
  | [], bs, h => by cases bs <;> simp_all [sameAll]
  | a :: as, bs, h => by
    cases bs <;> simp_all [sameAll]
    exact ⟨eq_of_same _ _ h.1, eq_of_sameAll _ _ h.2⟩

theorem eq_of_sameEntries :
    ∀ as bs : List (Ident × Attr), sameEntries as bs = true → as = bs
  | [], bs, h => by cases bs <;> simp_all [sameEntries]
  | (_, _) :: _, [], h => by simp [sameEntries] at h
  | (k, a) :: as, (l, b) :: bs, h => by
    simp only [sameEntries, Bool.and_eq_true, decide_eq_true_eq] at h
    rw [h.1.1, eq_of_same _ _ h.1.2, eq_of_sameEntries _ _ h.2]

end

mutual

theorem same_self : ∀ a : Attr, same a a = true
  | .unit | .bool _ | .int _ | .str _ | .type _ | .outputFile _ | .appId _ _
  | .symbolRef _ => by simp [same]
  | .array as => by simp [same, sameAll_self as]
  | .dict as => by simp [same, sameEntries_self as]

theorem sameAll_self : ∀ as : List Attr, sameAll as as = true
  | [] => by simp [sameAll]
  | a :: as => by simp [sameAll, same_self a, sameAll_self as]

theorem sameEntries_self : ∀ as : List (Ident × Attr), sameEntries as as = true
  | [] => by simp [sameEntries]
  | (_, a) :: as => by simp [sameEntries, same_self a, sameEntries_self as]

end

instance : DecidableEq Attr := fun a b =>
  decidable_of_iff (same a b = true) ⟨eq_of_same a b, fun h => h ▸ same_self a⟩

def asDict? : Attr → Option (List (Ident × Attr))
  | .dict entries => some entries
  | _ => none

def asString? : Attr → Option String
  | .str s | .outputFile s => some s
  | _ => none

/-- The kind of a formal parameter that this value binds. -/
def paramKind : Attr → ParamKind
  | .unit => .unit
  | .bool _ => .bool
  | .int _ => .integer
  | .str _ | .outputFile _ => .string
  | .type _ => .type
  | .array _ => .array
  | .dict _ => .dict
  | .appId _ _ | .symbolRef _ => .symbol

mutual

/-- The value as the printed design shows it. -/
def text : Attr → String
  | .unit => "unit"
  | .bool b => toString b
  | .int i => s!"{i} : i64"
  | .str s => Text.quote s
  | .type t => t.text
  | .array vs => "[" ++ ", ".intercalate (texts vs) ++ "]"
  | .dict es => "\x7b" ++ ", ".intercalate (entryTexts es) ++ "\x7d"
  | .outputFile name => "#hw.output_file<" ++ Text.quote name ++ ">"
  | .appId name index => "#esi.appid<" ++ indexed (Text.quote name) index ++ ">"
  | .symbolRef symbol => "@" ++ symbol

def texts : List Attr → List String
  | [] => []
  | v :: vs => v.text :: texts vs

def entryTexts : List (Ident × Attr) → List String
  | [] => []
  | (k, v) :: es => (k ++ " = " ++ v.text) :: entryTexts es

end

mutual

/-- The bare value, from which names are derived. -/
def plain : Attr → String
  | .unit => ""
  | .bool b => toString b
  | .int i => toString i
  | .str s | .outputFile s => s
  | .type t => t.text
  | .array vs => "[" ++ ", ".intercalate (plains vs) ++ "]"
  | .dict es => "\x7b" ++ ", ".intercalate (entryPlains es) ++ "\x7d"
  | .appId name index => indexed name index
  | .symbolRef symbol => symbol

def plains : List Attr → List String
  | [] => []
  | v :: vs => v.plain :: plains vs

def entryPlains : List (Ident × Attr) → List String
  | [] => []
  | (k, v) :: es => (k ++ ": " ++ v.plain) :: entryPlains es

end

end Attr

/-- Attributes of one operation or module, in the order in which they were set. -/
abbrev Attributes := OrderedMap Ident Attr

namespace Attributes

/-- Attributes as they follow a printed operation, nothing if there are none. -/
def text (attrs : Attributes) : String :=
  if attrs.isEmpty then ""
  else " attributes \x7b" ++ ", ".intercalate (attrs.entries.map fun e => e.1 ++ " = " ++ e.2.text)
    ++ "\x7d"

end Attributes

end Hardware
