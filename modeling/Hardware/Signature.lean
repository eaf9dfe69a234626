import Hardware.Attr.Canonical

/-!
Parameters of module factories, and the binding of call arguments to them.
-/
namespace Hardware

/-- How a parameter takes arguments. -/
inductive ParamMode where
  /-- By position or by name; without an argument, the default. -/
  | named (default : Option Attr)
  | varPositional
  | varKeyword
  deriving DecidableEq, Repr

structure Param where
  name : Ident
  mode : ParamMode
  deriving DecidableEq, Repr

namespace Param

def default? (p : Param) : Option Attr :=
  match p.mode with
  | .named default => default
  | _ => none

end Param

/-- The arguments of a call, by position and by name. -/
structure Args where
  positional : List Attr := []
  keyword : List (Ident × Attr) := []
  deriving DecidableEq, Repr

/-- Arguments by parameter name, in parameter order. -/
abbrev BoundArgs := OrderedMap Ident Attr

namespace BoundArgs

/-- The integer bound to `name`. -/
def int (b : BoundArgs) (name : Ident) : Except Error Int :=
  match b.get? name with
  | some (.int i) => pure i
  | some other => throw (.declaration (.notAnInteger name other))
  | none => throw (.declaration (.noArgument name))

/-- The canonical parameters: the arguments whose names are not reserved, as a dictionary
that is sorted at every depth. -/
def canonical (b : BoundArgs) : Except Error Attr :=
  Attr.ofEntries ((b.entries.filter fun e => !e.1.isReserved).map fun e => (e.1, e.2.canonical))

end BoundArgs

/-- The formal parameters of a factory, in order. -/
structure Signature where
  params : List Param
  deriving DecidableEq, Repr

namespace Signature

def names (s : Signature) : List Ident := s.params.map Param.name

/-- Put a keyword argument into the slot of its parameter, which must be free. -/
def place (s : Signature) (slots : List (Option Attr)) (arg : Ident × Attr) :
    Except Error (List (Option Attr)) :=
  match s.params.findIdx? fun p => p.name = arg.1 with
  | none => throw (.declaration (.unexpectedKeyword arg.1))
  | some i =>
    if (slots[i]?).join.isSome then throw (.declaration (.repeatedArgument arg.1))
    else pure (slots.set i (some arg.2))

/-- Bind arguments to the parameters: first by position, then by keyword, then defaults. -/
def bind (s : Signature) (args : Args) : Except Error BoundArgs := do
  let given := args.positional.length
  if given > s.params.length then
    throw (.declaration (.tooManyArguments s.params.length given))
  let free := List.replicate (s.params.length - given) none
  let slots ← args.keyword.foldlM s.place (args.positional.map some ++ free)
  let bound := s.params.zipWith (fun p slot => (p.name, slot <|> p.default?)) slots
  let missing := (bound.filter fun e => e.2.isNone).map Prod.fst
  if !missing.isEmpty then throw (.declaration (.missingArguments missing))
  pure (.ofList (bound.filterMap fun e => e.2.map fun v => (e.1, v)))

/-- Fails for a parameter that takes any number of arguments, which `factory` must not have. -/
def checkModes (s : Signature) (factory : Ident) : Except Error Unit :=
  s.params.forM fun p =>
    match p.mode with
    | .named _ => pure ()
    | .varPositional => throw (.declaration (.variadicPositional p.name factory))
    | .varKeyword => throw (.declaration (.variadicKeyword p.name factory))

end Signature

end Hardware
