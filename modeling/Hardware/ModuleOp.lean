import Hardware.Operation

/-!
Modules as a design holds them: real modules, whose body is part of the design, and
external ones, of which only the interface is known.
-/
namespace Hardware

structure Port where
  name : Ident
  type : SignalType
  deriving DecidableEq, Repr

/-- A formal parameter of an external module. It has no default: each instance binds it. -/
structure ParamDecl where
  name : Ident
  kind : ParamKind
  deriving DecidableEq, Repr

inductive ModuleKind where
  /-- A real module; it has no body until it is generated. -/
  | real (body : Option Block)
  | external (params : List ParamDecl)
  deriving DecidableEq, Repr

structure ModuleOp where
  sym : Ident
  inputs : List Port
  outputs : List Port
  attributes : Attributes
  loc : Location
  kind : ModuleKind
  deriving DecidableEq, Repr

namespace ModuleOp

def isExternal (m : ModuleOp) : Bool :=
  match m.kind with
  | .external _ => true
  | .real _ => false

def body? (m : ModuleOp) : Option Block :=
  match m.kind with
  | .real body => body
  | .external _ => none

/-- Formal parameters. A real module has none. -/
def params (m : ModuleOp) : List ParamDecl :=
  match m.kind with
  | .external params => params
  | .real _ => []

/-- Replace the body of a real module. -/
def withBody (m : ModuleOp) (body : Option Block) : ModuleOp :=
  match m.kind with
  | .real _ => { m with kind := .real body }
  | .external _ => m

/-- Change the body of a module that has one. -/
def modifyBody (m : ModuleOp) (f : Block → Block) : ModuleOp := m.withBody (m.body?.map f)

end ModuleOp

end Hardware
