import Hardware.Declaration
import Hardware.DerivedName

/-!
Registered modules: a schema, the parameters that a factory gave it, and, for an imported
module, the module operation that it brings along.
-/
namespace Hardware

inductive Origin where
  | declared
  /-- Imported; the operation stays with the module until it moves into a design. -/
  | imported (op : Option ModuleOp)
  deriving DecidableEq, Repr

structure Module (γ : Type) where
  schema : Schema γ
  parameters : Option Attr := none
  origin : Origin
  deriving DecidableEq, Repr

namespace Module

variable {γ : Type}

def hasGenerator (m : Module γ) : Bool := m.schema.hasGenerator

def isImported (m : Module γ) : Bool :=
  match m.origin with
  | .imported _ => true
  | .declared => false

/-- A module read off an operation, whose symbol it keeps. Inputs of the clock type are clocks. -/
def ofOp (op : ModuleOp) (loc : Location) : Module γ where
  schema :=
    { name := op.sym
      inputs := op.inputs.map fun p =>
        ⟨p.name, p.type, if p.type.isClock then .clock else .input⟩
      outputs := op.outputs.map fun p => ⟨p.name, p.type, .output⟩
      opName := some op.sym
      loc }
  origin := .imported (some op)

/-- The name of the module operation: the one given explicitly, else one derived from the
parameters if the module is real and has some, else the declared name. -/
def name (m : Module γ) : Ident :=
  match m.schema.opName with
  | some name => name
  | none =>
    match m.parameters with
    | some params => if m.hasGenerator then derivedName m.schema.name params else m.schema.name
    | none => m.schema.name

/-- A one-line description of the interface. -/
def text (m : Module γ) : String :=
  let ports (ps : List PortDesc) := ", ".intercalate (ps.map PortDesc.text)
  s!"<modgen.Module: {m.name} inputs: [{ports m.schema.inputs}] " ++
    s!"outputs: [{ports m.schema.outputs}]>\n"

/-- Formal parameters of an external module, one for each of its actual ones. -/
def paramDecls (m : Module γ) : List ParamDecl :=
  ((m.parameters.bind Attr.asDict?).getD []).map fun e => ⟨e.1, e.2.paramKind⟩

def realAttributes (m : Module γ) (sym : Ident) : Attributes :=
  let attrs := m.schema.attributes
  let attrs := m.parameters.elim attrs (attrs.insert "modgen.parameters")
  attrs.insert "output_file" (.outputFile (sym ++ ".sv"))

def externalAttributes (m : Module γ) (file : String) : Attributes :=
  (m.schema.attributes.insert "verilogName" (.str m.name)).insert "output_file" (.outputFile file)

/-- The module operation for `m` under the symbol `sym`. External modules are found in `file`. -/
def toOp (m : Module γ) (file : String) (sym : Ident) : ModuleOp where
  sym
  inputs := m.schema.inputs.map PortDesc.toPort
  outputs := m.schema.outputs.map PortDesc.toPort
  attributes := if m.hasGenerator then m.realAttributes sym else m.externalAttributes file
  loc := m.schema.loc
  kind := if m.hasGenerator then .real none else .external m.paramDecls

/-- The metadata record of `m`: its name and its doc text stand in for what is not given. -/
def metadataRecord (m : Module γ) (found : Option Provenance) : Attributes :=
  (((m.schema.metadata.getD {}).withDefaults m.name m.schema.doc).withProvenance found).toAttributes

end Module

end Hardware
