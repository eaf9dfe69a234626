import Hardware.Metadata
import Hardware.ModuleOp

/-!
Declarations of modules. A declaration collects ports, generators, attributes and
metadata in the order in which they are given; once checked, it is a schema. The body of
a generator is known here only by a code, of a type `γ` that the user of the library
chooses.
-/
namespace Hardware

/-- Clocks and resets are inputs with a meaning of their own. -/
inductive PortRole where
  | input | output | clock | reset
  deriving DecidableEq, Repr

namespace PortRole

def name : PortRole → String
  | .input => "input"
  | .output => "output"
  | .clock => "clock"
  | .reset => "reset"

def isInput : PortRole → Bool
  | .output => false
  | _ => true

end PortRole

structure PortDesc where
  name : Ident
  type : SignalType
  role : PortRole
  deriving DecidableEq, Repr

namespace PortDesc

def toPort (p : PortDesc) : Port := ⟨p.name, p.type⟩

def text (p : PortDesc) : String := s!"('{p.name}', {p.type.text})"

/-- Ports by name, each with its position. Where several ports have one name, the last
of them is found, and stands behind all others. -/
def table (ports : List PortDesc) : OrderedMap Ident (Nat × PortDesc) :=
  .ofList (ports.mapIdx fun i p => (p.name, (i, p)))

/-- Positions of the ports with a role. -/
def positions (role : PortRole) (ports : List PortDesc) : List Nat :=
  (ports.mapIdx fun i p => (i, p.role)).filterMap fun (i, r) => if r = role then some i else none

end PortDesc

/-- A registered generator and where it was written. -/
structure Generator (γ : Type) where
  code : γ
  loc : Location
  deriving DecidableEq, Repr

/-- All that is known of a module when it is declared. -/
structure Schema (γ : Type) where
  name : Ident
  inputs : List PortDesc := []
  outputs : List PortDesc := []
  generators : OrderedMap Ident (Generator γ) := .empty
  attributes : Attributes := .empty
  metadata : Option Metadata := none
  /-- A name for the module operation that is used instead of a derived one. -/
  opName : Option Ident := none
  doc : Option String := none
  loc : Location
  deriving DecidableEq, Repr

namespace Schema

variable {γ : Type}

def clocks (s : Schema γ) : List Nat := PortDesc.positions .clock s.inputs

def resets (s : Schema γ) : List Nat := PortDesc.positions .reset s.inputs

/-- A module with a generator is a real one; without, it is external. -/
def hasGenerator (s : Schema γ) : Bool := !s.generators.isEmpty

/-- Attributes that the library sets itself. -/
def managedAttributes : List Ident := ["output_file", "verilogName", "modgen.parameters"]

def isValidName (name : Ident) : Bool := name ≠ "" && !name.isReserved

/-- The first port whose name is no port name, or is that of a port before it. -/
def portFault (owner : Ident) (d : Direction) : List Ident → List PortDesc →
    Option DeclarationFault
  | _, [] => none
  | seen, p :: ps =>
    if !isValidName p.name then some (.portName owner d p.name)
    else if seen.contains p.name then some (.duplicatePort owner d p.name)
    else portFault owner d (p.name :: seen) ps

def attributeFault (s : Schema γ) : Option DeclarationFault :=
  (s.attributes.keys.find? fun k => k = "" || managedAttributes.contains k).map
    (.managedAttribute s.name)

/-- Check names, ports, attributes and metadata, in this order. -/
def validate (s : Schema γ) : Except Error Unit :=
  let report (fault : DeclarationFault) : Error := (Error.declaration fault).located s.loc
  if !isValidName s.name then throw (report (.moduleName s.name))
  else
    match portFault s.name .input [] s.inputs <|> portFault s.name .output [] s.outputs <|>
        s.attributeFault with
    | some fault => throw (report fault)
    | none =>
      match s.metadata.elim (.ok ()) Metadata.validate with
      | .ok () => pure ()
      | .error e => throw (e.located s.loc)

end Schema

/-- A declaration in the making, with the faults found so far. -/
structure Declaration (γ : Type) where
  schema : Schema γ
  faults : List Error := []
  deriving DecidableEq, Repr

namespace Declaration

variable {γ : Type}

def new (name : Ident) (loc : Location) : Declaration γ := { schema := { name, loc } }

def withSchema (d : Declaration γ) (f : Schema γ → Schema γ) : Declaration γ :=
  { d with schema := f d.schema }

def port (d : Declaration γ) (name : Ident) (type : SignalType) (role : PortRole) :
    Declaration γ :=
  d.withSchema fun s =>
    if role.isInput then { s with inputs := s.inputs ++ [⟨name, type, role⟩] }
    else { s with outputs := s.outputs ++ [⟨name, type, role⟩] }

def input (d : Declaration γ) (name : Ident) (type : SignalType) : Declaration γ :=
  d.port name type .input

def output (d : Declaration γ) (name : Ident) (type : SignalType) : Declaration γ :=
  d.port name type .output

def clock (d : Declaration γ) (name : Ident) : Declaration γ := d.port name .clock .clock

/-- A reset is one bit wide. -/
def reset (d : Declaration γ) (name : Ident) : Declaration γ := d.port name (.bits 1) .reset

/-- Register a generator. A reserved name is refused; a name given twice is a fault too,
and then the later generator stands. -/
def generator (d : Declaration γ) (name : Ident) (code : γ) (loc : Location) : Declaration γ :=
  let fault := (Error.declaration (.generatorName d.schema.name name)).located loc
  if name.isReserved then { d with faults := d.faults ++ [fault] }
  else
    let known := d.schema.generators.contains name
    let d := d.withSchema fun s => { s with generators := s.generators.insert name ⟨code, loc⟩ }
    if known then { d with faults := d.faults ++ [fault] } else d

def withAttribute (d : Declaration γ) (key : Ident) (value : Attr) : Declaration γ :=
  d.withSchema fun s => { s with attributes := s.attributes.insert key value }

/-- An attribute that says all by being there. -/
def flag (d : Declaration γ) (key : Ident) : Declaration γ := d.withAttribute key .unit

/-- Several attributes; those without a value are flags. -/
def withAttributes (d : Declaration γ) (entries : List (Ident × Option Attr)) : Declaration γ :=
  entries.foldl (fun d (k, v) => d.withAttribute k (v.getD .unit)) d

def metadata (d : Declaration γ) (m : Metadata) : Declaration γ :=
  d.withSchema fun s => { s with metadata := some m }

def opName (d : Declaration γ) (name : Ident) : Declaration γ :=
  d.withSchema fun s => { s with opName := some name }

def doc (d : Declaration γ) (text : String) : Declaration γ :=
  d.withSchema fun s => { s with doc := some text }

/-- The checked schema. A fault found while declaring is reported before any other. -/
def build (d : Declaration γ) : Except Error (Schema γ) :=
  match d.faults with
  | fault :: _ => throw fault
  | [] => do
    d.schema.validate
    pure d.schema

end Declaration

end Hardware
