import Hardware.Fault

/-!
Errors: a kind with its cause, the location that the error is about, and a note that
may follow the message. A location tells where a declaration, a call or an operation was
written.
-/
namespace Hardware

structure Location where
  file : String
  line : Nat
  column : Nat
  deriving DecidableEq, Repr

namespace Location

/-- The location of something that was written nowhere. -/
def unknown : Location := ⟨"", 0, 0⟩

def isUnknown (l : Location) : Bool := l = unknown

/-- The file name stands as it is, without escapes. -/
def text (l : Location) : String :=
  if l.isUnknown then "loc(unknown)" else s!"loc(\"{l.file}\":{l.line}:{l.column})"

end Location

inductive ErrorKind where
  /-- Ports named that the module does not have. -/
  | unknownPorts (target : Ident) (ports : List Ident)
  /-- Inputs supplied more than once to an instance. -/
  | duplicateInputs (target : Ident) (ports : List Ident)
  /-- Inputs that were not supplied to an instance. -/
  | missingInputs (target : Ident) (ports : List Ident)
  /-- A port left disconnected that may not be. -/
  | disconnected (port : Ident)
  /-- A value of the wrong type bound to a port, both types as text. -/
  | typeMismatch (port : Ident) (expected found : String)
  /-- Outputs not assigned when their generator ends. -/
  | unconnectedOutputs (target : Ident) (ports : List Ident)
  /-- An input of an instance read from outside. -/
  | instanceInput (port : Ident)
  | portDirection (port : Ident) (misuse : PortMisuse)
  | released (fault : ReleaseFault)
  | declaration (fault : DeclarationFault)
  | generation (fault : GenerationFault)
  | structural (fault : StructureFault)
  | internal (fault : InternalFault)
  deriving DecidableEq, Repr

namespace ErrorKind

def message : ErrorKind → String
  | .unknownPorts target ports =>
    s!"Port(s) {Ident.join ports} not found in module {target}"
  | .duplicateInputs target ports =>
    s!"Port(s) {Ident.join ports} supplied more than once to module {target}"
  | .missingInputs _ ports => s!"Missing input signals for ports: {Ident.join ports}"
  | .disconnected port =>
    s!"Port {port} cannot be None (disconnected ports only allowed on extern mods)"
  | .typeMismatch port expected found =>
    s!"Wrong type on port '{port}'. Got '{found}', expected '{expected}'"
  | .unconnectedOutputs target ports =>
    s!"Module {target} has unconnected output ports: {Ident.join ports}"
  | .instanceInput port => s!"Cannot access signal via instance input `{port}'"
  | .portDirection port misuse => s!"Port `{port}' {misuse.message}"
  | .released fault => fault.message
  | .declaration fault => fault.message
  | .generation fault => fault.message
  | .structural fault => fault.message
  | .internal fault => "Internal error: " ++ fault.message

/-- The ports that the error names, in the order of the report. -/
def ports : ErrorKind → List Ident
  | .unknownPorts _ ports | .duplicateInputs _ ports | .missingInputs _ ports
  | .unconnectedOutputs _ ports => ports
  | .disconnected port | .typeMismatch port _ _ | .instanceInput port
  | .portDirection port _ => [port]
  | .released _ | .declaration _ | .generation _ | .structural _ | .internal _ => []

/-- True of every breach of the contract of ports. -/
def isPortError : ErrorKind → Bool
  | .declaration _ | .generation _ | .structural _ | .internal _ => false
  | _ => true

end ErrorKind

structure Error where
  kind : ErrorKind
  loc : Location := .unknown
  note : Option String := none
  deriving DecidableEq, Repr

namespace Error

/-- The same error, about `loc`. -/
def located (e : Error) (loc : Location) : Error := { e with loc }

def withNote (e : Error) (note : Option String) : Error := { e with note }

def ports (e : Error) : List Ident := e.kind.ports

def isPortError (e : Error) : Bool := e.kind.isPortError

def message (e : Error) : String := e.kind.message

/-- The whole text: the location if it is known, the message, the note on a line of its own. -/
def text (e : Error) : String :=
  (if e.loc.isUnknown then "" else e.loc.text ++ ": ") ++ e.message ++
    match e.note with
    | some note => "\n" ++ note
    | none => ""

def declaration (fault : DeclarationFault) : Error := ⟨.declaration fault, .unknown, none⟩

def generation (fault : GenerationFault) : Error := ⟨.generation fault, .unknown, none⟩

def structural (fault : StructureFault) : Error := ⟨.structural fault, .unknown, none⟩

def internal (fault : InternalFault) : Error := ⟨.internal fault, .unknown, none⟩

def ofKind (kind : ErrorKind) : Error := ⟨kind, .unknown, none⟩

/-- An error of reading or writing, reported by the surroundings. -/
def ofSurroundings (message : String) : Error := structural (.other ("IO error: " ++ message))

/-- An error of formatting a text, reported by the surroundings. -/
def ofFormatting (message : String) : Error := internal (.other message)

end Error

end Hardware
