import Hardware.Attr
import Hardware.Constant
import Hardware.Value

/-!
Causes of errors, and the message of each. A cause keeps the data that it is about;
the wording stands in one function for each family of causes. Every family has a case
`other` for a message that comes from outside the library.
-/
namespace Hardware

inductive Direction where
  | input | output
  deriving DecidableEq, Repr

namespace Direction

def text : Direction → String
  | .input => "input"
  | .output => "output"

end Direction

/-- Ways to use a port against its direction. -/
inductive PortMisuse where
  | readsOutput
  | assignsInput
  | other (message : String)
  deriving DecidableEq, Repr

namespace PortMisuse

def message : PortMisuse → String
  | .readsOutput => "is an output and cannot be read in its own generator"
  | .assignsInput => "is an input and cannot be assigned"
  | .other m => m

end PortMisuse

/-- Use of something whose references were let go. -/
inductive ReleaseFault where
  | instanceCleared (name target : Ident)
  | portsClosed
  | other (message : String)
  deriving DecidableEq, Repr

namespace ReleaseFault

def message : ReleaseFault → String
  | .instanceCleared name target =>
    s!"Instance `{name}' of {target} was cleared and can no longer be used"
  | .portsClosed => "Port proxy used after its generator returned"
  | .other m => m

end ReleaseFault

/-- What is wrong with a declaration, a factory or the arguments of a factory call. -/
inductive DeclarationFault where
  | moduleName (name : Ident)
  | portName (owner : Ident) (direction : Direction) (port : Ident)
  | duplicatePort (owner : Ident) (direction : Direction) (port : Ident)
  | managedAttribute (owner key : Ident)
  | shadowedMetadata (keys : List Ident)
  | generatorName (owner name : Ident)
  | variadicPositional (param factory : Ident)
  | variadicKeyword (param factory : Ident)
  | tooManyArguments (limit count : Nat)
  | unexpectedKeyword (name : Ident)
  | repeatedArgument (name : Ident)
  | missingArguments (names : List Ident)
  | notAnInteger (name : Ident) (value : Attr)
  | noArgument (name : Ident)
  | other (message : String)
  deriving DecidableEq, Repr

namespace DeclarationFault

def message : DeclarationFault → String
  | .moduleName name => s!"Invalid module name `{name}'"
  | .portName owner d port => s!"Module {owner}: invalid {d.text} port name `{port}'"
  | .duplicatePort owner d port => s!"Module {owner}: duplicate {d.text} port `{port}'"
  | .managedAttribute owner key =>
    s!"Module {owner}: attribute `{key}' cannot be set by a declaration"
  | .shadowedMetadata keys => s!"Metadata entries shadow named fields: {Ident.join keys}"
  | .generatorName owner name => s!"Module {owner}: invalid or duplicate generator `{name}'"
  | .variadicPositional param factory =>
    "Module parameter definitions cannot have variable positional parameters " ++
      s!"(`{param}' in {factory})"
  | .variadicKeyword param factory =>
    "Module parameter definitions cannot have variable keyword parameters " ++
      s!"(`{param}' in {factory})"
  | .tooManyArguments limit count =>
    s!"Too many positional arguments: expected at most {limit}, got {count}"
  | .unexpectedKeyword name => s!"Unexpected keyword argument `{name}'"
  | .repeatedArgument name => s!"Multiple values for argument `{name}'"
  | .missingArguments names => s!"Missing required argument(s): {Ident.join names}"
  | .notAnInteger name value => s!"Argument `{name}' must be an integer, got {value.text}"
  | .noArgument name => s!"No argument `{name}'"
  | .other m => m

end DeclarationFault

/-- What is wrong with the run of a generator. -/
inductive GenerationFault where
  | generatorCount (target : Ident) (count : Nat)
  | alreadyGenerated (target : Ident)
  | returnedValue (description : String)
  | other (message : String)
  deriving DecidableEq, Repr

namespace GenerationFault

def message : GenerationFault → String
  | .generatorCount target count =>
    s!"Module {target} must have exactly one generator to be generated, found {count}"
  | .alreadyGenerated target => s!"Module {target} has already been generated"
  | .returnedValue description => s!"Generators must not return a value (got {description})"
  | .other m => m

end GenerationFault

/-- What is wrong with the structure of a design or with a value put into it. -/
inductive StructureFault where
  | constantOutOfRange (value : Constant) (type : SignalType)
  | arrayLength (count : Nat) (type : SignalType) (expected : Nat)
  | constantShape (value : Constant) (type : SignalType)
  | repeatedKey (key : Ident)
  | symbolDefined (symbol design : Ident)
  | unknownSymbol (symbol : Ident)
  | externalBody (symbol : Ident)
  | bodyExists (symbol : Ident)
  | noBodyToInsert (symbol : Ident)
  | bodyTerminated (symbol : Ident)
  | selfInstance (symbol : Ident)
  | undefinedOperand (source : ValueDef) (symbol : Ident)
  | unknownOperation (op : OpId) (symbol : Ident)
  | instanceTarget (name target : Ident)
  | instanceInputs (name target : Ident) (expected count : Nat)
  | instanceInputType (name port : Ident) (expected found : SignalType)
  | instanceParameter (name param : Ident) (expected : ParamKind) (found : Attr)
  | instanceUnbound (name param : Ident)
  | outputMismatch (symbol : Ident)
  | noBody (symbol : Ident)
  | noTerminator (symbol : Ident)
  | innerTerminator (symbol : Ident)
  | importTaken (symbol : Ident)
  | importClash (symbol : Ident)
  | importMoved (symbol : Ident)
  | other (message : String)
  deriving DecidableEq, Repr

namespace StructureFault

def message : StructureFault → String
  | .constantOutOfRange v t => s!"Constant {v.text} does not fit in type {t.text}"
  | .arrayLength n t k => s!"Array constant has {n} elements, type {t.text} expects {k}"
  | .constantShape v t => s!"Cannot convert constant {v.text} to type {t.text}"
  | .repeatedKey key => s!"Multiple entries for dictionary key: {key}"
  | .symbolDefined sym design => s!"Symbol `{sym}' is already defined in design `{design}'"
  | .unknownSymbol sym => s!"Unknown module symbol `{sym}'"
  | .externalBody sym => s!"External module `{sym}' cannot have a body"
  | .bodyExists sym => s!"Module `{sym}' already has an entry block"
  | .noBodyToInsert sym => s!"Module `{sym}' has no body to insert into"
  | .bodyTerminated sym => s!"Body of module `{sym}' is already terminated"
  | .selfInstance sym => s!"Module `{sym}' cannot instantiate itself"
  | .undefinedOperand source sym =>
    s!"Operand {source.text} is not defined in module `{sym}'"
  | .unknownOperation op sym => s!"Operation {op.text} not found in module `{sym}'"
  | .instanceTarget name target => s!"Instance `{name}' refers to unknown module `{target}'"
  | .instanceInputs name target n k =>
    s!"Instance `{name}' of `{target}' expects {n} inputs, got {k}"
  | .instanceInputType name port expected found =>
    s!"Instance `{name}': input `{port}' expects type {expected.text}, got {found.text}"
  | .instanceParameter name param expected found =>
    s!"Instance `{name}': parameter `{param}' expects {expected.text}, got {found.text}"
  | .instanceUnbound name param => s!"Instance `{name}': missing parameter `{param}'"
  | .outputMismatch sym => s!"Output of module `{sym}' does not match its output ports"
  | .noBody sym => s!"Module `{sym}' has no body"
  | .noTerminator sym => s!"Body of module `{sym}' is missing its terminator"
  | .innerTerminator sym => s!"Terminator in the middle of module `{sym}'"
  | .importTaken sym => s!"Cannot import module `{sym}': symbol already defined"
  | .importClash sym => s!"Cannot add imported module `{sym}': symbol already defined"
  | .importMoved sym => s!"Imported module {sym} was already moved into another design"
  | .other m => m

end StructureFault

/-- Breaches of the library's own order of calls. -/
inductive InternalFault where
  | scopeNotEntered
  | noScope
  | noInsertionPoint
  | operationVanished
  | unknownHandle
  | other (message : String)
  deriving DecidableEq, Repr

namespace InternalFault

def message : InternalFault → String
  | .scopeNotEntered => "Exiting a block context that was never entered"
  | .noScope => "No active block context"
  | .noInsertionPoint => "No insertion point: not inside a generator"
  | .operationVanished => "operation vanished after push"
  | .unknownHandle => "handle was never issued"
  | .other m => m

end InternalFault

end Hardware
