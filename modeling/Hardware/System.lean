import Hardware.Design.Building
import Hardware.Design.Verification
import Hardware.Handle
import Hardware.Metadata
import Hardware.Scope
import Hardware.Signal

/-!
A system builds one design. Beside the design it keeps the symbol of each module that
has an operation there, the modules that are generated or wait for it, a scope for each
generator that is running, and the instances built so far.
-/
namespace Hardware

structure SystemConf where
  /-- Verify each instance as soon as it is built. -/
  verifyInstances : Bool := true
  /-- Add the provenance, where it is known, to metadata that has none. -/
  autoProvenance : Bool := false
  provenance : Option Provenance := none
  /-- Add a metadata record for each module operation created. -/
  emitMetadata : Bool := true
  /-- Where the declarations of external modules go. -/
  externalOutputFile : String := "external_modules.sv"
  deriving DecidableEq, Repr

/-- What a running generator keeps with its scope: where its operations go, where it was
written, and its clock if its module has exactly one. -/
structure GeneratorSite where
  ip : InsertionPoint
  loc : Location
  clock : Option Signal
  deriving DecidableEq, Repr

structure System where
  conf : SystemConf := {}
  design : Design
  symbols : OrderedMap ModuleId Ident := .empty
  generated : List ModuleId := []
  /-- Modules that wait to be generated, the next one first. -/
  worklist : List ModuleId := []
  running : ScopeStack GeneratorSite := {}
  instances : List InstanceId := []
  deriving DecidableEq, Repr

namespace System

def new (name : Ident) (conf : SystemConf) : System := { conf, design := { name } }

def onDesign {α : Type} (x : Effect Design α) : Effect System α :=
  x.on System.design fun design s => { s with design }

/-- The symbol of the operation of `m`, if it has one here. -/
def symbolOf? (s : System) (m : ModuleId) : Option Ident := s.symbols.get? m

def isGenerated (s : System) (m : ModuleId) : Bool := s.generated.contains m

/-- The clock of the innermost running generator that has one. -/
def clock? (s : System) : Option Signal := s.running.scopes.findSome? fun c => c.site.clock

/-- The place for new operations: the body of the innermost running generator. -/
def currentPoint : Effect System InsertionPoint := do
  match (← get).running.scopes with
  | scope :: _ => pure scope.site.ip
  | [] => throw (.internal .noInsertionPoint)

/-- The location of the innermost running generator. -/
def currentLoc (s : System) : Location := s.running.scopes.head?.elim .unknown fun c => c.site.loc

/-- A symbol that the innermost running generator was not given before. -/
def uniquify (base : Ident) : Effect System Ident :=
  (ScopeStack.uniquify base).on System.running fun running s => { s with running }

/-- A custom operation in the current body, with one signal for each result. -/
def buildOp (name : Ident) (operands : List Signal) (types : List SignalType) (loc : Location) :
    Effect System (List Signal) := do
  let ip ← currentPoint
  let op ← onDesign (Design.buildOp ip (.custom name) operands types .empty loc)
  pure op.results

def buildConstant (type : SignalType) (value : Constant) : Effect System Value := do
  let ip ← currentPoint
  onDesign (Design.buildConstant ip type value (currentLoc (← get)))

def buildOutput (values : List Value) : Effect System Unit := do
  let ip ← currentPoint
  let _ ← onDesign (Design.buildOutput ip values (currentLoc (← get)))
  pure ()

/-- Append an instance and, unless the configuration says otherwise, verify it. One that
does not verify stays where it is. -/
def buildInstance (ip : InsertionPoint) (target name : Ident) (inputs : List Value)
    (params : Option Attr) (appid : Option AppId) (loc : Location) :
    Effect System (OpId × List Value) := do
  let op ← onDesign (Design.buildInstance ip target name inputs params loc)
  if let some a := appid then
    modify fun s => { s with design := s.design.modifyOp ip.owner op.id fun o =>
      { o with attributes := o.attributes.insert "appid" a.toAttr } }
  let s ← get
  if s.conf.verifyInstances then
    Effect.ofExcept (s.design.verifyOp ip.owner op.id)
  pure (op.id, op.results)

/-- Let `m` wait to be generated, unless it is generated already. -/
def enqueue (m : ModuleId) (s : System) : System :=
  if s.isGenerated m then s else { s with worklist := s.worklist ++ [m] }

def markGenerated (m : ModuleId) (s : System) : System :=
  if s.isGenerated m then s else { s with generated := s.generated ++ [m] }

def unmarkGenerated (m : ModuleId) (s : System) : System :=
  { s with generated := s.generated.filter fun x => x ≠ m }

def enterScope (site : GeneratorSite) (s : System) : System :=
  { s with running := s.running.enter site }

def leaveScope (s : System) : System := { s with running := s.running.leave }

end System

end Hardware
