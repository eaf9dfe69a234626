import Hardware.Instantiation
import Hardware.Ports

/-!
User code as data. The body of a generator or of a producer, and likewise a whole
session, is a tree: each node is a call to the library together with what the code does
for every answer to it, each leaf a result. A tree has no infinite branch, so every body
makes finitely many calls of its own; loops can arise only from bodies that start one
another.
-/
namespace Hardware

/-- What a generator returns. It ought to return nothing. -/
inductive Returned where
  | nothing
  | signal (s : Signal)
  | inst (name : Ident)
  | constant (c : Constant)
  | list (values : List Returned)
  deriving Repr

namespace Returned

/-- A description of the value, if there is one. -/
def description? : Returned → Option String
  | .nothing => none
  | .signal s => some s!"signal of type {s.type.text}"
  | .inst name => some s!"instance `{name}'"
  | .constant c => some s!"constant {c.text}"
  | .list vs => some s!"list of {vs.length} values"

end Returned

abbrev GeneratorResult := Except Error Returned

abbrev ProducerResult := Except Error ModuleId

/-- Calls that are answered at once, without other user code running. `snapshot` shows
the whole workspace, so that everything there is to read can be read. -/
inductive Call (U : UserCode) where
  | snapshot
  | setState (state : U.State)
  | newSystem (name : Ident) (conf : SystemConf)
  | newCache
  | newFactory (name : Ident) (signature : Signature) (producer : U.ProducerCode) (loc : Location)
  | declare (decl : Declaration U.GeneratorCode)
  | importModule (s : SystemId) (op : ModuleOp) (loc : Location)
  | addTop (s : SystemId) (m : ModuleId)
  | uniquify (s : SystemId) (base : Ident)
  | buildOp (s : SystemId) (name : Ident) (operands : List Signal) (types : List SignalType)
      (loc : Location)
  | instantiate (s : SystemId) (m : ModuleId) (request : InstanceRequest)
  | clearInstance (i : InstanceId)
  | clearInstances (s : SystemId)

namespace Call

variable {U : UserCode}

/-- What a call yields if it succeeds. -/
abbrev Result : Call U → Type
  | .snapshot => Workspace U
  | .setState _ => Unit
  | .newSystem _ _ => SystemId
  | .newCache => CacheId
  | .newFactory _ _ _ _ => FactoryId
  | .declare _ | .importModule _ _ _ => ModuleId
  | .addTop _ _ | .uniquify _ _ => Ident
  | .buildOp _ _ _ _ _ => List Signal
  | .instantiate _ _ _ => InstanceId
  | .clearInstance _ | .clearInstances _ => Unit

end Call

/-- Calls at the ports of the module that is being generated. `owner` asks for its name,
`system` for the system in which it is generated. -/
inductive PortCall where
  | read (port : Ident)
  | assign (port : Ident) (value : PortValue)
  | assignAll (values : List (Ident × PortValue))
  | check
  | owner
  | system

namespace PortCall

abbrev Result : PortCall → Type
  | .read _ => Signal
  | .assign _ _ | .assignAll _ | .check => Unit
  | .owner => Ident
  | .system => SystemId

end PortCall

/-- What a call that lets other user code run waits for. -/
inductive Awaited where
  | generation
  | production
  deriving DecidableEq, Repr

abbrev Awaited.Result : Awaited → Type
  | .generation => Unit
  | .production => ModuleId

/-- Calls that let other user code run before they are answered. -/
inductive Entry : Awaited → Type where
  /-- Generate every module that waits in `s`. -/
  | generate (s : SystemId) : Entry .generation
  | generateModule (s : SystemId) (m : ModuleId) : Entry .generation
  | callFactory (f : FactoryId) (cache : CacheId) (args : Args) : Entry .production

inductive Script (U : UserCode) (ρ : Type) where
  | done (result : ρ)
  | call (c : Call U) (next : Except Error c.Result → Script U ρ)
  | port (c : PortCall) (next : Except Error c.Result → Script U ρ)
  | enter {a : Awaited} (e : Entry a) (next : Except Error a.Result → Script U ρ)

namespace Script

variable {U : UserCode} {ρ ρ' : Type}

/-- Go on with `f` where the script ends. -/
def bind (f : ρ → Script U ρ') : Script U ρ → Script U ρ'
  | .done r => f r
  | .call c next => .call c fun r => bind f (next r)
  | .port c next => .port c fun r => bind f (next r)
  | .enter e next => .enter e fun r => bind f (next r)

instance : Monad (Script U) where
  pure := .done
  bind x f := bind f x

end Script

/-- The meaning of the codes of user code. -/
structure Program (U : UserCode) where
  generator : U.GeneratorCode → Script U GeneratorResult
  producer : U.ProducerCode → BoundArgs → Script U ProducerResult

end Hardware
