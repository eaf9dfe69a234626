import Hardware.Script

/-!
The effect of each call that is answered at once.
-/
namespace Hardware

namespace Workspace

variable {U : UserCode}

def addSystem (name : Ident) (conf : SystemConf) : Effect (Workspace U) SystemId := fun ws =>
  .ok ⟨ws.systems.length⟩ { ws with systems := ws.systems ++ [System.new name conf] }

def addCache : Effect (Workspace U) CacheId := fun ws =>
  .ok ⟨ws.caches.length⟩ { ws with caches := ws.caches ++ [.empty] }

/-- Keep a new factory, each of whose parameters must be a named one. -/
def addFactory (name : Ident) (signature : Signature) (producer : U.ProducerCode)
    (loc : Location) : Effect (Workspace U) FactoryId := do
  (Effect.ofExcept (signature.checkModes name)).locating loc
  let f : FactoryId := ⟨(← get).factories.length⟩
  modify fun ws => { ws with factories := ws.factories ++ [{ name, signature, producer, loc }] }
  pure f

end Workspace

namespace Call

variable {U : UserCode}

def perform : (c : Call U) → Effect (Workspace U) c.Result
  | .snapshot => get
  | .setState state => modify fun ws => { ws with state }
  | .newSystem name conf => Workspace.addSystem name conf
  | .newCache => Workspace.addCache
  | .newFactory name signature producer loc => Workspace.addFactory name signature producer loc
  | .declare decl => Workspace.declare decl
  | .importModule s op loc => Workspace.importModule s op loc
  | .addTop s m => Workspace.addTop s m
  | .uniquify s base => Workspace.onSystem s (System.uniquify base)
  | .buildOp s name operands types loc =>
    Workspace.onSystem s (System.buildOp name operands types loc)
  | .instantiate s m request => Workspace.instantiate s m request
  | .clearInstance i => Workspace.clearInstance i
  | .clearInstances s => Workspace.clearInstances s

end Call

namespace PortCall

variable {U : UserCode}

def perform : (c : PortCall) → Effect (PortState U) c.Result
  | .read port => do
    let s ← get
    Effect.ofExcept (s.1.read (Ports.owner s) port)
  | .assign port value => Ports.assign port value
  | .assignAll values => Ports.assignAll values
  | .check => do
    let s ← get
    Effect.ofExcept (s.1.check (Ports.owner s))
  | .owner => do
    pure (Ports.owner (← get))
  | .system => do
    pure (← get).1.system

/-- The answer where no generator is running. -/
def refused (c : PortCall) : Except Error c.Result :=
  .error (.ofKind (.released .portsClosed))

end PortCall

end Hardware
