import Hardware.Module
import Hardware.Signature
import Hardware.System

/-!
A workspace holds all that lives while modules are declared, produced and generated.
Modules, instances and caches are shared between systems, so they are kept here under
handles. User code appears in a workspace only by codes, and has a state of its own.
-/
namespace Hardware

/-- What the user of the library brings along: codes that name the bodies of generators
and producers, and a state that all of them share. -/
structure UserCode where
  GeneratorCode : Type
  ProducerCode : Type
  State : Type

/-- Where the operation of an instance stands, and its results. -/
structure InstanceSite where
  parent : Ident
  op : OpId
  results : List Value
  deriving DecidableEq, Repr

/-- An instance of `target` built by `system`. Once cleared, it has no site. -/
structure Instance where
  name : Ident
  system : SystemId
  target : ModuleId
  appid : Option AppId
  site : Option InstanceSite
  deriving DecidableEq, Repr

structure Factory (π : Type) where
  name : Ident
  signature : Signature
  producer : π
  loc : Location
  deriving DecidableEq, Repr

/-- Modules by the factory that made them and its canonical parameters. -/
abbrev Cache := OrderedMap (FactoryId × Attr) ModuleId

structure Workspace (U : UserCode) where
  modules : List (Module U.GeneratorCode) := []
  instances : List Instance := []
  systems : List System := []
  factories : List (Factory U.ProducerCode) := []
  caches : List Cache := []
  state : U.State

namespace Workspace

variable {U : UserCode} {α : Type}

def module? (ws : Workspace U) (m : ModuleId) : Option (Module U.GeneratorCode) :=
  ws.modules[m.index]?

def instance? (ws : Workspace U) (i : InstanceId) : Option Instance := ws.instances[i.index]?

def system? (ws : Workspace U) (s : SystemId) : Option System := ws.systems[s.index]?

def factory? (ws : Workspace U) (f : FactoryId) : Option (Factory U.ProducerCode) :=
  ws.factories[f.index]?

def cache? (ws : Workspace U) (c : CacheId) : Option Cache := ws.caches[c.index]?

def setModule (ws : Workspace U) (m : ModuleId) (x : Module U.GeneratorCode) : Workspace U :=
  { ws with modules := ws.modules.set m.index x }

def setInstance (ws : Workspace U) (i : InstanceId) (x : Instance) : Workspace U :=
  { ws with instances := ws.instances.set i.index x }

def setSystem (ws : Workspace U) (s : SystemId) (x : System) : Workspace U :=
  { ws with systems := ws.systems.set s.index x }

def setCache (ws : Workspace U) (c : CacheId) (x : Cache) : Workspace U :=
  { ws with caches := ws.caches.set c.index x }

/-- The current name of a module. -/
def moduleName (ws : Workspace U) (m : ModuleId) : Ident := (ws.module? m).elim "" Module.name

/-- What a handle stands for. A handle that was never issued is refused. -/
def resolve (look : Workspace U → Option α) : Effect (Workspace U) α := do
  match look (← get) with
  | some a => pure a
  | none => throw (.internal .unknownHandle)

def getModule (m : ModuleId) : Effect (Workspace U) (Module U.GeneratorCode) :=
  resolve fun ws => ws.module? m

def getSystem (s : SystemId) : Effect (Workspace U) System := resolve fun ws => ws.system? s

/-- Change the system `s`. Nothing happens if there is none. -/
def modifySystem (s : SystemId) (f : System → System) (ws : Workspace U) : Workspace U :=
  (ws.system? s).elim ws fun sys => ws.setSystem s (f sys)

/-- Run an operation of the system `s`. -/
def onSystem (s : SystemId) (x : Effect System α) : Effect (Workspace U) α := do
  let sys ← getSystem s
  x.on (fun _ => sys) fun sys' ws => ws.setSystem s sys'

def updateSystem (s : SystemId) (f : System → System) : Effect (Workspace U) Unit :=
  onSystem s (modify f)

/-- Keep a new module. -/
def addModule (x : Module U.GeneratorCode) : Effect (Workspace U) ModuleId := fun ws =>
  .ok ⟨ws.modules.length⟩ { ws with modules := ws.modules ++ [x] }

/-- Keep a new instance. -/
def addInstance (x : Instance) : Effect (Workspace U) InstanceId := fun ws =>
  .ok ⟨ws.instances.length⟩ { ws with instances := ws.instances ++ [x] }

/-- Cut the tie between an instance and its operation. -/
def releaseInstance (ws : Workspace U) (i : InstanceId) : Workspace U :=
  match ws.instance? i with
  | some x => ws.setInstance i { x with site := none }
  | none => ws

def releaseInstances (ws : Workspace U) (is : List InstanceId) : Workspace U :=
  is.foldl releaseInstance ws

/-- The module that holds the operation of an instance. -/
def parent? (ws : Workspace U) (i : InstanceId) : Option Ident :=
  ((ws.instance? i).bind Instance.site).map InstanceSite.parent

end Workspace

end Hardware
