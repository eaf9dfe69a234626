/-!
Handles: the numbers under which a workspace keeps modules, instances, systems,
factories and caches. A handle is issued once and never again.
-/
namespace Hardware

structure ModuleId where
  index : Nat
  deriving DecidableEq, Repr

structure InstanceId where
  index : Nat
  deriving DecidableEq, Repr

structure SystemId where
  index : Nat
  deriving DecidableEq, Repr

structure FactoryId where
  index : Nat
  deriving DecidableEq, Repr

structure CacheId where
  index : Nat
  deriving DecidableEq, Repr

end Hardware
