import Hardware.Script

/-!
What happens around the body of a producer. A factory call binds its arguments and looks
for a module that was made for the same canonical parameters; only if there is none does
the producer run, and its module is then kept for the next call.
-/
namespace Hardware

/-- A producer that is running, and where its module is to be kept. -/
structure ProducerRun where
  factory : FactoryId
  cache : CacheId
  key : Attr
  deriving DecidableEq, Repr

namespace Workspace

variable {U : UserCode}

/-- How a factory call goes on: with a module made before, or with its producer. -/
inductive Lookup (U : UserCode) where
  | hit (m : ModuleId)
  | miss (run : ProducerRun) (code : U.ProducerCode) (args : BoundArgs)

def bindArgs (f : Factory U.ProducerCode) (args : Args) : Except Error BoundArgs :=
  match f.signature.bind args with
  | .ok bound => .ok bound
  | .error e => .error ((e.located f.loc).withNote (some ("while calling " ++ f.name)))

def beginProduction (f : FactoryId) (c : CacheId) (args : Args) :
    Effect (Workspace U) (Lookup U) := do
  let factory ← resolve fun ws => ws.factory? f
  let cache ← resolve fun ws => ws.cache? c
  let bound ← Effect.ofExcept (bindArgs factory args)
  let key ← Effect.ofExcept bound.canonical
  match cache.get? (f, key) with
  | some m => pure (.hit m)
  | none => pure (.miss { factory := f, cache := c, key } factory.producer bound)

/-- Keep what the producer made, and give it the parameters of the call. Both replace
whatever a call made meanwhile has left there. -/
def endProduction (run : ProducerRun) (result : ProducerResult) :
    Effect (Workspace U) ModuleId := do
  let m ← Effect.ofExcept result
  let x ← getModule m
  let cache ← resolve fun ws => ws.cache? run.cache
  modify fun ws =>
    (ws.setModule m { x with parameters := some run.key }).setCache run.cache
      (cache.insert (run.factory, run.key) m)
  pure m

end Workspace

end Hardware
