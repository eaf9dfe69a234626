import Hardware.ModuleOp
import Hardware.NameSupply

/-!
A design: its modules in the order of their creation, metadata records outside every
module, the supply of module symbols, and the number of the next operation.
-/
namespace Hardware

/-- Operations are appended at the end of the body of `owner`. -/
structure InsertionPoint where
  owner : Ident
  deriving DecidableEq, Repr

structure Design where
  name : Ident
  modules : OrderedMap Ident ModuleOp := .empty
  metadata : List Operation := []
  symbols : NameSupply := {}
  /-- Number of the next operation. The count has no bound here; as a word of 32 bits holds it, it
  never starts anew while fewer than `2 ^ 32` operations are made. -/
  nextOp : Nat := 0
  deriving DecidableEq, Repr

namespace Design

def findModule? (d : Design) (sym : Ident) : Option ModuleOp := d.modules.get? sym

def body? (d : Design) (sym : Ident) : Option Block :=
  (d.findModule? sym).bind ModuleOp.body?

def findOp? (d : Design) (sym : Ident) (id : OpId) : Option Operation :=
  (d.body? sym).bind fun b => b.findOp? id

def modifyModule (d : Design) (sym : Ident) (f : ModuleOp → ModuleOp) : Design :=
  { d with modules := d.modules.modify sym f }

/-- Replace the body of the real module `sym`. -/
def setBody (d : Design) (sym : Ident) (body : Option Block) : Design :=
  d.modifyModule sym fun m => m.withBody body

def modifyBody (d : Design) (sym : Ident) (f : Block → Block) : Design :=
  d.modifyModule sym fun m => m.modifyBody f

def modifyOp (d : Design) (sym : Ident) (id : OpId) (f : Operation → Operation) : Design :=
  d.modifyBody sym fun b => b.modifyOp id f

end Design

end Hardware
