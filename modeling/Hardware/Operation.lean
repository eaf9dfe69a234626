import Hardware.Error

/-!
Operations, and the blocks that hold them.
-/
namespace Hardware

/-- What an operation is, with the data that only its kind has. -/
inductive OpKind where
  /-- A constant of the type of the first result. -/
  | constant (value : Constant)
  /-- An instance of the module `target`; parameters bind those of an external module. -/
  | inst (name target : Ident) (params : Option Attr)
  /-- The end of a body, with the outputs of the module in port order. -/
  | output
  /-- A record about a module, outside every body. -/
  | symbolMetadata (symbol : Ident)
  | custom (name : Ident)
  deriving DecidableEq, Repr

structure Operation where
  id : OpId
  kind : OpKind
  operands : List Value
  results : List Value
  attributes : Attributes
  loc : Location
  deriving DecidableEq, Repr

namespace Operation

/-- The name under which the operation is printed. -/
def name (op : Operation) : String :=
  match op.kind with
  | .constant _ => "hw.constant"
  | .inst _ _ _ => "hw.instance"
  | .output => "hw.output"
  | .symbolMetadata _ => "esi.metadata.symbol"
  | .custom name => name

def isTerminator (op : Operation) : Bool :=
  match op.kind with
  | .output => true
  | _ => false

end Operation

/-- The body of a module: one argument for each input, and operations in order. -/
structure Block where
  args : List Value := []
  ops : List Operation := []
  deriving DecidableEq, Repr

namespace Block

def isTerminated (b : Block) : Bool := b.ops.getLast?.any Operation.isTerminator

def findOp? (b : Block) (id : OpId) : Option Operation := b.ops.find? fun op => op.id = id

def push (b : Block) (op : Operation) : Block := { b with ops := b.ops ++ [op] }

/-- Change the first operation numbered `id`. -/
def modifyOps (id : OpId) (f : Operation → Operation) : List Operation → List Operation
  | [] => []
  | op :: ops => if op.id = id then f op :: ops else op :: modifyOps id f ops

def modifyOp (b : Block) (id : OpId) (f : Operation → Operation) : Block :=
  { b with ops := modifyOps id f b.ops }

/-- Exchange two operations. Nothing happens if a position is beyond the last one. -/
def swapOps (b : Block) (i j : Nat) : Block :=
  match b.ops[i]?, b.ops[j]? with
  | some x, some y => { b with ops := (b.ops.set i y).set j x }
  | _, _ => b

/-- Drop the operation at a position. Nothing happens beyond the last one. -/
def removeOp (b : Block) (i : Nat) : Block := { b with ops := b.ops.eraseIdx i }

end Block

end Hardware
