import Hardware.Constant.Fit
import Hardware.Design

/-!
Verification of a design. A real module must have a body that ends in its only
terminator, and each operation must use defined operands and agree with what it names.
The first thing that is wrong is the one reported.
-/
namespace Hardware

namespace ModuleOp

/-- True of the values that operations in the body of `m` may use: its own arguments, and
the results of operations in the same body. -/
def defines (m : ModuleOp) (v : Value) : Bool :=
  match v.source with
  | .arg owner i => owner = m.sym ∧ (m.inputs[i]?).map Port.type = some v.type
  | .result op i => ((m.body?.bind fun b => b.findOp? op).bind fun o => o.results[i]?) = some v

end ModuleOp

namespace Design

def checkOperands (parent : ModuleOp) (op : Operation) : Except Error Unit :=
  op.operands.forM fun v =>
    if parent.defines v then pure ()
    else throw ((Error.structural (.undefinedOperand v.source parent.sym)).located op.loc)

/-- The operands of an instance against the inputs of its target, port by port. -/
def checkInstanceInputs (name : Ident) (ports : List Port) (op : Operation) :
    Except Error Unit :=
  (ports.zip op.operands).forM fun (port, v) =>
    if port.type = v.type then pure ()
    else throw ((Error.structural
      (.instanceInputType name port.name port.type v.type)).located op.loc)

/-- The value that `params` binds to `name`: that of the first entry of this name. -/
def boundParam (params : Option Attr) (name : Ident) : Option Attr :=
  (params.bind Attr.asDict?).bind fun entries => entries.lookup name

def checkInstanceParams (name : Ident) (params : Option Attr) (decls : List ParamDecl)
    (op : Operation) : Except Error Unit :=
  decls.forM fun decl =>
    match boundParam params decl.name with
    | some v =>
      if v.paramKind = decl.kind then pure ()
      else throw ((Error.structural
        (.instanceParameter name decl.name decl.kind v)).located op.loc)
    | none => throw ((Error.structural (.instanceUnbound name decl.name)).located op.loc)

def checkInstance (d : Design) (name target : Ident) (params : Option Attr) (op : Operation) :
    Except Error Unit :=
  match d.findModule? target with
  | none => throw (.structural (.instanceTarget name target))
  | some t => do
    if t.inputs.length ≠ op.operands.length then
      throw ((Error.structural
        (.instanceInputs name target t.inputs.length op.operands.length)).located op.loc)
    checkInstanceInputs name t.inputs op
    checkInstanceParams name params t.params op

/-- What an operation says beyond its operands being defined. -/
def checkKind (d : Design) (parent : ModuleOp) (op : Operation) : Except Error Unit :=
  match op.kind with
  | .constant value =>
    match op.results with
    | [] => pure ()
    | r :: _ => r.type.check value
  | .inst name target params => d.checkInstance name target params op
  | .output =>
    if parent.outputs.map Port.type = op.operands.map Value.type then pure ()
    else throw ((Error.structural (.outputMismatch parent.sym)).located op.loc)
  | .symbolMetadata _ | .custom _ => pure ()

/-- Verify the operation numbered `id` in the body of `sym`. -/
def verifyOp (d : Design) (sym : Ident) (id : OpId) : Except Error Unit :=
  match d.findModule? sym with
  | none => throw (.structural (.unknownSymbol sym))
  | some parent =>
    match parent.body?.bind fun b => b.findOp? id with
    | none => throw (.structural (.unknownOperation id sym))
    | some op => do
      checkOperands parent op
      d.checkKind parent op

def verifyModule (d : Design) (sym : Ident) : Except Error Unit :=
  match d.findModule? sym with
  | none => throw (.structural (.unknownSymbol sym))
  | some m =>
    match m.kind with
    | .external _ => pure ()
    | .real none => throw ((Error.structural (.noBody sym)).located m.loc)
    | .real (some body) => do
      if !body.isTerminated then
        throw ((Error.structural (.noTerminator sym)).located m.loc)
      if body.ops.dropLast.any Operation.isTerminator then
        throw ((Error.structural (.innerTerminator sym)).located m.loc)
      body.ops.forM fun op => d.verifyOp sym op.id

/-- Verify every module, in the order of creation. -/
def verify (d : Design) : Except Error Unit := d.modules.keys.forM d.verifyModule

end Design

end Hardware
