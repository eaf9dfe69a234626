import Hardware.Constant.Fit
import Hardware.Design
import Hardware.Effect

/-!
Building a design. Modules are added under symbols of their own; a body is opened once
for each module, grows at its end and is closed by an output operation. A building
step that fails leaves the design as it was.
-/
namespace Hardware.Design

/-- A module symbol made from `base` that no module has and that was not given out before. -/
def uniqueSymbol (base : Ident) : Effect Design Ident := do
  let d ← get
  let (name, symbols) := d.symbols.uniquify base
  set { d with symbols }
  pure name

/-- Add a module under its own symbol. -/
def addModule (op : ModuleOp) : Effect Design Ident := do
  let d ← get
  if d.modules.contains op.sym then
    throw (.structural (.symbolDefined op.sym d.name))
  set { d with
    symbols := d.symbols.reserve [op.sym]
    modules := d.modules.insert op.sym op }
  pure op.sym

/-- The arguments of the body of `sym`, one for each input. -/
def entryArgs (sym : Ident) (inputs : List Port) : List Value :=
  inputs.mapIdx fun i p => ⟨.arg sym i, p.type⟩

/-- Open the body of a real module and return its arguments. -/
def addEntryBlock (sym : Ident) : Effect Design (List Value) := do
  let d ← get
  match d.findModule? sym with
  | none => throw (.structural (.unknownSymbol sym))
  | some op =>
    match op.kind with
    | .external _ => throw (.structural (.externalBody sym))
    | .real (some _) => throw (.structural (.bodyExists sym))
    | .real none =>
      let args := entryArgs sym op.inputs
      set (d.setBody sym (some { args }))
      pure args

/-- Drop the body of a real module, so that a new one can be opened. -/
def clearBody (sym : Ident) : Effect Design Unit := do
  let d ← get
  match d.findModule? sym with
  | none => throw (.structural (.unknownSymbol sym))
  | some op =>
    if op.isExternal then throw (.structural (.externalBody sym))
    set (d.setBody sym none)

/-- The body at an insertion point. It must be open: there, and without a terminator. -/
def openBlock (d : Design) (ip : InsertionPoint) : Except Error Block :=
  match d.body? ip.owner with
  | none => throw (.structural (.noBodyToInsert ip.owner))
  | some block =>
    if block.isTerminated then throw (.structural (.bodyTerminated ip.owner)) else pure block

/-- Append an operation with fresh results of the given types, and return it as it then
stands at the end of the body. -/
def buildOp (ip : InsertionPoint) (kind : OpKind) (operands : List Value)
    (types : List SignalType) (attributes : Attributes) (loc : Location) :
    Effect Design Operation := do
  let d ← get
  let block ← Effect.ofExcept (d.openBlock ip)
  let id : OpId := ⟨d.nextOp⟩
  let results := types.mapIdx fun i t => ⟨.result id i, t⟩
  let block := block.push { id, kind, operands, results, attributes, loc }
  set { d.setBody ip.owner (some block) with nextOp := d.nextOp + 1 }
  match block.ops.getLast? with
  | some op => pure op
  | none => throw (.internal .operationVanished)

/-- Append a constant, which its type must be able to hold, and return its value. -/
def buildConstant (ip : InsertionPoint) (type : SignalType) (value : Constant)
    (loc : Location) : Effect Design Value := do
  Effect.ofExcept (type.check value)
  let op ← buildOp ip (.constant value) [] [type] .empty loc
  pure ⟨.result op.id 0, type⟩

/-- The attributes that every instance operation carries. -/
def instanceAttributes (name target : Ident) : Attributes :=
  .ofList [("instanceName", .str name), ("moduleName", .symbolRef target), ("sym_name", .str name)]

/-- Append an instance of `target`, with one result for each output of that module. -/
def buildInstance (ip : InsertionPoint) (target name : Ident) (inputs : List Value)
    (params : Option Attr) (loc : Location) : Effect Design Operation := do
  if target = ip.owner then
    throw (.structural (.selfInstance target))
  match (← get).findModule? target with
  | none => throw (.structural (.unknownSymbol target))
  | some op =>
    buildOp ip (.inst name target params) inputs (op.outputs.map Port.type)
      (instanceAttributes name target) loc

/-- Close the body with the values of the outputs. -/
def buildOutput (ip : InsertionPoint) (values : List Value) (loc : Location) :
    Effect Design Operation :=
  buildOp ip .output values [] .empty loc

/-- Append a metadata record about `symbol`. -/
def addSymbolMetadata (symbol : Ident) (attributes : Attributes) (loc : Location) :
    Effect Design OpId := do
  let d ← get
  let id : OpId := ⟨d.nextOp⟩
  let record : Operation :=
    { id, kind := .symbolMetadata symbol, operands := [], results := [], attributes, loc }
  set { d with metadata := d.metadata ++ [record], nextOp := d.nextOp + 1 }
  pure id

end Hardware.Design
