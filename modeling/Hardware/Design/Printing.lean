import Hardware.Design

/-!
The printed design: a line with its name, then every module, then the metadata records.
-/
namespace Hardware

/-- Texts between commas. -/
def commaSeparated (texts : List String) : String := ", ".intercalate texts

namespace Design

/-- The ports of a module, as in `in %a : i8, out b : i8`. -/
def signatureText (inputs outputs : List Port) : String :=
  commaSeparated
    (inputs.map (fun p => s!"in %{p.name} : {p.type.text}") ++
      outputs.map fun p => s!"out {p.name} : {p.type.text}")

/-- The name of a value inside the body of `parent`: an argument goes by the name of its
port, a result by its operation, with its position if the operation has several. -/
def valueText (d : Design) (parent : ModuleOp) : ValueDef → String
  | .arg _ i =>
    match parent.inputs[i]? with
    | some port => "%" ++ port.name
    | none => s!"%arg{i}"
  | .result op i =>
    if (d.findOp? parent.sym op).any fun o => o.results.length > 1 then s!"%{op.text}#{i}"
    else "%" ++ op.text

/-- An operand of an operation. Outside every body it has no name. -/
def operandText (d : Design) (parent : Option ModuleOp) (v : Value) : String :=
  match parent with
  | some m => d.valueText m v.source
  | none => "%?"

def typedOperandText (d : Design) (parent : Option ModuleOp) (v : Value) : String :=
  d.operandText parent v ++ " : " ++ v.type.text

def resultsText (op : Operation) : String :=
  match op.results.length with
  | 0 => ""
  | 1 => s!"%{op.id.text} = "
  | n => s!"%{op.id.text}:{n} = "

/-- The inputs of an instance. An input without a port goes by its position. -/
def instanceInputsText (d : Design) (parent target : Option ModuleOp) (op : Operation) : String :=
  commaSeparated <| op.operands.mapIdx fun i v =>
    let name :=
      match target.bind fun t => t.inputs[i]? with
      | some port => port.name
      | none => toString i
    name ++ ": " ++ d.typedOperandText parent v

def instanceOutputsText (target : Option ModuleOp) : String :=
  match target with
  | some t => commaSeparated (t.outputs.map fun p => s!"{p.name}: {p.type.text}")
  | none => ""

def paramsText (params : Option Attr) : String :=
  match params.bind Attr.asDict? with
  | some entries => "<" ++ commaSeparated (entries.map fun e => e.1 ++ ": " ++ e.2.text) ++ ">"
  | none => ""

/-- One operation on a line of its own, behind `indent` spaces. `parent` is the module
whose body holds it. A metadata record shows its attributes inline and no location. -/
def opText (d : Design) (parent : Option ModuleOp) (op : Operation) (indent : Nat) : String :=
  let front := String.ofList (List.replicate indent ' ') ++ resultsText op
  let back := op.attributes.text ++ " " ++ op.loc.text ++ "\n"
  match op.kind with
  | .constant value =>
    let type := op.results.head?.elim "" fun r => r.type.text
    front ++ "hw.constant " ++ value.text ++ " : " ++ type ++ back
  | .inst name target params =>
    let t := d.findModule? target
    front ++ "hw.instance " ++ Text.quote name ++ " @" ++ target ++ paramsText params ++
      "(" ++ d.instanceInputsText parent t op ++ ") -> (" ++ instanceOutputsText t ++ ")" ++ back
  | .output =>
    front ++ "hw.output " ++ commaSeparated (op.operands.map (d.typedOperandText parent)) ++ back
  | .symbolMetadata symbol =>
    front ++ op.name ++ " \x7bsymbolRef = @" ++ symbol ++
      String.join (op.attributes.entries.map fun e => ", " ++ e.1 ++ " = " ++ e.2.text) ++ "\x7d\n"
  | .custom name =>
    front ++ name ++ "(" ++ commaSeparated (op.operands.map (d.operandText parent)) ++ ")" ++ back

def paramDeclsText (params : List ParamDecl) : String :=
  if params.isEmpty then ""
  else "<" ++ commaSeparated (params.map fun p => s!"{p.name}: {p.kind.text}") ++ ">"

def moduleText (d : Design) (m : ModuleOp) : String :=
  let interface := "(" ++ signatureText m.inputs m.outputs ++ ")" ++ m.attributes.text
  match m.kind with
  | .external params =>
    "hw.module.extern @" ++ m.sym ++ paramDeclsText params ++ interface ++ "\n"
  | .real none => "hw.module @" ++ m.sym ++ interface ++ "\n"
  | .real (some body) =>
    "hw.module @" ++ m.sym ++ interface ++ " \x7b\n" ++
      String.join (body.ops.map fun op => d.opText (some m) op 2) ++ "\x7d\n"

def text (d : Design) : String :=
  s!"// design: {d.name}\n" ++ String.join (d.modules.values.map d.moduleText) ++
    String.join (d.metadata.map fun op => d.opText none op 0)

end Design

end Hardware
