import Hardware.Design.Printing
import Hardware.Proofs.Decimal
import Hardware.Proofs.WellFormed

/-!
The names of operands in the printed design. In a body that verifies, arguments go by the names of
their ports and results by the numbers of their operations. Neither kind of name is ambiguous in
itself, but both stand behind the same sign, and nothing keeps a port from being named as a result
is. So two operands are printed alike if they are one value, or if a port and a result clash.
-/
namespace Hardware

/-- The name of the result at position `i`: that of the operation, with the position if the
operation has several results. -/
def Operation.resultName (op : Operation) (i : Nat) : Ident :=
  if op.results.length > 1 then op.id.text ++ "#" ++ toString i else op.id.text

namespace Operation

variable {op op' : Operation} {i j : Nat}

/-- What follows the number of the operation in the name of a result. -/
def positionChars (op : Operation) (i : Nat) : List Char :=
  if op.results.length > 1 then '#' :: Nat.toDigits 10 i else []

theorem toList_resultName (op : Operation) (i : Nat) :
    (op.resultName i).toList =
      'o' :: 'p' :: (Nat.toDigits 10 op.id.index ++ op.positionChars i) := by
  unfold resultName positionChars
  split <;> simp [OpId.text, toString]

theorem positionChars_stops (op : Operation) (i : Nat) :
    ∀ c ∈ (op.positionChars i).head?, c.isDigit = false := by
  unfold positionChars
  split <;> simp

/-- A single result stands at position 0, so its position need not be shown. -/
theorem positionChars_inj (hi : i < op.results.length) (hj : j < op.results.length) :
    op.positionChars i = op.positionChars j ↔ i = j := by
  unfold positionChars
  split
  · simp [Decimal.toDigits_inj]
  · refine iff_of_true rfl ?_
    omega

theorem resultName_inj (distinct : op.id = op'.id → op = op') (hi : i < op.results.length)
    (hj : j < op'.results.length) :
    op.resultName i = op'.resultName j ↔ op.id = op'.id ∧ i = j := by
  rw [← String.toList_inj, toList_resultName, toList_resultName]
  simp only [List.cons.injEq, true_and]
  rw [Decimal.toDigits_append_inj (op.positionChars_stops i) (op'.positionChars_stops j)]
  constructor
  · intro ⟨number, position⟩
    have same : op.id = op'.id := congrArg OpId.mk number
    cases distinct same
    exact ⟨same, (positionChars_inj hi hj).mp position⟩
  · rintro ⟨same, rfl⟩
    cases distinct same
    exact ⟨rfl, rfl⟩

end Operation

namespace ModuleOp

/-- `name` is what a value of the body of `m` goes by: an argument by the name of its port, a result
by the name of the result. -/
inductive Names (m : ModuleOp) : ValueDef → Ident → Prop
  | arg {i : Nat} {port : Port} (input : m.inputs[i]? = some port) :
      Names m (.arg m.sym i) port.name
  | result {b : Block} {op : Operation} {i : Nat} (body : m.body? = some b) (mem : op ∈ b.ops)
      (position : i < op.results.length) : Names m (.result op.id i) (op.resultName i)

/-- An operation in the body of `m` has the operand `v`. -/
def Uses (m : ModuleOp) (v : Value) : Prop :=
  ∃ b op, m.body? = some b ∧ op ∈ b.ops ∧ v ∈ op.operands

/-- An input of `m` has the name of a result in its body. -/
inductive Clash (m : ModuleOp) : ValueDef → ValueDef → Prop
  | intro {i k : Nat} {port : Port} {b : Block} {op : Operation}
      (input : m.inputs[i]? = some port) (body : m.body? = some b) (mem : op ∈ b.ops)
      (position : k < op.results.length) (same : port.name = op.resultName k) :
      Clash m (.arg m.sym i) (.result op.id k)

variable {m : ModuleOp} {v w : ValueDef} {name name' : Ident}

theorem Clash.names (h : m.Clash v w) : ∃ name, m.Names v name ∧ m.Names w name := by
  obtain ⟨input, body, mem, position, same⟩ := h
  exact ⟨_, .arg input, same ▸ .result body mem position⟩

/-- Two names of one kind are the same only if the values are. -/
theorem Names.eq_or_clash (inputs : (m.inputs.map Port.name).Nodup)
    (numbers : ∀ b, m.body? = some b → (b.ops.map Operation.id).Nodup)
    (hv : m.Names v name) (hw : m.Names w name') (same : name = name') :
    v = w ∨ m.Clash v w ∨ m.Clash w v := by
  cases hv with
  | @arg i port input =>
      cases hw with
      | @arg j port' input' =>
          left
          have hi : (m.inputs.map Port.name)[i]? = some port.name := by simp [input]
          have hj : (m.inputs.map Port.name)[j]? = some port.name := by simp [input', same]
          have bound := (List.getElem?_eq_some_iff.mp hi).1
          rw [(List.getElem?_inj bound inputs).mp (hi.trans hj.symm)]
      | result body mem position =>
          exact .inr (.inl (.intro input body mem position same))
  | @result b op i body mem position =>
      cases hw with
      | arg input => exact .inr (.inr (.intro input body mem position same.symm))
      | @result b' op' j body' mem' position' =>
          left
          rw [body] at body'
          cases body'
          have distinct : op.id = op'.id → op = op' := fun same =>
            List.inj_on_of_nodup_map (numbers b body) mem mem' same
          obtain ⟨number, rfl⟩ := (Operation.resultName_inj distinct position position').mp same
          rw [number]

theorem InScope.names {v : Value} (h : m.InScope v) : ∃ name, m.Names v.source name := by
  unfold InScope at h
  cases source : v.source with
  | arg owner i =>
      rw [source] at h
      obtain ⟨rfl, port, input, -⟩ := h
      exact ⟨_, .arg input⟩
  | result id i =>
      rw [source] at h
      obtain ⟨b, op, body, mem, rfl, result⟩ := h
      exact ⟨_, .result body mem (List.getElem?_eq_some_iff.mp result).1⟩

end ModuleOp

namespace Design

variable {d : Design} {m : ModuleOp}

theorem valueText_of_names (hm : d.findModule? m.sym = some m)
    (numbers : ∀ b, m.body? = some b → (b.ops.map Operation.id).Nodup)
    {v : ValueDef} {name : Ident} (h : m.Names v name) : d.valueText m v = "%" ++ name := by
  cases h with
  | arg input => simp [valueText, input]
  | @result b op i body mem position =>
      have found : d.findOp? m.sym op.id = some op := by
        rw [findOp?, body?, hm, Option.bind_some, body, Option.bind_some]
        exact (Block.findOp?_eq_some_iff (numbers b body)).mpr ⟨mem, rfl⟩
      rw [valueText, found, Option.any_some, Operation.resultName]
      by_cases several : op.results.length > 1
      · simp [several, toString, String.append_assoc]
      · simp [several]

theorem exists_names (hm : d.findModule? m.sym = some m) (verified : d.verifyModule m.sym = .ok ())
    (numbers : ∀ b, m.body? = some b → (b.ops.map Operation.id).Nodup) {v : Value}
    (used : m.Uses v) : ∃ name, m.Names v.source name := by
  obtain ⟨b, op, body, mem, operand⟩ := used
  have ok := ((verifyModule_eq_ok_iff hm).mp verified).2 b body op mem
  have found : (m.body?.bind fun b => b.findOp? op.id) = some op := by
    rw [body]
    exact (Block.findOp?_eq_some_iff (numbers b body)).mpr ⟨mem, rfl⟩
  have defined := checkOperands_eq_ok_iff.mp ((verifyOp_eq_ok_iff hm found).mp ok).1 v operand
  exact ((ModuleOp.defines_iff_inScope numbers v).mp defined).names

/-- Two operands in the body of a module that verifies are printed alike just if they have one
definition, or if one is an argument whose port has the name of the other, a result. -/
theorem operandText_eq_iff (hm : d.findModule? m.sym = some m)
    (verified : d.verifyModule m.sym = .ok ()) (inputs : (m.inputs.map Port.name).Nodup)
    (numbers : ∀ b, m.body? = some b → (b.ops.map Operation.id).Nodup) {v w : Value}
    (hv : m.Uses v) (hw : m.Uses w) :
    d.operandText (some m) v = d.operandText (some m) w ↔
      v.source = w.source ∨ m.Clash v.source w.source ∨ m.Clash w.source v.source := by
  change d.valueText m v.source = d.valueText m w.source ↔ _
  constructor
  · intro same
    obtain ⟨name, named⟩ := exists_names hm verified numbers hv
    obtain ⟨name', named'⟩ := exists_names hm verified numbers hw
    rw [valueText_of_names hm numbers named, valueText_of_names hm numbers named'] at same
    exact named.eq_or_clash inputs numbers named' (by simpa using same)
  · have alike {v w : ValueDef} (clash : m.Clash v w) : d.valueText m v = d.valueText m w := by
      obtain ⟨name, named, named'⟩ := clash.names
      rw [valueText_of_names hm numbers named, valueText_of_names hm numbers named']
    rintro (same | clash | clash)
    · rw [same]
    · exact alike clash
    · exact (alike clash).symm

end Design

namespace Sample

/-- The argument behind `op0`, and the result of operation 0. -/
def echoArgument : Value := ⟨.arg "Echo" 0, .bits 8⟩

def echoResult : Value := ⟨.result ⟨0⟩ 0, .bits 8⟩

def echoConstant : Operation := ⟨⟨0⟩, .constant (.int 5), [], [echoResult], .empty, .unknown⟩

def echoOutput : Operation := ⟨⟨1⟩, .output, [echoArgument, echoResult], [], .empty, .unknown⟩

/-- A module that puts out its only input, which is called `op0`, and a constant. -/
def echo : ModuleOp where
  sym := "Echo"
  inputs := [⟨"op0", .bits 8⟩]
  outputs := [⟨"x", .bits 8⟩, ⟨"y", .bits 8⟩]
  attributes := .empty
  loc := .unknown
  kind := .real (some { args := [echoArgument], ops := [echoConstant, echoOutput] })

def echoes : Design := { name := "d", modules := ⟨[("Echo", echo)]⟩ }

/-- The line for the output does not tell which of its operands is the constant. -/
theorem argument_printed_as_result : echoArgument.source ≠ echoResult.source ∧
    echoes.operandText (some echo) echoArgument = echoes.operandText (some echo) echoResult := by
  have numbers : ∀ b, echo.body? = some b → (b.ops.map Operation.id).Nodup := by
    rintro b ⟨⟩
    decide
  have uses : ∀ v ∈ echoOutput.operands, echo.Uses v := fun v operand =>
    ⟨_, echoOutput, rfl, by simp, operand⟩
  have input : echo.inputs[0]? = some ⟨"op0", .bits 8⟩ := rfl
  have mem : echoConstant ∈ [echoConstant, echoOutput] := List.mem_cons_self
  have clash : echo.Clash echoArgument.source echoResult.source :=
    .intro input rfl mem (by decide) (by decide)
  exact ⟨by decide, (Design.operandText_eq_iff (by decide) (by decide +kernel) (by decide) numbers
    (uses _ (by simp [echoOutput])) (uses _ (by simp [echoOutput]))).mpr (.inr (.inl clash))⟩

end Sample

end Hardware
