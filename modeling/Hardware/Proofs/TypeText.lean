import Hardware.Perform
import Hardware.Proofs.Atomicity
import Hardware.Proofs.Binding
import Hardware.Proofs.Decimal

/-!
Types read off their printed form. The form begins with a letter or word for the kind of the type,
a width runs to the end, and the length of an array runs to the first character that is no digit;
so the form determines the type. A port compares types, and an error shows only their forms: since
the error arises where the types differ, it never shows one form twice.
-/
namespace Hardware

namespace SignalType

/-- The characters of the printed form. -/
def chars : SignalType → List Char
  | .bits w => 'i' :: Nat.toDigits 10 w
  | .uint w => 'u' :: 'i' :: Nat.toDigits 10 w
  | .sint w => 's' :: 'i' :: Nat.toDigits 10 w
  | .clock => ['!', 's', 'e', 'q', '.', 'c', 'l', 'o', 'c', 'k']
  | .array elem len =>
    ['!', 'h', 'w', '.', 'a', 'r', 'r', 'a', 'y', '<'] ++
      (Nat.toDigits 10 len ++ 'x' :: (elem.chars ++ ['>']))

theorem toList_text (t : SignalType) : t.text.toList = t.chars := by
  induction t with
  | bits w | uint w | sint w => simp [text, chars, toString]
  | clock => simp [text, chars]
  | array elem len ih => simp [text, chars, toString, ih]

theorem chars_injective : Function.Injective chars := by
  intro s t same
  induction s generalizing t with
  | bits w | uint w | sint w =>
      cases t <;> simp_all [chars, Decimal.toDigits_inj]
  | clock => cases t <;> simp_all [chars]
  | array elem len ih =>
      cases t with
      | bits | uint | sint | clock => simp [chars] at same
      | array elem' len' =>
          obtain ⟨rfl, rest⟩ := (Decimal.toDigits_append_inj (by simp) (by simp)).mp
            (List.append_cancel_left same)
          obtain ⟨-, inner⟩ := List.cons.inj rest
          rw [ih (List.append_cancel_right inner)]

theorem text_inj {s t : SignalType} : s.text = t.text ↔ s = t := by
  rw [← String.toList_inj, toList_text, toList_text, chars_injective.eq_iff]

/-- What is shown of a constant is not the form of a type. -/
theorem text_ne_constant (t : SignalType) (c : String) : t.text ≠ "constant " ++ c := by
  intro same
  have letters := congrArg (fun s => s.toList.head?) same
  simp only [toList_text, String.toList_append] at letters
  cases t <;> simp [chars] at letters

end SignalType

namespace Error

/-- A wrong type on a port is reported with two different texts. -/
def TellsApart (e : Error) : Prop :=
  ∀ port expected found, e.kind = .typeMismatch port expected found → expected ≠ found

/-- The error is about the structure of the design, wherever it was located. -/
def StructuralKind (e : Error) : Prop := ∃ fault, e.kind = .structural fault

theorem IsStructural.structuralKind {e : Error} (h : e.IsStructural) : e.StructuralKind := by
  obtain ⟨fault, rfl⟩ := h
  exact ⟨fault, rfl⟩

theorem StructuralKind.tellsApart {e : Error} (h : e.StructuralKind) : e.TellsApart := by
  obtain ⟨fault, kind⟩ := h
  intro port expected found mismatch
  rw [kind] at mismatch
  cases mismatch

theorem tellsApart_internal (fault : InternalFault) : (internal fault).TellsApart := nofun

theorem tellsApart_mismatch {port : Ident} {expected found : String} (differ : expected ≠ found) :
    (ofKind (.typeMismatch port expected found)).TellsApart := by
  rintro _ _ _ ⟨⟩
  exact differ

end Error

namespace Effect

variable {σ τ α β : Type}

/-- In whatever state `x` is started, it reports a wrong type on a port with two different texts. -/
def TellsApart (x : Effect σ α) : Prop :=
  ∀ s, x.Ends s (fun _ _ => True) fun e _ => e.TellsApart

theorem tellsApart_pure (a : α) : (pure a : Effect σ α).TellsApart := fun _ => trivial

theorem tellsApart_get : (get : Effect σ σ).TellsApart := fun _ => trivial

theorem tellsApart_modify (f : σ → σ) : (modify f : Effect σ PUnit).TellsApart := fun _ => trivial

theorem tellsApart_ofExcept {r : Except Error α} (h : ∀ e, r = .error e → e.TellsApart) :
    (ofExcept r : Effect σ α).TellsApart := fun _ => ends_ofExcept (fun _ _ => trivial) h

theorem TellsApart.bind {x : Effect σ α} {f : α → Effect σ β} (hx : x.TellsApart)
    (hf : ∀ a, (f a).TellsApart) : (x >>= f).TellsApart := fun s =>
  .bind ((hx s).imp (fun a t _ => hf a t) fun _ _ h => h)

theorem TellsApart.on {x : Effect τ α} (hx : x.TellsApart) (part : σ → τ) (put : τ → σ → σ) :
    (x.on part put).TellsApart := fun s => ends_on (hx (part s))

theorem TellsApart.locating {x : Effect σ α} (hx : x.TellsApart) (loc : Location) :
    (x.locating loc).TellsApart := fun s => ends_locating (hx s)

theorem TellsApart.mapM {f : α → Effect σ β} (h : ∀ a, (f a).TellsApart) (as : List α) :
    (as.mapM f).TellsApart := fun _ =>
  ends_mapM (S := fun _ => True) trivial fun a _ t _ => h a t

theorem TellsApart.forM {f : α → Effect σ PUnit} (h : ∀ a, (f a).TellsApart) (as : List α) :
    (as.forM f).TellsApart := fun _ =>
  ends_forM (S := fun _ => True) trivial fun a _ t _ => h a t

end Effect

/-- A check that follows another one fails if either does. -/
theorem bind_eq_error {α β : Type} {x : Except Error α} {f : α → Except Error β} {e : Error}
    (h : (x >>= f) = .error e) : x = .error e ∨ ∃ a, f a = .error e := by
  cases x with
  | error e' =>
      cases h
      exact .inl rfl
  | ok a => exact .inr ⟨a, h⟩

theorem exists_of_mapM_eq_error {α β : Type} {f : α → Except Error β} {as : List α} {e : Error}
    (h : as.mapM f = .error e) : ∃ a ∈ as, f a = .error e := by
  induction as with
  | nil => cases h
  | cons a as ih =>
      rw [List.mapM_cons] at h
      rcases bind_eq_error h with first | ⟨b, later⟩
      · exact ⟨a, List.mem_cons_self, first⟩
      · rcases bind_eq_error later with rest | ⟨_, none⟩
        · obtain ⟨a', mem, fails⟩ := ih rest
          exact ⟨a', List.mem_cons_of_mem a mem, fails⟩
        · cases none

namespace PortDesc

theorem refusal_tellsApart {p : PortDesc} {external : Bool} {v : PortValue}
    (misfit : ¬ p.Takes external v) : (p.refusal v).TellsApart := by
  cases v with
  | signal v =>
      exact Error.tellsApart_mismatch fun same => misfit (SignalType.text_inj.mp same).symm
  | constant c => exact Error.tellsApart_mismatch (p.type.text_ne_constant _)
  | disconnected => nofun

theorem accept_tellsApart {p : PortDesc} {external : Bool} {v : PortValue} {e : Error}
    (h : p.accept external v = .error e) : e.TellsApart := by
  by_cases takes : p.Takes external v
  · rw [accept_of_takes takes] at h
    cases h
  · rw [accept_of_not_takes takes] at h
    cases h
    exact refusal_tellsApart takes

/-- An input compares types, but it might as well compare their forms. -/
theorem accept_signal (p : PortDesc) (external : Bool) (v : Signal) :
    p.accept external (.signal v) =
      if v.type.text = p.type.text then .ok (.signal v)
      else .error (.ofKind (.typeMismatch p.name p.type.text v.type.text)) := by
  simp only [SignalType.text_inj]
  rfl

end PortDesc

theorem Module.bindInputs_tellsApart {γ : Type} {x : Module γ} {supply : List (Ident × PortValue)}
    {e : Error} (h : x.bindInputs supply = .error e) : e.TellsApart := by
  unfold bindInputs at h
  dsimp only at h
  -- Names that are repeated, unknown or missing are no matter of types.
  iterate 3
    split at h
    · cases h
      nofun
  obtain ⟨⟨p, v⟩, -, fails⟩ := exists_of_mapM_eq_error h
  exact PortDesc.accept_tellsApart fails

namespace Design

variable {d : Design} {m : ModuleOp} {op : Operation} {name target : Ident} {params : Option Attr}
  {e : Error}

theorem checkOperands_structural (h : checkOperands m op = .error e) : e.StructuralKind := by
  obtain ⟨v, -, fails⟩ := forM_eq_error h
  split at fails <;> cases fails
  exact ⟨_, rfl⟩

theorem checkInstanceInputs_structural {ports : List Port}
    (h : checkInstanceInputs name ports op = .error e) : e.StructuralKind := by
  obtain ⟨⟨port, v⟩, -, fails⟩ := forM_eq_error h
  dsimp only at fails
  split at fails <;> cases fails
  exact ⟨_, rfl⟩

theorem checkInstanceParams_structural {decls : List ParamDecl}
    (h : checkInstanceParams name params decls op = .error e) : e.StructuralKind := by
  obtain ⟨decl, -, fails⟩ := forM_eq_error h
  split at fails
  · split at fails <;> cases fails
    exact ⟨_, rfl⟩
  · cases fails
    exact ⟨_, rfl⟩

theorem checkInstance_structural (h : d.checkInstance name target params op = .error e) :
    e.StructuralKind := by
  unfold checkInstance at h
  split at h
  · cases h
    exact ⟨_, rfl⟩
  · split at h
    · cases h
      exact ⟨_, rfl⟩
    · rcases bind_eq_error h with inputs | ⟨_, params⟩
      · exact checkInstanceInputs_structural inputs
      · exact checkInstanceParams_structural params

theorem checkKind_structural (h : d.checkKind m op = .error e) : e.StructuralKind := by
  unfold checkKind at h
  split at h
  · split at h
    · cases h
    · exact (SignalType.check_structural h).structuralKind
  · exact checkInstance_structural h
  · split at h <;> cases h
    exact ⟨_, rfl⟩
  · cases h
  · cases h

/-- Verification reports faults in the structure of the design only. -/
theorem verifyOp_structural {sym : Ident} {id : OpId} (h : d.verifyOp sym id = .error e) :
    e.StructuralKind := by
  unfold verifyOp at h
  split at h
  · cases h
    exact ⟨_, rfl⟩
  · split at h
    · cases h
      exact ⟨_, rfl⟩
    · rcases bind_eq_error h with operands | ⟨_, kind⟩
      · exact checkOperands_structural operands
      · exact checkKind_structural kind

end Design

namespace System

open Effect

/-- The faults of a building step are no wrong types on a port. -/
theorem tellsApart_onDesign {α : Type} {x : Effect Design α}
    (faults : ∀ d, x.Ends d (fun _ _ => True) fun e _ => e.IsStructural) :
    (onDesign x).TellsApart :=
  TellsApart.on (fun d => (faults d).imp (fun _ _ h => h) fun _ _ h =>
    h.structuralKind.tellsApart) _ _

theorem tellsApart_currentPoint : currentPoint.TellsApart := by
  refine tellsApart_get.bind fun s => ?_
  split
  · exact tellsApart_pure _
  · exact fun _ => Error.tellsApart_internal _

theorem tellsApart_uniquify (base : Ident) : (uniquify base).TellsApart := by
  refine TellsApart.on (tellsApart_get.bind fun s => ?_) _ _
  split
  · exact fun _ => trivial
  · exact fun _ => Error.tellsApart_internal _

theorem tellsApart_buildConstant (type : SignalType) (value : Constant) :
    (buildConstant type value).TellsApart :=
  tellsApart_currentPoint.bind fun ip => tellsApart_get.bind fun _ =>
    tellsApart_onDesign fun d => Design.buildConstant_faults d ip type value _

theorem tellsApart_buildInstance (ip : InsertionPoint) (target name : Ident) (inputs : List Value)
    (params : Option Attr) (appid : Option AppId) (loc : Location) :
    (buildInstance ip target name inputs params appid loc).TellsApart := by
  have verified (op : Operation) : (do
      let s ← get
      if s.conf.verifyInstances then Effect.ofExcept (s.design.verifyOp ip.owner op.id)
      pure (op.id, op.results) : Effect System (OpId × List Value)).TellsApart := by
    refine tellsApart_get.bind fun s => ?_
    split
    · exact (tellsApart_ofExcept fun _ h => (Design.verifyOp_structural h).tellsApart).bind fun _ =>
        tellsApart_pure _
    · exact tellsApart_pure _
  unfold buildInstance
  refine (tellsApart_onDesign fun d =>
    Design.buildInstance_faults d ip target name inputs params loc).bind fun op => ?_
  cases appid with
  | none => exact verified op
  | some a => exact (tellsApart_modify _).bind fun _ => verified op

end System

namespace Workspace

open Effect

variable {U : UserCode} {α : Type}

theorem tellsApart_resolve (look : Workspace U → Option α) : (resolve look).TellsApart := fun _ =>
  resolve_ends (fun _ _ => trivial) fun _ => Error.tellsApart_internal _

theorem tellsApart_onSystem (s : SystemId) {x : Effect System α} (hx : x.TellsApart) :
    (onSystem s x : Effect (Workspace U) α).TellsApart :=
  (tellsApart_resolve _).bind fun _ => hx.on _ _

theorem tellsApart_moveImport (s : SystemId) (m : ModuleId) (x : Module U.GeneratorCode)
    (held : Option ModuleOp) : (moveImport s m x held : Effect (Workspace U) Ident).TellsApart := by
  refine (tellsApart_resolve _).bind fun sys => ?_
  dsimp only
  split
  · exact fun _ => nofun
  · cases held with
    | none => exact fun _ => nofun
    | some op =>
        exact (tellsApart_modify _).bind fun _ => tellsApart_onSystem s
          (System.tellsApart_onDesign fun d => Design.addModule_faults d op)

theorem tellsApart_createDeclared (s : SystemId) (x : Module U.GeneratorCode) :
    (createDeclared s x : Effect (Workspace U) Ident).TellsApart := by
  refine (tellsApart_resolve _).bind fun sys => tellsApart_onSystem s ?_
  refine System.tellsApart_onDesign fun d => .bind ?_
  unfold Design.uniqueSymbol
  refine .bind ?_
  simp only [ends_get]
  refine .bind (ends_set.mpr (.bind ((Design.addModule_faults _ _).imp (fun _ _ _ => ?_)
    fun _ _ h => h)))
  split <;> trivial

theorem tellsApart_createOp (s : SystemId) (m : ModuleId) :
    (createOp s m : Effect (Workspace U) Ident).TellsApart := by
  have recorded (sym : Ident) : (recordSymbol s m sym >>= fun _ => pure sym :
      Effect (Workspace U) Ident).TellsApart :=
    (tellsApart_onSystem s (tellsApart_modify _)).bind fun _ => tellsApart_pure sym
  refine (tellsApart_resolve _).bind fun x => (tellsApart_resolve _).bind fun sys => ?_
  split
  · exact tellsApart_pure _
  · split
    · exact (tellsApart_moveImport s m x _).bind recorded
    · exact (tellsApart_createDeclared s x).bind recorded

theorem tellsApart_inputValue (s : SystemId) (p : PortDesc) (v : PortValue) :
    (inputValue s p v : Effect (Workspace U) Value).TellsApart := by
  cases v with
  | signal v => exact tellsApart_pure v
  | constant c => exact tellsApart_onSystem s (System.tellsApart_buildConstant _ _)
  | disconnected => exact tellsApart_onSystem s (System.tellsApart_buildConstant _ _)

theorem tellsApart_instantiate (s : SystemId) (m : ModuleId) (r : InstanceRequest) :
    (instantiate s m r : Effect (Workspace U) InstanceId).TellsApart := by
  refine (tellsApart_resolve _).bind fun x => ?_
  refine (tellsApart_onSystem s System.tellsApart_currentPoint).bind fun ip => ?_
  refine ((tellsApart_ofExcept fun _ => Module.bindInputs_tellsApart).locating r.loc).bind
    fun bound => ?_
  refine (tellsApart_createOp s m).bind fun symbol => ?_
  refine (TellsApart.mapM (fun ⟨p, v⟩ => tellsApart_inputValue s p v) _).bind fun values => ?_
  refine (tellsApart_onSystem s (System.tellsApart_uniquify _)).bind fun name => ?_
  refine (tellsApart_onSystem s
    (System.tellsApart_buildInstance ip symbol name values _ _ _)).bind fun built => ?_
  refine TellsApart.bind (fun _ => trivial) fun i => ?_
  refine (tellsApart_onSystem s (tellsApart_modify _)).bind fun _ => ?_
  split
  · exact (tellsApart_onSystem s (tellsApart_modify _)).bind fun _ => tellsApart_pure i
  · exact tellsApart_pure i

end Workspace

namespace Ports

open Effect

variable {U : UserCode}

theorem read_tellsApart {ports : Ports} {owner port : Ident} {e : Error}
    (h : ports.read owner port = .error e) : e.TellsApart := by
  unfold read at h
  split at h
  · cases h
  · split at h <;> cases h <;> nofun

theorem check_tellsApart {ports : Ports} {owner : Ident} {e : Error}
    (h : ports.check owner = .error e) : e.TellsApart := by
  unfold check at h
  split at h <;> cases h
  nofun

theorem tellsApart_assignable (port : Ident) (type : SignalType) (v : PortValue) :
    (assignable port type v : Effect (PortState U) Value).TellsApart := by
  cases v with
  | signal v =>
      dsimp only [assignable]
      split
      · exact tellsApart_pure v
      · rename_i differ
        exact fun _ => Error.tellsApart_mismatch fun same =>
          differ (SignalType.text_inj.mp same).symm
  | constant c =>
      refine tellsApart_get.bind fun _ => TellsApart.on ?_ _ _
      exact Workspace.tellsApart_onSystem _ (System.tellsApart_buildConstant _ _)
  | disconnected => exact fun _ => nofun

theorem tellsApart_assign (port : Ident) (v : PortValue) :
    (assign port v : Effect (PortState U) Unit).TellsApart := by
  refine tellsApart_get.bind fun s => ?_
  split
  · split <;> exact fun _ => nofun
  · exact (tellsApart_assignable port _ v).bind fun _ => tellsApart_modify _

/-- So does an output. -/
theorem assign_signal {st : PortState U} {port : Ident} {i : Nat} {p : PortDesc}
    (named : st.1.output? port = some (i, p)) (v : Signal) :
    assign port (.signal v) st =
      if v.type.text = p.type.text then
        .ok () ({ st.1 with slots := st.1.slots.set i (some v) }, st.2)
      else .error (.ofKind (.typeMismatch port p.type.text v.type.text)) st := by
  simp only [SignalType.text_inj]
  simp only [assign, bind, EStateM.bind, get, getThe, MonadStateOf.get, EStateM.get, named,
    assignable]
  by_cases fits : v.type = p.type
  · rw [if_pos fits, if_pos fits]
    rfl
  · rw [if_neg fits, if_neg fits]
    rfl

theorem tellsApart_perform (c : PortCall) :
    (c.perform : Effect (PortState U) c.Result).TellsApart := by
  cases c with
  | read port => exact tellsApart_get.bind fun _ => tellsApart_ofExcept fun _ => read_tellsApart
  | assign port v => exact tellsApart_assign port v
  | assignAll values =>
      refine tellsApart_get.bind fun s => ?_
      dsimp only
      split
      · exact fun _ => nofun
      · exact TellsApart.forM (fun ⟨port, v⟩ => tellsApart_assign port v) values
  | check => exact tellsApart_get.bind fun _ => tellsApart_ofExcept fun _ => check_tellsApart
  | owner => exact tellsApart_get.bind fun _ => tellsApart_pure _
  | system => exact tellsApart_get.bind fun _ => tellsApart_pure _

end Ports

/-- The printed form of a type determines the type, whatever its widths, lengths and nesting. So the
forms decide whether a signal fits a port, and an error never shows one form as the expected and as
the found one, wherever a module is instantiated or an output assigned. -/
theorem SignalType.told_apart_by_text {U : UserCode} :
    (∀ s t : SignalType, s.text = t.text ↔ s = t) ∧
    (∀ (p : PortDesc) (external : Bool) (v : Signal),
      p.accept external (.signal v) =
        if v.type.text = p.type.text then .ok (.signal v)
        else .error (.ofKind (.typeMismatch p.name p.type.text v.type.text))) ∧
    (∀ (s : SystemId) (m : ModuleId) (r : InstanceRequest) (ws ws' : Workspace U) (e : Error),
      (Call.instantiate s m r).perform ws = .error e ws' → e.TellsApart) ∧
    (∀ (st : PortState U) (port : Ident) (i : Nat) (p : PortDesc) (v : Signal),
      st.1.output? port = some (i, p) →
      (PortCall.assign port (.signal v)).perform st =
        if v.type.text = p.type.text then
          .ok () ({ st.1 with slots := st.1.slots.set i (some v) }, st.2)
        else .error (.ofKind (.typeMismatch port p.type.text v.type.text)) st) ∧
    ∀ (c : PortCall) (st st' : PortState U) (e : Error),
      c.perform st = .error e st' → e.TellsApart := by
  refine ⟨fun _ _ => text_inj, PortDesc.accept_signal, fun s m r ws ws' e fails => ?_,
    fun st port i p v named => Ports.assign_signal named v, fun c st st' e fails => ?_⟩
  · exact (Workspace.tellsApart_instantiate s m r ws).of_error fails
  · exact (Ports.tellsApart_perform c st).of_error fails

namespace Sample

/-- Two unsigned bytes, where two plain ones are expected. -/
def unsignedPair : Value := ⟨.arg "Top" 0, .array (.uint 8) 2⟩

/-- A module with an input for two bytes. -/
def pairModule : Module Bool where
  schema := { name := "Pair", inputs := [⟨"a", .array (.bits 8) 2, .input⟩], loc := .unknown }
  origin := .declared

/-- A workspace with one system, which builds the body of `Top`. -/
def pairBench : Workspace code where
  modules := [pairModule]
  systems := [{
    design := { name := "design" }
    running := ⟨[{ site := { ip := ⟨"Top"⟩, loc := .unknown, clock := none } }]⟩ }]
  state := (0 : Nat)

/-- The ports of `Top`, with an output for two bytes. -/
def pairPorts : Ports where
  system := ⟨0⟩
  target := ⟨0⟩
  inputs := []
  outputs := [⟨"o", .array (.bits 8) 2, .output⟩]
  args := []
  slots := [none]

/-- Gives the input the two unsigned bytes. -/
def mispairing : Call code :=
  .instantiate ⟨0⟩ ⟨0⟩ { inputs := [("a", .signal unsignedPair)], loc := .unknown }

theorem unsigned_pair_told_apart :
    ∃ e e' : Error, mispairing.perform pairBench = .error e pairBench ∧
      e.kind = .typeMismatch "a" "!hw.array<2xi8>" "!hw.array<2xui8>" ∧ e.TellsApart ∧
      (PortCall.assign "o" (.signal unsignedPair)).perform (pairPorts, pairBench) =
        .error e' (pairPorts, pairBench) ∧
      e'.kind = .typeMismatch "o" "!hw.array<2xi8>" "!hw.array<2xui8>" ∧ e'.TellsApart := by
  obtain ⟨-, -, bound, assigned, delivered⟩ := SignalType.told_apart_by_text (U := code)
  have input : mispairing.perform pairBench =
      .error (.ofKind (.typeMismatch "a" "!hw.array<2xi8>" "!hw.array<2xui8>")) pairBench := rfl
  have output := assigned (pairPorts, pairBench) "o" 0 ⟨"o", .array (.bits 8) 2, .output⟩
    unsignedPair rfl
  rw [if_neg (by decide)] at output
  exact ⟨_, _, input, rfl, bound _ _ _ _ _ _ input, output, rfl, delivered _ _ _ _ output⟩

end Sample

end Hardware
