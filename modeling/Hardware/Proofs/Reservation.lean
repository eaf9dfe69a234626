import Hardware.Proofs.Builder
import Hardware.Proofs.NameSupply

/-!
Symbols of modules between reservation and definition. A symbol may be granted and never used, and
a module may be defined under a symbol that was never granted. The supply takes notice of both, so
a granted symbol is new to either, and stays free until a module is defined under it.
-/
namespace Hardware

namespace BuilderCall

/-- The symbol that the call is granted. -/
def granted? (c : BuilderCall) (d : Design) : Option Ident :=
  match c with
  | .uniqueSymbol base => ((Design.uniqueSymbol base).outcome d).1.toOption
  | _ => none

/-- The symbol under which the call defines a module. -/
def defined? (c : BuilderCall) (d : Design) : Option Ident :=
  match c with
  | .addModule op => ((Design.addModule op).outcome d).1.toOption
  | _ => none

end BuilderCall

namespace Design

/-- The symbols that a list of calls is granted, in order. -/
def granted (d : Design) (calls : List BuilderCall) : List Ident :=
  (d.log calls).flatMap fun (d, c) => (c.granted? d).toList

/-- The symbols under which a list of calls defines modules, in order. -/
def defined (d : Design) (calls : List BuilderCall) : List Ident :=
  (d.log calls).flatMap fun (d, c) => (c.defined? d).toList

theorem granted_cons (d : Design) (c : BuilderCall) (calls : List BuilderCall) :
    d.granted (c :: calls) = (c.granted? d).toList ++ (c.after d).granted calls := rfl

theorem defined_cons (d : Design) (c : BuilderCall) (calls : List BuilderCall) :
    d.defined (c :: calls) = (c.defined? d).toList ++ (c.after d).defined calls := rfl

/-- The modules of `d` are those of the symbols `defined`, in this order and each under its own, and
the supply knows these symbols as well as those that were `granted`. -/
structure Registers (d : Design) (granted defined : List Ident) : Prop where
  modules : d.modules.entries.map (fun e => (e.1, e.2.sym)) = defined.map fun sym => (sym, sym)
  distinct : defined.Nodup
  reserved : granted ⊆ d.symbols.issued
  recorded : defined ⊆ d.symbols.issued

section

variable {d d' : Design} {granted defined : List Ident} {sym : Ident} {op : ModuleOp}

theorem Registers.keys (h : d.Registers granted defined) : d.modules.keys = defined := by
  have keys := congrArg (List.map Prod.fst) h.modules
  simpa [OrderedMap.keys, Function.comp_def] using keys

theorem Registers.own (h : d.Registers granted defined) :
    ∀ e ∈ d.modules.entries, e.2.sym = e.1 := by
  intro e mem
  have entry := List.mem_map_of_mem (f := fun e => (e.1, e.2.sym)) mem
  rw [h.modules] at entry
  obtain ⟨sym, -, same⟩ := List.mem_map.mp entry
  obtain ⟨key, own⟩ := Prod.mk.inj same
  exact own.symm.trans key

theorem Registers.free_iff (h : d.Registers granted defined) :
    d.findModule? sym = none ↔ sym ∉ defined := by
  rw [← h.keys, OrderedMap.mem_keys_iff, Option.not_isSome_iff_eq_none]
  rfl

/-- A module is added just if its symbol is free. -/
theorem addModule_cases (d : Design) (op : ModuleOp) :
    (d.findModule? op.sym = none ∧ (addModule op).outcome d = (.ok op.sym, { d with
        symbols := d.symbols.reserve [op.sym], modules := d.modules.insert op.sym op })) ∨
      (d.findModule? op.sym ≠ none ∧ ∃ e, (addModule op).outcome d = (.error e, d)) := by
  have ends := addModule_ends d op
  unfold Effect.Ends at ends
  unfold Effect.outcome
  cases added : addModule op d with
  | ok sym d' =>
      rw [added] at ends
      obtain ⟨rfl, free, rfl⟩ := ends
      exact .inl ⟨free, rfl⟩
  | error e d' =>
      rw [added] at ends
      obtain ⟨rfl, taken⟩ := ends
      exact .inr ⟨taken, e, rfl⟩

theorem after_addModule (d : Design) (op : ModuleOp) :
    (BuilderCall.addModule op).after d = ((addModule op).outcome d).2 := by
  have ends : (addModule op).Ends d (fun _ d' => d' = ((addModule op).outcome d).2)
      fun _ d' => d' = ((addModule op).outcome d).2 := by
    unfold Effect.Ends Effect.outcome
    cases addModule op d <;> rfl
  exact Effect.Ends.outcome (x := (BuilderCall.addModule op).perform)
    (S := fun d' => d' = ((addModule op).outcome d).2) (.bind (.bind ends))

/-- A granted symbol is one that the supply did not know. -/
theorem Registers.new (h : d.Registers granted defined) (base : Ident) :
    (d.symbols.uniquify base).1 ∉ granted ∧ (d.symbols.uniquify base).1 ∉ defined :=
  ⟨fun mem => d.symbols.uniquify_not_mem base (h.reserved mem),
    fun mem => d.symbols.uniquify_not_mem base (h.recorded mem)⟩

theorem Registers.uniqueSymbol (h : d.Registers granted defined) (base : Ident) :
    ((BuilderCall.uniqueSymbol base).after d).Registers
      (granted ++ [(d.symbols.uniquify base).1]) defined := by
  have issued : ((BuilderCall.uniqueSymbol base).after d).symbols.issued =
      (d.symbols.uniquify base).1 :: d.symbols.issued := d.symbols.issued_uniquify base
  refine ⟨h.modules, h.distinct, ?_, ?_⟩
  · rw [issued]
    exact List.append_subset.mpr ⟨List.subset_cons_of_subset _ h.reserved, by simp⟩
  · rw [issued]
    exact List.subset_cons_of_subset _ h.recorded

theorem Registers.addModule (h : d.Registers granted defined) (op : ModuleOp) :
    ((BuilderCall.addModule op).after d).Registers granted
      (defined ++ ((BuilderCall.addModule op).defined? d).toList) := by
  rw [after_addModule, BuilderCall.defined?]
  rcases addModule_cases d op with ⟨free, added⟩ | ⟨-, e, refused⟩
  · rw [added]
    change Registers _ granted (defined ++ [op.sym])
    have new : op.sym ∉ defined := h.free_iff.mp free
    refine ⟨?_, ?_, List.subset_cons_of_subset _ h.reserved, ?_⟩
    · rw [OrderedMap.entries_insert free, List.map_append, h.modules, List.map_append]
      rfl
    · exact h.distinct.append (List.nodup_singleton _) (List.disjoint_singleton.mpr new)
    · refine List.append_subset.mpr ⟨List.subset_cons_of_subset _ h.recorded, ?_⟩
      simp [NameSupply.reserve]
  · rw [refused]
    exact (List.append_nil defined).symm ▸ h

theorem Registers.setBody (h : d.Registers granted defined) (sym : Ident) (body : Option Block) :
    (d.setBody sym body).Registers granted defined := by
  refine ⟨?_, h.distinct, h.reserved, h.recorded⟩
  rw [← h.modules]
  unfold Design.setBody modifyModule OrderedMap.modify
  rw [List.map_map]
  refine List.map_congr_left fun e _ => ?_
  simp only [Function.comp_apply]
  split
  · rw [ModuleOp.withBody_sym]
  · rfl

/-- No other call changes the symbols of modules, or the supply. -/
theorem Registers.other (h : d.Registers granted defined) {c : BuilderCall} {vs : List Value}
    (turns : c.Turns d vs d') (grants : ∀ base, c ≠ .uniqueSymbol base)
    (adds : ∀ op, c ≠ .addModule op) : d'.Registers granted defined := by
  cases turns with
  | refuses => exact h
  | grants base => exact absurd rfl (grants base)
  | adds op => exact absurd rfl (adds op)
  | opens sym m hm hk => exact h.setBody sym _
  | clears sym => exact h.setBody sym _
  | @appends _ sym op b hb built =>
      have set := h.setBody sym (some (b.push op))
      exact ⟨set.modules, set.distinct, set.reserved, set.recorded⟩
  | records => exact ⟨h.modules, h.distinct, h.reserved, h.recorded⟩

theorem Registers.after (h : d.Registers granted defined) (c : BuilderCall) :
    (c.after d).Registers (granted ++ (c.granted? d).toList)
      (defined ++ (c.defined? d).toList) := by
  cases c with
  | uniqueSymbol base => exact (List.append_nil defined).symm ▸ h.uniqueSymbol base
  | addModule op => exact (List.append_nil granted).symm ▸ h.addModule op
  | _ =>
      simpa [BuilderCall.granted?, BuilderCall.defined?] using
        h.other (BuilderCall.turns _ d) (by simp) (by simp)

theorem Registers.run (h : d.Registers granted defined) (calls : List BuilderCall) :
    (d.run calls).Registers (granted ++ d.granted calls) (defined ++ d.defined calls) := by
  induction calls generalizing d granted defined with
  | nil => simpa [Design.granted, Design.defined, log, Design.run] using h
  | cons c calls ih =>
      rw [granted_cons, defined_cons, ← List.append_assoc, ← List.append_assoc]
      exact ih (h.after c)

/-- A module is added under a free symbol unless another one was added under it before. -/
theorem Registers.addModule_eq_ok_iff (h : d.Registers granted defined) (undefined : sym ∉ defined)
    (more : List BuilderCall) (own : op.sym = sym) :
    ((Design.addModule op).outcome (d.run more)).1 = .ok sym ↔ sym ∉ d.defined more := by
  subst own
  have free_iff : (d.run more).findModule? op.sym = none ↔ op.sym ∉ d.defined more := by
    rw [(h.run more).free_iff, List.mem_append, not_or]
    exact and_iff_right undefined
  rcases addModule_cases (d.run more) op with ⟨free, added⟩ | ⟨taken, e, refused⟩
  · rw [added]
    exact iff_of_true rfl (free_iff.mp free)
  · rw [refused]
    exact iff_of_false nofun fun absent => taken (free_iff.mpr absent)

end

theorem registers_run (name : Ident) (calls : List BuilderCall) :
    (run { name } calls).Registers (granted { name } calls) (defined { name } calls) := by
  have empty : Registers { name } [] [] := ⟨rfl, .nil, List.nil_subset _, List.nil_subset _⟩
  exact empty.run calls

/-- In a design that any calls have built, each module stands under its own symbol, no symbol is
defined twice, and the supply knows all of them. So a symbol that is granted was never granted
before and is not defined, and a module can be added under it until another one is. -/
theorem symbols_agree (name : Ident) (calls : List BuilderCall) :
    (run { name } calls).modules.keys = defined { name } calls ∧
    (∀ e ∈ (run { name } calls).modules.entries, e.2.sym = e.1) ∧
    (defined { name } calls).Nodup ∧
    (∀ sym ∈ defined { name } calls, (run { name } calls).symbols.contains sym = true) ∧
    ∀ base, ∃ sym d', (uniqueSymbol base).outcome (run { name } calls) = (.ok sym, d') ∧
      (run { name } calls).findModule? sym = none ∧ sym ∉ granted { name } calls ∧
      ∀ (more : List BuilderCall) (op : ModuleOp), op.sym = sym →
        (((addModule op).outcome (d'.run more)).1 = .ok sym ↔ sym ∉ d'.defined more) := by
  have reg := registers_run name calls
  refine ⟨reg.keys, reg.own, reg.distinct, fun sym mem => ?_, fun base => ?_⟩
  · simpa [NameSupply.contains] using reg.recorded mem
  · obtain ⟨unreserved, undefined⟩ := reg.new base
    exact ⟨_, (BuilderCall.uniqueSymbol base).after (run { name } calls), rfl,
      reg.free_iff.mpr undefined, unreserved, fun more op own =>
      (reg.uniqueSymbol base).addModule_eq_ok_iff undefined more own⟩

end Design

namespace Sample

/-- A module without ports. -/
def blank (sym : Ident) : ModuleOp where
  sym
  inputs := []
  outputs := []
  attributes := .empty
  loc := .unknown
  kind := .real none

/-- The symbol `A` is defined without being reserved, `A_1` is reserved without being defined, and
`A_2` is both. The second module called `A` is refused. -/
def reserving : List BuilderCall := [
  .addModule (blank "A"),
  .uniqueSymbol "A",
  .addModule (blank "A"),
  .uniqueSymbol "A",
  .addModule (blank "A_2")]

theorem reserved_then_defined :
    Design.defined { name := "d" } reserving = ["A", "A_2"] ∧
    Design.granted { name := "d" } reserving = ["A_1", "A_2"] ∧
    ∃ d', (Design.uniqueSymbol "A").outcome (Design.run { name := "d" } reserving) =
        (.ok "A_3", d') ∧
      ((Design.addModule (blank "A_3")).outcome (d'.run [.addModule (blank "A_1")])).1 =
        .ok "A_3" := by
  obtain ⟨-, -, -, -, fresh⟩ := Design.symbols_agree "d" reserving
  obtain ⟨sym, d', granted, -, -, free⟩ := fresh "A"
  have third : ((Design.uniqueSymbol "A").outcome (Design.run { name := "d" } reserving)).1 =
      .ok "A_3" := by rfl
  have left : d' =
      ((Design.uniqueSymbol "A").outcome (Design.run { name := "d" } reserving)).2 := by
    rw [granted]
  rw [granted] at third
  cases third
  refine ⟨by decide +kernel, by decide +kernel, d', granted, (free _ _ rfl).mpr ?_⟩
  rw [left]
  decide +kernel

end Sample

end Hardware
