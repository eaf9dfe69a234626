import Hardware.Proofs.Naming

/-!
Inputs that are tied to zero. An external module may be instantiated with inputs left open, which
get the zero of their type then. Nearly all types hold their zero; but a signed number needs a bit
for its sign, and one of width 0 has none. An open input is accepted whatever its type, so that the
call fails only when the zeros are built, after the operation of the module was created.
-/
namespace Hardware

variable {U : UserCode} {ρ γ : Type}

namespace SignalType

/-- The type holds its zero: it does not contain signed numbers of width 0. -/
def HasZero : SignalType → Prop
  | .sint w => 1 ≤ w
  | .array elem len => len = 0 ∨ elem.HasZero
  | _ => True

instance decidableHasZero : (t : SignalType) → Decidable t.HasZero
  | .bits _ | .uint _ | .clock => inferInstanceAs (Decidable True)
  | .sint w => inferInstanceAs (Decidable (1 ≤ w))
  | .array elem len =>
    have : Decidable elem.HasZero := decidableHasZero elem
    inferInstanceAs (Decidable (len = 0 ∨ elem.HasZero))

theorem forM_replicate {α : Type} {f : α → Except Error PUnit} {a : α} (n : Nat) :
    (List.replicate n a).forM f = if n = 0 then .ok () else f a := by
  induction n with
  | zero => rfl
  | succ n ih =>
      have unfolded : (List.replicate (n + 1) a).forM f =
          (f a >>= fun _ => (List.replicate n a).forM f) := rfl
      rw [unfolded, ih, if_neg (Nat.succ_ne_zero n)]
      cases f a with
      | error e => rfl
      | ok u =>
          change (if n = 0 then _ else _) = _
          split <;> rfl

/-- Where a type does not hold its zero, it is the signed number of width 0 that is reported. -/
theorem check_zero (t : SignalType) : t.check t.zero =
    if t.HasZero then .ok () else .error (outOfRange (.sint 0) (.int 0)) := by
  induction t with
  | bits w => rfl
  | uint w => rfl
  | clock => rfl
  | sint w =>
      cases w with
      | zero => rfl
      | succ w => rfl
  | array elem len ih =>
      by_cases empty : len = 0
      · subst empty
        rfl
      · have length : (List.replicate len elem.zero).length = len := List.length_replicate
        have same : (SignalType.array elem len).HasZero ↔ elem.HasZero := or_iff_right empty
        rw [zero, if_neg empty, check, if_neg (not_not.mpr length), forM_replicate, if_neg empty,
          ih]
        exact if_congr same.symm rfl rfl

theorem check_zero_iff (t : SignalType) : t.check t.zero = .ok () ↔ t.HasZero := by
  rw [check_zero]
  split
  · rename_i zero
    exact iff_of_true rfl zero
  · rename_i none
    exact iff_of_false nofun none

end SignalType

section Bound

theorem forall₂_of_mapM {α β ε : Type} {f : α → Except ε β} {as : List α} :
    ∀ {bs : List β}, as.mapM f = .ok bs → List.Forall₂ (fun a b => f a = .ok b) as bs := by
  induction as with
  | nil =>
      rintro _ ⟨⟩
      exact .nil
  | cons a as ih =>
      intro bs h
      rw [List.mapM_cons] at h
      cases here : f a with
      | error e =>
          rw [here] at h
          cases h
      | ok b =>
          rw [here] at h
          cases rest : as.mapM f with
          | error e =>
              rw [rest] at h
              cases h
          | ok bs' =>
              rw [rest] at h
              cases h
              exact .cons here (ih rest)

theorem PortDesc.supplied_ports (supply : List (Ident × PortValue)) (ps : List PortDesc) :
    ∀ seen, (PortDesc.supplied supply seen ps).map Prod.fst = ps := by
  induction ps with
  | nil => exact fun _ => rfl
  | cons p ps ih =>
      intro seen
      rw [PortDesc.supplied, List.map_cons, ih]

theorem PortDesc.fits_of_accept {p : PortDesc} {external : Bool} {v : PortValue} {c : Constant}
    (h : p.accept external v = .ok (.constant c)) : c.Fits p.type := by
  by_cases takes : p.Takes external v
  · rw [accept_of_takes takes] at h
    cases h
    exact (p.type.check_eq_ok_iff c).mpr takes
  · rw [accept_of_not_takes takes] at h
    cases h

theorem Module.fits_of_bound {x : Module γ} {supply : List (Ident × PortValue)}
    {bound : List PortValue} (h : x.bindInputs supply = .ok bound) {p : PortDesc} {c : Constant}
    (mem : (p, .constant c) ∈ x.schema.inputs.zip bound) : c.Fits p.type := by
  have accepted : (PortDesc.supplied supply [] x.schema.inputs).mapM (fun slot =>
      slot.1.accept (!x.hasGenerator) (slot.2.getD .disconnected)) = .ok bound := by
    unfold bindInputs at h
    dsimp only at h
    split at h
    · cases h
    · split at h
      · cases h
      · split at h
        · cases h
        · exact h
  have each : List.Forall₂ (fun p v => ∃ w : PortValue, p.accept (!x.hasGenerator) w = .ok v)
      x.schema.inputs bound := by
    rw [← PortDesc.supplied_ports supply x.schema.inputs [], List.forall₂_map_left_iff]
    exact (forall₂_of_mapM accepted).imp fun slot v ok => ⟨_, ok⟩
  obtain ⟨w, ok⟩ := (List.forall₂_iff_zip.mp each).2 mem
  exact PortDesc.fits_of_accept ok

end Bound

namespace Workspace

variable {ws : Workspace U} {s : SystemId} {old sys : System} {scope : Scope GeneratorSite}
  {outer : List (Scope GeneratorSite)} {b : Block} {names : NameSupply} {ops : List Operation}

theorem inputValues_ok_iff (h : ws.Sound) (hs : ws.system? s = some sys)
    (a : old.Builds sys scope outer b names ops) (slots : List (PortDesc × PortValue)) :
    (∃ values ws', (slots.mapM fun (p, v) => inputValue s p v) ws = .ok values ws') ↔
      ∀ c ∈ PortDesc.constants slots, c.2.Fits c.1 := by
  have ends := inputValues_ends .any s slots h hs a
  cases outcome : (slots.mapM fun (p, v) => inputValue s p v) ws with
  | ok values ws' =>
      obtain ⟨-, sys', new, -, -, constants, -⟩ := ends.of_ok outcome
      exact iff_of_true ⟨values, ws', rfl⟩ (fits_constants constants)
  | error e ws' =>
      obtain ⟨-, sys', new, built, rest, c, -, -, same, misfit, -⟩ := ends.of_error outcome
      refine iff_of_false nofun ?_
      intro fits
      exact misfit (fits c (by simp [same]))

theorem instantiate_unbuilt {m : ModuleId} {r : InstanceRequest} {x : Module U.GeneratorCode}
    (hs : ws.system? s = some sys) (hx : ws.module? m = some x)
    (top : sys.running.scopes = scope :: outer) {bound : List PortValue}
    (accepted : x.bindInputs r.inputs = .ok bound) {sym : Ident} {ws₁ ws₂ : Workspace U}
    (created : createOp s m ws = .ok sym ws₁) {e : Error}
    (fails : ((x.schema.inputs.zip bound).mapM fun (p, v) => inputValue s p v) ws₁ =
      .error e ws₂) : instantiate s m r ws = .error e ws₂ := by
  have ends : (instantiate s m r).Ends ws (fun _ _ => False)
      fun e' ws' => e' = e ∧ ws' = ws₂ := by
    unfold instantiate getModule
    refine .bind (resolve_ends (fun y hy => ?_) fun none => ?_)
    · rw [hx] at hy
      cases hy
      refine .bind (onSystem_ends_of_some hs ((System.currentPoint_ends sys).imp ?_ ?_))
      · rintro ip _ ⟨rfl, -⟩
        rw [setSystem_self hs, accepted]
        refine .bind (Effect.ends_locating (Effect.ends_ofExcept ?_ nofun))
        rintro _ ⟨⟩
        refine .bind (Effect.ends_of_ok created ?_)
        exact .bind (Effect.ends_of_error fails ⟨rfl, rfl⟩)
      · rintro _ _ ⟨-, none⟩
        rw [top] at none
        cases none
    · rw [hx] at none
      cases none
  cases hc : instantiate s m r ws with
  | ok i ws' => exact (ends.of_ok hc).elim
  | error e' ws' =>
      obtain ⟨rfl, rfl⟩ := ends.of_error hc
      rfl

end Workspace

namespace PortDesc

/-- Of the constants for accepted inputs, only the zeros may not fit. -/
theorem constants_fit_iff {slots : List (PortDesc × PortValue)}
    (given : ∀ p c, (p, PortValue.constant c) ∈ slots → c.Fits p.type) :
    (∀ c ∈ PortDesc.constants slots, c.2.Fits c.1) ↔
      ∀ p, (p, PortValue.disconnected) ∈ slots → p.type.HasZero := by
  constructor
  · intro fits p open_
    apply p.type.check_zero_iff.mp
    exact fits (p.type, p.type.zero) (List.mem_flatMap.mpr ⟨_, open_, List.mem_singleton_self _⟩)
  · intro zeros c mem
    obtain ⟨⟨p, v⟩, slot, built⟩ := List.mem_flatMap.mp mem
    cases v with
    | signal v => cases built
    | constant k =>
        obtain rfl := List.mem_singleton.mp built
        exact given p k slot
    | disconnected =>
        obtain rfl := List.mem_singleton.mp built
        exact p.type.check_zero_iff.mpr (zeros p slot)

end PortDesc

namespace Machine

variable {P : Program U} {M : Machine U ρ} {s : SystemId} {m : ModuleId} {r : InstanceRequest}

/-- A type holds its zero unless it contains a signed number of width 0. So once the inputs of an
instance are accepted and its module has an operation, the constants for them are built just if
each open input has a type that holds its zero. If not, the call fails, in the state that the
constants before left. -/
theorem Reachable.tied_inputs (h : Reachable P M)
    (calls : M.control.call? = some (.instantiate s m r)) {sys : System}
    {x : Module U.GeneratorCode} {scope : Scope GeneratorSite}
    {outer : List (Scope GeneratorSite)} (hs : M.workspace.system? s = some sys)
    (hx : M.workspace.module? m = some x) (top : sys.running.scopes = scope :: outer)
    {bound : List PortValue} (accepted : x.bindInputs r.inputs = .ok bound) :
    (∀ t : SignalType, t.check t.zero =
      if t.HasZero then .ok () else .error (SignalType.outOfRange (.sint 0) (.int 0))) ∧
      ∀ sym ws₁, Workspace.createOp s m M.workspace = .ok sym ws₁ →
        ((∃ values ws₂, ((x.schema.inputs.zip bound).mapM fun (p, v) =>
            Workspace.inputValue s p v) ws₁ = .ok values ws₂) ↔
          ∀ p, (p, PortValue.disconnected) ∈ x.schema.inputs.zip bound → p.type.HasZero) ∧
        ((∃ p, (p, PortValue.disconnected) ∈ x.schema.inputs.zip bound ∧ ¬ p.type.HasZero) →
          ∃ e ws₂, ((x.schema.inputs.zip bound).mapM fun (p, v) =>
              Workspace.inputValue s p v) ws₁ = .error e ws₂ ∧
            (Call.instantiate s m r).perform M.workspace = .error e ws₂ ∧
            (Machine.step P M).workspace = ws₂) := by
  refine ⟨SignalType.check_zero, ?_⟩
  intro sym ws₁ created
  have sound := h.hosts.sound
  obtain ⟨b, body, -⟩ := (sound.systems s sys hs).body?_top top
  have made := (Workspace.createOp_ends sound s m).of_ok created
  have sound₁ : ws₁.Sound := Workspace.Changes.sound sound (made.changes (p := .any) trivial)
  obtain ⟨-, sys₁, -, hs₁, -⟩ := made.symbolOf?
  have a := System.Builds.of_created sound made hs hs₁ top body
  have built_iff := (Workspace.inputValues_ok_iff sound₁ hs₁ a (x.schema.inputs.zip bound)).trans
    (PortDesc.constants_fit_iff fun p c => x.fits_of_bound accepted)
  refine ⟨built_iff, ?_⟩
  rintro ⟨p, open_, none⟩
  cases outcome : ((x.schema.inputs.zip bound).mapM fun (p, v) =>
      Workspace.inputValue s p v) ws₁ with
  | ok values ws₂ => exact absurd (built_iff.mp ⟨values, ws₂, outcome⟩ p open_) none
  | error e ws₂ =>
      have failed : (Call.instantiate s m r).perform M.workspace = .error e ws₂ :=
        Workspace.instantiate_unbuilt hs hx top accepted created outcome
      refine ⟨e, ws₂, rfl, failed, ?_⟩
      rw [(step_call (P := P) calls).1, Effect.outcome, failed]

end Machine

namespace Sample

/-- Declares `Pad`, whose second input has no bits for a sign, and leaves both of its inputs
open. -/
def tying : Script code GeneratorResult :=
  .call (.declare (((Declaration.new "Pad" .unknown).input "a" (.bits 8)).input "b" (.sint 0)))
    fun declared => match declared with
    | .ok pad =>
      .call (.instantiate ⟨0⟩ pad
        { inputs := [("a", .disconnected), ("b", .disconnected)], loc := .unknown }) fun _ =>
          .done (.ok .nothing)
    | .error e => .done (.error e)

/-- The machine that is about to instantiate `Pad`. -/
def beforeTying : Machine code Unit := after (program tying) generating 8

theorem open_input_without_zero : ∃ e ws',
    (Call.instantiate ⟨0⟩ ⟨2⟩
      { inputs := [("a", .disconnected), ("b", .disconnected)], loc := .unknown }).perform
        beforeTying.workspace = .error e ws' := by
  have reach : Machine.Reachable (program tying) beforeTying := reachable _ _ _
  have request : instance? beforeTying.control = some (⟨0⟩, ⟨2⟩,
      { inputs := [("a", .disconnected), ("b", .disconnected)], loc := .unknown }) := by
    decide +kernel
  have running : (beforeTying.workspace.system? ⟨0⟩).map
      (fun sys => sys.running.scopes.map fun c => c.site.ip.owner) = some ["Top"] := by
    decide +kernel
  have known : (beforeTying.workspace.module? ⟨2⟩).map (fun x =>
      (x.schema.inputs.map PortDesc.type,
        (x.bindInputs [("a", .disconnected), ("b", .disconnected)]).toOption)) =
        some ([.bits 8, .sint 0], some [.disconnected, .disconnected]) := by
    decide +kernel
  have creates : ((Workspace.createOp ⟨0⟩ ⟨2⟩).outcome beforeTying.workspace).1.toOption =
      some "Pad" := by
    decide +kernel
  -- From here on the machine is not to be evaluated any more.
  generalize beforeTying = M at *
  obtain ⟨sys, hs, scopes⟩ := Option.map_eq_some_iff.mp running
  obtain ⟨scope, outer, top, -⟩ := List.map_eq_cons_iff.mp scopes
  obtain ⟨x, hx, facts⟩ := Option.map_eq_some_iff.mp known
  obtain ⟨types, bound⟩ := Prod.mk.inj facts
  have accepted : x.bindInputs [("a", .disconnected), ("b", .disconnected)] =
      .ok [.disconnected, .disconnected] := by
    cases outcome : x.bindInputs [("a", .disconnected), ("b", .disconnected)] with
    | ok values =>
        rw [outcome] at bound
        rw [Option.some.inj bound]
    | error e =>
        rw [outcome] at bound
        cases bound
  obtain ⟨p, rest, inputs, -, types⟩ := List.map_eq_cons_iff.mp types
  obtain ⟨q, rest, rfl, type, none⟩ := List.map_eq_cons_iff.mp types
  obtain rfl := List.map_eq_nil_iff.mp none
  cases created : Workspace.createOp ⟨0⟩ ⟨2⟩ M.workspace with
  | error e ws₁ =>
      rw [Effect.outcome, created] at creates
      cases creates
  | ok sym ws₁ =>
      obtain ⟨-, tied⟩ := reach.tied_inputs (call?_of_instance? request) hs hx top accepted
      have open_ : (q, PortValue.disconnected) ∈
          x.schema.inputs.zip [.disconnected, .disconnected] := by
        simp [inputs]
      have lacks : ¬ q.type.HasZero := by
        rw [type]
        decide
      obtain ⟨e, ws₂, -, failed, -⟩ := (tied sym ws₁ created).2 ⟨q, open_, lacks⟩
      exact ⟨e, ws₂, failed⟩

end Sample

end Hardware
