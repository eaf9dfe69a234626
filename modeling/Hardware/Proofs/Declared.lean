import Hardware.Proofs.Caches
import Hardware.Proofs.Symbols

/-!
Which modules are declared. Only a call of `declare` adds to them: an imported module is not one of
them, and whatever else is done leaves modules as they are, declared or imported. So the schema of
a declared module has been validated, and its ports go by different names.
-/
namespace Hardware

variable {U : UserCode} {ρ : Type}

namespace Schema

variable {γ : Type} {owner : Ident} {d : Direction}

theorem names_of_portFault {seen : List Ident} {ports : List PortDesc}
    (none : portFault owner d seen ports = none) :
    (ports.map PortDesc.name).Nodup ∧ ∀ p ∈ ports, p.name ∉ seen := by
  induction ports generalizing seen with
  | nil => exact ⟨List.nodup_nil, fun p h => absurd h List.not_mem_nil⟩
  | cons p ports ih =>
      unfold portFault at none
      split at none
      · cases none
      · split at none
        · cases none
        · rename_i new
          obtain ⟨distinct, apart⟩ := ih none
          rw [List.contains_eq_mem, decide_eq_true_eq] at new
          refine ⟨List.nodup_cons.mpr ⟨fun twice => ?_, distinct⟩, fun q hq => ?_⟩
          · obtain ⟨q, hq, same⟩ := List.mem_map.mp twice
            exact apart q hq (same ▸ List.mem_cons_self)
          · rcases List.mem_cons.mp hq with rfl | hq
            · exact new
            · exact fun mem => apart q hq (List.mem_cons_of_mem _ mem)

/-- In a schema that passes validation, no two inputs and no two outputs have one name. -/
theorem distinct_of_validate {s : Schema γ} (valid : s.validate = .ok ()) :
    (s.inputs.map PortDesc.name).Nodup ∧ (s.outputs.map PortDesc.name).Nodup := by
  unfold validate at valid
  simp only at valid
  split at valid
  · cases valid
  · split at valid
    · cases valid
    · rename_i faults
      simp only [Option.orElse_eq_none] at faults
      exact ⟨(names_of_portFault faults.1).1, (names_of_portFault faults.2.1).1⟩

end Schema

theorem Declaration.validate_of_build {γ : Type} {decl : Declaration γ} {s : Schema γ}
    (built : decl.build = .ok s) : s.validate = .ok () := by
  unfold build at built
  split at built
  · cases built
  · cases valid : decl.schema.validate with
    | error e =>
        rw [valid] at built
        cases built
    | ok u =>
        rw [valid] at built
        cases built
        exact valid

namespace Workspace

open Effect

variable {ws : Workspace U} {m : ModuleId}

/-- The modules that were declared, not imported. -/
def declared (ws : Workspace U) : Finset ModuleId :=
  ((Finset.range ws.modules.length).image ModuleId.mk).filter fun m => ws.declares m

theorem mem_declared : m ∈ ws.declared ↔ ws.declares m = true := by
  unfold declared
  rw [Finset.mem_filter, Finset.mem_image]
  refine and_iff_right_of_imp fun there => ?_
  obtain ⟨x, hx, -⟩ := Option.any_eq_true .. |>.mp there
  exact ⟨m.index, Finset.mem_range.mpr (List.getElem?_eq_some_iff.mp hx).1, rfl⟩

theorem declared_congr {ws ws' : Workspace U} (same : ∀ m, ws'.declares m = ws.declares m) :
    ws'.declared = ws.declared := by
  ext m
  rw [mem_declared, mem_declared, same]

theorem declared_setModule {x y : Module U.GeneratorCode} (hx : ws.module? m = some x)
    (same : y.isImported = x.isImported) : (ws.setModule m y).declared = ws.declared := by
  refine declared_congr fun n => ?_
  unfold declares
  rw [module?_setModule hx]
  split
  · rename_i here
    rw [here, hx, Option.any_some, Option.any_some, same]
  · rfl

theorem declared_addModule {x : Module U.GeneratorCode} (imported : x.isImported = true) :
    ({ ws with modules := ws.modules ++ [x] } : Workspace U).declared = ws.declared := by
  refine declared_congr fun n => ?_
  unfold declares module?
  rw [List.getElem?_append]
  split
  · rfl
  · rename_i beyond
    rw [List.getElem?_eq_none (Nat.le_of_not_lt beyond)]
    rcases Nat.eq_zero_or_pos (n.index - ws.modules.length) with first | further
    · rw [first]
      simp [imported]
    · rw [List.getElem?_eq_none (Nat.succ_le_of_lt further)]

theorem outside_declared : Outside (Workspace.declared (U := U)) where
  systems _ _ _ _ _ := rfl
  instances _ _ := rfl
  imports ws m x held hx origin := by
    refine declared_setModule hx ?_
    unfold Module.isImported
    rw [origin]

/-- A call of `declare` adds a module whose schema passes validation, or none. -/
theorem declare_validates (ws : Workspace U) (decl : Declaration U.GeneratorCode) :
    (declare decl).Ends ws
      (fun _ ws' => ∀ n x, ws'.module? n = some x →
        ws.module? n = some x ∨ x.schema.validate = .ok ())
      fun _ ws' => ∀ n x, ws'.module? n = some x →
        ws.module? n = some x ∨ x.schema.validate = .ok () := by
  refine .bind (ends_ofExcept (fun schema built n x hx => ?_) fun _ _ n x hx => .inl hx)
  change (ws.modules ++ [_])[n.index]? = some x at hx
  rw [List.getElem?_append] at hx
  split at hx
  · exact .inl hx
  · obtain rfl := List.mem_singleton.mp (List.mem_of_getElem? hx)
    exact .inr (Declaration.validate_of_build built)

theorem leaves_declared_importModule (s : SystemId) (op : ModuleOp) (loc : Location) :
    (importModule s op loc : Effect (Workspace U) ModuleId).Leaves Workspace.declared := by
  refine (leaves_resolve _).bind fun sys => ?_
  split
  · exact fun _ => rfl
  · exact fun _ => declared_addModule rfl

theorem leaves_declared_addFactory (name : Ident) (signature : Signature)
    (producer : U.ProducerCode) (loc : Location) :
    (addFactory name signature producer loc : Effect (Workspace U) FactoryId).Leaves
      Workspace.declared := by
  refine ((leaves_ofExcept _).locating loc).bind fun _ => leaves_get.bind fun _ => ?_
  exact Leaves.bind (leaves_modify fun _ => rfl) fun _ => leaves_pure _

theorem leaves_declared_endProduction (run : ProducerRun) (result : ProducerResult) :
    (endProduction run result : Effect (Workspace U) ModuleId).Leaves Workspace.declared := by
  intro ws
  unfold endProduction getModule
  refine .bind (ends_ofExcept (fun m _ => ?_) fun _ _ => rfl)
  refine .bind (resolve_ends (fun x hx => ?_) fun _ => rfl)
  refine .bind (resolve_ends (fun cache _ => ?_) fun _ => rfl)
  exact .bind (ends_modify.mpr (declared_setModule hx rfl))

end Workspace

namespace Call

open Effect Workspace

/-- True of the calls that declare a module. -/
def isDeclare : Call U → Bool
  | .declare _ => true
  | _ => false

theorem leaves_declared (c : Call U) (other : c.isDeclare = false) :
    c.perform.Leaves Workspace.declared := by
  cases inside : c.isInside with
  | true => exact c.leaves_of_isInside outside_declared inside
  | false =>
      cases c with
      | setState state => exact leaves_modify fun _ => rfl
      | newSystem name conf => exact fun _ => rfl
      | newCache => exact fun _ => rfl
      | newFactory name signature producer loc =>
          exact leaves_declared_addFactory name signature producer loc
      | importModule s op loc => exact leaves_declared_importModule s op loc
      | declare decl => cases other
      | _ => cases inside

end Call

namespace Machine

variable {P : Program U} {M : Machine U ρ}

/-- The machine is about to declare a module. -/
def Declares (M : Machine U ρ) : Prop := ∃ decl, M.control.call? = some (.declare decl)

/-- A step that makes no call and does not end a producer changes systems and instances only. -/
theorem step_outside {τ : Type} {part : Workspace U → τ} (out : Workspace.Outside part)
    (P : Program U) (M : Machine U ρ) (silent : M.control.call? = none)
    (unended : ∀ run result below, M.control ≠ .producer run (.done result) below) :
    part (step P M).workspace = part M.workspace := by
  have acts := step_acts P M
  generalize (step P M).workspace = ws at acts
  cases acts with
  | call calls =>
      rw [silent] at calls
      cases calls
  | @port run c next below asks =>
      have leaves := Ports.leaves_perform out c
      exact leaves.outcome (run.ports, M.workspace)
  | @generated run result below last => exact out.endGeneration M.workspace run result
  | @produced run result below last => exact absurd last (unended run result below)
  | @drains s below entering => exact (nextWaiting_outside out M.workspace s below).1
  | @begins s m below entering =>
      exact (generateModule_outside (P := P) out M.workspace s m below).1
  | still => rfl

/-- Only a call of `declare` declares a module. -/
theorem step_declared (P : Program U) (M : Machine U ρ) (other : ¬ Declares M) :
    (step P M).workspace.declared = M.workspace.declared := by
  cases calls : M.control.call? with
  | some c =>
      rw [(step_call calls).1]
      refine (c.leaves_declared ?_).outcome M.workspace
      cases c with
      | declare decl => exact absurd ⟨decl, calls⟩ other
      | _ => rfl
  | none =>
      by_cases last : ∃ run result below, M.control = .producer run (.done result) below
      · obtain ⟨run, result, below, last⟩ := last
        obtain ⟨ws, control⟩ := M
        cases last
        exact (Workspace.leaves_declared_endProduction run result).outcome ws
      · refine step_outside Workspace.outside_declared P M calls fun run result below same => ?_
        exact last ⟨run, result, below, same⟩

/-- A declared module has passed validation. -/
theorem Reachable.validated (h : Reachable P M) {m : ModuleId} {x : Module U.GeneratorCode}
    (hx : M.workspace.module? m = some x) (declared : x.isImported = false) :
    x.schema.validate = .ok () := by
  induction h generalizing x with
  | initial state session => cases hx
  | @step M h ih =>
      by_cases known : M.workspace.declares m = true
      · obtain ⟨y, hy, there⟩ := Option.any_eq_true .. |>.mp known
        obtain ⟨x', hx', schema, imported⟩ := h.move.extends.modules m y hy
        rw [hx] at hx'
        cases hx'
        rw [schema]
        exact ih hy (imported.symm.trans declared)
      · by_cases declares : Declares M
        · obtain ⟨decl, calls⟩ := declares
          rw [(step_call calls).1] at hx
          rcases (Workspace.declare_validates M.workspace decl).outcome m x hx with old | valid
          · exact ih old declared
          · exact valid
        · have new := Workspace.mem_declared.mpr
            (Option.any_eq_true .. |>.mpr ⟨x, hx, by rw [declared]; rfl⟩)
          rw [step_declared P M declares] at new
          exact absurd (Workspace.mem_declared.mp new) known

theorem iterate_declared {n : Nat} (other : ∀ k < n, ¬ Declares ((step P)^[k] M)) :
    ((step P)^[n] M).workspace.declared = M.workspace.declared := by
  induction n with
  | zero => rfl
  | succ n ih =>
      rw [Function.iterate_succ_apply', step_declared P _ (other n (Nat.lt_succ_self n))]
      exact ih fun k lt => other k (Nat.lt_succ_of_lt lt)

end Machine

end Hardware
