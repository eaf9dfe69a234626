import Hardware.Proofs.Constants
import Hardware.Proofs.Leftover

/-!
How values are bound to the inputs of a module that is to be instantiated. The four checks and
their reports are told without the pass that makes them, for a list of names and values in any
order: `Module.BindsTo` gives the outcome, and there is just one. From the binding follows what
feeds the instance. A list that is refused leaves no trace at all.
-/
namespace Hardware

variable {U : UserCode} {ρ γ : Type}

section Repetitions

/-- The names at the places where they come for the second time. -/
def repetitions (names : List Ident) : List Ident :=
  (names.zipIdx.filter fun e => (names.take e.2).count e.1 = 1).map Prod.fst

theorem repetitions_concat (names : List Ident) (n : Ident) :
    repetitions (names ++ [n]) =
      repetitions names ++ if names.count n = 1 then [n] else [] := by
  have before : (names.zipIdx.filter fun e => ((names ++ [n]).take e.2).count e.1 = 1) =
      names.zipIdx.filter fun e => (names.take e.2).count e.1 = 1 := by
    refine List.filter_congr fun e he => ?_
    have le : e.2 ≤ names.length := (List.snd_lt_of_mem_zipIdx he).le
    rw [List.take_append_of_le_length le]
  unfold repetitions
  rw [List.zipIdx_append, List.filter_append, List.map_append, before]
  by_cases once : names.count n = 1 <;> simp [once]

theorem mem_repetitions {names : List Ident} {n : Ident} :
    n ∈ repetitions names ↔ 2 ≤ names.count n := by
  induction names using List.reverseRecOn with
  | nil => simp [repetitions]
  | append_singleton names a ih =>
      rw [repetitions_concat, List.mem_append, ih, List.count_append, List.count_singleton]
      by_cases same : a = n
      · subst same
        rw [if_pos (beq_self_eq_true a)]
        split
        · rename_i once
          simp [once]
        · rename_i many
          simp only [List.not_mem_nil, or_false]
          omega
      · have other : n ∉ (if names.count a = 1 then [a] else []) := by
          split
          · simpa using Ne.symm same
          · simp
        simp [same, other]

theorem repetitions_eq_nil_iff {names : List Ident} : repetitions names = [] ↔ names.Nodup := by
  rw [List.eq_nil_iff_forall_not_mem, List.nodup_iff_count_le_one]
  simp only [mem_repetitions]
  exact forall_congr' fun n => by omega

theorem repeatedNames_eq {seen before : List Ident} (same : ∀ n, n ∈ seen ↔ n ∈ before)
    (names : List Ident) :
    repeatedNames seen (repetitions before) names = repetitions (before ++ names) := by
  induction names generalizing seen before with
  | nil => rw [repeatedNames, List.append_nil]
  | cons n names ih =>
      have split : before ++ n :: names = before ++ [n] ++ names := by simp
      rw [repeatedNames, split]
      split
      · rename_i again
        have mem : n ∈ before := (same n).mp (by simpa using again)
        have reported : (if (repetitions before).contains n then repetitions before
            else repetitions before ++ [n]) = repetitions (before ++ [n]) := by
          have pos : 0 < before.count n := List.count_pos_iff.mpr mem
          simp only [repetitions_concat, List.contains_iff_mem, mem_repetitions]
          by_cases once : before.count n = 1
          · simp [once]
          · have twice : 2 ≤ before.count n := by omega
            simp [once, twice]
        rw [reported]
        refine ih fun k => ?_
        rw [same, List.mem_append, List.mem_singleton]
        exact ⟨.inl, fun h => h.elim id fun e => e ▸ mem⟩
      · rename_i first
        have mem : n ∉ before := fun h => first (by simpa using (same n).mpr h)
        have none : repetitions (before ++ [n]) = repetitions before := by
          rw [repetitions_concat, List.count_eq_zero_of_not_mem mem]
          simp
        rw [← none]
        refine ih fun k => ?_
        rw [List.mem_cons, same, List.mem_append, List.mem_singleton, or_comm]

end Repetitions

namespace PortDesc

/-- A value that the port takes: a signal of its very type, a constant that its type holds, or
nothing where the module is external. -/
def Takes (p : PortDesc) (external : Bool) : PortValue → Prop
  | .signal v => v.type = p.type
  | .constant c => p.type.Holds c
  | .disconnected => external = true

/-- How a value is refused. -/
def refusal (p : PortDesc) : PortValue → Error
  | .signal v => .ofKind (.typeMismatch p.name p.type.text v.type.text)
  | .constant c => .ofKind (.typeMismatch p.name p.type.text ("constant " ++ c.text))
  | .disconnected => .ofKind (.disconnected p.name)

variable {p : PortDesc} {external : Bool} {v : PortValue}

theorem accept_of_takes (h : p.Takes external v) : p.accept external v = .ok v := by
  cases v with
  | signal v => exact if_pos h
  | constant c =>
      rw [accept, (p.type.check_eq_ok_iff c).mpr h]
      rfl
  | disconnected => exact if_pos h

theorem accept_of_not_takes (h : ¬ p.Takes external v) :
    p.accept external v = .error (p.refusal v) := by
  cases v with
  | signal v => exact if_neg h
  | constant c =>
      rw [accept]
      cases checked : p.type.check c with
      | ok => exact absurd ((p.type.check_eq_ok_iff c).mp checked) h
      | error e => rfl
  | disconnected => exact if_neg h

/-- Where all inputs have their own names, each is supplied what comes under its name. -/
theorem supplied_eq (supply : List (Ident × PortValue)) {seen : List Ident} {ps : List PortDesc}
    (distinct : (ps.map PortDesc.name).Nodup) (new : ∀ p ∈ ps, p.name ∉ seen) :
    supplied supply seen ps = ps.map fun p => (p, supply.lookup p.name) := by
  induction ps generalizing seen with
  | nil => rfl
  | cons p ps ih =>
      rw [List.map_cons, List.nodup_cons] at distinct
      have first : seen.contains p.name = false := by simpa using new p (by simp)
      rw [supplied, List.map_cons, first, if_neg Bool.false_ne_true]
      refine congrArg _ (ih distinct.2 fun q hq => ?_)
      rw [List.mem_cons, not_or]
      exact ⟨fun same => distinct.1 (same ▸ List.mem_map_of_mem hq), new q (by simp [hq])⟩

end PortDesc

theorem lookup_eq_some_iff {supply : List (Ident × PortValue)}
    (distinct : (supply.map Prod.fst).Nodup) {n : Ident} {v : PortValue} :
    supply.lookup n = some v ↔ (n, v) ∈ supply := by
  induction supply with
  | nil => simp
  | cons e supply ih =>
      obtain ⟨k, w⟩ := e
      rw [List.map_cons, List.nodup_cons] at distinct
      rw [OrderedMap.lookup_cons_if, List.mem_cons, Prod.mk.injEq]
      split
      · rename_i same
        subst same
        have absent : (n, v) ∉ supply := fun h =>
          distinct.1 (List.mem_map.mpr ⟨(n, v), h, rfl⟩)
        simp [absent, eq_comm]
      · rename_i other
        simp [other, ih distinct.2]

theorem lookup_isNone (supply : List (Ident × PortValue)) (n : Ident) :
    (supply.lookup n).isNone = decide (n ∉ supply.map Prod.fst) := by
  rw [Bool.eq_iff_iff, Option.isNone_iff_eq_none, List.lookup_eq_none_iff]
  simp only [bne_iff_ne, ne_eq, Prod.forall, List.mem_map, Prod.exists, exists_and_right,
    exists_eq_right, not_exists, decide_eq_true_eq]
  exact ⟨fun h v hv => h n v hv rfl, fun h k v hv same => h v (same ▸ hv)⟩

theorem mapM_eq_ok {α β ε : Type} {f : α → Except ε β} {as : List α} {bs : List β}
    (h : List.Forall₂ (fun a b => f a = .ok b) as bs) : as.mapM f = .ok bs := by
  induction h with
  | nil => rfl
  | cons first _ ih => rw [List.mapM_cons, first, ih]; rfl

theorem mapM_eq_error {α β ε : Type} {f : α → Except ε β} {before after : List α} {a : α}
    {bs : List β} {e : ε} (h : List.Forall₂ (fun a b => f a = .ok b) before bs)
    (fails : f a = .error e) : (before ++ a :: after).mapM f = .error e := by
  rw [List.mapM_append, mapM_eq_ok h, List.mapM_cons, fails]
  rfl

namespace Module

variable {x : Module γ} {supply : List (Ident × PortValue)}

/-- The names of the inputs in port order. -/
def inputNames (x : Module γ) : List Ident := x.schema.inputs.map PortDesc.name

/-- The supplied names that are not inputs, as they come. -/
def unknownInputs (x : Module γ) (names : List Ident) : List Ident :=
  names.filter fun n => n ∉ x.inputNames

/-- The inputs that are not supplied, in port order. -/
def missingInputs (x : Module γ) (names : List Ident) : List Ident :=
  x.inputNames.filter fun n => n ∉ names

/-- Each input is supplied once, and nothing else is. -/
structure Complete (x : Module γ) (names : List Ident) : Prop where
  distinct : names.Nodup
  known : x.unknownInputs names = []
  supplied : x.missingInputs names = []

/-- `v` is supplied to the input `p`, which takes it. -/
def Gets (x : Module γ) (supply : List (Ident × PortValue)) (p : PortDesc) (v : PortValue) :
    Prop :=
  (p.name, v) ∈ supply ∧ p.Takes (!x.hasGenerator) v

/-- What comes of binding `supply` to the inputs of `x`. -/
inductive BindsTo (x : Module γ) (supply : List (Ident × PortValue)) :
    Except Error (List PortValue) → Prop
  | repeated (some : repetitions (supply.map Prod.fst) ≠ []) :
      BindsTo x supply
        (.error (.ofKind (.duplicateInputs x.name (repetitions (supply.map Prod.fst)))))
  | unknown (distinct : (supply.map Prod.fst).Nodup)
      (some : x.unknownInputs (supply.map Prod.fst) ≠ []) :
      BindsTo x supply
        (.error (.ofKind (.unknownPorts x.name (x.unknownInputs (supply.map Prod.fst)))))
  | missing (distinct : (supply.map Prod.fst).Nodup)
      (known : x.unknownInputs (supply.map Prod.fst) = [])
      (some : x.missingInputs (supply.map Prod.fst) ≠ []) :
      BindsTo x supply
        (.error (.ofKind (.missingInputs x.name (x.missingInputs (supply.map Prod.fst)))))
  | refused (complete : x.Complete (supply.map Prod.fst)) {before after : List PortDesc}
      {p : PortDesc} {values : List PortValue} {v : PortValue}
      (inputs : x.schema.inputs = before ++ p :: after)
      (taken : List.Forall₂ (x.Gets supply) before values) (here : (p.name, v) ∈ supply)
      (misfit : ¬ p.Takes (!x.hasGenerator) v) :
      BindsTo x supply (.error (p.refusal v))
  | bound (complete : x.Complete (supply.map Prod.fst)) {values : List PortValue}
      (taken : List.Forall₂ (x.Gets supply) x.schema.inputs values) :
      BindsTo x supply (.ok values)

theorem unknownInputs_eq_nil_iff {names : List Ident} :
    x.unknownInputs names = [] ↔ names ⊆ x.inputNames := by
  simp [unknownInputs, List.filter_eq_nil_iff, List.subset_def]

theorem missingInputs_eq_nil_iff {names : List Ident} :
    x.missingInputs names = [] ↔ x.inputNames ⊆ names := by
  simp [missingInputs, List.filter_eq_nil_iff, List.subset_def]

theorem bindInputs_eq (own : x.inputNames.Nodup) (supply : List (Ident × PortValue)) :
    x.bindInputs supply =
      if repetitions (supply.map Prod.fst) ≠ [] then
        .error (.ofKind (.duplicateInputs x.name (repetitions (supply.map Prod.fst))))
      else if x.unknownInputs (supply.map Prod.fst) ≠ [] then
        .error (.ofKind (.unknownPorts x.name (x.unknownInputs (supply.map Prod.fst))))
      else if x.missingInputs (supply.map Prod.fst) ≠ [] then
        .error (.ofKind (.missingInputs x.name (x.missingInputs (supply.map Prod.fst))))
      else
        x.schema.inputs.mapM fun p =>
          p.accept (!x.hasGenerator) ((supply.lookup p.name).getD .disconnected) := by
  have repeated : repeatedNames [] [] (supply.map Prod.fst) = repetitions (supply.map Prod.fst) :=
    repeatedNames_eq (fun _ => Iff.rfl) _
  have unknown : ((supply.map Prod.fst).filter fun n => !x.schema.inputs.any fun p => p.name = n) =
      x.unknownInputs (supply.map Prod.fst) := by
    refine List.filter_congr fun n _ => ?_
    rw [Bool.eq_iff_iff]
    simp [inputNames]
  have slots : PortDesc.supplied supply [] x.schema.inputs =
      x.schema.inputs.map fun p => (p, supply.lookup p.name) :=
    PortDesc.supplied_eq supply own (by simp)
  have missing : ((PortDesc.supplied supply [] x.schema.inputs).filter fun s => s.2.isNone).map
      (fun s => s.1.name) = x.missingInputs (supply.map Prod.fst) := by
    rw [slots, missingInputs, inputNames, List.filter_map, List.filter_map, List.map_map]
    refine congrArg _ (List.filter_congr fun p _ => ?_)
    rw [Function.comp, Function.comp, ← lookup_isNone]
  unfold bindInputs
  dsimp only
  rw [repeated, unknown, missing, slots, List.mapM_map]
  generalize repetitions (supply.map Prod.fst) = again
  generalize x.unknownInputs (supply.map Prod.fst) = unknown
  generalize x.missingInputs (supply.map Prod.fst) = missing
  cases again <;> cases unknown <;> cases missing <;> rfl

theorem Gets.accept (distinct : (supply.map Prod.fst).Nodup) {p : PortDesc} {v : PortValue}
    (gets : x.Gets supply p v) :
    p.accept (!x.hasGenerator) ((supply.lookup p.name).getD .disconnected) = .ok v := by
  rw [(lookup_eq_some_iff distinct).mpr gets.1]
  exact PortDesc.accept_of_takes gets.2

theorem BindsTo.bindInputs {outcome : Except Error (List PortValue)}
    (h : x.BindsTo supply outcome) (own : x.inputNames.Nodup) :
    x.bindInputs supply = outcome := by
  rw [bindInputs_eq own]
  cases h with
  | repeated some => exact if_pos some
  | unknown distinct some =>
      rw [if_neg (not_not.mpr (repetitions_eq_nil_iff.mpr distinct)), if_pos some]
  | missing distinct known some =>
      rw [if_neg (not_not.mpr (repetitions_eq_nil_iff.mpr distinct)),
        if_neg (not_not.mpr known), if_pos some]
  | refused complete inputs taken here misfit =>
      rw [if_neg (not_not.mpr (repetitions_eq_nil_iff.mpr complete.distinct)),
        if_neg (not_not.mpr complete.known), if_neg (not_not.mpr complete.supplied), inputs]
      refine mapM_eq_error (taken.imp fun _ _ gets => gets.accept complete.distinct) ?_
      rw [(lookup_eq_some_iff complete.distinct).mpr here]
      exact PortDesc.accept_of_not_takes misfit
  | bound complete taken =>
      rw [if_neg (not_not.mpr (repetitions_eq_nil_iff.mpr complete.distinct)),
        if_neg (not_not.mpr complete.known), if_neg (not_not.mpr complete.supplied)]
      exact mapM_eq_ok (taken.imp fun _ _ gets => gets.accept complete.distinct)

/-- The inputs take what they are supplied with, up to the first that does not. -/
theorem taken_or_refused {ps : List PortDesc}
    (supplied : ∀ p ∈ ps, ∃ v, (p.name, v) ∈ supply) :
    (∃ values, List.Forall₂ (x.Gets supply) ps values) ∨
      ∃ before p after values v, ps = before ++ p :: after ∧
        List.Forall₂ (x.Gets supply) before values ∧ (p.name, v) ∈ supply ∧
        ¬ p.Takes (!x.hasGenerator) v := by
  induction ps with
  | nil => exact .inl ⟨[], .nil⟩
  | cons p ps ih =>
      obtain ⟨v, here⟩ := supplied p (by simp)
      by_cases takes : p.Takes (!x.hasGenerator) v
      · rcases ih fun q hq => supplied q (by simp [hq]) with
          ⟨values, taken⟩ | ⟨before, q, after, values, w, rfl, taken, there, misfit⟩
        · exact .inl ⟨v :: values, .cons ⟨here, takes⟩ taken⟩
        · exact .inr ⟨p :: before, q, after, v :: values, w, rfl, .cons ⟨here, takes⟩ taken,
            there, misfit⟩
      · exact .inr ⟨[], p, ps, [], v, rfl, .nil, here, takes⟩

theorem exists_bindsTo (x : Module γ) (supply : List (Ident × PortValue)) :
    ∃ outcome, x.BindsTo supply outcome := by
  by_cases distinct : (supply.map Prod.fst).Nodup
  · by_cases known : x.unknownInputs (supply.map Prod.fst) = []
    · by_cases supplied : x.missingInputs (supply.map Prod.fst) = []
      · have complete : x.Complete (supply.map Prod.fst) := ⟨distinct, known, supplied⟩
        have all : ∀ p ∈ x.schema.inputs, ∃ v, (p.name, v) ∈ supply := by
          intro p hp
          have mem := missingInputs_eq_nil_iff.mp supplied (List.mem_map_of_mem hp)
          obtain ⟨⟨_, v⟩, hv, rfl⟩ := List.mem_map.mp mem
          exact ⟨v, hv⟩
        rcases taken_or_refused (x := x) all with
          ⟨values, taken⟩ | ⟨before, p, after, values, v, inputs, taken, here, misfit⟩
        · exact ⟨_, .bound complete taken⟩
        · exact ⟨_, .refused complete inputs taken here misfit⟩
      · exact ⟨_, .missing distinct known supplied⟩
    · exact ⟨_, .unknown distinct known⟩
  · exact ⟨_, .repeated fun none => distinct (repetitions_eq_nil_iff.mp none)⟩

theorem bindInputs_eq_iff (own : x.inputNames.Nodup) {outcome : Except Error (List PortValue)} :
    x.bindInputs supply = outcome ↔ x.BindsTo supply outcome := by
  constructor
  · rintro rfl
    obtain ⟨outcome, binds⟩ := x.exists_bindsTo supply
    rwa [binds.bindInputs own]
  · exact fun binds => binds.bindInputs own

/-- Once no name is repeated and all are inputs, their order has no influence. -/
theorem BindsTo.perm {supply' : List (Ident × PortValue)}
    {outcome : Except Error (List PortValue)} (h : x.BindsTo supply outcome)
    (distinct : (supply.map Prod.fst).Nodup)
    (known : x.unknownInputs (supply.map Prod.fst) = []) (order : supply.Perm supply') :
    x.BindsTo supply' outcome := by
  have names : (supply.map Prod.fst).Perm (supply'.map Prod.fst) := order.map _
  have distinct' : (supply'.map Prod.fst).Nodup := names.nodup_iff.mp distinct
  have known' : x.unknownInputs (supply'.map Prod.fst) = [] := by
    rw [unknownInputs_eq_nil_iff] at known ⊢
    exact fun n hn => known (names.mem_iff.mpr hn)
  have missing : x.missingInputs (supply.map Prod.fst) =
      x.missingInputs (supply'.map Prod.fst) :=
    List.filter_congr fun n _ => decide_eq_decide.mpr (not_congr names.mem_iff)
  have complete (h : x.Complete (supply.map Prod.fst)) : x.Complete (supply'.map Prod.fst) :=
    ⟨distinct', known', missing ▸ h.supplied⟩
  have gets {p : PortDesc} {v : PortValue} (h : x.Gets supply p v) : x.Gets supply' p v :=
    ⟨order.mem_iff.mp h.1, h.2⟩
  cases h with
  | repeated some => exact absurd (repetitions_eq_nil_iff.mpr distinct) some
  | unknown _ some => exact absurd known some
  | missing _ _ some =>
      rw [missing] at some ⊢
      exact .missing distinct' known' some
  | refused all inputs taken here misfit =>
      exact .refused (complete all) inputs (taken.imp fun _ _ h => gets h)
        (order.mem_iff.mp here) misfit
  | bound all taken => exact .bound (complete all) (taken.imp fun _ _ h => gets h)

end Module

namespace Workspace

variable {ws : Workspace U} {s : SystemId} {m : ModuleId} {r : InstanceRequest} {sys : System}
  {x : Module U.GeneratorCode} {scope : Scope GeneratorSite} {outer : List (Scope GeneratorSite)}

theorem instantiate_refused (hs : ws.system? s = some sys) (hx : ws.module? m = some x)
    (top : sys.running.scopes = scope :: outer) {e : Error}
    (refused : x.bindInputs r.inputs = .error e) :
    instantiate s m r ws = .error (e.located r.loc) ws := by
  have ends : (instantiate s m r).Ends ws (fun _ _ => False)
      fun e' ws' => e' = e.located r.loc ∧ ws' = ws := by
    unfold instantiate getModule
    refine .bind (resolve_ends (fun y hy => ?_) fun none => ?_)
    · rw [hx] at hy
      cases hy
      refine .bind (onSystem_ends_of_some hs ((System.currentPoint_ends sys).imp ?_ ?_))
      · rintro ip _ ⟨rfl, -⟩
        rw [setSystem_self hs]
        refine .bind (Effect.ends_locating (Effect.ends_ofExcept (fun bound ok => ?_)
          fun e' same => ?_))
        · rw [refused] at ok
          cases ok
        · rw [refused] at same
          cases same
          exact ⟨rfl, rfl⟩
      · rintro _ _ ⟨-, none⟩
        rw [top] at none
        cases none
    · rw [hx] at none
      cases none
  cases hc : instantiate s m r ws with
  | ok i ws' => exact (ends.of_ok hc).elim
  | error e' ws' =>
      obtain ⟨rfl, rfl⟩ := ends.of_error hc
      rfl

/-- The supply counts only as far as it is bound. -/
theorem instantiate_congr (hx : ws.module? m = some x) {inputs' : List (Ident × PortValue)}
    (same : x.bindInputs inputs' = x.bindInputs r.inputs) :
    instantiate s m { r with inputs := inputs' } ws = instantiate s m r ws := by
  have found : getModule m ws = .ok x ws := by
    unfold getModule resolve
    change EStateM.bind EStateM.get _ ws = _
    unfold EStateM.bind EStateM.get
    dsimp only
    rw [hx]
    rfl
  unfold instantiate
  change EStateM.bind _ _ ws = EStateM.bind _ _ ws
  unfold EStateM.bind
  rw [found]
  dsimp only
  rw [same]

end Workspace

namespace Machine

variable {P : Program U} {M : Machine U ρ} {s : SystemId} {m : ModuleId} {r : InstanceRequest}

/-- How a call of `instantiate` binds its inputs that is made inside a generator: the cases of
`BindsTo` exhaust all lists of names and values. A refusal is answered as told and changes nothing
at all. Else the binding feeds the instance, if the call gets as far as that. Where each name is
that of an input and comes once, the call has the very same effect for every order of the list. -/
theorem Reachable.instantiate_binds (h : Reachable P M)
    (calls : M.control.call? = some (.instantiate s m r)) {sys : System}
    {x : Module U.GeneratorCode} {scope : Scope GeneratorSite}
    {outer : List (Scope GeneratorSite)} (hs : M.workspace.system? s = some sys)
    (hx : M.workspace.module? m = some x) (top : sys.running.scopes = scope :: outer)
    (own : x.inputNames.Nodup) :
    (∃ outcome, x.BindsTo r.inputs outcome) ∧
      (∀ e, x.BindsTo r.inputs (.error e) →
        (Call.instantiate s m r).perform M.workspace = .error (e.located r.loc) M.workspace ∧
          (Machine.step P M).workspace = M.workspace) ∧
      (∀ bound, x.BindsTo r.inputs (.ok bound) → ∃ sys' b,
        (Machine.step P M).workspace.system? s = some sys' ∧
          sys.design.body? scope.site.ip.owner = some b ∧
          Workspace.Assembles m r x sys scope outer b bound sys') ∧
      ∀ inputs', r.inputs.Perm inputs' → (r.inputs.map Prod.fst).Nodup →
        x.unknownInputs (r.inputs.map Prod.fst) = [] →
          (Call.instantiate s m { r with inputs := inputs' }).perform M.workspace =
            (Call.instantiate s m r).perform M.workspace := by
  have after := (step_call (P := P) calls).1
  refine ⟨x.exists_bindsTo r.inputs, fun e binds => ?_, fun bound binds => ?_,
    fun inputs' order distinct known => ?_⟩
  · have failed : (Call.instantiate s m r).perform M.workspace =
        .error (e.located r.loc) M.workspace :=
      Workspace.instantiate_refused hs hx top (binds.bindInputs own)
    exact ⟨failed, by rw [after, Effect.outcome, failed]⟩
  · obtain ⟨b, body, -⟩ := (h.hosts.sound.systems s sys hs).body?_top top
    have ends := Workspace.instantiate_ends (p := .any) (s := s) (m := m) h.hosts.sound trivial
      trivial (fun no => no.elim) r
    have assembled := Effect.Ends.outcome
      (ends.imp (fun _ _ ok => ok.2.1) fun _ _ no => no.2.2)
    obtain ⟨sys', hs', assembles⟩ :=
      assembled sys x scope outer b bound hs hx top body (binds.bindInputs own)
    exact ⟨sys', b, by rw [after]; exact hs', body, assembles⟩
  · obtain ⟨outcome, binds⟩ := x.exists_bindsTo r.inputs
    have same : x.bindInputs inputs' = x.bindInputs r.inputs := by
      rw [binds.bindInputs own, (binds.perm distinct known order).bindInputs own]
    exact Workspace.instantiate_congr hx same

end Machine

namespace Sample

/-- The inputs of `Pad`, not in port order. -/
def supply : List (Ident × PortValue) := [("b", .disconnected), ("a", .constant (.int 1))]

/-- Declares `Pad`, which has the inputs `a` and `b`, and instantiates it. -/
def padding : Script code GeneratorResult :=
  .call (.declare (((Declaration.new "Pad" .unknown).input "a" (.bits 1)).input "b" (.bits 2)))
    fun declared => match declared with
    | .ok pad =>
      .call (.instantiate ⟨0⟩ pad { inputs := supply, loc := .unknown }) fun _ =>
        .done (.ok .nothing)
    | .error e => .done (.error e)

/-- The machine that is about to instantiate `Pad`. -/
def beforePad : Machine code Unit := after (program padding) generating 8

/-- The values get to the inputs by name, and the second input is tied to zero. -/
theorem pad_fed_by_name : ∃ sys sys' x scope outer b,
    (Machine.step (program padding) beforePad).workspace.system? ⟨0⟩ = some sys' ∧
      Workspace.Assembles (U := code) ⟨2⟩ { inputs := supply, loc := .unknown } x sys scope outer b
        [.constant (.int 1), .disconnected] sys' := by
  have reach : Machine.Reachable (program padding) beforePad := reachable _ _ _
  have request : instance? beforePad.control =
      some (⟨0⟩, ⟨2⟩, { inputs := supply, loc := .unknown }) := by
    decide +kernel
  have running : (beforePad.workspace.system? ⟨0⟩).map
      (fun sys => sys.running.scopes.map fun c => c.site.ip.owner) = some ["Top"] := by
    decide +kernel
  have known : (beforePad.workspace.module? ⟨2⟩).map
      (fun x => (x.inputNames, (x.bindInputs supply).toOption)) =
        some (["a", "b"], some [.constant (.int 1), .disconnected]) := by
    decide +kernel
  -- From here on the machine is not to be evaluated any more.
  generalize beforePad = M at *
  obtain ⟨sys, hs, scopes⟩ := Option.map_eq_some_iff.mp running
  obtain ⟨scope, outer, top, -⟩ := List.map_eq_cons_iff.mp scopes
  obtain ⟨x, hx, facts⟩ := Option.map_eq_some_iff.mp known
  obtain ⟨names, bound⟩ := Prod.mk.inj facts
  have own : x.inputNames.Nodup := by
    rw [names]
    decide
  have binds : x.BindsTo supply (.ok [.constant (.int 1), .disconnected]) := by
    refine (Module.bindInputs_eq_iff own).mp ?_
    cases outcome : x.bindInputs supply with
    | ok values =>
        rw [outcome] at bound
        rw [Option.some.inj bound]
    | error e =>
        rw [outcome] at bound
        cases bound
  obtain ⟨-, -, fed, -⟩ := reach.instantiate_binds (call?_of_instance? request) hs hx top own
  obtain ⟨sys', b, hs', -, assembles⟩ := fed _ binds
  exact ⟨sys, sys', x, scope, outer, b, hs', assembles⟩

end Sample

end Hardware
