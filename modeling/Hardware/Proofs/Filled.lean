import Hardware.Proofs.Checked

/-!
What the running generators have assigned. As long as no body is taken away, it stays
defined where it was, so the output that closes a body verifies, and with it the design stays
in order.
-/
namespace Hardware

variable {U : UserCode}

/-- If all outputs are assigned values of their types, the values have the types of the
outputs in order. -/
theorem Ports.types_of_assigned {outputs : List PortDesc} {slots : List (Option Value)}
    (size : slots.length = outputs.length)
    (full : ((outputs.zip slots).filter fun s => s.2.isNone).map (fun s => s.1.name) = [])
    (typed : ∀ (i : Nat) (v : Value), slots[i]? = some (some v) →
      ∃ pd : PortDesc, outputs[i]? = some pd ∧ v.type = pd.type) :
    (slots.filterMap id).map Value.type = outputs.map PortDesc.type := by
  induction outputs generalizing slots with
  | nil =>
      rw [List.length_eq_zero_iff.mp size]
      rfl
  | cons pd outputs ih =>
      cases slots with
      | nil => cases size
      | cons slot slots =>
          cases slot with
          | none => simp at full
          | some v =>
              obtain ⟨pd', hpd, type⟩ := typed 0 v rfl
              cases hpd
              have rest := ih (Nat.succ.inj size) (by simpa using full)
                fun i w hw => typed (i + 1) w hw
              change v.type :: (slots.filterMap id).map Value.type = pd.type :: outputs.map _
              rw [type, rest]

namespace System

variable {sys sys' : System} {ws : Workspace U} {s : SystemId} {p : Permit}
  {targets targets' : List ModuleId}

/-- Unless a module loses its mark, the design grows. -/
theorem Tick.grows (h : sys.Sound ws) (t : sys.Tick p s targets sys' targets')
    (kept : ∀ m, sys.isGenerated m = true → sys'.isGenerated m = true) :
    sys.design.Grows sys'.design := by
  cases t with
  | keeps k => exact k.grows
  | pop drained first => exact .refl _
  | opened args k running ops idle hm only hop hk =>
      exact k.grows.trans
        (.of_find hop (.withBody hk _) fun q => Design.findModule?_setBody _ _ q _)
  | closed last P hm => exact .push P.body _
  | @undone m rest scope outer last top hm held =>
      obtain ⟨x, op, b, -, -, gen, -⟩ := h.target_top top hm
      have lost := kept m gen
      simp at lost

end System

namespace Workspace

variable {ws ws' : Workspace U} {s : SystemId} {p : Permit} {run : GeneratorRun}
  {runs runs' : List GeneratorRun} {q : Ident} {v : Value}

/-- `v` is defined in the body of `q` in the system `s`. -/
def Defines (ws : Workspace U) (s : SystemId) (q : Ident) (v : Value) : Prop :=
  ∃ sys op, ws.system? s = some sys ∧ sys.design.findModule? q = some op ∧ op.defines v = true

/-- No module of `s` loses its mark. -/
def KeepsMarks (ws : Workspace U) (s : SystemId) (ws' : Workspace U) : Prop :=
  ∀ sys sys' m, ws.system? s = some sys → ws'.system? s = some sys' →
    sys.isGenerated m = true → sys'.isGenerated m = true

theorem Defines.move (d : ws.Defines s q v) (h : ws.Hosts runs) (step : Move p ws runs ws' runs')
    (kept : ws.KeepsMarks s ws') : ws'.Defines s q v := by
  obtain ⟨sys, op, hs, hop, defined⟩ := d
  obtain ⟨sys', hs', tick⟩ := step.tick h hs
  have grows := tick.grows (h.sound.systems s sys hs) fun m gen => kept sys sys' m hs hs' gen
  obtain ⟨op', hop', more⟩ := grows q op hop
  exact ⟨sys', op', hs', hop', more.defines defined⟩

theorem Hosts.defines_of_owner (h : ws.Hosts runs) {sys : System} {rest : List Ident}
    (hs : ws.system? s = some sys) (first : ownersIn s runs = q :: rest) (d : sys.Defined v) :
    ws.Defines s q v := by
  have owners := h.owners s sys hs
  obtain ⟨scope, outer, op, top, hop, defined⟩ := d
  simp only [System.owners, top, List.map_cons, first, List.cons.injEq] at owners
  exact ⟨sys, op, hs, owners.1 ▸ hop, defined⟩

theorem Hosts.defined_of_owner (h : ws.Hosts runs) {sys : System} {rest : List Ident}
    (hs : ws.system? s = some sys) (first : ownersIn s runs = q :: rest) (d : ws.Defines s q v) :
    sys.Defined v := by
  have owners := h.owners s sys hs
  rw [first] at owners
  obtain ⟨sys', op, hs', hop, defined⟩ := d
  rw [hs] at hs'
  cases hs'
  cases top : sys.running.scopes with
  | nil => simp [System.owners, top] at owners
  | cons scope outer =>
      simp only [System.owners, top, List.map_cons, List.cons.injEq] at owners
      exact ⟨scope, outer, op, top, owners.1.symm ▸ hop, defined⟩

theorem ownersIn_cons_self (run : GeneratorRun) (runs : List GeneratorRun) :
    ownersIn run.system (run :: runs) = run.symbol :: ownersIn run.system runs := by
  rw [ownersIn_cons, if_pos rfl]

end Workspace

/-- What `run` has assigned is defined in its body, and has the type of its output. -/
def GeneratorRun.Filled (ws : Workspace U) (run : GeneratorRun) : Prop :=
  ∀ (i : Nat) (v : Value), run.ports.slots[i]? = some (some v) →
    ws.Defines run.system run.symbol v ∧
      ∃ pd : PortDesc, run.ports.outputs[i]? = some pd ∧ v.type = pd.type

namespace Workspace

variable {ws ws' : Workspace U} {s : SystemId} {p : Permit} {run : GeneratorRun}
  {runs runs' : List GeneratorRun}

theorem Hosts.verifyOp_output (h : ws.Hosts (run :: runs)) (filled : run.Filled ws) {sys : System}
    {scope : Scope GeneratorSite} {outer : List (Scope GeneratorSite)} {b : Block} {op : Operation}
    (hs : ws.system? run.system = some sys) (P : sys.Pushes scope outer b op)
    (kind : op.kind = .output) (assigned : run.ports.unassigned = [])
    (operands : op.operands = run.ports.slots.filterMap id) :
    (sys.push scope.site.ip.owner b op).design.verifyOp scope.site.ip.owner op.id = .ok () := by
  obtain ⟨sys', scope', outer', hs', sound, top, owner, hm⟩ := h.top
  rw [hs] at hs'
  cases hs'
  obtain ⟨rfl, rfl⟩ := P.scope_eq top
  refine P.verifyOp sound (fun v hv => ?_) fun mop hop => ?_
  · rw [operands] at hv
    obtain ⟨slot, mem, hv⟩ := List.mem_filterMap.mp hv
    obtain ⟨i, hi⟩ := List.mem_iff_getElem?.mp mem
    cases hv
    exact h.defined_of_owner hs (ownersIn_cons_self run runs) (filled i v hi).1
  · obtain ⟨x, hx, -, outputs, -, size⟩ := (h.each run (by simp)).ports
    rw [owner] at hop
    have types := Ports.types_of_assigned size assigned fun i v hv => (filled i v hv).2
    unfold Design.checkKind
    rw [kind]
    have agree : ((mop.withBody (some (b.push op))).outputs.map Port.type) =
        op.operands.map Value.type := by
      rw [ModuleOp.withBody_outputs, sound.outputs _ _ _ _ hx hm hop, operands, types, outputs,
        List.map_map]
      rfl
    simp only [agree, if_true]
    rfl

/-- What holds of `s` and of the generators that run, for as long as no call fails. -/
structure InOrder (ws : Workspace U) (s : SystemId) (runs : List GeneratorRun) : Prop where
  imports : ws.Imports
  checked : ws.Checked s
  filled : ∀ run ∈ runs, run.system = s → run.Filled ws

theorem filled_move (f : run.Filled ws) (h : ws.Hosts runs) (step : Move p ws runs ws' runs')
    (kept : ws.KeepsMarks run.system ws') : run.Filled ws' :=
  fun i v hv => ⟨(f i v hv).1.move h step kept, (f i v hv).2⟩

theorem filled_port (f : run.Filled ws) (h : ws.Hosts (run :: runs)) {ports : Ports}
    {given : List Signal} (step : Ports.Step p given (run.ports, ws) (ports, ws'))
    (known : ∀ v ∈ given, ws.Defines run.system run.symbol v)
    (allowed : ∀ v ∈ given, p.assigned v) (kept : ws.KeepsMarks run.system ws') :
    ({ run with ports } : GeneratorRun).Filled ws' := by
  have move : Move p ws (run :: runs) ws' ({ run with ports } :: runs) := .port step allowed
  have same : run.ports.Same ports := step.same
  have home : ({ run with ports } : GeneratorRun).system = run.system := same.system
  intro i v hv
  rw [home]
  rcases step.assigned i v hv with old | ⟨typed, source⟩
  · obtain ⟨defined, typed⟩ := f i v old
    refine ⟨defined.move h move kept, ?_⟩
    rwa [same.outputs]
  · refine ⟨?_, by rwa [same.outputs]⟩
    rcases source with mem | ⟨sys, hs, defined⟩
    · exact (known v mem).move h move kept
    · have first : ownersIn run.system (({ run with ports } : GeneratorRun) :: runs) =
          run.symbol :: ownersIn run.system runs := by
        rw [ownersIn_cons, if_pos home]
      exact (move.hosts h).defines_of_owner hs first defined

/-- The start of a generator leaves all in order: it has an empty body and has assigned
nothing. -/
theorem InOrder.opens (imports : ws.Imports) (checked : ws.Checked s) {m : ModuleId}
    {t : SystemId} {code : U.GeneratorCode} (opens : Opens ws t m run code ws')
    (filled : ∀ run ∈ runs, run.system = s → run.Filled ws') : ws'.InOrder s (run :: runs) := by
  have e := opens.extends
  cases opens with
  | intro site hs hx one idle hm hop hk =>
      refine ⟨imports.of_modules rfl, checked.setSystem e hs (fun _ => rfl)
        fun _ c => c.opened e hop hk _, fun r hr here => ?_⟩
      rcases List.mem_cons.mp hr with rfl | hr
      · intro i v hv
        simp [Ports.opened, List.getElem?_replicate] at hv
      · exact filled r hr here

theorem InOrder.closes (o : ws.InOrder s (run :: runs)) (h : ws.Hosts (run :: runs))
    (c : Closes ws run ws') (filled : ∀ run ∈ runs, run.system = s → run.Filled ws') :
    ws'.InOrder s runs := by
  have e := c.extends
  cases c with
  | intro hs P kind empty operands =>
      refine ⟨o.imports.of_modules rfl, o.checked.setSystem e hs (fun _ => rfl) ?_, filled⟩
      intro here c
      exact c.push e P.body rfl rfl
        (h.verifyOp_output (o.filled run (by simp) here) hs P kind empty operands)

theorem InOrder.unwinds (o : ws.InOrder s (run :: runs)) (h : ws.Hosts (run :: runs))
    (u : Unwinds ws run ws') (kept : ws.KeepsMarks s ws')
    (filled : ∀ run ∈ runs, run.system = s → run.Filled ws') : ws'.InOrder s runs := by
  have e := u.extends
  obtain ⟨sys, scope, outer, hs, sound, top, owner, hm⟩ := h.top
  have other : s ≠ run.system := by
    rintro rfl
    obtain ⟨held, undone⟩ := u.system? hs
    obtain ⟨x, op, b, -, -, gen, -⟩ := sound.target_top top (owner ▸ hm)
    have lost := kept sys _ run.target hs undone gen
    simp at lost
  cases u with
  | intro hs' =>
      refine ⟨fun m x op hx => o.imports m x op (by simpa using hx), fun sys' hs' => ?_, filled⟩
      rw [system?_setSystem_ne _ other, system?_releaseInstances] at hs'
      exact (o.checked sys' hs').of_same e rfl rfl

theorem InOrder.move (o : ws.InOrder s runs) (h : ws.Hosts runs) (step : Move p ws runs ws' runs')
    (verified : p.verified s) (brought : ∀ op, p.brought op → op.isExternal = true)
    (assigned : ∀ run rest, runs = run :: rest → run.system = s → ∀ v, p.assigned v →
      ws.Defines s run.symbol v) (kept : ws.KeepsMarks s ws') : ws'.InOrder s runs' := by
  have filled : ∀ run ∈ runs, run.system = s → run.Filled ws' := by
    rintro run hrun rfl
    exact filled_move (o.filled run hrun rfl) h step kept
  have e := step.extends
  cases step with
  | call c =>
      obtain ⟨imports, checked⟩ := Changes.checked h.sound o.imports o.checked c verified brought
      exact ⟨imports, checked, filled⟩
  | @port _ run runs ports given step allowed =>
      obtain ⟨imports, checked⟩ :=
        Changes.checked h.sound o.imports o.checked step.changes verified brought
      refine ⟨imports, checked, fun r hr here => ?_⟩
      rcases List.mem_cons.mp hr with rfl | hr
      · have home : run.system = s := step.same.system.symm.trans here
        subst home
        exact filled_port (o.filled run (by simp) rfl) h step
          (fun v hv => assigned run runs rfl rfl v (allowed v hv)) allowed kept
      · exact filled r (by simp [hr]) here
  | pop drained hs first =>
      exact ⟨o.imports.of_modules rfl,
        o.checked.setSystem e hs (fun _ => rfl) fun _ c => c.of_same e rfl rfl, filled⟩
  | @begins _ _ _ t m _ _ _ created opens =>
      have made : (Permit.creating t m).made t m := ⟨rfl, rfl⟩
      obtain ⟨imports, checked⟩ := Changes.checked h.sound o.imports o.checked
        (created.changes made) trivial fun _ no => no.elim
      exact .opens imports checked opens filled
  | closes c => exact o.closes h c fun r hr => filled r (by simp [hr])
  | unwinds u => exact o.unwinds h u kept fun r hr => filled r (by simp [hr])

end Workspace

end Hardware
