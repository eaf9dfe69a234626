import Hardware.Proofs.Calls

/-!
Calls at the ports of a running generator. Whatever they assign has the type of its port,
and is a signal that was given or one that is defined in the body.
-/
namespace Hardware

variable {U : UserCode}

/-- The signals among port values. -/
def PortValue.signals : PortValue → List Signal
  | .signal v => [v]
  | _ => []

/-- The signals that a call at the ports is given. -/
def PortCall.signals : PortCall → List Signal
  | .assign _ value => value.signals
  | .assignAll values => values.flatMap fun e => e.2.signals
  | _ => []

namespace Ports

/-- All of the ports but what is assigned. -/
structure Same (ports ports' : Ports) : Prop where
  system : ports'.system = ports.system
  target : ports'.target = ports.target
  inputs : ports'.inputs = ports.inputs
  outputs : ports'.outputs = ports.outputs
  args : ports'.args = ports.args
  size : ports'.slots.length = ports.slots.length

theorem Same.refl (ports : Ports) : ports.Same ports := ⟨rfl, rfl, rfl, rfl, rfl, rfl⟩

theorem Same.trans {a b c : Ports} (h : a.Same b) (h' : b.Same c) : a.Same c where
  system := h'.system.trans h.system
  target := h'.target.trans h.target
  inputs := h'.inputs.trans h.inputs
  outputs := h'.outputs.trans h.outputs
  args := h'.args.trans h.args
  size := h'.size.trans h.size

/-- What a call at the ports does that is given certain signals. -/
structure Step (p : Permit) (given : List Signal) (st st' : PortState U) : Prop where
  changes : Workspace.Changes p st.2 st'.2
  same : st.1.Same st'.1
  assigned : ∀ (i : Nat) (v : Value), st'.1.slots[i]? = some (some v) →
    st.1.slots[i]? = some (some v) ∨
      (∃ pd : PortDesc, st.1.outputs[i]? = some pd ∧ v.type = pd.type) ∧
        (v ∈ given ∨ ∃ sys, st'.2.system? st.1.system = some sys ∧ sys.Defined v)

variable {p : Permit} {given : List Signal} {st st' st'' : PortState U}

theorem Step.refl (p : Permit) (given : List Signal) (st : PortState U) : Step p given st st :=
  ⟨.refl, .refl st.1, fun _ _ h => .inl h⟩

theorem Step.trans (h : st.2.Sound) (a : Step p given st st') (b : Step p given st' st'') :
    Step p given st st'' where
  changes := a.changes.trans b.changes
  same := a.same.trans b.same
  assigned i v hv := by
    rcases b.assigned i v hv with old | ⟨⟨pd, hpd, type⟩, source⟩
    · rcases a.assigned i v old with older | ⟨typed, source⟩
      · exact .inl older
      · refine .inr ⟨typed, source.imp id ?_⟩
        rintro ⟨sys, hs, defined⟩
        obtain ⟨sys', hs', k⟩ :=
          Workspace.Changes.keeps_of_system? (Workspace.Changes.sound h a.changes) b.changes hs
        exact ⟨sys', hs', k.defined defined⟩
    · rw [a.same.outputs] at hpd
      rw [a.same.system] at source
      exact .inr ⟨⟨pd, hpd, type⟩, source⟩

theorem Step.mono {more : List Signal} (a : Step p given st st') (sub : ∀ v ∈ given, v ∈ more) :
    Step p more st st' :=
  ⟨a.changes, a.same, fun i v hv =>
    (a.assigned i v hv).imp id fun ⟨typed, source⟩ => ⟨typed, source.imp (sub v) id⟩⟩

/-- A port that is found by name stands where it was declared. -/
theorem getElem?_of_output? {ports : Ports} {port : Ident} {i : Nat} {pd : PortDesc}
    (h : ports.output? port = some (i, pd)) : ports.outputs[i]? = some pd := by
  have mem := OrderedMap.mem_of_get?_ofList h
  obtain ⟨j, hj⟩ := List.mem_iff_getElem?.mp mem
  rw [List.getElem?_mapIdx] at hj
  obtain ⟨pd', hpd', e⟩ := Option.map_eq_some_iff.mp hj
  cases e
  exact hpd'

theorem assignable_ends (h : st.2.Sound) (p : Permit) (port : Ident) (type : SignalType)
    (value : PortValue) :
    (assignable port type value).Ends st
      (fun v st' => Workspace.Changes p st.2 st'.2 ∧ st'.1 = st.1 ∧ v.type = type ∧
        (v ∈ value.signals ∨ ∃ sys, st'.2.system? st.1.system = some sys ∧ sys.Defined v))
      fun _ st' => st' = st := by
  cases value with
  | signal v =>
      have unfolded : assignable (U := U) port type (.signal v) =
          if v.type = type then pure v
          else throw (.ofKind (.typeMismatch port type.text v.type.text)) := rfl
      rw [unfolded]
      split
      · rename_i same
        exact ⟨.refl, rfl, same, .inl (by simp [PortValue.signals])⟩
      · rfl
  | constant c =>
      unfold assignable
      refine .bind ?_
      simp only [Effect.ends_get]
      refine Effect.ends_on ((Workspace.buildConstant_ends h p st.1.system type c).imp ?_ ?_)
      · rintro v ws' ⟨changes, type, defined, -⟩
        exact ⟨changes, rfl, type, .inr defined⟩
      · rintro _ _ ⟨rfl, -⟩
        rfl
  | disconnected => rfl

theorem assign_ends (h : st.2.Sound) (p : Permit) (port : Ident) (value : PortValue) :
    (assign port value).Ends st (fun _ st' => Step p value.signals st st')
      fun _ st' => st' = st := by
  unfold assign
  refine .bind ?_
  simp only [Effect.ends_get]
  split
  · split <;> rfl
  · rename_i i pd hport
    refine .bind ((assignable_ends h p port pd.type value).imp ?_ fun _ _ same => same)
    rintro v ⟨ports, ws'⟩ ⟨changes, same, type, source⟩
    cases same
    refine Effect.ends_modify.mpr ⟨changes, ⟨rfl, rfl, rfl, rfl, rfl, by simp⟩, fun j w hw => ?_⟩
    rw [List.getElem?_set] at hw
    split at hw
    · rename_i hij
      subst hij
      split at hw
      · cases hw
        exact .inr ⟨⟨pd, getElem?_of_output? hport, type⟩, source⟩
      · cases hw
    · exact .inl hw

theorem assignAll_ends (h : st.2.Sound) (p : Permit) (values : List (Ident × PortValue)) :
    (assignAll values).Ends st
      (fun _ st' => Step p (values.flatMap fun e => e.2.signals) st st')
      fun _ st' => Step p (values.flatMap fun e => e.2.signals) st st' := by
  unfold assignAll
  refine .bind ?_
  simp only [Effect.ends_get]
  split
  · exact .bind (Step.refl p _ st)
  · refine Effect.ends_forM (S := fun st' => Step p (values.flatMap fun e => e.2.signals) st st')
      (.refl p _ st) fun e he st' step => ?_
    have sound := Workspace.Changes.sound h step.changes
    refine (assign_ends sound p e.1 e.2).imp (fun _ st'' more => ?_) ?_
    · exact step.trans h (more.mono fun v hv => List.mem_flatMap.mpr ⟨e, he, hv⟩)
    · rintro _ _ rfl
      exact step

end Ports

namespace PortCall

variable {st : PortState U}

/-- What is read at an input is the argument for it. -/
def Answered (st : PortState U) : (c : PortCall) → c.Result → Prop
  | .read _, v => v ∈ st.1.args
  | _, _ => True

theorem perform_ends (c : PortCall) (h : st.2.Sound) (p : Permit) :
    (c.perform (U := U)).Ends st
      (fun answer st' => Ports.Step p c.signals st st' ∧ c.Answered st answer)
      fun _ st' => Ports.Step p c.signals st st' := by
  cases c with
  | read port =>
      refine .bind ?_
      simp only [Effect.ends_get]
      refine Effect.ends_ofExcept (fun v hv => ⟨.refl p _ st, ?_⟩) fun _ _ => .refl p _ st
      unfold Ports.read at hv
      split at hv
      · rename_i w hw
        cases hv
        obtain ⟨⟨i, pd⟩, -, arg⟩ := Option.bind_eq_some_iff.mp hw
        exact List.mem_of_getElem? arg
      · split at hv <;> cases hv
  | assign port value =>
      refine (Ports.assign_ends h p port value).imp (fun _ _ step => ⟨step, trivial⟩) ?_
      rintro _ _ rfl
      exact .refl p _ _
  | assignAll values =>
      exact (Ports.assignAll_ends h p values).imp (fun _ _ step => ⟨step, trivial⟩)
        fun _ _ step => step
  | check =>
      refine .bind ?_
      simp only [Effect.ends_get]
      exact Effect.ends_ofExcept (fun _ _ => ⟨.refl p _ st, trivial⟩) fun _ _ => .refl p _ st
  | owner =>
      refine .bind ?_
      exact ⟨.refl p _ st, trivial⟩
  | system =>
      refine .bind ?_
      exact ⟨.refl p _ st, trivial⟩

end PortCall

end Hardware
