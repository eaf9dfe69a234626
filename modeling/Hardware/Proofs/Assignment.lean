import Hardware.Proofs.Declared
import Hardware.Proofs.Placement

/-!
What becomes of a call at the ports of a running generator, told exactly. An assignment is refused
for one of five reasons, and then nothing has happened; or it delivers one value to one output. An
assignment of several outputs is refused as a whole if some of the names are not outputs. Otherwise
it is the assignments one by one, up to the first that is refused.
-/
namespace Hardware

variable {U : UserCode} {ρ : Type}

section Constants

theorem Design.buildConstant_fault (d : Design) (ip : InsertionPoint) (type : SignalType)
    (value : Constant) (loc : Location) :
    (buildConstant ip type value loc).Ends d (fun _ _ => True)
      fun e _ => type.check value = .error e ∨ ∀ b, d.openBlock ip ≠ .ok b := by
  unfold buildConstant
  refine .bind (Effect.ends_ofExcept (fun _ _ => ?_) fun e misfit => .inl misfit)
  refine .bind ((buildOp_ends d ip _ _ _ _ loc).imp ?_ fun _ _ closed => .inr closed.2)
  intro op d' _
  exact trivial

/-- Where a body is open, a constant is refused only by the check of its value. -/
theorem System.buildConstant_fault (sys : System) (type : SignalType) (value : Constant) :
    (buildConstant type value).Ends sys (fun _ _ => True)
      fun e _ => sys.Building → type.check value = .error e := by
  unfold buildConstant
  refine .bind ((currentPoint_ends sys).imp ?_ ?_)
  · rintro ip _ ⟨rfl, scope, outer, top, rfl⟩
    refine .bind ?_
    simp only [Effect.ends_get]
    refine Effect.ends_on ((Design.buildConstant_fault _ _ _ _ _).imp (fun _ _ _ => trivial) ?_)
    intro e _ fault building
    obtain ⟨b, opened⟩ := building.openBlock top
    exact fault.resolve_right fun closed => closed b opened
  · rintro e _ ⟨rfl, none⟩ ⟨scope, outer, b, top, -⟩
    rw [none] at top
    cases top

/-- A constant for the innermost running generator is built at the end of its body, unless the
type does not hold it. -/
theorem Workspace.buildConstant_exact {ws : Workspace U} (h : ws.Sound) {s : SystemId}
    {sys : System} {scope : Scope GeneratorSite} {outer : List (Scope GeneratorSite)}
    (hs : ws.system? s = some sys) (top : sys.running.scopes = scope :: outer)
    (type : SignalType) (c : Constant) :
    (onSystem s (System.buildConstant type c)).Ends ws
      (fun v ws' => ws'.Sound ∧ ∃ b op, sys.Pushes scope outer b op ∧
        op.IsConstant (type, c) ∧ op.results = [v] ∧
        ws' = ws.setSystem s (sys.push scope.site.ip.owner b op))
      fun e ws' => ws' = ws ∧ type.check c = .error e := by
  have building := (h.systems s sys hs).building top
  have faults : (onSystem s (System.buildConstant type c)).Ends ws (fun _ _ => True)
      fun e _ => type.check c = .error e :=
    onSystem_ends_of_some hs ((sys.buildConstant_fault type c).imp (fun _ _ _ => trivial)
      fun _ _ fault => fault building)
  refine ((buildConstant_ends h .any s type c).and faults).imp ?_ ?_
  · rintro v ws' ⟨⟨changes, -, -, sys', scope', outer', b, op, hs', P, constant, result, same⟩, -⟩
    rw [hs] at hs'
    cases hs'
    obtain ⟨rfl, rfl⟩ := P.scope_eq top
    exact ⟨Changes.sound h changes, b, op, P, constant, result, same⟩
  · rintro e ws' ⟨⟨same, -⟩, misfit⟩
    exact ⟨same, misfit⟩

end Constants

namespace Ports

/-- The output `p` stands at the position `i` and goes by `port`. -/
structure Stands (ports : Ports) (port : Ident) (i : Nat) (p : PortDesc) : Prop where
  position : ports.outputs[i]? = some p
  name : p.name = port

/-- Why an assignment is refused, and with which error. -/
inductive Refuses (st : PortState U) (port : Ident) : PortValue → Error → Prop
  | input (value : PortValue) (absent : port ∉ st.1.outputs.map PortDesc.name)
      (input : port ∈ st.1.inputs.map PortDesc.name) :
      Refuses st port value (.ofKind (.portDirection port .assignsInput))
  | unknown (value : PortValue) (absent : port ∉ st.1.outputs.map PortDesc.name)
      (none : port ∉ st.1.inputs.map PortDesc.name) :
      Refuses st port value (.ofKind (.unknownPorts (owner st) [port]))
  | mismatch {i : Nat} {p : PortDesc} {v : Signal} (stands : st.1.Stands port i p)
      (differs : v.type ≠ p.type) :
      Refuses st port (.signal v) (.ofKind (.typeMismatch port p.type.text v.type.text))
  | misfit {i : Nat} {p : PortDesc} {c : Constant} {e : Error} (stands : st.1.Stands port i p)
      (misfit : p.type.check c = .error e) : Refuses st port (.constant c) e
  | disconnected {i : Nat} {p : PortDesc} (stands : st.1.Stands port i p) :
      Refuses st port .disconnected (.ofKind (.disconnected port))

/-- The output `i` is assigned `v`, which is the signal that was given, or a constant that is built
at the end of the body of the innermost generator. -/
inductive Sets (st : PortState U) (port : Ident) : PortValue → Nat → Value → PortState U → Prop
  | signal {i : Nat} {p : PortDesc} {v : Signal} (stands : st.1.Stands port i p)
      (type : v.type = p.type) :
      Sets st port (.signal v) i v ({ st.1 with slots := st.1.slots.set i (some v) }, st.2)
  | constant {i : Nat} {p : PortDesc} {c : Constant} {v : Value} {sys : System}
      {scope : Scope GeneratorSite} {outer : List (Scope GeneratorSite)} {b : Block}
      {op : Operation} (stands : st.1.Stands port i p)
      (hs : st.2.system? st.1.system = some sys) (P : sys.Pushes scope outer b op)
      (constant : op.IsConstant (p.type, c)) (result : op.results = [v]) :
      Sets st port (.constant c) i v
        ({ st.1 with slots := st.1.slots.set i (some v) },
          st.2.setSystem st.1.system (sys.push scope.site.ip.owner b op))

/-- Several outputs are assigned one after the other. -/
inductive SetsAll :
    PortState U → List (Ident × PortValue) → List (Nat × Value) → PortState U → Prop
  | nil (st : PortState U) : SetsAll st [] [] st
  | cons {st mid st' : PortState U} {port : Ident} {value : PortValue}
      {rest : List (Ident × PortValue)} {i : Nat} {v : Value} {log : List (Nat × Value)}
      (first : Sets st port value i v mid) (others : SetsAll mid rest log st') :
      SetsAll st ((port, value) :: rest) ((i, v) :: log) st'

/-- The names that are not outputs, in the order in which they are given. -/
def nonOutputs (p : Ports) (values : List (Ident × PortValue)) : List Ident :=
  (values.map Prod.fst).filter fun port => port ∉ p.outputs.map PortDesc.name

/-- A generator is running in the system of the ports. -/
structure Active (st : PortState U) : Prop where
  sound : st.2.Sound
  running : ∃ sys scope outer, st.2.system? st.1.system = some sys ∧
    sys.running.scopes = scope :: outer

theorem table_eq_none {ports : List PortDesc} {port : Ident} :
    (PortDesc.table ports).get? port = none ↔ port ∉ ports.map PortDesc.name := by
  rw [PortDesc.table, OrderedMap.get?_ofList_eq_none, Workspace.table_keys]

theorem stands_of_output? {ports : Ports} {port : Ident} {i : Nat} {p : PortDesc}
    (named : ports.output? port = some (i, p)) : ports.Stands port i p := by
  obtain ⟨j, hj⟩ := List.mem_iff_getElem?.mp (OrderedMap.mem_of_get?_ofList named)
  rw [List.getElem?_mapIdx] at hj
  obtain ⟨q, position, same⟩ := Option.map_eq_some_iff.mp hj
  cases same
  exact ⟨position, rfl⟩

variable {st st' : PortState U} {port : Ident} {value : PortValue} {i : Nat} {v : Value}

theorem assignable_exact (active : Active st) {p : PortDesc}
    (stands : st.1.Stands port i p) (value : PortValue) :
    (assignable port p.type value).Ends st
      (fun v st' => Active (st.1, st'.2) ∧ st'.1 = st.1 ∧
        Sets st port value i v ({ st.1 with slots := st.1.slots.set i (some v) }, st'.2))
      fun e st' => st' = st ∧ Refuses st port value e := by
  cases value with
  | signal v =>
      have unfolded : assignable (U := U) port p.type (.signal v) =
          if v.type = p.type then pure v
          else throw (.ofKind (.typeMismatch port p.type.text v.type.text)) := rfl
      rw [unfolded]
      split
      · rename_i type
        exact ⟨active, rfl, .signal stands type⟩
      · rename_i differs
        exact ⟨rfl, .mismatch stands differs⟩
  | constant c =>
      obtain ⟨sys, scope, outer, hs, top⟩ := active.running
      unfold assignable
      refine .bind ?_
      simp only [Effect.ends_get]
      refine Effect.ends_on
        ((Workspace.buildConstant_exact active.sound hs top p.type c).imp ?_ ?_)
      · rintro v _ ⟨sound, b, op, P, constant, result, rfl⟩
        refine ⟨⟨sound, _, scope, outer, Workspace.system?_setSystem_self hs _, top⟩, rfl, ?_⟩
        exact .constant stands hs P constant result
      · rintro e _ ⟨rfl, misfit⟩
        exact ⟨rfl, .misfit stands misfit⟩
  | disconnected => exact ⟨rfl, .disconnected stands⟩

theorem assign_exact (active : Active st) (port : Ident) (value : PortValue) :
    (assign port value).Ends st
      (fun _ st' => Active st' ∧ ∃ i v, Sets st port value i v st')
      fun e st' => st' = st ∧ Refuses st port value e := by
  unfold assign
  refine .bind ?_
  simp only [Effect.ends_get]
  split
  · rename_i absent
    split
    · rename_i input
      refine ⟨rfl, .input value (table_eq_none.mp absent) ?_⟩
      by_contra none
      rw [input?, table_eq_none.mpr none] at input
      cases input
    · rename_i none
      rw [Option.not_isSome_iff_eq_none] at none
      exact ⟨rfl, .unknown value (table_eq_none.mp absent) (table_eq_none.mp none)⟩
  · rename_i i p named
    have stands := stands_of_output? named
    refine .bind ((assignable_exact active stands value).imp ?_ fun _ _ refused => refused)
    rintro v ⟨ports, ws⟩ ⟨running, same, sets⟩
    cases same
    exact ⟨⟨running.1, running.2⟩, i, v, sets⟩

/-- A sequence of assignments stops at the first that is refused. -/
theorem assigns_exact (values : List (Ident × PortValue)) :
    ∀ {st : PortState U} (_ : Active st),
      (values.forM fun (port, value) => assign port value).Ends st
        (fun _ st' => ∃ log, SetsAll st values log st')
        fun e st' => ∃ before port value after log, values = before ++ (port, value) :: after ∧
          SetsAll st before log st' ∧ Refuses st' port value e := by
  induction values with
  | nil =>
      intro st _
      exact ⟨[], .nil st⟩
  | cons entry rest ih =>
      intro st active
      obtain ⟨port, value⟩ := entry
      refine .bind ((assign_exact active port value).imp ?_ ?_)
      · rintro _ mid ⟨active', i, v, sets⟩
        refine (ih active').imp ?_ ?_
        · rintro _ st' ⟨log, others⟩
          exact ⟨(i, v) :: log, .cons sets others⟩
        · rintro e st' ⟨before, port', value', after, log, rfl, others, why⟩
          exact ⟨(port, value) :: before, port', value', after, (i, v) :: log, rfl,
            .cons sets others, why⟩
      · rintro e _ ⟨rfl, why⟩
        exact ⟨[], port, value, rest, [], rfl, .nil _, why⟩

/-- Names that are no outputs are reported together, before anything is assigned. -/
theorem assignAll_exact (active : Active st) (values : List (Ident × PortValue)) :
    (assignAll values).Ends st
      (fun _ st' => st.1.nonOutputs values = [] ∧ ∃ log, SetsAll st values log st')
      fun e st' => (st' = st ∧ st.1.nonOutputs values ≠ [] ∧
          e = .ofKind (.unknownPorts (owner st) (st.1.nonOutputs values))) ∨
        st.1.nonOutputs values = [] ∧ ∃ before port value after log,
          values = before ++ (port, value) :: after ∧ SetsAll st before log st' ∧
            Refuses st' port value e := by
  unfold assignAll
  refine .bind (Effect.ends_get.mpr ?_)
  have unknown : (values.map Prod.fst).filter (fun port => (st.1.output? port).isNone) =
      st.1.nonOutputs values := by
    refine List.filter_congr fun port _ => ?_
    rw [Bool.eq_iff_iff, Option.isNone_iff_eq_none, decide_eq_true_eq]
    exact table_eq_none
  simp only [unknown]
  split
  · rename_i some
    exact .bind (.inl ⟨rfl, by simpa using some, rfl⟩)
  · rename_i none
    have known : st.1.nonOutputs values = [] := by simpa using none
    refine (assigns_exact values active).imp ?_ ?_
    · intro _ st' sets
      exact ⟨known, sets⟩
    · intro e st' stops
      exact .inr ⟨known, stops⟩

/-- The outputs that are assigned, one after the other. -/
def deliver (slots : List (Option Value)) (log : List (Nat × Value)) : List (Option Value) :=
  log.foldl (fun slots e => slots.set e.1 (some e.2)) slots

theorem Sets.ports (sets : Sets st port value i v st') :
    st'.1 = { st.1 with slots := st.1.slots.set i (some v) } := by
  cases sets with
  | signal stands type => rfl
  | constant stands hs P constant result => rfl

theorem Sets.typed (sets : Sets st port value i v st') :
    ∃ p, st.1.outputs[i]? = some p ∧ v.type = p.type := by
  cases sets with
  | signal stands type => exact ⟨_, stands.position, type⟩
  | constant stands hs P constant result =>
      refine ⟨_, stands.position, ?_⟩
      have types := constant.types
      rw [result] at types
      exact (List.cons.inj types).1

theorem SetsAll.ports {values : List (Ident × PortValue)} {log : List (Nat × Value)}
    (sets : SetsAll st values log st') :
    st'.1 = { st.1 with slots := deliver st.1.slots log } := by
  induction sets with
  | nil st => rfl
  | cons first others ih =>
      rw [ih, first.ports]
      rfl

theorem SetsAll.typed {values : List (Ident × PortValue)} {log : List (Nat × Value)}
    (sets : SetsAll st values log st') :
    ∀ e ∈ log, ∃ p, st.1.outputs[e.1]? = some p ∧ e.2.type = p.type := by
  induction sets with
  | nil st => exact fun e h => absurd h List.not_mem_nil
  | cons first others ih =>
      intro e h
      rcases List.mem_cons.mp h with rfl | h
      · exact first.typed
      · have later := ih e h
        rwa [first.ports] at later

end Ports

namespace PortCall

/-- What becomes of a call at the ports: how it is answered, which values it delivers to which
outputs, in order, and what it leaves. -/
inductive Outcome (st : PortState U) :
    (c : PortCall) → Except Error c.Result → List (Nat × Value) → PortState U → Prop
  | read (port : Ident) : Outcome st (.read port) (st.1.read (Ports.owner st) port) [] st
  | check : Outcome st .check (st.1.check (Ports.owner st)) [] st
  | owner : Outcome st .owner (.ok (Ports.owner st)) [] st
  | system : Outcome st .system (.ok st.1.system) [] st
  | assigned {port : Ident} {value : PortValue} {i : Nat} {v : Value} {st' : PortState U}
      (sets : Ports.Sets st port value i v st') :
      Outcome st (.assign port value) (.ok ()) [(i, v)] st'
  | refused {port : Ident} {value : PortValue} {e : Error}
      (why : Ports.Refuses st port value e) : Outcome st (.assign port value) (.error e) [] st
  | unknown {values : List (Ident × PortValue)} (some : st.1.nonOutputs values ≠ []) :
      Outcome st (.assignAll values)
        (.error (.ofKind (.unknownPorts (Ports.owner st) (st.1.nonOutputs values)))) [] st
  | assignedAll {values : List (Ident × PortValue)} {log : List (Nat × Value)} {st' : PortState U}
      (known : st.1.nonOutputs values = []) (sets : Ports.SetsAll st values log st') :
      Outcome st (.assignAll values) (.ok ()) log st'
  | stopped {before after : List (Ident × PortValue)} {port : Ident} {value : PortValue}
      {log : List (Nat × Value)} {st' : PortState U} {e : Error}
      (known : st.1.nonOutputs (before ++ (port, value) :: after) = [])
      (sets : Ports.SetsAll st before log st') (why : Ports.Refuses st' port value e) :
      Outcome st (.assignAll (before ++ (port, value) :: after)) (.error e) log st'

variable {st st' : PortState U} {c : PortCall}

theorem perform_exact (active : Ports.Active st) (c : PortCall) :
    c.perform.Ends st (fun r st' => ∃ log, c.Outcome st (.ok r) log st')
      fun e st' => ∃ log, c.Outcome st (.error e) log st' := by
  cases c with
  | read port =>
      refine .bind (Effect.ends_get.mpr (Effect.ends_ofExcept (fun v read => ?_) fun e no => ?_))
      · exact ⟨[], read ▸ .read port⟩
      · exact ⟨[], no ▸ .read port⟩
  | assign port value =>
      refine (Ports.assign_exact active port value).imp ?_ ?_
      · rintro _ st' ⟨-, i, v, sets⟩
        exact ⟨[(i, v)], .assigned sets⟩
      · rintro e _ ⟨rfl, why⟩
        exact ⟨[], .refused why⟩
  | assignAll values =>
      refine (Ports.assignAll_exact active values).imp ?_ ?_
      · rintro _ st' ⟨known, log, sets⟩
        exact ⟨log, .assignedAll known sets⟩
      · rintro e st' (⟨rfl, some, rfl⟩ | ⟨known, before, port, value, after, log, rfl, sets, why⟩)
        · exact ⟨[], .unknown some⟩
        · exact ⟨log, .stopped known sets why⟩
  | check =>
      refine .bind (Effect.ends_get.mpr (Effect.ends_ofExcept (fun u all => ?_) fun e no => ?_))
      · exact ⟨[], all ▸ .check⟩
      · exact ⟨[], no ▸ .check⟩
  | owner => exact .bind ⟨[], .owner⟩
  | system => exact .bind ⟨[], .system⟩

theorem outcome_exact (active : Ports.Active st) (c : PortCall) :
    ∃ log, c.Outcome st (c.perform.outcome st).1 log (c.perform.outcome st).2 := by
  have ends := perform_exact active c
  unfold Effect.outcome
  cases h : c.perform st with
  | ok r st' => exact ends.of_ok h
  | error e st' => exact ends.of_error h

variable {answer : Except Error c.Result} {log : List (Nat × Value)}

theorem Outcome.ports (o : c.Outcome st answer log st') :
    st'.1 = { st.1 with slots := Ports.deliver st.1.slots log } := by
  cases o with
  | read | check | owner | system | refused | unknown => rfl
  | assigned sets => exact sets.ports
  | assignedAll known sets => exact sets.ports
  | stopped known sets why => exact sets.ports

theorem Outcome.typed (o : c.Outcome st answer log st') :
    ∀ e ∈ log, ∃ p, st.1.outputs[e.1]? = some p ∧ e.2.type = p.type := by
  cases o with
  | read | check | owner | system | refused | unknown => exact fun e h => absurd h List.not_mem_nil
  | assigned sets =>
      intro e h
      obtain rfl := List.mem_singleton.mp h
      exact sets.typed
  | assignedAll known sets => exact sets.typed
  | stopped known sets why => exact sets.typed

end PortCall

end Hardware
