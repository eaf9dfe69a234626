import Hardware.Machine
import Hardware.Proofs.Activation

/-!
Runs of the machine. Every step makes a move, so in each state that a session reaches,
nested bodies and failed ones included, the workspace hosts the generators on the stack.
-/
namespace Hardware

variable {U : UserCode} {ρ : Type}

/-- The generators that wait on a stack for an answer, from the innermost to the outermost. -/
def Stack.activations : {a : Awaited} → Stack U ρ a → List GeneratorRun
  | _, .session _ => []
  | _, .generator run _ below => run :: below.activations
  | _, .producer _ _ below => below.activations
  | _, .worklist _ below => below.activations

/-- The generators that have begun and not ended. -/
def Control.activations : Control U ρ → List GeneratorRun
  | .halted _ => []
  | .session _ => []
  | .generator run _ below => run :: below.activations
  | .producer _ _ below => below.activations
  | .entering _ below => below.activations
  | .answering _ below => below.activations

/-- The call that the next step makes. -/
def Control.call? : Control U ρ → Option (Call U)
  | .session (.call c _) => some c
  | .generator _ (.call c _) _ => some c
  | .producer _ (.call c _) _ => some c
  | _ => none

/-- A call is made by the session, by a generator or by a producer. -/
theorem Control.call?_cases {control : Control U ρ} {c : Call U} (calls : control.call? = some c) :
    (∃ next, control = .session (.call c next)) ∨
      (∃ run next below, control = .generator run (.call c next) below) ∨
        ∃ run next below, control = .producer run (.call c next) below := by
  unfold call? at calls
  split at calls
  · cases calls
    exact .inl ⟨_, rfl⟩
  · cases calls
    exact .inr (.inl ⟨_, _, _, rfl⟩)
  · cases calls
    exact .inr (.inr ⟨_, _, _, rfl⟩)
  · cases calls

/-- The call is answered without an error. -/
def Call.Succeeds (c : Call U) (ws : Workspace U) : Prop := ∃ r ws', c.perform ws = .ok r ws'

namespace Machine

variable {P : Program U} {M : Machine U ρ} {ws : Workspace U}

/-- What the next step may do, if whatever it pushes into the systems `checked` has to verify. -/
def permit (checked : SystemId → Prop) (M : Machine U ρ) : Permit where
  verified s := checked s ∧ ∀ c, M.control.call? = some c → c.Succeeds M.workspace
  made s m := ∃ c, M.control.call? = some c ∧ c.Adds s m
  queued s m := ∃ c, M.control.call? = some c ∧ c.Adds s m ∧ c.Succeeds M.workspace
  brought op := ∃ s loc, M.control.call? = some (.importModule s op loc)
  drained s := ∃ below, M.control = .entering (.generate s) below
  assigned v := ∃ run c next below, M.control = .generator run (.port c next) below ∧ v ∈ c.signals

/-- The machines that a session can lead to. -/
inductive Reachable (P : Program U) : Machine U ρ → Prop
  | initial (state : U.State) (session : Script U ρ) : Reachable P (initial state session)
  | step {M : Machine U ρ} (h : Reachable P M) : Reachable P (step P M)

theorem Reachable.iterate (h : Reachable P M) (n : Nat) : Reachable P ((Machine.step P)^[n] M) := by
  induction n with
  | zero => exact h
  | succ n ih =>
      rw [Function.iterate_succ_apply']
      exact ih.step

theorem permit_le {checked : SystemId → Prop} {c : Call U} (calls : M.control.call? = some c)
    (succeeds : c.Succeeds M.workspace) : (c.permit checked).Le (M.permit checked) where
  verified _ v := v.1
  made _ _ adds := ⟨c, calls, adds⟩
  queued _ _ adds := ⟨c, calls, adds, succeeds⟩
  brought op := by
    rintro ⟨s, loc, rfl⟩
    exact ⟨s, loc, calls⟩

theorem permit_failed_le {checked : SystemId → Prop} {c : Call U}
    (calls : M.control.call? = some c) (fails : ¬ c.Succeeds M.workspace) :
    (c.permit checked).failed.Le (M.permit checked) where
  verified _ v := fails (v.2 c calls)
  made _ _ adds := ⟨c, calls, adds⟩
  queued _ _ no := False.elim no
  brought op := by
    rintro ⟨s, loc, rfl⟩
    exact ⟨s, loc, calls⟩

/-- What a call does that is made in the next step. -/
theorem call_move (h : M.workspace.Sound) {checked : SystemId → Prop} {c : Call U}
    (calls : M.control.call? = some c) (fits : c.Fits checked M.workspace)
    (runs : List GeneratorRun) :
    Workspace.Move (M.permit checked) M.workspace runs (c.perform.outcome M.workspace).2 runs := by
  have ends := c.perform_ends h fits
  refine .call ?_
  unfold Effect.outcome
  cases hc : c.perform M.workspace with
  | ok r ws' => exact Workspace.Changes.mono (permit_le calls ⟨r, ws', hc⟩) (ends.of_ok hc).1
  | error e ws' =>
      refine Workspace.Changes.mono (permit_failed_le calls ?_) (ends.of_error hc)
      rintro ⟨r, ws'', ok⟩
      rw [hc] at ok
      cases ok

theorem step_call {c : Call U} (calls : M.control.call? = some c) :
    (step P M).workspace = (c.perform.outcome M.workspace).2 ∧
      ∀ a (e : Entry a) st, M.control ≠ .entering e st := by
  obtain ⟨ws, control⟩ := M
  constructor
  · rcases Control.call?_cases calls with
      ⟨next, rfl⟩ | ⟨run, next, below, rfl⟩ | ⟨run, next, below, rfl⟩
    · rfl
    · rfl
    · rfl
  · intro a e st entering
    cases entering
    cases calls

theorem nextWaiting_move {p : Permit} (ws : Workspace U) (s : SystemId) (drained : p.drained s)
    (below : Stack U ρ .generation) :
    Workspace.Move p ws below.activations (nextWaiting ws s below).workspace
      (nextWaiting ws s below).control.activations := by
  unfold nextWaiting
  split
  · exact .call .refl
  · rename_i sys hs
    split
    · exact .call .refl
    · rename_i m rest first
      simp only
      split <;> exact .pop drained hs first

theorem start_begins {s : SystemId} {m : ModuleId} {run : GeneratorRun} {code : U.GeneratorCode}
    {ws' : Workspace U} (hb : Workspace.beginGeneration s m ws = .ok (run, code) ws')
    (below : Stack U ρ .generation) :
    start P ws (.generateModule s m) below = ⟨ws', .generator run (P.generator code) below⟩ := by
  simp only [start, hb]

theorem start_refused {s : SystemId} {m : ModuleId} {e : Error} {ws' : Workspace U}
    (hb : Workspace.beginGeneration s m ws = .error e ws') (below : Stack U ρ .generation) :
    start P ws (.generateModule s m) below = ⟨ws', .answering (.error e) below⟩ := by
  simp only [start, hb]

theorem start_callFactory (f : FactoryId) (c : CacheId) (args : Args)
    (below : Stack U ρ .production) :
    (start P ws (.callFactory f c args) below).workspace = ws ∧
      (start P ws (.callFactory f c args) below).control.activations = below.activations := by
  have ends := @Workspace.beginProduction_ends _ ws f c args
  cases hb : Workspace.beginProduction f c args ws with
  | ok r ws' => cases r <;> simp only [start, hb] <;> exact ⟨ends.of_ok hb, rfl⟩
  | error e ws' =>
      simp only [start, hb]
      exact ⟨ends.of_error hb, rfl⟩

/-- What the next step does to the workspace. -/
inductive Acts (P : Program U) (M : Machine U ρ) : Workspace U → Prop
  | call {c : Call U} (calls : M.control.call? = some c) :
      Acts P M (c.perform.outcome M.workspace).2
  | port {run : GeneratorRun} {c : PortCall} {next : Except Error c.Result → _}
      {below : Stack U ρ .generation} (asks : M.control = .generator run (.port c next) below) :
      Acts P M (c.perform.outcome (run.ports, M.workspace)).2.2
  | generated {run : GeneratorRun} {result : GeneratorResult} {below : Stack U ρ .generation}
      (last : M.control = .generator run (.done result) below) :
      Acts P M ((Workspace.endGeneration run result).outcome M.workspace).2
  | produced {run : ProducerRun} {result : ProducerResult} {below : Stack U ρ .production}
      (last : M.control = .producer run (.done result) below) :
      Acts P M ((Workspace.endProduction run result).outcome M.workspace).2
  | drains {s : SystemId} {below : Stack U ρ .generation}
      (entering : M.control = .entering (.generate s) below) :
      Acts P M (nextWaiting M.workspace s below).workspace
  | begins {s : SystemId} {m : ModuleId} {below : Stack U ρ .generation}
      (entering : M.control = .entering (.generateModule s m) below) :
      Acts P M (start P M.workspace (.generateModule s m) below).workspace
  | still : Acts P M M.workspace

theorem step_acts (P : Program U) (M : Machine U ρ) : Acts P M (step P M).workspace := by
  obtain ⟨ws, control⟩ := M
  cases control with
  | halted result => exact .still
  | session script =>
      cases script with
      | done r => exact .still
      | call c next => exact .call rfl
      | port c next => exact .still
      | enter e next => exact .still
  | generator run script below =>
      cases script with
      | done r => exact .generated rfl
      | call c next => exact .call rfl
      | port c next => exact .port rfl
      | enter e next => exact .still
  | producer run script below =>
      cases script with
      | done r => exact .produced rfl
      | call c next => exact .call rfl
      | port c next => exact .still
      | enter e next => exact .still
  | entering e below =>
      cases e with
      | generate s => exact .drains rfl
      | generateModule s m => exact .begins rfl
      | callFactory f c args =>
          rw [step, (start_callFactory f c args below).1]
          exact .still
  | answering answer below =>
      cases below with
      | session next => exact .still
      | generator run next below => exact .still
      | producer run next below => exact .still
      | worklist s below => cases answer <;> exact .still

theorem generateModule_move {p : Permit} (h : ws.Sound) (s : SystemId) (m : ModuleId)
    (below : Stack U ρ .generation) :
    Workspace.Move p ws below.activations (start P ws (.generateModule s m) below).workspace
      (start P ws (.generateModule s m) below).control.activations := by
  have ends := Workspace.beginGeneration_ends h s m
  cases hb : Workspace.beginGeneration s m ws with
  | ok r ws' =>
      obtain ⟨sym, mid, created, opens⟩ := ends.of_ok hb
      rw [start_begins hb]
      exact .begins created opens
  | error e ws' =>
      rw [start_refused hb, (ends.of_error hb).1]
      exact .call .refl

theorem step_done {run : GeneratorRun} (result : GeneratorResult) (below : Stack U ρ .generation)
    {sys : System} (hs : ws.system? run.system = some sys) :
    (∃ ws', ws.Closes run ws' ∧ step P ⟨ws, .generator run (.done result) below⟩ =
        ⟨ws', .answering (a := .generation) (.ok ()) below⟩) ∨
      ∃ e ws', ws.Unwinds run ws' ∧ step P ⟨ws, .generator run (.done result) below⟩ =
        ⟨ws', .answering (a := .generation) (.error e) below⟩ := by
  have ends := Workspace.endGeneration_ends run result hs
  cases he : Workspace.endGeneration run result ws with
  | ok u ws' =>
      refine .inl ⟨ws', ends.of_ok he, ?_⟩
      simp only [step, stepGenerator, Effect.outcome, he]
  | error e ws' =>
      refine .inr ⟨e, ws', ends.of_error he, ?_⟩
      simp only [step, stepGenerator, Effect.outcome, he]

/-- Each step makes a move within its permit. -/
theorem step_move (P : Program U) (M : Machine U ρ) {checked : SystemId → Prop}
    (h : M.workspace.Hosts M.control.activations)
    (fits : ∀ c, M.control.call? = some c → c.Fits checked M.workspace) :
    Workspace.Move (M.permit checked) M.workspace M.control.activations (step P M).workspace
      (step P M).control.activations := by
  obtain ⟨ws, control⟩ := M
  cases control with
  | halted result => exact .call .refl
  | session script =>
      cases script with
      | done r => exact .call .refl
      | call c next => exact call_move h.sound rfl (fits c rfl) _
      | port c next => exact .call .refl
      | enter e next => exact .call .refl
  | generator run script below =>
      cases script with
      | done r =>
          obtain ⟨sys, scope, outer, hs, -⟩ := h.top
          rcases step_done (P := P) r below hs with ⟨ws', closes, same⟩ | ⟨e, ws', unwinds, same⟩
          · rw [same]
            exact .closes closes
          · rw [same]
            exact .unwinds unwinds
      | call c next => exact call_move h.sound rfl (fits c rfl) _
      | port c next =>
          have sound : ((run.ports, ws) : PortState U).2.Sound := h.sound
          have ends := (c.perform_ends sound (permit checked
            (⟨ws, .generator run (.port c next) below⟩ : Machine U ρ))).imp
              (fun _ _ ok => ok.1) fun _ _ no => no
          have stepped := ends.outcome
          exact .port stepped fun v hv => ⟨run, c, next, below, rfl, hv⟩
      | enter e next => exact .call .refl
  | producer run script below =>
      cases script with
      | done r => exact .call (Workspace.endProduction_ends _ run r |>.imp
          (fun _ _ ok => ok) (fun _ _ no => no ▸ .refl)).outcome
      | call c next => exact call_move h.sound rfl (fits c rfl) _
      | port c next => exact .call .refl
      | enter e next => exact .call .refl
  | entering e below =>
      cases e with
      | generate s =>
          refine nextWaiting_move ws s ?_ below
          exact ⟨below, rfl⟩
      | generateModule s m => exact generateModule_move h.sound s m below
      | callFactory f c args =>
          obtain ⟨same, runs⟩ := @start_callFactory _ _ P ws f c args below
          rw [step, same, runs]
          exact .call .refl
  | answering answer below =>
      cases below with
      | session next => exact .call .refl
      | generator run next below => exact .call .refl
      | producer run next below => exact .call .refl
      | worklist s below =>
          cases answer with
          | ok u => exact .call .refl
          | error e => exact .call .refl

theorem hosts_initial (state : U.State) (session : Script U ρ) :
    (initial state session).workspace.Hosts (initial state session).control.activations := by
  refine ⟨⟨fun m x h => ?_, fun s sys h => ?_, fun i x h => ?_⟩, fun run h => ?_, fun s sys h => ?_⟩
  · simp [initial, Workspace.module?] at h
  · simp [initial, Workspace.system?] at h
  · simp [initial, Workspace.instance?] at h
  · cases h
  · simp [initial, Workspace.system?] at h

theorem Reachable.hosts (h : Reachable P M) : M.workspace.Hosts M.control.activations := by
  induction h with
  | initial state session => exact hosts_initial state session
  | step _ ih =>
      exact (step_move P _ ih fun c _ => c.fits_of_unchecked (fun _ no => no) _).hosts ih

theorem Reachable.hosts_entering {a : Awaited} {e : Entry a} {below : Stack U ρ a}
    (h : Reachable P M) (entering : M.control = .entering e below) :
    M.workspace.Hosts below.activations := by
  simpa only [entering, Control.activations] using h.hosts

theorem Reachable.hosts_answering {a : Awaited} {answer : Except Error a.Result}
    {below : Stack U ρ a} (h : Reachable P M) (answering : M.control = .answering answer below) :
    M.workspace.Hosts below.activations := by
  simpa only [answering, Control.activations] using h.hosts

theorem Reachable.move (h : Reachable P M) :
    Workspace.Move (M.permit fun _ => False) M.workspace M.control.activations
      (Machine.step P M).workspace (Machine.step P M).control.activations :=
  step_move P M h.hosts fun c _ => c.fits_of_unchecked (fun _ no => no) _

theorem Reachable.ends (h : Reachable P M) {run : GeneratorRun} {result : GeneratorResult}
    {below : Stack U ρ .generation} (last : M.control = .generator run (.done result) below) :
    M.workspace.Closes run (Machine.step P M).workspace ∧
        (Machine.step P M).control = .answering (a := .generation) (.ok ()) below ∨
      M.workspace.Unwinds run (Machine.step P M).workspace ∧
        ∃ e, (Machine.step P M).control = .answering (a := .generation) (.error e) below := by
  obtain ⟨ws, control⟩ := M
  cases last
  obtain ⟨sys, scope, outer, hs, -⟩ := Workspace.Hosts.top h.hosts
  rcases step_done (P := P) result below hs with ⟨ws', closes, same⟩ | ⟨e, ws', unwinds, same⟩
  · rw [same]
    exact .inl ⟨closes, rfl⟩
  · rw [same]
    exact .inr ⟨unwinds, e, rfl⟩

/-- Whether the generator ends well or fails, what waits for it is answered. -/
theorem Reachable.answers (h : Reachable P M) {run : GeneratorRun} {result : GeneratorResult}
    {below : Stack U ρ .generation} (last : M.control = .generator run (.done result) below) :
    ∃ answer, (Machine.step P M).control = .answering (a := .generation) answer below := by
  rcases h.ends last with ⟨-, same⟩ | ⟨-, e, same⟩
  · exact ⟨_, same⟩
  · exact ⟨_, same⟩

theorem Reachable.extends (h : Reachable P M) (n : Nat) :
    M.workspace.Extends ((Machine.step P)^[n] M).workspace := by
  induction n with
  | zero => exact .refl _
  | succ n ih =>
      rw [Function.iterate_succ_apply']
      exact ih.trans (h.iterate n).move.extends

end Machine

/-! A small session, in which the module `Top` is generated and instantiates `Leaf`. -/
namespace Sample

/-- The generators of the two modules are told apart by a Boolean, and share a counter. -/
abbrev code : UserCode := ⟨Bool, Unit, Nat⟩

/-- A module with an output `o` of one bit. -/
def decl (name : Ident) (g : Bool) : Declaration Bool :=
  ((Declaration.new name .unknown).output "o" (.bits 1)).generator "build" g .unknown

/-- `Leaf` and `Top` are declared, `Top` is added to a system, and then comes `rest`. -/
def session (rest : Script code Unit) : Script code Unit :=
  .call (.newSystem "design" {}) fun _ =>
    .call (.declare (decl "Leaf" false)) fun _ =>
      .call (.declare (decl "Top" true)) fun _ => .call (.addTop ⟨0⟩ ⟨1⟩) fun _ => rest

/-- Sets the output to one. -/
def leaf : Script code GeneratorResult :=
  .port (.assign "o" (.constant (.int 1))) fun _ => .done (.ok .nothing)

/-- Instantiates `Leaf`, and hands its output on to `rest`. -/
def instantiating (rest : Signal → Script code GeneratorResult) : Script code GeneratorResult :=
  .call (.instantiate ⟨0⟩ ⟨0⟩ { inputs := [], loc := .unknown }) fun built =>
    .call .snapshot fun seen =>
      match built, seen with
      | .ok i, .ok ws =>
        match ws.output i "o" with
        | .ok v => rest v
        | .error e => .done (.error e)
      | _, _ => .done (.ok .nothing)

/-- Instantiates `Leaf`, and connects its output. -/
def top : Script code GeneratorResult :=
  instantiating fun v => .port (.assign "o" (.signal v)) fun _ => .done (.ok .nothing)

/-- The program with `body` as the generator of `Top`. -/
def program (body : Script code GeneratorResult) : Program code where
  generator g := if g then body else leaf
  producer _ _ := .done (.error (.internal .unknownHandle))

/-- The machine after `n` steps of a session. -/
def after (P : Program code) (rest : Script code Unit) (n : Nat) : Machine code Unit :=
  (Machine.step P)^[n] (Machine.initial (0 : Nat) (session rest))

theorem reachable (P : Program code) (rest : Script code Unit) (n : Nat) :
    Machine.Reachable P (after P rest n) :=
  (Machine.Reachable.initial (0 : Nat) (session rest)).iterate n

/-- The session that generates all that waits. -/
def generating : Script code Unit := .enter (.generate ⟨0⟩) fun _ => .done ()

/-- What the session is just told of a generation that it asked for. -/
def generationAnswer? : Control code Unit → Option (Except Error Unit)
  | .answering (a := .generation) answer (.session _) => some answer
  | _ => none

end Sample

end Hardware
