import Hardware.Instantiation
import Hardware.Proofs.Frame

/-!
The operation of a module in a design. A declared module always gets one; an imported one
brings its own along, which moves at most once and only to a free symbol.
-/
namespace Hardware

variable {U : UserCode}

/-- `m` gets no operation in `sys`: the one that it brought along was moved, or its symbol is
taken. -/
def System.Refuses (sys : System) (m : ModuleId) (x : Module U.GeneratorCode) : Prop :=
  sys.symbolOf? m = none ∧ ∃ held, x.origin = .imported held ∧
    (held = none ∨ sys.design.findModule? x.name ≠ none)

theorem System.Refuses.imported {sys : System} {m : ModuleId} {x : Module U.GeneratorCode}
    (r : sys.Refuses m x) : x.isImported = true := by
  obtain ⟨-, held, origin, -⟩ := r
  exact Workspace.isImported_of_origin origin

theorem Module.Sound.name_eq {x : Module U.GeneratorCode} (h : x.Sound) {op : ModuleOp}
    (held : x.origin = .imported (some op)) : x.name = op.sym := by
  unfold Module.name
  rw [h.held op held]

namespace Workspace

variable {ws ws' : Workspace U} {s : SystemId} {m : ModuleId}

/-- How `m` comes to have an operation in `s`: it had one, or one is created, or the one
that it brought along moves in. -/
inductive Created (ws : Workspace U) (s : SystemId) (m : ModuleId) : Ident → Workspace U → Prop
  | cached {sys : System} {sym : Ident} (hs : ws.system? s = some sys)
      (hsym : sys.symbolOf? m = some sym) : Created ws s m sym ws
  | declared {sys : System} {x : Module U.GeneratorCode} (hs : ws.system? s = some sys)
      (hx : ws.module? m = some x) (declared : x.isImported = false)
      (new : sys.symbolOf? m = none) :
      Created ws s m (sys.freshSymbol x) (ws.setSystem s (sys.create m x))
  | imported {sys : System} {x : Module U.GeneratorCode} {op : ModuleOp}
      (hs : ws.system? s = some sys) (hx : ws.module? m = some x)
      (held : x.origin = .imported (some op)) (new : sys.symbolOf? m = none)
      (free : sys.design.findModule? op.sym = none) :
      Created ws s m op.sym
        ((ws.setModule m { x with origin := .imported none }).setSystem s (sys.adopt m op))

theorem Created.changes {sym : Ident} {p : Permit} (made : p.made s m)
    (c : Created ws s m sym ws') : Changes p ws ws' := by
  cases c with
  | cached => exact .refl
  | declared hs hx declared new => exact .single (.create hs hx declared new made)
  | imported hs hx held new free => exact .single (.adopt hs hx held new free made)

/-- Then the system knows the operation, and nothing else has changed for its generators. -/
theorem Created.symbolOf? {sym : Ident} (c : Created ws s m sym ws') :
    ∃ sys sys', ws.system? s = some sys ∧ ws'.system? s = some sys' ∧
      sys'.symbolOf? m = some sym ∧ sys'.running = sys.running ∧
      sys'.generated = sys.generated := by
  cases c with
  | cached hs hsym => exact ⟨_, _, hs, hs, hsym, rfl, rfl⟩
  | declared hs hx declared new =>
      exact ⟨_, _, hs, system?_setSystem_self hs _, OrderedMap.get?_insert_self _ _ _, rfl, rfl⟩
  | @imported sys x op hs hx held new free =>
      have there : (ws.setModule m { x with origin := .imported none }).system? s = some sys := hs
      exact ⟨_, _, hs, system?_setSystem_self there _, OrderedMap.get?_insert_self _ _ _, rfl, rfl⟩

/-- The operations that were there before stay as they are. -/
theorem Created.findModule? (h : ws.Sound) {sym : Ident} (c : Created ws s m sym ws')
    {sys sys' : System} (hs : ws.system? s = some sys) (hs' : ws'.system? s = some sys')
    {q : Ident} {op : ModuleOp} (hop : sys.design.findModule? q = some op) :
    sys'.design.findModule? q = some op := by
  cases c with
  | cached =>
      rw [hs] at hs'
      cases hs'
      exact hop
  | @declared old x hold hx declared new =>
      rw [hs] at hold
      cases hold
      rw [system?_setSystem_self hs] at hs'
      cases hs'
      have free := System.freshSymbol_free (h.systems s sys hs) x
      have other : q ≠ sys.freshSymbol x := fun e => by rw [e, free] at hop; cases hop
      exact (OrderedMap.get?_insert_ne _ _ other).trans hop
  | @imported old x op' hold hx held new free =>
      rw [hs] at hold
      cases hold
      have there : (ws.setModule m { x with origin := .imported none }).system? s = some sys := hs
      rw [system?_setSystem_self there] at hs'
      cases hs'
      have other : q ≠ op'.sym := fun e => by rw [e, free] at hop; cases hop
      exact (OrderedMap.get?_insert_ne _ _ other).trans hop

theorem Created.not_refuses (h : ws.Sound) {sym : Ident} (c : Created ws s m sym ws')
    {sys : System} {x : Module U.GeneratorCode} (hs : ws.system? s = some sys)
    (hx : ws.module? m = some x) : ¬ sys.Refuses m x := by
  rintro ⟨unknown, held, origin, cause⟩
  cases c with
  | cached hs' hsym =>
      rw [hs] at hs'
      cases hs'
      rw [unknown] at hsym
      cases hsym
  | declared hs' hx' declared new =>
      rw [hx] at hx'
      cases hx'
      rw [isImported_of_origin origin] at declared
      cases declared
  | imported hs' hx' brought new free =>
      rw [hs] at hs'
      rw [hx] at hx'
      cases hs'
      cases hx'
      rw [origin] at brought
      cases brought
      rcases cause with moved | taken
      · cases moved
      · rw [(h.modules m x hx).name_eq origin] at taken
        exact taken free

theorem Created.any {sym : Ident} (c : Created ws s m sym ws') : Changes .any ws ws' :=
  c.changes trivial

theorem createDeclared_ends {sys : System} (hs : ws.system? s = some sys) (m : ModuleId)
    (x : Module U.GeneratorCode) (free : sys.design.findModule? (sys.freshSymbol x) = none) :
    (createDeclared s x).Ends ws
      (fun sym ws' => sym = sys.freshSymbol x ∧
        ws' = ws.setSystem s { sys.create m x with symbols := sys.symbols })
      fun _ _ => False := by
  unfold createDeclared getSystem
  refine .bind (resolve_ends (fun sys' hs' => ?_) fun none => by rw [hs] at none; cases none)
  rw [hs] at hs'
  cases hs'
  apply onSystem_ends_of_some hs
  refine Effect.ends_on (.bind ?_)
  unfold Design.uniqueSymbol
  refine .bind ?_
  simp only [Effect.ends_get]
  refine .bind (Effect.ends_set.mpr (.bind ((Design.addModule_ends _ _).imp ?_ ?_)))
  · rintro sym _ ⟨rfl, -, rfl⟩
    unfold Design.addSymbolMetadata System.create System.records
    cases sys.conf.emitMetadata with
    | false => exact ⟨rfl, by simp [System.freshSymbol, Module.toOp]⟩
    | true =>
        refine .bind (.bind ?_)
        simp only [Effect.ends_get]
        refine .bind (Effect.ends_set.mpr ?_)
        exact ⟨rfl, rfl⟩
  · rintro e _ ⟨rfl, taken⟩
    exact taken free

theorem moveImport_ends {sys : System} {x : Module U.GeneratorCode} {held : Option ModuleOp}
    (hs : ws.system? s = some sys) (name : ∀ op, held = some op → x.name = op.sym) :
    (moveImport s m x held).Ends ws
      (fun sym ws' => ∃ op, held = some op ∧ sys.design.findModule? op.sym = none ∧
        sym = op.sym ∧ ws' = (ws.setModule m { x with origin := .imported none }).setSystem s
          { sys.adopt m op with symbols := sys.symbols })
      fun _ ws' => ws' = ws ∧ (held = none ∨ sys.design.findModule? x.name ≠ none) := by
  unfold moveImport getSystem
  refine .bind (resolve_ends (fun sys' hs' => ?_) fun none => by rw [hs] at none; cases none)
  rw [hs] at hs'
  cases hs'
  by_cases taken : (sys.design.findModule? x.name).isSome = true
  · rw [if_pos taken]
    exact .bind ⟨rfl, .inr (Option.isSome_iff_ne_none.mp taken)⟩
  · rw [if_neg taken]
    cases held with
    | none => exact ⟨rfl, .inl rfl⟩
    | some op =>
        rw [name op rfl] at taken
        have free : sys.design.findModule? op.sym = none := by simpa using taken
        refine .bind (Effect.ends_modify.mpr ?_)
        have there : (ws.setModule m { x with origin := .imported none }).system? s = some sys := hs
        apply onSystem_ends_of_some there
        refine Effect.ends_on ((Design.addModule_ends _ _).imp ?_ ?_)
        · rintro sym _ ⟨rfl, -, rfl⟩
          exact ⟨op, rfl, free, rfl, rfl⟩
        · rintro e _ ⟨rfl, defined⟩
          exact absurd free defined

/-- The creation of an operation can only fail for an imported module, and then changes
nothing. -/
theorem createOp_ends (h : ws.Sound) (s : SystemId) (m : ModuleId) :
    (createOp s m).Ends ws (fun sym ws' => Created ws s m sym ws')
      fun _ ws' => ws' = ws ∧ ∀ sys x, ws.system? s = some sys → ws.module? m = some x →
        sys.Refuses m x := by
  unfold createOp getModule getSystem
  refine .bind (resolve_ends (fun x hx => ?_) fun none => ⟨rfl, fun _ x _ hx => ?_⟩)
  · refine .bind (resolve_ends (fun sys hs => ?_) fun none => ⟨rfl, fun sys _ hs => ?_⟩)
    · cases hsym : sys.symbolOf? m with
      | some sym => exact .cached hs hsym
      | none =>
          simp only
          unfold recordSymbol
          cases ho : x.origin with
          | declared =>
              have declared : x.isImported = false := by
                unfold Module.isImported
                rw [ho]
              refine .bind ((createDeclared_ends hs m x
                (System.freshSymbol_free (h.systems s sys hs) x)).imp ?_ fun _ _ no => no.elim)
              rintro _ _ ⟨rfl, rfl⟩
              refine .bind (updateSystem_ends (system?_setSystem_self hs _) ?_)
              rw [setSystem_setSystem]
              exact .declared hs hx declared hsym
          | imported held =>
              have name : ∀ op, held = some op → x.name = op.sym := by
                rintro op rfl
                exact (h.modules m x hx).name_eq ho
              refine .bind ((moveImport_ends hs name).imp ?_ fun _ _ same => ?_)
              · rintro _ _ ⟨op, rfl, free, rfl, rfl⟩
                have there : (ws.setModule m { x with origin := .imported none }).system? s =
                  some sys := hs
                refine .bind (updateSystem_ends (system?_setSystem_self there _) ?_)
                rw [setSystem_setSystem]
                exact .imported hs hx ho hsym free
              · refine ⟨same.1, fun sys' y hs' hy => ?_⟩
                rw [hs] at hs'
                rw [hx] at hy
                cases hs'
                cases hy
                exact ⟨hsym, held, ho, same.2⟩
    · rw [none] at hs
      cases hs
  · rw [none] at hx
    cases hx

end Workspace

end Hardware
