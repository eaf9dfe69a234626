import Hardware.Proofs.Activation

/-!
Designs in which all that is there verifies. What the checks of the building steps establish
for an operation when it is pushed is never lost again, as long as no body is taken away.
-/
namespace Hardware

variable {U : UserCode}

namespace System

variable {sys sys' : System} {ws ws' : Workspace U}

/-- Each operation in a body verifies, and each module has a body that a generator fills, or
needs none. -/
structure Checked (ws : Workspace U) (sys : System) : Prop where
  homes : ∀ q op, sys.design.findModule? q = some op → op.isExternal = true ∨
    ∃ m x, ws.module? m = some x ∧ x.isImported = false ∧ sys.symbolOf? m = some q
  verified : ∀ q b, sys.design.body? q = some b → ∀ o ∈ b.ops,
    sys.design.verifyOp q o.id = .ok ()

theorem checked_new (name : Ident) (conf : SystemConf) : (System.new name conf).Checked ws where
  homes q op h := by simp [System.new, Design.findModule?] at h
  verified q b h := by simp [System.new, Design.body?, Design.findModule?] at h

theorem Checked.of_grows (c : sys.Checked ws) (e : ws.Extends ws')
    (symbols : ∀ m q, sys.symbolOf? m = some q → sys'.symbolOf? m = some q)
    (grows : sys.design.Grows sys'.design)
    (homes : ∀ q op', sys'.design.findModule? q = some op' →
      (∃ op, sys.design.findModule? q = some op ∧ op'.isExternal = op.isExternal) ∨
        op'.isExternal = true ∨
          ∃ m x, ws'.module? m = some x ∧ x.isImported = false ∧ sys'.symbolOf? m = some q)
    (verified : ∀ q b', sys'.design.body? q = some b' → ∀ o ∈ b'.ops,
      (∃ b, sys.design.body? q = some b ∧ o ∈ b.ops) ∨ sys'.design.verifyOp q o.id = .ok ()) :
    sys'.Checked ws' where
  homes q op' h := by
    rcases homes q op' h with ⟨op, hop, same⟩ | new
    · rcases c.homes q op hop with external | ⟨m, x, hx, declared, hm⟩
      · exact .inl (same.trans external)
      · obtain ⟨x', hx', -, imported⟩ := e.modules m x hx
        exact .inr ⟨m, x', hx', imported.trans declared, symbols m q hm⟩
    · exact new
  verified q b' hb o ho := by
    rcases verified q b' hb o ho with ⟨b, hb, ho⟩ | new
    · exact grows.verifyOp (c.verified q b hb o ho)
    · exact new

/-- The design and the symbols are all that matters. -/
theorem Checked.of_same (c : sys.Checked ws) (e : ws.Extends ws')
    (design : sys'.design = sys.design) (symbols : sys'.symbols = sys.symbols) :
    sys'.Checked ws' := by
  refine c.of_grows e (fun m q h => ?_) (design ▸ .refl _) (fun q op h => ?_) fun q b hb o ho => ?_
  · rwa [symbolOf?, symbols]
  · exact .inl ⟨op, design ▸ h, rfl⟩
  · exact .inl ⟨b, design ▸ hb, ho⟩

/-- Where no generator runs and none is missing, all modules are complete. -/
theorem Checked.complete (c : sys.Checked ws) (h : sys.Sound ws) (alone : sys.owners = [])
    (generated : ∀ m x sym, ws.module? m = some x → x.hasGenerator = true →
      sys.symbolOf? m = some sym → sys.isGenerated m = true)
    (q : Ident) (op : ModuleOp) (hop : sys.design.findModule? q = some op) :
    sys.design.Complete q op where
  body real := by
    rcases c.homes q op hop with external | ⟨m, x, hx, declared, hm⟩
    · rw [real] at external
      cases external
    · obtain ⟨y, op', hy, hop', carries⟩ := h.present m q hm
      rw [hx] at hy
      rw [hop] at hop'
      cases hy
      cases hop'
      cases gen : x.hasGenerator with
      | false =>
          rw [(carries declared).external gen] at real
          cases real
      | true =>
          obtain ⟨body, hk, stage⟩ := (carries declared).stage gen
          cases stage with
          | idle idle free =>
              rw [generated m x q hx gen hm] at idle
              cases idle
          | running marked owner opened =>
              rw [alone] at owner
              cases owner
          | complete marked free closed => exact ⟨_, hk, closed⟩
  verified b hb := by
    apply c.verified q b
    rw [Design.body?, hop]
    exact hb

/-- A new operation under a free symbol, without a body, leaves all in order. -/
theorem Checked.addOp (c : sys.Checked ws) (e : ws.Extends ws') {m : ModuleId} {op : ModuleOp}
    (new : sys.symbolOf? m = none) (free : sys.design.findModule? op.sym = none)
    (modules : sys'.design.modules = sys.design.modules.insert op.sym op)
    (symbols : sys'.symbols = sys.symbols.insert m op.sym) (bare : op.body? = none)
    (home : op.isExternal = true ∨ ∃ x, ws'.module? m = some x ∧ x.isImported = false) :
    sys'.Checked ws' := by
  have find : ∀ q, sys'.design.findModule? q =
      if q = op.sym then some op else sys.design.findModule? q := fun q => by
    unfold Design.findModule?
    rw [modules, OrderedMap.get?_insert]
  have self : sys'.symbolOf? m = some op.sym := by
    unfold symbolOf?
    rw [symbols, OrderedMap.get?_insert_self]
  refine c.of_grows e (fun n q h => ?_) (.insert free op modules) (fun q op' h => ?_)
    fun q b hb o ho => ?_
  · have other : n ≠ m := fun e => by rw [e, new] at h; cases h
    unfold symbolOf?
    rw [symbols, OrderedMap.get?_insert_ne _ _ other]
    exact h
  · rw [find] at h
    split at h
    · rename_i hq
      cases h
      refine .inr (home.imp_right ?_)
      rintro ⟨x, hx, declared⟩
      exact ⟨m, x, hx, declared, hq ▸ self⟩
    · exact .inl ⟨op', h, rfl⟩
  · unfold Design.body? at hb
    rw [find] at hb
    split at hb
    · rw [Option.bind_some, bare] at hb
      cases hb
    · exact .inl ⟨b, hb, ho⟩

/-- To push an operation that verifies leaves all in order. -/
theorem Checked.push (c : sys.Checked ws) (e : ws.Extends ws') {sym : Ident} {b : Block}
    {op : Operation} (body : sys.design.body? sym = some b)
    (design : sys'.design = sys.design.push sym b op) (symbols : sys'.symbols = sys.symbols)
    (verified : sys'.design.verifyOp sym op.id = .ok ()) : sys'.Checked ws' := by
  have find : ∀ q, sys'.design.findModule? q =
      if q = sym then (sys.design.findModule? q).map fun m => m.withBody (some (b.push op))
      else sys.design.findModule? q := fun q => by
    rw [design, Design.findModule?_push]
  obtain ⟨mop, hop, hk⟩ := Design.kind_of_body? body
  refine c.of_grows e (fun m q h => ?_) (design ▸ .push body op) (fun q op' h => ?_)
    fun q b' hb o ho => ?_
  · rwa [symbolOf?, symbols]
  · rw [find] at h
    split at h
    · obtain ⟨old, hold, rfl⟩ := Option.map_eq_some_iff.mp h
      exact .inl ⟨old, hold, ModuleOp.withBody_isExternal old _⟩
    · exact .inl ⟨op', h, rfl⟩
  · by_cases hq : q = sym
    · subst hq
      have pushed : sys'.design.body? q = some (b.push op) := by
        refine Design.body?_of_kind ?_ (ModuleOp.kind_withBody hk)
        rw [find, if_pos rfl, hop]
        rfl
      rw [hb] at pushed
      cases pushed
      rcases List.mem_append.mp ho with ho | ho
      · exact .inl ⟨b, body, ho⟩
      · rw [List.mem_singleton.mp ho]
        exact .inr verified
    · refine .inl ⟨b', ?_, ho⟩
      unfold Design.body? at *
      rwa [find, if_neg hq] at hb

/-- To open an empty body leaves all in order. -/
theorem Checked.opened (c : sys.Checked ws) (e : ws.Extends ws') {m : ModuleId}
    {site : GeneratorSite} {op : ModuleOp}
    (hop : sys.design.findModule? site.ip.owner = some op) (hk : op.kind = .real none)
    (args : List Value) : (sys.opened m site args).Checked ws' := by
  have find : ∀ q, (sys.opened m site args).design.findModule? q =
      if q = site.ip.owner then (sys.design.findModule? q).map fun m => m.withBody (some { args })
      else sys.design.findModule? q := fun q => Design.findModule?_setBody _ _ q _
  refine c.of_grows e (fun m q h => h) (.of_find hop (.withBody hk _) find) (fun q op' h => ?_)
    fun q b hb o ho => ?_
  · rw [find] at h
    split at h
    · obtain ⟨old, hold, rfl⟩ := Option.map_eq_some_iff.mp h
      exact .inl ⟨old, hold, ModuleOp.withBody_isExternal old _⟩
    · exact .inl ⟨op', h, rfl⟩
  · by_cases hq : q = site.ip.owner
    · subst hq
      have opened : (sys.opened m site args).design.body? site.ip.owner = some { args } := by
        refine Design.body?_of_kind ?_ (ModuleOp.kind_withBody hk)
        rw [find, if_pos rfl, hop]
        rfl
      rw [hb] at opened
      cases opened
      cases ho
    · refine .inl ⟨b, ?_, ho⟩
      unfold Design.body? at *
      rwa [find, if_neg hq] at hb

end System

namespace Workspace

variable {ws ws' : Workspace U} {s : SystemId} {p : Permit}

/-- What modules bring along passes a test. -/
def Brings (ok : ModuleOp → Prop) (ws : Workspace U) : Prop :=
  ∀ m x op, ws.module? m = some x → x.origin = .imported (some op) → ok op

section Brings

variable {ok : ModuleOp → Prop}

theorem Brings.of_modules (i : ws.Brings ok) (modules : ws'.modules = ws.modules) :
    ws'.Brings ok := by
  intro m x op hx held
  refine i m x op ?_ held
  rwa [module?, ← modules]

theorem Brings.setModule (i : ws.Brings ok) {m : ModuleId} {x x' : Module U.GeneratorCode}
    (hx : ws.module? m = some x)
    (held : ∀ op, x'.origin = .imported (some op) → x.origin = .imported (some op)) :
    (ws.setModule m x').Brings ok := by
  intro n y op hy origin
  rw [module?_setModule hx] at hy
  split at hy
  · cases hy
    exact i m x op hx (held op origin)
  · exact i n y op hy origin

theorem Change.brings (i : ws.Brings ok) (c : Change p ws ws')
    (brought : ∀ op, p.brought op → ok op) : ws'.Brings ok := by
  cases c with
  | aside modules instances systems => exact i.of_modules modules
  | addSystem name conf => exact i.of_modules rfl
  | addModule sound held =>
      intro m x op hx origin
      rw [module?, List.getElem?_append] at hx
      split at hx
      · exact i m x op hx origin
      · have new := List.mem_singleton.mp (List.mem_of_getElem? hx)
        subst new
        exact brought op (held op origin)
  | setParameters hx params => exact i.setModule hx fun op held => held
  | create hs hx declared new made => exact i.of_modules rfl
  | adopt hs hx held new free made =>
      refine Brings.of_modules (i.setModule hx fun op origin => ?_) rfl
      cases origin
  | push hs top body inner id verified => exact i.of_modules rfl
  | grant hs top base => exact i.of_modules rfl
  | enqueue hs hx gen hsym queued => exact i.of_modules rfl
  | track hs placed within => exact i.of_modules rfl
  | release j => exact fun m x op hx => i m x op (by simpa using hx)
  | forget hs => exact fun m x op hx => i m x op (by simpa using hx)

theorem Changes.brings (i : ws.Brings ok) (c : Changes p ws ws')
    (brought : ∀ op, p.brought op → ok op) : ws'.Brings ok := by
  induction c with
  | refl => exact i
  | tail some step ih => exact step.brings ih brought

theorem Move.brings {runs runs' : List GeneratorRun} (i : ws.Brings ok)
    (step : Move p ws runs ws' runs') (brought : ∀ op, p.brought op → ok op) : ws'.Brings ok := by
  cases step with
  | call c => exact Changes.brings i c brought
  | port step allowed => exact Changes.brings i step.changes brought
  | pop drained hs first => exact i.of_modules rfl
  | @begins mid _ _ t m _ _ _ created opens =>
      have made : (Permit.creating t m).made t m := ⟨rfl, rfl⟩
      have before := Changes.brings i (created.changes made) fun op no => no.elim
      cases opens with
      | intro site hs => exact before.of_modules rfl
  | closes c =>
      cases c with
      | intro hs => exact i.of_modules rfl
  | unwinds u =>
      cases u with
      | intro hs => exact fun m x op hx => i m x op (by simpa using hx)

end Brings

/-- What is brought along is external. -/
def Imports (ws : Workspace U) : Prop :=
  ∀ m x op, ws.module? m = some x → x.origin = .imported (some op) → op.isExternal = true

theorem Imports.of_modules (i : ws.Imports) (modules : ws'.modules = ws.modules) : ws'.Imports :=
  Brings.of_modules i modules

/-- All that is in the design of `s` is in order. -/
def Checked (ws : Workspace U) (s : SystemId) : Prop :=
  ∀ sys, ws.system? s = some sys → sys.Checked ws

theorem Checked.setSystem (c : ws.Checked s) (e : ws.Extends ws') {t : SystemId}
    {old new : System} (hs : ws.system? t = some old)
    (after : ∀ r, ws'.system? r = (ws.setSystem t new).system? r)
    (step : t = s → old.Checked ws → new.Checked ws') : ws'.Checked s := by
  intro sys' hs'
  rw [after, system?_setSystem hs] at hs'
  split at hs'
  · rename_i hst
    cases hs'
    exact step hst.symm (c old (hst ▸ hs))
  · exact (c sys' hs').of_same e rfl rfl

theorem Change.checked (h : ws.Sound) (i : ws.Imports) (c : ws.Checked s) (step : Change p ws ws')
    (verified : p.verified s) : ws'.Checked s := by
  have e := step.extends
  cases step with
  | aside modules instances systems =>
      intro sys hs
      rw [system?, systems] at hs
      exact (c sys hs).of_same e rfl rfl
  | addSystem name conf =>
      intro sys hs
      rw [system?, List.getElem?_append] at hs
      split at hs
      · exact (c sys hs).of_same e rfl rfl
      · rw [List.mem_singleton.mp (List.mem_of_getElem? hs)]
        exact System.checked_new name conf
  | addModule sound held => exact fun sys hs => (c sys hs).of_same e rfl rfl
  | setParameters hx params => exact fun sys hs => (c sys hs).of_same e rfl rfl
  | @create t sys m x hs hx declared new made =>
      have free : sys.design.findModule?
          (x.toOp sys.conf.externalOutputFile (sys.freshSymbol x)).sym = none :=
        System.freshSymbol_free (h.systems t sys hs) x
      apply c.setSystem e hs (fun _ => rfl)
      intro _ checked
      refine checked.addOp e new free rfl rfl ?_ (.inr ⟨x, hx, declared⟩)
      cases gen : x.hasGenerator <;> simp [Module.toOp, gen, ModuleOp.body?]
  | @adopt t sys m x op hs hx held new free made =>
      apply c.setSystem e hs (fun _ => rfl)
      intro _ checked
      have external := i m x op hx held
      refine checked.addOp e new free rfl rfl ?_ (.inl external)
      unfold ModuleOp.body?
      unfold ModuleOp.isExternal at external
      split at external
      · rename_i hk
        rw [hk]
      · cases external
  | @push t sys scope outer b op hs top body inner id check =>
      apply c.setSystem e hs (fun _ => rfl)
      intro hts checked
      exact checked.push e body rfl rfl (check (hts ▸ verified))
  | grant hs top base =>
      exact c.setSystem e hs (fun _ => rfl) fun _ checked => checked.of_same e rfl rfl
  | @enqueue t sys m x sym hs hx gen hsym queued =>
      obtain ⟨waiting, same, -⟩ := sys.enqueue_eq m
      rw [same] at e ⊢
      exact c.setSystem e hs (fun _ => rfl) fun _ checked => checked.of_same e rfl rfl
  | track hs placed within =>
      exact c.setSystem e hs (fun _ => rfl) fun _ checked => checked.of_same e rfl rfl
  | release j => exact fun sys hs => (c sys (by simpa using hs)).of_same e rfl rfl
  | @forget t sys hs =>
      have there : (ws.releaseInstances sys.instances).system? t = some sys := by
        rwa [system?_releaseInstances]
      have after : ∀ r, ((ws.releaseInstances sys.instances).setSystem t
          { sys with instances := [] }).system? r =
            (ws.setSystem t { sys with instances := [] }).system? r := fun r => by
        rw [system?_setSystem hs, system?_setSystem there, system?_releaseInstances]
      exact c.setSystem e hs after fun _ checked => checked.of_same e rfl rfl

theorem Changes.checked (h : ws.Sound) (i : ws.Imports) (c : ws.Checked s)
    (steps : Changes p ws ws') (verified : p.verified s)
    (brought : ∀ op, p.brought op → op.isExternal = true) : ws'.Imports ∧ ws'.Checked s := by
  induction steps with
  | refl => exact ⟨i, c⟩
  | tail some step ih =>
      obtain ⟨i', c'⟩ := ih
      exact ⟨Change.brings i' step brought, step.checked (Changes.sound h some) i' c' verified⟩

end Workspace

end Hardware
