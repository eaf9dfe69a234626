import Hardware.Instantiation
import Hardware.Proofs.Design
import Hardware.Proofs.Workspace

/-!
The invariant of a workspace. The operation of a module with a generator is idle, open
or complete, and the body in the design, the mark that the module is generated and the
scopes of the running generators always tell the same story about it.
-/
namespace Hardware

variable {U : UserCode} {γ : Type}

/-- What holds of every registered module. -/
structure Module.Sound (x : Module γ) : Prop where
  imported : x.isImported = true → x.hasGenerator = false
  /-- An operation that was brought along goes by the name of its module. -/
  held : ∀ op, x.origin = .imported (some op) → x.schema.opName = some op.sym
  outputs : ∀ op, x.origin = .imported (some op) →
    op.outputs = x.schema.outputs.map PortDesc.toPort

theorem Schema.hasGenerator_of_one {schema : Schema γ} {g : Generator γ}
    (one : schema.generators.values = [g]) : schema.hasGenerator = true := by
  unfold hasGenerator OrderedMap.isEmpty
  cases he : schema.generators.entries with
  | nil => simp [OrderedMap.values, he] at one
  | cons e es => rfl

namespace System

variable {sys sys' : System}

/-- The modules whose generators run, by symbol, from the innermost to the outermost. -/
def owners (sys : System) : List Ident := sys.running.scopes.map fun c => c.site.ip.owner

/-- The stages of the operation `sym` of a module `m` with a generator, each with the body
that it shows in the design. -/
inductive Stage (sys : System) (m : ModuleId) (sym : Ident) : Option Block → Prop
  | idle : sys.isGenerated m = false → sym ∉ sys.owners → Stage sys m sym none
  | running {b : Block} : sys.isGenerated m = true → sym ∈ sys.owners → b.IsOpen →
      Stage sys m sym (some b)
  | complete {b : Block} : sys.isGenerated m = true → sym ∉ sys.owners → b.IsClosed →
      Stage sys m sym (some b)

/-- What the operation of a declared module keeps of its schema, and its stage. -/
structure Carries (sys : System) (m : ModuleId) (schema : Schema γ) (sym : Ident)
    (op : ModuleOp) : Prop where
  inputs : op.inputs = schema.inputs.map PortDesc.toPort
  external : schema.hasGenerator = false → op.isExternal = true
  stage : schema.hasGenerator = true → ∃ body, op.kind = .real body ∧ sys.Stage m sym body
  distinct : ∀ b, op.body? = some b → (b.ops.map Operation.id).Nodup
  numbered : ∀ b, op.body? = some b → ∀ o ∈ b.ops, o.id.index < sys.design.nextOp

/-- The invariant of one system. -/
structure Sound (ws : Workspace U) (sys : System) : Prop where
  named : ∀ sym op, sys.design.findModule? sym = some op → op.sym = sym
  issued : ∀ sym op, sys.design.findModule? sym = some op → sym ∈ sys.design.symbols.issued
  injective : ∀ m n sym, sys.symbolOf? m = some sym → sys.symbolOf? n = some sym → m = n
  present : ∀ m sym, sys.symbolOf? m = some sym → ∃ x op, ws.module? m = some x ∧
    sys.design.findModule? sym = some op ∧
      (x.isImported = false → sys.Carries m x.schema sym op)
  outputs : ∀ m x sym op, ws.module? m = some x → sys.symbolOf? m = some sym →
    sys.design.findModule? sym = some op → op.outputs = x.schema.outputs.map PortDesc.toPort
  generated : ∀ m, sys.isGenerated m = true → ∃ x sym g, ws.module? m = some x ∧
    sys.symbolOf? m = some sym ∧ x.isImported = false ∧ x.schema.generators.values = [g]
  owned : ∀ sym ∈ sys.owners, ∃ m, sys.symbolOf? m = some sym ∧ sys.isGenerated m = true
  nodup : sys.owners.Nodup
  waiting : ∀ m ∈ sys.worklist, ∃ x sym, ws.module? m = some x ∧ x.hasGenerator = true ∧
    sys.symbolOf? m = some sym

end System

namespace Workspace

/-- What a workspace never takes back: what is declared, which operation stands for which
module, and which instances were built. An instance may lose its site. -/
structure Extends (ws ws' : Workspace U) : Prop where
  modules : ∀ m x, ws.module? m = some x →
    ∃ x', ws'.module? m = some x' ∧ x'.schema = x.schema ∧ x'.isImported = x.isImported
  systems : ∀ s sys, ws.system? s = some sys → ∃ sys', ws'.system? s = some sys' ∧
    sys'.conf = sys.conf ∧ ∀ m sym, sys.symbolOf? m = some sym → sys'.symbolOf? m = some sym
  instances : ∀ i x, ws.instance? i = some x →
    ws'.instance? i = some x ∨ ws'.instance? i = some { x with site := none }

/-- The invariant of a whole workspace. Each instance belongs to a system, which keeps track
of it for as long as it has a site. -/
structure Sound (ws : Workspace U) : Prop where
  modules : ∀ m x, ws.module? m = some x → x.Sound
  systems : ∀ s sys, ws.system? s = some sys → sys.Sound ws
  tracked : ∀ i x, ws.instance? i = some x → ∃ sys, ws.system? x.system = some sys ∧
    (x.site.isSome = true → i ∈ sys.instances)

theorem Extends.refl (ws : Workspace U) : ws.Extends ws where
  modules _ x h := ⟨x, h, rfl, rfl⟩
  systems _ sys h := ⟨sys, h, rfl, fun _ _ h => h⟩
  instances _ _ h := .inl h

theorem Extends.trans {ws ws' ws'' : Workspace U} (h : ws.Extends ws') (h' : ws'.Extends ws'') :
    ws.Extends ws'' where
  modules m x hx := by
    obtain ⟨y, hy, sy, iy⟩ := h.modules m x hx
    obtain ⟨z, hz, sz, iz⟩ := h'.modules m y hy
    exact ⟨z, hz, sz.trans sy, iz.trans iy⟩
  systems s sys hs := by
    obtain ⟨sys', hs', conf, syms⟩ := h.systems s sys hs
    obtain ⟨sys'', hs'', conf', syms'⟩ := h'.systems s sys' hs'
    exact ⟨sys'', hs'', conf'.trans conf, fun m sym hm => syms' m sym (syms m sym hm)⟩
  instances i x hx := by
    rcases h.instances i x hx with hi | hi
    · exact h'.instances i x hi
    · rcases h'.instances i _ hi with hi' | hi'
      · exact .inr hi'
      · exact .inr hi'

end Workspace

namespace System

variable {sys sys' : System} {ws ws' : Workspace U}

theorem Sound.extends (h : sys.Sound ws) (e : ws.Extends ws') : sys.Sound ws' where
  named := h.named
  issued := h.issued
  injective := h.injective
  present m sym hm := by
    obtain ⟨x, op, hx, hop, carries⟩ := h.present m sym hm
    obtain ⟨x', hx', schema, imported⟩ := e.modules m x hx
    exact ⟨x', op, hx', hop, fun declared => schema ▸ carries (imported ▸ declared)⟩
  outputs m x' sym op hx' hm hop := by
    obtain ⟨x, -, hx, -, -⟩ := h.present m sym hm
    obtain ⟨y, hy, schema, -⟩ := e.modules m x hx
    rw [hx'] at hy
    cases hy
    rw [schema]
    exact h.outputs m x sym op hx hm hop
  generated m hm := by
    obtain ⟨x, sym, g, hx, hsym, declared, one⟩ := h.generated m hm
    obtain ⟨x', hx', schema, imported⟩ := e.modules m x hx
    exact ⟨x', sym, g, hx', hsym, imported.trans declared, schema ▸ one⟩
  owned := h.owned
  nodup := h.nodup
  waiting m hm := by
    obtain ⟨x, sym, hx, gen, hsym⟩ := h.waiting m hm
    obtain ⟨x', hx', schema, -⟩ := e.modules m x hx
    exact ⟨x', sym, hx', by simpa only [Module.hasGenerator, schema] using gen, hsym⟩

theorem sound_new (name : Ident) (conf : SystemConf) : (System.new name conf).Sound ws where
  named sym op h := by simp [System.new, Design.findModule?] at h
  issued sym op h := by simp [System.new, Design.findModule?] at h
  injective m n sym h := by simp [System.new, symbolOf?] at h
  present m sym h := by simp [System.new, symbolOf?] at h
  outputs m x sym op _ h := by simp [System.new, symbolOf?] at h
  generated m h := by simp [System.new, isGenerated] at h
  owned sym h := by simp [System.new, owners] at h
  nodup := by simp [System.new, owners]
  waiting m h := by simp [System.new] at h

/-- A stage depends on the mark of its module and on the scopes only. -/
theorem Stage.congr {m : ModuleId} {sym : Ident} {body : Option Block} (h : sys.Stage m sym body)
    (gen : sys'.isGenerated m = sys.isGenerated m) (own : sym ∈ sys'.owners ↔ sym ∈ sys.owners) :
    sys'.Stage m sym body := by
  cases h with
  | idle g o => exact .idle (gen.trans g) (mt own.mp o)
  | running g o b => exact .running (gen.trans g) (own.mpr o) b
  | complete g o b => exact .complete (gen.trans g) (mt own.mp o) b

theorem Carries.congr {m : ModuleId} {schema : Schema γ} {sym : Ident} {op : ModuleOp}
    (h : sys.Carries m schema sym op) (gen : sys'.isGenerated m = sys.isGenerated m)
    (own : sym ∈ sys'.owners ↔ sym ∈ sys.owners)
    (le : sys.design.nextOp ≤ sys'.design.nextOp) : sys'.Carries m schema sym op where
  inputs := h.inputs
  external := h.external
  stage hg := by
    obtain ⟨body, hk, stage⟩ := h.stage hg
    exact ⟨body, hk, stage.congr gen own⟩
  distinct := h.distinct
  numbered b hb o ho := Nat.lt_of_lt_of_le (h.numbered b hb o ho) le

/-- Names granted in a scope, modules that wait and instances that are tracked have no part
in the invariant, but for what waits to have an operation. -/
theorem Sound.of_same (h : sys.Sound ws) (design : sys'.design = sys.design)
    (symbols : sys'.symbols = sys.symbols) (generated : sys'.generated = sys.generated)
    (owners : sys'.owners = sys.owners)
    (waiting : ∀ m ∈ sys'.worklist, m ∈ sys.worklist ∨ ∃ x sym, ws.module? m = some x ∧
      x.hasGenerator = true ∧ sys.symbolOf? m = some sym) : sys'.Sound ws where
  named := design ▸ h.named
  issued := design ▸ h.issued
  injective := by simpa only [symbolOf?, symbols] using h.injective
  present m sym hm := by
    have old : sys.symbolOf? m = some sym := by simpa only [symbolOf?, symbols] using hm
    obtain ⟨x, op, hx, hop, carries⟩ := h.present m sym old
    refine ⟨x, op, hx, design ▸ hop, fun declared => (carries declared).congr ?_ ?_ ?_⟩
    · simp only [isGenerated, generated]
    · rw [owners]
    · rw [design]
  outputs m x sym op hx hm hop :=
    h.outputs m x sym op hx (by rwa [symbolOf?, ← symbols]) (design ▸ hop)
  generated m hm := by
    simpa only [symbolOf?, symbols] using
      h.generated m (by simpa only [isGenerated, generated] using hm)
  owned sym hm := by
    simpa only [symbolOf?, symbols, isGenerated, generated] using h.owned sym (owners ▸ hm)
  nodup := owners ▸ h.nodup
  waiting m hm := by
    have old := (waiting m hm).elim (h.waiting m) id
    simpa only [symbolOf?, symbols] using old

end System

end Hardware
