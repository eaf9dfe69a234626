import Hardware.Proofs.Run

/-!
The symbols of modules and the operations in a design. A system enrols a module when it creates
its operation or takes it in: then its symbol and its operation come behind all others, and so
does, for a declared module, its metadata record. Nothing else adds to them, and nothing takes
from them.
-/
namespace Hardware

variable {U : UserCode} {ρ : Type}

namespace Workspace

/-- `m` is a module that was declared, not imported. -/
def declares (ws : Workspace U) (m : ModuleId) : Bool :=
  (ws.module? m).any fun x => !x.isImported

/-- The symbols of the declared modules among `entries`. -/
def declaredSymbols (ws : Workspace U) (entries : List (ModuleId × Ident)) : List Ident :=
  (entries.filter fun e => ws.declares e.1).map Prod.snd

theorem declares_eq {ws : Workspace U} {m : ModuleId} {x : Module U.GeneratorCode}
    (hx : ws.module? m = some x) : ws.declares m = !x.isImported := by
  simp [declares, hx]

theorem Extends.declares_eq {ws ws' : Workspace U} (e : ws.Extends ws') {m : ModuleId}
    (known : (ws.module? m).isSome) : ws'.declares m = ws.declares m := by
  obtain ⟨x, hx⟩ := Option.isSome_iff_exists.mp known
  obtain ⟨y, hy, -, imported⟩ := e.modules m x hx
  rw [Workspace.declares_eq hx, Workspace.declares_eq hy, imported]

theorem Extends.declaredSymbols_eq {ws ws' : Workspace U} (e : ws.Extends ws')
    {entries : List (ModuleId × Ident)} (known : ∀ f ∈ entries, (ws.module? f.1).isSome) :
    ws'.declaredSymbols entries = ws.declaredSymbols entries := by
  unfold declaredSymbols
  rw [List.filter_congr fun f hf => e.declares_eq (known f hf)]

end Workspace

namespace System

/-- What `sys'` has that `sys` has not: the modules `added` with their symbols, an operation for
each of them, and, where metadata is wanted, a record for each declared one. -/
structure Enrols (ws : Workspace U) (sys : System) (added : List (ModuleId × Ident))
    (sys' : System) : Prop where
  conf : sys'.conf = sys.conf
  symbols : sys'.symbols.entries = sys.symbols.entries ++ added
  once : sys.symbols.keys.Nodup → sys'.symbols.keys.Nodup
  modules : sys'.design.modules.keys = sys.design.modules.keys ++ added.map Prod.snd
  known : ∀ e ∈ added, (ws.module? e.1).isSome
  metadata : ∃ records, sys'.design.metadata = sys.design.metadata ++ records ∧
    records.map Operation.kind =
      if sys.conf.emitMetadata then (ws.declaredSymbols added).map .symbolMetadata else []

variable {ws ws' : Workspace U} {sys mid sys' : System} {added more : List (ModuleId × Ident)}

theorem Enrols.of_same (conf : sys'.conf = sys.conf) (symbols : sys'.symbols = sys.symbols)
    (modules : sys'.design.modules.keys = sys.design.modules.keys)
    (metadata : sys'.design.metadata = sys.design.metadata) : sys.Enrols ws [] sys' where
  conf := conf
  symbols := by rw [symbols, List.append_nil]
  once h := by rwa [symbols]
  modules := by rw [modules, List.map_nil, List.append_nil]
  known e he := absurd he List.not_mem_nil
  metadata := ⟨[], by rw [metadata, List.append_nil], by simp [Workspace.declaredSymbols]⟩

theorem Enrols.refl (ws : Workspace U) (sys : System) : sys.Enrols ws [] sys :=
  .of_same rfl rfl rfl rfl

theorem Enrols.trans (h : sys.Enrols ws added mid) (e : ws.Extends ws')
    (h' : mid.Enrols ws' more sys') : sys.Enrols ws' (added ++ more) sys' where
  conf := h'.conf.trans h.conf
  symbols := by rw [h'.symbols, h.symbols, List.append_assoc]
  once distinct := h'.once (h.once distinct)
  modules := by rw [h'.modules, h.modules, List.map_append, List.append_assoc]
  known f hf := by
    rcases List.mem_append.mp hf with hf | hf
    · obtain ⟨x, hx⟩ := Option.isSome_iff_exists.mp (h.known f hf)
      obtain ⟨y, hy, -⟩ := e.modules f.1 x hx
      rw [hy]
      rfl
    · exact h'.known f hf
  metadata := by
    obtain ⟨records, listed, kinds⟩ := h.metadata
    obtain ⟨records', listed', kinds'⟩ := h'.metadata
    refine ⟨records ++ records', by rw [listed', listed, List.append_assoc], ?_⟩
    have split : ws'.declaredSymbols (added ++ more) =
        ws.declaredSymbols added ++ ws'.declaredSymbols more := by
      rw [← e.declaredSymbols_eq h.known]
      simp [Workspace.declaredSymbols]
    rw [List.map_append, kinds, kinds', h.conf, split]
    split_ifs <;> simp

/-- One more module with an operation under a symbol that was free. -/
theorem Enrols.add {m : ModuleId} {sym : Ident} {op : ModuleOp} (known : (ws.module? m).isSome)
    (new : sys.symbolOf? m = none) (free : sys.design.findModule? sym = none)
    (conf : sys'.conf = sys.conf) (symbols : sys'.symbols = sys.symbols.insert m sym)
    (modules : sys'.design.modules = sys.design.modules.insert sym op)
    (metadata : ∃ records, sys'.design.metadata = sys.design.metadata ++ records ∧
      records.map Operation.kind =
        if sys.conf.emitMetadata ∧ ws.declares m then [.symbolMetadata sym] else []) :
    sys.Enrols ws [(m, sym)] sys' where
  conf := conf
  symbols := symbols ▸ OrderedMap.entries_insert new sym
  once distinct := by
    have fresh : m ∉ sys.symbols.keys := by
      rw [OrderedMap.mem_keys_iff]
      simpa [symbolOf?] using new
    rw [symbols, OrderedMap.keys_insert new]
    exact List.nodup_append.mpr ⟨distinct, List.nodup_singleton m,
      fun a ha b hb same => fresh (List.mem_singleton.mp hb ▸ same ▸ ha)⟩
  modules := modules ▸ OrderedMap.keys_insert free op
  known e he := by rwa [List.mem_singleton.mp he]
  metadata := by
    obtain ⟨records, listed, kinds⟩ := metadata
    refine ⟨records, listed, kinds.trans ?_⟩
    cases hm : ws.declares m <;> cases sys.conf.emitMetadata <;>
      simp [Workspace.declaredSymbols, hm]

theorem Enrols.create {m : ModuleId} {x : Module U.GeneratorCode} (hx : ws.module? m = some x)
    (declared : x.isImported = false) (new : sys.symbolOf? m = none)
    (free : sys.design.findModule? (sys.freshSymbol x) = none) :
    sys.Enrols ws [(m, sys.freshSymbol x)] (sys.create m x) := by
  refine .add (by rw [hx]; rfl) new free rfl rfl rfl ⟨_, rfl, ?_⟩
  rw [Workspace.declares_eq hx, declared, records]
  split_ifs <;> simp_all

theorem Enrols.adopt {m : ModuleId} {x : Module U.GeneratorCode} {op : ModuleOp}
    (hx : ws.module? m = some x) (imported : x.isImported = true) (new : sys.symbolOf? m = none)
    (free : sys.design.findModule? op.sym = none) :
    sys.Enrols ws [(m, op.sym)] (sys.adopt m op) := by
  refine .add (by rw [hx]; rfl) new free rfl rfl rfl ⟨[], (List.append_nil _).symm, ?_⟩
  simp [Workspace.declares_eq hx, imported]

/-- A body changes nothing of what is enrolled. -/
theorem Enrols.push (sym : Ident) (b : Block) (op : Operation) :
    sys.Enrols ws [] (sys.push sym b op) :=
  .of_same rfl rfl (OrderedMap.keys_modify _ _ _) rfl

end System

namespace Workspace

variable {ws mid ws' : Workspace U} {s : SystemId} {sys sys' : System} {p : Permit}

/-- In each of its systems `ws'` may have enrolled modules beyond those of `ws`. -/
def Enrols (ws ws' : Workspace U) : Prop :=
  ∀ s sys', ws'.system? s = some sys' →
    ∃ sys added, ws.Before s sys ∧ sys.Enrols ws' added sys'

theorem Enrols.of_systems (same : ∀ s, ws'.system? s = ws.system? s) : ws.Enrols ws' :=
  fun s sys' hs => ⟨sys', [], .inl (same s ▸ hs), .refl _ sys'⟩

theorem Enrols.trans (h : ws.Enrols mid) (e : ws.Extends mid) (e' : mid.Extends ws')
    (h' : mid.Enrols ws') : ws.Enrols ws' := by
  intro s sys' hs
  obtain ⟨sysm, more, before, last⟩ := h' s sys' hs
  rcases before.earlier e with there | before
  · obtain ⟨sys, added, was, first⟩ := h s sysm there
    exact ⟨sys, added ++ more, was, first.trans e' last⟩
  · exact ⟨sysm, more, before, last⟩

theorem Enrols.setSystem {old new : System} {added : List (ModuleId × Ident)}
    (hs : ws.system? s = some old) (e : old.Enrols (ws.setSystem s new) added new) :
    ws.Enrols (ws.setSystem s new) := by
  intro t sys' ht
  rw [system?_setSystem hs] at ht
  split at ht
  · rename_i hts
    cases ht
    exact ⟨old, added, .inl (hts ▸ hs), e⟩
  · exact ⟨sys', [], .inl ht, .refl _ sys'⟩

theorem Change.enrols (h : ws.Sound) (c : Change p ws ws') : ws.Enrols ws' := by
  cases c with
  | aside modules instances systems =>
      exact .of_systems fun s => congrArg (fun l => l[s.index]?) systems
  | addSystem name conf => exact fun s sys' hs => ⟨sys', [], before_addSystem hs, .refl _ sys'⟩
  | addModule sound brought => exact .of_systems fun _ => rfl
  | setParameters hx params => exact .of_systems fun _ => rfl
  | @create s sys m x hs hx declared new made =>
      have free := System.freshSymbol_free (h.systems s sys hs) x
      exact .setSystem hs (.create hx declared new free)
  | @adopt s sys m x op hs hx held new free made =>
      have taken : (ws.setModule m { x with origin := .imported none }).module? m =
          some { x with origin := .imported none } := by
        rw [module?_setModule hx, if_pos rfl]
      have there : (ws.setModule m { x with origin := .imported none }).system? s = some sys := hs
      exact Enrols.setSystem there (.adopt taken rfl new free)
  | push hs top body inner id verified => exact .setSystem hs (.push _ _ _)
  | grant hs top base => exact .setSystem hs (.of_same rfl rfl rfl rfl)
  | @enqueue s sys m x sym hs hx gen hsym queued =>
      obtain ⟨waiting, same, -⟩ := sys.enqueue_eq m
      rw [same]
      exact .setSystem hs (.of_same rfl rfl rfl rfl)
  | @track sys x hs placed within =>
      have there : ({ ws with instances := ws.instances ++ [x] } : Workspace U).system? x.system =
          some sys := hs
      exact Enrols.setSystem there (.of_same rfl rfl rfl rfl)
  | release i => exact .of_systems fun s => system?_releaseInstance ws i s
  | @forget s sys hs =>
      have there : (ws.releaseInstances sys.instances).system? s = some sys := by
        rwa [system?_releaseInstances]
      refine Enrols.trans (.of_systems fun t => system?_releaseInstances ws _ t)
        (.of_releaseInstances _) (.of_setSystem there rfl fun _ _ h => h) ?_
      exact .setSystem there (.of_same rfl rfl rfl rfl)

theorem Changes.enrols (h : ws.Sound) (c : Changes p ws ws') : ws.Enrols ws' := by
  induction c with
  | refl => exact .of_systems fun _ => rfl
  | tail some step ih =>
      exact ih.trans (Changes.extends some) step.extends (step.enrols (Changes.sound h some))

theorem Opens.enrols {m : ModuleId} {run : GeneratorRun} {code : U.GeneratorCode}
    (o : Opens ws s m run code ws') : ws.Enrols ws' := by
  cases o with
  | intro site hs => exact .setSystem hs (.of_same rfl rfl (OrderedMap.keys_modify _ _ _) rfl)

theorem Closes.enrols {run : GeneratorRun} (c : Closes ws run ws') : ws.Enrols ws' := by
  cases c with
  | intro hs => exact .setSystem hs (.of_same rfl rfl (OrderedMap.keys_modify _ _ _) rfl)

theorem Unwinds.enrols {run : GeneratorRun} (u : Unwinds ws run ws') : ws.Enrols ws' := by
  cases u with
  | @intro sys hs =>
      have there : (ws.releaseInstances (sys.instances.filter (ws.isInside run.symbol))).system?
          run.system = some sys := by
        rwa [system?_releaseInstances]
      refine Enrols.trans (.of_systems fun t => system?_releaseInstances ws _ t)
        (.of_releaseInstances _) (.of_setSystem there rfl fun _ _ h => h) ?_
      exact .setSystem there (.of_same rfl rfl (OrderedMap.keys_modify _ _ _) rfl)

theorem Move.enrols (h : ws.Sound) {runs runs' : List GeneratorRun}
    (step : Move p ws runs ws' runs') : ws.Enrols ws' := by
  cases step with
  | call c => exact Changes.enrols h c
  | port step allowed => exact Changes.enrols h step.changes
  | pop drained hs first => exact .setSystem hs (.of_same rfl rfl rfl rfl)
  | begins created opens =>
      exact (Changes.enrols h created.any).trans (Changes.extends created.any) opens.extends
        opens.enrols
  | closes c => exact c.enrols
  | unwinds u => exact u.enrols

end Workspace

namespace System

variable {ws : Workspace U} {sys : System}

end System

namespace Machine

variable {P : Program U} {M : Machine U ρ} {s : SystemId} {sys : System}

theorem Reachable.enrols (h : Reachable P M) (n : Nat) :
    M.workspace.Enrols ((Machine.step P)^[n] M).workspace := by
  induction n with
  | zero => exact .of_systems fun _ => rfl
  | succ n ih =>
      rw [Function.iterate_succ_apply']
      have at_n := h.iterate n
      exact ih.trans (h.extends n) at_n.move.extends (at_n.move.enrols at_n.hosts.sound)

/-- A declared module always gets its operation. -/
theorem Reachable.creates (h : Reachable P M) (hs : M.workspace.system? s = some sys)
    {m : ModuleId} {x : Module U.GeneratorCode} (hx : M.workspace.module? m = some x)
    (declared : x.isImported = false) : ∃ sym ws' sys',
      Workspace.createOp s m M.workspace = .ok sym ws' ∧ ws'.system? s = some sys' ∧
        sys'.symbolOf? m = some sym := by
  have ends := Workspace.createOp_ends h.hosts.sound s m
  cases hc : Workspace.createOp s m M.workspace with
  | ok sym ws' =>
      obtain ⟨-, sys', -, hs', hm, -⟩ := (ends.of_ok hc).symbolOf?
      exact ⟨sym, ws', sys', rfl, hs', hm⟩
  | error e ws' =>
      have imported := ((ends.of_error hc).2 sys x hs hx).imported
      rw [declared] at imported
      cases imported

end Machine

namespace Sample

end Sample

end Hardware
