import Hardware.Proofs.Building
import Hardware.Proofs.Preservation

/-!
What the changes of a call leave of each system: the generators that run and the modules
that are generated stay as they are, and so does every operation but the one whose body
is being written.
-/
namespace Hardware

variable {U : UserCode}

namespace System

/-- What is kept of `sys` when it becomes `sys'` within a permit for the system `s`. -/
structure Keeps (p : Permit) (s : SystemId) (sys sys' : System) : Prop where
  conf : sys'.conf = sys.conf
  generated : sys'.generated = sys.generated
  sites : sys'.running.scopes.map Scope.site = sys.running.scopes.map Scope.site
  outer : sys'.running.scopes.tail = sys.running.scopes.tail
  ops : ∀ q op, sys.design.findModule? q = some op → sys'.design.findModule? q = some op ∨
    sys.owners.head? = some q ∧ ∃ b, sys'.design.findModule? q = some (op.withBody (some b))
  grows : sys.design.Grows sys'.design
  symbols : ∀ m sym, sys.symbolOf? m = some sym → sys'.symbolOf? m = some sym
  made : ∀ m sym, sys'.symbolOf? m = some sym → sys.symbolOf? m = some sym ∨ p.made s m
  waits : ∀ m ∈ sys.worklist, m ∈ sys'.worklist
  queued : ∀ m ∈ sys'.worklist, m ∈ sys.worklist ∨ p.queued s m

variable {p : Permit} {s : SystemId} {sys sys' sys'' : System}

theorem owners_eq_sites (sys : System) :
    sys.owners = (sys.running.scopes.map Scope.site).map fun site => site.ip.owner := by
  simp [owners]

theorem Keeps.owners (k : sys.Keeps p s sys') : sys'.owners = sys.owners := by
  rw [owners_eq_sites, owners_eq_sites, k.sites]

theorem Keeps.isGenerated (k : sys.Keeps p s sys') (m : ModuleId) :
    sys'.isGenerated m = sys.isGenerated m := by
  simp only [System.isGenerated, k.generated]

theorem Keeps.refl (p : Permit) (s : SystemId) (sys : System) : sys.Keeps p s sys :=
  ⟨rfl, rfl, rfl, rfl, fun _ _ h => .inl h, .refl _, fun _ _ h => h, fun _ _ h => .inl h,
    fun _ h => h, fun _ h => .inl h⟩

/-- Names that are granted and instances that are tracked do not matter. -/
theorem Keeps.of_same (conf : sys'.conf = sys.conf) (design : sys'.design = sys.design)
    (symbols : sys'.symbols = sys.symbols) (generated : sys'.generated = sys.generated)
    (worklist : sys'.worklist = sys.worklist)
    (sites : sys'.running.scopes.map Scope.site = sys.running.scopes.map Scope.site)
    (outer : sys'.running.scopes.tail = sys.running.scopes.tail) : sys.Keeps p s sys' where
  conf := conf
  generated := generated
  sites := sites
  outer := outer
  ops _ _ h := .inl (design ▸ h)
  grows := design ▸ .refl _
  symbols _ _ h := by rwa [symbolOf?, symbols]
  made _ _ h := .inl (by rwa [symbolOf?, symbols] at h)
  waits _ h := worklist ▸ h
  queued _ h := .inl (worklist ▸ h)

theorem Keeps.trans (k : sys.Keeps p s sys') (k' : sys'.Keeps p s sys'') :
    sys.Keeps p s sys'' where
  conf := k'.conf.trans k.conf
  generated := k'.generated.trans k.generated
  sites := k'.sites.trans k.sites
  outer := k'.outer.trans k.outer
  ops q op h := by
    rcases k.ops q op h with same | ⟨top, b, body⟩
    · rcases k'.ops q op same with same' | ⟨top', body'⟩
      · exact .inl same'
      · exact .inr ⟨k.owners ▸ top', body'⟩
    · rcases k'.ops q _ body with same' | ⟨-, b', body'⟩
      · exact .inr ⟨top, b, same'⟩
      · exact .inr ⟨top, b', by rw [body', ModuleOp.withBody_withBody]⟩
  grows := k.grows.trans k'.grows
  symbols m sym h := k'.symbols m sym (k.symbols m sym h)
  made m sym h := (k'.made m sym h).elim (k.made m sym) .inr
  waits m h := k'.waits m (k.waits m h)
  queued m h := (k'.queued m h).elim (k.queued m) .inr

/-- What is defined stays so. -/
theorem Keeps.defined (k : sys.Keeps p s sys') {v : Value} (h : sys.Defined v) :
    sys'.Defined v := by
  obtain ⟨scope, outer, op, top, hop, defined⟩ := h
  obtain ⟨op', hop', grows⟩ := k.grows _ op hop
  have sites := k.sites
  rw [top] at sites
  cases htop : sys'.running.scopes with
  | nil =>
      rw [htop] at sites
      cases sites
  | cons scope' outer' =>
      rw [htop] at sites
      obtain ⟨site, -⟩ := List.cons.inj sites
      exact ⟨scope', outer', op', htop, by rw [site, hop'], grows.defines defined⟩

theorem Keeps.mono {q : Permit} (made : ∀ m, p.made s m → q.made s m)
    (queued : ∀ m, p.queued s m → q.queued s m) (k : sys.Keeps p s sys') : sys.Keeps q s sys' :=
  { k with
    made := fun m sym h => (k.made m sym h).imp_right (made m)
    queued := fun m h => (k.queued m h).imp_right (queued m) }

theorem Keeps.create {m : ModuleId} {x : Module U.GeneratorCode} (new : sys.symbolOf? m = none)
    (free : sys.design.findModule? (sys.freshSymbol x) = none) (made : p.made s m) :
    sys.Keeps p s (sys.create m x) where
  conf := rfl
  generated := rfl
  sites := rfl
  outer := rfl
  ops q op h := by
    refine .inl ?_
    have other : q ≠ sys.freshSymbol x := fun e => by rw [e, free] at h; cases h
    unfold Design.findModule? System.create
    rw [OrderedMap.get?_insert_ne _ _ other]
    exact h
  grows := .insert free _ rfl
  symbols n sym h := Workspace.symbolOf?_create new h
  made n sym h := by
    by_cases hnm : n = m
    · exact .inr (hnm ▸ made)
    · unfold symbolOf? System.create at h
      rw [OrderedMap.get?_insert_ne _ _ hnm] at h
      exact .inl h
  waits _ h := h
  queued _ h := .inl h

theorem Keeps.adopt {m : ModuleId} {op : ModuleOp} (new : sys.symbolOf? m = none)
    (free : sys.design.findModule? op.sym = none) (made : p.made s m) :
    sys.Keeps p s (sys.adopt m op) where
  conf := rfl
  generated := rfl
  sites := rfl
  outer := rfl
  ops q o h := by
    refine .inl ?_
    have other : q ≠ op.sym := fun e => by rw [e, free] at h; cases h
    unfold Design.findModule? System.adopt
    rw [OrderedMap.get?_insert_ne _ _ other]
    exact h
  grows := .insert free _ rfl
  symbols n sym h := Workspace.symbolOf?_adopt new h
  made n sym h := by
    by_cases hnm : n = m
    · exact .inr (hnm ▸ made)
    · unfold symbolOf? System.adopt at h
      rw [OrderedMap.get?_insert_ne _ _ hnm] at h
      exact .inl h
  waits _ h := h
  queued _ h := .inl h

theorem Keeps.push {scope : Scope GeneratorSite} {outer : List (Scope GeneratorSite)} {b : Block}
    {op : Operation} (top : sys.running.scopes = scope :: outer)
    (body : sys.design.body? scope.site.ip.owner = some b) :
    sys.Keeps p s (sys.push scope.site.ip.owner b op) where
  conf := rfl
  generated := rfl
  sites := rfl
  outer := rfl
  ops q o h := by
    rw [System.push, Design.findModule?_push]
    by_cases other : q = scope.site.ip.owner
    · rw [if_pos other, h]
      exact .inr ⟨by simp [System.owners, top, other], b.push op, rfl⟩
    · rw [if_neg other]
      exact .inl h
  grows := .push body op
  symbols _ _ h := h
  made _ _ h := .inl h
  waits _ h := h
  queued _ h := .inl h

theorem Keeps.enqueue {m : ModuleId} (queued : p.queued s m) : sys.Keeps p s (sys.enqueue m) := by
  obtain ⟨waiting, same, kept, sub⟩ := sys.enqueue_eq m
  rw [same]
  refine ⟨rfl, rfl, rfl, rfl, fun _ _ h => .inl h, .refl _, fun _ _ h => h, fun _ _ h => .inl h,
    kept, fun n hn => ?_⟩
  rcases sub n hn with hn | rfl
  · exact .inl hn
  · exact .inr queued

end System

namespace Workspace

variable {ws ws' : Workspace U} {p : Permit} {s : SystemId} {sys' : System}

/-- The system `s` before a change, which for a system that is added is a new one. -/
def Before (ws : Workspace U) (s : SystemId) (sys : System) : Prop :=
  ws.system? s = some sys ∨ ws.system? s = none ∧ ∃ name conf, sys = System.new name conf

theorem before_addSystem {name : Ident} {conf : SystemConf}
    (hs : ({ ws with systems := ws.systems ++ [System.new name conf] } : Workspace U).system? s =
      some sys') : ws.Before s sys' := by
  rw [system?, List.getElem?_append] at hs
  split at hs
  · exact .inl hs
  · rename_i ge
    have new := List.mem_singleton.mp (List.mem_of_getElem? hs)
    exact .inr ⟨List.getElem?_eq_none (Nat.le_of_not_lt ge), name, conf, new⟩

/-- A system that is there before a second step was there already or is new since the first. -/
theorem Before.earlier {mid : Workspace U} {sys : System} (e : ws.Extends mid) (before : mid.Before s sys) :
    mid.system? s = some sys ∨ ws.Before s sys := by
  rcases before with there | ⟨gone, name, conf, new⟩
  · exact .inl there
  · refine .inr (.inr ⟨?_, name, conf, new⟩)
    cases hw : ws.system? s with
    | none => rfl
    | some sys =>
        obtain ⟨still, there, -⟩ := e.systems s sys hw
        rw [gone] at there
        cases there

theorem keeps_setSystem {t : SystemId} {old new : System} (ht : ws.system? t = some old)
    (hs : (ws.setSystem t new).system? s = some sys') (k : old.Keeps p t new) :
    ∃ sys, ws.Before s sys ∧ sys.Keeps p s sys' := by
  rw [system?_setSystem ht] at hs
  split at hs
  · rename_i hst
    cases hs
    exact ⟨old, .inl (hst ▸ ht), hst ▸ k⟩
  · exact ⟨sys', .inl hs, .refl p s sys'⟩

theorem Change.keeps (h : ws.Sound) (c : Change p ws ws') (hs : ws'.system? s = some sys') :
    ∃ sys, ws.Before s sys ∧ sys.Keeps p s sys' := by
  cases c with
  | aside modules instances systems =>
      rw [system?, systems] at hs
      exact ⟨sys', .inl hs, .refl p s sys'⟩
  | addSystem name conf => exact ⟨sys', before_addSystem hs, .refl p s sys'⟩
  | addModule sound brought => exact ⟨sys', .inl hs, .refl p s sys'⟩
  | setParameters hx params => exact ⟨sys', .inl hs, .refl p s sys'⟩
  | @create t sys m x ht hx declared new made =>
      have free := System.freshSymbol_free (h.systems t sys ht) x
      exact keeps_setSystem ht hs (.create new free made)
  | @adopt t sys m x op ht hx held new free made =>
      have there : (ws.setModule m { x with origin := .imported none }).system? t = some sys := ht
      exact keeps_setSystem there hs (.adopt new free made)
  | push ht top body inner id verified => exact keeps_setSystem ht hs (.push top body)
  | @grant t sys scope outer ht top base =>
      refine keeps_setSystem ht hs (.of_same rfl rfl rfl rfl rfl ?_ ?_)
      · simp [top]
      · simp [top]
  | enqueue ht hx gen hsym queued => exact keeps_setSystem ht hs (.enqueue queued)
  | @track sys x ht placed within =>
      have there : ({ ws with instances := ws.instances ++ [x] } : Workspace U).system? x.system =
          some sys := ht
      exact keeps_setSystem there hs (.of_same rfl rfl rfl rfl rfl rfl rfl)
  | release i => exact ⟨sys', .inl (by simpa using hs), .refl p s sys'⟩
  | @forget t sys ht =>
      have there : (ws.releaseInstances sys.instances).system? t = some sys := by
        rwa [system?_releaseInstances]
      obtain ⟨old, before, k⟩ :=
        keeps_setSystem there hs (.of_same rfl rfl rfl rfl rfl rfl rfl)
      exact ⟨old, by simpa [Before] using before, k⟩

theorem Changes.keeps (h : ws.Sound) (c : Changes p ws ws') (hs : ws'.system? s = some sys') :
    ∃ sys, ws.Before s sys ∧ sys.Keeps p s sys' := by
  induction c generalizing sys' with
  | refl => exact ⟨sys', .inl hs, .refl p s sys'⟩
  | @tail mid ws' some step ih =>
      obtain ⟨sysm, before, k⟩ := step.keeps (Changes.sound h some) hs
      rcases before.earlier (Changes.extends some) with there | before
      · obtain ⟨sys, was, k'⟩ := ih there
        exact ⟨sys, was, k'.trans k⟩
      · exact ⟨sysm, before, k⟩

/-- What changes leave of a system that was there before. -/
theorem Changes.keeps_of_system? (h : ws.Sound) (c : Changes p ws ws') {sys : System}
    (hs : ws.system? s = some sys) : ∃ sys', ws'.system? s = some sys' ∧ sys.Keeps p s sys' := by
  obtain ⟨sys', hs', -⟩ := (Changes.extends c).systems s sys hs
  obtain ⟨old, before, k⟩ := Changes.keeps h c hs'
  rcases before with there | ⟨gone, -⟩
  · rw [hs] at there
    cases there
    exact ⟨sys', hs', k⟩
  · rw [hs] at gone
    cases gone

/-- The innermost running generator stays the same, and so do all below it. -/
theorem Changes.top (h : ws.Sound) (c : Changes p ws ws') {sys : System}
    {scope : Scope GeneratorSite} {outer : List (Scope GeneratorSite)}
    (hs : ws.system? s = some sys) (top : sys.running.scopes = scope :: outer) :
    ∃ sys' scope', ws'.system? s = some sys' ∧ sys.Keeps p s sys' ∧
      sys'.running.scopes = scope' :: outer ∧ scope'.site = scope.site := by
  obtain ⟨sys', hs', k⟩ := Changes.keeps_of_system? h c hs
  have sites := k.sites
  have tail := k.outer
  rw [top] at sites tail
  cases htop : sys'.running.scopes with
  | nil =>
      rw [htop] at sites
      cases sites
  | cons scope' outer' =>
      rw [htop] at sites tail
      simp only [List.map_cons, List.cons.injEq, List.tail_cons] at sites tail
      exact ⟨sys', scope', hs', k, by rw [htop, tail], sites.1⟩

end Workspace

end Hardware
