import Hardware.Production
import Hardware.Proofs.Canonical
import Hardware.Proofs.Dictionary
import Hardware.Proofs.OrderedMap

/-!
What a call binds, and the key under which its module is kept. The key depends on the bound
values of the parameters that are not reserved, and on these only up to equivalence.
-/
namespace Hardware

/-- What a call hands to `p` at position `i`: the argument at its position, else the one under
its name, else the default. -/
def Args.supplied (args : Args) (i : Nat) (p : Param) : Option Attr :=
  args.positional[i]? <|> args.keyword.lookup p.name <|> p.default?

namespace Signature

variable {s : Signature} {args : Args} {b : BoundArgs}

theorem index_of_name (distinct : s.names.Nodup) {i j : Nat} {p q : Param}
    (hp : s.params[i]? = some p) (hq : s.params[j]? = some q) (same : p.name = q.name) :
    i = j := by
  have here : s.names[i]? = some p.name := by rw [names, List.getElem?_map, hp]; rfl
  have there : s.names[j]? = some q.name := by rw [names, List.getElem?_map, hq]; rfl
  have lt : i < s.names.length := (List.getElem?_eq_some_iff.mp here).1
  exact (List.getElem?_inj lt distinct).mp (by rw [here, there, same])

theorem place_ok {slots slots' : List (Option Attr)} {arg : Ident × Attr}
    (h : s.place slots arg = .ok slots') :
    ∃ (i : Nat) (p : Param), s.params[i]? = some p ∧ p.name = arg.1 ∧ (slots[i]?).join = none ∧
      slots' = slots.set i (some arg.2) := by
  unfold place at h
  split at h
  · cases h
  · rename_i i found
    split at h
    · cases h
    · rename_i free
      cases h
      obtain ⟨lt, named, -⟩ := List.findIdx?_eq_some_iff_getElem.mp found
      exact ⟨i, s.params[i], List.getElem?_eq_getElem lt, by simpa using named,
        by simpa using free, rfl⟩

/-- After all keyword arguments a slot holds what it held before, else the argument under the
name of its parameter. -/
theorem placed (distinct : s.names.Nodup) {keyword : List (Ident × Attr)} :
    ∀ {slots slots' : List (Option Attr)}, slots.length = s.params.length →
      keyword.foldlM s.place slots = .ok slots' →
        slots'.length = s.params.length ∧ ∀ (i : Nat) (p : Param), s.params[i]? = some p →
          (slots'[i]?).join = ((slots[i]?).join <|> keyword.lookup p.name) := by
  induction keyword with
  | nil =>
      rintro slots _ size ⟨⟩
      exact ⟨size, fun i p hp => by simp⟩
  | cons arg rest ih =>
      intro slots slots' size h
      rw [List.foldlM_cons] at h
      cases hm : s.place slots arg with
      | error e =>
          rw [hm] at h
          cases h
      | ok mid =>
          rw [hm] at h
          obtain ⟨j, q, hq, named, free, rfl⟩ := place_ok hm
          obtain ⟨size', later⟩ := ih (by simpa using size) h
          refine ⟨size', fun i p hp => ?_⟩
          have lt : j < slots.length := size ▸ (List.getElem?_eq_some_iff.mp hq).1
          rw [later i p hp, List.getElem?_set, OrderedMap.lookup_cons_if]
          by_cases same : p.name = arg.1
          · obtain rfl := index_of_name distinct hp hq (same.trans named.symm)
            rw [if_pos rfl, if_pos lt, if_pos same, free]
            rfl
          · have other : j ≠ i := fun e => same (by
              rw [← e, hq] at hp
              cases hp
              exact named)
            rw [if_neg other, if_neg same]

/-- The parameters with what their slots hold, or their defaults. -/
def filled (s : Signature) (slots : List (Option Attr)) : List (Ident × Option Attr) :=
  s.params.zipWith (fun p slot => (p.name, slot <|> p.default?)) slots

theorem filled_keys {slots : List (Option Attr)} (size : slots.length = s.params.length) :
    (s.filled slots).map Prod.fst = s.names :=
  List.ext_getElem (by simp [filled, names, size]) (by simp [filled, names])

theorem getElem?_filled {slots : List (Option Attr)} (size : slots.length = s.params.length)
    {i : Nat} {p : Param} (hp : s.params[i]? = some p) :
    (s.filled slots)[i]? = some (p.name, (slots[i]?).join <|> p.default?) := by
  have lt : i < slots.length := size ▸ (List.getElem?_eq_some_iff.mp hp).1
  simp [filled, List.getElem?_zipWith, hp, List.getElem?_eq_getElem lt]

theorem map_filterMap_of_isSome : ∀ {slots : List (Ident × Option Attr)},
    (∀ e ∈ slots, e.2.isSome) →
      ((slots.filterMap fun e => e.2.map fun v => (e.1, v)).map fun e => (e.1, some e.2)) = slots
  | [], _ => rfl
  | (k, none) :: _, all => by simpa using all (k, none) (by simp)
  | (k, some v) :: rest, all => by
    have later := map_filterMap_of_isSome fun e he => all e (List.mem_cons_of_mem _ he)
    simpa using later

theorem filled_of_bind (h : s.bind args = .ok b) :
    args.positional.length ≤ s.params.length ∧
      ∃ slots, args.keyword.foldlM s.place (args.positional.map some ++
          List.replicate (s.params.length - args.positional.length) none) = .ok slots ∧
        (∀ e ∈ s.filled slots, e.2.isSome) ∧
        b = .ofList ((s.filled slots).filterMap fun e => e.2.map fun v => (e.1, v)) := by
  unfold bind at h
  simp only at h
  split at h
  · cases h
  · rename_i fits
    cases hs : args.keyword.foldlM s.place (args.positional.map some ++
        List.replicate (s.params.length - args.positional.length) none) with
    | error e =>
        rw [hs] at h
        cases h
    | ok slots =>
        rw [hs] at h
        simp only [Bind.bind, Except.bind] at h
        split at h
        · cases h
        · rename_i complete
          cases h
          have missing : ∀ k, (k, none) ∉ s.filled slots := by simpa [filled] using complete
          refine ⟨Nat.le_of_not_lt fits, slots, rfl, ?_, rfl⟩
          rintro ⟨k, _ | v⟩ he
          · exact absurd he (missing k)
          · rfl

theorem getElem?_given (s : Signature) (args : Args) (i : Nat) :
    ((args.positional.map some ++
        List.replicate (s.params.length - args.positional.length) none)[i]?).join =
      args.positional[i]? := by
  rw [List.getElem?_append, List.length_map]
  split
  · rename_i lt
    simp [List.getElem?_eq_getElem lt]
  · rename_i ge
    rw [List.getElem?_eq_none (Nat.le_of_not_lt ge), List.getElem?_replicate]
    split <;> rfl

theorem getElem?_filled_supplied (distinct : s.names.Nodup) {slots : List (Option Attr)}
    (room : args.positional.length ≤ s.params.length)
    (hs : args.keyword.foldlM s.place (args.positional.map some ++
      List.replicate (s.params.length - args.positional.length) none) = .ok slots)
    {i : Nat} {p : Param} (hp : s.params[i]? = some p) :
    (s.filled slots)[i]? = some (p.name, args.supplied i p) := by
  obtain ⟨size, later⟩ := placed distinct (by simp; omega) hs
  rw [getElem?_filled size hp, later i p hp, getElem?_given s args]
  simp [Args.supplied, Option.or_assoc]

/-- A call that binds has an argument or a default for each parameter, and these are bound. -/
theorem bind_ok (distinct : s.names.Nodup) (h : s.bind args = .ok b) :
    b.entries.map Prod.fst = s.names ∧ ∀ (i : Nat) (p : Param), s.params[i]? = some p →
      b.entries[i]? = (args.supplied i p).map fun v => (p.name, v) := by
  obtain ⟨room, slots, hs, all, rfl⟩ := filled_of_bind h
  have size := (placed distinct (by simp; omega) hs).1
  have listed := map_filterMap_of_isSome all
  have keys := filled_keys size
  rw [← listed, List.map_map] at keys
  rw [OrderedMap.entries_ofList (keys ▸ distinct)]
  refine ⟨keys, fun i p hp => ?_⟩
  have here := getElem?_filled_supplied distinct room hs hp
  rw [← listed, List.getElem?_map] at here
  obtain ⟨e, he, same⟩ := Option.map_eq_some_iff.mp here
  obtain ⟨key, value⟩ := Prod.mk.inj same
  rw [he, ← value, ← key]
  rfl

theorem keys_of_bind (distinct : s.names.Nodup) (h : s.bind args = .ok b) : b.keys = s.names :=
  (bind_ok distinct h).1

end Signature

namespace BoundArgs

variable {b c : BoundArgs}

/-- The canonical values of the arguments whose names are not reserved. -/
def publicEntries (b : BoundArgs) : List (Ident × Attr) :=
  (b.entries.filter fun e => !e.1.isReserved).map fun e => (e.1, e.2.canonical)

theorem keys_publicEntries (b : BoundArgs) :
    b.publicEntries.map Prod.fst = b.keys.filter fun k => !k.isReserved := by
  rw [publicEntries, List.map_map, OrderedMap.keys, List.filter_map]
  rfl

theorem canonical_ok (distinct : b.keys.Nodup) :
    b.canonical = .ok (.dict (sortByKey Prod.fst b.publicEntries)) :=
  Attr.ofEntries_ok (b.keys_publicEntries ▸ distinct.filter _)

theorem publicEntries_eq_iff (distinct : b.keys.Nodup) (keys : b.keys = c.keys) :
    b.publicEntries = c.publicEntries ↔ ∀ k ∈ b.keys, k.isReserved = false →
      ∃ v w, b.get? k = some v ∧ c.get? k = some w ∧ v.Equivalent w := by
  obtain ⟨es⟩ := b
  obtain ⟨fs⟩ := c
  simp only [publicEntries, OrderedMap.keys, OrderedMap.get?] at *
  induction es generalizing fs with
  | nil =>
      obtain rfl : fs = [] := List.map_eq_nil_iff.mp keys.symm
      simp
  | cons e es ih =>
      obtain ⟨k, v⟩ := e
      cases fs with
      | nil => cases keys
      | cons f fs =>
          obtain ⟨l, w⟩ := f
          obtain ⟨rfl, others⟩ : k = l ∧ es.map Prod.fst = fs.map Prod.fst := List.cons.inj keys
          obtain ⟨fresh, distinct⟩ := List.nodup_cons.mp distinct
          have later : ∀ k' ∈ es.map Prod.fst, ((k, v) :: es).lookup k' = es.lookup k' ∧
              ((k, w) :: fs).lookup k' = fs.lookup k' := by
            intro k' hk'
            have other : k' ≠ k := fun e => fresh (e ▸ hk')
            simp only [OrderedMap.lookup_cons_if, if_neg other, and_self]
          have rest := ih distinct fs others
          rw [List.map_cons, List.forall_mem_cons]
          have tail : (∀ k' ∈ es.map Prod.fst, k'.isReserved = false → ∃ v' w',
              ((k, v) :: es).lookup k' = some v' ∧ ((k, w) :: fs).lookup k' = some w' ∧
                v'.Equivalent w') ↔ _ :=
            forall₂_congr fun k' hk' => by rw [(later k' hk').1, (later k' hk').2]
          rw [tail, ← rest]
          cases hk : k.isReserved with
          | true => simp [hk]
          | false => simp [hk, Attr.canonical_eq_iff]

/-- Arguments with the same names in the same order have the same canonical parameters just if
their public values are equivalent. -/
theorem sortByKey_publicEntries_eq_iff (distinct : b.keys.Nodup) (keys : b.keys = c.keys) :
    sortByKey Prod.fst b.publicEntries = sortByKey Prod.fst c.publicEntries ↔
      b.publicEntries = c.publicEntries := by
  refine ⟨fun same => ?_, fun same => congrArg _ same⟩
  refine (sortByKey_eq_iff.mp same).eq_of_keys ?_ (b.keys_publicEntries ▸ distinct.filter _)
  rw [keys_publicEntries, keys_publicEntries, keys]

end BoundArgs

namespace Workspace

variable {U : UserCode} {ws : Workspace U}

/-- How a call of `x` goes on whose module is kept under `key`: with the module that `cache` has
there, else with the producer, for whose module the place is the same. -/
def lookupUnder (f : FactoryId) (x : Factory U.ProducerCode) (c : CacheId) (cache : Cache) (key : Attr)
    (bound : BoundArgs) : Lookup U :=
  match cache.get? (f, key) with
  | some m => .hit m
  | none => .miss { factory := f, cache := c, key } x.producer bound

theorem beginProduction_eq {f : FactoryId} {x : Factory U.ProducerCode} {c : CacheId}
    {cache : Cache} {args : Args} {bound : BoundArgs} {key : Attr} (hf : ws.factory? f = some x)
    (hc : ws.cache? c = some cache) (hb : x.signature.bind args = .ok bound)
    (hk : bound.canonical = .ok key) :
    beginProduction f c args ws = .ok (lookupUnder f x c cache key bound) ws := by
  have bound_eq : bindArgs x args = .ok bound := by simp only [bindArgs, hb]
  simp only [beginProduction, resolve, bind, EStateM.bind, get, getThe, MonadStateOf.get,
    EStateM.get, hf, hc, pure, EStateM.pure, bound_eq, hk, Effect.ofExcept, lookupUnder]
  cases cache.get? (f, key) <;> rfl

end Workspace

/-- Two calls of one factory go by the same key just if the values that they bind to its public
parameters are equivalent. -/
theorem Signature.key_eq_iff {s : Signature} (distinct : s.names.Nodup) {args₁ args₂ : Args}
    {b₁ b₂ : BoundArgs} (h₁ : s.bind args₁ = .ok b₁) (h₂ : s.bind args₂ = .ok b₂) :
    (∀ a : Attr, a.canonical.canonical = a.canonical) ∧
      ∃ k₁ k₂, b₁.canonical = .ok k₁ ∧ b₂.canonical = .ok k₂ ∧
        (k₁ = k₂ ↔ ∀ p ∈ s.params, p.name.isReserved = false →
          ∃ v₁ v₂, b₁.get? p.name = some v₁ ∧ b₂.get? p.name = some v₂ ∧ v₁.Equivalent v₂) ∧
        ∀ {U : UserCode} (ws : Workspace U) (f : FactoryId) (x : Factory U.ProducerCode)
          (c : CacheId) (cache : Cache), ws.factory? f = some x → x.signature = s →
            ws.cache? c = some cache →
              Workspace.beginProduction f c args₁ ws =
                  .ok (Workspace.lookupUnder f x c cache k₁ b₁) ws ∧
                Workspace.beginProduction f c args₂ ws =
                  .ok (Workspace.lookupUnder f x c cache k₂ b₂) ws := by
  have keys₁ := keys_of_bind distinct h₁
  have keys₂ := keys_of_bind distinct h₂
  have key₁ := BoundArgs.canonical_ok (keys₁ ▸ distinct)
  have key₂ := BoundArgs.canonical_ok (keys₂ ▸ distinct)
  refine ⟨Attr.canonical_canonical, _, _, key₁, key₂, ?_, ?_⟩
  · have same := keys₁.trans keys₂.symm
    have nodup : b₁.keys.Nodup := keys₁ ▸ distinct
    rw [Attr.dict.injEq, BoundArgs.sortByKey_publicEntries_eq_iff nodup same,
      BoundArgs.publicEntries_eq_iff nodup same, keys₁, names, List.forall_mem_map]
  · rintro U ws f x c cache hf rfl hc
    exact ⟨Workspace.beginProduction_eq hf hc h₁ key₁, Workspace.beginProduction_eq hf hc h₂ key₂⟩

namespace Sample

/-- A width, some options, which may be left out, and a parameter that is no part of the key. -/
def signature : Signature :=
  ⟨[⟨"width", .named none⟩, ⟨"options", .named (some (.dict []))⟩, ⟨"_tag", .named (some .unit)⟩]⟩

/-- The options in the order `outer`, with the dictionary among them in the order `inner`. -/
def options (reversed : Bool) : Attr :=
  let order (es : List (Ident × Attr)) : Attr := .dict (if reversed then es.reverse else es)
  order [("depth", .int 4), ("stages", .array [order [("a", .int 1), ("b", .int 2)]])]

def byPosition : Args := { positional := [.int 8, options false] }

def byName : Args :=
  { keyword := [("_tag", .str "x"), ("options", options true), ("width", .int 8)] }

def boundArgs (options tag : Attr) : BoundArgs :=
  .ofList [("width", .int 8), ("options", options), ("_tag", tag)]

theorem key_of_reordered_options :
    (boundArgs (options false) .unit).canonical =
      (boundArgs (options true) (.str "x")).canonical := by
  have distinct : signature.names.Nodup := by decide
  have bound : signature.bind byPosition = .ok (boundArgs (options false) .unit) := by
    decide +kernel
  have bound' : signature.bind byName = .ok (boundArgs (options true) (.str "x")) := by
    decide +kernel
  obtain ⟨-, k₁, k₂, h₁, h₂, same, -⟩ := Signature.key_eq_iff distinct bound bound'
  have order : (options false).Equivalent (options true) :=
    Attr.canonical_eq_iff.mp (by decide +kernel)
  rw [h₁, h₂, same.mpr]
  intro p hp shown
  simp only [signature, List.mem_cons, List.not_mem_nil, or_false] at hp
  rcases hp with rfl | rfl | rfl
  · exact ⟨.int 8, .int 8, rfl, rfl, .refl _⟩
  · exact ⟨_, _, rfl, rfl, order⟩
  · exact absurd shown (by decide)

end Sample

end Hardware
