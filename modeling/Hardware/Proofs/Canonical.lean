import Hardware.Attr.Canonical
import Hardware.Proofs.KeyOrder

/-!
What canonical attributes stand for. Two attributes have the same canonical form just if
they are equal but for the order in which dictionaries, at any depth, list their entries.
-/
namespace Hardware.Attr

/-- Equal but for the order of dictionary entries, in the values of arrays and dictionaries too.
Entries of one dictionary that share a key keep their relative order. -/
inductive Equivalent : Attr → Attr → Prop
  | refl (a : Attr) : Equivalent a a
  | array {as bs : List Attr} (each : List.Forall₂ Equivalent as bs) :
      Equivalent (.array as) (.array bs)
  | dict {es fs gs : List (Ident × Attr)} (keys : es.map Prod.fst = fs.map Prod.fst)
      (each : List.Forall₂ Equivalent (es.map Prod.snd) (fs.map Prod.snd))
      (moved : Reordered Prod.fst fs gs) : Equivalent (.dict es) (.dict gs)

theorem canonicalEntries_eq_map :
    ∀ es : List (Ident × Attr), canonicalEntries es = es.map fun e => (e.1, e.2.canonical)
  | [] => rfl
  | e :: es => by rw [canonicalEntries, canonicalEntries_eq_map es, List.map_cons]

/-- Whether the values or the order of the entries are made canonical first is the same. -/
theorem sortByKey_canonicalEntries (es : List (Ident × Attr)) :
    sortByKey Prod.fst (canonicalEntries es) = canonicalEntries (sortByKey Prod.fst es) := by
  rw [canonicalEntries_eq_map, canonicalEntries_eq_map]
  exact sortByKey_map (fun _ => rfl) es

mutual

theorem Equivalent.canonical_eq : ∀ {a b : Attr}, a.Equivalent b → a.canonical = b.canonical
  | .array as, _, h => by
    cases h with
    | refl => rfl
    | array each => rw [canonical, canonical, canonicals_eq each]
  | .dict es, _, h => by
    cases h with
    | refl => rfl
    | dict keys each moved =>
      rw [canonical, canonical, canonicalEntries_eq keys each, sortByKey_canonicalEntries,
        sortByKey_canonicalEntries, sortByKey_eq_iff.mpr moved]
  | .unit, _, h | .bool _, _, h | .int _, _, h | .str _, _, h | .type _, _, h
  | .outputFile _, _, h | .appId _ _, _, h | .symbolRef _, _, h => by
    cases h
    rfl

theorem canonicals_eq :
    ∀ {as bs : List Attr}, List.Forall₂ Equivalent as bs → canonicals as = canonicals bs
  | [], _, h => by
    cases h
    rfl
  | _ :: _, _, h => by
    cases h with
    | cons first rest => rw [canonicals, canonicals, first.canonical_eq, canonicals_eq rest]

theorem canonicalEntries_eq : ∀ {es fs : List (Ident × Attr)},
    es.map Prod.fst = fs.map Prod.fst →
      List.Forall₂ Equivalent (es.map Prod.snd) (fs.map Prod.snd) →
        canonicalEntries es = canonicalEntries fs
  | [], fs, keys, _ => by
    cases fs with
    | nil => rfl
    | cons f fs => cases keys
  | (k, _) :: es, fs, keys, each => by
    cases fs with
    | nil => cases keys
    | cons f fs =>
      obtain ⟨same, keys⟩ : k = f.1 ∧ es.map Prod.fst = fs.map Prod.fst := List.cons.inj keys
      cases each with
      | cons first rest =>
        rw [canonicalEntries, canonicalEntries, canonicalEntries_eq keys rest, first.canonical_eq,
          same]

end

/-- Where the canonical entries of `gs` can be brought into the order of those of `es`, so can
the entries of `gs` themselves. -/
theorem reordered_of_canonicalEntries {es gs : List (Ident × Attr)}
    (h : Reordered Prod.fst (canonicalEntries es) (canonicalEntries gs)) :
    ∃ fs, Reordered Prod.fst fs gs ∧ canonicalEntries es = canonicalEntries fs := by
  have values : List.Forall₂ (fun g c => (g.1, g.2.canonical) = c) gs (canonicalEntries gs) := by
    rw [canonicalEntries_eq_map, List.forall₂_map_right_iff]
    exact List.forall₂_same.mpr fun _ _ => rfl
  have keys : ∀ (g c : Ident × Attr), (g.1, g.2.canonical) = c → g.1 = c.1 := by
    rintro g _ rfl
    rfl
  obtain ⟨fs, moved, listed⟩ := h.symm.along keys values
  have same := List.forall₂_map_left_iff.mpr listed
  rw [List.forall₂_eq_eq_eq] at same
  exact ⟨fs, moved.symm, by rw [canonicalEntries_eq_map fs, same]⟩

mutual

theorem equivalent_of_canonical_eq :
    ∀ {a b : Attr}, a.canonical = b.canonical → a.Equivalent b
  | .array as, b, h => by
    cases b <;> simp only [canonical, reduceCtorEq, Attr.array.injEq] at h
    exact .array (equivalent_of_canonicals h)
  | .dict es, b, h => by
    cases b <;> simp only [canonical, reduceCtorEq, Attr.dict.injEq] at h
    rename_i gs
    obtain ⟨fs, moved, listed⟩ := reordered_of_canonicalEntries (sortByKey_eq_iff.mp h)
    obtain ⟨keys, each⟩ := equivalent_of_canonicalEntries listed
    exact .dict keys each moved
  | .unit, b, h | .bool _, b, h | .int _, b, h | .str _, b, h | .type _, b, h
  | .outputFile _, b, h | .appId _ _, b, h | .symbolRef _, b, h => by
    cases b <;> simp only [canonical, reduceCtorEq] at h
    cases h
    exact .refl _

theorem equivalent_of_canonicals :
    ∀ {as bs : List Attr}, canonicals as = canonicals bs → List.Forall₂ Equivalent as bs
  | [], bs, h => by
    cases bs with
    | nil => exact .nil
    | cons b bs => cases h
  | a :: as, bs, h => by
    cases bs with
    | nil => cases h
    | cons b bs =>
      obtain ⟨first, rest⟩ := List.cons.inj h
      exact .cons (equivalent_of_canonical_eq first) (equivalent_of_canonicals rest)

theorem equivalent_of_canonicalEntries :
    ∀ {es fs : List (Ident × Attr)}, canonicalEntries es = canonicalEntries fs →
      es.map Prod.fst = fs.map Prod.fst ∧
        List.Forall₂ Equivalent (es.map Prod.snd) (fs.map Prod.snd)
  | [], fs, h => by
    cases fs with
    | nil => exact ⟨rfl, .nil⟩
    | cons f fs => cases h
  | (k, a) :: es, fs, h => by
    cases fs with
    | nil => cases h
    | cons f fs =>
      obtain ⟨first, rest⟩ := List.cons.inj h
      obtain ⟨same, value⟩ := Prod.mk.inj first
      obtain ⟨keys, each⟩ := equivalent_of_canonicalEntries rest
      refine ⟨?_, .cons (equivalent_of_canonical_eq value) each⟩
      rw [List.map_cons, List.map_cons, keys, same]

end

/-- The canonical form tells exactly the attributes apart that are not equivalent. -/
theorem canonical_eq_iff {a b : Attr} : a.canonical = b.canonical ↔ a.Equivalent b :=
  ⟨equivalent_of_canonical_eq, Equivalent.canonical_eq⟩

mutual

/-- A canonical attribute is its own canonical form. -/
theorem canonical_canonical : ∀ a : Attr, a.canonical.canonical = a.canonical
  | .array as => by rw [canonical, canonical, canonicals_canonicals as]
  | .dict es => by
    have again := sortByKey_eq_iff.mpr (reordered_sortByKey Prod.fst (canonicalEntries es)).symm
    rw [canonical, canonical, ← sortByKey_canonicalEntries, canonicalEntries_canonicalEntries es,
      again]
  | .unit | .bool _ | .int _ | .str _ | .type _ | .outputFile _ | .appId _ _ | .symbolRef _ => rfl

theorem canonicals_canonicals : ∀ as : List Attr, canonicals (canonicals as) = canonicals as
  | [] => rfl
  | a :: as => by
    rw [canonicals, canonicals, canonical_canonical a, canonicals_canonicals as]

theorem canonicalEntries_canonicalEntries : ∀ es : List (Ident × Attr),
    canonicalEntries (canonicalEntries es) = canonicalEntries es
  | [] => rfl
  | (k, a) :: es => by
    rw [canonicalEntries, canonicalEntries, canonical_canonical a,
      canonicalEntries_canonicalEntries es]

end

end Hardware.Attr
