import Hardware.OrderedMap

/-!
Laws of ordered maps, stated through `get?` and `keys`. What a map holds at a key is
all that the other theory uses; the order matters only to what prints or verifies.
-/
namespace Hardware.OrderedMap

variable {α β : Type} [DecidableEq α]

@[simp] theorem get?_empty (k : α) : (empty : OrderedMap α β).get? k = none := rfl

theorem lookup_cons_if (k l : α) (v : β) (es : List (α × β)) :
    ((l, v) :: es).lookup k = if k = l then some v else es.lookup k := by
  rw [List.lookup_cons]
  by_cases h : k = l
  · simp [h]
  · have h' : (k == l) = false := by simpa using h
    simp [h, h']

theorem lookup_filter_ne (es : List (α × β)) (k k' : α) :
    (es.filter fun e => e.1 ≠ k).lookup k' = if k' = k then none else es.lookup k' := by
  induction es with
  | nil => simp
  | cons e es ih =>
      obtain ⟨l, v⟩ := e
      by_cases hl : l = k
      · subst hl
        rw [List.filter_cons_of_neg (by simp), ih, lookup_cons_if]
        by_cases hk : k' = l <;> simp [hk]
      · rw [List.filter_cons_of_pos (by simpa using hl), lookup_cons_if, ih, lookup_cons_if]
        by_cases hk : k' = l
        · subst hk
          simp [hl]
        · simp [hk]

/-- Setting a key changes what the map holds there and nowhere else. -/
theorem get?_insert (m : OrderedMap α β) (k k' : α) (v : β) :
    (m.insert k v).get? k' = if k' = k then some v else m.get? k' := by
  unfold insert erase get?
  rw [List.lookup_append, lookup_filter_ne, lookup_cons_if]
  by_cases h : k' = k <;> simp [h]

@[simp] theorem get?_insert_self (m : OrderedMap α β) (k : α) (v : β) :
    (m.insert k v).get? k = some v := by
  rw [get?_insert, if_pos rfl]

theorem get?_insert_ne (m : OrderedMap α β) {k k' : α} (v : β) (h : k' ≠ k) :
    (m.insert k v).get? k' = m.get? k' := by
  rw [get?_insert, if_neg h]

theorem get?_modify (m : OrderedMap α β) (k k' : α) (f : β → β) :
    (m.modify k f).get? k' = if k' = k then (m.get? k).map f else m.get? k' := by
  obtain ⟨es⟩ := m
  unfold modify get?
  induction es with
  | nil => simp
  | cons e es ih =>
      obtain ⟨l, v⟩ := e
      simp only [List.map_cons]
      by_cases hl : l = k
      · subst hl
        by_cases hk : k' = l
        · simp [hk]
        · simpa [lookup_cons_if, hk] using ih
      · rw [if_neg hl, lookup_cons_if, lookup_cons_if, lookup_cons_if, ih, if_neg (Ne.symm hl)]
        by_cases hk : k' = l
        · subst hk
          simp [hl]
        · simp [hk]

theorem mem_keys_iff (m : OrderedMap α β) (k : α) : k ∈ m.keys ↔ (m.get? k).isSome := by
  simp [keys, get?, List.lookup_isSome_iff]

/-- Of several values that a list of entries sets for a key, the last stands. -/
theorem get?_ofList (es : List (α × β)) (k : α) :
    (ofList es).get? k = es.reverse.lookup k := by
  have folded : ∀ (es : List (α × β)) (m : OrderedMap α β),
      (es.foldl (fun m e => m.insert e.1 e.2) m).get? k =
        (es.reverse.lookup k).or (m.get? k) := by
    intro es
    induction es with
    | nil => exact fun m => rfl
    | cons e es ih =>
        intro m
        rw [List.foldl_cons, ih, get?_insert, List.reverse_cons, List.lookup_append,
          lookup_cons_if, Option.or_assoc]
        split <;> rfl
  rw [ofList, folded es empty, get?_empty, Option.or_none]

theorem get?_ofList_eq_none {es : List (α × β)} {k : α} :
    (ofList es).get? k = none ↔ k ∉ es.map Prod.fst := by
  rw [get?_ofList, List.lookup_eq_none_iff]
  simp only [List.mem_reverse, List.mem_map, bne_iff_ne, not_exists, not_and]
  exact forall₂_congr fun e _ => ne_comm

theorem mem_of_mem_ofList {es : List (α × β)} {e : α × β} (h : e ∈ (ofList es).entries) :
    e ∈ es := by
  have folded : ∀ (es : List (α × β)) (m : OrderedMap α β),
      e ∈ (es.foldl (fun m e => m.insert e.1 e.2) m).entries → e ∈ m.entries ∨ e ∈ es := by
    intro es
    induction es with
    | nil => exact fun m h => .inl h
    | cons e' es ih =>
        intro m h
        rcases ih _ h with h | h
        · rcases List.mem_append.mp h with old | new
          · exact .inl (List.mem_filter.mp old).1
          · exact .inr (List.mem_singleton.mp new ▸ List.mem_cons_self)
        · exact .inr (List.mem_cons_of_mem _ h)
  rcases folded es empty h with h | h
  · cases h
  · exact h

theorem mem_entries_of_get? {m : OrderedMap α β} {k : α} {v : β} (h : m.get? k = some v) :
    (k, v) ∈ m.entries := by
  unfold get? at h
  induction hes : m.entries generalizing m with
  | nil =>
      rw [hes] at h
      cases h
  | cons e es ih =>
      obtain ⟨l, w⟩ := e
      rw [hes, lookup_cons_if] at h
      split at h
      · rename_i hk
        cases h
        rw [hk]
        exact List.mem_cons_self
      · exact List.mem_cons_of_mem _ (ih (m := ⟨es⟩) h rfl)

theorem mem_of_get?_ofList {es : List (α × β)} {k : α} {v : β}
    (h : (ofList es).get? k = some v) : (k, v) ∈ es :=
  mem_of_mem_ofList (mem_entries_of_get? h)

/-- A key that is new is set behind all others. -/
theorem entries_insert {m : OrderedMap α β} {k : α} (new : m.get? k = none) (v : β) :
    (m.insert k v).entries = m.entries ++ [(k, v)] := by
  have other : ∀ e ∈ m.entries, decide (e.1 ≠ k) = true := by
    intro e he
    have found := List.lookup_eq_none_iff.mp new e he
    exact decide_eq_true (Ne.symm (by simpa using found))
  unfold insert erase
  rw [List.filter_eq_self.mpr other]

theorem keys_insert {m : OrderedMap α β} {k : α} (new : m.get? k = none) (v : β) :
    (m.insert k v).keys = m.keys ++ [k] := by
  unfold keys
  rw [entries_insert new, List.map_append]
  rfl

@[simp] theorem keys_modify (m : OrderedMap α β) (k : α) (f : β → β) :
    (m.modify k f).keys = m.keys := by
  unfold keys modify
  rw [List.map_map]
  refine List.map_congr_left fun e _ => ?_
  simp only [Function.comp_apply]
  split <;> rfl

/-- Where no key comes twice, each entry is found under its key. -/
theorem get?_of_mem {m : OrderedMap α β} (distinct : m.keys.Nodup) {k : α} {v : β}
    (mem : (k, v) ∈ m.entries) : m.get? k = some v := by
  obtain ⟨es⟩ := m
  unfold get?
  induction es with
  | nil => cases mem
  | cons e es ih =>
      obtain ⟨l, w⟩ := e
      obtain ⟨fresh, distinct⟩ := List.nodup_cons.mp distinct
      rw [lookup_cons_if]
      rcases List.mem_cons.mp mem with same | mem
      · cases same
        exact if_pos rfl
      · have other : k ≠ l := fun e => fresh (List.mem_map.mpr ⟨(k, v), mem, e⟩)
        rw [if_neg other, ih distinct mem]

theorem entries_ofList {es : List (α × β)} (distinct : (es.map Prod.fst).Nodup) :
    (ofList es).entries = es := by
  have folded : ∀ (es : List (α × β)) (m : OrderedMap α β),
      ((m.entries ++ es).map Prod.fst).Nodup →
        (es.foldl (fun m e => m.insert e.1 e.2) m).entries = m.entries ++ es := by
    intro es
    induction es with
    | nil => simp
    | cons e es ih =>
        intro m distinct
        have new : m.get? e.1 = none := by
          rw [List.map_append, List.nodup_append] at distinct
          refine List.lookup_eq_none_iff.mpr fun e' he' => ?_
          have other := distinct.2.2 e'.1 (List.mem_map_of_mem he') e.1 (by simp)
          simpa using Ne.symm other
        have inserted := entries_insert new e.2
        rw [List.foldl_cons, ih _ (by rw [inserted]; simpa using distinct), inserted]
        simp
  exact folded es empty (by simpa [empty] using distinct)

end Hardware.OrderedMap
