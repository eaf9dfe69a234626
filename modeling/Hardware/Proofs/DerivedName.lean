import Hardware.DerivedName
import Hardware.Proofs.KeyOrder

/-!
Names derived from parameters are identifiers. Whatever texts the parameters bring along, the
reduction keeps their letters and numbers in order and puts single underscores between them, so a
name that begins as an identifier stays one. The words are sorted, so the order of the parameters
is lost.
-/
namespace Hardware

namespace DerivedName

open Text

variable {acc cs word rest : List Char} {c : Char}

theorem not_isAlphanumeric_underscore : isAlphanumeric '_' = false := by decide +kernel

theorem ne_of_isAlphanumeric {d : Char} (letter : isAlphanumeric c = true)
    (other : isAlphanumeric d = false) : c ≠ d := by
  rintro rfl
  rw [letter] at other
  cases other

section Reduction

/-- No two underscores stand next to each other. -/
def Apart (a b : Char) : Prop := ¬ (a = '_' ∧ b = '_')

/-- Letters and numbers with single underscores among them. -/
structure Tidy (cs : List Char) : Prop where
  clean : ∀ c ∈ cs, isAlphanumeric c = true ∨ c = '_'
  single : cs.IsChain Apart

/-- A step of the reduction appends a letter as it is. Of anything else it makes an underscore, if
none is there already, or nothing at all. -/
theorem reduceStep_cases (acc : List Char) (c : Char) :
    (isAlphanumeric c = true ∧ reduceStep acc c = c :: acc) ∨
      isAlphanumeric c = false ∧
        (reduceStep acc c = acc ∨ reduceStep acc c = '_' :: acc ∧ ∀ x ∈ acc.head?, x ≠ '_') := by
  unfold reduceStep
  split
  · exact .inl ⟨‹_›, rfl⟩
  · refine .inr ⟨by simpa using ‹¬ isAlphanumeric c = true›, ?_⟩
    split
    · exact .inl rfl
    · cases acc with
      | nil => exact .inl rfl
      | cons a acc =>
          by_cases separated : a = '_'
          · exact .inl (by simp [separated])
          · exact .inr (by simp [separated])

theorem Tidy.cons (h : Tidy acc) (clean : isAlphanumeric c = true ∨ c = '_')
    (apart : ∀ x ∈ acc.head?, Apart c x) : Tidy (c :: acc) where
  clean := List.forall_mem_cons.mpr ⟨clean, h.clean⟩
  single := List.isChain_cons.mpr ⟨apart, h.single⟩

theorem Tidy.reduceStep (h : Tidy acc) (c : Char) : Tidy (reduceStep acc c) := by
  rcases reduceStep_cases acc c with ⟨letter, step⟩ | ⟨-, step | ⟨step, separate⟩⟩
  · rw [step]
    have inner := ne_of_isAlphanumeric letter not_isAlphanumeric_underscore
    exact h.cons (.inl letter) fun _ _ both => inner both.1
  · rwa [step]
  · rw [step]
    exact h.cons (.inr rfl) fun x first both => separate x first both.2

theorem tidy_foldl (h : Tidy acc) (cs : List Char) : Tidy (cs.foldl reduceStep acc) := by
  induction cs generalizing acc with
  | nil => exact h
  | cons c cs ih => exact ih (h.reduceStep c)

/-- What is written is not taken back. -/
theorem suffix_foldl (acc cs : List Char) : acc <:+ cs.foldl reduceStep acc := by
  induction cs generalizing acc with
  | nil => exact List.suffix_rfl
  | cons c cs ih =>
      refine List.IsSuffix.trans ?_ (ih (reduceStep acc c))
      rcases reduceStep_cases acc c with ⟨-, step⟩ | ⟨-, step | ⟨step, -⟩⟩
      · exact step ▸ List.suffix_cons c acc
      · rw [step]
      · exact step ▸ List.suffix_cons '_' acc

theorem letters_foldl (acc cs : List Char) :
    (cs.foldl reduceStep acc).filter isAlphanumeric =
      (cs.filter isAlphanumeric).reverse ++ acc.filter isAlphanumeric := by
  induction cs generalizing acc with
  | nil => rfl
  | cons c cs ih =>
      rw [List.foldl_cons, ih]
      rcases reduceStep_cases acc c with ⟨letter, step⟩ | ⟨other, step | ⟨step, -⟩⟩
      · simp [step, letter]
      · simp [step, other]
      · simp [step, other, not_isAlphanumeric_underscore]

theorem foldl_word (letters : ∀ c ∈ word, isAlphanumeric c = true) (acc : List Char) :
    word.foldl reduceStep acc = word.reverse ++ acc := by
  induction word generalizing acc with
  | nil => rfl
  | cons c word ih =>
      obtain ⟨letter, letters⟩ := List.forall_mem_cons.mp letters
      have step : reduceStep acc c = c :: acc := if_pos letter
      rw [List.foldl_cons, step, ih letters]
      simp

end Reduction

section Trim

theorem Tidy.suffix (h : Tidy cs) (part : acc <:+ cs) : Tidy acc where
  clean c mem := h.clean c (part.subset mem)
  single := h.single.suffix part

theorem Tidy.reverse (h : Tidy cs) : Tidy cs.reverse where
  clean c mem := h.clean c (List.mem_reverse.mp mem)
  single := List.isChain_reverse.mpr (h.single.imp fun _ _ apart both => apart both.symm)

theorem Tidy.not_infix (h : Tidy cs) : ¬ ['_', '_'] <:+: cs := by
  intro within
  have pair := h.single.infix within
  rw [List.isChain_pair] at pair
  exact pair ⟨rfl, rfl⟩

theorem tidy_reduce (cs : List Char) : Tidy (reduce cs) := by
  have written : Tidy (cs.foldl reduceStep []) := tidy_foldl ⟨by simp, .nil⟩ cs
  exact ((written.suffix (List.dropWhile_suffix _)).reverse).suffix (List.dropWhile_suffix _)

theorem letters_dropWhile (cs : List Char) :
    (cs.dropWhile (· = '_')).filter isAlphanumeric = cs.filter isAlphanumeric := by
  induction cs with
  | nil => rfl
  | cons c cs ih =>
      by_cases separator : c = '_'
      · simp [separator, ih, not_isAlphanumeric_underscore]
      · simp [separator]

theorem letters_reduce (cs : List Char) :
    (reduce cs).filter isAlphanumeric = cs.filter isAlphanumeric := by
  rw [reduce, letters_dropWhile, List.filter_reverse, letters_dropWhile, letters_foldl]
  simp

theorem dropWhile_of_head (first : ∀ x ∈ cs.head?, x ≠ '_') : cs.dropWhile (· = '_') = cs := by
  cases cs with
  | nil => rfl
  | cons c cs => exact List.dropWhile_cons_of_neg (by simpa using first c rfl)

/-- Where a word comes first, only the end of what follows it is trimmed. -/
theorem reduce_word (nonempty : word ≠ []) (letters : ∀ c ∈ word, isAlphanumeric c = true)
    (rest : List Char) : word <+: reduce (word ++ rest) ∧
      (∀ x ∈ (reduce (word ++ rest)).head?, x ≠ '_') ∧
      ∀ x ∈ (reduce (word ++ rest)).getLast?, x ≠ '_' := by
  have inner : ∀ c ∈ word, c ≠ '_' := fun c mem =>
    ne_of_isAlphanumeric (letters c mem) not_isAlphanumeric_underscore
  have written : (word ++ rest).foldl reduceStep [] = rest.foldl reduceStep word.reverse := by
    rw [List.foldl_append, foldl_word letters, List.append_nil]
  have kept : word.reverse <:+ (rest.foldl reduceStep word.reverse).dropWhile (· = '_') := by
    obtain ⟨more, split⟩ := suffix_foldl word.reverse rest
    rw [← split, List.dropWhile_append]
    split
    · rw [dropWhile_of_head fun x first => inner x (by simpa using List.mem_of_mem_head? first)]
    · exact List.suffix_append _ _
  have front : word <+: ((rest.foldl reduceStep word.reverse).dropWhile (· = '_')).reverse := by
    rw [← List.reverse_suffix, List.reverse_reverse]
    exact kept
  have first : ∀ x ∈ ((rest.foldl reduceStep word.reverse).dropWhile (· = '_')).reverse.head?,
      x ≠ '_' := by
    obtain ⟨tail, split⟩ := front
    rw [← split, List.head?_append_of_ne_nil _ nonempty]
    exact fun x first => inner x (List.mem_of_mem_head? first)
  rw [reduce, written, dropWhile_of_head first]
  refine ⟨front, first, fun x last => ?_⟩
  have stops := List.head?_dropWhile_not (· = '_') (rest.foldl reduceStep word.reverse)
  rw [← List.getLast?_reverse, Option.mem_def.mp last] at stops
  simpa using stops

end Trim

section Words

theorem removeMark_cons (other : c ≠ '!') (cs : List Char) :
    removeMark (c :: cs) = c :: removeMark cs := by
  rw [removeMark]
  exact fun _ mark _ => other mark

theorem removeMark_word (letters : ∀ c ∈ word, isAlphanumeric c = true) (rest : List Char) :
    removeMark (word ++ rest) = word ++ removeMark rest := by
  induction word with
  | nil => rfl
  | cons c word ih =>
      obtain ⟨letter, letters⟩ := List.forall_mem_cons.mp letters
      have other : c ≠ '!' := ne_of_isAlphanumeric letter (by decide +kernel)
      rw [List.cons_append, removeMark_cons other, ih letters, List.cons_append]

/-- In which order texts come makes no difference to the sort. -/
theorem sort_perm {texts texts' : List String} (h : texts.Perm texts') :
    sortByKey id texts = sortByKey id texts' := by
  induction h with
  | nil => rfl
  | cons x _ ih => simp only [sortByKey, ih]
  | swap x y texts =>
      by_cases same : x = y
      · rw [same]
      · have other : id y ≠ id x := Ne.symm same
        exact insertByKey_comm other _
  | trans _ _ ih ih' => exact ih.trans ih'

/-- What the parameters add to a name, before the reduction. -/
def addition (params : Attr) : String := String.join ((words params).map ("_" ++ ·))

theorem toList_derivedName {base : Ident}
    (letters : ∀ c ∈ base.toList, isAlphanumeric c = true) (params : Attr) :
    (derivedName base params).toList =
      reduce (base.toList ++ removeMark (addition params).toList) := by
  rw [derivedName, String.toList_ofList, String.join_cons, String.toList_append,
    removeMark_word letters, addition]

theorem words_perm {entries entries' : List (Ident × Attr)} (h : entries.Perm entries') :
    words (.dict entries) = words (.dict entries') := sort_perm (h.map _)

end Words

end DerivedName

open DerivedName in
/-- A name derived from a word is the word and what became of the parameters: an identifier with the
letters of all of them, in which no underscore stands at the end or next to another. -/
theorem derivedName_clean {base : Ident} (nonempty : base ≠ "")
    (letters : ∀ c ∈ base.toList, Text.isAlphanumeric c = true) (entries : List (Ident × Attr)) :
    base.toList <+: (derivedName base (.dict entries)).toList ∧
    (∀ c ∈ (derivedName base (.dict entries)).toList, Text.isAlphanumeric c = true ∨ c = '_') ∧
    ¬ ['_', '_'] <:+: (derivedName base (.dict entries)).toList ∧
    (derivedName base (.dict entries)).toList.head? ≠ some '_' ∧
    (derivedName base (.dict entries)).toList.getLast? ≠ some '_' ∧
    (∀ entries', entries.Perm entries' →
      derivedName base (.dict entries') = derivedName base (.dict entries)) ∧
    (derivedName base (.dict entries)).toList.filter Text.isAlphanumeric =
      base.toList ++ (removeMark (addition (.dict entries)).toList).filter Text.isAlphanumeric := by
  have word : base.toList ≠ [] := by simpa using nonempty
  have spelled := toList_derivedName letters (.dict entries)
  obtain ⟨front, first, last⟩ :=
    reduce_word word letters (removeMark (addition (.dict entries)).toList)
  have tidy := tidy_reduce (base.toList ++ removeMark (addition (.dict entries)).toList)
  rw [← spelled] at front first last tidy
  refine ⟨front, tidy.clean, tidy.not_infix, fun h => first _ h rfl, fun h => last _ h rfl, ?_, ?_⟩
  · intro entries' reordered
    rw [derivedName, derivedName, words_perm reordered]
  · rw [spelled, letters_reduce, List.filter_append, List.filter_eq_self.mpr letters]

namespace Sample

/-- Parameters with a text that is no identifier. -/
def fifoParams : List (Ident × Attr) := [("width", .int 8), ("name", .str "_a!hw. b_")]

theorem fifo_name_clean : derivedName "Fifo" (.dict fifoParams) = "Fifo_name_a_b_width8" ∧
    ¬ ['_', '_'] <:+: (derivedName "Fifo" (.dict fifoParams)).toList ∧
    derivedName "Fifo" (.dict fifoParams.reverse) = derivedName "Fifo" (.dict fifoParams) := by
  have letters : "Fifo".toList.all Text.isAlphanumeric = true := by decide +kernel
  obtain ⟨-, -, single, -, -, order, -⟩ :=
    derivedName_clean (by decide) (List.all_eq_true.mp letters) fifoParams
  exact ⟨by decide +kernel, single, order _ (List.reverse_perm _).symm⟩

end Sample

end Hardware
