import Hardware.Proofs.NameSupply

/-!
A supply of names against its specification. The specification knows a set of names only, and
grants the first name that is not among them. A supply searches on from the number that it granted
last for the same base. This finds the same name, whatever was granted or reserved meanwhile, since
a number that is taken once stays taken.
-/
namespace Hardware

/-- What is asked of a supply: to grant a name made from `base`, or to reserve some names. -/
inductive NameRequest where
  | uniquify (base : Ident)
  | reserve (names : List Ident)
  deriving DecidableEq, Repr

namespace NameRequest

/-- The names that are granted on the requests, in order, and the state that is left. `grant` and
`keep` say what becomes of one request. -/
def serveAll {σ : Type} (grant : σ → Ident → Ident × σ) (keep : σ → List Ident → σ) :
    σ → List NameRequest → List Ident × σ
  | s, [] => ([], s)
  | s, .uniquify base :: requests =>
    let (names, rest) := serveAll grant keep (grant s base).2 requests
    ((grant s base).1 :: names, rest)
  | s, .reserve names :: requests => serveAll grant keep (keep s names) requests

end NameRequest

namespace NameSupply

variable {s : NameSupply} {known : Finset Ident} {issued : List Ident} {base : Ident}

theorem le_search (issued : List Ident) (base : Ident) (fuel k : Nat) :
    k ≤ search issued base fuel k := by
  induction fuel generalizing k with
  | zero => exact Nat.le_refl k
  | succ fuel ih =>
      unfold search
      split
      · exact Nat.le_of_succ_le (ih (k + 1))
      · exact Nat.le_refl k

theorem mem_of_lt_search {fuel k j : Nat} (le : k ≤ j) (lt : j < search issued base fuel k) :
    suffixed base j ∈ issued := by
  induction fuel generalizing k with
  | zero => exact absurd lt (Nat.not_lt_of_le le)
  | succ fuel ih =>
      unfold search at lt
      split at lt
      · rename_i taken
        rcases Nat.eq_or_lt_of_le le with rfl | le
        · simpa using taken
        · exact ih le lt
      · exact absurd lt (Nat.not_lt_of_le le)

/-- The search always ends, and it ends at the least number that is free. -/
theorem firstFree_isLeast (issued : List Ident) (base : Ident) (k : Nat) :
    IsLeast {j | k ≤ j ∧ suffixed base j ∉ issued} (firstFree issued base k) := by
  refine ⟨⟨le_search issued base _ k, firstFree_not_mem issued base k⟩, ?_⟩
  rintro j ⟨le, free⟩
  by_contra lt
  exact free (mem_of_lt_search le (Nat.lt_of_not_le lt))

/-- Where all numbers up to `c` are taken, the search may as well start behind them. -/
theorem firstFree_of_taken {c : Nat}
    (taken : ∀ j, 1 ≤ j → j ≤ c → suffixed base j ∈ issued) :
    firstFree issued base (c + 1) = firstFree issued base 1 := by
  have behind := firstFree_isLeast issued base (c + 1)
  have start := firstFree_isLeast issued base 1
  apply Nat.le_antisymm
  · refine behind.2 ⟨?_, start.1.2⟩
    by_contra lt
    exact start.1.2 (taken _ start.1.1 (Nat.le_of_lt_succ (Nat.lt_of_not_le lt)))
  · exact start.2 ⟨Nat.le_trans (Nat.succ_le_succ (Nat.zero_le c)) behind.1.1, behind.1.2⟩

theorem exists_free (known : Finset Ident) (base : Ident) :
    ∃ k, 1 ≤ k ∧ suffixed base k ∉ known := by
  obtain ⟨le, free⟩ := (firstFree_isLeast known.toList base 1).1
  exact ⟨_, le, fun taken => free (Finset.mem_toList.mpr taken)⟩

/-- The name that is to be granted for `base` where `known` are the names defined or granted so
far: `base` itself, or else the first numbered name that is not known. -/
def specifiedName (known : Finset Ident) (base : Ident) : Ident :=
  if base ∈ known then suffixed base (Nat.find (exists_free known base)) else base

/-- The names that are to be granted on the requests, where `known` are defined at the start, and
the names that are known in the end. -/
def specified (known : Finset Ident) (requests : List NameRequest) : List Ident × Finset Ident :=
  NameRequest.serveAll
    (fun known base => (specifiedName known base, insert (specifiedName known base) known))
    (fun known names => known ∪ names.toFinset) known requests

/-- The names that a supply grants on the requests, and the supply that is left. -/
def supplied (s : NameSupply) (requests : List NameRequest) : List Ident × NameSupply :=
  NameRequest.serveAll uniquify reserve s requests

/-- The supply has issued the names that are known, and a search may be resumed: whatever the base,
all numbers up to the last one granted are taken. -/
structure Agrees (s : NameSupply) (known : Finset Ident) : Prop where
  issued : s.issued.toFinset = known
  resumes : ∀ base j, 1 ≤ j → j ≤ s.counter base → suffixed base j ∈ s.issued

theorem Agrees.mem (h : s.Agrees known) {name : Ident} : name ∈ s.issued ↔ name ∈ known := by
  rw [← h.issued, List.mem_toFinset]

theorem Agrees.ofTaken (names : List Ident) : (ofTaken names).Agrees names.toFinset where
  issued := rfl
  resumes base j pos le := by
    have none : (NameSupply.ofTaken names).counter base = 0 := rfl
    omega

theorem Agrees.reserve (h : s.Agrees known) (names : List Ident) :
    (s.reserve names).Agrees (known ∪ names.toFinset) where
  issued := by
    rw [NameSupply.reserve, List.toFinset_append, h.issued, Finset.union_comm]
  resumes base j pos le := List.mem_append_right _ (h.resumes base j pos le)

theorem Agrees.firstFree_eq (h : s.Agrees known) (base : Ident) :
    firstFree s.issued base (s.counter base + 1) = Nat.find (exists_free known base) := by
  rw [firstFree_of_taken (h.resumes base)]
  refine (firstFree_isLeast s.issued base 1).unique ⟨?_, ?_⟩
  · obtain ⟨pos, free⟩ := Nat.find_spec (exists_free known base)
    exact ⟨pos, mt h.mem.mp free⟩
  · rintro j ⟨pos, free⟩
    exact Nat.find_min' _ ⟨pos, mt h.mem.mpr free⟩

theorem Agrees.uniquify_eq (h : s.Agrees known) (base : Ident) :
    (s.uniquify base).1 = specifiedName known base := by
  unfold uniquify specifiedName
  by_cases taken : base ∈ known
  · have issued : s.contains base = true := by simpa [contains] using h.mem.mpr taken
    rw [if_pos issued, if_pos taken, h.firstFree_eq]
  · have free : s.contains base ≠ true := by simpa [contains] using mt h.mem.mp taken
    rw [if_neg free, if_neg taken]

/-- The counter of `base` moves to the number that is granted; that of any other base stays, while
its names stay taken. -/
theorem Agrees.uniquify (h : s.Agrees known) (base : Ident) :
    (s.uniquify base).2.Agrees (insert (specifiedName known base) known) where
  issued := by
    rw [issued_uniquify, List.toFinset_cons, h.uniquify_eq, h.issued]
  resumes other j pos le := by
    rw [issued_uniquify]
    by_cases taken : s.contains base = true
    · have counted : (s.uniquify base).2.counters =
          (base, firstFree s.issued base (s.counter base + 1)) :: s.counters := by
        rw [NameSupply.uniquify, if_pos taken]
      have named : (s.uniquify base).1 =
          suffixed base (firstFree s.issued base (s.counter base + 1)) := by
        rw [NameSupply.uniquify, if_pos taken]
      unfold counter at le
      rw [counted, List.lookup_cons] at le
      by_cases same : other = base
      · subst same
        simp only [beq_self_eq_true, Option.getD_some] at le
        rcases Nat.eq_or_lt_of_le le with rfl | lt
        · exact named ▸ List.mem_cons_self
        · rw [firstFree_of_taken (h.resumes other)] at lt
          exact List.mem_cons_of_mem _ (mem_of_lt_search pos lt)
      · have different : (other == base) = false := by simpa using same
        rw [different] at le
        exact List.mem_cons_of_mem _ (h.resumes other j pos le)
    · have counted : (s.uniquify base).2.counters = s.counters := by
        rw [NameSupply.uniquify, if_neg taken]
      unfold counter at le
      rw [counted] at le
      exact List.mem_cons_of_mem _ (h.resumes other j pos le)

theorem Agrees.supplied (h : s.Agrees known) (requests : List NameRequest) :
    (s.supplied requests).1 = (specified known requests).1 ∧
      (s.supplied requests).2.Agrees (specified known requests).2 := by
  induction requests generalizing s known with
  | nil => exact ⟨rfl, h⟩
  | cons request requests ih =>
      cases request with
      | uniquify base =>
          obtain ⟨names, agrees⟩ := ih (h.uniquify base)
          exact ⟨congrArg₂ List.cons (h.uniquify_eq base) names, agrees⟩
      | reserve names => exact ih (h.reserve names)

theorem specifiedName_not_mem (known : Finset Ident) (base : Ident) :
    specifiedName known base ∉ known := by
  unfold specifiedName
  split
  · exact (Nat.find_spec (exists_free known base)).2
  · assumption

/-- What is known stays so, and what is granted was not known before and not granted twice. -/
theorem specified_fresh (known : Finset Ident) (requests : List NameRequest) :
    known ⊆ (specified known requests).2 ∧
      (∀ name ∈ (specified known requests).1,
        name ∉ known ∧ name ∈ (specified known requests).2) ∧
      (specified known requests).1.Nodup := by
  induction requests generalizing known with
  | nil => exact ⟨subset_rfl, nofun, List.nodup_nil⟩
  | cons request requests ih =>
      cases request with
      | uniquify base =>
          obtain ⟨kept, fresh, distinct⟩ := ih (insert (specifiedName known base) known)
          have sub := (Finset.insert_subset_iff.mp kept)
          refine ⟨sub.2, fun name mem => ?_, List.nodup_cons.mpr ⟨fun again => ?_, distinct⟩⟩
          · rcases List.mem_cons.mp mem with rfl | mem
            · exact ⟨specifiedName_not_mem known base, sub.1⟩
            · obtain ⟨new, now⟩ := fresh name mem
              exact ⟨fun old => new (Finset.mem_insert_of_mem old), now⟩
          · exact (fresh _ again).1 (Finset.mem_insert_self _ _)
      | reserve names =>
          obtain ⟨kept, fresh, distinct⟩ := ih (known ∪ names.toFinset)
          refine ⟨Finset.subset_union_left.trans kept, fun name mem => ?_, distinct⟩
          obtain ⟨new, now⟩ := fresh name mem
          exact ⟨fun old => new (Finset.mem_union_left _ old), now⟩

/-- A supply that starts with some names taken does, on any requests, what is specified: it grants
the same names, and then knows the same ones. On the next request, too, it grants the base or else
the first numbered name that is not known, and records just this name; the search ends there, and
would end there from the start as well. No name is granted twice, and none that was known. -/
theorem supplied_eq_specified (names : List Ident) (requests : List NameRequest) :
    let (granted, s) := (ofTaken names).supplied requests
    let (due, known) := specified names.toFinset requests
    granted = due ∧ (∀ name, s.contains name = true ↔ name ∈ known) ∧
      granted.Nodup ∧ (∀ name ∈ granted, name ∉ names ∧ name ∈ known) ∧ (∀ name ∈ names, name ∈ known) ∧
      ∀ base,
        IsLeast {k | 1 ≤ k ∧ suffixed base k ∉ known}
          (firstFree s.issued base (s.counter base + 1)) ∧
        firstFree s.issued base (s.counter base + 1) = firstFree s.issued base 1 ∧
        (s.uniquify base).1 = specifiedName known base ∧ (s.uniquify base).1 ∉ known ∧
        ∀ name, (s.uniquify base).2.contains name = true ↔
          name = (s.uniquify base).1 ∨ name ∈ known := by
  obtain ⟨same, agrees⟩ := (Agrees.ofTaken names).supplied requests
  obtain ⟨kept, fresh, distinct⟩ := specified_fresh names.toFinset requests
  generalize (ofTaken names).supplied requests = answer at same agrees
  generalize specified names.toFinset requests = answer' at same agrees kept fresh distinct
  obtain ⟨granted, s⟩ := answer
  obtain ⟨due, known⟩ := answer'
  cases same
  have contains_iff : ∀ name, s.contains name = true ↔ name ∈ known := fun name => by
    rw [← agrees.mem, contains, List.contains_iff_mem]
  refine ⟨rfl, contains_iff, distinct, fun name mem => ?_, fun name mem => ?_, fun base => ?_⟩
  · simpa using fresh name mem
  · exact kept (List.mem_toFinset.mpr mem)
  · have found := agrees.firstFree_eq base
    refine ⟨⟨found ▸ Nat.find_spec (exists_free known base), fun k free => ?_⟩,
      firstFree_of_taken (agrees.resumes base), agrees.uniquify_eq base, ?_, fun name => ?_⟩
    · exact found ▸ Nat.find_min' _ free
    · rw [agrees.uniquify_eq]
      exact specifiedName_not_mem known base
    · rw [contains, issued_uniquify, List.contains_iff_mem, List.mem_cons, agrees.mem]

/-- Names that look like numbered ones are taken into account: `x_2` is free between two that are
taken, and `x_4` comes next. -/
example : ((ofTaken ["x", "x_1", "x_3"]).supplied
    [.uniquify "x", .uniquify "x", .uniquify "x_1"]).1 = ["x_2", "x_4", "x_1_1"] := by
  decide +kernel

end NameSupply

end Hardware
