import Mathlib.Data.List.Nodup

/- The numbers of a half-open interval with a property, in ascending order, and how a
   scan that goes part by part puts them together. -/
namespace IntervalScan

def pick (P : Nat → Prop) [DecidablePred P] (lo hi : Nat) : List Nat :=
  (List.range' lo (hi - lo)).filter P

variable {P Q : Nat → Prop} [DecidablePred P] [DecidablePred Q] {lo mid hi : Nat}

@[simp] theorem mem_pick {a : Nat} : a ∈ pick P lo hi ↔ lo ≤ a ∧ a < hi ∧ P a := by
  simp only [pick, List.mem_filter, List.mem_range'_1, decide_eq_true_eq]
  constructor
  · rintro ⟨⟨low, high⟩, here⟩
    exact ⟨low, by omega, here⟩
  · rintro ⟨low, high, here⟩
    exact ⟨⟨low, by omega⟩, here⟩

theorem pick_ascending (P : Nat → Prop) [DecidablePred P] (lo hi : Nat) :
    (pick P lo hi).Pairwise (· < ·) :=
  List.Pairwise.filter _ List.pairwise_lt_range'

theorem pick_append (first : lo ≤ mid) (second : mid ≤ hi) :
    pick P lo mid ++ pick P mid hi = pick P lo hi := by
  unfold pick
  rw [← List.filter_append]
  congr 1
  obtain ⟨m, rfl⟩ := Nat.exists_eq_add_of_le first
  obtain ⟨n, rfl⟩ := Nat.exists_eq_add_of_le second
  have parts : lo + m - lo = m ∧ lo + m + n - (lo + m) = n ∧ lo + m + n - lo = m + n := by
    omega
  rw [parts.1, parts.2.1, parts.2.2]
  exact List.range'_append_1

theorem pick_congr (same : ∀ a, lo ≤ a → a < hi → (P a ↔ Q a)) :
    pick P lo hi = pick Q lo hi := by
  apply List.filter_congr
  intro a member
  rw [List.mem_range'_1] at member
  simp only [decide_eq_decide]
  exact same a member.1 (by omega)

theorem pick_none (none : ∀ a, lo ≤ a → a < hi → ¬ P a) : pick P lo hi = [] := by
  apply List.filter_eq_nil_iff.mpr
  intro a member
  rw [List.mem_range'_1] at member
  simp only [decide_eq_true_eq]
  exact none a member.1 (by omega)

theorem pick_empty (past : hi ≤ lo) : pick P lo hi = [] :=
  pick_none fun a low high => by omega

/-- A part without the property may be left out. -/
theorem pick_skip (first : lo ≤ mid) (second : mid ≤ hi)
    (none : ∀ a, lo ≤ a → a < mid → ¬ P a) : pick P lo hi = pick P mid hi := by
  rw [← pick_append first second, pick_none none, List.nil_append]

/-- The first number of the interval has the property and the next ones up to `mid` do
   not. -/
theorem pick_cons (first : lo < mid) (second : mid ≤ hi) (here : P lo)
    (none : ∀ a, lo < a → a < mid → ¬ P a) : pick P lo hi = lo :: pick P mid hi := by
  have head : pick P lo (lo + 1) = [lo] := by
    simp [pick, here]
  rw [← pick_append (Nat.le_succ lo) (Nat.le_trans first second), head,
    pick_skip first second fun a low high => none a low high]
  rfl

theorem pick_length_le (P : Nat → Prop) [DecidablePred P] (lo hi : Nat) :
    (pick P lo hi).length ≤ hi - lo := by
  have bound := List.length_filter_le (fun a => decide (P a)) (List.range' lo (hi - lo))
  rwa [List.length_range'] at bound

theorem pick_length_mono (more : ∀ a, P a → Q a) :
    (pick P lo hi).length ≤ (pick Q lo hi).length := by
  apply List.Sublist.length_le
  apply List.monotone_filter_right
  intro a here
  simpa using more a (by simpa using here)

variable {α : Type} {f : Nat → Option α}

/-- What a partial function gives on the numbers of an interval. -/
def gather (f : Nat → Option α) (lo hi : Nat) : List α := (List.range' lo (hi - lo)).filterMap f

/-- The element of a list that has one only. -/
def sole : List α → Option α
  | [a] => some a
  | _ => none

theorem gather_empty (past : hi ≤ lo) : gather f lo hi = [] := by
  rw [gather, Nat.sub_eq_zero_of_le past]
  rfl

theorem gather_cons (inside : lo < hi) :
    gather f lo hi = (f lo).toList ++ gather f (lo + 1) hi := by
  obtain ⟨n, rfl⟩ := Nat.exists_eq_add_of_lt inside
  have size : lo + n + 1 - lo = n + 1 ∧ lo + n + 1 - (lo + 1) = n := by omega
  rw [gather, gather, size.1, size.2, List.range'_succ, List.filterMap_cons]
  cases f lo <;> rfl

theorem mem_gather {a : α} : a ∈ gather f lo hi ↔ ∃ n, lo ≤ n ∧ n < hi ∧ f n = some a := by
  simp only [gather, List.mem_filterMap, List.mem_range'_1]
  constructor
  · rintro ⟨n, ⟨low, high⟩, here⟩
    exact ⟨n, low, by omega, here⟩
  · rintro ⟨n, low, high, here⟩
    exact ⟨n, ⟨low, by omega⟩, here⟩

theorem sole_cons_iff {a b : α} {rest : List α} :
    sole (a :: rest) = some b ↔ rest = [] ∧ a = b := by
  cases rest <;> simp [sole]

/-- One number only has a value, and that is the sole one. -/
theorem sole_gather_iff {a : α} : sole (gather f lo hi) = some a ↔
    ∃ n, lo ≤ n ∧ n < hi ∧ f n = some a ∧ ∀ m, lo ≤ m → m < hi → (f m).isSome → m = n := by
  induction left : hi - lo generalizing lo with
  | zero =>
    rw [gather_empty (by omega)]
    constructor
    · intro impossible
      cases impossible
    · rintro ⟨n, low, high, -⟩
      omega
  | succ k ih =>
    rw [gather_cons (by omega)]
    cases here : f lo with
    | none =>
      rw [Option.toList_none, List.nil_append, ih (by omega)]
      constructor
      · rintro ⟨n, low, high, value, only⟩
        refine ⟨n, by omega, high, value, fun m low' high' hit => ?_⟩
        rcases Nat.eq_or_lt_of_le low' with first | later
        · rw [← first, here] at hit
          cases hit
        · exact only m later high' hit
      · rintro ⟨n, low, high, value, only⟩
        have after : n ≠ lo := by
          rintro rfl
          rw [here] at value
          cases value
        exact ⟨n, by omega, high, value, fun m low' => only m (by omega)⟩
    | some b =>
      rw [Option.toList_some, List.singleton_append, sole_cons_iff]
      constructor
      · rintro ⟨none, rfl⟩
        refine ⟨lo, Nat.le_refl lo, by omega, here, fun m low high hit => ?_⟩
        rcases Nat.eq_or_lt_of_le low with first | later
        · exact first.symm
        · obtain ⟨c, value⟩ := Option.isSome_iff_exists.mp hit
          have member : c ∈ gather f (lo + 1) hi := mem_gather.mpr ⟨m, later, high, value⟩
          rw [none] at member
          cases member
      · rintro ⟨n, low, high, value, only⟩
        have first : lo = n := only lo (Nat.le_refl lo) (by omega) (by rw [here]; rfl)
        subst first
        rw [here] at value
        refine ⟨List.eq_nil_iff_forall_not_mem.mpr fun c member => ?_, Option.some.inj value⟩
        obtain ⟨m, low', high', other⟩ := mem_gather.mp member
        have again := only m (by omega) high' (by rw [other]; rfl)
        omega

end IntervalScan
