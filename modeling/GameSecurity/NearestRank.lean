import Mathlib.Algebra.Order.Floor.Div
import Mathlib.Data.List.Sort

/- The nearest-rank percentile of a list of values, and how many of the values a bound must have
   below it to be at least that percentile. -/
namespace NearestRank

variable {α : Type} [LinearOrder α]

theorem getElem_le_iff {ordered : List α} (sorted : ordered.Pairwise (· ≤ ·)) (b : α) :
    ∀ k (inside : k < ordered.length),
      ordered[k] ≤ b ↔ k < ordered.countP fun value => value ≤ b := by
  induction ordered with
  | nil =>
    intro k inside
    exact absurd inside (Nat.not_lt_zero k)
  | cons value rest ih =>
    obtain ⟨least, later⟩ := List.pairwise_cons.mp sorted
    intro k inside
    by_cases small : value ≤ b
    · rw [List.countP_cons_of_pos (by simpa using small)]
      cases k with
      | zero => simpa using small
      | succ k =>
        rw [List.getElem_cons_succ, ih later k (by simpa using inside)]
        omega
    · have nobody : rest.countP (fun value => value ≤ b) = 0 := by
        rw [List.countP_eq_zero]
        intro other member
        have far := least other member
        simpa using (not_le.mp small).trans_le far
      rw [List.countP_cons_of_neg (by simpa using small), nobody]
      have large : ¬ (value :: rest)[k] ≤ b := by
        cases k with
        | zero => exact small
        | succ k =>
          have inside_ : k < rest.length := by simpa using inside
          have member : rest[k] ∈ rest := List.getElem_mem inside_
          exact fun le => small ((least _ member).trans le)
      exact iff_of_false large (Nat.not_lt_zero k)

/-- A running total over classes in order grows by the size of the next class. -/
theorem countP_lt_add_countP_eq {β : Type} (class_ : β → α) (b : α) (values : List β) :
    values.countP (fun value => class_ value < b) + values.countP (fun value => class_ value = b) =
      values.countP fun value => class_ value ≤ b := by
  induction values with
  | nil => rfl
  | cons value rest ih =>
    simp only [List.countP_cons, decide_eq_true_eq]
    rcases lt_trichotomy (class_ value) b with below | here | above
    · rw [if_pos below, if_neg below.ne, if_pos below.le, ← ih]
      omega
    · rw [if_neg here.not_lt, if_pos here, if_pos here.le, ← ih]
      omega
    · rw [if_neg above.not_gt, if_neg above.ne', if_neg above.not_ge, ← ih]
      omega

/-- The rank of a percentile among a number of values, rounded up. -/
def rank (count percentile : Nat) : Nat := (count * percentile) ⌈/⌉ 100

def percentile (values : List α) (p : Nat) : Option α :=
  (values.insertionSort (· ≤ ·))[rank values.length p - 1]?

theorem rank_eq (count p : Nat) : rank count p = (count * p + 99) / 100 := by
  rw [rank, Nat.ceilDiv_eq_add_pred_div]
  omega

theorem rank_bounds {count p : Nat} (some_ : 0 < count) (positive : 0 < p) (most : p ≤ 100) :
    0 < rank count p ∧ rank count p ≤ count := by
  have product : 0 < count * p := Nat.mul_pos some_ positive
  have small : count * p ≤ count * 100 := Nat.mul_le_mul_left count most
  rw [rank_eq]
  omega

theorem rank_mono (count : Nat) : Monotone (rank count) := by
  intro p q le
  have product := Nat.mul_le_mul_left count le
  rw [rank_eq, rank_eq]
  omega

theorem percentile_le_iff {values : List α} {p : Nat} (some_ : values ≠ []) (positive : 0 < p)
    (most : p ≤ 100) :
    ∃ exact_ ∈ values, percentile values p = some exact_ ∧
      ∀ b, exact_ ≤ b ↔ rank values.length p ≤ values.countP fun value => value ≤ b := by
  have sorted : (values.insertionSort (· ≤ ·)).Pairwise (· ≤ ·) :=
    List.pairwise_insertionSort (· ≤ ·) values
  have same := List.perm_insertionSort (· ≤ ·) values
  have bounds := rank_bounds (List.length_pos_of_ne_nil some_) positive most
  have inside : rank values.length p - 1 < (values.insertionSort (· ≤ ·)).length := by
    rw [same.length_eq]
    omega
  refine ⟨_, same.subset (List.getElem_mem inside), List.getElem?_eq_getElem inside, ?_⟩
  intro b
  rw [getElem_le_iff sorted b _ inside, same.countP_eq]
  omega

theorem percentile_mono {values : List α} {p q : Nat} {a b : α} (positive : 0 < p) (le : p ≤ q)
    (most : q ≤ 100) (first : percentile values p = some a)
    (second : percentile values q = some b) : a ≤ b := by
  have some_ : values ≠ [] := by
    intro none_
    rw [none_] at first
    cases first
  obtain ⟨a', -, found, lower⟩ := percentile_le_iff some_ positive (le.trans most)
  obtain ⟨b', -, found', upper⟩ := percentile_le_iff some_ (positive.trans_le le) most
  obtain rfl := Option.some.inj (first.symm.trans found)
  obtain rfl := Option.some.inj (second.symm.trans found')
  exact (lower b).mpr ((rank_mono values.length le).trans ((upper b).mp le_rfl))

end NearestRank
