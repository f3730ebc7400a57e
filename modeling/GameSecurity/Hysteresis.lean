import Mathlib.Algebra.Order.Group.Abs

/- A choice between disjoint intervals that is held for a margin past the interval's ends. -/
namespace Hysteresis

variable {α ι : Type} [AddCommGroup α] [LinearOrder α] [DecidableEq ι]

/-- The previous choice stays while the value is in its widened interval. -/
def hold (low high : ι → α) (choose : α → ι) (margin value : α) (previous : ι) : ι :=
  if choose value ≠ previous ∧ low previous - margin ≤ value ∧ value < high previous + margin then
    previous
  else choose value

structure Ordered (low high : ι → α) (choose : α → ι) : Prop where
  proper : ∀ i, low i ≤ high i
  apart : ∀ i j, i ≠ j → high i ≤ low j ∨ high j ≤ low i
  above : ∀ i j value, i ≠ j → high i ≤ low j → choose value = j → low j ≤ value
  below : ∀ i j value, i ≠ j → high i ≤ low j → choose value = i → value < high i

variable {low high : ι → α} {choose : α → ι} {margin : α} {i j : ι} {v w : α}

theorem hold_leaves (other : hold low high choose margin v i = j) (moved : j ≠ i) :
    choose v = j ∧ (v < low i - margin ∨ high i + margin ≤ v) := by
  unfold hold at other
  split at other
  · exact absurd other.symm moved
  · rename_i out
    subst other
    refine ⟨rfl, ?_⟩
    by_contra inside
    rw [not_or, not_lt, not_le] at inside
    exact out ⟨moved, inside⟩

variable [IsOrderedAddMonoid α]

/-- A choice that is left and taken again has been a margin away in between. -/
theorem returns_apart (ordered : Ordered low high choose) (wide : 0 < margin) (different : i ≠ j)
    (left : hold low high choose margin v i = j) (back : hold low high choose margin w j = i) :
    margin ≤ |v - w| := by
  obtain ⟨there, -⟩ := hold_leaves left different.symm
  obtain ⟨here, out⟩ := hold_leaves back different
  have proper := ordered.proper j
  rcases ordered.apart i j different with under | after
  · have reached := ordered.above i j v different under there
    have kept := ordered.below i j w different under here
    have lower : w < low j - margin := by
      refine out.resolve_right fun high_ => ?_
      have far : high j + margin < low j := (high_.trans_lt kept).trans_le under
      exact absurd (far.trans_le proper) (not_lt.mpr (le_add_of_nonneg_right wide.le))
    have gap : margin < v - w := by
      rw [lt_sub_iff_add_lt, add_comm]
      exact (lt_sub_iff_add_lt.mp lower).trans_le reached
    exact gap.le.trans (le_abs_self _)
  · have reached := ordered.above j i w different.symm after here
    have kept := ordered.below j i v different.symm after there
    have upper : high j + margin ≤ w := by
      refine out.resolve_left fun low_ => ?_
      have far : low j ≤ w := (proper.trans after).trans reached
      exact absurd (low_.trans_le (sub_le_self _ wide.le)) (not_lt.mpr far)
    have gap : margin ≤ w - v := by
      rw [le_sub_iff_add_le, add_comm]
      exact (add_le_add_left kept.le margin).trans upper
    rw [abs_sub_comm]
    exact gap.trans (le_abs_self _)

end Hysteresis
