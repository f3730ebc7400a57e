import Mathlib.Algebra.Order.Field.Basic
import Mathlib.Tactic.Ring
import Mathlib.Tactic.Linarith

/- A bucket that gains `rate` tokens a unit of time up to `burst`. Its level at a time is
   what it held at its last update with the gain since, cut off at the burst. -/
namespace TokenBucket

variable {K : Type} [Field K] [LinearOrder K]

def level (rate burst tokens last t : K) : K := min burst (tokens + rate * (t - last))

variable {rate burst tokens last now t : K}

theorem level_le_burst : level rate burst tokens last t ≤ burst := min_le_left _ _

theorem level_now (fits : tokens ≤ burst) : level rate burst tokens now now = tokens := by
  unfold level
  rw [sub_self, mul_zero, add_zero]
  exact min_eq_right fits

theorem level_le_gain : level rate burst tokens now t ≤ tokens + rate * (t - now) :=
  min_le_right _ _

theorem level_full (full : burst ≤ tokens + rate * (t - last)) :
    level rate burst tokens last t = burst :=
  min_eq_left full

variable [IsStrictOrderedRing K]

theorem level_nonneg (full : 0 ≤ burst) (gain : 0 ≤ rate) (held : 0 ≤ tokens)
    (later : last ≤ t) : 0 ≤ level rate burst tokens last t := by
  have gained : 0 ≤ rate * (t - last) := mul_nonneg gain (by linarith)
  exact le_min full (by linarith)

theorem level_mono {fewer : K} (less : fewer ≤ tokens) :
    level rate burst fewer last t ≤ level rate burst tokens last t :=
  min_le_min_left _ (by linarith)

/-- Updating the bucket on the way does not change what it will hold. -/
theorem level_refill (gain : 0 ≤ rate) (later : now ≤ t) :
    level rate burst (level rate burst tokens last now) now t =
      level rate burst tokens last t := by
  have gained : 0 ≤ rate * (t - now) := mul_nonneg gain (by linarith)
  have split : tokens + rate * (t - last) =
      tokens + rate * (now - last) + rate * (t - now) := by ring
  unfold level
  rw [split]
  rcases le_total burst (tokens + rate * (now - last)) with full | below
  · rw [min_eq_left full, min_eq_left (by linarith), min_eq_left (by linarith)]
  · rw [min_eq_right below]

theorem level_of_full (gain : 0 ≤ rate) (later : last ≤ t) :
    level rate burst burst last t = burst := by
  have gained : 0 ≤ rate * (t - last) := mul_nonneg gain (by linarith)
  exact level_full (by linarith)

/-- After the takes of one token each there is room for `x` at the time: from any of them on,
   a full bucket and the gain since make up for the takes since. -/
def HasRoom (rate burst : K) (takes : List K) (t x : K) : Prop :=
  x ≤ burst ∧ ∀ i (h : i < takes.length),
    x + ((takes.length - i : ℕ) : K) ≤ burst + rate * (t - takes[i])

theorem room_take {takes : List K} {x : K} :
    HasRoom rate burst (takes ++ [now]) t x ↔
      x ≤ burst ∧ HasRoom rate burst takes now (x + 1 - rate * (t - now)) := by
  have gain : ∀ s, rate * (t - s) = rate * (t - now) + rate * (now - s) := by
    intro s
    ring
  unfold HasRoom
  constructor
  · rintro ⟨full, since⟩
    have last := since takes.length (by simp)
    simp only [List.length_append, List.length_singleton, List.getElem_concat_length,
      Nat.add_sub_cancel_left, Nat.cast_one] at last
    refine ⟨full, by linarith, fun i h => ?_⟩
    have earlier := since i (by rw [List.length_append]; exact Nat.lt_add_right 1 h)
    rw [List.getElem_append_left h, gain, List.length_append, List.length_singleton,
      Nat.sub_add_comm h.le, Nat.cast_succ] at earlier
    linarith
  · rintro ⟨full, last, since⟩
    refine ⟨full, fun i h => ?_⟩
    rw [List.length_append, List.length_singleton] at h ⊢
    rcases Nat.lt_succ_iff_lt_or_eq.mp h with earlier | rfl
    · have before := since i earlier
      rw [List.getElem_append_left earlier, gain, Nat.sub_add_comm earlier.le, Nat.cast_succ]
      linarith
    · rw [List.getElem_concat_length rfl, Nat.add_sub_cancel_left, Nat.cast_one]
      linarith

theorem le_level_take {takes : List K}
    (closed : ∀ x, x ≤ level rate burst tokens last now ↔ HasRoom rate burst takes now x) (x : K) :
    x ≤ level rate burst (level rate burst tokens last now - 1) now t ↔
      HasRoom rate burst (takes ++ [now]) t x := by
  have held : x ≤ level rate burst tokens last now - 1 + rate * (t - now) ↔
      x + 1 - rate * (t - now) ≤ level rate burst tokens last now := by
    constructor <;>
    · intro below
      linarith
  rw [room_take, ← closed, ← held]
  exact le_min_iff

end TokenBucket
