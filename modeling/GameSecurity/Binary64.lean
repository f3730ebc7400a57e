import Mathlib.Data.Int.Log
import Mathlib.Data.Rat.Floor

/- Values that are not negative in double precision, to nearest with ties to even. Doubles are the
   rationals they stand for; below the normal range and past the largest double it differs. -/
namespace Binary64

def roundEven (x : ℚ) : ℤ :=
  let below := ⌊x⌋
  if x - below < 1 / 2 then below
  else if 1 / 2 < x - below then below + 1
  else if below % 2 = 0 then below
  else below + 1

/-- The distance of the doubles around a value: its significand has 53 binary digits. -/
def spacing (x : ℚ) : ℚ := 2 ^ (Int.log 2 x - 52)

def nearest (x : ℚ) : ℚ := if x ≤ 0 then 0 else roundEven (x / spacing x) * spacing x

/-- The distance of the doubles around a value, the subnormal ones included. -/
def grid (x : ℚ) : ℚ := 2 ^ max (Int.log 2 x - 52) (-1074)

/-- The double nearest to a value that is not past the largest one, of either sign. -/
def double (x : ℚ) : ℚ :=
  let magnitude := roundEven (|x| / grid |x|) * grid |x|
  if x < 0 then -magnitude else magnitude

theorem floor_le_roundEven (x : ℚ) : ⌊x⌋ ≤ roundEven x := by
  unfold roundEven
  simp only
  split_ifs <;> omega

theorem roundEven_le_succ (x : ℚ) : roundEven x ≤ ⌊x⌋ + 1 := by
  unfold roundEven
  simp only
  split_ifs <;> omega

theorem roundEven_intCast (k : ℤ) : roundEven k = k := by
  unfold roundEven
  simp only [Int.floor_intCast, sub_self]
  exact if_pos (by norm_num)

theorem roundEven_mono {x y : ℚ} (le : x ≤ y) : roundEven x ≤ roundEven y := by
  rcases (Int.floor_le_floor le).eq_or_lt with same | below
  · unfold roundEven
    simp only [same]
    split_ifs <;> first | omega | linarith
  · have upper := roundEven_le_succ x
    have lower := floor_le_roundEven y
    omega

theorem spacing_pos (x : ℚ) : 0 < spacing x := zpow_pos (by norm_num) _

theorem power_spacing (x : ℚ) (k : ℤ) :
    (2 : ℚ) ^ (Int.log 2 x + k) = 2 ^ (52 + k) * spacing x := by
  rw [spacing, ← zpow_add₀ (by norm_num)]
  congr 1
  omega

/-- No double between two powers of two is rounded past either. -/
theorem nearest_le_power {x : ℚ} (positive : 0 < x) : nearest x ≤ 2 ^ (Int.log 2 x + 1) := by
  have under : x < 2 ^ (Int.log 2 x + 1) := Int.lt_zpow_succ_log_self (by norm_num) x
  have scaled : x / spacing x ≤ ((2 ^ 53 : ℤ) : ℚ) := by
    rw [div_le_iff₀ (spacing_pos x)]
    rw [power_spacing] at under
    norm_num at under ⊢
    exact under.le
  have rounded := roundEven_mono scaled
  rw [roundEven_intCast] at rounded
  rw [nearest, if_neg (not_le.mpr positive), power_spacing]
  refine mul_le_mul_of_nonneg_right ?_ (spacing_pos x).le
  norm_num
  exact_mod_cast rounded

theorem power_le_nearest {x : ℚ} (positive : 0 < x) : 2 ^ Int.log 2 x ≤ nearest x := by
  have above : 2 ^ Int.log 2 x ≤ x := Int.zpow_log_le_self (by norm_num) positive
  have start := power_spacing x 0
  rw [add_zero] at start
  rw [start] at above ⊢
  have scaled : ((2 ^ 52 : ℤ) : ℚ) ≤ x / spacing x := by
    rw [le_div_iff₀ (spacing_pos x)]
    norm_num at above ⊢
    exact above
  have rounded := roundEven_mono scaled
  rw [roundEven_intCast] at rounded
  rw [nearest, if_neg (not_le.mpr positive)]
  refine mul_le_mul_of_nonneg_right ?_ (spacing_pos x).le
  norm_num
  exact_mod_cast rounded

theorem nearest_nonneg (x : ℚ) : 0 ≤ nearest x := by
  rcases le_or_gt x 0 with small | positive
  · rw [nearest, if_pos small]
  · exact (zpow_nonneg (by norm_num) _).trans (power_le_nearest positive)

theorem nearest_mono : Monotone nearest := by
  intro x y le
  rcases le_or_gt x 0 with small | positive
  · have zero : nearest x = 0 := if_pos small
    rw [zero]
    exact nearest_nonneg y
  · have positive' : 0 < y := positive.trans_le le
    rcases (Int.log_mono_right (b := 2) positive le).eq_or_lt with same | apart
    · have grid : spacing x = spacing y := by rw [spacing, spacing, same]
      rw [nearest, nearest, if_neg (not_le.mpr positive), if_neg (not_le.mpr positive'), grid]
      refine mul_le_mul_of_nonneg_right ?_ (spacing_pos y).le
      exact_mod_cast roundEven_mono (div_le_div_of_nonneg_right le (spacing_pos y).le)
    · calc nearest x ≤ 2 ^ (Int.log 2 x + 1) := nearest_le_power positive
        _ ≤ 2 ^ Int.log 2 y := zpow_le_zpow_right₀ (by norm_num) (by omega)
        _ ≤ nearest y := power_le_nearest positive'

/-- Every integer of up to 53 binary digits is a double. -/
theorem nearest_natCast {k : ℕ} (small : k < 2 ^ 53) : nearest k = k := by
  rcases Nat.eq_zero_or_pos k with rfl | positive
  · simp [nearest]
  · have log : Int.log 2 (k : ℚ) = Nat.log 2 k := Int.log_natCast 2 k
    have few : Nat.log 2 k ≤ 52 := Nat.lt_succ_iff.mp (Nat.log_lt_of_lt_pow (by omega) small)
    have scaled : (k : ℚ) / spacing k = ((k * 2 ^ (52 - Nat.log 2 k) : ℕ) : ℤ) := by
      rw [spacing, log, div_eq_mul_inv, ← zpow_neg]
      have exponent : -((Nat.log 2 k : ℤ) - 52) = ((52 - Nat.log 2 k : ℕ) : ℤ) := by omega
      rw [exponent, zpow_natCast]
      push_cast
      rfl
    have real : (0 : ℚ) < k := by exact_mod_cast positive
    rw [nearest, if_neg (not_le.mpr real), scaled, roundEven_intCast, ← scaled]
    exact div_mul_cancel₀ _ (spacing_pos _).ne'

end Binary64
