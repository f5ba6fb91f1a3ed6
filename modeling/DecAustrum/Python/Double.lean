import Mathlib.Algebra.Order.Field.Power
import Mathlib.Data.Int.Log
import Mathlib.Data.Rat.Floor
import Mathlib.Tactic.Linarith
import Mathlib.Tactic.Positivity
import Mathlib.Tactic.Ring

/-!
# Double-precision numbers

The finite doubles as rationals, and the rounding of their arithmetic: to the nearest double, the
even one of two.
-/
namespace DecAustrum.Python

/-- A finite double: a significand of 53 bits and an exponent. -/
def IsDouble (q : ℚ) : Prop :=
  ∃ m e : ℤ, |m| < 2 ^ 53 ∧ -1074 ≤ e ∧ e ≤ 971 ∧ q = m * 2 ^ e

abbrev Double := { q : ℚ // IsDouble q }

namespace Double

/-! ## Rounding -/

/-- The nearest integer, the even one of two. -/
def roundEven (q : ℚ) : ℤ :=
  let below := ⌊q⌋
  if q - below < 1 / 2 then below
  else if 1 / 2 < q - below then below + 1
  else if below % 2 = 0 then below
  else below + 1

/-- The exponent of the last bit of the doubles around `q`, however large they are. -/
def lastBit (q : ℚ) : ℤ := max (Int.log 2 |q| - 52) (-1074)

/-- The nearest double where no exponent is too large. -/
def nearest (q : ℚ) : ℚ := roundEven (q / 2 ^ lastBit q) * 2 ^ lastBit q

theorem roundEven_intCast (n : ℤ) : roundEven n = n := by
  simp [roundEven]

theorem roundEven_bounds (q : ℚ) : (⌊q⌋ : ℤ) ≤ roundEven q ∧ roundEven q ≤ ⌊q⌋ + 1 := by
  unfold roundEven
  dsimp only
  split
  · omega
  split
  · omega
  split <;> omega

theorem abs_roundEven_le {q : ℚ} {n : ℤ} (bound : |q| < n) : |roundEven q| ≤ n := by
  obtain ⟨low, high⟩ := abs_lt.mp bound
  obtain ⟨atLeast, atMost⟩ := roundEven_bounds q
  have floorLow : -n ≤ ⌊q⌋ := by
    apply Int.le_floor.mpr
    push_cast
    exact low.le
  have floorHigh : ⌊q⌋ < n := Int.floor_lt.mpr high
  rw [abs_le]
  omega

theorem le_abs_roundEven {q : ℚ} {n : ℤ} (bound : (n : ℚ) ≤ |q|) : n ≤ |roundEven q| := by
  obtain ⟨atLeast, atMost⟩ := roundEven_bounds q
  rcases le_abs.mp bound with above | below
  · have floor : n ≤ ⌊q⌋ := Int.le_floor.mpr above
    exact (floor.trans atLeast).trans (le_abs_self _)
  · by_cases whole : q = ((-n : ℤ) : ℚ)
    · rw [whole, roundEven_intCast, abs_neg]
      exact le_abs_self n
    · have less : q < ((-n : ℤ) : ℚ) := by
        apply lt_of_le_of_ne _ whole
        push_cast
        linarith
      have floor : ⌊q⌋ < -n := Int.floor_lt.mpr less
      have negated : n ≤ -roundEven q := by omega
      exact negated.trans (neg_le_abs _)

theorem abs_lt_zpow (q : ℚ) : |q| < 2 ^ (lastBit q + 53) := by
  have above : |q| < 2 ^ (Int.log 2 |q| + 1) := by
    simpa using Int.lt_zpow_succ_log_self (R := ℚ) (b := 2) (by decide) |q|
  refine above.trans_le (zpow_le_zpow_right₀ (by norm_num) ?_)
  have := le_max_left (Int.log 2 |q| - 52) (-1074)
  rw [lastBit]
  omega

theorem zpow_log_le {q : ℚ} (nonzero : q ≠ 0) : (2 : ℚ) ^ Int.log 2 |q| ≤ |q| := by
  simpa using Int.zpow_log_le_self (R := ℚ) (b := 2) (by decide) (abs_pos.mpr nonzero)

/-- A double ends no later than at its last bit. -/
theorem lastBit_le {q : ℚ} {m e : ℤ} (small : |m| < 2 ^ 53) (lowest : -1074 ≤ e)
    (value : q = m * 2 ^ e) (nonzero : q ≠ 0) : lastBit q ≤ e := by
  have below : |q| < 2 ^ (e + 53) := by
    rw [value, abs_mul, abs_of_pos (zpow_pos (by norm_num : (0 : ℚ) < 2) e), add_comm,
      zpow_add₀ (by norm_num : (2 : ℚ) ≠ 0)]
    apply mul_lt_mul_of_pos_right _ (zpow_pos (by norm_num : (0 : ℚ) < 2) e)
    exact_mod_cast small
  have exponents := (zpow_lt_zpow_iff_right₀ (by norm_num : (1 : ℚ) < 2)).mp
    ((zpow_log_le nonzero).trans_lt below)
  rw [lastBit, max_le_iff]
  omega

/-- A double is rounded to itself. -/
theorem nearest_of_isDouble {q : ℚ} (double : IsDouble q) : nearest q = q := by
  obtain ⟨m, e, small, lowest, -, value⟩ := double
  by_cases zero : q = 0
  · rw [zero, nearest, zero_div]
    simp [roundEven]
  have ends := lastBit_le small lowest value zero
  have base : (2 : ℚ) ≠ 0 := by norm_num
  have whole : q / 2 ^ lastBit q = ((m * 2 ^ (e - lastBit q).toNat : ℤ) : ℚ) := by
    have split : e = lastBit q + (e - lastBit q).toNat := by omega
    rw [div_eq_iff (zpow_ne_zero _ base)]
    conv_lhs => rw [value, split, zpow_add₀ base, zpow_natCast]
    push_cast
    ring
  rw [nearest, whole, roundEven_intCast, ← whole, div_mul_cancel₀ _ (zpow_ne_zero _ base)]

theorem abs_significand_le (q : ℚ) : |roundEven (q / 2 ^ lastBit q)| ≤ 2 ^ 53 := by
  have positive : (0 : ℚ) < 2 ^ lastBit q := zpow_pos (by norm_num) _
  apply abs_roundEven_le
  rw [abs_div, abs_of_pos positive, div_lt_iff₀ positive]
  have above := abs_lt_zpow q
  rw [add_comm, zpow_add₀ (by norm_num : (2 : ℚ) ≠ 0)] at above
  exact_mod_cast above

/-- Above the subnormal numbers a significand has all its bits. -/
theorem le_abs_significand {q : ℚ} (nonzero : q ≠ 0) (normal : lastBit q ≠ -1074) :
    2 ^ 52 ≤ |roundEven (q / 2 ^ lastBit q)| := by
  have positive : (0 : ℚ) < 2 ^ lastBit q := zpow_pos (by norm_num) _
  have leading : lastBit q + 52 = Int.log 2 |q| := by
    rw [lastBit] at normal ⊢
    omega
  apply le_abs_roundEven
  rw [abs_div, abs_of_pos positive, le_div_iff₀ positive]
  have atLeast := zpow_log_le nonzero
  rw [← leading, add_comm, zpow_add₀ (by norm_num : (2 : ℚ) ≠ 0)] at atLeast
  exact_mod_cast atLeast

/-- What is not too large is a double once rounded. -/
theorem isDouble_nearest {q : ℚ} (finite : |nearest q| < 2 ^ (1024 : ℤ)) : IsDouble (nearest q) := by
  by_cases zero : q = 0
  · refine ⟨0, 0, by norm_num, by norm_num, by norm_num, ?_⟩
    rw [zero, nearest, zero_div]
    simp [roundEven]
  have atMost := abs_significand_le q
  have lowest : -1074 ≤ lastBit q := le_max_right _ _
  have positive : (0 : ℚ) < 2 ^ lastBit q := zpow_pos (by norm_num) _
  have highest : ∀ n : ℕ, (2 : ℤ) ^ n ≤ |roundEven (q / 2 ^ lastBit q)| → n + lastBit q < 1024 := by
    intro n atLeast
    rw [nearest, abs_mul, abs_of_pos positive] at finite
    have size : (2 : ℚ) ^ ((n : ℤ) + lastBit q) < 2 ^ (1024 : ℤ) := by
      refine lt_of_le_of_lt ?_ finite
      rw [zpow_add₀ (by norm_num : (2 : ℚ) ≠ 0), zpow_natCast]
      apply mul_le_mul_of_nonneg_right _ positive.le
      exact_mod_cast atLeast
    exact (zpow_lt_zpow_iff_right₀ (by norm_num : (1 : ℚ) < 2)).mp size
  rcases atMost.lt_or_eq with below | carried
  · -- the significand fits as it is
    refine ⟨_, lastBit q, below, lowest, ?_, rfl⟩
    by_cases normal : lastBit q = -1074
    · omega
    · have := highest 52 (le_abs_significand zero normal)
      omega
  · -- a carry to the next exponent
    have := highest 53 carried.ge
    rcases (abs_eq (by norm_num)).mp carried with up | down
    · refine ⟨2 ^ 52, lastBit q + 1, by norm_num, by omega, by omega, ?_⟩
      rw [nearest, up, zpow_add_one₀ (by norm_num : (2 : ℚ) ≠ 0)]
      push_cast
      ring
    · refine ⟨-2 ^ 52, lastBit q + 1, by norm_num, by omega, by omega, ?_⟩
      rw [nearest, down, zpow_add_one₀ (by norm_num : (2 : ℚ) ≠ 0)]
      push_cast
      ring

/-- The rounding of an exact result; `none` is an infinity. -/
def ofRat (q : ℚ) : Option Double :=
  if finite : |nearest q| < 2 ^ (1024 : ℤ) then some ⟨nearest q, isDouble_nearest finite⟩ else none

/-! ## Operations -/

/-- `float(n)`; `none` is an `OverflowError`. -/
def ofInt (n : ℤ) : Option Double := ofRat n

/-- `a - b`; `none` is an infinity. -/
def sub (a b : Double) : Option Double := ofRat (a.val - b.val)

/-- `int(x)`: the fraction is cut off. -/
def toInt (x : Double) : ℤ := if 0 ≤ x.val then ⌊x.val⌋ else ⌈x.val⌉

theorem ofRat_of_isDouble {q : ℚ} (double : IsDouble q) : ofRat q = some ⟨q, double⟩ := by
  have finite : |nearest q| < 2 ^ (1024 : ℤ) := by
    rw [nearest_of_isDouble double]
    obtain ⟨m, e, small, -, highest, rfl⟩ := double
    rw [abs_mul, abs_of_pos (zpow_pos (by norm_num : (0 : ℚ) < 2) e)]
    calc ((|(m : ℚ)|) * 2 ^ e : ℚ) < 2 ^ 53 * 2 ^ e := by
          apply mul_lt_mul_of_pos_right _ (zpow_pos (by norm_num) e)
          exact_mod_cast small
      _ ≤ 2 ^ 53 * 2 ^ (971 : ℤ) := by
          apply mul_le_mul_of_nonneg_left _ (by norm_num)
          exact zpow_le_zpow_right₀ (by norm_num) highest
      _ = 2 ^ (1024 : ℤ) := by
          rw [show (1024 : ℤ) = (53 : ℕ) + 971 by norm_num, zpow_add₀ (by norm_num), zpow_natCast]
  rw [ofRat, dif_pos finite]
  simp only [nearest_of_isDouble double]

/-- Integers of 53 bits are doubles. -/
theorem isDouble_intCast {n : ℤ} (small : |n| < 2 ^ 53) : IsDouble n :=
  ⟨n, 0, small, by norm_num, by norm_num, by simp⟩

/-- Cutting off the fraction keeps the order. -/
theorem toInt_mono {x y : Double} (le : x.val ≤ y.val) : x.toInt ≤ y.toInt := by
  unfold toInt
  split
  next nonneg =>
    rw [if_pos (nonneg.trans le)]
    exact Int.floor_mono le
  next negative =>
    split
    next nonneg =>
      have zero : ⌈x.val⌉ ≤ 0 := Int.ceil_le.mpr (by push_cast; linarith)
      exact zero.trans (Int.floor_nonneg.mpr nonneg)
    next => exact Int.ceil_mono le

end Double

end DecAustrum.Python
