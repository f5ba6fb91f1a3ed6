import DecAustrum.Python.Text
import Mathlib.Data.Nat.Digits.Lemmas

/-!
# Digits

Decimal numerals of any length and numerals of a fixed width in any base up to sixteen,
with the readers that undo them.
-/
namespace DecAustrum.Python

/-- The digit `d < 16`, in lower case. -/
def digitChar (d : Nat) : CodePoint :=
  if d < 10 then Fin.ofNat 0x110000 (0x30 + d) else Fin.ofNat 0x110000 (0x57 + d)

def isDigit (c : CodePoint) : Bool := 0x30 ≤ c.val && c.val ≤ 0x39

/-- The value of a hexadecimal digit in either case. -/
def hexValue (c : CodePoint) : Option Nat :=
  if 0x30 ≤ c.val ∧ c.val ≤ 0x39 then some (c.val - 0x30)
  else if 0x61 ≤ c.val ∧ c.val ≤ 0x66 then some (c.val - 0x57)
  else if 0x41 ≤ c.val ∧ c.val ≤ 0x46 then some (c.val - 0x37)
  else none

theorem digitChar_val (d : Nat) (below : d < 16) :
    (digitChar d).val = if d < 10 then 0x30 + d else 0x57 + d := by
  unfold digitChar
  split <;> exact Nat.mod_eq_of_lt (by omega)

theorem hexValue_digitChar (d : Nat) (below : d < 16) : hexValue (digitChar d) = some d := by
  rw [hexValue, digitChar_val d below]
  split
  · next small =>
    rw [if_pos (by omega)]
    simp
  · next large =>
    rw [if_neg (by omega), if_pos (by omega)]
    simp

theorem digitChar_inj (d e : Nat) (dBelow : d < 16) (eBelow : e < 16)
    (same : digitChar d = digitChar e) : d = e := by
  have values := congrArg hexValue same
  rw [hexValue_digitChar d dBelow, hexValue_digitChar e eBelow] at values
  exact Option.some.inj values

theorem isDigit_digitChar (d : Nat) (below : d < 10) : isDigit (digitChar d) = true := by
  rw [isDigit, digitChar_val d (by omega), if_pos below]
  simp
  omega

/-- A printable ASCII character. -/
def isPlain (c : CodePoint) : Bool := 0x20 ≤ c.val && c.val < 0x7f

theorem isPlain_digitChar (d : Nat) (below : d < 16) : isPlain (digitChar d) = true := by
  rw [isPlain, digitChar_val d below]
  split <;> simp <;> omega

theorem isPlain_of_isDigit (c : CodePoint) (digit : isDigit c = true) : isPlain c = true := by
  simp only [isDigit, isPlain, Bool.and_eq_true, decide_eq_true_eq] at *
  omega

/-! ## Decimal numerals -/

/-- `str(n)` for a natural number. -/
def decimal (n : Nat) : Str :=
  if n = 0 then [digitChar 0] else (Nat.digits 10 n).reverse.map digitChar

/-- The number a run of decimal digits denotes. -/
def decimalValue (digits : Str) : Nat :=
  digits.foldl (fun value c => value * 10 + (c.val - 0x30)) 0

theorem isDigit_decimal (n : Nat) : ∀ c ∈ decimal n, isDigit c = true := by
  intro c member
  unfold decimal at member
  split at member
  · rw [List.mem_singleton.mp member]
    decide
  · rcases List.mem_map.mp member with ⟨d, present, rfl⟩
    exact isDigit_digitChar d (Nat.digits_lt_base (by decide) (List.mem_reverse.mp present))

private theorem foldl_digits (digits : List Nat) (below : ∀ d ∈ digits, d < 10) :
    (digits.reverse.map digitChar).foldl (fun value c => value * 10 + (c.val - 0x30)) 0 =
      Nat.ofDigits 10 digits := by
  induction digits with
  | nil => rfl
  | cons d digits ih =>
    have digit := below d (by simp)
    rw [List.reverse_cons, List.map_append, List.foldl_append,
      ih fun e member => below e (by simp [member])]
    simp only [List.map_cons, List.map_nil, List.foldl_cons, List.foldl_nil, Nat.ofDigits_cons]
    rw [digitChar_val d (by omega), if_pos digit]
    omega

theorem decimalValue_decimal (n : Nat) : decimalValue (decimal n) = n := by
  unfold decimalValue decimal
  split
  · next zero =>
    subst zero
    decide
  · rw [foldl_digits _ fun d member => Nat.digits_lt_base (by decide) member, Nat.ofDigits_digits]

/-- A numeral opens with a digit, and with a zero only when it is `0`. -/
theorem decimal_length_le (m n : Nat) (below : m ≤ n) : (decimal m).length ≤ (decimal n).length := by
  unfold decimal
  split
  · split
    · exact le_rfl
    · next nonzero =>
      have digits : Nat.digits 10 n ≠ [] := Nat.digits_ne_nil_iff_ne_zero.mpr nonzero
      simpa using Nat.one_le_iff_ne_zero.mpr (List.length_pos_iff.mpr digits).ne'
  · rw [if_neg (by omega)]
    simpa using Nat.le_length_digits_le 10 m n below

theorem decimal_head (n : Nat) :
    ∃ c rest, decimal n = c :: rest ∧ isDigit c = true ∧ (c = 0x30 → rest = [] ∧ n = 0) := by
  unfold decimal
  split
  · next zero =>
    exact ⟨digitChar 0, [], rfl, by decide, fun _ => ⟨rfl, zero⟩⟩
  · next positive =>
    have nonempty := Nat.digits_ne_nil_iff_ne_zero (b := 10).mpr positive
    have last := Nat.getLast_digit_ne_zero 10 positive
    have digit := Nat.digits_lt_base (by decide) (List.getLast_mem nonempty)
    refine ⟨digitChar ((Nat.digits 10 n).getLast nonempty),
      ((Nat.digits 10 n).dropLast.reverse).map digitChar, ?_, isDigit_digitChar _ digit, ?_⟩
    · conv_lhs => rw [← List.dropLast_append_getLast nonempty]
      simp
    · intro zero
      have value := congrArg Fin.val zero
      rw [digitChar_val _ (by omega), if_pos digit] at value
      have : (0x30 : CodePoint).val = 0x30 := rfl
      omega

/-! ## Numerals of a fixed width -/

/-- The `width` low digits of `n` in `base`, most significant first. -/
def padded (base : Nat) : Nat → Nat → Str
  | 0, _ => []
  | width + 1, n => padded base width (n / base) ++ [digitChar (n % base)]

@[simp] theorem padded_length (base width n : Nat) : (padded base width n).length = width := by
  induction width generalizing n with
  | zero => rfl
  | succ width ih => simp [padded, ih]

theorem padded_inj (base width m n : Nat) (small : 0 < base ∧ base ≤ 16)
    (mBelow : m < base ^ width) (nBelow : n < base ^ width)
    (same : padded base width m = padded base width n) : m = n := by
  induction width generalizing m n with
  | zero =>
    simp only [pow_zero] at mBelow nBelow
    omega
  | succ width ih =>
    have parts := List.append_inj same (by simp)
    have digits : m % base = n % base := by
      have mDigit := Nat.mod_lt m small.1
      have nDigit := Nat.mod_lt n small.1
      exact digitChar_inj _ _ (by omega) (by omega) (List.singleton_inj.mp parts.2)
    have heads := ih (m / base) (n / base)
      (Nat.div_lt_of_lt_mul (by rwa [pow_succ, Nat.mul_comm] at mBelow))
      (Nat.div_lt_of_lt_mul (by rwa [pow_succ, Nat.mul_comm] at nBelow)) parts.1
    rw [← Nat.div_add_mod m base, ← Nat.div_add_mod n base, heads, digits]

theorem mem_padded (base width n : Nat) (small : 0 < base) :
    ∀ c ∈ padded base width n, ∃ d, d < base ∧ c = digitChar d := by
  induction width generalizing n with
  | zero => simp [padded]
  | succ width ih =>
    intro c member
    rcases List.mem_append.mp member with head | last
    · exact ih _ c head
    · exact ⟨n % base, Nat.mod_lt n small, List.mem_singleton.mp last⟩

theorem isPlain_padded (base width n : Nat) (small : 0 < base ∧ base ≤ 16) :
    ∀ c ∈ padded base width n, isPlain c = true := by
  intro c member
  obtain ⟨d, below, rfl⟩ := mem_padded base width n small.1 c member
  exact isPlain_digitChar d (by omega)

/-- The value of four hexadecimal digits. -/
def hexFour (a b c d : CodePoint) : Option Nat := do
  let w ← hexValue a
  let x ← hexValue b
  let y ← hexValue c
  let z ← hexValue d
  return ((w * 16 + x) * 16 + y) * 16 + z

/-- Four hexadecimal digits spell `n < 65536` and are read back as it. -/
theorem padded_four (n : Nat) (below : n < 0x10000) :
    ∃ a b c d, padded 16 4 n = [a, b, c, d] ∧ hexFour a b c d = some n := by
  refine ⟨digitChar (n / 4096 % 16), digitChar (n / 256 % 16), digitChar (n / 16 % 16),
    digitChar (n % 16), ?_, ?_⟩
  · simp [padded, Nat.div_div_eq_div_mul]
  · simp only [hexFour, hexValue_digitChar _ (Nat.mod_lt _ (by decide : 0 < 16)),
      Option.bind_eq_bind, Option.bind_some, Option.pure_def, Option.some.injEq]
    omega

end DecAustrum.Python
