import DecAustrum.Python.Json
import Mathlib.Data.List.DropRight

/-!
# Integers from text

`int(text)`: blanks around a numeral, a sign, decimal digits of any script, and single
underscores between digits.
-/
namespace DecAustrum.Python

/-- The blanks `int` passes over: those of the C locale and the ones above ASCII. -/
def isNumeralSpace (c : CodePoint) : Bool := isSpace c && !(0x1c ≤ c && c ≤ 0x1f)

/-- The zero of each run of decimal digits in Unicode 15. -/
def decimalZeros : List Nat :=
  [0x30, 0x660, 0x6f0, 0x7c0, 0x966, 0x9e6, 0xa66, 0xae6, 0xb66, 0xbe6, 0xc66, 0xce6, 0xd66, 0xde6,
    0xe50, 0xed0, 0xf20, 0x1040, 0x1090, 0x17e0, 0x1810, 0x1946, 0x19d0, 0x1a80, 0x1a90, 0x1b50,
    0x1bb0, 0x1c40, 0x1c50, 0xa620, 0xa8d0, 0xa900, 0xa9d0, 0xa9f0, 0xaa50, 0xabf0, 0xff10, 0x104a0,
    0x10d30, 0x11066, 0x110f0, 0x11136, 0x111d0, 0x112f0, 0x11450, 0x114d0, 0x11650, 0x116c0, 0x11730,
    0x118e0, 0x11950, 0x11c50, 0x11d50, 0x11da0, 0x11f50, 0x16a60, 0x16ac0, 0x16b50, 0x1d7ce, 0x1d7d8,
    0x1d7e2, 0x1d7ec, 0x1d7f6, 0x1e140, 0x1e2f0, 0x1e4f0, 0x1e950, 0x1fbf0]

def decimalDigit (c : CodePoint) : Option Nat :=
  (decimalZeros.find? fun first => first ≤ c.val && c.val < first + 10).map (c.val - ·)

/-- The digits of a numeral; an underscore stands between two of them. -/
def numeralDigits (afterDigit : Bool) : Str → Option (List Nat)
  | [] => if afterDigit then some [] else none
  | c :: rest =>
    if afterDigit && c = 0x5f then numeralDigits false rest
    else (decimalDigit c).bind fun d => (numeralDigits true rest).map (d :: ·)

def digitsValue (digits : List Nat) : Nat := digits.foldl (fun value d => value * 10 + d) 0

/-- A numeral within the conversion limit. -/
def readNumeral (text : Str) : Option Nat :=
  (numeralDigits false text).bind fun digits =>
    if digits.length ≤ 4300 then some (digitsValue digits) else none

/-- `int(text)`; `none` is its `ValueError`. -/
def readInteger (text : Str) : Option Int :=
  match (text.dropWhile isNumeralSpace).rdropWhile isNumeralSpace with
  | [] => none
  | c :: rest =>
    if c = 0x2d then (readNumeral rest).map fun n : Nat => -(n : Int)
    else if c = 0x2b then (readNumeral rest).map fun n : Nat => (n : Int)
    else (readNumeral (c :: rest)).map fun n : Nat => (n : Int)

example : readInteger (ofString " -1_0 ") = some (-10) := by decide +kernel

/-! ## Size -/

theorem decimalDigit_lt {c : CodePoint} {d : Nat} (digit : decimalDigit c = some d) : d < 10 := by
  rw [decimalDigit, Option.map_eq_some_iff] at digit
  obtain ⟨first, found, rfl⟩ := digit
  have bounds := List.find?_some found
  simp only [Bool.and_eq_true, decide_eq_true_eq] at bounds
  omega

theorem numeralDigits_lt {text : Str} :
    ∀ {afterDigit digits}, numeralDigits afterDigit text = some digits → ∀ d ∈ digits, d < 10 := by
  induction text with
  | nil =>
    intro afterDigit digits read
    rw [numeralDigits] at read
    split at read
    · cases read
      simp
    · cases read
  | cons c text ih =>
    intro afterDigit digits read
    rw [numeralDigits] at read
    split at read
    · exact ih read
    · rw [Option.bind_eq_some_iff] at read
      obtain ⟨d, digit, read⟩ := read
      rw [Option.map_eq_some_iff] at read
      obtain ⟨more, read, rfl⟩ := read
      intro e member
      rcases List.mem_cons.mp member with rfl | later
      · exact decimalDigit_lt digit
      · exact ih read e later

theorem digitsValue_lt (digits : List Nat) (small : ∀ d ∈ digits, d < 10) :
    digitsValue digits < 10 ^ digits.length := by
  have bounded : ∀ value, digits.foldl (fun value d => value * 10 + d) value <
      (value + 1) * 10 ^ digits.length := by
    induction digits with
    | nil => simp
    | cons d digits ih =>
      intro value
      have digit := small d (List.mem_cons_self ..)
      have rest := ih (fun e later => small e (List.mem_cons_of_mem _ later)) (value * 10 + d)
      rw [List.foldl_cons, List.length_cons, pow_succ]
      calc digits.foldl (fun value d => value * 10 + d) (value * 10 + d)
          < (value * 10 + d + 1) * 10 ^ digits.length := rest
        _ ≤ ((value + 1) * 10) * 10 ^ digits.length := Nat.mul_le_mul_right _ (by omega)
        _ = (value + 1) * (10 ^ digits.length * 10) := by ring
  simpa [digitsValue] using bounded 0

theorem decimal_length_of_lt {n k : Nat} (below : n < 10 ^ k) : (decimal n).length ≤ max 1 k := by
  unfold decimal
  split
  · exact le_max_left 1 k
  · rw [List.length_map, List.length_reverse]
    exact ((Nat.digits_length_le_iff (by decide) n).mpr below).trans (le_max_right 1 k)

/-- An integer that was read can be written. -/
theorem withinDigitLimit_of_readInteger {text : Str} {n : Int} (read : readInteger text = some n) :
    Json.withinDigitLimit n = true := by
  have limit {text : Str} {m : Nat} (read : readNumeral text = some m) :
      (decimal m).length ≤ 4300 := by
    rw [readNumeral, Option.bind_eq_some_iff] at read
    obtain ⟨digits, found, read⟩ := read
    split at read
    next short =>
      cases read
      have length := decimal_length_of_lt (digitsValue_lt digits (numeralDigits_lt found))
      omega
    next => cases read
  rw [Json.withinDigitLimit, decide_eq_true_eq]
  unfold readInteger at read
  split at read
  · cases read
  split at read
  · obtain ⟨m, numeral, rfl⟩ := Option.map_eq_some_iff.mp read
    simpa using limit numeral
  split at read
  · obtain ⟨m, numeral, rfl⟩ := Option.map_eq_some_iff.mp read
    simpa using limit numeral
  · obtain ⟨m, numeral, rfl⟩ := Option.map_eq_some_iff.mp read
    simpa using limit numeral

end DecAustrum.Python
