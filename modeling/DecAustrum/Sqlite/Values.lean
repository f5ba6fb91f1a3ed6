import DecAustrum.Python.Double
import DecAustrum.Python.IntText
import Mathlib.Data.List.Lex
import Mathlib.Data.Prod.Lex

/-!
# Values of an integer column

A column of INTEGER affinity turns a number into a 64-bit integer where it is one, and keeps
any other value. Values are ordered by their class, numbers before texts before blobs: the
numbers by size, texts and blobs by their bytes.
-/
namespace DecAustrum

open Python

/-- Integers SQLite can hold. -/
def fitsInteger (n : Int) : Bool := -(2 ^ 63) ≤ n && n < 2 ^ 63

namespace Sqlite

/-- What an integer column of a row holds. A real that is a 64-bit integer would have become
one. -/
inductive Value where
  | integer (n : Int) (fits : fitsInteger n = true)
  | real (x : Double) (kept : ∀ n : Int, fitsInteger n = true → x.val ≠ n)
  | infinity (negative : Bool)
  | text (bytes : Bytes)
  | blob (bytes : Bytes)
  deriving DecidableEq

namespace Value

/-- A class of values, a size, and bytes. -/
abbrev Key := ℕ ×ₗ ℚ ×ₗ List ℕ

def sizeKey (size : ℚ) : Key := toLex (1, toLex (size, []))

def classKey (rank : ℕ) (bytes : Bytes) : Key := toLex (rank, toLex (0, bytes.map UInt8.toNat))

/-- The finite numbers stand between the infinities, and texts and blobs above them. -/
def key : Value → Key
  | infinity true => classKey 0 []
  | integer n _ => sizeKey n
  | real x _ => sizeKey x.val
  | infinity false => classKey 2 []
  | text bytes => classKey 3 bytes
  | blob bytes => classKey 4 bytes

@[simp] theorem sizeKey_inj {a b : ℚ} : sizeKey a = sizeKey b ↔ a = b := by simp [sizeKey]

@[simp] theorem classKey_inj {m n : ℕ} {x y : Bytes} :
    classKey m x = classKey n y ↔ m = n ∧ x = y := by
  have bytes : x.map UInt8.toNat = y.map UInt8.toNat ↔ x = y :=
    List.map_injective_iff.mpr (fun _ _ => UInt8.toNat_inj.mp) |>.eq_iff
  simp [classKey, bytes]

@[simp] theorem sizeKey_eq_classKey_iff {size : ℚ} {rank : ℕ} {bytes : Bytes} :
    sizeKey size = classKey rank bytes ↔ rank = 1 ∧ size = 0 ∧ bytes = [] := by
  simp [sizeKey, classKey, eq_comm]

@[simp] theorem classKey_eq_sizeKey_iff {size : ℚ} {rank : ℕ} {bytes : Bytes} :
    classKey rank bytes = sizeKey size ↔ rank = 1 ∧ size = 0 ∧ bytes = [] := by
  rw [eq_comm, sizeKey_eq_classKey_iff]

theorem key_injective : Function.Injective key := by
  rintro (⟨n, fits⟩ | ⟨x, kept⟩ | ⟨_ | _⟩ | bytes | bytes)
    (⟨m, fits'⟩ | ⟨y, kept'⟩ | ⟨_ | _⟩ | bytes' | bytes') same
  all_goals simp [key] at same ⊢
  · exact same
  · exact kept' n fits same.symm
  · exact kept m fits' same
  · exact Subtype.ext same
  · exact same
  · exact same

instance : LinearOrder Value := LinearOrder.lift' key key_injective

@[simp] theorem sizeKey_le_iff {a b : ℚ} : sizeKey a ≤ sizeKey b ↔ a ≤ b := by
  simp only [sizeKey, Prod.Lex.toLex_le_toLex, lt_irrefl, false_or, true_and, le_refl, and_true]
  exact le_iff_lt_or_eq.symm

theorem sizeKey_lt_classKey {size : ℚ} {rank : ℕ} {bytes : Bytes} (above : 1 < rank) :
    sizeKey size < classKey rank bytes := by
  simp [sizeKey, classKey, Prod.Lex.toLex_lt_toLex, above]

/-! ## Integers -/

/-- The integer, where the column holds one. -/
def asInteger : Value → Option Int
  | integer n _ => some n
  | real _ _ | infinity _ | text _ | blob _ => none

theorem asInteger_eq_some_iff {value : Value} {n : Int} :
    value.asInteger = some n ↔ ∃ fits, value = integer n fits := by
  cases value with
  | integer m fits =>
    simp only [asInteger, Option.some.injEq, integer.injEq]
    exact ⟨fun same => ⟨same ▸ fits, same⟩, fun same => same.2⟩
  | _ => simp [asInteger]

theorem integer_le_integer {m n : Int} {fits : fitsInteger m = true} {fits' : fitsInteger n = true} :
    integer m fits ≤ integer n fits' ↔ m ≤ n :=
  sizeKey_le_iff.trans Int.cast_le

/-- `value <= n`. -/
def atMost (value : Value) (n : Int) : Bool := value.key ≤ sizeKey n

theorem atMost_iff_le {value : Value} {n : Int} {fits : fitsInteger n = true} :
    value.atMost n = true ↔ value ≤ integer n fits := decide_eq_true_iff

theorem atMost_of_le {a b : Value} {n : Int} (le : a ≤ b) (below : b.atMost n = true) :
    a.atMost n = true :=
  decide_eq_true (le_trans (show a.key ≤ b.key from le) (of_decide_eq_true below))

theorem atMost_integer {m n : Int} {fits : fitsInteger m = true} :
    (integer m fits).atMost n = decide (m ≤ n) :=
  decide_eq_decide.mpr (sizeKey_le_iff.trans Int.cast_le)

/-- A real that is truncated to a positive integer it could have been stored as is above it. -/
theorem not_atMost_toInt {x : Double} {kept : ∀ n : Int, fitsInteger n = true → x.val ≠ n}
    (positive : 1 ≤ x.toInt) (fits : fitsInteger x.toInt = true) :
    (real x kept).atMost x.toInt = false := by
  rw [atMost, decide_eq_false_iff_not, key, sizeKey_le_iff]
  intro below
  by_cases above : 0 ≤ x.val
  · have down : x.toInt = ⌊x.val⌋ := if_pos above
    exact kept _ fits (le_antisymm below (down ▸ Int.floor_le x.val))
  · have up : x.toInt = ⌈x.val⌉ := if_neg above
    have low : ⌈x.val⌉ ≤ 0 := Int.ceil_le.mpr (by simpa using (not_le.mp above).le)
    omega

@[simp] theorem atMost_text (bytes : Bytes) (n : Int) : (text bytes).atMost n = false :=
  decide_eq_false (sizeKey_lt_classKey (by omega)).not_ge

@[simp] theorem atMost_blob (bytes : Bytes) (n : Int) : (blob bytes).atMost n = false :=
  decide_eq_false (sizeKey_lt_classKey (by omega)).not_ge

end Value

end Sqlite

end DecAustrum
