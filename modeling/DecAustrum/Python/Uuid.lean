import DecAustrum.Python.Digits

/-!
# UUIDs

A UUID and its text: thirty-two hexadecimal digits in groups of 8, 4, 4, 4 and 12.
-/
namespace DecAustrum.Python

structure Uuid where
  value : Fin (2 ^ 128)
  deriving DecidableEq

-- named, so that a numeral is the same term in every module
instance (priority := 2000) uuid_neZero : @NeZero ℕ Zero.ofOfNat0 (2 ^ 128) := ⟨by norm_num⟩

namespace Uuid

def hyphen : CodePoint := 0x2d

def hex (u : Uuid) : Str := padded 16 32 u.value.val

/-- `str(u)`. -/
def str (u : Uuid) : Str :=
  u.hex.take 8 ++ hyphen :: ((u.hex.drop 8).take 4 ++ hyphen :: ((u.hex.drop 12).take 4 ++
    hyphen :: ((u.hex.drop 16).take 4 ++ hyphen :: u.hex.drop 20)))

private theorem hyphen_not_mem_hex (u : Uuid) : ∀ c ∈ u.hex, c ≠ hyphen := by
  intro c member
  rcases mem_padded 16 32 u.value.val (by decide) c member with ⟨d, below, rfl⟩
  intro same
  have value := congrArg Fin.val same
  rw [digitChar_val d below] at value
  have : hyphen.val = 0x2d := rfl
  split at value <;> omega

/-- Dropping the hyphens leaves the digits. -/
theorem filter_str (u : Uuid) : u.str.filter (· ≠ hyphen) = u.hex := by
  have keep (part : Str) (inside : ∀ c ∈ part, c ∈ u.hex) : part.filter (· ≠ hyphen) = part := by
    rw [List.filter_eq_self]
    intro c member
    simpa using hyphen_not_mem_hex u c (inside c member)
  have taken (n m : Nat) : ∀ c ∈ (u.hex.drop n).take m, c ∈ u.hex :=
    fun c member => List.mem_of_mem_drop (List.mem_of_mem_take member)
  have skip (part : Str) : (hyphen :: part).filter (· ≠ hyphen) = part.filter (· ≠ hyphen) := by
    simp
  simp only [str, List.filter_append, skip, keep _ (taken _ _),
    keep _ (fun c member => List.mem_of_mem_take member : ∀ c ∈ u.hex.take 8, c ∈ u.hex),
    keep _ (fun c member => List.mem_of_mem_drop member : ∀ c ∈ u.hex.drop 20, c ∈ u.hex)]
  conv_rhs => rw [← List.take_append_drop 8 u.hex, ← List.take_append_drop 4 (u.hex.drop 8),
    List.drop_drop, ← List.take_append_drop 4 (u.hex.drop 12), List.drop_drop,
    ← List.take_append_drop 4 (u.hex.drop 16), List.drop_drop]

theorem isPlain_str (u : Uuid) : ∀ c ∈ u.str, isPlain c = true := by
  intro c member
  by_cases separator : c = hyphen
  · subst separator
    decide
  · have inside : c ∈ u.str.filter (· ≠ hyphen) := by simp [member, separator]
    rw [filter_str] at inside
    exact isPlain_padded 16 32 u.value.val (by decide) c inside

theorem str_inj (u v : Uuid) (same : u.str = v.str) : u = v := by
  have digits : u.hex = v.hex := by rw [← filter_str, ← filter_str, same]
  have values := padded_inj 16 32 u.value.val v.value.val (by decide) u.value.isLt v.value.isLt digits
  cases u
  cases v
  exact congrArg mk (Fin.ext values)

end Uuid
end DecAustrum.Python
