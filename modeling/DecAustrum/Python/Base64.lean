import DecAustrum.Python.Text
import Mathlib.Data.List.DropRight

/-!
# Base64

The URL-safe alphabet of the `base64` module, three bytes in four characters, with and
without the padding.
-/
namespace DecAustrum.Python.Base64

def pad : CodePoint := 0x3d

/-- The character of six bits. -/
def sextetChar (n : Nat) : CodePoint :=
  if n < 26 then Fin.ofNat _ (0x41 + n)
  else if n < 52 then Fin.ofNat _ (0x61 + (n - 26))
  else if n < 62 then Fin.ofNat _ (0x30 + (n - 52))
  else if n = 62 then 0x2d
  else 0x5f

/-- Reading translates `-` and `_` to `+` and `/`, which are read as well. -/
def sextet? (c : CodePoint) : Option Nat :=
  if 0x41 ≤ c.val ∧ c.val ≤ 0x5a then some (c.val - 0x41)
  else if 0x61 ≤ c.val ∧ c.val ≤ 0x7a then some (c.val - 0x61 + 26)
  else if 0x30 ≤ c.val ∧ c.val ≤ 0x39 then some (c.val - 0x30 + 52)
  else if c = 0x2b ∨ c = 0x2d then some 62
  else if c = 0x2f ∨ c = 0x5f then some 63
  else none

/-- `base64.urlsafe_b64encode(data).decode("ascii")`. -/
def urlsafeB64encode : Bytes → Str
  | a :: b :: c :: rest =>
    sextetChar (a.toNat / 4) :: sextetChar (a.toNat % 4 * 16 + b.toNat / 16) ::
      sextetChar (b.toNat % 16 * 4 + c.toNat / 64) :: sextetChar (c.toNat % 64) ::
        urlsafeB64encode rest
  | [a, b] =>
    [sextetChar (a.toNat / 4), sextetChar (a.toNat % 4 * 16 + b.toNat / 16),
      sextetChar (b.toNat % 16 * 4), pad]
  | [a] => [sextetChar (a.toNat / 4), sextetChar (a.toNat % 4 * 16), pad, pad]
  | [] => []

/-- `base64.b64decode(text, altchars=b"-_", validate=True)`. Bits past the last byte are ignored;
`none` is a `binascii.Error`. -/
def b64decode : Str → Option Bytes
  | [] => some []
  | a :: b :: c :: d :: rest => do
    let s ← sextet? a
    let t ← sextet? b
    let first := UInt8.ofNat (s * 4 + t / 16)
    if d = pad then
      if rest ≠ [] then none
      else if c = pad then some [first]
      else do
        let u ← sextet? c
        some [first, UInt8.ofNat (t % 16 * 16 + u / 4)]
    else do
      let u ← sextet? c
      let v ← sextet? d
      let tail ← b64decode rest
      some (first :: UInt8.ofNat (t % 16 * 16 + u / 4) :: UInt8.ofNat (u % 4 * 64 + v) :: tail)
  | _ => none

/-- Encoding without the padding. -/
def base64urlEncode (data : Bytes) : Str := (urlsafeB64encode data).rdropWhile (· = pad)

/-- The padding a text of this length lacks. -/
def padding (value : Str) : Str := List.replicate ((4 - value.length % 4) % 4) pad

/-! ## The alphabet -/

theorem sextet?_sextetChar (n : Nat) (small : n < 64) : sextet? (sextetChar n) = some n := by
  have table : ∀ i : Fin 64, sextet? (sextetChar i.val) = some i.val := by decide +kernel
  exact table ⟨n, small⟩

/-- What an encoded text is made of: letters, digits, hyphens and underscores. -/
def isEncoded (c : CodePoint) : Bool :=
  (sextet? c).isSome && c ≠ 0x2b && c ≠ 0x2f

theorem isEncoded_sextetChar (n : Nat) : isEncoded (sextetChar n) = true := by
  have table : ∀ i : Fin 65, isEncoded (sextetChar i.val) = true := by decide +kernel
  by_cases small : n < 64
  · exact table ⟨n, by omega⟩
  · have last : sextetChar n = sextetChar 64 := by
      unfold sextetChar
      repeat rw [if_neg (by omega)]
    rw [last]
    exact table ⟨64, by omega⟩

theorem isEncoded_ascii {c : CodePoint} (encoded : isEncoded c = true) : c.val < 128 := by
  unfold isEncoded sextet? at encoded
  split at encoded
  · omega
  split at encoded
  · omega
  split at encoded
  · omega
  split at encoded
  next known => rcases known with rfl | rfl <;> decide
  split at encoded
  next known => rcases known with rfl | rfl <;> decide
  simp at encoded

theorem isEncoded_ne {c d : CodePoint} (encoded : isEncoded c = true) (other : isEncoded d = false) :
    c ≠ d := by
  rintro rfl
  rw [encoded] at other
  cases other

theorem sextetChar_ne_pad (n : Nat) : sextetChar n ≠ pad :=
  isEncoded_ne (isEncoded_sextetChar n) (by decide)

/-! ## Decoding what was encoded -/

private theorem byte (n : Nat) (a : UInt8) (same : n = a.toNat) : UInt8.ofNat n = a := by
  rw [same, UInt8.ofNat_toNat]

theorem b64decode_urlsafeB64encode (data : Bytes) : b64decode (urlsafeB64encode data) = some data := by
  fun_induction urlsafeB64encode data with
  | case1 a b c rest ih =>
    have bounds : a.toNat < 256 ∧ b.toNat < 256 ∧ c.toNat < 256 :=
      ⟨a.toNat_lt, b.toNat_lt, c.toNat_lt⟩
    rw [b64decode, sextet?_sextetChar _ (by omega), sextet?_sextetChar _ (by omega),
      sextet?_sextetChar _ (by omega), sextet?_sextetChar _ (by omega), ih]
    simp only [Option.bind_eq_bind, Option.bind_some, if_neg (sextetChar_ne_pad _)]
    rw [byte _ a (by omega), byte _ b (by omega), byte _ c (by omega)]
  | case2 a b =>
    have bounds : a.toNat < 256 ∧ b.toNat < 256 := ⟨a.toNat_lt, b.toNat_lt⟩
    rw [b64decode, sextet?_sextetChar _ (by omega), sextet?_sextetChar _ (by omega),
      sextet?_sextetChar _ (by omega)]
    simp only [Option.bind_eq_bind, Option.bind_some, if_neg (sextetChar_ne_pad _), ne_eq,
      not_true_eq_false, if_false, if_true]
    rw [byte _ a (by omega), byte _ b (by omega)]
  | case3 a =>
    have bounds : a.toNat < 256 := a.toNat_lt
    rw [b64decode, sextet?_sextetChar _ (by omega), sextet?_sextetChar _ (by omega)]
    simp only [Option.bind_eq_bind, Option.bind_some, ne_eq, not_true_eq_false, if_false, if_true]
    rw [byte _ a (by omega)]
  | case4 => rfl

/-! ## Without the padding -/

theorem rdropWhile_pad (body : Str) (solid : ∀ c ∈ body, isEncoded c = true) (n : Nat) :
    (body ++ List.replicate n pad).rdropWhile (· = pad) = body := by
  induction n with
  | zero =>
    rw [List.replicate_zero, List.append_nil, List.rdropWhile_eq_self_iff]
    intro nonempty last
    have member := solid _ (List.getLast_mem nonempty)
    rw [of_decide_eq_true last] at member
    exact absurd member (by decide)
  | succ n ih =>
    rw [List.replicate_succ', ← List.append_assoc, List.rdropWhile_concat_pos _ _ _ (by simp)]
    exact ih

/-- An encoded text is made of letters, digits, hyphens and underscores, then of the padding. -/
theorem urlsafeB64encode_spec (data : Bytes) : ∃ body : Str, (∀ c ∈ body, isEncoded c = true) ∧
    urlsafeB64encode data = body ++ padding body := by
  fun_induction urlsafeB64encode data with
  | case1 a b c rest ih =>
    obtain ⟨body, solid, split⟩ := ih
    refine ⟨sextetChar (a.toNat / 4) :: sextetChar (a.toNat % 4 * 16 + b.toNat / 16) ::
      sextetChar (b.toNat % 16 * 4 + c.toNat / 64) :: sextetChar (c.toNat % 64) :: body, ?_, ?_⟩
    · simpa [isEncoded_sextetChar] using solid
    · have width : padding (sextetChar (a.toNat / 4) ::
          sextetChar (a.toNat % 4 * 16 + b.toNat / 16) ::
            sextetChar (b.toNat % 16 * 4 + c.toNat / 64) :: sextetChar (c.toNat % 64) :: body) =
          padding body := by
        simp only [padding, List.length_cons]
        congr 1
        omega
      rw [width, split]
      rfl
  | case2 a b =>
    exact ⟨[sextetChar (a.toNat / 4), sextetChar (a.toNat % 4 * 16 + b.toNat / 16),
      sextetChar (b.toNat % 16 * 4)], by simp [isEncoded_sextetChar], rfl⟩
  | case3 a =>
    exact ⟨[sextetChar (a.toNat / 4), sextetChar (a.toNat % 4 * 16)],
      by simp [isEncoded_sextetChar], rfl⟩
  | case4 => exact ⟨[], by simp, rfl⟩

theorem isEncoded_base64urlEncode (data : Bytes) :
    ∀ c ∈ base64urlEncode data, isEncoded c = true := by
  obtain ⟨body, solid, split⟩ := urlsafeB64encode_spec data
  rw [base64urlEncode, split, padding, rdropWhile_pad body solid]
  exact solid

theorem base64urlEncode_padding (data : Bytes) :
    base64urlEncode data ++ padding (base64urlEncode data) = urlsafeB64encode data := by
  obtain ⟨body, solid, split⟩ := urlsafeB64encode_spec data
  have stripped : base64urlEncode data = body := by
    rw [base64urlEncode, split, padding, rdropWhile_pad body solid]
  rw [stripped, split]

theorem b64decode_base64urlEncode (data : Bytes) :
    b64decode (base64urlEncode data ++ padding (base64urlEncode data)) = some data := by
  rw [base64urlEncode_padding, b64decode_urlsafeB64encode]

theorem base64urlEncode_nil_iff (data : Bytes) : base64urlEncode data = [] ↔ data = [] := by
  constructor
  · intro empty
    have decoded := b64decode_base64urlEncode data
    rw [empty] at decoded
    exact (Option.some.inj decoded).symm
  · rintro rfl
    rfl

end DecAustrum.Python.Base64
