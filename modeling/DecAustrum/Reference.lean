import DecAustrum.Policies

/-!
# A reference platform

Readers of the canonical texts of UUIDs, datetimes and floats that meet the laws the
development asks of a platform. Only SHA-256 is left to its user, who gives it as a table.
-/
namespace DecAustrum

open Python

namespace Python

/-- The number a run of digits denotes in `base`. -/
def paddedValue (base : Nat) (s : Str) : Nat :=
  s.foldl (fun value c => value * base + (hexValue c).getD 0) 0

theorem paddedValue_padded (base width n : Nat) (small : 0 < base ∧ base ≤ 16) :
    paddedValue base (padded base width n) = n % base ^ width := by
  induction width generalizing n with
  | zero => simp [padded, paddedValue, Nat.mod_one]
  | succ width ih =>
    have digit := Nat.mod_lt n small.1
    have front : (padded base width (n / base)).foldl
        (fun value c => value * base + (hexValue c).getD 0) 0 = n / base % base ^ width := ih _
    rw [padded, paddedValue, List.foldl_append, front]
    simp only [List.foldl_cons, List.foldl_nil, hexValue_digitChar _ (show n % base < 16 by omega),
      Option.getD_some]
    rw [pow_succ, Nat.mul_comm (base ^ width) base, Nat.mod_mul]
    ring

/-- `UUID(text)` on the canonical text: thirty-two digits once the hyphens are gone. -/
def Uuid.parse (s : Str) : Option Uuid :=
  let digits := s.filter (· ≠ Uuid.hyphen)
  if digits.length = 32 ∧ digits.all (fun c => (hexValue c).isSome) then
    some ⟨Fin.ofNat (2 ^ 128) (paddedValue 16 digits)⟩
  else none

theorem Uuid.parse_str (u : Uuid) : Uuid.parse u.str = some u := by
  have digits : (u.hex.all fun c => (hexValue c).isSome) = true := by
    rw [List.all_eq_true]
    intro c member
    rcases mem_padded 16 32 _ (by decide) c member with ⟨d, below, rfl⟩
    rw [hexValue_digitChar d below]
    rfl
  have value : paddedValue 16 u.hex = u.value.val := by
    rw [hex, paddedValue_padded 16 32 _ (by decide)]
    exact Nat.mod_eq_of_lt u.value.isLt
  rw [parse, filter_str, if_pos ⟨by simp [hex], digits⟩, value]
  cases u
  exact congrArg (fun v => some (Uuid.mk v)) (Fin.ext (Nat.mod_eq_of_lt (Fin.isLt _)))

/-! ## Datetimes -/

private def takeDigits (width : Nat) (s : Str) : Option (Nat × Str) :=
  if (s.take width).length = width ∧ (s.take width).all isDigit then
    some (paddedValue 10 (s.take width), s.drop width)
  else none

private def takeChar (c : CodePoint) : Str → Option Str
  | [] => none
  | d :: rest => if d = c then some rest else none

private theorem takeDigits_padded (width n : Nat) (rest : Str) (below : n < 10 ^ width) :
    takeDigits width (padded 10 width n ++ rest) = some (n, rest) := by
  have taken : (padded 10 width n ++ rest).take width = padded 10 width n := by
    rw [List.take_append_of_le_length (by simp), List.take_of_length_le (by simp)]
  have dropped : (padded 10 width n ++ rest).drop width = rest := by
    rw [List.drop_append_of_le_length (by simp), List.drop_of_length_le (by simp), List.nil_append]
  have digits : (padded 10 width n).all isDigit = true := by
    rw [List.all_eq_true]
    intro c member
    rcases mem_padded 10 width n (by decide) c member with ⟨d, small, rfl⟩
    exact isDigit_digitChar d small
  rw [takeDigits, taken, dropped, if_pos ⟨by simp, digits⟩,
    paddedValue_padded 10 width n (by decide), Nat.mod_eq_of_lt below]

private def takeOffset (negative : Bool) (s : Str) : Option (Option Int) := do
  let hours ← takeDigits 2 s
  let s ← takeChar 0x3a hours.2
  let minutes ← takeDigits 2 s
  let offset : Int := (hours.1 * 60 + minutes.1 : Nat)
  return some (if negative then -offset else offset)

private def takeZone : Str → Option (Option Int)
  | [] => some none
  | c :: s =>
    if c = 0x5a then some (some 0)
    else if c = 0x2b then takeOffset false s
    else if c = 0x2d then takeOffset true s
    else none

private def takeFraction (s : Str) : Option (Nat × Str) :=
  match takeChar 0x2e s with
  | none => some (0, s)
  | some s => takeDigits 6 s

/-- The datetime of an ISO 8601 text with a `T`, a fraction of six digits or none, and a zone
of `Z`, hours and minutes, or none. -/
def Datetime.parse (s : Str) : Option Datetime := do
  let year ← takeDigits 4 s
  let s ← takeChar 0x2d year.2
  let month ← takeDigits 2 s
  let s ← takeChar 0x2d month.2
  let day ← takeDigits 2 s
  let s ← takeChar 0x54 day.2
  let hour ← takeDigits 2 s
  let s ← takeChar 0x3a hour.2
  let minute ← takeDigits 2 s
  let s ← takeChar 0x3a minute.2
  let second ← takeDigits 2 s
  let micro ← takeFraction second.2
  let zone ← takeZone micro.2
  Datetime.make? year.1 month.1 day.1 hour.1 minute.1 second.1 micro.1 zone

private theorem takeChar_cons (c : CodePoint) (rest : Str) : takeChar c (c :: rest) = some rest := by
  simp [takeChar]

private theorem takeOffset_offsetText (offset : Int) (bound : -1440 < offset ∧ offset < 1440)
    (negative : Bool) (sign : negative = decide (offset < 0)) :
    takeOffset negative (padded 10 2 (offset.natAbs / 60) ++
      0x3a :: padded 10 2 (offset.natAbs % 60)) = some (some offset) := by
  have minutes := takeDigits_padded 2 (offset.natAbs % 60) [] (by omega)
  rw [List.append_nil] at minutes
  simp only [takeOffset, takeDigits_padded 2 (offset.natAbs / 60) _ (by omega), takeChar_cons,
    minutes, Option.bind_eq_bind, Option.bind_some, Option.pure_def, Option.some.injEq, sign,
    decide_eq_true_eq]
  split <;> omega

private theorem takeZone_offsetText (offset : Int) (bound : -1440 < offset ∧ offset < 1440) :
    takeZone (Datetime.offsetText offset) = some (some offset) := by
  rw [Datetime.offsetText, takeZone]
  by_cases negative : offset < 0
  · simp only [if_pos negative]
    exact takeOffset_offsetText offset bound true (by simp [negative])
  · simp only [if_neg negative]
    exact takeOffset_offsetText offset bound false (by simp [negative])

private theorem takeFraction_fractionText (d : Datetime) (zone : Str)
    (notPoint : zone.head? ≠ some 0x2e) :
    takeFraction (d.fractionText ++ zone) = some (d.microsecond, zone) := by
  have below : d.microsecond < 10 ^ 6 := by have := d.time; omega
  rw [Datetime.fractionText]
  split
  · next zero =>
    rw [List.nil_append, zero]
    cases zone with
    | nil => rfl
    | cons c rest =>
      rw [List.head?_cons] at notPoint
      have other : c ≠ 0x2e := fun same => notPoint (congrArg some same)
      simp [takeFraction, takeChar, other]
  · rw [List.cons_append, takeFraction, takeChar_cons]
    exact takeDigits_padded 6 _ zone below

private theorem parse_text (d : Datetime) (zone : Str) (notPoint : zone.head? ≠ some 0x2e)
    (taken : takeZone zone = some d.offset) :
    Datetime.parse (d.clockText ++ (d.fractionText ++ zone)) = some d := by
  have date := d.date
  have time := d.time
  have days : daysInMonth d.year d.month ≤ 31 := by
    unfold daysInMonth
    split
    · split <;> omega
    · split <;> omega
  simp only [Datetime.parse, Datetime.clockText, List.append_assoc, List.cons_append,
    takeDigits_padded 4 d.year _ (by omega), takeDigits_padded 2 d.month _ (by omega),
    takeDigits_padded 2 d.day _ (by omega), takeDigits_padded 2 d.hour _ (by omega),
    takeDigits_padded 2 d.minute _ (by omega), takeDigits_padded 2 d.second _ (by omega),
    takeChar_cons, takeFraction_fractionText d zone notPoint, taken, Option.bind_eq_bind,
    Option.bind_some]
  rw [Datetime.make?, dif_pos ⟨d.date, d.time, d.zone⟩]

theorem Datetime.parse_isoformat (d : Datetime) : Datetime.parse d.isoformat = some d := by
  rw [isoformat]
  cases offset : d.offset with
  | none => exact parse_text d [] (by simp) (by rw [offset]; rfl)
  | some o =>
    refine parse_text d (offsetText o) ?_ ?_
    · rw [offsetText]
      split <;> (rw [List.head?_cons]; decide)
    · rw [offset]
      exact takeZone_offsetText o (d.zone o offset)

theorem Datetime.parse_json (d : Datetime) : Datetime.parse d.json = some d := by
  rw [json_eq]
  refine parse_text d _ (zoneText_head d.offset) ?_
  cases offset : d.offset with
  | none => rfl
  | some o =>
    rw [zoneText]
    split
    · next zero =>
      subst zero
      rfl
    · exact takeZone_offsetText o (d.zone o offset)

/-! ## Floats -/

/-- A float by the decimal numeral of its bits, with an exponent to mark it a float. -/
def referenceFloats : FloatText where
  repr x := decimal x.bits.toNat ++ [0x65, 0x30]
  read s := ⟨BitVec.ofNat 64 (decimalValue (s.takeWhile isDigit))⟩

theorem referenceFloats_lawful : referenceFloats.Lawful where
  number x _ := by
    refine ⟨⟨false, decimal x.bits.toNat, [0x65, 0x30]⟩, ?_, rfl, by simp⟩
    have digits := isDigit_decimal x.bits.toNat
    simp only [referenceFloats]
    rcases decimal_head x.bits.toNat with ⟨c, rest, same, digit, zero⟩
    rw [same] at digits ⊢
    have notMinus : c ≠ 0x2d := by
      rintro rfl
      exact absurd digit (by decide)
    have span : Json.spanDigits (rest ++ [0x65, 0x30]) = (rest, [0x65, 0x30]) := by
      have inside : ∀ d ∈ rest, isDigit d = true := fun d member => digits d (by simp [member])
      rw [Json.spanDigits, List.span_eq_takeWhile_dropWhile,
        List.takeWhile_append_of_pos inside, List.dropWhile_append_of_pos inside]
      simp [isDigit]
    rw [List.cons_append, Json.scanNumber, if_neg notMinus, Json.scanUnsigned, Json.scanInteger]
    split
    · next isZero =>
      rw [(zero isZero).1]
      rfl
    · rw [span]
      rfl
  read_repr x _ := by
    have digits := isDigit_decimal x.bits.toNat
    have taken : (decimal x.bits.toNat ++ [0x65, 0x30]).takeWhile isDigit =
        decimal x.bits.toNat := by
      rw [List.takeWhile_append_of_pos digits]
      simp [isDigit]
    simp only [referenceFloats, taken, decimalValue_decimal, BitVec.ofNat_toNat, BitVec.setWidth_eq]

end Python

/-! ## The platform -/

private def readWith {α : Type} (parse : Str → Option α) : Json → Option α
  | .str s => parse s
  | _ => none

/-- The reference platform over a digest function. -/
def referencePlatform (sha256 : Bytes → Str) : Platform where
  floats := referenceFloats
  sha256 := sha256
  uuid := Uuid.parse
  fromIsoformat s := (Datetime.parse s).map (·.moment)
  readUuid := readWith Uuid.parse
  readDatetime := readWith Datetime.parse
  readInt
    | .int n => some n
    | _ => none
  readBool
    | .bool b => some b
    | _ => none
  firstRow := ⟨List.head?, fun _ _ => List.mem_of_head?, fun rows some => by
    obtain ⟨id, rest, rfl⟩ := List.exists_cons_of_ne_nil some
    exact ⟨id, rfl⟩⟩

theorem referencePlatform_lawful (sha256 : Bytes → Str) : (referencePlatform sha256).Lawful where
  floats := referenceFloats_lawful
  uuid_str u := by simp only [referencePlatform, Uuid.parse_str]
  fromIsoformat_isoformat d := by
    simp only [referencePlatform, Datetime.parse_isoformat, Option.map_some]
  readUuid_str u := by simp only [referencePlatform, readWith, Uuid.parse_str]
  readDatetime_isoformat d := by
    simp only [referencePlatform, readWith, Datetime.parse_isoformat]
  readDatetime_json d := by simp only [referencePlatform, readWith, Datetime.parse_json]
  readInt_int n := by simp only [referencePlatform]
  readBool_bool b := by simp only [referencePlatform]

/-! ## Digests by table -/

/-- The digest the table lists for some data, else a text that is no digest and spells the data. -/
def tableSha256 (table : List (Bytes × Str)) (data : Bytes) : Str :=
  match table.find? fun entry => entry.1 = data with
  | some entry => entry.2
  | none => 0x78 :: data.map fun b => Fin.ofNat 0x110000 b.toNat

theorem tableSha256_inj (table : List (Bytes × Str))
    (digests : (table.all fun entry => isSha256Digest entry.2) = true)
    (distinct : (table.map Prod.snd).Nodup) (x y : Bytes)
    (same : tableSha256 table x = tableSha256 table y) : x = y := by
  have hex (entry : Bytes × Str) (member : entry ∈ table) : entry.2.head? ≠ some 0x78 := by
    intro head
    have digest := List.all_eq_true.mp digests entry member
    simp only [isSha256Digest, Bool.and_eq_true, List.all_eq_true] at digest
    have wrong := digest.2 0x78 (List.mem_of_mem_head? head)
    exact absurd wrong (by decide)
  unfold tableSha256 at same
  cases xFound : table.find? fun entry => entry.1 = x with
  | none =>
    cases yFound : table.find? fun entry => entry.1 = y with
    | none =>
      simp only [xFound, yFound, List.cons.injEq, true_and] at same
      refine List.map_injective_iff.mpr ?_ same
      intro a b equal
      have values := congrArg Fin.val equal
      have aSmall := a.toNat_lt
      have bSmall := b.toNat_lt
      simp only [Fin.ofNat] at values
      rw [Nat.mod_eq_of_lt (by omega), Nat.mod_eq_of_lt (by omega)] at values
      exact UInt8.toNat_inj.mp values
    | some entry =>
      simp only [xFound, yFound] at same
      exact absurd (by rw [← same]; rfl) (hex entry (List.mem_of_find?_eq_some yFound))
  | some entry =>
    cases yFound : table.find? fun entry => entry.1 = y with
    | none =>
      simp only [xFound, yFound] at same
      exact absurd (by rw [same]; rfl) (hex entry (List.mem_of_find?_eq_some xFound))
    | some other =>
      simp only [xFound, yFound] at same
      have equal := List.inj_on_of_nodup_map distinct (List.mem_of_find?_eq_some xFound)
        (List.mem_of_find?_eq_some yFound) same
      have xKey := List.find?_some xFound
      have yKey := List.find?_some yFound
      simp only [decide_eq_true_eq] at xKey yKey
      rw [← xKey, ← yKey, equal]

/-- The digest the table lists for some data, else sixty-four zeros. -/
def hexSha256 (table : List (Bytes × Str)) (data : Bytes) : Str :=
  match table.find? fun entry => entry.1 = data with
  | some entry => entry.2
  | none => List.replicate 64 0x30

theorem hexSha256_hex (table : List (Bytes × Str))
    (digests : (table.all fun entry => isSha256Digest entry.2) = true) (data : Bytes) :
    isSha256Digest (hexSha256 table data) = true := by
  unfold hexSha256
  split
  · next entry found => exact List.all_eq_true.mp digests entry (List.mem_of_find?_eq_some found)
  · decide

/-- A listed digest has one preimage. -/
theorem hexSha256_single (table : List (Bytes × Str)) (distinct : (table.map Prod.snd).Nodup)
    (hash : Str) (listed : hash ≠ List.replicate 64 0x30) (x y : Bytes)
    (xHash : hexSha256 table x = hash) (yHash : hexSha256 table y = hash) : x = y := by
  have entryOf (z : Bytes) (zHash : hexSha256 table z = hash) : (z, hash) ∈ table := by
    unfold hexSha256 at zHash
    split at zHash
    · next entry found =>
      have key := List.find?_some found
      rw [decide_eq_true_eq] at key
      rw [← key, ← zHash]
      exact List.mem_of_find?_eq_some found
    · exact absurd zHash.symm listed
  have same := List.inj_on_of_nodup_map distinct (entryOf x xHash) (entryOf y yHash) rfl
  exact (Prod.mk.inj same).1

theorem hexPlatform_hex (table : List (Bytes × Str))
    (digests : (table.all fun entry => isSha256Digest entry.2) = true) :
    (referencePlatform (hexSha256 table)).HexDigests := hexSha256_hex table digests

/-! ## Values of samples -/

/-- The second of January 2025. -/
theorem sampleDate_valid : 1 ≤ 2025 ∧ 2025 ≤ 9999 ∧ 1 ≤ 1 ∧ 1 ≤ 12 ∧ 1 ≤ 2 ∧ 2 ≤ daysInMonth 2025 1 := by
  decide

theorem utcOffset_valid : ∀ o ∈ some (0 : Int), -1440 < o ∧ o < 1440 := by simp

def sampleMoment : UtcDatetime :=
  ⟨⟨2025, 1, 2, 3, 4, 5, 0, some 0, sampleDate_valid, by decide, utcOffset_valid⟩, rfl⟩

def sampleVerifiedAt : Datetime :=
  ⟨2025, 1, 2, 3, 4, 6, 0, some 0, sampleDate_valid, by decide, utcOffset_valid⟩

theorem sampleVersion_positive : (1 : Int) ≤ 1 := by decide

theorem sampleNextVersion_positive : (1 : Int) ≤ 2 := by decide

def sampleEmptyContext : StrictObject := ⟨[], by rfl, by rfl, rfl⟩

def samplePayAction : NonEmptyString := ⟨"pay", by decide, by decide, by decide⟩

/-- The only client of a run, and the two clients of one. -/
def soleClient : Fin 1 := 0

def firstClient : Fin 2 := 0

def secondClient : Fin 2 := 1

def sampleGold : StrictJson := ⟨.str "gold", by decide, by decide, rfl⟩

def sampleTrue : StrictJson := ⟨.bool true, rfl, rfl, rfl⟩

end DecAustrum
