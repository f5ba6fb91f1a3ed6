import DecAustrum.Python.JsonText
import Mathlib.Data.List.TakeWhile

/-!
# Reading what was written

`scan` returns the value `text` wrote, for every style whose separators are a
separator and blanks. Numbers need what follows them to end a number; the other
values need nothing.
-/
namespace DecAustrum.Python

namespace Json

/-! ## Strings -/

/-- The units the reader sees for one written character. -/
def unitsOf (ensureAscii : Bool) (c : CodePoint) : List Unit :=
  if c = 0x22 ∨ c = 0x5c ∨ c = 0x0a ∨ c = 0x0d ∨ c = 0x09 ∨ c = 0x0c ∨ c = 0x08 then [(c, false)]
  else if c.val < 0x20 then [(c, true)]
  else if ensureAscii && 0x7f ≤ c.val then
    if c.val < 0x10000 then [(c, true)]
    else [(Fin.ofNat 0x110000 (0xd800 + (c.val - 0x10000) / 0x400), true),
      (Fin.ofNat 0x110000 (0xdc00 + (c.val - 0x10000) % 0x400), true)]
  else [(c, false)]

private theorem scanUnits_unicodeEscape (unit : Nat) (below : unit < 0x10000) (rest : Str) :
    scanUnits (unicodeEscape unit ++ rest) =
      (scanUnits rest).map fun scanned =>
        ((Fin.ofNat 0x110000 unit, true) :: scanned.1, scanned.2) := by
  rcases padded_four unit below with ⟨a, b, c, d, spelled, value⟩
  rw [unicodeEscape, spelled]
  simp only [List.cons_append, List.nil_append]
  rw [scanUnits]
  simp [value]

private theorem scanUnits_simple (e d : CodePoint) (rest : Str) (notU : e ≠ 0x75)
    (simple : simpleEscape e = some d) :
    scanUnits (0x5c :: e :: rest) =
      (scanUnits rest).map fun scanned => ((d, false) :: scanned.1, scanned.2) := by
  rw [scanUnits.eq_def]
  simp [notU, simple]

private theorem scanUnits_plain (c : CodePoint) (rest : Str) (notQuote : c ≠ 0x22)
    (notBackslash : c ≠ 0x5c) (printable : ¬ c.val < 0x20) :
    scanUnits (c :: rest) =
      (scanUnits rest).map fun scanned => ((c, false) :: scanned.1, scanned.2) := by
  rw [scanUnits.eq_def]
  simp [notQuote, notBackslash, printable]

private theorem scanUnits_escapeChar (ensureAscii : Bool) (c : CodePoint) (rest : Str) :
    scanUnits (escapeChar ensureAscii c ++ rest) =
      (scanUnits rest).map fun scanned => (unitsOf ensureAscii c ++ scanned.1, scanned.2) := by
  unfold escapeChar
  split
  · next h => subst h; exact scanUnits_simple 0x22 0x22 rest (by decide) rfl
  split
  · next h => subst h; exact scanUnits_simple 0x5c 0x5c rest (by decide) rfl
  split
  · next h => subst h; exact scanUnits_simple 0x6e 0x0a rest (by decide) rfl
  split
  · next h => subst h; exact scanUnits_simple 0x72 0x0d rest (by decide) rfl
  split
  · next h => subst h; exact scanUnits_simple 0x74 0x09 rest (by decide) rfl
  split
  · next h => subst h; exact scanUnits_simple 0x66 0x0c rest (by decide) rfl
  split
  · next h => subst h; exact scanUnits_simple 0x62 0x08 rest (by decide) rfl
  next n1 n2 n3 n4 n5 n6 n7 =>
  have same : Fin.ofNat 0x110000 c.val = c := Fin.ext (Nat.mod_eq_of_lt c.isLt)
  have below := c.isLt
  simp only [unitsOf, n1, n2, n3, n4, n5, n6, n7, or_self, if_false]
  split
  · next control =>
    rw [scanUnits_unicodeEscape c.val (by omega), same]
    rfl
  split
  · split
    · next small =>
      rw [scanUnits_unicodeEscape c.val small, same]
      rfl
    · next large =>
      rw [List.append_assoc, scanUnits_unicodeEscape _ (by omega),
        scanUnits_unicodeEscape _ (by omega)]
      cases scanUnits rest <;> rfl
  · next printable _ => exact scanUnits_plain c rest n1 n2 printable

private theorem joinUnits_cons (c : CodePoint) (escaped : Bool) (rest : List Unit)
    (notHigh : escaped = true → isHighSurrogate c = false) :
    joinUnits ((c, escaped) :: rest) = c :: joinUnits rest := by
  cases rest with
  | nil => rfl
  | cons next rest =>
    obtain ⟨d, escaped'⟩ := next
    rw [joinUnits]
    cases escaped with
    | false => simp
    | true => simp [notHigh rfl]

private theorem codePoint_ofNat (n : Nat) (below : n < 0x110000) :
    (Fin.ofNat 0x110000 n).val = n := Nat.mod_eq_of_lt below

private theorem joinUnits_pair (c : CodePoint) (rest : List Unit) (large : 0x10000 ≤ c.val) :
    joinUnits ((Fin.ofNat 0x110000 (0xd800 + (c.val - 0x10000) / 0x400), true) ::
      (Fin.ofNat 0x110000 (0xdc00 + (c.val - 0x10000) % 0x400), true) :: rest) =
      c :: joinUnits rest := by
  have below := c.isLt
  have high := codePoint_ofNat (0xd800 + (c.val - 0x10000) / 0x400) (by omega)
  have low := codePoint_ofNat (0xdc00 + (c.val - 0x10000) % 0x400) (by omega)
  rw [joinUnits, if_pos]
  · have joined : joinPair (Fin.ofNat 0x110000 (0xd800 + (c.val - 0x10000) / 0x400))
        (Fin.ofNat 0x110000 (0xdc00 + (c.val - 0x10000) % 0x400)) = c := by
      apply Fin.ext
      rw [joinPair, high, low, codePoint_ofNat _ (by omega)]
      omega
    rw [joined]
  · simp only [isHighSurrogate, isLowSurrogate, high, low, Bool.and_self, Bool.true_and,
      Bool.and_eq_true, decide_eq_true_eq]
    omega

private theorem joinUnits_unitsOf (ensureAscii : Bool) (c : CodePoint) (rest : List Unit)
    (scalar : ensureAscii = true → isSurrogate c = false) :
    joinUnits (unitsOf ensureAscii c ++ rest) = c :: joinUnits rest := by
  unfold unitsOf
  split
  · exact joinUnits_cons c false rest (by simp)
  split
  · next control =>
    refine joinUnits_cons c true rest fun _ => ?_
    simp only [isHighSurrogate, Bool.and_eq_false_iff, decide_eq_false_iff_not]
    omega
  split
  · next escaped =>
    simp only [Bool.and_eq_true, decide_eq_true_eq] at escaped
    have notSurrogate := scalar escaped.1
    split
    · refine joinUnits_cons c true rest fun _ => ?_
      simp only [isSurrogate, isHighSurrogate, Bool.and_eq_false_iff, decide_eq_false_iff_not,
        Fin.le_def] at notSurrogate ⊢
      have : (0xd800 : CodePoint).val = 0xd800 := rfl
      have : (0xdfff : CodePoint).val = 0xdfff := rfl
      omega
    · next large => exact joinUnits_pair c rest (by omega)
  · exact joinUnits_cons c false rest (by simp)

/-- A string `style` can write and read back: escapes cannot tell a surrogate pair from
the character it denotes. -/
def readable (ensureAscii : Bool) (s : Str) : Prop :=
  ensureAscii = true → ∀ c ∈ s, isSurrogate c = false

private theorem scanUnits_body (ensureAscii : Bool) (s rest : Str) :
    scanUnits (s.flatMap (escapeChar ensureAscii) ++ 0x22 :: rest) =
      .ok (s.flatMap (unitsOf ensureAscii), rest) := by
  induction s with
  | nil => rw [List.flatMap_nil, List.nil_append, scanUnits.eq_def]; rfl
  | cons c s ih =>
    rw [List.flatMap_cons, List.append_assoc, scanUnits_escapeChar, ih]
    rfl

private theorem joinUnits_body (ensureAscii : Bool) (s : Str) (written : readable ensureAscii s) :
    joinUnits (s.flatMap (unitsOf ensureAscii)) = s := by
  induction s with
  | nil => rfl
  | cons c s ih =>
    rw [List.flatMap_cons, joinUnits_unitsOf _ _ _ fun ascii => written ascii c (by simp),
      ih fun ascii d member => written ascii d (by simp [member])]

/-- The string that is read where `s` was written. -/
def rereadStr (ensureAscii : Bool) (s : Str) : Str := joinUnits (s.flatMap (unitsOf ensureAscii))

theorem rereadStr_of_readable (ensureAscii : Bool) (s : Str) (written : readable ensureAscii s) :
    rereadStr ensureAscii s = s :=
  joinUnits_body ensureAscii s written

theorem scanString_body (ensureAscii : Bool) (s rest : Str) :
    scanString (s.flatMap (escapeChar ensureAscii) ++ 0x22 :: rest) =
      .ok (rereadStr ensureAscii s, rest) := by
  rw [scanString, scanUnits_body]
  rfl

/-! ## Numbers -/

def isNumberChar (c : CodePoint) : Bool :=
  isDigit c || c = 0x2e || c = 0x65 || c = 0x45 || c = 0x2b || c = 0x2d

/-- What follows a number does not continue it. -/
def Stops (rest : Str) : Prop := ∀ c, rest.head? = some c → isNumberChar c = false

theorem stops_cons (c : CodePoint) (rest : Str) (other : isNumberChar c = false) :
    Stops (c :: rest) := by
  intro d head
  cases head
  exact other

private theorem stops_spec (c : CodePoint) (rest : Str) (stops : Stops (c :: rest)) :
    isDigit c = false ∧ c ≠ 0x2e ∧ c ≠ 0x65 ∧ c ≠ 0x45 ∧ c ≠ 0x2b ∧ c ≠ 0x2d := by
  simpa [isNumberChar, and_assoc] using stops c rfl

private theorem spanDigits_cons (c : CodePoint) (s : Str) :
    spanDigits (c :: s) =
      if isDigit c then (c :: (spanDigits s).1, (spanDigits s).2) else ([], c :: s) := by
  simp only [spanDigits, List.span_eq_takeWhile_dropWhile, List.takeWhile_cons, List.dropWhile_cons]
  split <;> rfl

private theorem spanDigits_append (s rest : Str) (stops : Stops rest) :
    spanDigits (s ++ rest) = ((spanDigits s).1, (spanDigits s).2 ++ rest) := by
  induction s with
  | nil =>
    cases rest with
    | nil => rfl
    | cons c rest =>
      rw [List.nil_append, spanDigits_cons, if_neg (by simp [(stops_spec c rest stops).1])]
      rfl
  | cons c s ih =>
    rw [List.cons_append, spanDigits_cons, spanDigits_cons, ih]
    split <;> rfl

private theorem spanDigits_digits (s : Str) (digits : ∀ c ∈ s, isDigit c = true) :
    spanDigits s = (s, []) := by
  induction s with
  | nil => rfl
  | cons c s ih =>
    rw [spanDigits_cons, if_pos (digits c (by simp)), ih fun d member => digits d (by simp [member])]

private theorem scanInteger_append (s rest i t : Str) (stops : Stops rest)
    (scanned : scanInteger s = some (i, t)) : scanInteger (s ++ rest) = some (i, t ++ rest) := by
  cases s with
  | nil => cases scanned
  | cons c s =>
    simp only [scanInteger, List.cons_append] at scanned ⊢
    split at scanned
    · next zero =>
      cases scanned
      rw [if_pos zero]
    · next nonzero =>
      split at scanned
      · next digit =>
        cases scanned
        rw [if_neg nonzero, if_pos digit, spanDigits_append s rest stops]
      · cases scanned

private theorem scanFraction_stops (rest : Str) (stops : Stops rest) :
    scanFraction rest = ([], rest) := by
  match rest with
  | [] => rfl
  | [c] => rfl
  | c :: d :: rest => simp [scanFraction, (stops_spec c _ stops).2.1]

private theorem scanFraction_append (s rest : Str) (stops : Stops rest) :
    scanFraction (s ++ rest) = ((scanFraction s).1, (scanFraction s).2 ++ rest) := by
  match s with
  | [] => exact scanFraction_stops rest stops
  | [c] =>
    cases rest with
    | nil => rfl
    | cons d rest =>
      simp [scanFraction, (stops_spec d rest stops).1]
  | c :: d :: s =>
    simp only [List.cons_append, scanFraction, spanDigits_append s rest stops]
    split <;> rfl

private theorem scanExponent_stops (rest : Str) (stops : Stops rest) :
    scanExponent rest = ([], rest) := by
  match rest with
  | [] => rfl
  | [c] => rfl
  | c :: d :: rest =>
    have spec := stops_spec c _ stops
    simp [scanExponent, spec.2.2.1, spec.2.2.2.1]

private theorem scanExponent_append (s rest : Str) (stops : Stops rest) :
    scanExponent (s ++ rest) = ((scanExponent s).1, (scanExponent s).2 ++ rest) := by
  match s with
  | [] => exact scanExponent_stops rest stops
  | [e] =>
    cases rest with
    | nil => rfl
    | cons d rest =>
      have spec := stops_spec d rest stops
      simp [scanExponent, spec.1, spec.2.2.2.2.1, spec.2.2.2.2.2]
  | [e, d] =>
    cases rest with
    | nil => simp
    | cons f rest =>
      have spec := stops_spec f rest stops
      have span : spanDigits (f :: rest) = ([], f :: rest) := by
        rw [spanDigits_cons, if_neg (by simp [spec.1])]
      simp only [List.cons_append, List.nil_append, scanExponent, span, spec.1]
      split
      · rfl
      split <;> rfl
  | e :: d :: f :: s =>
    simp only [List.cons_append, scanExponent]
    have span := spanDigits_append (f :: s) rest stops
    rw [List.cons_append] at span
    rw [span, spanDigits_append s rest stops]
    split
    · rfl
    split
    · split <;> rfl
    · rfl

theorem scanNumber_append (s rest : Str) (token : NumberToken) (stops : Stops rest)
    (scanned : scanNumber s = some (token, [])) : scanNumber (s ++ rest) = some (token, rest) := by
  have unsigned (negative : Bool) (s : Str) (scanned : scanUnsigned negative s = some (token, [])) :
      scanUnsigned negative (s ++ rest) = some (token, rest) := by
    simp only [scanUnsigned, Option.map_eq_some_iff, Prod.mk.injEq] at scanned ⊢
    rcases scanned with ⟨integer, found, rfl, consumed⟩
    refine ⟨_, scanInteger_append s rest integer.1 integer.2 stops found, ?_⟩
    rw [scanFraction_append _ rest stops, scanExponent_append _ rest stops, consumed]
    simp
  cases s with
  | nil => cases scanned
  | cons c s =>
    simp only [scanNumber, List.cons_append] at scanned ⊢
    split at scanned
    · next minus => rw [if_pos minus]; exact unsigned true s scanned
    · next plus => rw [if_neg plus]; exact unsigned false (c :: s) scanned

/-- A number opens with a digit, or with a minus and a digit. -/
private theorem scanNumber_shape (s rest : Str) (token : NumberToken)
    (scanned : scanNumber s = some (token, rest)) :
    ∃ c t, s = c :: t ∧
      (isDigit c = true ∨ c = 0x2d ∧ ∃ d t', t = d :: t' ∧ isDigit d = true) := by
  have opens (negative : Bool) (s : Str) (scanned : scanUnsigned negative s = some (token, rest)) :
      ∃ c t, s = c :: t ∧ isDigit c = true := by
    simp only [scanUnsigned, Option.map_eq_some_iff] at scanned
    rcases scanned with ⟨integer, found, -⟩
    cases s with
    | nil => cases found
    | cons c s =>
      refine ⟨c, s, rfl, ?_⟩
      simp only [scanInteger] at found
      split at found
      · next zero => subst zero; decide
      split at found
      · assumption
      · cases found
  cases s with
  | nil => cases scanned
  | cons c s =>
    refine ⟨c, s, rfl, ?_⟩
    simp only [scanNumber] at scanned
    split at scanned
    · next minus => exact .inr ⟨minus, opens true s scanned⟩
    · rcases opens false (c :: s) scanned with ⟨d, t, same, digit⟩
      cases same
      exact .inl digit

private theorem digit_ne (c d : CodePoint) (digit : isDigit c = true) (other : isDigit d = false) :
    c ≠ d := by
  rintro rfl
  rw [digit] at other
  cases other

private theorem scanConstant_number (s rest : Str) (token : NumberToken)
    (scanned : scanNumber s = some (token, rest)) : scanConstant s = none := by
  rcases scanNumber_shape s rest token scanned with ⟨c, t, rfl, digit | ⟨rfl, d, t', rfl, digit⟩⟩
  · have n := digit_ne c 0x6e digit (by decide)
    have t := digit_ne c 0x74 digit (by decide)
    have f := digit_ne c 0x66 digit (by decide)
    have N := digit_ne c 0x4e digit (by decide)
    have I := digit_ne c 0x49 digit (by decide)
    have m := digit_ne c 0x2d digit (by decide)
    simp [scanConstant, constants, ofString, n.symm, t.symm, f.symm, N.symm, I.symm, m.symm]
  · have I := digit_ne d 0x49 digit (by decide)
    simp [scanConstant, constants, ofString, I.symm]

end Json

/-- What the platform's `repr` and `float` promise of finite floats: the text is a JSON number
with a fraction or an exponent, and reads back as the float it came from. -/
structure FloatText.Lawful (floats : FloatText) : Prop where
  number : ∀ x : PyFloat, x.isFinite = true →
    ∃ token, Json.scanNumber (floats.repr x) = some (token, []) ∧
      token.text = floats.repr x ∧ token.tail ≠ []
  read_repr : ∀ x : PyFloat, x.isFinite = true → floats.read (floats.repr x) = x

/-- A separator followed by blanks. -/
def Separates (c : CodePoint) (separator : Str) : Prop :=
  ∃ gap, separator = c :: gap ∧ ∀ d ∈ gap, Json.isJsonSpace d = true

structure Style.Lawful (style : Style) : Prop where
  item : Separates 0x2c style.itemSeparator
  key : Separates 0x3a style.keySeparator

theorem Style.canonical_lawful : Style.canonical.Lawful :=
  ⟨⟨[], rfl, by simp⟩, ⟨[], rfl, by simp⟩⟩

theorem Style.default_lawful : Style.default.Lawful :=
  ⟨⟨[0x20], rfl, by simp [Json.isJsonSpace]⟩, ⟨[0x20], rfl, by simp [Json.isJsonSpace]⟩⟩

namespace Json

mutual

/-- The value that is read where `v` was written. -/
def reread (ensureAscii : Bool) : Json → Json
  | .str s => .str (rereadStr ensureAscii s)
  | .arr items => .arr (rereadItems ensureAscii items)
  | .obj fields => .obj (rereadFields ensureAscii fields)
  | v => v

def rereadItems (ensureAscii : Bool) : List Json → List Json
  | [] => []
  | v :: rest => reread ensureAscii v :: rereadItems ensureAscii rest

def rereadFields (ensureAscii : Bool) : List (Str × Json) → List (Str × Json)
  | [] => []
  | (k, v) :: rest =>
    (rereadStr ensureAscii k, reread ensureAscii v) :: rereadFields ensureAscii rest

end

theorem rereadItems_eq (ensureAscii : Bool) (items : List Json) :
    rereadItems ensureAscii items = items.map (reread ensureAscii) := by
  induction items with
  | nil => rfl
  | cons v rest ih => rw [rereadItems, ih, List.map_cons]

theorem rereadFields_eq (ensureAscii : Bool) (fields : List (Str × Json)) :
    rereadFields ensureAscii fields =
      fields.map fun field => (rereadStr ensureAscii field.1, reread ensureAscii field.2) := by
  induction fields with
  | nil => rfl
  | cons field rest ih => rw [rereadFields, ih, List.map_cons]

/-- Every string of the value can be written and read back. -/
def Readable (ensureAscii : Bool) (v : Json) : Prop := ∀ s ∈ v.strings, readable ensureAscii s

theorem readable_raw (v : Json) : Readable false v := by
  intro s _ ascii
  cases ascii

theorem readable_item (ensureAscii : Bool) (items : List Json)
    (written : Readable ensureAscii (.arr items)) : ∀ v ∈ items, Readable ensureAscii v := by
  induction items with
  | nil => simp
  | cons v items ih =>
    intro w member s present
    rcases List.mem_cons.mp member with rfl | later
    · exact written s (by simp [strings, stringsItems, present])
    · refine ih (fun t inside => written t ?_) w later s present
      simp only [strings, stringsItems, List.mem_append] at inside ⊢
      exact .inr inside

theorem readable_field (ensureAscii : Bool) (fields : List (Str × Json))
    (written : Readable ensureAscii (.obj fields)) :
    ∀ field ∈ fields, readable ensureAscii field.1 ∧ Readable ensureAscii field.2 := by
  induction fields with
  | nil => simp
  | cons field fields ih =>
    intro other member
    rcases List.mem_cons.mp member with rfl | later
    · constructor
      · exact written _ (by simp [strings, stringsFields])
      · intro s present
        exact written s (by simp [strings, stringsFields, present])
    · refine ih (fun t inside => written t ?_) other later
      simp only [strings, stringsFields, List.mem_cons, List.mem_append] at inside ⊢
      exact .inr (.inr inside)

theorem reread_of_readable (ensureAscii : Bool) (v : Json) (written : Readable ensureAscii v) :
    v.reread ensureAscii = v := by
  induction v using Json.inductionOn with
  | str s =>
    rw [reread, rereadStr_of_readable ensureAscii s (written s (by simp [strings]))]
  | arr items ih =>
    rw [reread, rereadItems_eq]
    conv_rhs => rw [← List.map_id items]
    exact congrArg Json.arr (List.map_congr_left fun v member =>
      ih v member (readable_item ensureAscii items written v member))
  | obj fields ih =>
    rw [reread, rereadFields_eq]
    conv_rhs => rw [← List.map_id fields]
    refine congrArg Json.obj (List.map_congr_left fun field member => ?_)
    have each := readable_field ensureAscii fields written field member
    rw [rereadStr_of_readable ensureAscii field.1 each.1, ih field member each.2]
    rfl
  | _ => rfl

section RoundTrip

variable (floats : FloatText) (style : Style)

private theorem skipSpace_gap (gap rest : Str) (blank : ∀ d ∈ gap, isJsonSpace d = true) :
    skipSpace (gap ++ rest) = skipSpace rest := by
  induction gap with
  | nil => rfl
  | cons d gap ih =>
    have step : skipSpace (d :: (gap ++ rest)) = skipSpace (gap ++ rest) := by
      simp [skipSpace, blank d (by simp)]
    rw [List.cons_append, step, ih fun e member => blank e (by simp [member])]

private theorem skipSpace_solid (c : CodePoint) (rest : Str) (solid : isJsonSpace c = false) :
    skipSpace (c :: rest) = c :: rest := by
  simp [skipSpace, solid]

private theorem solid_of_number (c : CodePoint) (number : isDigit c = true ∨ c = 0x2d) :
    isJsonSpace c = false ∧ c ≠ 0x22 ∧ c ≠ 0x5b ∧ c ≠ 0x5d ∧ c ≠ 0x7b ∧ c ≠ 0x7d ∧ c ≠ 0xfeff := by
  rcases number with digit | rfl
  · simp only [isJsonSpace, Bool.or_eq_false_iff, decide_eq_false_iff_not]
    refine ⟨⟨⟨⟨?_, ?_⟩, ?_⟩, ?_⟩, ?_, ?_, ?_, ?_, ?_, ?_⟩ <;> rintro rfl <;>
      exact absurd digit (by decide)
  · decide

/-- The text of a value opens with a character that no blank, comma or closing bracket is. -/
theorem text_head (lawful : floats.Lawful) (v : Json) (accepted : v.encodable = true) :
    ∃ c t, text floats style v = c :: t ∧ isJsonSpace c = false ∧ c ≠ 0x5d ∧ c ≠ 0x7d ∧
      c ≠ 0xfeff := by
  cases v with
  | null => exact ⟨_, _, rfl, by decide, by decide, by decide, by decide⟩
  | bool b => cases b <;> exact ⟨_, _, rfl, by decide, by decide, by decide, by decide⟩
  | int n =>
    rw [text, intText]
    split
    · exact ⟨_, _, rfl, by decide, by decide, by decide, by decide⟩
    · rcases decimal_head n.natAbs with ⟨c, rest, same, digit, -⟩
      have solid := solid_of_number c (.inl digit)
      exact ⟨c, rest, same, solid.1, solid.2.2.2.1, solid.2.2.2.2.2⟩
  | float x =>
    rcases lawful.number x accepted with ⟨token, scanned, -⟩
    rcases scanNumber_shape _ _ token scanned with ⟨c, t, same, shape⟩
    have solid := solid_of_number c (shape.imp_right And.left)
    exact ⟨c, t, same, solid.1, solid.2.2.2.1, solid.2.2.2.2.2⟩
  | str s => exact ⟨_, _, rfl, by decide, by decide, by decide, by decide⟩
  | arr items => exact ⟨_, _, rfl, by decide, by decide, by decide, by decide⟩
  | obj fields => exact ⟨_, _, rfl, by decide, by decide, by decide, by decide⟩

/-- `scanOnce` reads the value back from its text. -/
private def Scans (v : Json) : Prop :=
  ∀ fuel rest, 2 * (text floats style v).length ≤ fuel → Stops rest →
    scanOnce floats fuel (text floats style v ++ rest) = .ok (v.reread style.ensureAscii, rest)

private theorem scanNumber_intText (n : Int) :
    ∃ token, scanNumber (intText n) = some (token, []) ∧ token.integer = decimal n.natAbs ∧
      token.negative = decide (n < 0) ∧ token.tail = [] := by
  have unsigned (negative : Bool) : scanUnsigned negative (decimal n.natAbs) =
      some (⟨negative, decimal n.natAbs, []⟩, []) := by
    have digits := isDigit_decimal n.natAbs
    rcases decimal_head n.natAbs with ⟨c, rest, same, digit, zero⟩
    rw [same] at digits ⊢
    have span := spanDigits_digits rest fun d member => digits d (by simp [member])
    rw [scanUnsigned, scanInteger]
    split
    · next isZero =>
      rw [(zero isZero).1]
      rfl
    · rw [span]
      rfl
  rw [intText]
  split
  · next negative =>
    refine ⟨⟨true, decimal n.natAbs, []⟩, ?_, rfl, by simp [negative], rfl⟩
    rw [scanNumber, if_pos rfl, unsigned]
  · next positive =>
    refine ⟨⟨false, decimal n.natAbs, []⟩, ?_, rfl, by simp [positive], rfl⟩
    have plain := unsigned false
    rcases decimal_head n.natAbs with ⟨c, rest, same, digit, -⟩
    rw [same] at plain ⊢
    rw [scanNumber, if_neg (digit_ne c 0x2d digit (by decide)), plain]

/-- A number written alone is read as the scalar its token denotes. -/
private theorem scanOnce_number (s rest : Str) (token : NumberToken) (v : Json) (fuel : Nat)
    (scanned : scanNumber s = some (token, [])) (value : numberValue floats token = .ok v)
    (enough : 2 * s.length ≤ fuel) (stops : Stops rest) :
    scanOnce floats fuel (s ++ rest) = .ok (v, rest) := by
  have whole := scanNumber_append s rest token stops scanned
  have notConstant := scanConstant_number _ _ token whole
  rcases scanNumber_shape s [] token scanned with ⟨c, t, rfl, shape⟩
  have solid := solid_of_number c (shape.imp_right And.left)
  obtain ⟨fuel, rfl⟩ : ∃ n, fuel = n + 1 :=
    ⟨fuel - 1, by simp only [List.length_cons] at enough; omega⟩
  rw [List.cons_append] at whole notConstant ⊢
  rw [scanOnce]
  simp only [solid.2.1, solid.2.2.1, solid.2.2.2.2.1, if_false, scanScalar, notConstant, whole,
    value]
  rfl

private theorem scans_constant (v : Json) (t rest : Str) (fuel : Nat)
    (member : (t, v) ∈ constants.take 3) (enough : 2 * t.length ≤ fuel) :
    scanOnce floats fuel (t ++ rest) = .ok (v, rest) := by
  simp only [constants, List.take_succ_cons, List.take_zero, List.mem_cons, Prod.mk.injEq,
    List.not_mem_nil, or_false] at member
  have positive : 0 < t.length := by
    rcases member with ⟨rfl, -⟩ | ⟨rfl, -⟩ | ⟨rfl, -⟩ <;> decide
  obtain ⟨fuel, rfl⟩ : ∃ n, fuel = n + 1 := ⟨fuel - 1, by omega⟩
  rcases member with ⟨rfl, rfl⟩ | ⟨rfl, rfl⟩ | ⟨rfl, rfl⟩ <;>
    simp [scanOnce, scanScalar, scanConstant, constants, ofString]

private theorem scanItems_text (lawful : floats.Lawful) (styled : style.Lawful) (v : Json)
    (items : List Json) (accepted : ∀ w ∈ v :: items, w.encodable = true)
    (each : ∀ w ∈ v :: items, Scans floats style w) (fuel : Nat) (rest : Str)
    (enough : 2 * (itemsText floats style (v :: items)).length + 1 ≤ fuel) :
    scanItems floats fuel (itemsText floats style (v :: items) ++ 0x5d :: rest) =
      .ok (rereadItems style.ensureAscii (v :: items), rest) := by
  induction items generalizing v fuel with
  | nil =>
    simp only [itemsText, itemsTail, List.append_nil] at enough ⊢
    obtain ⟨fuel, rfl⟩ : ∃ n, fuel = n + 1 := ⟨fuel - 1, by omega⟩
    rw [scanItems, each v (by simp) fuel _ (by omega) (stops_cons 0x5d rest (by decide))]
    simp [bind, Except.bind, skipSpace_solid 0x5d rest (by decide), rereadItems]
  | cons w items ih =>
    rcases styled.item with ⟨gap, separator, blank⟩
    have tail : itemsTail floats style (w :: items) =
        0x2c :: (gap ++ itemsText floats style (w :: items)) := by
      rw [itemsTail, separator, itemsText, List.cons_append]
    rw [itemsText, tail] at enough ⊢
    simp only [List.length_append, List.length_cons] at enough
    obtain ⟨fuel, rfl⟩ : ∃ n, fuel = n + 1 := ⟨fuel - 1, by omega⟩
    rcases text_head floats style lawful w (accepted w (by simp)) with ⟨c, t, opens, solid, -, -⟩
    have skipped : skipSpace (gap ++ (itemsText floats style (w :: items) ++ 0x5d :: rest)) =
        itemsText floats style (w :: items) ++ 0x5d :: rest := by
      rw [skipSpace_gap _ _ blank, itemsText, opens]
      exact skipSpace_solid c _ solid
    rw [List.append_assoc, List.cons_append, List.append_assoc, scanItems,
      each v (by simp) fuel _ (by omega) (stops_cons 0x2c _ (by decide))]
    simp only [bind, Except.bind, skipSpace_solid 0x2c _ (by decide : isJsonSpace 0x2c = false),
      skipped]
    rw [if_neg (by decide), if_pos trivial, ih w (fun u member => accepted u (List.mem_cons_of_mem _ member))
      (fun u member => each u (List.mem_cons_of_mem _ member)) fuel (by omega)]
    rfl

/-- A member up to its colon. -/
private theorem scanFields_key (styled : style.Lawful) (k input : Str) (fuel : Nat)
    (c : CodePoint) (t : Str) (opens : input = c :: t) (solid : isJsonSpace c = false) :
    scanFields floats (fuel + 1) (quote style.ensureAscii k ++ (style.keySeparator ++ input)) =
      (do
        let value ← scanOnce floats fuel input
        match skipSpace value.2 with
        | [] => .error .decode
        | d :: after =>
          if d = 0x7d then .ok ([(rereadStr style.ensureAscii k, value.1)], after)
          else if d = 0x2c then
            (scanFields floats fuel (skipSpace after)).map fun scanned =>
              ((rereadStr style.ensureAscii k, value.1) :: scanned.1, scanned.2)
          else .error .decode) := by
  rcases styled.key with ⟨gap, separator, blank⟩
  subst opens
  have skipped : skipSpace (gap ++ c :: t) = c :: t := by
    rw [skipSpace_gap _ _ blank, skipSpace_solid c t solid]
  rw [scanFields, quote, separator]
  simp only [List.cons_append, List.append_assoc, List.nil_append, expect, if_true, bind,
    Except.bind, scanString_body style.ensureAscii k,
    skipSpace_solid 0x3a _ (by decide : isJsonSpace 0x3a = false), skipped]
  all_goals rfl

private theorem scanFields_text (lawful : floats.Lawful) (styled : style.Lawful)
    (field : Str × Json) (fields : List (Str × Json))
    (accepted : ∀ f ∈ field :: fields, f.2.encodable = true)
    (each : ∀ f ∈ field :: fields, Scans floats style f.2) (fuel : Nat) (rest : Str)
    (enough : 2 * (fieldsText floats style (field :: fields)).length + 1 ≤ fuel) :
    scanFields floats fuel (fieldsText floats style (field :: fields) ++ 0x7d :: rest) =
      .ok (rereadFields style.ensureAscii (field :: fields), rest) := by
  induction fields generalizing field fuel with
  | nil =>
    obtain ⟨k, v⟩ := field
    have scans : Scans floats style v := each (k, v) (by simp)
    rcases text_head floats style lawful v (accepted (k, v) (by simp)) with ⟨c, t, opens, solid, -⟩
    simp only [fieldsText, fieldsTail, List.append_nil, List.length_append] at enough ⊢
    obtain ⟨fuel, rfl⟩ : ∃ n, fuel = n + 1 := ⟨fuel - 1, by omega⟩
    rw [List.append_assoc, List.append_assoc,
      scanFields_key floats style styled k _ fuel c (t ++ 0x7d :: rest)
        (by rw [opens, List.cons_append]) solid,
      scans fuel _ (by omega) (stops_cons 0x7d rest (by decide))]
    simp [bind, Except.bind, skipSpace_solid 0x7d rest (by decide), rereadFields]
  | cons next fields ih =>
    obtain ⟨k, v⟩ := field
    have scans : Scans floats style v := each (k, v) (by simp)
    rcases styled.item with ⟨gap, separator, blank⟩
    have tail : fieldsTail floats style (next :: fields) =
        0x2c :: (gap ++ fieldsText floats style (next :: fields)) := by
      rw [fieldsTail, separator, fieldsText, List.cons_append]
    rw [fieldsText, tail] at enough ⊢
    simp only [List.length_append, List.length_cons] at enough
    obtain ⟨fuel, rfl⟩ : ∃ n, fuel = n + 1 := ⟨fuel - 1, by omega⟩
    rcases text_head floats style lawful v (accepted (k, v) (by simp)) with ⟨c, t, opens, solid, -⟩
    have skipped : skipSpace (gap ++ (fieldsText floats style (next :: fields) ++ 0x7d :: rest)) =
        fieldsText floats style (next :: fields) ++ 0x7d :: rest := by
      rw [skipSpace_gap _ _ blank, fieldsText, quote, List.cons_append, List.cons_append]
      exact skipSpace_solid 0x22 _ (by decide)
    rw [List.append_assoc, List.append_assoc, List.append_assoc, List.cons_append,
      List.append_assoc,
      scanFields_key floats style styled k _ fuel c
        (t ++ 0x2c :: (gap ++ (fieldsText floats style (next :: fields) ++ 0x7d :: rest)))
        (by rw [opens, List.cons_append]) solid,
      scans fuel _ (by omega) (stops_cons 0x2c _ (by decide))]
    simp only [bind, Except.bind, skipSpace_solid 0x2c _ (by decide : isJsonSpace 0x2c = false),
      skipped]
    rw [if_neg (by decide), if_pos trivial,
      ih next (fun f member => accepted f (List.mem_cons_of_mem _ member))
        (fun f member => each f (List.mem_cons_of_mem _ member)) fuel (by omega)]
    rfl

theorem scanOnce_text (lawful : floats.Lawful) (styled : style.Lawful) (v : Json)
    (accepted : v.encodable = true) : Scans floats style v := by
  induction v using Json.inductionOn with
  | null =>
    intro fuel rest enough _
    exact scans_constant floats _ _ rest fuel (by simp [constants, text, reread]) enough
  | bool b =>
    intro fuel rest enough _
    cases b <;> exact scans_constant floats _ _ rest fuel (by simp [constants, text, reread]) enough
  | int n =>
    intro fuel rest enough stops
    rcases scanNumber_intText n with ⟨token, scanned, integer, negative, tail⟩
    refine scanOnce_number floats _ rest token _ fuel scanned ?_ enough stops
    have limit : (decimal n.natAbs).length ≤ 4300 := by simpa [encodable, withinDigitLimit] using accepted
    rw [numberValue, if_neg (by simp [tail]), integer, if_pos limit, negative, decimalValue_decimal]
    congr 2
    by_cases negative : n < 0
    · simp only [negative, decide_true, if_true]
      omega
    · simp only [negative, decide_false, Bool.false_eq_true, if_false]
      omega
  | float x =>
    intro fuel rest enough stops
    rcases lawful.number x accepted with ⟨token, scanned, spelled, tail⟩
    refine scanOnce_number floats _ rest token _ fuel scanned ?_ enough stops
    rw [numberValue, if_pos tail, spelled, lawful.read_repr x accepted]
    rfl
  | str s =>
    intro fuel rest enough _
    have body := scanString_body style.ensureAscii s rest
    simp only [text, quote, List.length_cons] at enough ⊢
    obtain ⟨fuel, rfl⟩ : ∃ n, fuel = n + 1 := ⟨fuel - 1, by omega⟩
    rw [List.cons_append, List.append_assoc, scanOnce]
    simp [body, Except.map, reread]
  | arr items ih =>
    intro fuel rest enough _
    have each := fun w member => ih w member ((encodableItems_iff items).mp accepted w member)
    simp only [text, List.length_cons, List.length_append, List.length_nil] at enough ⊢
    obtain ⟨fuel, rfl⟩ : ∃ n, fuel = n + 1 := ⟨fuel - 1, by omega⟩
    rw [List.cons_append, List.append_assoc, List.singleton_append, scanOnce]
    rw [if_neg (by decide), if_neg (by decide), if_pos rfl]
    cases items with
    | nil => simp [itemsText, skipSpace_solid 0x5d rest (by decide), reread, rereadItems]
    | cons w items =>
      have itemsAccepted := (encodableItems_iff _).mp accepted
      rcases text_head floats style lawful w (itemsAccepted w (by simp)) with
        ⟨c, t, opens, solid, notClose, -⟩
      have scanned := scanItems_text floats style lawful styled w items itemsAccepted each fuel rest
        (by omega)
      rw [itemsText, opens, List.cons_append, List.cons_append] at scanned ⊢
      rw [skipSpace_solid c _ solid]
      simp only [if_neg notClose, scanned]
      rfl
  | obj fields ih =>
    intro fuel rest enough _
    have fieldsAccepted := (encodableFields_iff fields).mp accepted
    have each := fun f member => ih f member (fieldsAccepted f member)
    simp only [text, List.length_cons, List.length_append, List.length_nil] at enough ⊢
    obtain ⟨fuel, rfl⟩ : ∃ n, fuel = n + 1 := ⟨fuel - 1, by omega⟩
    rw [List.cons_append, List.append_assoc, List.singleton_append, scanOnce]
    rw [if_neg (by decide), if_pos rfl]
    cases fields with
    | nil => simp [fieldsText, skipSpace_solid 0x7d rest (by decide), reread, rereadFields]
    | cons field fields =>
      have scanned := scanFields_text floats style lawful styled field fields fieldsAccepted
        each fuel rest (by omega)
      rw [fieldsText, quote, List.cons_append, List.cons_append] at scanned ⊢
      rw [skipSpace_solid 0x22 _ (by decide)]
      simp only [scanned]
      rfl

/-- What `text` wrote, `scan` reads, blanks after it passed over. Its strings are read as their
escapes spell them. -/
theorem scan_text_reread (lawful : floats.Lawful) (styled : style.Lawful) (v : Json)
    (accepted : v.encodable = true) (gap : Str) (blank : ∀ d ∈ gap, isJsonSpace d = true) :
    scan floats (text floats style v ++ gap) = .ok (v.reread style.ensureAscii) := by
  rcases text_head floats style lawful v accepted with ⟨c, t, opens, solid, -⟩
  have skipped : skipSpace (text floats style v ++ gap) = text floats style v ++ gap := by
    rw [opens, List.cons_append, skipSpace_solid c _ solid]
  have stops : Stops gap := by
    intro d head
    have space := blank d (List.mem_of_mem_head? head)
    simp only [isJsonSpace, Bool.or_eq_true, decide_eq_true_eq] at space
    rcases space with ((rfl | rfl) | rfl) | rfl <;> decide
  have scanned := scanOnce_text floats style lawful styled v accepted
    (2 * (text floats style v ++ gap).length + 2) gap
    (by rw [List.length_append]; omega) stops
  have rest : skipSpace gap = [] := List.dropWhile_eq_nil_iff.mpr blank
  rw [scan, skipped, scanned]
  simp only [bind, Except.bind, rest]

theorem scan_text_gap (lawful : floats.Lawful) (styled : style.Lawful) (v : Json)
    (accepted : v.encodable = true) (written : Readable style.ensureAscii v) (gap : Str)
    (blank : ∀ d ∈ gap, isJsonSpace d = true) : scan floats (text floats style v ++ gap) = .ok v := by
  rw [scan_text_reread floats style lawful styled v accepted gap blank,
    reread_of_readable _ v written]

theorem scan_text (lawful : floats.Lawful) (styled : style.Lawful) (v : Json)
    (accepted : v.encodable = true) (written : Readable style.ensureAscii v) :
    scan floats (text floats style v) = .ok v := by
  simpa using scan_text_gap floats style lawful styled v accepted written [] (by simp)

/-- Two values with one text are one value. -/
theorem text_inj (lawful : floats.Lawful) (styled : style.Lawful) (v w : Json)
    (vAccepted : v.encodable = true) (wAccepted : w.encodable = true)
    (vWritten : Readable style.ensureAscii v) (wWritten : Readable style.ensureAscii w)
    (same : text floats style v = text floats style w) : v = w := by
  have read := scan_text floats style lawful styled v vAccepted vWritten
  rw [same, scan_text floats style lawful styled w wAccepted wWritten] at read
  exact (Except.ok.inj read).symm

end RoundTrip

end Json
end DecAustrum.Python
