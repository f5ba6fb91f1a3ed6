import DecAustrum.Python.JsonKeys
import Mathlib.Data.List.TakeWhile

/-!
# Strings inside a text

A character the writer does not escape stands in the text of every value that holds it,
and everything else in the text is ASCII.
-/
namespace DecAustrum.Python.Json

variable (floats : FloatText) (style : Style)

/-! ## From the value to the text -/

private theorem mem_quote (s : Str) (c : CodePoint) (member : c ∈ s)
    (raw : escapeChar style.ensureAscii c = [c]) : c ∈ quote style.ensureAscii s := by
  simp only [quote, List.mem_cons, List.mem_append, List.mem_flatMap]
  exact .inr (.inl ⟨c, member, by simp [raw]⟩)

private theorem mem_itemsTail (items : List Json) (v : Json) (member : v ∈ items) (c : CodePoint)
    (inside : c ∈ text floats style v) : c ∈ itemsTail floats style items := by
  induction items with
  | nil => simp at member
  | cons w items ih =>
    simp only [itemsTail, List.mem_append]
    rcases List.mem_cons.mp member with rfl | later
    · exact .inr (.inl inside)
    · exact .inr (.inr (ih later))

private theorem mem_itemsText (items : List Json) (v : Json) (member : v ∈ items) (c : CodePoint)
    (inside : c ∈ text floats style v) : c ∈ itemsText floats style items := by
  cases items with
  | nil => simp at member
  | cons w items =>
    simp only [itemsText, List.mem_append]
    rcases List.mem_cons.mp member with rfl | later
    · exact .inl inside
    · exact .inr (mem_itemsTail floats style items v later c inside)

private theorem mem_fieldsTail (fields : List (Str × Json)) (field : Str × Json)
    (member : field ∈ fields) (c : CodePoint)
    (inside : c ∈ quote style.ensureAscii field.1 ∨ c ∈ text floats style field.2) :
    c ∈ fieldsTail floats style fields := by
  induction fields with
  | nil => simp at member
  | cons other fields ih =>
    simp only [fieldsTail, List.mem_append]
    rcases List.mem_cons.mp member with rfl | later
    · rcases inside with key | value
      · exact .inr (.inl key)
      · exact .inr (.inr (.inr (.inl value)))
    · exact .inr (.inr (.inr (.inr (ih later))))

private theorem mem_fieldsText (fields : List (Str × Json)) (field : Str × Json)
    (member : field ∈ fields) (c : CodePoint)
    (inside : c ∈ quote style.ensureAscii field.1 ∨ c ∈ text floats style field.2) :
    c ∈ fieldsText floats style fields := by
  cases fields with
  | nil => simp at member
  | cons other fields =>
    simp only [fieldsText, List.mem_append]
    rcases List.mem_cons.mp member with rfl | later
    · rcases inside with key | value
      · exact .inl key
      · exact .inr (.inr (.inl value))
    · exact .inr (.inr (.inr (mem_fieldsTail floats style fields field later c inside)))

/-- An unescaped character of a string is a character of the text. -/
theorem mem_text_of_raw (v : Json) (s : Str) (string : s ∈ v.strings) (c : CodePoint)
    (member : c ∈ s) (raw : escapeChar style.ensureAscii c = [c]) : c ∈ text floats style v := by
  induction v using Json.inductionOn with
  | str t =>
    rw [strings, List.mem_singleton] at string
    subst string
    exact mem_quote style s c member raw
  | arr items ih =>
    rw [strings, mem_stringsItems] at string
    obtain ⟨v, present, inside⟩ := string
    rw [text, List.mem_cons, List.mem_append]
    exact .inr (.inl (mem_itemsText floats style items v present c (ih v present inside)))
  | obj fields ih =>
    rw [strings, mem_stringsFields] at string
    obtain ⟨field, present, inside⟩ := string
    rw [text, List.mem_cons, List.mem_append]
    refine .inr (.inl (mem_fieldsText floats style fields field present c ?_))
    rcases inside with rfl | value
    · exact .inl (mem_quote style _ c member raw)
    · exact .inr (ih field present value)
  | _ => simp [strings] at string

/-- Only text free of surrogates has a UTF-8 form. -/
theorem scalar_of_encodes (v : Json) (bytes : Bytes)
    (encoded : encodeUtf8 (text floats .canonical v) = some bytes) :
    ∀ s ∈ v.strings, ∀ c ∈ s, isSurrogate c = false := by
  intro s string c member
  by_contra surrogate
  rw [Bool.not_eq_false] at surrogate
  have raw : escapeChar false c = [c] := by
    have low : 0xd800 ≤ c.val := by
      have bounds := surrogate
      simp only [isSurrogate, Bool.and_eq_true, decide_eq_true_eq, Fin.le_def] at bounds
      exact bounds.1
    have other (d : CodePoint) (small : d.val < 0xd800) : c ≠ d := by
      rintro rfl
      omega
    simp only [escapeChar, other 0x22 (by decide), other 0x5c (by decide), other 0x0a (by decide),
      other 0x0d (by decide), other 0x09 (by decide), other 0x0c (by decide), other 0x08 (by decide),
      if_false, Bool.false_and, Bool.false_eq_true]
    rw [if_neg (by omega)]
  have inside := mem_text_of_raw floats .canonical v s string c member raw
  unfold encodeUtf8 at encoded
  rw [if_pos (List.any_eq_true.mpr ⟨c, inside, surrogate⟩)] at encoded
  cases encoded

/-! ## From the text to the value -/

private theorem isPlain_number (c : CodePoint) (number : isNumberChar c = true) :
    isPlain c = true := by
  simp only [isNumberChar, Bool.or_eq_true, decide_eq_true_eq] at number
  rcases number with ((((digit | rfl) | rfl) | rfl) | rfl) | rfl
  · exact isPlain_of_isDigit c digit
  all_goals decide

private theorem spanDigits_number (s : Str) : ∀ c ∈ (spanDigits s).1, isNumberChar c = true := by
  intro c member
  rw [spanDigits, List.span_eq_takeWhile_dropWhile] at member
  simp [isNumberChar, List.mem_takeWhile_imp member]

private theorem scanInteger_number (s i t : Str) (scanned : scanInteger s = some (i, t)) :
    ∀ c ∈ i, isNumberChar c = true := by
  cases s with
  | nil => cases scanned
  | cons d s =>
    rw [scanInteger] at scanned
    split at scanned
    · next zero =>
      cases scanned
      intro c member
      obtain rfl := List.mem_singleton.mp member
      rw [zero]
      decide
    split at scanned
    · next digit =>
      cases scanned
      intro c member
      rcases List.mem_cons.mp member with rfl | inside
      · simp [isNumberChar, digit]
      · exact spanDigits_number _ c inside
    · cases scanned

private theorem scanFraction_number (s : Str) : ∀ c ∈ (scanFraction s).1, isNumberChar c = true := by
  match s with
  | [] => simp [scanFraction]
  | [c] => simp [scanFraction]
  | d :: e :: s =>
    rw [scanFraction]
    split
    · next point =>
      simp only [Bool.and_eq_true, decide_eq_true_eq] at point
      intro c member
      simp only [List.mem_cons] at member
      rcases member with rfl | rfl | inside
      · simp [isNumberChar, point.1]
      · simp [isNumberChar, point.2]
      · exact spanDigits_number _ c inside
    · simp

private theorem scanExponent_number (s : Str) : ∀ c ∈ (scanExponent s).1, isNumberChar c = true := by
  match s with
  | [] => simp [scanExponent]
  | [c] => simp [scanExponent]
  | d :: e :: s =>
    simp only [scanExponent]
    split
    · next exponent =>
      simp only [Bool.and_eq_true, Bool.or_eq_true, decide_eq_true_eq] at exponent
      intro c member
      simp only [List.mem_cons] at member
      rcases member with rfl | rfl | inside
      · rcases exponent.1 with rfl | rfl <;> decide
      · simp [isNumberChar, exponent.2]
      · exact spanDigits_number _ c inside
    split
    · next signed =>
      simp only [Bool.and_eq_true, Bool.or_eq_true, decide_eq_true_eq] at signed
      split
      · split
        · next digit =>
          intro c member
          simp only [List.mem_cons] at member
          rcases member with rfl | rfl | rfl | inside
          · rcases signed.1 with rfl | rfl <;> decide
          · rcases signed.2 with rfl | rfl <;> decide
          · simp [isNumberChar, digit]
          · exact spanDigits_number _ c inside
        · simp
      · simp
    · simp

private theorem isPlain_pair (a b c : CodePoint) (plain : isPlain a = true ∧ isPlain b = true)
    (member : c ∈ [a, b]) : isPlain c = true := by
  simp only [List.mem_cons, List.not_mem_nil, or_false] at member
  rcases member with rfl | rfl
  · exact plain.1
  · exact plain.2

private theorem scanNumber_number (s : Str) (token : NumberToken)
    (scanned : scanNumber s = some (token, [])) : ∀ c ∈ token.text, isNumberChar c = true := by
  have unsigned (negative : Bool) (s : Str) (scanned : scanUnsigned negative s = some (token, [])) :
      ∀ c ∈ token.text, isNumberChar c = true := by
    simp only [scanUnsigned, Option.map_eq_some_iff, Prod.mk.injEq] at scanned
    obtain ⟨integer, found, rfl, -⟩ := scanned
    simp only [NumberToken.text, List.mem_append]
    rintro c (sign | whole | fraction | exponent)
    · split at sign
      · obtain rfl := List.mem_singleton.mp sign
        decide
      · cases sign
    · exact scanInteger_number s integer.1 integer.2 found c whole
    · exact scanFraction_number _ c fraction
    · exact scanExponent_number _ c exponent
  cases s with
  | nil => cases scanned
  | cons d s =>
    rw [scanNumber] at scanned
    split at scanned
    · exact unsigned true s scanned
    · exact unsigned false _ scanned

private theorem isPlain_repr (lawful : floats.Lawful) (x : PyFloat) (finite : x.isFinite = true) :
    ∀ c ∈ floats.repr x, isPlain c = true := by
  obtain ⟨token, scanned, spelled, -⟩ := lawful.number x finite
  intro c member
  rw [← spelled] at member
  exact isPlain_number c (scanNumber_number _ token scanned c member)

private theorem isPlain_intText (n : Int) : ∀ c ∈ intText n, isPlain c = true := by
  have digits : ∀ c ∈ decimal n.natAbs, isPlain c = true :=
    fun c member => isPlain_of_isDigit c (isDigit_decimal _ c member)
  rw [intText]
  split
  · intro c member
    rcases List.mem_cons.mp member with rfl | inside
    · decide
    · exact digits c inside
  · exact digits

/-- The separators are ASCII. -/
structure PlainSeparators (style : Style) : Prop where
  item : ∀ c ∈ style.itemSeparator, isPlain c = true
  key : ∀ c ∈ style.keySeparator, isPlain c = true

theorem canonical_separators : PlainSeparators .canonical :=
  ⟨List.all_eq_true.mp (by decide), List.all_eq_true.mp (by decide)⟩

theorem default_separators : PlainSeparators .default :=
  ⟨List.all_eq_true.mp (by decide), List.all_eq_true.mp (by decide)⟩

/-- A character of an escape is ASCII, or the escaped character itself. -/
private theorem mem_escapeChar (ascii : Bool) (c d : CodePoint) (member : c ∈ escapeChar ascii d) :
    isPlain c = true ∨ c = d ∧ escapeChar ascii c = [c] := by
  by_cases raw : escapeChar ascii d = [d]
  · rw [raw, List.mem_singleton] at member
    subst member
    exact .inr ⟨rfl, raw⟩
  · left
    have unicode (n : Nat) (inside : c ∈ unicodeEscape n) : isPlain c = true := by
      rw [unicodeEscape, List.mem_cons, List.mem_cons] at inside
      rcases inside with rfl | rfl | digit
      · decide
      · decide
      · exact isPlain_padded 16 4 n (by decide) c digit
    unfold escapeChar at member raw
    iterate 7
      split at member
      · exact isPlain_pair _ _ c (by decide) member
    split at member
    · exact unicode _ member
    split at member
    · split at member
      · exact unicode _ member
      · exact (List.mem_append.mp member).elim (unicode _) (unicode _)
    · simp_all

private theorem mem_quote_from (ascii : Bool) (s : Str) (c : CodePoint)
    (member : c ∈ quote ascii s) : isPlain c = true ∨ escapeChar ascii c = [c] ∧ c ∈ s := by
  simp only [quote, List.mem_cons, List.mem_append, List.mem_flatMap, List.not_mem_nil,
    or_false] at member
  rcases member with rfl | ⟨d, inside, escaped⟩ | rfl
  · exact .inl (by decide)
  · rcases mem_escapeChar ascii c d escaped with plain | ⟨rfl, raw⟩
    · exact .inl plain
    · exact .inr ⟨raw, inside⟩
  · exact .inl (by decide)

private theorem mem_itemsText_from (plain : PlainSeparators style) (items : List Json)
    (c : CodePoint) (member : c ∈ itemsText floats style items) :
    isPlain c = true ∨ ∃ v ∈ items, c ∈ text floats style v := by
  have tail : ∀ items : List Json, c ∈ itemsTail floats style items →
      isPlain c = true ∨ ∃ v ∈ items, c ∈ text floats style v := by
    intro items
    induction items with
    | nil => simp [itemsTail]
    | cons v items ih =>
      rw [itemsTail, List.mem_append, List.mem_append]
      rintro (separator | here | later)
      · exact .inl (plain.item c separator)
      · exact .inr ⟨v, by simp, here⟩
      · rcases ih later with plain | ⟨w, inside, found⟩
        · exact .inl plain
        · exact .inr ⟨w, by simp [inside], found⟩
  cases items with
  | nil => simp [itemsText] at member
  | cons v items =>
    rw [itemsText, List.mem_append] at member
    rcases member with here | later
    · exact .inr ⟨v, by simp, here⟩
    · rcases tail items later with plain | ⟨w, inside, found⟩
      · exact .inl plain
      · exact .inr ⟨w, by simp [inside], found⟩

private theorem mem_fieldsText_from (plain : PlainSeparators style) (fields : List (Str × Json))
    (c : CodePoint) (member : c ∈ fieldsText floats style fields) :
    isPlain c = true ∨
      ∃ field ∈ fields, c ∈ quote style.ensureAscii field.1 ∨ c ∈ text floats style field.2 := by
  have tail : ∀ fields : List (Str × Json), c ∈ fieldsTail floats style fields →
      isPlain c = true ∨
        ∃ field ∈ fields, c ∈ quote style.ensureAscii field.1 ∨ c ∈ text floats style field.2 := by
    intro fields
    induction fields with
    | nil => simp [fieldsTail]
    | cons field fields ih =>
      rw [fieldsTail, List.mem_append, List.mem_append, List.mem_append, List.mem_append]
      rintro (separator | key | colon | value | later)
      · exact .inl (plain.item c separator)
      · exact .inr ⟨field, by simp, .inl key⟩
      · exact .inl (plain.key c colon)
      · exact .inr ⟨field, by simp, .inr value⟩
      · rcases ih later with plain | ⟨other, inside, found⟩
        · exact .inl plain
        · exact .inr ⟨other, by simp [inside], found⟩
  cases fields with
  | nil => simp [fieldsText] at member
  | cons field fields =>
    rw [fieldsText, List.mem_append, List.mem_append, List.mem_append] at member
    rcases member with key | colon | value | later
    · exact .inr ⟨field, by simp, .inl key⟩
    · exact .inl (plain.key c colon)
    · exact .inr ⟨field, by simp, .inr value⟩
    · rcases tail fields later with plain | ⟨other, inside, found⟩
      · exact .inl plain
      · exact .inr ⟨other, by simp [inside], found⟩

/-- A character of a text is ASCII, or an unescaped character of a string. -/
theorem mem_text_from (lawful : floats.Lawful) (separators : PlainSeparators style) (v : Json)
    (accepted : v.encodable = true) (c : CodePoint) (member : c ∈ text floats style v) :
    isPlain c = true ∨ escapeChar style.ensureAscii c = [c] ∧ ∃ s ∈ v.strings, c ∈ s := by
  have constant (word : String) (plain : (ofString word).all isPlain = true)
      (inside : c ∈ ofString word) : isPlain c = true := List.all_eq_true.mp plain c inside
  induction v using Json.inductionOn with
  | null => exact .inl (constant "null" (by decide) (by simpa [text] using member))
  | bool b =>
    cases b
    · exact .inl (constant "false" (by decide) (by simpa [text] using member))
    · exact .inl (constant "true" (by decide) (by simpa [text] using member))
  | int n => exact .inl (isPlain_intText n c (by simpa [text] using member))
  | float x =>
    exact .inl (isPlain_repr floats lawful x (by simpa [encodable] using accepted) c
      (by simpa [text] using member))
  | str s =>
    rcases mem_quote_from style.ensureAscii s c (by simpa [text] using member) with
      plain | ⟨raw, inside⟩
    · exact .inl plain
    · exact .inr ⟨raw, s, by simp [strings], inside⟩
  | arr items ih =>
    rw [text, List.mem_cons, List.mem_append, List.mem_singleton] at member
    rcases member with rfl | inside | rfl
    · exact .inl (by decide)
    · rcases mem_itemsText_from floats style separators items c inside with
        plain | ⟨v, present, found⟩
      · exact .inl plain
      · rcases ih v present ((encodableItems_iff items).mp accepted v present) found with
          plain | ⟨raw, s, string, held⟩
        · exact .inl plain
        · exact .inr ⟨raw, s, by rw [strings, mem_stringsItems]; exact ⟨v, present, string⟩, held⟩
    · exact .inl (by decide)
  | obj fields ih =>
    rw [text, List.mem_cons, List.mem_append, List.mem_singleton] at member
    rcases member with rfl | inside | rfl
    · exact .inl (by decide)
    · rcases mem_fieldsText_from floats style separators fields c inside with
        plain | ⟨field, present, key | value⟩
      · exact .inl plain
      · rcases mem_quote_from style.ensureAscii field.1 c key with plain | ⟨raw, held⟩
        · exact .inl plain
        · exact .inr ⟨raw, field.1,
            by rw [strings, mem_stringsFields]; exact ⟨field, present, .inl rfl⟩, held⟩
      · rcases ih field present ((encodableFields_iff fields).mp accepted field present) value with
          plain | ⟨raw, s, string, held⟩
        · exact .inl plain
        · exact .inr ⟨raw, s,
            by rw [strings, mem_stringsFields]; exact ⟨field, present, .inr string⟩, held⟩
    · exact .inl (by decide)

/-- A character of the canonical text is ASCII, or an unescaped character of a string. -/
theorem mem_text (lawful : floats.Lawful) (v : Json) (accepted : v.encodable = true)
    (c : CodePoint) (member : c ∈ text floats .canonical v) :
    isPlain c = true ∨ escapeChar false c = [c] ∧ ∃ s ∈ v.strings, c ∈ s :=
  mem_text_from floats .canonical lawful canonical_separators v accepted c member

/-- A text with `ensure_ascii` is ASCII. -/
theorem isPlain_text (lawful : floats.Lawful) (v : Json) (accepted : v.encodable = true) :
    ∀ c ∈ text floats .default v, isPlain c = true := by
  intro c member
  rcases mem_text_from floats .default lawful default_separators v accepted c member with
    plain | ⟨raw, -⟩
  · exact plain
  · -- control characters and everything beyond ASCII are escaped
    change escapeChar true c = [c] at raw
    unfold escapeChar at raw
    iterate 7
      split at raw
      · simp at raw
    split at raw
    · simp [unicodeEscape] at raw
    next printable =>
    split at raw
    · split at raw <;> simp [unicodeEscape] at raw
    next ascii =>
    simp only [Bool.true_and, decide_eq_true_eq] at ascii
    simp only [isPlain, Bool.and_eq_true, decide_eq_true_eq]
    omega

/-- Text free of surrogates has a UTF-8 form. -/
theorem encodes_of_scalar (lawful : floats.Lawful) (v : Json) (accepted : v.encodable = true)
    (scalar : ∀ s ∈ v.strings, ∀ c ∈ s, isSurrogate c = false) :
    ∃ bytes, encodeUtf8 (text floats .canonical v) = some bytes := by
  refine ⟨_, if_neg ?_⟩
  rw [Bool.not_eq_true, List.any_eq_false]
  intro c member
  rw [Bool.not_eq_true]
  rcases mem_text floats lawful v accepted c member with plain | ⟨-, s, string, held⟩
  · simp only [isPlain, Bool.and_eq_true, decide_eq_true_eq] at plain
    simp only [isSurrogate, Bool.and_eq_false_iff, decide_eq_false_iff_not, Fin.le_def]
    left
    change ¬ 0xd800 ≤ c.val
    omega
  · exact scalar s string c held

end DecAustrum.Python.Json
