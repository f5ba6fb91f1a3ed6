import Mathlib.Data.List.Lex
import Mathlib.Data.Fin.Basic

/-!
# Text and its UTF-8 form

A string is a list of code points. Surrogates are code points like any other, as in
CPython: they can be read from a `\uXXXX` escape, compared and printed, and only the
UTF-8 encoder refuses them. Strings are ordered by code point.
-/
namespace DecAustrum.Python

abbrev CodePoint := Fin 0x110000

/-! Named instances, so that a numeral and a test are the same term in every module. -/

instance (priority := 2000) codePoint_neZero : @NeZero ℕ Zero.ofOfNat0 0x110000 := ⟨by decide⟩

abbrev Str := List CodePoint

instance (priority := 2000) codePoint_lawfulBEq : @LawfulBEq CodePoint instBEqOfDecidableEq :=
  inferInstance

instance (priority := 2000) str_lawfulBEq : @LawfulBEq (List CodePoint) List.instBEq := inferInstance

abbrev Bytes := List UInt8

/-- The code points of a source literal. -/
def ofString (s : String) : Str := s.toList.map fun c => Fin.ofNat 0x110000 c.toNat

instance : Coe String Str := ⟨ofString⟩

/-! ## Lines -/

/-- The characters `str.splitlines` ends a line at. -/
def isLineBoundary (c : CodePoint) : Bool :=
  (0x0a ≤ c && c ≤ 0x0d) || (0x1c ≤ c && c ≤ 0x1e) || c = 0x85 || c = 0x2028 || c = 0x2029

/-- The characters `str.isspace` accepts. -/
def isSpace (c : CodePoint) : Bool :=
  (0x09 ≤ c && c ≤ 0x0d) || (0x1c ≤ c && c ≤ 0x20) || c = 0x85 || c = 0xa0 || c = 0x1680 ||
  (0x2000 ≤ c && c ≤ 0x200a) || c = 0x2028 || c = 0x2029 || c = 0x202f || c = 0x205f || c = 0x3000

/-- `afterReturn` holds right after a carriage return: a line feed then belongs to
the boundary already taken. -/
def splitlinesFrom (line : Str) (afterReturn : Bool) : Str → List Str
  | [] => if line = [] then [] else [line]
  | c :: rest =>
    if afterReturn && c = 0x0a then splitlinesFrom [] false rest
    else if isLineBoundary c then line :: splitlinesFrom [] (c = 0x0d) rest
    else splitlinesFrom (line ++ [c]) false rest

/-- `str.splitlines()`. -/
def splitlines (text : Str) : List Str := splitlinesFrom [] false text

/-- `not line.strip()`. -/
def isBlank (line : Str) : Bool := line.all isSpace

/-- A text has no more lines than characters. -/
theorem splitlinesFrom_length (text line : Str) (afterReturn : Bool) :
    (splitlinesFrom line afterReturn text).length ≤ text.length + (if line = [] then 0 else 1) := by
  induction text generalizing line afterReturn with
  | nil =>
    rw [splitlinesFrom]
    split <;> simp
  | cons c rest ih =>
    have fresh (flag : Bool) := ih [] flag
    rw [if_pos rfl] at fresh
    rw [splitlinesFrom, List.length_cons]
    split
    · exact (fresh false).trans (by omega)
    split
    · have later := fresh (decide (c = 0x0d))
      rw [List.length_cons]
      omega
    · have later := ih (line ++ [c]) false
      rw [if_neg (by simp)] at later
      omega

theorem splitlines_length (text : Str) : (splitlines text).length ≤ text.length :=
  splitlinesFrom_length text [] false

theorem splitlinesFrom_clean (line clean rest : Str) (noBoundary : ∀ c ∈ clean, isLineBoundary c = false) :
    splitlinesFrom line false (clean ++ rest) = splitlinesFrom (line ++ clean) false rest := by
  induction clean generalizing line with
  | nil => simp
  | cons c clean ih =>
    have keeps := noBoundary c (by simp)
    rw [List.cons_append, splitlinesFrom]
    simp only [Bool.false_and, Bool.false_eq_true, if_false, keeps]
    rw [ih _ fun d member => noBoundary d (by simp [member])]
    simp

/-- The text before the first boundary is the first line. -/
theorem splitlines_boundary (clean rest : Str) (c : CodePoint)
    (noBoundary : ∀ d ∈ clean, isLineBoundary d = false) (boundary : isLineBoundary c = true) :
    splitlines (clean ++ c :: rest) = clean :: splitlinesFrom [] (c = 0x0d) rest := by
  rw [splitlines, splitlinesFrom_clean [] clean _ noBoundary, splitlinesFrom]
  simp [boundary]

theorem splitlines_newline (clean rest : Str)
    (noBoundary : ∀ d ∈ clean, isLineBoundary d = false) :
    splitlines (clean ++ 0x0a :: rest) = clean :: splitlines rest :=
  splitlines_boundary clean rest 0x0a noBoundary rfl

/-- Newline-terminated lines free of boundaries come back one for one, whatever follows. -/
theorem splitlines_lines (lines : List Str) (rest : Str)
    (noBoundary : ∀ line ∈ lines, ∀ d ∈ line, isLineBoundary d = false) :
    splitlines (lines.flatMap (· ++ [0x0a]) ++ rest) = lines ++ splitlines rest := by
  induction lines with
  | nil => rfl
  | cons line lines ih =>
    have head := noBoundary line (by simp)
    simp only [List.flatMap_cons, List.append_assoc, List.cons_append, List.nil_append]
    rw [splitlines_newline line _ head, ih fun l member => noBoundary l (by simp [member])]

theorem isSpace_of_isLineBoundary (c : CodePoint) (boundary : isLineBoundary c = true) :
    isSpace c = true := by
  simp only [isLineBoundary, isSpace, Bool.or_eq_true, Bool.and_eq_true, decide_eq_true_eq,
    Fin.le_def] at *
  simp only [Fin.ext_iff] at *
  omega

/-- The lines a reader of records keeps. -/
def solidLines (lines : List Str) : List Str := lines.filter fun line => !isBlank line

theorem solidLines_cons (line : Str) (lines : List Str) (c : CodePoint) (member : c ∈ line)
    (solid : isSpace c = false) : (solidLines (line :: lines)).length = (solidLines lines).length + 1 := by
  have notBlank : isBlank line = false := by
    rw [isBlank, List.all_eq_false]
    exact ⟨c, member, by simp [solid]⟩
  simp [solidLines, notBlank]

theorem solidLines_length_le (line : Str) (lines : List Str) :
    (solidLines lines).length ≤ (solidLines (line :: lines)).length :=
  ((List.sublist_cons_self line lines).filter _).length_le

/-- Text that ends in a character other than a blank leaves a line. -/
theorem solidLines_text (text rest : Str) (last : CodePoint) (solid : isSpace last = false) :
    ∀ line afterReturn, (solidLines (splitlines rest)).length + 1 ≤
      (solidLines (splitlinesFrom line afterReturn (text ++ last :: 0x0a :: rest))).length := by
  induction text with
  | nil =>
    intro line afterReturn
    have notFeed : last ≠ 0x0a := by
      rintro rfl
      exact absurd solid (by decide)
    have inner : isLineBoundary last = false := by
      by_contra boundary
      rw [Bool.not_eq_false] at boundary
      rw [isSpace_of_isLineBoundary last boundary] at solid
      cases solid
    rw [List.nil_append, splitlinesFrom, if_neg (by simp [notFeed]), inner, if_neg (by simp),
      splitlinesFrom, if_neg (by simp), if_pos (by decide),
      solidLines_cons _ _ last (by simp) solid]
    exact le_of_eq rfl
  | cons c text ih =>
    intro line afterReturn
    rw [List.cons_append, splitlinesFrom]
    split
    · exact ih [] false
    split
    · exact (ih [] _).trans (solidLines_length_le _ _)
    · exact ih _ false

/-- A boundary inside text leaves one line more. -/
theorem solidLines_boundary (text rest : Str) (last c : CodePoint) (solid : isSpace last = false)
    (member : c ∈ text) (boundary : isLineBoundary c = true) :
    ∀ line d, d ∈ line → isSpace d = false → (solidLines (splitlines rest)).length + 2 ≤
      (solidLines (splitlinesFrom line false (text ++ last :: 0x0a :: rest))).length := by
  induction text with
  | nil => cases member
  | cons e text ih =>
    intro line d inside solidLine
    rw [List.cons_append, splitlinesFrom, if_neg (by simp)]
    split
    · rw [solidLines_cons _ _ d inside solidLine]
      have tail := solidLines_text text rest last solid [] (decide (e = 0x0d))
      omega
    · next inner =>
      have later : c ∈ text := by
        rcases List.mem_cons.mp member with rfl | later
        · exact absurd boundary inner
        · exact later
      exact ih later (line ++ [e]) d (by simp [inside]) solidLine

/-! ## UTF-8 -/

def isSurrogate (c : CodePoint) : Bool := 0xd800 ≤ c && c ≤ 0xdfff

private def continuation (n : Nat) : UInt8 := UInt8.ofNat (0x80 + n % 64)

def encodeCodePoint (c : CodePoint) : Bytes :=
  if c.val < 0x80 then [UInt8.ofNat c.val]
  else if c.val < 0x800 then [UInt8.ofNat (0xc0 + c.val / 64), continuation c.val]
  else if c.val < 0x10000 then
    [UInt8.ofNat (0xe0 + c.val / 4096), continuation (c.val / 64), continuation c.val]
  else
    [UInt8.ofNat (0xf0 + c.val / 262144), continuation (c.val / 4096),
      continuation (c.val / 64), continuation c.val]

/-- `s.encode("utf-8")`; `none` is the `UnicodeEncodeError` a surrogate raises. -/
def encodeUtf8 (s : Str) : Option Bytes :=
  if s.any isSurrogate then none else some (s.flatMap encodeCodePoint)

theorem encodeUtf8_append (a b : Str) (x y : Bytes) (first : encodeUtf8 a = some x)
    (second : encodeUtf8 b = some y) : encodeUtf8 (a ++ b) = some (x ++ y) := by
  unfold encodeUtf8 at *
  split at first
  · cases first
  split at second
  · cases second
  next aScalar bScalar =>
  cases first
  cases second
  rw [if_neg (by simp_all), List.flatMap_append]

private def isContinuation (b : UInt8) : Bool := 0x80 ≤ b.toNat && b.toNat ≤ 0xbf

private def codePoint (n : Nat) : CodePoint := Fin.ofNat 0x110000 n

/-- `b.decode("utf-8")` in strict mode: over-long forms, surrogates and values past
U+10FFFF are refused. -/
def decodeUtf8 : Bytes → Option Str
  | [] => some []
  | a :: rest =>
    if a.toNat < 0x80 then (decodeUtf8 rest).map (codePoint a.toNat :: ·)
    else match rest with
    | [] => none
    | b :: rest =>
      if !isContinuation b then none
      else if 0xc2 ≤ a.toNat && a.toNat < 0xe0 then
        (decodeUtf8 rest).map (codePoint ((a.toNat - 0xc0) * 64 + (b.toNat - 0x80)) :: ·)
      else match rest with
      | [] => none
      | c :: rest =>
        if !isContinuation c then none
        else if 0xe0 ≤ a.toNat && a.toNat < 0xf0 then
          let n := (a.toNat - 0xe0) * 4096 + (b.toNat - 0x80) * 64 + (c.toNat - 0x80)
          if n < 0x800 || (0xd800 ≤ n && n ≤ 0xdfff) then none
          else (decodeUtf8 rest).map (codePoint n :: ·)
        else match rest with
        | [] => none
        | d :: rest =>
          let n := (a.toNat - 0xf0) * 262144 + (b.toNat - 0x80) * 4096 + (c.toNat - 0x80) * 64 +
            (d.toNat - 0x80)
          if !isContinuation d || a.toNat < 0xf0 || 0xf8 ≤ a.toNat || n < 0x10000 || 0x10ffff < n
          then none
          else (decodeUtf8 rest).map (codePoint n :: ·)

/-- Every character takes at least one byte. -/
theorem decodeUtf8_length (content : Bytes) :
    ∀ text, decodeUtf8 content = some text → text.length ≤ content.length := by
  have grown (c : CodePoint) (rest : Bytes) (text : Str)
      (ih : ∀ later, decodeUtf8 rest = some later → later.length ≤ rest.length)
      (decoded : (decodeUtf8 rest).map (c :: ·) = some text) : text.length ≤ rest.length + 1 := by
    obtain ⟨later, read, rfl⟩ := Option.map_eq_some_iff.mp decoded
    exact Nat.succ_le_succ (ih later read)
  fun_induction decodeUtf8 content with
  | case1 =>
    rintro _ ⟨⟩
    exact Nat.le_refl 0
  | case2 _ _ _ ih => exact fun text decoded => grown _ _ text ih decoded
  | case5 _ _ _ _ _ _ ih =>
    exact fun text decoded => (grown _ _ text ih decoded).trans (by simp)
  | case9 _ _ _ _ _ _ _ _ _ _ _ ih =>
    exact fun text decoded => (grown _ _ text ih decoded).trans (by simp)
  | case12 _ _ _ _ _ _ _ _ _ _ _ _ ih =>
    exact fun text decoded => (grown _ _ text ih decoded).trans (by simp)
  | _ => rintro _ ⟨⟩

private theorem toNat_ofNat (n : Nat) (below : n < 256) : (UInt8.ofNat n).toNat = n := by
  simp [UInt8.toNat_ofNat', Nat.mod_eq_of_lt below]

private theorem continuation_toNat (n : Nat) : (continuation n).toNat = 0x80 + n % 64 :=
  toNat_ofNat _ (by omega)

private theorem isContinuation_continuation (n : Nat) : isContinuation (continuation n) = true := by
  simp only [isContinuation, continuation_toNat, Bool.and_eq_true, decide_eq_true_eq]
  omega

private theorem codePoint_val (c : CodePoint) (n : Nat) (same : n = c.val) : codePoint n = c := by
  subst same
  exact Fin.ext (Nat.mod_eq_of_lt c.isLt)

theorem decodeUtf8_encodeCodePoint (c : CodePoint) (rest : Bytes) (scalar : isSurrogate c = false) :
    decodeUtf8 (encodeCodePoint c ++ rest) = (decodeUtf8 rest).map (c :: ·) := by
  have below := c.isLt
  have outside : ¬ (0xd800 ≤ c.val ∧ c.val ≤ 0xdfff) := by
    simpa [isSurrogate, Fin.le_def] using scalar
  unfold encodeCodePoint
  split
  · next ascii =>
    have value := toNat_ofNat c.val (by omega)
    rw [List.singleton_append, decodeUtf8.eq_def]
    simp only [value, ascii, if_true, codePoint_val c c.val rfl]
  split
  · next wide two =>
    have value := toNat_ofNat (0xc0 + c.val / 64) (by omega)
    rw [List.cons_append, List.singleton_append, decodeUtf8.eq_def]
    simp only [value, continuation_toNat, isContinuation_continuation]
    rw [if_neg (by omega), if_neg (by simp), if_pos (by simp; omega),
      codePoint_val c _ (by omega)]
  split
  · next wide two three =>
    have value := toNat_ofNat (0xe0 + c.val / 4096) (by omega)
    rw [List.cons_append, List.cons_append, List.singleton_append, decodeUtf8.eq_def]
    simp only [value, continuation_toNat, isContinuation_continuation]
    rw [if_neg (by omega), if_neg (by simp), if_neg (by simp), if_neg (by simp),
      if_pos (by simp; omega), if_neg (by simp; omega), codePoint_val c _ (by omega)]
  · next wide two three =>
    have value := toNat_ofNat (0xf0 + c.val / 262144) (by omega)
    rw [List.cons_append, List.cons_append, List.cons_append, List.singleton_append,
      decodeUtf8.eq_def]
    simp only [value, continuation_toNat, isContinuation_continuation]
    rw [if_neg (by omega), if_neg (by simp), if_neg (by simp; omega), if_neg (by simp),
      if_neg (by simp), if_neg (by simp; omega), codePoint_val c _ (by omega)]

/-- Decoding undoes encoding. -/
theorem decodeUtf8_encodeUtf8 (text : Str) (bytes : Bytes) (encoded : encodeUtf8 text = some bytes) :
    decodeUtf8 bytes = some text := by
  unfold encodeUtf8 at encoded
  split at encoded
  · cases encoded
  · next scalar =>
    cases encoded
    induction text with
    | nil => rfl
    | cons c text ih =>
      simp only [List.any_cons, Bool.or_eq_true, not_or, Bool.not_eq_true] at scalar
      rw [List.flatMap_cons, decodeUtf8_encodeCodePoint c _ scalar.1, ih (by simp [scalar.2])]
      rfl

end DecAustrum.Python
