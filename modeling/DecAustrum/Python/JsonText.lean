import DecAustrum.Python.Json

/-!
# Writing and reading JSON

`dumps` and `loads` of the standard `json` module. Text of floats is left to the
platform, which supplies `repr` and its inverse.
-/
namespace DecAustrum.Python

/-- How the platform writes and reads finite floats. -/
structure FloatText where
  repr : PyFloat → Str
  read : Str → PyFloat

/-- The `ensure_ascii` and `separators` arguments. -/
structure Style where
  ensureAscii : Bool
  itemSeparator : Str
  keySeparator : Str

/-- `separators=(",", ":"), ensure_ascii=False`. -/
def Style.canonical : Style := ⟨false, ",", ":"⟩

/-- The defaults of `json.dumps`. -/
def Style.default : Style := ⟨true, ", ", ": "⟩

inductive LoadsError where
  | decode
  | intDigits
  deriving DecidableEq, Repr

namespace Json

/-! ## Writing -/

def unicodeEscape (unit : Nat) : Str := 0x5c :: 0x75 :: padded 16 4 unit

/-- One character of a string literal. -/
def escapeChar (ensureAscii : Bool) (c : CodePoint) : Str :=
  if c = 0x22 then [0x5c, 0x22]
  else if c = 0x5c then [0x5c, 0x5c]
  else if c = 0x0a then [0x5c, 0x6e]
  else if c = 0x0d then [0x5c, 0x72]
  else if c = 0x09 then [0x5c, 0x74]
  else if c = 0x0c then [0x5c, 0x66]
  else if c = 0x08 then [0x5c, 0x62]
  else if c.val < 0x20 then unicodeEscape c.val
  else if ensureAscii && 0x7f ≤ c.val then
    if c.val < 0x10000 then unicodeEscape c.val
    else unicodeEscape (0xd800 + (c.val - 0x10000) / 0x400) ++
      unicodeEscape (0xdc00 + (c.val - 0x10000) % 0x400)
  else [c]

def quote (ensureAscii : Bool) (s : Str) : Str :=
  0x22 :: (s.flatMap (escapeChar ensureAscii) ++ [0x22])

def intText (n : Int) : Str := if n < 0 then 0x2d :: decimal n.natAbs else decimal n.natAbs

section Printer

variable (floats : FloatText) (style : Style)

mutual

def text : Json → Str
  | .null => "null"
  | .bool true => "true"
  | .bool false => "false"
  | .int n => intText n
  | .float x => floats.repr x
  | .str s => quote style.ensureAscii s
  | .arr items => 0x5b :: (itemsText items ++ [0x5d])
  | .obj fields => 0x7b :: (fieldsText fields ++ [0x7d])

def itemsText : List Json → Str
  | [] => []
  | v :: rest => text v ++ itemsTail rest

def itemsTail : List Json → Str
  | [] => []
  | v :: rest => style.itemSeparator ++ (text v ++ itemsTail rest)

def fieldsText : List (Str × Json) → Str
  | [] => []
  | (k, v) :: rest =>
    quote style.ensureAscii k ++ (style.keySeparator ++ (text v ++ fieldsTail rest))

def fieldsTail : List (Str × Json) → Str
  | [] => []
  | (k, v) :: rest =>
    style.itemSeparator ++
      (quote style.ensureAscii k ++ (style.keySeparator ++ (text v ++ fieldsTail rest)))

end

/-- `json.dumps(v, sort_keys=True, allow_nan=False, ..)`; `none` is its `ValueError`. -/
def dumps (v : Json) : Option Str := if v.encodable then some (text floats style v.sortKeys) else none

end Printer

/-! ## Reading -/

def isJsonSpace (c : CodePoint) : Bool := c = 0x20 || c = 0x09 || c = 0x0a || c = 0x0d

def skipSpace (input : Str) : Str := input.dropWhile isJsonSpace

def expect (c : CodePoint) : Str → Except LoadsError Str
  | [] => .error .decode
  | d :: rest => if d = c then .ok rest else .error .decode

/-- A character of a string literal and whether a `\u` escape spelled it. -/
abbrev Unit := CodePoint × Bool

def simpleEscape (c : CodePoint) : Option CodePoint :=
  if c = 0x22 then some 0x22
  else if c = 0x5c then some 0x5c
  else if c = 0x2f then some 0x2f
  else if c = 0x62 then some 0x08
  else if c = 0x66 then some 0x0c
  else if c = 0x6e then some 0x0a
  else if c = 0x72 then some 0x0d
  else if c = 0x74 then some 0x09
  else none

/-- The body of a string literal up to its closing quote. -/
def scanUnits : Str → Except LoadsError (List Unit × Str)
  | [] => .error .decode
  | c :: rest =>
    if c = 0x22 then .ok ([], rest)
    else if c = 0x5c then
      match rest with
      | [] => .error .decode
      | e :: rest =>
        if e = 0x75 then
          match rest with
          | w :: x :: y :: z :: rest =>
            match hexFour w x y z with
            | some unit =>
              (scanUnits rest).map fun scanned =>
                ((Fin.ofNat 0x110000 unit, true) :: scanned.1, scanned.2)
            | none => .error .decode
          | _ => .error .decode
        else match simpleEscape e with
          | some d => (scanUnits rest).map fun scanned => ((d, false) :: scanned.1, scanned.2)
          | none => .error .decode
    else if c.val < 0x20 then .error .decode
    else (scanUnits rest).map fun scanned => ((c, false) :: scanned.1, scanned.2)

def isHighSurrogate (c : CodePoint) : Bool := 0xd800 ≤ c.val && c.val ≤ 0xdbff

def isLowSurrogate (c : CodePoint) : Bool := 0xdc00 ≤ c.val && c.val ≤ 0xdfff

def joinPair (high low : CodePoint) : CodePoint :=
  Fin.ofNat 0x110000 (0x10000 + (high.val - 0xd800) * 0x400 + (low.val - 0xdc00))

/-- Two adjacent escapes that spell a surrogate pair denote one character. -/
def joinUnits : List Unit → Str
  | [] => []
  | [(c, _)] => [c]
  | (c, escaped) :: (d, escaped') :: rest =>
    if escaped && escaped' && isHighSurrogate c && isLowSurrogate d then
      joinPair c d :: joinUnits rest
    else c :: joinUnits ((d, escaped') :: rest)

def scanString (input : Str) : Except LoadsError (Str × Str) :=
  (scanUnits input).map fun scanned => (joinUnits scanned.1, scanned.2)

def spanDigits (input : Str) : Str × Str := input.span isDigit

/-- The integer part of a number, without its sign: no leading zero is read past. -/
def scanInteger : Str → Option (Str × Str)
  | [] => none
  | c :: rest =>
    if c = 0x30 then some ([c], rest)
    else if isDigit c then some (c :: (spanDigits rest).1, (spanDigits rest).2)
    else none

/-- `.` and at least one digit, or nothing. -/
def scanFraction : Str → Str × Str
  | c :: d :: rest =>
    if c = 0x2e && isDigit d then (c :: d :: (spanDigits rest).1, (spanDigits rest).2)
    else ([], c :: d :: rest)
  | input => ([], input)

/-- `e`, an optional sign and at least one digit, or nothing. -/
def scanExponent : Str → Str × Str
  | e :: d :: rest =>
    if (e = 0x65 || e = 0x45) && isDigit d then
      (e :: d :: (spanDigits rest).1, (spanDigits rest).2)
    else if (e = 0x65 || e = 0x45) && (d = 0x2b || d = 0x2d) then
      match rest with
      | f :: rest =>
        if isDigit f then (e :: d :: f :: (spanDigits rest).1, (spanDigits rest).2)
        else ([], e :: d :: f :: rest)
      | [] => ([], [e, d])
    else ([], e :: d :: rest)
  | input => ([], input)

/-- A number token: sign, integer part, then fraction and exponent joined. -/
structure NumberToken where
  negative : Bool
  integer : Str
  tail : Str

def NumberToken.text (token : NumberToken) : Str :=
  (if token.negative then [0x2d] else []) ++ (token.integer ++ token.tail)

def scanUnsigned (negative : Bool) (input : Str) : Option (NumberToken × Str) :=
  (scanInteger input).map fun integer =>
    let fraction := scanFraction integer.2
    let exponent := scanExponent fraction.2
    (⟨negative, integer.1, fraction.1 ++ exponent.1⟩, exponent.2)

def scanNumber : Str → Option (NumberToken × Str)
  | c :: rest => if c = 0x2d then scanUnsigned true rest else scanUnsigned false (c :: rest)
  | [] => none

section Scanner

variable (floats : FloatText)

def numberValue (token : NumberToken) : Except LoadsError Json :=
  if token.tail ≠ [] then .ok (.float (floats.read token.text))
  else if token.integer.length ≤ 4300 then
    .ok (.int (if token.negative then -(decimalValue token.integer : Int)
      else decimalValue token.integer))
  else .error .intDigits

def positiveInfinity : PyFloat := ⟨0x7ff0000000000000#64⟩

def negativeInfinity : PyFloat := ⟨0xfff0000000000000#64⟩

def notANumber : PyFloat := ⟨0x7ff8000000000000#64⟩

/-- The constants, `NaN` and the infinities included. -/
def constants : List (Str × Json) :=
  [("null", .null), ("true", .bool true), ("false", .bool false), ("NaN", .float notANumber),
    ("Infinity", .float positiveInfinity), ("-Infinity", .float negativeInfinity)]

def scanConstant (input : Str) : Option (Json × Str) :=
  (constants.find? fun entry => entry.1.isPrefixOf input).map fun entry =>
    (entry.2, input.drop entry.1.length)

def scanScalar (input : Str) : Except LoadsError (Json × Str) :=
  match scanConstant input with
  | some scanned => .ok scanned
  | none =>
    match scanNumber input with
    | some (token, rest) => (numberValue floats token).map fun v => (v, rest)
    | none => .error .decode

mutual

/-- One value; `fuel` bounds the nesting and the length of the input. -/
def scanOnce : Nat → Str → Except LoadsError (Json × Str)
  | 0, _ => .error .decode
  | fuel + 1, input =>
    match input with
    | [] => .error .decode
    | c :: rest =>
      if c = 0x22 then (scanString rest).map fun scanned => (.str scanned.1, scanned.2)
      else if c = 0x7b then
        match skipSpace rest with
        | [] => .error .decode
        | d :: after =>
          if d = 0x7d then .ok (.obj [], after)
          else (scanFields fuel (d :: after)).map fun scanned => (.obj scanned.1, scanned.2)
      else if c = 0x5b then
        match skipSpace rest with
        | [] => .error .decode
        | d :: after =>
          if d = 0x5d then .ok (.arr [], after)
          else (scanItems fuel (d :: after)).map fun scanned => (.arr scanned.1, scanned.2)
      else scanScalar floats (c :: rest)

/-- The items of an array up to its closing bracket. -/
def scanItems : Nat → Str → Except LoadsError (List Json × Str)
  | 0, _ => .error .decode
  | fuel + 1, input => do
    let value ← scanOnce fuel input
    match skipSpace value.2 with
    | [] => .error .decode
    | d :: after =>
      if d = 0x5d then .ok ([value.1], after)
      else if d = 0x2c then
        (scanItems fuel (skipSpace after)).map fun scanned => (value.1 :: scanned.1, scanned.2)
      else .error .decode

/-- The members of an object up to its closing brace. -/
def scanFields : Nat → Str → Except LoadsError (List (Str × Json) × Str)
  | 0, _ => .error .decode
  | fuel + 1, input => do
    let opened ← expect 0x22 input
    let key ← scanString opened
    let colon ← expect 0x3a (skipSpace key.2)
    let value ← scanOnce fuel (skipSpace colon)
    match skipSpace value.2 with
    | [] => .error .decode
    | d :: after =>
      if d = 0x7d then .ok ([(key.1, value.1)], after)
      else if d = 0x2c then
        (scanFields fuel (skipSpace after)).map fun scanned =>
          ((key.1, value.1) :: scanned.1, scanned.2)
      else .error .decode

end

/-- The value a whole text spells, repeated keys kept. -/
def scan (input : Str) : Except LoadsError Json := do
  let scanned ← scanOnce floats (2 * input.length + 2) (skipSpace input)
  match skipSpace scanned.2 with
  | [] => .ok scanned.1
  | _ :: _ => .error .decode

/-- `json.loads`. -/
def loads (input : Str) : Except LoadsError Json :=
  if input.head? = some 0xfeff then .error .decode else (scan floats input).map toDicts

end Scanner

end Json
end DecAustrum.Python
