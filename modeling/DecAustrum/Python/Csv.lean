import Mathlib.Data.List.Basic

/-!
# Delimited text

Rows of fields between delimiters, as `csv` writes them with minimal quoting, and the reader
that splits them again.
-/
namespace DecAustrum.Python

/-- A dialect over an alphabet. `special` are the characters a field is quoted for. -/
structure CsvDialect (α : Type) where
  delimiter : α
  quotechar : α
  terminator : α
  special : α → Bool
  delimiter_special : special delimiter = true
  quotechar_special : special quotechar = true
  terminator_special : special terminator = true
  quotechar_ne_delimiter : quotechar ≠ delimiter
  quotechar_ne_terminator : quotechar ≠ terminator
  delimiter_ne_terminator : delimiter ≠ terminator

namespace CsvDialect

variable {α : Type} [DecidableEq α] (dialect : CsvDialect α)

/-! ## Writing -/

/-- `doublequote=True`. -/
def doubled (field : List α) : List α :=
  field.flatMap fun c => if c = dialect.quotechar then [c, c] else [c]

def writeField (field : List α) : List α :=
  if field.any dialect.special then
    dialect.quotechar :: (dialect.doubled field ++ [dialect.quotechar])
  else field

def joinFields : List (List α) → List α
  | [] => []
  | [field] => dialect.writeField field
  | field :: next :: rest => dialect.writeField field ++ dialect.delimiter :: joinFields (next :: rest)

/-- `writerow`. A lone empty field is quoted: without quotes it would be a row of none. -/
def writeRow (row : List (List α)) : List α :=
  (if row = [[]] then [dialect.quotechar, dialect.quotechar] else dialect.joinFields row) ++
    [dialect.terminator]

/-! ## Reading -/

inductive ReadState where
  | start
  | plain
  | quoted
  | closing
  deriving DecidableEq

/-- The rows of a text; `none` where a row does not end or a closing quote is followed by text. -/
def readFrom (state : ReadState) (field : List α) (row : List (List α)) :
    List α → Option (List (List (List α)))
  | [] => if state = .start ∧ row = [] then some [] else none
  | c :: rest =>
    match state with
    | .start =>
      if c = dialect.quotechar then readFrom .quoted [] row rest
      else if c = dialect.delimiter then readFrom .start [] (row ++ [[]]) rest
      else if c = dialect.terminator then
        (readFrom .start [] [] rest).map ((if row = [] then [] else row ++ [[]]) :: ·)
      else readFrom .plain [c] row rest
    | .plain =>
      if c = dialect.delimiter then readFrom .start [] (row ++ [field]) rest
      else if c = dialect.terminator then (readFrom .start [] [] rest).map ((row ++ [field]) :: ·)
      else readFrom .plain (field ++ [c]) row rest
    | .quoted =>
      if c = dialect.quotechar then readFrom .closing field row rest
      else readFrom .quoted (field ++ [c]) row rest
    | .closing =>
      if c = dialect.quotechar then readFrom .quoted (field ++ [c]) row rest
      else if c = dialect.delimiter then readFrom .start [] (row ++ [field]) rest
      else if c = dialect.terminator then (readFrom .start [] [] rest).map ((row ++ [field]) :: ·)
      else none

def readRows (text : List α) : Option (List (List (List α))) := dialect.readFrom .start [] [] text

/-! ## The round trip -/

variable {dialect}

theorem readFrom_plain (s rest : List α) (row : List (List α))
    (ordinary : ∀ c ∈ s, dialect.special c = false) :
    ∀ field, dialect.readFrom .plain field row (s ++ rest) =
      dialect.readFrom .plain (field ++ s) row rest := by
  induction s with
  | nil => simp
  | cons c s ih =>
    intro field
    have notDelimiter : c ≠ dialect.delimiter := by
      rintro rfl
      exact absurd dialect.delimiter_special (by simp [ordinary])
    have notTerminator : c ≠ dialect.terminator := by
      rintro rfl
      exact absurd dialect.terminator_special (by simp [ordinary])
    rw [List.cons_append, readFrom]
    simp only [notDelimiter, notTerminator, if_false]
    rw [ih fun d member => ordinary d (by simp [member])]
    simp

theorem readFrom_quoted (s rest : List α) (row : List (List α)) :
    ∀ field, dialect.readFrom .quoted field row (dialect.doubled s ++ rest) =
      dialect.readFrom .quoted (field ++ s) row rest := by
  induction s with
  | nil => simp [doubled]
  | cons c s ih =>
    intro field
    have step : dialect.readFrom .quoted field row (dialect.doubled (c :: s) ++ rest) =
        dialect.readFrom .quoted (field ++ [c]) row (dialect.doubled s ++ rest) := by
      by_cases quote : c = dialect.quotechar
      · simp [doubled, quote, readFrom]
      · simp [doubled, quote, readFrom]
    rw [step, ih]
    simp

variable (dialect) in
/-- Where the reader stands after a field. -/
def afterField (field : List α) : ReadState :=
  if field.any dialect.special then .closing else if field = [] then .start else .plain

/-- The reader takes a written field in, whatever follows. -/
theorem readFrom_writeField (field rest : List α) (row : List (List α)) :
    dialect.readFrom .start [] row (dialect.writeField field ++ rest) =
      dialect.readFrom (dialect.afterField field) field row rest := by
  unfold writeField afterField
  by_cases special : field.any dialect.special = true
  · rw [if_pos special, if_pos special, List.cons_append, readFrom]
    simp only [if_true, List.append_assoc]
    rw [readFrom_quoted, List.nil_append, List.singleton_append, readFrom]
    simp
  rw [if_neg special, if_neg special]
  have ordinary : ∀ c ∈ field, dialect.special c = false := by simpa using special
  cases field with
  | nil => rfl
  | cons c s =>
    have notSpecial := ordinary c (by simp)
    have notQuote : c ≠ dialect.quotechar := by
      rintro rfl
      rw [dialect.quotechar_special] at notSpecial
      cases notSpecial
    have notDelimiter : c ≠ dialect.delimiter := by
      rintro rfl
      rw [dialect.delimiter_special] at notSpecial
      cases notSpecial
    have notTerminator : c ≠ dialect.terminator := by
      rintro rfl
      rw [dialect.terminator_special] at notSpecial
      cases notSpecial
    rw [List.cons_append, readFrom]
    simp only [notQuote, notDelimiter, notTerminator, if_false]
    rw [readFrom_plain s rest row fun d member => ordinary d (by simp [member])]
    rfl

theorem readFrom_delimiter (field rest : List α) (row : List (List α)) :
    dialect.readFrom (dialect.afterField field) field row (dialect.delimiter :: rest) =
      dialect.readFrom .start [] (row ++ [field]) rest := by
  have notQuote := dialect.quotechar_ne_delimiter.symm
  unfold afterField
  split
  · simp [readFrom, notQuote]
  split
  · next empty => simp [readFrom, notQuote, empty]
  · simp [readFrom]

theorem readFrom_terminator (field rest : List α) (row : List (List α))
    (framed : row ++ [field] ≠ [[]]) :
    dialect.readFrom (dialect.afterField field) field row (dialect.terminator :: rest) =
      (dialect.readRows rest).map ((row ++ [field]) :: ·) := by
  have notQuote := dialect.quotechar_ne_terminator.symm
  have notDelimiter := dialect.delimiter_ne_terminator.symm
  unfold afterField readRows
  split
  · simp [readFrom, notQuote, notDelimiter]
  split
  · next empty =>
    have later : row ≠ [] := by
      rintro rfl
      exact framed (by simp [empty])
    simp [readFrom, notQuote, notDelimiter, empty, later]
  · simp [readFrom, notDelimiter]

/-- The fields of a row that has some, then the end of it. -/
theorem readFrom_joinFields (fields : List (List α)) (rest : List α) :
    ∀ row, fields ≠ [] → row ++ fields ≠ [[]] →
      dialect.readFrom .start [] row (dialect.joinFields fields ++ dialect.terminator :: rest) =
        (dialect.readRows rest).map ((row ++ fields) :: ·) := by
  induction fields with
  | nil => exact fun _ some _ => absurd rfl some
  | cons field fields ih =>
    intro row _ framed
    cases fields with
    | nil => rw [joinFields, readFrom_writeField, readFrom_terminator field rest row framed]
    | cons next fields =>
      have longer : row ++ [field] ++ next :: fields ≠ [[]] := by
        intro lone
        have length := congrArg List.length lone
        simp only [List.length_append, List.length_cons, List.length_nil] at length
        omega
      -- the field before the delimiter joins the row read so far, and the rest is the hypothesis
      rw [joinFields, List.append_assoc, readFrom_writeField, List.cons_append, readFrom_delimiter,
        ih (row ++ [field]) (by simp) longer]
      simp

/-- A written row comes back, whatever follows. -/
theorem readRows_writeRow (row : List (List α)) (rest : List α) :
    dialect.readRows (dialect.writeRow row ++ rest) = (dialect.readRows rest).map (row :: ·) := by
  have notQuote := dialect.quotechar_ne_terminator.symm
  have notDelimiter := dialect.delimiter_ne_terminator.symm
  unfold writeRow
  by_cases lone : row = [[]]
  · subst lone
    simp [readRows, readFrom, notQuote, notDelimiter]
  rw [if_neg lone, List.append_assoc, List.singleton_append]
  cases row with
  | nil => simp [joinFields, readRows, readFrom, notQuote, notDelimiter]
  | cons field fields =>
    rw [readRows, readFrom_joinFields (field :: fields) rest [] (by simp) lone, List.nil_append]

theorem readRows_writeRows (rows : List (List (List α))) :
    dialect.readRows (rows.flatMap dialect.writeRow) = some rows := by
  induction rows with
  | nil => rfl
  | cons row rows ih => rw [List.flatMap_cons, readRows_writeRow, ih, Option.map_some]

end CsvDialect
end DecAustrum.Python
