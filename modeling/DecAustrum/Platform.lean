import DecAustrum.Python.JsonKeys
import DecAustrum.Python.Uuid
import DecAustrum.Python.Datetime

/-!
# The platform

What the program takes from the interpreter and from its packages without defining it:
SHA-256, the text of floats, and the lax readers of the validation package.
-/
namespace DecAustrum

open Python

/-- The row that `LIMIT 1` leaves of a query without an order: some row, where there is one. -/
structure FirstRow where
  row : List Str → Option Str
  mem : ∀ rows, ∀ id ∈ row rows, id ∈ rows
  exists_row : ∀ rows, rows ≠ [] → ∃ id, row rows = some id

theorem FirstRow.row_eq_none_iff (firstRow : FirstRow) (rows : List Str) :
    firstRow.row rows = none ↔ rows = [] := by
  constructor
  · intro absent
    by_contra some
    obtain ⟨id, present⟩ := firstRow.exists_row rows some
    rw [absent] at present
    cases present
  · rintro rfl
    rw [Option.eq_none_iff_forall_not_mem]
    exact fun id member => List.not_mem_nil (firstRow.mem [] id member)

structure Platform where
  floats : FloatText
  /-- `hashlib.sha256(data).hexdigest()`. -/
  sha256 : Bytes → Str
  /-- `UUID(text)`. -/
  uuid : Str → Option Uuid
  /-- `datetime.fromisoformat(text)`. -/
  fromIsoformat : Str → Option Moment
  /-- The model readers of a UUID, a datetime, an integer and a flag. -/
  readUuid : Json → Option Uuid
  readDatetime : Json → Option Datetime
  readInt : Json → Option Int
  readBool : Json → Option Bool
  /-- The row the database answers first. -/
  firstRow : FirstRow

/-- Sixty-four lower-case hexadecimal digits. -/
def isSha256Digest (s : Str) : Bool :=
  s.length = 64 && s.all fun c => isDigit c || (0x61 ≤ c.val && c.val ≤ 0x66)

/-- What the standard library and the validation package document of values in their own
canonical text. -/
structure Platform.Lawful (platform : Platform) : Prop where
  floats : platform.floats.Lawful
  uuid_str : ∀ u : Uuid, platform.uuid u.str = some u
  fromIsoformat_isoformat : ∀ d : Datetime, platform.fromIsoformat d.isoformat = some d.moment
  readUuid_str : ∀ u : Uuid, platform.readUuid (.str u.str) = some u
  readDatetime_isoformat : ∀ d : Datetime, platform.readDatetime (.str d.isoformat) = some d
  readDatetime_json : ∀ d : Datetime, platform.readDatetime (.str d.json) = some d
  readInt_int : ∀ n : Int, platform.readInt (.int n) = some n
  readBool_bool : ∀ b : Bool, platform.readBool (.bool b) = some b

/-- Every digest has the digest form. -/
def Platform.HexDigests (platform : Platform) : Prop :=
  ∀ data, isSha256Digest (platform.sha256 data) = true

/-- The exceptions the modelled code raises or catches. -/
inductive PyExc where
  | typeError
  | valueError
  | jsonDecodeError
  | unicodeEncodeError
  | validationError
  | integrityError
  | overflowError
  | operationalError
  | migrationError
  | runtimeError
  | exportSizeLimitError
  | archiveError (message : Str)
  deriving DecidableEq, Repr

/-- `type(exc).__name__`. -/
def PyExc.name : PyExc → Str
  | .typeError => "TypeError"
  | .valueError => "ValueError"
  | .jsonDecodeError => "JSONDecodeError"
  | .unicodeEncodeError => "UnicodeEncodeError"
  | .validationError => "ValidationError"
  | .integrityError => "IntegrityError"
  | .overflowError => "OverflowError"
  | .operationalError => "OperationalError"
  | .migrationError => "DecisionIntegrityMigrationError"
  | .runtimeError => "RuntimeError"
  | .exportSizeLimitError => "EvidenceExportSizeLimitError"
  | .archiveError _ => "EvidenceBundleArchiveError"

/-- A value, or the exception raised where there is none. -/
def orRaise {α : Type} (exc : PyExc) : Option α → Except PyExc α
  | some a => .ok a
  | none => .error exc

theorem bind_eq_ok {ε α β : Type} (x : Except ε α) (f : α → Except ε β) (b : β) :
    (x >>= f) = .ok b ↔ ∃ a, x = .ok a ∧ f a = .ok b := by
  cases x <;> simp [bind, Except.bind]

@[simp] theorem orRaise_eq_ok {α : Type} (exc : PyExc) (value : Option α) (a : α) :
    orRaise exc value = .ok a ↔ value = some a := by
  cases value <;> simp [orRaise]

theorem error_of_orRaise {α : Type} {exc raised : PyExc} {value : Option α}
    (fails : orRaise exc value = .error raised) : raised = exc := by
  cases value with
  | none => exact (Except.error.inj fails).symm
  | some a => cases fails

end DecAustrum
