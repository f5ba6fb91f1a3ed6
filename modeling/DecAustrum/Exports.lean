import DecAustrum.Evidence
import DecAustrum.Python.Csv

/-!
# Evidence exports

The streams of an export: one JSON object, one line of JSON for each record, or a table.
A generator is the list of its chunks, each made when the reader asks for it.
-/
namespace DecAustrum

open Python

/-- What a reader gets from a generator: the chunks up to the end or to the exception that
ends it. -/
def drain : List (Except PyExc Bytes) → List Bytes × Option PyExc
  | [] => ([], none)
  | .error exc :: _ => ([], some exc)
  | .ok chunk :: rest => (chunk :: (drain rest).1, (drain rest).2)

/-- `text.encode("utf-8")`. -/
def encoded (text : Str) : Except PyExc Bytes := orRaise .unicodeEncodeError (encodeUtf8 text)

section Streams

variable (platform : Platform)

/-! ## JSON and NDJSON -/

def EvidenceExportSnapshot.dump (s : EvidenceExportSnapshot) : Json :=
  .obj [("project_id", .str s.projectId.str), ("captured_at", .str s.capturedAt.val.json),
    ("max_sequence_number", .int s.maxSequenceNumber),
    ("chain_record_count", .int s.chainRecordCount),
    ("chain_head_hash", dumpOptional dumpDigest s.chainHeadHash),
    ("record_count", .int s.recordCount)]

/-- The members of the envelope before its records. -/
def exportMetadata (snapshot : EvidenceExportSnapshot) (criteria : DecisionSearchFilters) : Json :=
  .obj [("schema_version", .int 1), ("project_id", .str snapshot.projectId.str),
    ("criteria", criteria.dump), ("snapshot", snapshot.dump)]

/-- The canonical text of a record, as one chunk. -/
def recordChunk (record : VerifiableDecisionRecord) (suffix : Str) : Except PyExc Bytes := do
  let form ← record.dump
  let text ← canonicalJson platform form
  encoded (text ++ suffix)

/-- The records with a comma before each but the first. -/
def recordChunks : Bool → List VerifiableDecisionRecord → List (Except PyExc Bytes)
  | _, [] => []
  | true, record :: rest => recordChunk platform record [] :: recordChunks false rest
  | false, record :: rest => encoded "," :: recordChunk platform record [] :: recordChunks false rest

/-- `iter_json_export`: the closing brace of the metadata makes room for the records. -/
def iterJsonExport (snapshot : EvidenceExportSnapshot) (criteria : DecisionSearchFilters)
    (records : List VerifiableDecisionRecord) : List (Except PyExc Bytes) :=
  (do
    let metadata ← canonicalJson platform (exportMetadata snapshot criteria)
    encoded (metadata.dropLast ++ ",\"records\":[")) ::
  (recordChunks platform true records ++ [encoded "]\x7d"])

/-- `iter_ndjson_export`. -/
def iterNdjsonExport (records : List VerifiableDecisionRecord) : List (Except PyExc Bytes) :=
  records.map fun record => recordChunk platform record [0x0a]

/-! ## CSV -/

def csvColumns : List Str :=
  ["decision_id", "project_id", "evaluated_at", "decision", "policy_id", "policy_version", "reason",
    "agent", "action", "context_json", "evidence_json", "trace_json", "sequence_number",
    "previous_hash", "payload_hash", "record_hash", "algorithm", "integrity_schema_version",
    "integrity_created_at"]

/-- `CSV_FORMULA_PREFIXES`: the four signs, a tab, a carriage return and a line feed. -/
def csvFormulaPrefixes : Str := [0x3d, 0x2b, 0x2d, 0x40, 0x09, 0x0d, 0x0a]

/-- A cell before it is written. -/
inductive CsvValue where
  | none
  | int (n : Int)
  | str (s : Str)
  deriving DecidableEq

def CsvValue.ofOptional {α : Type} (value : α → CsvValue) : Option α → CsvValue
  | .none => .none
  | .some a => value a

/-- `canonical_json(evidence)` with an empty text for `None`. -/
def evidenceJson : Option PolicyEvidence → Except PyExc Str
  | .none => .ok []
  | .some e => canonicalJson platform e.dumped

/-- The cells of a record, by column. -/
def csvCells (record : VerifiableDecisionRecord) : Except PyExc (List (Str × CsvValue)) := do
  let decision := record.decision
  let proof := record.integrity
  let _ ← decision.dump
  let context ← canonicalJson platform decision.context.dumped
  let evidence ← evidenceJson platform decision.evidence
  let trace ← canonicalJson platform (.arr (decision.trace.map (·.dumped)))
  return [("decision_id", .str decision.decisionId.str), ("project_id", .str decision.projectId.str),
    ("evaluated_at", .str decision.evaluatedAt.json), ("decision", .str decision.decision.text),
    ("policy_id", .ofOptional .str decision.policy),
    ("policy_version", .ofOptional .int decision.policyVersion), ("reason", .str decision.reason),
    ("agent", .str decision.agent), ("action", .str decision.action), ("context_json", .str context),
    ("evidence_json", .str evidence), ("trace_json", .str trace),
    ("sequence_number", .int proof.sequenceNumber),
    ("previous_hash", .ofOptional (fun d : Sha256Digest => .str d.val) proof.previousHash),
    ("payload_hash", .str proof.payloadHash.val), ("record_hash", .str proof.recordHash.val),
    ("algorithm", .str integrityAlgorithm), ("integrity_schema_version", .int integritySchemaVersion),
    ("integrity_created_at", .str proof.createdAt.json)]

/-- `_spreadsheet_safe_csv_value`. -/
def spreadsheetSafeCsvValue : CsvValue → CsvValue
  | .str (c :: rest) =>
    let stripped := (c :: rest).dropWhile isSpace
    if c ∈ csvFormulaPrefixes || isSpace c || stripped.head?.any (· ∈ csvFormulaPrefixes) then
      .str (0x27 :: c :: rest)
    else .str (c :: rest)
  | value => value

/-- `_csv_row`. -/
def csvRow (record : VerifiableDecisionRecord) : Except PyExc (List (Str × CsvValue)) :=
  (csvCells platform record).map fun row =>
    row.map fun cell => (cell.1, spreadsheetSafeCsvValue cell.2)

/-- `str(value)`, with an empty field for `None`. -/
def CsvValue.text : CsvValue → Except PyExc Str
  | .none => .ok []
  | .int n => if Json.withinDigitLimit n then .ok (Json.intText n) else .error .valueError
  | .str s => .ok s

/-- The dialect of the export. Interpreters differ in whether a lone carriage return is
quoted. -/
def exportDialect (quotesReturn : Bool) : CsvDialect CodePoint where
  delimiter := 0x2c
  quotechar := 0x22
  terminator := 0x0a
  special c := c = 0x2c || c = 0x22 || c = 0x0a || (quotesReturn && c = 0x0d)
  delimiter_special := by simp
  quotechar_special := by simp
  terminator_special := by simp
  quotechar_ne_delimiter := by decide
  quotechar_ne_terminator := by decide
  delimiter_ne_terminator := by decide

variable (quotesReturn : Bool)

/-- The fields of a row in the order of the columns. -/
def csvFields (row : List (Str × CsvValue)) : Except PyExc (List Str) :=
  csvColumns.mapM fun column => ((row.lookup column).getD .none).text

/-- `writer.writerow(_csv_row(record))` and the chunk it leaves in the buffer. -/
def csvChunk (record : VerifiableDecisionRecord) : Except PyExc Bytes := do
  let row ← csvRow platform record
  let fields ← csvFields row
  encoded ((exportDialect quotesReturn).writeRow fields)

/-- `iter_csv_export`. -/
def iterCsvExport (records : List VerifiableDecisionRecord) : List (Except PyExc Bytes) :=
  encoded ((exportDialect quotesReturn).writeRow csvColumns) ::
    records.map (csvChunk platform quotesReturn)

end Streams

/-! ## Drained chunks -/

/-- The elements before the first chunk that raises have theirs delivered, in order. -/
theorem drain_map {α : Type} (chunk : α → Except PyExc Bytes) (elements : List α) :
    List.Forall₂ (fun a bytes => chunk a = .ok bytes) (elements.takeWhile fun a => (chunk a).isOk)
      (drain (elements.map chunk)).1 := by
  induction elements with
  | nil => exact .nil
  | cons a rest ih =>
    rw [List.map_cons]
    cases made : chunk a with
    | error exc =>
      rw [List.takeWhile_cons_of_neg (by simp [made, Except.isOk, Except.toBool])]
      exact .nil
    | ok bytes =>
      rw [List.takeWhile_cons_of_pos (by rw [made]; rfl)]
      exact .cons made ih

theorem encodeUtf8_flatten (texts : List Str) (chunks : List Bytes)
    (each : List.Forall₂ (fun text chunk => encodeUtf8 text = some chunk) texts chunks) :
    encodeUtf8 texts.flatten = some chunks.flatten := by
  induction each with
  | nil => rfl
  | cons first _ ih => exact encodeUtf8_append _ _ _ _ first ih

end DecAustrum
