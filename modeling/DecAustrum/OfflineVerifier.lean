import DecAustrum.Archive

/-!
# The offline verifier

`main` of the command line verifier: the archive is read from its file, its members through
`zipfile`, and the verification is printed. What `zipfile` reads of damaged bytes is left to the
reader.
-/
namespace DecAustrum

open Python

/-! ## Printed reports -/

/-- A line break of `indent=2`. -/
def indentLine (level : Nat) : Str := 0x0a :: List.replicate (2 * level) 0x20

section Printer

variable (floats : FloatText)

mutual

/-- `json.dumps(v, indent=2)`. -/
def indentedText (level : Nat) : Json → Str
  | .arr items =>
    if items.isEmpty then "[]"
    else 0x5b :: (indentedItems (level + 1) items ++ (indentLine level ++ [0x5d]))
  | .obj fields =>
    if fields.isEmpty then [0x7b, 0x7d]
    else 0x7b :: (indentedFields (level + 1) fields ++ (indentLine level ++ [0x7d]))
  | .null => "null"
  | .bool true => "true"
  | .bool false => "false"
  | .int n => Json.intText n
  | .float x => floats.repr x
  | .str s => Json.quote true s

def indentedItems (level : Nat) : List Json → Str
  | [] => []
  | v :: rest =>
    indentLine level ++
      (indentedText level v ++ ((if rest.isEmpty then [] else [0x2c]) ++ indentedItems level rest))

def indentedFields (level : Nat) : List (Str × Json) → Str
  | [] => []
  | (k, v) :: rest =>
    indentLine level ++ (Json.quote true k ++ (ofString ": " ++
      (indentedText level v ++ ((if rest.isEmpty then [] else [0x2c]) ++ indentedFields level rest))))

end

end Printer

def EvidenceBundleFailureCode.text : EvidenceBundleFailureCode → Str
  | .manifestRecordCountMismatch => "manifest_record_count_mismatch"
  | .manifestChainCountMismatch => "manifest_chain_count_mismatch"
  | .recordsDigestMismatch => "records_digest_mismatch"
  | .chainDigestMismatch => "chain_digest_mismatch"
  | .bundleDigestMismatch => "bundle_digest_mismatch"
  | .projectMismatch => "project_mismatch"
  | .chainSequenceMismatch => "chain_sequence_mismatch"
  | .chainPreviousHashMismatch => "chain_previous_hash_mismatch"
  | .chainRecordHashMismatch => "chain_record_hash_mismatch"
  | .chainHeadMismatch => "chain_head_mismatch"
  | .trustedCheckpointMismatch => "trusted_checkpoint_mismatch"
  | .selectedRecordMissing => "selected_record_missing"
  | .selectedProofMismatch => "selected_proof_mismatch"
  | .selectedPayloadHashMismatch => "selected_payload_hash_mismatch"

def EvidenceBundleVerificationFailure.dump (f : EvidenceBundleVerificationFailure) : Json :=
  .obj [("code", .str f.code.text), ("message", .str f.message),
    ("decision_id", dumpOptional (fun u => .str u.str) f.decisionId),
    ("sequence_number", dumpOptional .int f.sequenceNumber),
    ("expected", dumpOptional .str f.expected), ("actual", dumpOptional .str f.actual)]

def EvidenceBundleVerification.dump (v : EvidenceBundleVerification) : Json :=
  .obj [("verified", .bool v.verified), ("project_id", .str v.projectId.str),
    ("checked_records", .int v.checkedRecords),
    ("checked_chain_records", .int v.checkedChainRecords),
    ("head_hash", dumpOptional dumpDigest v.headHash), ("verified_at", .str v.verifiedAt.json),
    ("failure", dumpOptional EvidenceBundleVerificationFailure.dump v.failure)]

/-! ## The archive -/

/-- What `zipfile` raises on damaged or unusual archives. -/
inductive ZipExc where
  | badZipFile
  | osError
  | unicodeDecodeError
  | zlibError
  | runtimeError
  | notImplementedError
  | eofError
  deriving DecidableEq, Repr

/-- The exceptions that the loader turns into its own. -/
def ZipExc.caught : ZipExc → Bool
  | .badZipFile => true
  | .osError => true
  | .unicodeDecodeError => true
  | _ => false

structure ZipInfo where
  filename : Str
  fileSize : Nat
  deriving DecidableEq

/-- `ZipFile.infolist` and `ZipFile.read`. No member is longer than the size it declares. -/
structure ZipReader where
  infolist : Bytes → Except ZipExc (List ZipInfo)
  read : Bytes → Str → Except ZipExc Bytes
  bounded : ∀ source infos name content, infolist source = .ok infos →
    read source name = .ok content →
    ∃ info ∈ infos, info.filename = name ∧ content.length ≤ info.fileSize

namespace EvidenceVerifier

inductive VerifierExc where
  | python (exc : PyExc)
  | zip (exc : ZipExc)
  deriving DecidableEq, Repr

def ofPython {α : Type} : Except PyExc α → Except VerifierExc α
  | .ok a => .ok a
  | .error exc => .error (.python exc)

/-- The handler around the archive. -/
def ofZip {α : Type} : Except ZipExc α → Except VerifierExc α
  | .ok a => .ok a
  | .error exc =>
    if exc.caught then .error (.python (.archiveError "Evidence archive is malformed."))
    else .error (.zip exc)

/-- `_read_archive_bytes`, with the text of the `OSError` of a file that cannot be read. -/
def readArchiveBytes : Except Str Bytes → Except PyExc Bytes
  | .error text => .error (.archiveError (ofString "Evidence archive cannot be read: " ++ text))
  | .ok content =>
    if maxEvidenceArchiveBytes < content.length then
      .error (.archiveError "Evidence archive exceeds the verification size limit.")
    else .ok content

/-- The three members, each once. -/
def Layout (infos : List ZipInfo) : Prop :=
  (infos.map (·.filename)).Nodup ∧
    (∀ name ∈ infos.map (·.filename), name ∈ evidenceBundleFiles) ∧
    ∀ file ∈ evidenceBundleFiles, file ∈ infos.map (·.filename)

instance (infos : List ZipInfo) : Decidable (Layout infos) :=
  inferInstanceAs (Decidable (_ ∧ _ ∧ _))

def totalSize (infos : List ZipInfo) : Nat := (infos.map (·.fileSize)).sum

def checkLayout (infos : List ZipInfo) : Except PyExc Unit :=
  if ¬ Layout infos then
    .error (.archiveError
      "Evidence archive must contain exactly manifest.json, records.ndjson, and chain.ndjson.")
  else if maxEvidenceArchiveBytes < totalSize infos then
    .error (.archiveError "Evidence archive exceeds the verification size limit.")
  else .ok ()

section

variable (platform : Platform) (zip : ZipReader)

/-- `load_evidence_bundle_archive` of a file. -/
def loadArchive (file : Except Str Bytes) : Except VerifierExc EvidenceBundle := do
  let source ← ofPython (readArchiveBytes file)
  let infos ← ofZip (zip.infolist source)
  ofPython (checkLayout infos)
  let manifestContent ← ofZip (zip.read source manifestFile)
  let manifest ← ofPython (parseManifest platform manifestContent)
  let recordsContent ← ofZip (zip.read source recordsFile)
  let records ← ofPython (parseNdjson platform recordsContent recordsFile)
  let chainContent ← ofZip (zip.read source chainFile)
  let chain ← ofPython (parseNdjson platform chainContent chainFile)
  ofPython (validateBundle platform manifest records chain)

/-- How the process ends: the exit code and what it has printed. -/
structure Exit where
  code : Nat
  printed : Str
  deriving DecidableEq

/-- `print(json.dumps(v, indent=2, sort_keys=True))`. -/
def printed (v : Json) : Except PyExc Str :=
  orRaise .valueError
    (if v.encodable then some (indentedText platform.floats 0 v.sortKeys ++ [0x0a]) else none)

def archiveInvalid (message : Str) : Json :=
  .obj [("verified", .bool false),
    ("failure", .obj [("code", .str "archive_invalid"), ("message", .str message)])]

/-- `main` of a file and a checkpoint, which the argument parser has checked. -/
def main (file : Except Str Bytes) (expectedHeadHash : Option Sha256Digest) (now : Datetime) :
    Except VerifierExc Exit :=
  match loadArchive platform zip file with
  | .error (.python (.archiveError message)) => do
    let report ← ofPython (printed platform (archiveInvalid message))
    return ⟨2, report⟩
  | .error exc => .error exc
  | .ok bundle => do
    let verification ← ofPython
      (verifyEvidenceBundle platform bundle (expectedHeadHash.map (·.val)) now)
    let report ← ofPython (printed platform verification.dump)
    return ⟨if verification.verified then 0 else 1, report⟩

end

end EvidenceVerifier

end DecAustrum
