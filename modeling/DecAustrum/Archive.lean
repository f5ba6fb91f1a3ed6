import DecAustrum.Evidence

/-!
# Evidence archives

The archive of a bundle: the manifest, the records and the chain, one line of canonical JSON
for each, in a container that keeps its members.
-/
namespace DecAustrum

open Python

/-- The archive container. -/
structure ZipFormat where
  write : List (Str × Bytes) → Bytes
  read : Bytes → Option (List (Str × Bytes))

def ZipFormat.Lossless (zip : ZipFormat) : Prop :=
  ∀ members, zip.read (zip.write members) = some members

def maxEvidenceArchiveBytes : Nat := 64 * 1024 * 1024

def manifestFile : Str := "manifest.json"

def recordsFile : Str := "records.ndjson"

def chainFile : Str := "chain.ndjson"

def evidenceBundleFiles : List Str := [manifestFile, recordsFile, chainFile]

section

variable (platform : Platform)

/-- `_write_deterministic_zip_lines`: the bytes of a member and the bytes written so far. The
value of a line is made when the line is written. -/
def writeLines (maximumBytes : Nat) : Nat → List (Except PyExc Json) → Except PyExc (Bytes × Nat)
  | written, [] => .ok ([], written)
  | written, line :: rest => do
    let v ← line
    let text ← canonicalJson platform v
    let encoded ← orRaise .unicodeEncodeError (encodeUtf8 (text ++ [0x0a]))
    if maximumBytes < written + encoded.length then
      throw .exportSizeLimitError
    let (more, total) ← writeLines maximumBytes (written + encoded.length) rest
    return (encoded ++ more, total)

variable (zip : ZipFormat)

/-- `build_evidence_bundle_archive`. -/
def buildEvidenceBundleArchive (bundle : EvidenceBundle) (maximumBytes : Nat) :
    Except PyExc Bytes := do
  let manifest ← writeLines platform maximumBytes 0 [.ok bundle.manifest.dump]
  let records ← writeLines platform maximumBytes manifest.2 (bundle.records.map (·.dump))
  let chain ← writeLines platform maximumBytes records.2 (bundle.chain.map fun p => .ok p.dump)
  let archive := zip.write
    [(manifestFile, manifest.1), (recordsFile, records.1), (chainFile, chain.1)]
  if maximumBytes < archive.length then
    throw .exportSizeLimitError
  return archive

/-! ## Loading -/

private def sizeError : PyExc :=
  .archiveError "Evidence archive exceeds the verification size limit."

private def malformedError : PyExc := .archiveError "Evidence archive is malformed."

/-- The lines of a member from a line number on. -/
def parseLines (filename : Str) : Nat → List Str → Except PyExc (List Json)
  | _, [] => .ok []
  | number, line :: rest => do
    if isBlank line then
      parseLines filename (number + 1) rest
    else
      let value ← match Json.loads platform.floats line with
        | .ok v => Except.ok v
        | .error .decode => .error (.archiveError
          (filename ++ (0x3a :: (decimal number ++ ofString " is not valid JSON."))))
        | .error .intDigits => .error .valueError
      let values ← parseLines filename (number + 1) rest
      return value :: values

/-- `_parse_ndjson`. -/
def parseNdjson (content : Bytes) (filename : Str) : Except PyExc (List Json) := do
  let text ← orRaise malformedError (decodeUtf8 content)
  parseLines platform filename 1 (splitlines text)

/-- `archive.read(name)` of a member that is there. -/
def memberBytes (members : List (Str × Bytes)) (name : Str) : Bytes :=
  ((members.find? fun member => member.1 = name).map Prod.snd).getD []

/-- `json.loads` of the manifest. -/
def parseManifest (content : Bytes) : Except PyExc Json := do
  let text ← orRaise malformedError (decodeUtf8 content)
  match Json.loads platform.floats text with
  | .ok v => return v
  | .error .decode => throw malformedError
  | .error .intDigits => throw .valueError

/-- `EvidenceBundle.model_validate` of the members, where an error of validation is the archive's;
another exception escapes. -/
def validateBundle (manifest : Json) (records chain : List Json) : Except PyExc EvidenceBundle :=
  match EvidenceBundle.validate platform
    (.obj [("manifest", manifest), ("records", .arr records), ("chain", .arr chain)]) with
  | .error .validationError =>
    .error (.archiveError "Evidence archive contains invalid DecAustrum data.")
  | outcome => outcome

/-- `load_evidence_bundle_archive` of bytes. -/
def loadEvidenceBundleArchive (source : Bytes) : Except PyExc EvidenceBundle := do
  if maxEvidenceArchiveBytes < source.length then
    throw sizeError
  let members ← orRaise malformedError (zip.read source)
  let names := members.map Prod.fst
  if ¬ (names.Nodup ∧ (∀ name ∈ names, name ∈ evidenceBundleFiles) ∧
      ∀ file ∈ evidenceBundleFiles, file ∈ names) then
    throw (.archiveError
      "Evidence archive must contain exactly manifest.json, records.ndjson, and chain.ndjson.")
  if maxEvidenceArchiveBytes < (members.map fun member => member.2.length).sum then
    throw sizeError
  let manifest ← parseManifest platform (memberBytes members manifestFile)
  let records ← parseNdjson platform (memberBytes members recordsFile) recordsFile
  let chain ← parseNdjson platform (memberBytes members chainFile) chainFile
  validateBundle platform manifest records chain

end

end DecAustrum
