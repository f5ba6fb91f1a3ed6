import DecAustrum.LiveVerification
import DecAustrum.OfflineAgreement

/-!
# Plain ledgers

A project is plain where every integer column of its rows holds an integer and every text is
UTF-8. The verifier and the export of the stored rows are then those of the rows they are read
as.
-/
namespace DecAustrum

open Python Sqlite

section

variable (platform : Platform)

/-- The row is fetched, and its policy version is read as a number. -/
def StoredDecision.isPlain (d : StoredDecision) : Bool :=
  d.decodable && d.policyVersion.all fun value => (value.read platform).isSome

def StoredDecision.plain (d : StoredDecision) : DecisionRow :=
  d.versioned (d.policyVersion.bind (·.read platform))

end

/-- The row is fetched, and its sequence number is an integer. -/
def StoredRecord.isPlain (i : StoredRecord) : Bool :=
  i.decodable && i.sequenceNumber.asInteger.isSome

def StoredRecord.plain (i : StoredRecord) : IntegrityRow :=
  i.numbered (i.sequenceNumber.asInteger.getD 0)

def plainRow (platform : Platform) (row : StoredRow) : DecisionRow × IntegrityRow :=
  (row.1.plain platform, row.2.plain)

namespace StoredLedger

variable (platform : Platform) (ledger : StoredLedger) (project : Uuid)

/-- The rows that can be read, as they are read. -/
def plain : Ledger :=
  ⟨(ledger.decisions.filter (·.isPlain platform)).map (·.plain platform),
    (ledger.integrity.filter (·.isPlain)).map (·.plain)⟩

/-- Every row of the project can be read. -/
structure Plain : Prop where
  decisions : ∀ d ∈ ledger.projectDecisions project, d.isPlain platform = true
  records : ∀ i ∈ ledger.projectIntegrity project, i.isPlain = true

end StoredLedger

/-- The bundle of a project built without filters from one state of its tables. -/
def StoredLedger.exportBundle (platform : Platform) (ledger : StoredLedger) (project : Uuid)
    (request : ExportRequest) : Except PyExc EvidenceBundle := do
  let captured ← ledger.captureRecords platform project DecisionSearchFilters.all.sort
    request.maximumRecords request.maximumBytes request.capturedAt
  let chain ← ledger.listChain platform project captured.1.maxSequenceNumber
    request.maximumChainBytes
  buildEvidenceBundle platform captured.1 .all captured.2 chain
    (request.expectedHeadHash.map (·.val)) request.generatedAt.val request.exportId

/-! ## Rows -/

variable {platform : Platform}

theorem StoredDecision.authorization_of_plain {d : StoredDecision} (plain : d.isPlain platform = true) :
    d.authorization platform = rowToAuthorization platform (d.plain platform) := by
  rw [isPlain, Bool.and_eq_true] at plain
  unfold authorization StoredDecision.plain
  cases version : d.policyVersion with
  | none => rfl
  | some value =>
    rw [version] at plain
    obtain ⟨n, read⟩ := Option.isSome_iff_exists.mp plain.2
    simp only [read, Option.bind_some]

theorem StoredDecision.isPlain_of_authorization {d : StoredDecision} {a : AuthorizationResponse}
    (decodable : d.decodable = true) (rebuilt : d.authorization platform = .ok a) :
    d.isPlain platform = true := by
  rw [isPlain, decodable]
  unfold authorization at rebuilt
  cases version : d.policyVersion with
  | none => rfl
  | some value =>
    rw [version] at rebuilt
    cases read : value.read platform with
    | none =>
      simp only [read, bind_eq_ok] at rebuilt
      obtain ⟨-, -, thrown⟩ := rebuilt
      cases thrown
    | some n => simp [read]

theorem StoredRecord.exists_integer {i : StoredRecord} (plain : i.isPlain = true) :
    ∃ n fits, i.sequenceNumber = .integer n fits ∧ i.plain = i.numbered n := by
  rw [isPlain, Bool.and_eq_true] at plain
  obtain ⟨n, isInteger⟩ := Option.isSome_iff_exists.mp plain.2
  obtain ⟨fits, same⟩ := Value.asInteger_eq_some_iff.mp isInteger
  exact ⟨n, fits, same, by rw [StoredRecord.plain, isInteger]; rfl⟩

theorem StoredRecord.proof_of_integer {i : StoredRecord} {n : Int} {fits : fitsInteger n = true}
    (same : i.sequenceNumber = .integer n fits) :
    i.proof platform = rowToProof platform (i.numbered n) := by
  rw [proof, same]
  rfl

theorem storedRowToProof_of_plain {i : StoredRecord} (plain : i.isPlain = true) :
    storedRowToProof platform i = rowToProof platform i.plain := by
  obtain ⟨n, fits, same, read⟩ := StoredRecord.exists_integer plain
  have decodable := ((Bool.and_eq_true ..).mp plain).1
  rw [storedRowToProof, fetched, if_pos decodable, StoredRecord.proof_of_integer same, read]
  rfl

theorem decodable_of_plain {row : StoredRow} (decision : row.1.isPlain platform = true)
    (record : row.2.isPlain = true) : (row.1.decodable && row.2.decodable) = true := by
  rw [StoredDecision.isPlain, Bool.and_eq_true] at decision
  rw [StoredRecord.isPlain, Bool.and_eq_true] at record
  rw [decision.1, record.1]
  rfl

theorem storedRowToRecord_of_plain {row : StoredRow} (decision : row.1.isPlain platform = true)
    (record : row.2.isPlain = true) :
    storedRowToRecord platform row = rowToRecord platform (plainRow platform row) := by
  obtain ⟨n, fits, same, read⟩ := StoredRecord.exists_integer record
  have proof : StoredRecord.proof platform { row.2 with decisionId := row.1.decisionId } =
      rowToProof platform { row.2.plain with decisionId := row.1.decisionId } := by
    rw [read]
    exact StoredRecord.proof_of_integer same
  rw [storedRowToRecord, fetched, if_pos (decodable_of_plain decision record), proof,
    StoredDecision.authorization_of_plain decision]
  rfl

theorem checkRow_of_plain {row : StoredRow} (decision : row.1.isPlain platform = true)
    (record : row.2.isPlain = true) (sequence : Nat) (previousHash : Option Str) :
    StoredLedger.checkRow platform sequence previousHash row =
      checkRow platform sequence previousHash (row.1.plain platform) row.2.plain := by
  obtain ⟨n, fits, same, read⟩ := StoredRecord.exists_integer record
  rw [StoredLedger.checkRow, fetched, if_pos (decodable_of_plain decision record), same, read,
    StoredDecision.authorization_of_plain decision]
  rfl

/-! ## Loops -/

theorem bind_eq_of_ok {α β : Type} {x : Except PyExc α} {f g : α → Except PyExc β}
    (same : ∀ a, x = .ok a → f a = g a) : (x >>= f) = (x >>= g) := by
  cases x with
  | error exc => rfl
  | ok a => exact same a rfl

/-- Rows that are checked alike are walked alike. -/
theorem walkRecords_map {α β : Type} (f : α → β) {check : Nat → Option Str → α →
      Except PyExc (Except IntegrityVerificationFailure AuthorizationResponse)}
    {check' : Nat → Option Str → β →
      Except PyExc (Except IntegrityVerificationFailure AuthorizationResponse)}
    {recordHash : α → Str} {recordHash' : β → Str} (expectedHead : Option Str) (rows : List α)
    (checks : ∀ row ∈ rows, ∀ sequence previousHash,
      check sequence previousHash row = check' sequence previousHash (f row))
    (hashes : ∀ row ∈ rows, recordHash row = recordHash' (f row)) (state : VerifierState) :
    walkRecords check recordHash expectedHead state rows =
      walkRecords check' recordHash' expectedHead state (rows.map f) := by
  induction rows generalizing state with
  | nil => rfl
  | cons row rest ih =>
    have later := ih (fun r member => checks r (List.mem_cons_of_mem _ member))
      fun r member => hashes r (List.mem_cons_of_mem _ member)
    simp only [List.map_cons, walkRecords, checks row (List.mem_cons_self ..),
      hashes row (List.mem_cons_self ..), later]

/-- Rows that are read alike are read alike within a limit. -/
theorem readWithin_map {α β γ : Type} (f : α → β) {read : α → Except PyExc γ}
    {read' : β → Except PyExc γ} (maximumBytes : Nat) (dump : γ → Except PyExc Json) (rows : List α)
    (reads : ∀ row ∈ rows, read row = read' (f row)) (size : Nat) :
    readWithin platform maximumBytes read dump size rows =
      readWithin platform maximumBytes read' dump size (rows.map f) := by
  induction rows generalizing size with
  | nil => rfl
  | cons row rest ih =>
    have later := ih fun r member => reads r (List.mem_cons_of_mem _ member)
    simp only [List.map_cons, readWithin, reads row (List.mem_cons_self ..), later]

/-! ## The rows of a plain project -/

/-- A filter that selects only readable rows selects the same of them as they are read. -/
theorem filter_readable {α β : Type} (f : α → β) (isPlain selects : α → Bool) (selects' : β → Bool)
    (rows : List α) (keeps : ∀ a, selects' (f a) = selects a)
    (readable : ∀ a ∈ rows, selects a = true → isPlain a = true) :
    ((rows.filter isPlain).map f).filter selects' = (rows.filter selects).map f := by
  have kept : selects' ∘ f = selects := funext keeps
  have both : rows.filter (fun a => selects a && isPlain a) = rows.filter selects :=
    List.filter_congr fun a member => by
      cases selected : selects a with
      | false => rfl
      | true => exact readable a member selected
  rw [List.filter_map, kept, List.filter_filter, both]

theorem any_eq_of_filter {α β : Type} {f : α → β} {rows : List α} {rows' : List β}
    {selects : α → Bool} {selects' : β → Bool}
    (same : rows'.filter selects' = (rows.filter selects).map f) :
    rows'.any selects' = rows.any selects := by
  have empty := congrArg List.isEmpty same
  rw [List.isEmpty_map, Bool.eq_iff_iff, List.isEmpty_iff, List.isEmpty_iff,
    List.filter_eq_nil_iff, List.filter_eq_nil_iff] at empty
  rw [Bool.eq_iff_iff, List.any_eq_true, List.any_eq_true]
  simpa using not_congr empty

namespace StoredLedger

section

variable {ledger : StoredLedger} {project : Uuid} {d : StoredDecision} {i : StoredRecord}

theorem mem_projectDecisions (member : i ∈ ledger.projectIntegrity project)
    (joined : d ∈ ledger.decisions.filter fun d => matchRow d i) :
    d ∈ ledger.projectDecisions project := by
  have owned := of_decide_eq_true (List.mem_filter.mp member).2
  obtain ⟨stored, matched⟩ := List.mem_filter.mp joined
  simp only [matchRow, Bool.and_eq_true, decide_eq_true_eq] at matched
  exact List.mem_filter.mpr ⟨stored, decide_eq_true (matched.2.trans owned)⟩

theorem mem_projectIntegrity (member : d ∈ ledger.projectDecisions project)
    (joined : i ∈ ledger.integrity.filter (matchRow d)) : i ∈ ledger.projectIntegrity project := by
  have owned := of_decide_eq_true (List.mem_filter.mp member).2
  obtain ⟨stored, matched⟩ := List.mem_filter.mp joined
  simp only [matchRow, Bool.and_eq_true, decide_eq_true_eq] at matched
  exact List.mem_filter.mpr ⟨stored, decide_eq_true (matched.2.symm.trans owned)⟩

end

end StoredLedger

namespace StoredLedger.Plain

variable {ledger : StoredLedger} {project : Uuid} (plain : ledger.Plain platform project)

include plain

theorem projectDecisions_eq : (ledger.plain platform).projectDecisions project =
    (ledger.projectDecisions project).map (·.plain platform) :=
  filter_readable _ _ _ _ _ (fun _ => rfl) fun d stored owned =>
    plain.decisions d (List.mem_filter.mpr ⟨stored, owned⟩)

theorem projectIntegrity_eq : (ledger.plain platform).projectIntegrity project =
    (ledger.projectIntegrity project).map (·.plain) :=
  filter_readable _ _ _ _ _ (fun _ => rfl) fun i stored owned =>
    plain.records i (List.mem_filter.mpr ⟨stored, owned⟩)

/-- The decisions joined to a record of the project. -/
theorem joinedDecisions_eq (i : StoredRecord) (member : i ∈ ledger.projectIntegrity project) :
    (ledger.plain platform).decisions.filter (fun d => Ledger.matchRow d i.plain) =
      (ledger.decisions.filter fun d => matchRow d i).map (·.plain platform) := by
  refine filter_readable _ _ _ _ _ (fun _ => rfl) fun d stored matched => ?_
  exact plain.decisions d (mem_projectDecisions member (List.mem_filter.mpr ⟨stored, matched⟩))

/-- The records joined to a decision of the project. -/
theorem joinedRecords_eq (d : StoredDecision) (member : d ∈ ledger.projectDecisions project) :
    (ledger.plain platform).integrity.filter (Ledger.matchRow (d.plain platform)) =
      (ledger.integrity.filter (matchRow d)).map (·.plain) :=
  filter_readable _ _ _ _ _ (fun _ => rfl) fun i stored matched =>
    plain.records i (mem_projectIntegrity member (List.mem_filter.mpr ⟨stored, matched⟩))

theorem unmatchedRows_eq :
    (ledger.plain platform).unmatchedRows project = ledger.unmatchedRows project := by
  unfold Ledger.unmatchedRows unmatchedRows
  rw [plain.projectDecisions_eq, plain.projectIntegrity_eq, List.filter_map, List.filter_map,
    List.map_map, List.map_map]
  congr 2
  · refine List.filter_congr fun d member => ?_
    exact congrArg not (any_eq_of_filter (plain.joinedRecords_eq d member))
  · refine List.filter_congr fun i member => ?_
    exact congrArg not (any_eq_of_filter (plain.joinedDecisions_eq i member))

theorem integer_of_mem (i : StoredRecord) (member : i ∈ ledger.projectIntegrity project) :
    ∃ n fits, i.sequenceNumber = .integer n fits ∧ i.plain = i.numbered n :=
  StoredRecord.exists_integer (plain.records i member)

theorem atMost_eq (i : StoredRecord) (member : i ∈ ledger.projectIntegrity project) (n : Int) :
    i.sequenceNumber.atMost n = decide (i.plain.sequenceNumber ≤ n) := by
  obtain ⟨m, fits, same, read⟩ := plain.integer_of_mem i member
  rw [same, read]
  exact Value.atMost_integer

theorem le_iff (i j : StoredRecord) (member : i ∈ ledger.projectIntegrity project)
    (member' : j ∈ ledger.projectIntegrity project) :
    i.sequenceNumber ≤ j.sequenceNumber ↔ i.plain.sequenceNumber ≤ j.plain.sequenceNumber := by
  obtain ⟨m, fits, same, read⟩ := plain.integer_of_mem i member
  obtain ⟨n, fits', same', read'⟩ := plain.integer_of_mem j member'
  rw [same, same', read, read']
  exact Value.integer_le_integer

theorem chain_eq : (ledger.plain platform).chain project =
    (ledger.chain project).map (·.plain) := by
  rw [Ledger.chain, plain.projectIntegrity_eq, chain]
  exact (List.map_insertionSort (r := recordLe) (s := Ledger.recordLe) (·.plain) _
    fun i member j member' => plain.le_iff i j member member').symm

theorem of_mem_verificationRows (maxSequence : Int) (row : StoredRow)
    (member : row ∈ ledger.verificationRows project maxSequence) :
    row.1.isPlain platform = true ∧ row.2.isPlain = true := by
  simp only [verificationRows, List.mem_insertionSort, List.mem_flatMap, List.mem_map] at member
  obtain ⟨i, inside, d, joined, rfl⟩ := member
  have mine := List.mem_of_mem_filter inside
  exact ⟨plain.decisions d (mem_projectDecisions mine joined), plain.records i mine⟩

theorem of_mem_recordRows (sort : DecisionSortOrder) (maxSequence : Int) (row : StoredRow)
    (member : row ∈ ledger.recordRows project sort maxSequence) :
    row.1.isPlain platform = true ∧ row.2.isPlain = true := by
  simp only [recordRows, List.mem_insertionSort, List.mem_flatMap, List.mem_map] at member
  obtain ⟨d, mine, i, inside, rfl⟩ := member
  rw [List.mem_filter, Bool.and_eq_true] at inside
  have joined : i ∈ ledger.integrity.filter (matchRow d) :=
    List.mem_filter.mpr ⟨inside.1, inside.2.1⟩
  exact ⟨plain.decisions d mine, plain.records i (mem_projectIntegrity mine joined)⟩

theorem verificationRows_eq (maxSequence : Int) :
    (ledger.plain platform).verificationRows project maxSequence =
      (ledger.verificationRows project maxSequence).map (plainRow platform) := by
  have below : (ledger.projectIntegrity project).filter
        ((fun i : IntegrityRow => decide (i.sequenceNumber ≤ maxSequence)) ∘ (·.plain)) =
      (ledger.projectIntegrity project).filter fun i => i.sequenceNumber.atMost maxSequence :=
    List.filter_congr fun i member => (plain.atMost_eq i member maxSequence).symm
  rw [Ledger.verificationRows, plain.projectIntegrity_eq, verificationRows,
    List.map_insertionSort (r := sequenceLe) (s := Ledger.sequenceLe)]
  · rw [List.filter_map, below, List.flatMap_map, List.map_flatMap]
    congr 1
    refine List.flatMap_congr fun i member => ?_
    rw [plain.joinedDecisions_eq i (List.mem_of_mem_filter member), List.map_map, List.map_map]
    rfl
  · intro a inside b inside'
    obtain ⟨i, member, d, -, rfl⟩ := List.mem_flatMap.mp inside |>.imp fun _ => And.imp_right List.mem_map.mp
    obtain ⟨j, member', e, -, rfl⟩ := List.mem_flatMap.mp inside' |>.imp fun _ => And.imp_right List.mem_map.mp
    exact plain.le_iff i j (List.mem_of_mem_filter member) (List.mem_of_mem_filter member')

theorem recordRows_eq (sort : DecisionSortOrder) (maxSequence : Int) :
    (ledger.plain platform).recordRows project (fun _ => true) sort maxSequence =
      (ledger.recordRows project sort maxSequence).map (plainRow platform) := by
  have joined (d : StoredDecision) (member : d ∈ ledger.projectDecisions project) :
      (ledger.plain platform).integrity.filter (fun i => Ledger.matchRow (d.plain platform) i &&
          decide (i.sequenceNumber ≤ maxSequence)) =
        (ledger.integrity.filter fun i => matchRow d i && i.sequenceNumber.atMost maxSequence).map
          (·.plain) := by
    have below : (ledger.integrity.filter (matchRow d)).filter
          ((fun i : IntegrityRow => decide (i.sequenceNumber ≤ maxSequence)) ∘ (·.plain)) =
        (ledger.integrity.filter (matchRow d)).filter fun i =>
          i.sequenceNumber.atMost maxSequence :=
      List.filter_congr fun i matched =>
        (plain.atMost_eq i (mem_projectIntegrity member matched) maxSequence).symm
    simp only [Bool.and_comm (Ledger.matchRow _ _), Bool.and_comm (matchRow _ _),
      ← List.filter_filter]
    rw [plain.joinedRecords_eq d member, List.filter_map, below]
  rw [Ledger.recordRows, plain.projectDecisions_eq, recordRows,
    List.map_insertionSort (r := recordOrder sort) (s := Ledger.recordOrder sort)]
  · rw [List.filter_eq_self.mpr (by simp), List.flatMap_map, List.map_flatMap]
    congr 1
    refine List.flatMap_congr fun d member => ?_
    rw [joined d member, List.map_map, List.map_map]
    rfl
  · intro a _ b _
    cases sort <;> rfl

/-! ## The verifier -/

omit plain in
theorem foldl_max_integer (rows : List StoredRecord) (readable : ∀ i ∈ rows, i.isPlain = true)
    (n : Int) (fits : fitsInteger n = true) :
    ∃ fits', (rows.map (·.sequenceNumber)).foldl max (Value.integer n fits) =
      .integer ((rows.map (·.plain.sequenceNumber)).foldl max n) fits' := by
  induction rows generalizing n with
  | nil => exact ⟨fits, rfl⟩
  | cons i rest ih =>
    obtain ⟨m, fits', same, read⟩ := StoredRecord.exists_integer (readable i (List.mem_cons_self ..))
    have number : i.plain.sequenceNumber = m := by rw [read]; rfl
    have later : ∀ j ∈ rest, j.isPlain = true := fun j member =>
      readable j (List.mem_cons_of_mem _ member)
    rw [List.map_cons, List.map_cons, List.foldl_cons, List.foldl_cons, same, number]
    rcases le_total n m with below | above
    · rw [max_eq_right below, max_eq_right (Value.integer_le_integer.mpr below)]
      exact ih later m fits'
    · rw [max_eq_left above, max_eq_left (Value.integer_le_integer.mpr above)]
      exact ih later n fits

theorem maxSequenceNumber_eq :
    ledger.maxSequenceNumber project = .ok ((ledger.plain platform).maxSequenceNumber project) ∧
      fitsInteger ((ledger.plain platform).maxSequenceNumber project) = true := by
  have readable := plain.records
  rw [maxSequenceNumber, Ledger.maxSequenceNumber, plain.projectIntegrity_eq]
  cases rows : ledger.projectIntegrity project with
  | nil => exact ⟨rfl, by decide⟩
  | cons i rest =>
    rw [rows] at readable
    obtain ⟨m, fits, same, read⟩ := StoredRecord.exists_integer (readable i (List.mem_cons_self ..))
    obtain ⟨fits', largest⟩ := foldl_max_integer rest
      (fun j member => readable j (List.mem_cons_of_mem _ member)) m fits
    have number : i.plain.sequenceNumber = m := by rw [read]; rfl
    rw [List.map_cons, List.max?_cons', same, largest]
    simp only [List.map_cons, List.map_map, number]
    exact ⟨rfl, fits'⟩

theorem fetchUnmatched_eq : ledger.fetchUnmatched platform project =
    .ok (platform.firstRow.row (ledger.unmatchedRows project)) := by
  cases found : platform.firstRow.row (ledger.unmatchedRows project) with
  | none =>
    have empty := (platform.firstRow.row_eq_none_iff _).mp found
    exact ledger.fetchUnmatched_of_matched project empty
  | some id =>
    have utf8 : isUtf8 id = true := by
      rcases List.mem_append.mp (platform.firstRow.mem _ id found) with left | right
      · obtain ⟨d, member, rfl⟩ := List.mem_map.mp left
        have readable := plain.decisions d (List.mem_of_mem_filter member)
        simp only [StoredDecision.isPlain, StoredDecision.decodable, Bool.and_eq_true,
          List.all_eq_true] at readable
        exact readable.1.1 d.decisionId (by simp [DecisionRow.texts, StoredDecision.versioned])
      · obtain ⟨i, member, rfl⟩ := List.mem_map.mp right
        have readable := plain.records i (List.mem_of_mem_filter member)
        simp only [StoredRecord.isPlain, StoredRecord.decodable, Bool.and_eq_true,
          List.all_eq_true] at readable
        exact readable.1.1 i.decisionId (by simp)
    rw [ledger.fetchUnmatched_of_mem project found, if_pos utf8]

theorem verifyLoop_eq (expectedHead : Option Str) (state : VerifierState) (maxSequence : Int) :
    verifyLoop platform expectedHead state (ledger.verificationRows project maxSequence) =
      DecAustrum.verifyLoop platform expectedHead state
        ((ledger.verificationRows project maxSequence).map (plainRow platform)) := by
  unfold verifyLoop DecAustrum.verifyLoop
  refine walkRecords_map (plainRow platform) expectedHead _ ?_ ?_ state
  · intro row member sequence previousHash
    obtain ⟨decision, record⟩ := plain.of_mem_verificationRows maxSequence row member
    exact checkRow_of_plain decision record sequence previousHash
  · exact fun _ _ => rfl

/-- The verifier of the rows of a plain project is that of the rows they are read as. -/
theorem verify_eq (expectedHead : Option Str) (now : Datetime) :
    ledger.verify platform project expectedHead now =
      (ledger.plain platform).verify platform project expectedHead now := by
  obtain ⟨maximum, fits⟩ := plain.maxSequenceNumber_eq
  have bound : bindable ((ledger.plain platform).maxSequenceNumber project) = .ok () := if_pos fits
  rw [verify, maximum, plain.fetchUnmatched_eq, Ledger.verify, plain.unmatchedRows_eq,
    plain.projectDecisions_eq, plain.projectIntegrity_eq, List.length_map, List.length_map,
    plain.verificationRows_eq, ← plain.verifyLoop_eq]
  simp only [bind, Except.bind, bound]

/-! ## The export -/

theorem lastSequence_eq :
    ledger.lastSequence project = .ok ((ledger.plain platform).lastSequence project) ∧
      fitsInteger ((ledger.plain platform).lastSequence project) = true := by
  rw [lastSequence, Ledger.lastSequence, plain.chain_eq, List.getLast?_map, Option.map_map]
  cases last : (ledger.chain project).getLast? with
  | none => exact ⟨rfl, by decide⟩
  | some head =>
    have member : head ∈ ledger.projectIntegrity project :=
      (List.mem_insertionSort _).mp (List.mem_of_getLast? last)
    have readable := plain.records head member
    simp only [StoredRecord.isPlain, StoredRecord.decodable, Bool.and_eq_true,
      List.all_eq_true] at readable
    have utf8 : isUtf8 head.recordHash = true := readable.1.1 _ (by simp)
    obtain ⟨n, fits, same, read⟩ := plain.integer_of_mem head member
    simp only [fetched, utf8, Option.map_some, Option.getD_some,
      Function.comp_apply, read, same]
    exact ⟨rfl, fits⟩

theorem snapshot_eq (recordCount : Nat) (capturedAt : UtcDatetime) :
    ledger.snapshot project ((ledger.plain platform).lastSequence project) recordCount capturedAt =
      (ledger.plain platform).snapshot project recordCount capturedAt := by
  rw [snapshot, Ledger.snapshot, Ledger.lastSequence, plain.chain_eq, List.getLast?_map]
  cases (ledger.chain project).getLast? <;> rfl

theorem captureRecords_eq (sort : DecisionSortOrder) (maximumRecords maximumBytes : Nat)
    (capturedAt : UtcDatetime) :
    ledger.captureRecords platform project sort maximumRecords maximumBytes capturedAt =
      (ledger.plain platform).captureRecords platform project (fun _ => true) sort maximumRecords
        maximumBytes capturedAt := by
  obtain ⟨last, fits⟩ := plain.lastSequence_eq
  have bound : bindable ((ledger.plain platform).lastSequence project) = .ok () := if_pos fits
  obtain ⟨rows, rowsEq⟩ : ∃ rows, ledger.recordRows project sort
      ((ledger.plain platform).lastSequence project) = rows := ⟨_, rfl⟩
  have records : readWithin platform maximumBytes (storedRowToRecord platform)
        VerifiableDecisionRecord.dump 0 rows =
      readWithin platform maximumBytes (rowToRecord platform) VerifiableDecisionRecord.dump 0
        (rows.map (plainRow platform)) := by
    refine readWithin_map (plainRow platform) maximumBytes _ rows (fun row member => ?_) 0
    obtain ⟨decision, record⟩ := plain.of_mem_recordRows sort _ row (rowsEq ▸ member)
    exact storedRowToRecord_of_plain decision record
  rw [captureRecords, last, Ledger.captureRecords, plain.recordRows_eq, rowsEq, List.length_map,
    ← plain.snapshot_eq, ← records]
  simp only [bind, Except.bind, bound, rowsEq]

theorem listChain_eq (maxSequence : Int) (fits : fitsInteger maxSequence = true)
    (maximumBytes : Nat) :
    ledger.listChain platform project maxSequence maximumBytes =
      (ledger.plain platform).listChain platform project maxSequence maximumBytes := by
  have bound : bindable maxSequence = .ok () := if_pos fits
  have member (i : StoredRecord) (inside : i ∈ ledger.chain project) :
      i ∈ ledger.projectIntegrity project := (List.mem_insertionSort _).mp inside
  have below : (ledger.chain project).filter
        ((fun i : IntegrityRow => decide (i.sequenceNumber ≤ maxSequence)) ∘ (·.plain)) =
      (ledger.chain project).filter fun i => i.sequenceNumber.atMost maxSequence :=
    List.filter_congr fun i inside => (plain.atMost_eq i (member i inside) maxSequence).symm
  rw [listChain, bound, Ledger.listChain, plain.chain_eq, List.filter_map, below]
  exact readWithin_map (·.plain) maximumBytes _ _ (fun i inside => storedRowToProof_of_plain
    (plain.records i (member i (List.mem_of_mem_filter inside)))) 0

/-- The export of a plain project is that of the rows it is read as. -/
theorem exportBundle_eq (request : ExportRequest) :
    ledger.exportBundle platform project request =
      exportProject platform (ledger.plain platform) project request := by
  rw [exportBundle, exportProject, plain.captureRecords_eq]
  refine bind_eq_of_ok fun captured read => ?_
  obtain ⟨-, last⟩ := (ledger.plain platform).captureRecords_snapshot project _ _ _ _ _ captured read
  have fits := plain.lastSequence_eq.2
  rw [← last] at fits
  rw [plain.listChain_eq captured.1.maxSequenceNumber fits]

end StoredLedger.Plain

end DecAustrum
