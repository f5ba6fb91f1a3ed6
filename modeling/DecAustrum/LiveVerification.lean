import DecAustrum.LedgerHistory
import DecAustrum.RequestEncoding
import DecAustrum.Storage.StoredLedger

/-!
# The verifier on any ledger

The walk over the records ends in a report unless it reaches a row that cannot be fetched, an
identifier that is no UUID, a sequence number that is no integer, or a decision that is rebuilt
and has no digest. A report names the first record that fails.
-/
namespace DecAustrum

open Python Sqlite

/-- A row of the verifier's query. -/
abbrev StoredRow := StoredDecision × StoredRecord

section

variable (platform : Platform) (sequence : Nat) (previousHash : Option Str) (row : StoredRow)

/-- The row passes the checks before its hashes, and is rebuilt as the decision. -/
structure Rebuilt (a : AuthorizationResponse) : Prop where
  sequence : row.2.sequenceNumber.toInt = .ok (sequence : Int)
  previous : row.2.previousHash = previousHash
  algorithm : row.2.algorithm = integrityAlgorithm
  schema : row.2.schemaVersion = integritySchemaVersion
  rebuilt : row.1.authorization platform = .ok a
  created : platform.fromIsoformat row.2.createdAt = some a.evaluatedAt.moment

/-- The row can be fetched, its identifier is a UUID and its sequence number an integer, and a
decision it is rebuilt as has a digest. -/
structure RowReadable : Prop where
  decodable : (row.1.decodable && row.2.decodable) = true
  id : (platform.uuid row.1.decisionId).isSome = true
  number : ∃ n, row.2.sequenceNumber.toInt = .ok n
  digests : ∀ a, Rebuilt platform sequence previousHash row a → Digests a.dump

/-- The row passes every check. -/
structure RowPasses (a : AuthorizationResponse) : Prop where
  rebuilt : Rebuilt platform sequence previousHash row a
  payload : calculateAuthorizationPayloadHash platform a = .ok row.2.payloadHash
  record : calculateIntegrityRecordHash platform a sequence previousHash row.2.payloadHash =
    .ok row.2.recordHash

/-- The check that a failure code stands for fails. -/
def FailsCheck : IntegrityFailureCode → Prop
  | .sequenceMismatch => row.2.sequenceNumber.toInt ≠ .ok (sequence : Int)
  | .previousHashMismatch => row.2.previousHash ≠ previousHash
  | .algorithmMismatch => row.2.algorithm ≠ integrityAlgorithm
  | .schemaVersionMismatch => row.2.schemaVersion ≠ integritySchemaVersion
  | .payloadUnreadable => ∀ a, row.1.authorization platform ≠ .ok a
  | .createdAtMismatch => ∃ a, row.1.authorization platform = .ok a ∧
      platform.fromIsoformat row.2.createdAt ≠ some a.evaluatedAt.moment
  | .payloadHashMismatch => ∃ a, Rebuilt platform sequence previousHash row a ∧
      calculateAuthorizationPayloadHash platform a ≠ .ok row.2.payloadHash
  | .recordHashMismatch => ∃ a, Rebuilt platform sequence previousHash row a ∧
      calculateIntegrityRecordHash platform a sequence previousHash row.2.payloadHash ≠
        .ok row.2.recordHash
  | .recordCountMismatch => False
  | .headHashMismatch => False

/-- What the check of one row comes to. -/
inductive RowOutcome :
    Except PyExc (Except IntegrityVerificationFailure AuthorizationResponse) → Prop
  | raises (exc : PyExc) (unreadable : ¬ RowReadable platform sequence previousHash row) :
      RowOutcome (.error exc)
  | fails (failure : IntegrityVerificationFailure)
      (readable : RowReadable platform sequence previousHash row)
      (id : failure.decisionId = platform.uuid row.1.decisionId)
      (number : failure.sequenceNumber = some sequence)
      (check : FailsCheck platform sequence previousHash row failure.code) :
      RowOutcome (.ok (.error failure))
  | passes (a : AuthorizationResponse) (readable : RowReadable platform sequence previousHash row)
      (accepted : RowPasses platform sequence previousHash row a) : RowOutcome (.ok (.ok a))

end

variable {platform : Platform}

section Row

variable {sequence : Nat} {previousHash : Option Str} {row : StoredRow}

theorem Rebuilt.unique {a b : AuthorizationResponse}
    (rebuilt : Rebuilt platform sequence previousHash row a)
    (again : row.1.authorization platform = .ok b) : b = a := by
  have same := rebuilt.rebuilt
  rw [again, Except.ok.injEq] at same
  exact same

/-- A row fails the check its failure names, so it does not pass. -/
theorem FailsCheck.not_passes {code : IntegrityFailureCode}
    (fails : FailsCheck platform sequence previousHash row code) (a : AuthorizationResponse) :
    ¬ RowPasses platform sequence previousHash row a := by
  rintro ⟨row, payload, record⟩
  cases code with
  | sequenceMismatch => exact fails row.sequence
  | previousHashMismatch => exact fails row.previous
  | algorithmMismatch => exact fails row.algorithm
  | schemaVersionMismatch => exact fails row.schema
  | payloadUnreadable => exact fails a row.rebuilt
  | createdAtMismatch =>
    obtain ⟨b, rebuilt, mismatch⟩ := fails
    obtain rfl := row.unique rebuilt
    exact mismatch row.created
  | payloadHashMismatch =>
    obtain ⟨b, again, mismatch⟩ := fails
    obtain rfl := row.unique again.rebuilt
    exact mismatch payload
  | recordHashMismatch =>
    obtain ⟨b, again, mismatch⟩ := fails
    obtain rfl := row.unique again.rebuilt
    exact mismatch record
  | recordCountMismatch => exact fails
  | headHashMismatch => exact fails

/-- The envelope of a record has a digest: its texts are digests, identifiers and times. -/
theorem recordHash_of_payload (lawful : platform.Lawful) (hex : platform.HexDigests)
    (a : AuthorizationResponse) (fits : fitsInteger sequence = true)
    (previous : ∀ hash ∈ previousHash, isSha256Digest hash = true) {payloadHash : Str}
    (payload : calculateAuthorizationPayloadHash platform a = .ok payloadHash) :
    ∃ hash, calculateIntegrityRecordHash platform a sequence previousHash payloadHash = .ok hash := by
  obtain ⟨dumpable, hashed⟩ := (payloadHash_eq_ok platform a payloadHash).mp payload
  obtain ⟨-, bytes, -, rfl⟩ := (digest_eq_ok_iff platform _ _).mp hashed
  obtain ⟨before, validated⟩ := (validateOptional_isSome previousHash).mpr previous
  rw [← validateOptional_map _ _ validated]
  exact recordHash_defined lawful a dumpable (digestible_int_of_fits fits) before
    ⟨platform.sha256 bytes, hex bytes⟩

/-- A row that is fetched is checked with the decision it is rebuilt as. -/
theorem checkRow_of_fetched {u : Uuid} {n : Int}
    (decodable : (row.1.decodable && row.2.decodable) = true)
    (id : platform.uuid row.1.decisionId = some u) (number : row.2.sequenceNumber.toInt = .ok n) :
    StoredLedger.checkRow platform sequence previousHash row =
      checkRecordRow platform sequence previousHash u (row.1.authorization platform)
        (row.2.numbered n) := by
  rw [StoredLedger.checkRow, fetched, if_pos decodable, id, number]
  rfl

theorem checkRow_outcome_of_fetched (lawful : platform.Lawful) (hex : platform.HexDigests)
    (fits : row.2.sequenceNumber.toInt = .ok (sequence : Int) → fitsInteger sequence = true)
    (previous : ∀ hash ∈ previousHash, isSha256Digest hash = true) {u : Uuid} {n : Int}
    (decodable : (row.1.decodable && row.2.decodable) = true)
    (id : platform.uuid row.1.decisionId = some u) (number : row.2.sequenceNumber.toInt = .ok n) :
    RowOutcome platform sequence previousHash row
      (checkRecordRow platform sequence previousHash u (row.1.authorization platform)
        (row.2.numbered n)) := by
  have known : (platform.uuid row.1.decisionId).isSome = true := by simp [id]
  -- a row that fails before its hashes is read whatever decision it holds
  have early (never : ∀ a, ¬ Rebuilt platform sequence previousHash row a) :
      RowReadable platform sequence previousHash row :=
    ⟨decodable, known, ⟨n, number⟩, fun a rebuilt => absurd rebuilt (never a)⟩
  have named (code : IntegrityFailureCode) (message : Str) (expected actual : Option Str)
      (readable : RowReadable platform sequence previousHash row)
      (check : FailsCheck platform sequence previousHash row code) :
      RowOutcome platform sequence previousHash row
        (.ok (.error ⟨code, message, some u, some sequence, expected, actual⟩)) :=
    .fails _ readable id.symm rfl check
  unfold checkRecordRow
  simp only [bind, Except.bind, pure, Except.pure]
  split
  next mismatch =>
    have wrong : row.2.sequenceNumber.toInt ≠ .ok (sequence : Int) := by
      rw [number, ne_eq, Except.ok.injEq]
      exact mismatch
    exact named _ _ _ _ (early fun a row => wrong row.sequence) wrong
  next sequenceOk =>
  split
  next mismatch => exact named _ _ _ _ (early fun a row => mismatch row.previous) mismatch
  next previousOk =>
  split
  next mismatch => exact named _ _ _ _ (early fun a row => mismatch row.algorithm) mismatch
  next algorithmOk =>
  split
  next mismatch => exact named _ _ _ _ (early fun a row => mismatch row.schema) mismatch
  next schemaOk =>
  rw [Decidable.not_not] at sequenceOk previousOk algorithmOk schemaOk
  obtain rfl : n = sequence := sequenceOk
  cases rebuilt : row.1.authorization platform with
  | error exc =>
    have never : ∀ a, row.1.authorization platform ≠ .ok a := by simp [rebuilt]
    exact named _ _ _ _ (early fun a row => never a row.rebuilt) never
  | ok a =>
    simp only
    split
    next mismatch =>
      refine named _ _ _ _ (early fun b again => ?_) ⟨a, rebuilt, mismatch⟩
      obtain rfl := again.unique rebuilt
      exact mismatch again.created
    next createdOk =>
    rw [Decidable.not_not] at createdOk
    have whole : Rebuilt platform sequence previousHash row a :=
      ⟨number, previousOk, algorithmOk, schemaOk, rebuilt, createdOk⟩
    cases payload : calculateAuthorizationPayloadHash platform a with
    | error exc =>
      -- the walk stops here with an exception
      refine .raises exc fun readable => ?_
      obtain ⟨hash, hashed⟩ := (payloadHash_defined_iff lawful a).mpr (readable.digests a whole)
      rw [hashed] at payload
      cases payload
    | ok payloadHash =>
      have digests : Digests a.dump := (payloadHash_defined_iff lawful a).mp ⟨payloadHash, payload⟩
      have readable : RowReadable platform sequence previousHash row :=
        ⟨decodable, known, ⟨_, number⟩, fun b again => again.unique rebuilt ▸ digests⟩
      obtain ⟨recordHash, record⟩ := recordHash_of_payload lawful hex a (fits number) previous payload
      simp only
      split
      next mismatch =>
        refine named _ _ _ _ readable ⟨a, whole, ?_⟩
        rw [payload, ne_eq, Except.ok.injEq]
        exact fun same => mismatch same.symm
      next payloadOk =>
      replace payloadOk : row.2.payloadHash = payloadHash := Decidable.not_not.mp payloadOk
      rw [record]
      simp only
      split
      next mismatch =>
        refine named _ _ _ _ readable ⟨a, whole, ?_⟩
        rw [payloadOk, record, ne_eq, Except.ok.injEq]
        exact fun same => mismatch same.symm
      next recordOk =>
      replace recordOk : row.2.recordHash = recordHash := Decidable.not_not.mp recordOk
      exact .passes a readable ⟨whole, by rw [payload, payloadOk], by rw [payloadOk, record, recordOk]⟩

theorem checkRow_outcome (lawful : platform.Lawful) (hex : platform.HexDigests)
    (fits : row.2.sequenceNumber.toInt = .ok (sequence : Int) → fitsInteger sequence = true)
    (previous : ∀ hash ∈ previousHash, isSha256Digest hash = true) :
    RowOutcome platform sequence previousHash row
      (StoredLedger.checkRow platform sequence previousHash row) := by
  by_cases decodable : (row.1.decodable && row.2.decodable) = true
  · cases id : platform.uuid row.1.decisionId with
    | none =>
      have raised : StoredLedger.checkRow platform sequence previousHash row =
          .error .valueError := by
        rw [StoredLedger.checkRow, fetched, if_pos decodable, id]
        rfl
      rw [raised]
      refine .raises _ fun readable => ?_
      have known := readable.id
      simp [id] at known
    | some u =>
      cases number : row.2.sequenceNumber.toInt with
      | error exc =>
        have raised : StoredLedger.checkRow platform sequence previousHash row = .error exc := by
          rw [StoredLedger.checkRow, fetched, if_pos decodable, id, number]
          rfl
        rw [raised]
        refine .raises _ fun readable => ?_
        obtain ⟨n, known⟩ := readable.number
        rw [number] at known
        cases known
      | ok n =>
        rw [checkRow_of_fetched decodable id number]
        exact checkRow_outcome_of_fetched lawful hex fits previous decodable id number
  · have raised : StoredLedger.checkRow platform sequence previousHash row =
        .error .operationalError := by
      rw [StoredLedger.checkRow, fetched, if_neg decodable]
      rfl
    rw [raised]
    exact .raises _ fun readable => decodable readable.decodable

end Row

/-! ## The walk -/

/-- The hash the record after the rows has to name. -/
def walkedHash (start : Option Str) (rows : List StoredRow) : Option Str :=
  rows.foldl (fun _ row => some row.2.recordHash) start

/-- The rows pass every check, from the number of records and the hash before them. -/
inductive Passed (platform : Platform) : Nat → Option Str → List StoredRow → Prop
  | nil (count : Nat) (last : Option Str) : Passed platform count last []
  | cons {count : Nat} {last : Option Str} {rest : List StoredRow} (row : StoredRow)
      (a : AuthorizationResponse) (passes : RowPasses platform (count + 1) last row a)
      (continues : Passed platform (count + 1) (some row.2.recordHash) rest) :
      Passed platform count last (row :: rest)

/-- The walk accepts the rows before this one. -/
structure Reaches (platform : Platform) (rows : List StoredRow) (count : Nat)
    (previousHash : Option Str) (checked : List StoredRow) (row : StoredRow) : Prop where
  split : ∃ rest, rows = checked ++ row :: rest
  passed : Passed platform count previousHash checked

/-- Every row that the walk reaches can be read. -/
def WalkReadable (platform : Platform) (rows : List StoredRow) (count : Nat)
    (previousHash : Option Str) : Prop :=
  ∀ checked row, Reaches platform rows count previousHash checked row →
    RowReadable platform (count + checked.length + 1) (walkedHash previousHash checked) row

/-- The state the loop ends in when it accepts every row. -/
def VerifierState.passed (expectedHead : Option Str) (state : VerifierState)
    (rows : List StoredRow) : VerifierState :=
  ⟨walkedHash state.previousHash rows, state.checkedRecords + rows.length,
    state.checkpointSeen || rows.any fun row => decide (some row.2.recordHash = expectedHead)⟩

section Walk

variable {rest : List StoredRow} {count : Nat} {previousHash : Option Str} {row : StoredRow}

theorem reaches_cons_iff {checked : List StoredRow} {later : StoredRow} :
    Reaches platform (row :: rest) count previousHash checked later ↔
      (checked = [] ∧ later = row) ∨ ∃ a between, checked = row :: between ∧
        RowPasses platform (count + 1) previousHash row a ∧
        Reaches platform rest (count + 1) (some row.2.recordHash) between later := by
  constructor
  · rintro ⟨⟨tail, split⟩, passed⟩
    cases passed with
    | nil =>
      rw [List.nil_append, List.cons.injEq] at split
      exact .inl ⟨rfl, split.1.symm⟩
    | @cons _ _ between _ a passes continues =>
      rw [List.cons_append, List.cons.injEq] at split
      obtain ⟨rfl, split⟩ := split
      exact .inr ⟨a, between, rfl, passes, ⟨tail, split⟩, continues⟩
  · rintro (⟨rfl, rfl⟩ | ⟨a, between, rfl, passes, ⟨tail, split⟩, continues⟩)
    · exact ⟨⟨rest, rfl⟩, .nil _ _⟩
    · exact ⟨⟨tail, by rw [split]; rfl⟩, .cons _ a passes continues⟩

theorem walkReadable_nil : WalkReadable platform [] count previousHash := by
  rintro checked row ⟨⟨tail, split⟩, -⟩
  have length := congrArg List.length split
  simp at length

/-- A row that does not pass ends the walk. -/
theorem walkReadable_of_fails (fails : ∀ a, ¬ RowPasses platform (count + 1) previousHash row a) :
    WalkReadable platform (row :: rest) count previousHash ↔
      RowReadable platform (count + 1) previousHash row := by
  constructor
  · intro readable
    exact readable [] row (reaches_cons_iff.mpr (.inl ⟨rfl, rfl⟩))
  · rintro readable checked later reached
    obtain ⟨rfl, rfl⟩ | ⟨a, between, -, passes, -⟩ := reaches_cons_iff.mp reached
    · exact readable
    · exact absurd passes (fails a)

/-- After a row that passes the rest is walked from it. -/
theorem walkReadable_of_passes {a : AuthorizationResponse}
    (readable : RowReadable platform (count + 1) previousHash row)
    (passes : RowPasses platform (count + 1) previousHash row a) :
    WalkReadable platform (row :: rest) count previousHash ↔
      WalkReadable platform rest (count + 1) (some row.2.recordHash) := by
  have shift (between : List StoredRow) :
      count + (row :: between).length + 1 = count + 1 + between.length + 1 := by
    rw [List.length_cons]
    omega
  constructor
  · intro walk between later reached
    rw [← shift between]
    exact walk (row :: between) later (reaches_cons_iff.mpr (.inr ⟨a, between, rfl, passes, reached⟩))
  · intro walk checked later reached
    obtain ⟨rfl, rfl⟩ | ⟨b, between, rfl, -, reached⟩ := reaches_cons_iff.mp reached
    · exact readable
    · rw [shift between]
      exact walk between later reached

/-- What the walk comes to. -/
inductive WalkOutcome (platform : Platform) (expectedHead : Option Str) (state : VerifierState)
    (rows : List StoredRow) :
    Except PyExc (Except (IntegrityVerificationFailure × Nat) VerifierState) → Prop
  | raises (exc : PyExc)
      (unreadable : ¬ WalkReadable platform rows state.checkedRecords state.previousHash) :
      WalkOutcome platform expectedHead state rows (.error exc)
  | fails (failure : IntegrityVerificationFailure) (checked : List StoredRow) (row : StoredRow)
      (readable : WalkReadable platform rows state.checkedRecords state.previousHash)
      (reached : Reaches platform rows state.checkedRecords state.previousHash checked row)
      (id : failure.decisionId = platform.uuid row.1.decisionId)
      (number : failure.sequenceNumber = some (state.checkedRecords + checked.length + 1))
      (check : FailsCheck platform (state.checkedRecords + checked.length + 1)
        (walkedHash state.previousHash checked) row failure.code) :
      WalkOutcome platform expectedHead state rows
        (.ok (.error (failure, state.checkedRecords + checked.length)))
  | passes (readable : WalkReadable platform rows state.checkedRecords state.previousHash)
      (passed : Passed platform state.checkedRecords state.previousHash rows) :
      WalkOutcome platform expectedHead state rows (.ok (.ok (state.passed expectedHead rows)))

theorem verifyLoop_outcome (lawful : platform.Lawful) (hex : platform.HexDigests)
    (expectedHead : Option Str) (state : VerifierState) (rows : List StoredRow)
    (fits : ∀ row ∈ rows, ∀ n : Nat, row.2.sequenceNumber.toInt = .ok (n : Int) →
      fitsInteger n = true)
    (previous : ∀ hash ∈ state.previousHash, isSha256Digest hash = true) :
    WalkOutcome platform expectedHead state rows
      (StoredLedger.verifyLoop platform expectedHead state rows) := by
  induction rows generalizing state with
  | nil =>
    have passes : WalkOutcome platform expectedHead state []
        (.ok (.ok (state.passed expectedHead []))) := .passes walkReadable_nil (.nil _ _)
    have done : state.passed expectedHead [] = state := by simp [VerifierState.passed, walkedHash]
    rwa [done] at passes
  | cons row rest ih =>
    have outcome : RowOutcome platform (state.checkedRecords + 1) state.previousHash row
        (StoredLedger.checkRow platform (state.checkedRecords + 1) state.previousHash row) :=
      checkRow_outcome lawful hex (fits row (List.mem_cons_self ..) _) previous
    rw [StoredLedger.verifyLoop]
    cases result : StoredLedger.checkRow platform (state.checkedRecords + 1) state.previousHash row
      with
    | error exc =>
      rw [result] at outcome
      rw [walkRecords_raises result]
      cases outcome with
      | raises _ unreadable =>
        refine .raises exc fun walk => unreadable ?_
        exact walk [] row (reaches_cons_iff.mpr (.inl ⟨rfl, rfl⟩))
    | ok checkedRow =>
      rw [result] at outcome
      cases outcome with
      | fails failure readable id number check =>
        rw [walkRecords_fails result]
        have walk : WalkReadable platform (row :: rest) state.checkedRecords state.previousHash :=
          (walkReadable_of_fails check.not_passes).mpr readable
        exact .fails failure [] row walk (reaches_cons_iff.mpr (.inl ⟨rfl, rfl⟩)) id number check
      | passes a readable accepted =>
        have walk := @walkReadable_of_passes platform rest _ _ row a readable accepted
        obtain ⟨-, hashed⟩ := (recordHash_eq_ok platform ..).mp accepted.record
        obtain ⟨-, bytes, -, recordHash⟩ := (digest_eq_ok_iff platform _ _).mp hashed
        have later := ih ⟨some row.2.recordHash, state.checkedRecords + 1,
          state.checkpointSeen || decide (some row.2.recordHash = expectedHead)⟩
          (fun row member => fits row (List.mem_cons_of_mem _ member)) (by
            rintro hash ⟨⟩
            exact recordHash ▸ hex bytes)
        rw [walkRecords_passes result, ← StoredLedger.verifyLoop]
        generalize StoredLedger.verifyLoop platform expectedHead _ rest = result at later ⊢
        cases later with
        | raises exc unreadable => exact .raises exc fun readable => unreadable (walk.mp readable)
        | fails failure checked found readable reached id number check =>
          have count : state.checkedRecords + 1 + checked.length =
              state.checkedRecords + (row :: checked).length := by
            rw [List.length_cons]
            omega
          dsimp only at number check ⊢
          rw [count] at number check ⊢
          refine .fails failure (row :: checked) found (walk.mpr readable) ?_ id number check
          exact reaches_cons_iff.mpr (.inr ⟨a, checked, rfl, accepted, reached⟩)
        | passes readable continues =>
          have passes : WalkOutcome platform expectedHead state (row :: rest)
              (.ok (.ok (state.passed expectedHead (row :: rest)))) :=
            .passes (walk.mpr readable) (.cons _ a accepted continues)
          convert passes using 3
          simp only [VerifierState.passed, walkedHash, List.foldl_cons, List.length_cons,
            List.any_cons, Bool.or_assoc, VerifierState.mk.injEq, true_and, and_true]
          omega

end Walk

/-! ## The report -/

/-- The two tables match row for row. -/
structure Matched (ledger : StoredLedger) (project : Uuid) : Prop where
  counts : (ledger.projectIntegrity project).length = (ledger.projectDecisions project).length
  unmatched : ledger.unmatchedRows project = []

/-- The largest sequence number is an integer; a row without its counterpart has a UUID; and where
there is none, the integer can be bound and every row that the walk reaches can be read. -/
structure LedgerReadable (platform : Platform) (ledger : StoredLedger) (project : Uuid)
    (maxSequence : Int) : Prop where
  maximum : ledger.maxSequenceNumber project = .ok maxSequence
  unmatched : ∀ id ∈ platform.firstRow.row (ledger.unmatchedRows project),
    isUtf8 id = true ∧ (platform.uuid id).isSome = true
  bound : Matched ledger project → fitsInteger maxSequence = true
  walk : Matched ledger project →
    WalkReadable platform (ledger.verificationRows project maxSequence) 0 none

/-- The report of a failure, at a number of records. -/
def failedReport (ledger : StoredLedger) (project : Uuid) (now : Datetime) (checkedRecords : Nat)
    (headHash : Option Sha256Digest) (failure : IntegrityVerificationFailure) :
    DecisionIntegrityVerification :=
  ⟨project, false, (ledger.projectDecisions project).length, checkedRecords, headHash, now,
    some failure⟩

/-- What a report on the rows of a walk says: they pass, the tables do not match, a first record
fails its check, or the expected head is not among the hashes. -/
inductive LedgerReports (platform : Platform) (ledger : StoredLedger) (project : Uuid)
    (rows : List StoredRow) (expectedHead : Option Str) (now : Datetime) :
    DecisionIntegrityVerification → Prop
  | verified (headHash : Option Sha256Digest) (matched : Matched ledger project)
      (passed : Passed platform 0 none rows)
      (checkpoint : expectedHead = none ∨ ∃ row ∈ rows, some row.2.recordHash = expectedHead)
      (head : headHash.map (·.val) = walkedHash none rows) :
      LedgerReports platform ledger project rows expectedHead now
        ⟨project, true, (ledger.projectDecisions project).length, rows.length, headHash, now, none⟩
  | unmatched (failure : IntegrityVerificationFailure) (differ : ¬ Matched ledger project)
      (code : failure.code = .recordCountMismatch)
      (id : failure.decisionId =
        (platform.firstRow.row (ledger.unmatchedRows project)).bind platform.uuid) :
      LedgerReports platform ledger project rows expectedHead now
        (failedReport ledger project now 0 none failure)
  | record (failure : IntegrityVerificationFailure) (checked : List StoredRow) (row : StoredRow)
      (matched : Matched ledger project) (reached : Reaches platform rows 0 none checked row)
      (check : FailsCheck platform (checked.length + 1) (walkedHash none checked) row failure.code)
      (id : failure.decisionId = platform.uuid row.1.decisionId)
      (number : failure.sequenceNumber = some (checked.length + 1)) :
      LedgerReports platform ledger project rows expectedHead now
        (failedReport ledger project now checked.length none failure)
  | head (failure : IntegrityVerificationFailure) (headHash : Option Sha256Digest)
      (matched : Matched ledger project) (passed : Passed platform 0 none rows)
      (expected : expectedHead ≠ none) (missing : ∀ row ∈ rows, some row.2.recordHash ≠ expectedHead)
      (code : failure.code = .headHashMismatch)
      (head : headHash.map (·.val) = walkedHash none rows) :
      LedgerReports platform ledger project rows expectedHead now
        (failedReport ledger project now rows.length headHash failure)

theorem Passed.walkedHash_hex (hex : platform.HexDigests) {count : Nat} {last : Option Str}
    {rows : List StoredRow} (passed : Passed platform count last rows)
    (previous : ∀ hash ∈ last, isSha256Digest hash = true) :
    ∀ hash ∈ walkedHash last rows, isSha256Digest hash = true := by
  induction passed with
  | nil => exact previous
  | cons row a passes _ ih =>
    apply ih
    rintro hash ⟨⟩
    obtain ⟨-, hashed⟩ := (recordHash_eq_ok platform ..).mp passes.record
    obtain ⟨-, bytes, -, recordHash⟩ := (digest_eq_ok_iff platform _ _).mp hashed
    exact recordHash ▸ hex bytes

section Report

variable {project : Uuid} {total count : Nat} {unmatched expectedHead : Option Str} {now : Datetime}
  {walk : Except PyExc (Except (IntegrityVerificationFailure × Nat) VerifierState)}

/-- The failure of tables that do not match. -/
def countFailure (total count : Nat) (decisionId : Option Uuid) : IntegrityVerificationFailure :=
  ⟨.recordCountMismatch, "Decision and integrity record counts do not match.", decisionId, none,
    some (decimal total), some (decimal count)⟩

theorem verificationReport_mismatch (differ : count ≠ total ∨ unmatched ≠ none)
    (read : ∀ id ∈ unmatched, (platform.uuid id).isSome = true) :
    verificationReport platform project total count unmatched expectedHead now walk =
      .ok ⟨project, false, total, 0, none, now,
        some (countFailure total count (unmatched.bind platform.uuid))⟩ := by
  rw [verificationReport, if_pos differ]
  cases unmatched with
  | none => rfl
  | some id =>
    obtain ⟨u, known⟩ := Option.isSome_iff_exists.mp (read id rfl)
    simp only [Option.bind_some, known, orRaise]
    rfl

theorem verificationReport_unnamed {id : Str} (unnamed : platform.uuid id = none) :
    verificationReport platform project total count (some id) expectedHead now walk =
      .error .valueError := by
  rw [verificationReport, if_pos (by simp)]
  simp only [unnamed, orRaise]
  rfl

theorem verificationReport_raises {exc : PyExc} :
    verificationReport platform project total total none expectedHead now (.error exc) =
      .error exc := by
  rw [verificationReport, if_neg (by simp)]
  rfl

theorem verificationReport_fails {failure : IntegrityVerificationFailure} {checkedRecords : Nat} :
    verificationReport platform project total total none expectedHead now
        (.ok (.error (failure, checkedRecords))) =
      .ok ⟨project, false, total, checkedRecords, none, now, some failure⟩ := by
  rw [verificationReport, if_neg (by simp)]
  rfl

/-- The failure of a chain without the expected head. -/
def headFailure (expectedHead previousHash : Option Str) : IntegrityVerificationFailure :=
  ⟨.headHashMismatch, "Expected chain checkpoint is not present in the current chain.", none, none,
    expectedHead, previousHash⟩

theorem verificationReport_passes {state : VerifierState} {headHash : Option Sha256Digest}
    (validated : Sha256Digest.validateOptional state.previousHash = some headHash) :
    verificationReport platform project total total none expectedHead now (.ok (.ok state)) =
      .ok (if expectedHead ≠ none ∧ state.checkpointSeen = false then
        ⟨project, false, total, state.checkedRecords, headHash, now,
          some (headFailure expectedHead state.previousHash)⟩
      else ⟨project, true, total, state.checkedRecords, headHash, now, none⟩) := by
  rw [verificationReport, if_neg (by simp)]
  simp only [bind, Except.bind, validated, orRaise]
  split <;> rfl

end Report

/-- A natural number read from a value that is at most a 64-bit integer is one. -/
theorem fitsInteger_of_toInt {value : Value} {bound : Int} {n : Nat}
    (below : value.atMost bound = true) (fits : fitsInteger bound = true)
    (read : value.toInt = .ok (n : Int)) : fitsInteger n = true := by
  cases value with
  | integer m fits => exact Except.ok.inj read ▸ fits
  | real x _ =>
    have truncated : x.toInt = n := Except.ok.inj read
    have small : x.val ≤ bound := Value.sizeKey_le_iff.mp (of_decide_eq_true below)
    simp only [fitsInteger, Bool.and_eq_true, decide_eq_true_eq] at fits ⊢
    have under : (n : Int) ≤ max bound 0 := by
      by_cases above : 0 ≤ x.val
      · rw [← truncated, show x.toInt = ⌊x.val⌋ from if_pos above]
        exact le_max_of_le_left (Int.floor_le_iff.mpr (small.trans_lt (lt_add_one _)))
      · rw [← truncated, show x.toInt = ⌈x.val⌉ from if_neg above]
        exact le_max_of_le_right (Int.ceil_le.mpr (by simpa using (not_le.mp above).le))
    omega
  | infinity _ => cases read
  | text bytes => simp at below
  | blob bytes => simp at below

namespace StoredLedger

variable (ledger : StoredLedger) (project : Uuid)

theorem verificationRows_atMost (maxSequence : Int) :
    ∀ row ∈ ledger.verificationRows project maxSequence,
      row.2.sequenceNumber.atMost maxSequence = true := by
  intro row member
  simp only [verificationRows, List.mem_insertionSort, List.mem_flatMap, List.mem_filter,
    List.mem_map] at member
  obtain ⟨i, ⟨-, below⟩, d, -, rfl⟩ := member
  exact below

theorem fetchUnmatched_of_mem {id : Str}
    (unmatched : platform.firstRow.row (ledger.unmatchedRows project) = some id) :
    ledger.fetchUnmatched platform project =
      if isUtf8 id = true then .ok (some id) else .error .operationalError := by
  unfold fetchUnmatched fetched
  rw [unmatched]
  dsimp only
  split <;> rfl

theorem fetchUnmatched_of_matched (matched : ledger.unmatchedRows project = []) :
    ledger.fetchUnmatched platform project = .ok none := by
  rw [fetchUnmatched, (platform.firstRow.row_eq_none_iff _).mpr matched]
  rfl

end StoredLedger

/-- `verify` raises, or returns what it says. -/
theorem verify_outcome (lawful : platform.Lawful) (hex : platform.HexDigests)
    (ledger : StoredLedger) (project : Uuid) (expectedHead : Option Str) (now : Datetime) :
    ((∀ n, ¬ LedgerReadable platform ledger project n) ∧
        ∃ exc, ledger.verify platform project expectedHead now = .error exc) ∨
      ∃ n, LedgerReadable platform ledger project n ∧ ∃ report,
        ledger.verify platform project expectedHead now = .ok report ∧
          LedgerReports platform ledger project (ledger.verificationRows project n) expectedHead now
            report := by
  cases maximum : ledger.maxSequenceNumber project with
  | error exc =>
    left
    refine ⟨fun n readable => ?_, exc, by rw [StoredLedger.verify, maximum]; rfl⟩
    rw [readable.maximum] at maximum
    cases maximum
  | ok n =>
    have only {m : Int} (readable : LedgerReadable platform ledger project m) : m = n :=
      Except.ok.inj (readable.maximum.symm.trans maximum)
    by_cases matched : Matched ledger project
    · have none_unmatched : ∀ id ∈ platform.firstRow.row (ledger.unmatchedRows project),
          isUtf8 id = true ∧ (platform.uuid id).isSome = true := by
        simp [(platform.firstRow.row_eq_none_iff _).mpr matched.unmatched]
      have started : ledger.verify platform project expectedHead now =
          verificationReport platform project (ledger.projectDecisions project).length
            (ledger.projectDecisions project).length none expectedHead now (do
              bindable n
              StoredLedger.verifyLoop platform expectedHead ⟨none, 0, expectedHead.isNone⟩
                (ledger.verificationRows project n)) := by
        rw [StoredLedger.verify, maximum, ledger.fetchUnmatched_of_matched project matched.unmatched,
          matched.counts]
        rfl
      rw [started]
      by_cases fits : fitsInteger n = true
      · have readable_iff : WalkReadable platform (ledger.verificationRows project n) 0 none →
            LedgerReadable platform ledger project n := fun walk =>
          ⟨maximum, none_unmatched, fun _ => fits, fun _ => walk⟩
        have outcome := verifyLoop_outcome lawful hex expectedHead ⟨none, 0, expectedHead.isNone⟩
          (ledger.verificationRows project n) (fun row member k read =>
            fitsInteger_of_toInt (ledger.verificationRows_atMost project n row member) fits read)
          (by simp)
        rw [bindable, if_pos fits]
        simp only [bind, Except.bind]
        generalize StoredLedger.verifyLoop platform expectedHead ⟨none, 0, expectedHead.isNone⟩
          (ledger.verificationRows project n) = result at outcome ⊢
        cases outcome with
        | raises exc unreadable =>
          left
          refine ⟨fun m readable => unreadable ?_, exc, ?_⟩
          · obtain rfl := only readable
            exact readable.walk matched
          · exact verificationReport_raises
        | fails failure checked row readable reached id number check =>
          right
          simp only [Nat.zero_add] at number check ⊢
          exact ⟨n, readable_iff readable, _, verificationReport_fails,
            .record failure checked row matched reached check id number⟩
        | passes readable passed =>
          right
          dsimp only at readable passed
          obtain ⟨headHash, validated⟩ :=
            (validateOptional_isSome _).mpr (passed.walkedHash_hex hex (by simp))
          have head := validateOptional_map _ _ validated
          refine ⟨n, readable_iff readable, _, verificationReport_passes validated, ?_⟩
          simp only [VerifierState.passed, Nat.zero_add]
          split
          next unseen =>
            simp only [Bool.or_eq_false_iff, List.any_eq_false, decide_eq_true_eq] at unseen
            exact .head _ headHash matched passed unseen.1 unseen.2.2 rfl head
          next seen =>
            refine .verified headHash matched passed ?_ head
            cases expectedHead with
            | none => exact .inl rfl
            | some h =>
              right
              simpa using seen
      · left
        refine ⟨fun m readable => fits ?_, .overflowError, ?_⟩
        · obtain rfl := only readable
          exact readable.bound matched
        · rw [bindable, if_neg fits]
          exact verificationReport_raises
    · have readable_of (unmatched : ∀ id ∈ platform.firstRow.row (ledger.unmatchedRows project),
          isUtf8 id = true ∧ (platform.uuid id).isSome = true) :
          LedgerReadable platform ledger project n :=
        ⟨maximum, unmatched, fun same => absurd same matched, fun same => absurd same matched⟩
      have reported : LedgerReports platform ledger project (ledger.verificationRows project n)
          expectedHead now (failedReport ledger project now 0 none
            (countFailure (ledger.projectDecisions project).length
              (ledger.projectIntegrity project).length
              ((platform.firstRow.row (ledger.unmatchedRows project)).bind platform.uuid))) :=
        .unmatched _ matched rfl rfl
      cases found : platform.firstRow.row (ledger.unmatchedRows project) with
      | none =>
        have empty := (platform.firstRow.row_eq_none_iff _).mp found
        have differ : (ledger.projectIntegrity project).length ≠
            (ledger.projectDecisions project).length := fun counts => matched ⟨counts, empty⟩
        right
        rw [found] at reported
        refine ⟨n, readable_of (by simp [found]), _, ?_, reported⟩
        rw [StoredLedger.verify, maximum, ledger.fetchUnmatched_of_matched project empty]
        exact verificationReport_mismatch (.inl differ) (by simp)
      | some id =>
        have fetch := ledger.fetchUnmatched_of_mem project found
        by_cases utf8 : isUtf8 id = true
        · rw [if_pos utf8] at fetch
          cases known : platform.uuid id with
          | none =>
            left
            refine ⟨fun m readable => ?_, .valueError, ?_⟩
            · have named := (readable.unmatched id found).2
              simp [known] at named
            · rw [StoredLedger.verify, maximum, fetch]
              exact verificationReport_unnamed known
          | some u =>
            right
            have named : ∀ other ∈ some id, (platform.uuid other).isSome = true := by
              rintro other ⟨⟩
              simp [known]
            rw [found] at reported
            refine ⟨n, readable_of ?_, _, ?_, reported⟩
            · rw [found]
              exact fun other same => ⟨Option.mem_some.mp same ▸ utf8, named other same⟩
            · rw [StoredLedger.verify, maximum, fetch]
              exact verificationReport_mismatch (.inr (by simp)) named
        · rw [if_neg utf8] at fetch
          left
          refine ⟨fun m readable => utf8 (readable.unmatched id found).1, .operationalError, ?_⟩
          rw [StoredLedger.verify, maximum, fetch]
          rfl

theorem fits_one : fitsInteger 1 = true := by decide

end DecAustrum
