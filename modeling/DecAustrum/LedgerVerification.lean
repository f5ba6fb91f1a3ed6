import DecAustrum.Storage.Integrity

/-!
# Accepted ledgers

What `verify` establishes of the rows it accepts, and that rows with these properties are
accepted.
-/
namespace DecAustrum

open Python HashChain

/-- A row of the verifier's query with the decision rebuilt from it. -/
structure CheckedRow where
  decision : DecisionRow
  integrity : IntegrityRow
  authorization : AuthorizationResponse

def CheckedRow.row (r : CheckedRow) : DecisionRow × IntegrityRow := (r.decision, r.integrity)

/-- The envelope fields the record hash of a checked row is taken of. -/
def CheckedRow.fields (r : CheckedRow) : EnvelopeFields :=
  ⟨r.authorization.evaluatedAt.json, r.authorization.decisionId, r.integrity.payloadHash,
    r.integrity.previousHash, r.authorization.projectId, r.integrity.sequenceNumber⟩

section

variable (platform : Platform)

/-- A record hash belongs to its envelope. -/
def EnvelopeHashes (e : EnvelopeFields) (hash : Str) : Prop := digest platform e.envelope = .ok hash

/-- The checks of one row. -/
structure RowAccepted (sequence : Nat) (previousHash : Option Str) (r : CheckedRow) : Prop where
  readableId : (platform.uuid r.decision.decisionId).isSome = true
  sequence : r.integrity.sequenceNumber = sequence
  previous : r.integrity.previousHash = previousHash
  algorithm : r.integrity.algorithm = integrityAlgorithm
  schema : r.integrity.schemaVersion = integritySchemaVersion
  rebuilt : rowToAuthorization platform r.decision = .ok r.authorization
  created :
    platform.fromIsoformat r.integrity.createdAt = some r.authorization.evaluatedAt.moment
  payload : calculateAuthorizationPayloadHash platform r.authorization = .ok r.integrity.payloadHash
  record : EnvelopeHashes platform r.fields r.integrity.recordHash

/-- The checks of a run of rows, from the number of records and the hash before it. -/
inductive Accepted : Nat → Option Str → List CheckedRow → Prop
  | nil (count : Nat) (last : Option Str) : Accepted count last []
  | cons {count : Nat} {last : Option Str} {rest : List CheckedRow} (r : CheckedRow)
      (row : RowAccepted platform (count + 1) last r)
      (continues : Accepted (count + 1) (some r.integrity.recordHash) rest) :
      Accepted count last (r :: rest)

end

variable {platform : Platform}

theorem checkRow_eq_ok_iff (sequence : Nat) (previousHash : Option Str) (d : DecisionRow)
    (i : IntegrityRow) (a : AuthorizationResponse) :
    checkRow platform sequence previousHash d i = .ok (.ok a) ↔
      RowAccepted platform sequence previousHash ⟨d, i, a⟩ := by
  constructor
  · intro checked
    unfold checkRow checkRecordRow at checked
    cases id : platform.uuid d.decisionId with
    | none => simp [id, orRaise, bind, Except.bind] at checked
    | some u =>
      simp only [id, orRaise, bind, Except.bind, pure, Except.pure] at checked
      split at checked
      · cases checked
      split at checked
      · cases checked
      split at checked
      · cases checked
      split at checked
      · cases checked
      next sequenceOk previousOk algorithmOk schemaOk =>
      cases rebuilt : rowToAuthorization platform d with
      | error exc => simp [rebuilt] at checked
      | ok authorization =>
        simp only [rebuilt] at checked
        split at checked
        · cases checked
        next createdOk =>
        cases payload : calculateAuthorizationPayloadHash platform authorization with
        | error exc => simp [payload] at checked
        | ok payloadHash =>
          simp only [payload] at checked
          split at checked
          · cases checked
          next payloadOk =>
          cases record : calculateIntegrityRecordHash platform authorization sequence previousHash
              payloadHash with
          | error exc => simp [record] at checked
          | ok recordHash =>
            simp only [record] at checked
            split at checked
            · cases checked
            next recordOk =>
            simp only [ne_eq, Decidable.not_not] at *
            cases checked
            exact
              { readableId := by simp [id]
                sequence := sequenceOk
                previous := previousOk
                algorithm := algorithmOk
                schema := schemaOk
                rebuilt := rebuilt
                created := createdOk
                payload := by rw [payloadOk]; exact payload
                record := by
                  change digest platform (integrityRecordEnvelope _ _ _ i.payloadHash i.previousHash
                    _ _ i.sequenceNumber) = .ok i.recordHash
                  rw [payloadOk, previousOk, sequenceOk, recordOk]
                  exact ((recordHash_eq_ok platform ..).mp record).2 }
  · intro accepted
    obtain ⟨u, id⟩ := Option.isSome_iff_exists.mp accepted.readableId
    have payload : calculateAuthorizationPayloadHash platform a = .ok i.payloadHash :=
      accepted.payload
    have record : calculateIntegrityRecordHash platform a sequence previousHash i.payloadHash =
        .ok i.recordHash := by
      have hashed := accepted.record
      rw [← accepted.previous, recordHash_eq_ok, ← accepted.sequence]
      exact ⟨((payloadHash_eq_ok platform a _).mp payload).1, hashed⟩
    have sequenceOk := accepted.sequence
    have previousOk := accepted.previous
    have algorithmOk := accepted.algorithm
    have schemaOk := accepted.schema
    have createdOk := accepted.created
    have rebuilt := accepted.rebuilt
    simp only at id sequenceOk previousOk algorithmOk schemaOk createdOk rebuilt
    simp [checkRow, checkRecordRow, id, orRaise, bind, Except.bind, pure, Except.pure, sequenceOk,
      previousOk, algorithmOk, schemaOk, rebuilt, createdOk, payload, record]

/-! ## The loop -/

/-- The hash the record after `rows` has to name. -/
def hashAfter (start : Option Str) (rows : List CheckedRow) : Option Str :=
  rows.foldl (fun _ r => some r.integrity.recordHash) start

/-- The state the loop ends in when it accepts every row. -/
def VerifierState.after (expectedHead : Option Str) (state : VerifierState)
    (rows : List CheckedRow) : VerifierState :=
  ⟨hashAfter state.previousHash rows, state.checkedRecords + rows.length,
    state.checkpointSeen || rows.any fun r => decide (some r.integrity.recordHash = expectedHead)⟩

theorem verifyLoop_eq_ok_iff (expectedHead : Option Str) (state final : VerifierState)
    (rows : List (DecisionRow × IntegrityRow)) :
    verifyLoop platform expectedHead state rows = .ok (.ok final) ↔
      ∃ checked : List CheckedRow, checked.map CheckedRow.row = rows ∧
        Accepted platform state.checkedRecords state.previousHash checked ∧
        final = state.after expectedHead checked := by
  induction rows generalizing state with
  | nil =>
    constructor
    · intro looped
      cases looped
      exact ⟨[], rfl, .nil _ _, by simp [VerifierState.after, hashAfter]⟩
    · rintro ⟨checked, same, -, rfl⟩
      obtain rfl := List.map_eq_nil_iff.mp same
      simp [verifyLoop, walkRecords, VerifierState.after, hashAfter]
  | cons row rest ih =>
    obtain ⟨d, i⟩ := row
    rw [verifyLoop]
    constructor
    · intro looped
      cases outcome : checkRow platform (state.checkedRecords + 1) state.previousHash d i with
      | error exc =>
        rw [walkRecords_raises outcome] at looped
        cases looped
      | ok result =>
        cases result with
        | error failure =>
          rw [walkRecords_fails outcome] at looped
          cases looped
        | ok a =>
          rw [walkRecords_passes outcome] at looped
          rcases (ih _).mp looped with ⟨checked, rfl, accepted, rfl⟩
          refine ⟨⟨d, i, a⟩ :: checked, rfl,
            .cons _ ((checkRow_eq_ok_iff _ _ d i a).mp outcome) accepted, ?_⟩
          simp only [VerifierState.after, hashAfter, List.foldl_cons, List.length_cons,
            List.any_cons, Bool.or_assoc, VerifierState.mk.injEq, true_and, and_true]
          omega
    · rintro ⟨checked, same, accepted, rfl⟩
      cases checked with
      | nil => cases same
      | cons r checked =>
        simp only [List.map_cons, List.cons.injEq, CheckedRow.row, Prod.mk.injEq] at same
        obtain ⟨⟨rfl, rfl⟩, rfl⟩ := same
        cases accepted with
        | cons _ row continues =>
          have outcome := (checkRow_eq_ok_iff (state.checkedRecords + 1) state.previousHash _ _
            r.authorization).mpr row
          rw [walkRecords_passes outcome]
          refine (ih _).mpr ⟨checked, rfl, continues, ?_⟩
          simp only [VerifierState.after, hashAfter, List.foldl_cons, List.length_cons,
            List.any_cons, Bool.or_assoc, VerifierState.mk.injEq, true_and, and_true]
          omega

/-! ## The verifier -/

/-- What `verify` accepts: tables that match row for row, a chain whose every row passes, and
the expected head among its hashes. -/
structure Verifies (platform : Platform) (ledger : Ledger) (project : Uuid)
    (expectedHead : Option Str) (checked : List CheckedRow) : Prop where
  counts : (ledger.projectIntegrity project).length = (ledger.projectDecisions project).length
  matched : ledger.unmatchedRows project = []
  rows : checked.map CheckedRow.row =
    ledger.verificationRows project (ledger.maxSequenceNumber project)
  accepted : Accepted platform 0 none checked
  checkpoint : expectedHead = none ∨ ∃ r ∈ checked, some r.integrity.recordHash = expectedHead
  headForm : ∀ h, hashAfter none checked = some h → isSha256Digest h = true

/-- The report of an accepted ledger. -/
def verifiedReport (ledger : Ledger) (project : Uuid) (now : Datetime) (checked : List CheckedRow)
    (headHash : Option Sha256Digest) : DecisionIntegrityVerification :=
  ⟨project, true, (ledger.projectDecisions project).length, checked.length, headHash, now, none⟩

theorem validateOptional_isSome (hash : Option Str) :
    (∃ d, Sha256Digest.validateOptional hash = some d) ↔
      ∀ h, hash = some h → isSha256Digest h = true := by
  cases hash with
  | none => simp [Sha256Digest.validateOptional]
  | some h =>
    simp only [Sha256Digest.validateOptional, Sha256Digest.validate, Option.some.injEq, forall_eq']
    split
    · next pattern => simp [pattern]
    · next pattern => simp [pattern]

theorem verify_verified_iff (ledger : Ledger) (project : Uuid) (expectedHead : Option Str)
    (now : Datetime) (report : DecisionIntegrityVerification) :
    (ledger.verify platform project expectedHead now = .ok report ∧ report.verified = true) ↔
      ∃ checked headHash, Verifies platform ledger project expectedHead checked ∧
        Sha256Digest.validateOptional (hashAfter none checked) = some headHash ∧
        report = verifiedReport ledger project now checked headHash := by
  constructor
  · rintro ⟨verified, positive⟩
    unfold Ledger.verify verificationReport at verified
    simp only [bind, Except.bind, pure, Except.pure] at verified
    split at verified
    · cases unmatched : platform.firstRow.row (ledger.unmatchedRows project) with
      | none =>
        simp only [unmatched, Except.ok.injEq] at verified
        simp [← verified] at positive
      | some text =>
        cases id : platform.uuid text <;>
          simp only [unmatched, id, orRaise, Except.map, Except.ok.injEq, reduceCtorEq] at verified
        simp [← verified] at positive
    next sane =>
    simp only [ne_eq, not_or, Decidable.not_not, FirstRow.row_eq_none_iff] at sane
    cases looped : verifyLoop platform expectedHead ⟨none, 0, expectedHead.isNone⟩
        (ledger.verificationRows project (ledger.maxSequenceNumber project)) with
    | error exc => simp [looped] at verified
    | ok outcome =>
      cases outcome with
      | error failure =>
        simp only [looped] at verified
        cases verified
        cases positive
      | ok final =>
        rcases (verifyLoop_eq_ok_iff ..).mp looped with ⟨checked, rows, accepted, rfl⟩
        simp only [looped, VerifierState.after] at verified
        cases head : Sha256Digest.validateOptional (hashAfter none checked) with
        | none => simp [head, orRaise] at verified
        | some headHash =>
          simp only [head, orRaise] at verified
          split at verified
          · cases verified
            cases positive
          next seen =>
          cases verified
          refine ⟨checked, headHash, ⟨sane.1, sane.2, rows, accepted, ?_, ?_⟩, head, ?_⟩
          · cases expectedHead with
            | none => exact .inl rfl
            | some h =>
              refine .inr ?_
              simpa using seen
          · exact (validateOptional_isSome _).mp ⟨headHash, head⟩
          · simp [verifiedReport]
  · rintro ⟨checked, headHash, verifies, head, rfl⟩
    obtain ⟨final, looped, previous, count, seen⟩ : ∃ final,
        verifyLoop platform expectedHead ⟨none, 0, expectedHead.isNone⟩
          (ledger.verificationRows project (ledger.maxSequenceNumber project)) = .ok (.ok final) ∧
        final.previousHash = hashAfter none checked ∧ final.checkedRecords = checked.length ∧
        ¬ (expectedHead ≠ none ∧ final.checkpointSeen = false) := by
      refine ⟨_, (verifyLoop_eq_ok_iff ..).mpr ⟨checked, verifies.rows, verifies.accepted, rfl⟩, rfl,
        Nat.zero_add _, ?_⟩
      rintro ⟨expected, unseen⟩
      rcases verifies.checkpoint with absent | ⟨r, member, found⟩
      · exact expected absent
      · simp only [VerifierState.after, Bool.or_eq_false_iff, List.any_eq_false,
          decide_eq_true_eq] at unseen
        exact unseen.2 r member found
    refine ⟨?_, rfl⟩
    have matched := (platform.firstRow.row_eq_none_iff _).mpr verifies.matched
    unfold Ledger.verify verificationReport
    simp only [bind, Except.bind, pure, Except.pure, verifies.counts, matched, looped,
      previous, head, orRaise]
    rw [if_neg (by simp), if_neg seen, count]
    rfl

/-! ## The chain of an accepted run -/

theorem Accepted.walk {count : Nat} {last : Option Str} {checked : List CheckedRow}
    (accepted : Accepted platform count last checked) :
    Walk (EnvelopeHashes platform) EnvelopeFields.previousHash last
      (checked.map CheckedRow.fields) (hashAfter last checked) := by
  induction accepted with
  | nil => exact .done _
  | cons r row _ ih => exact .step r.fields r.integrity.recordHash row.previous row.record ih

theorem Accepted.take {count : Nat} {last : Option Str} {front back : List CheckedRow}
    (accepted : Accepted platform count last (front ++ back)) :
    Accepted platform count last front := by
  induction front generalizing count last with
  | nil => exact .nil _ _
  | cons r front ih =>
    cases accepted with
    | cons _ row continues => exact .cons r row (ih continues)

theorem Accepted.payload {count : Nat} {last : Option Str} {checked : List CheckedRow}
    (accepted : Accepted platform count last checked) :
    ∀ r ∈ checked, rowToAuthorization platform r.decision = .ok r.authorization ∧
      calculateAuthorizationPayloadHash platform r.authorization = .ok r.integrity.payloadHash := by
  induction accepted with
  | nil => simp
  | cons r row _ ih =>
    intro s member
    rcases List.mem_cons.mp member with rfl | later
    · exact ⟨row.rebuilt, row.payload⟩
    · exact ih s later

theorem hashAfter_snoc (start : Option Str) (rows : List CheckedRow) (r : CheckedRow) :
    hashAfter start (rows ++ [r]) = some r.integrity.recordHash := by
  simp [hashAfter]

/-! ## The chain in the table -/

private theorem le_foldl_max (start : Int) (values : List Int) :
    start ≤ values.foldl max start ∧ ∀ v ∈ values, v ≤ values.foldl max start := by
  induction values generalizing start with
  | nil => simp
  | cons v values ih =>
    have bounds := ih (max start v)
    rw [List.foldl_cons]
    refine ⟨le_trans (le_max_left _ _) bounds.1, ?_⟩
    intro w member
    rcases List.mem_cons.mp member with rfl | later
    · exact le_trans (le_max_right _ _) bounds.1
    · exact bounds.2 w later

theorem le_maxSequenceNumber (ledger : Ledger) (project : Uuid) :
    ∀ i ∈ ledger.projectIntegrity project, i.sequenceNumber ≤ ledger.maxSequenceNumber project := by
  intro i member
  unfold Ledger.maxSequenceNumber
  cases rows : ledger.projectIntegrity project with
  | nil => simp [rows] at member
  | cons first rest =>
    have bounds := le_foldl_max first.sequenceNumber (rest.map (·.sequenceNumber))
    rw [rows] at member
    rcases List.mem_cons.mp member with rfl | later
    · exact bounds.1
    · exact bounds.2 _ (List.mem_map_of_mem later)

private theorem filter_matchRow (ledger : Ledger) (i : IntegrityRow)
    (distinct : (ledger.decisions.map (·.decisionId)).Nodup)
    (present : ledger.decisions.any (fun d => Ledger.matchRow d i) = true) :
    (ledger.decisions.filter fun d => Ledger.matchRow d i).length = 1 := by
  obtain ⟨d, member, found⟩ := List.any_eq_true.mp present
  have only : (ledger.decisions.filter fun d => Ledger.matchRow d i) = [d] := by
    rw [List.filter_eq_cons_iff]
    obtain ⟨front, back, split⟩ := List.append_of_mem member
    refine ⟨front, back, split, ?_, found, ?_⟩
    all_goals
      rw [split, List.map_append, List.map_cons, List.nodup_append, List.nodup_cons] at distinct
      simp only [Ledger.matchRow, Bool.and_eq_true, decide_eq_true_eq] at found
    · intro e inside
      simp only [Ledger.matchRow, Bool.and_eq_true, decide_eq_true_eq, not_and]
      intro same
      exact absurd (same.trans found.1.symm) (distinct.2.2 e.decisionId
        (List.mem_map_of_mem inside) d.decisionId (by simp))
    · rw [List.filter_eq_nil_iff]
      intro e inside
      simp only [Ledger.matchRow, Bool.and_eq_true, decide_eq_true_eq, not_and]
      intro same
      exact absurd (List.mem_map.mpr ⟨e, inside, same.trans found.1.symm⟩) distinct.2.1.1
  rw [only]
  rfl

/-- Where every record has its decision, the verifier walks the whole chain of the table. -/
theorem verificationRows_chain (ledger : Ledger) (project : Uuid) (keys : ledger.Keys)
    (matched : ledger.unmatchedRows project = []) :
    (ledger.verificationRows project (ledger.maxSequenceNumber project)).map Prod.snd =
      ledger.chain project := by
  have owned : ∀ i ∈ ledger.projectIntegrity project,
      ledger.decisions.any (fun d => Ledger.matchRow d i) = true := by
    intro i member
    rw [Ledger.unmatchedRows, List.append_eq_nil_iff, List.map_eq_nil_iff, List.map_eq_nil_iff,
      List.filter_eq_nil_iff, List.filter_eq_nil_iff] at matched
    simpa using matched.2 i member
  have all : (ledger.projectIntegrity project).filter
      (fun i => i.sequenceNumber ≤ ledger.maxSequenceNumber project) =
      ledger.projectIntegrity project := by
    rw [List.filter_eq_self]
    intro i member
    simpa using le_maxSequenceNumber ledger project i member
  rw [Ledger.verificationRows, Ledger.chain, all,
    List.map_insertionSort (r := Ledger.sequenceLe) (s := Ledger.recordLe) Prod.snd _
      fun _ _ _ _ => Iff.rfl]
  congr 1
  rw [List.map_flatMap]
  generalize ledger.projectIntegrity project = rows at owned
  induction rows with
  | nil => rfl
  | cons i rows ih =>
    have one := filter_matchRow ledger i keys.decisionId (owned i (by simp))
    obtain ⟨d, only⟩ := List.length_eq_one_iff.mp one
    rw [List.flatMap_cons, only, ih fun j member => owned j (List.mem_cons_of_mem _ member)]
    rfl

theorem mem_verificationRows (ledger : Ledger) (project : Uuid) (maxSequence : Int)
    (row : DecisionRow × IntegrityRow) (member : row ∈ ledger.verificationRows project maxSequence) :
    row.1 ∈ ledger.decisions ∧ row.2 ∈ ledger.projectIntegrity project ∧
      Ledger.matchRow row.1 row.2 = true := by
  simp only [Ledger.verificationRows, List.mem_insertionSort, List.mem_flatMap, List.mem_map,
    List.mem_filter] at member
  rcases member with ⟨i, ⟨present, -⟩, d, ⟨stored, found⟩, rfl⟩
  exact ⟨stored, present, found⟩

end DecAustrum
