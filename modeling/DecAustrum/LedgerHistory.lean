import DecAustrum.LedgerVerification
import DecAustrum.StoredDecisions
import DecAustrum.Storage.LedgerWrites

/-!
# The history of a ledger

Every state the program brings a ledger to has, for each project, a history: the decisions
in the order they were recorded, with the proofs built for them. The history accounts for
every row of the project.
-/
namespace DecAustrum

open Python HashChain

/-! ## Built proofs -/

def DecisionIntegrityProof.fields (proof : DecisionIntegrityProof) : EnvelopeFields :=
  ⟨proof.createdAt.json, proof.decisionId, proof.payloadHash.val, proof.previousHash.map (·.val),
    proof.projectId, proof.sequenceNumber⟩

/-- A decision and the proof of its record. -/
structure Entry where
  authorization : AuthorizationResponse
  proof : DecisionIntegrityProof

def Entry.row (e : Entry) : IntegrityRow := integrityRow e.proof

def lastHash (entries : List Entry) : Option Str :=
  entries.getLast?.map fun e => e.proof.recordHash.val

section

variable (platform : Platform)

/-- What `build_decision_integrity_proof` puts into a proof. -/
structure ProofBuilt (a : AuthorizationResponse) (sequenceNumber : Int) (previousHash : Option Str)
    (proof : DecisionIntegrityProof) : Prop where
  decisionId : proof.decisionId = a.decisionId
  projectId : proof.projectId = a.projectId
  sequence : proof.sequenceNumber = sequenceNumber
  previous : proof.previousHash.map (·.val) = previousHash
  createdAt : proof.createdAt = a.evaluatedAt
  payload : calculateAuthorizationPayloadHash platform a = .ok proof.payloadHash.val
  record : EnvelopeHashes platform proof.fields proof.recordHash.val

/-- The history of a project: each proof is built at the next number on the last hash. -/
inductive Built (project : Uuid) : List Entry → Prop
  | nil : Built project []
  | snoc {entries : List Entry} (e : Entry) (before : Built project entries)
      (owned : e.authorization.projectId = project)
      (built : ProofBuilt platform e.authorization (entries.length + 1) (lastHash entries) e.proof) :
      Built project (entries ++ [e])

end

variable {platform : Platform}

theorem validateOptional_map (previous : Option Str) (checked : Option Sha256Digest)
    (validated : Sha256Digest.validateOptional previous = some checked) :
    checked.map (·.val) = previous := by
  cases previous with
  | none =>
    cases validated
    rfl
  | some s =>
    simp only [Sha256Digest.validateOptional, Option.map_eq_some_iff] at validated
    rcases validated with ⟨d, found, rfl⟩
    rw [(Sha256Digest.validate_eq_some s d).mp found]
    rfl

private theorem make_eq_some (decisionId projectId : Uuid) (sequenceNumber : Int)
    (previousHash : Option Str) (payloadHash recordHash : Str) (createdAt : Datetime)
    (proof : DecisionIntegrityProof)
    (made : DecisionIntegrityProof.make decisionId projectId sequenceNumber previousHash payloadHash
      recordHash createdAt = some proof) :
    proof.decisionId = decisionId ∧ proof.projectId = projectId ∧
      proof.sequenceNumber = sequenceNumber ∧ proof.previousHash.map (·.val) = previousHash ∧
      proof.payloadHash.val = payloadHash ∧ proof.recordHash.val = recordHash ∧
      proof.createdAt = createdAt := by
  unfold DecisionIntegrityProof.make at made
  cases previous : Sha256Digest.validateOptional previousHash with
  | none => simp [previous] at made
  | some checked =>
    cases payload : Sha256Digest.validate payloadHash with
    | none => simp [previous, payload] at made
    | some payloadDigest =>
      cases record : Sha256Digest.validate recordHash with
      | none => simp [previous, payload, record] at made
      | some recordDigest =>
        simp only [previous, payload, record, Option.bind_eq_bind, Option.bind_some] at made
        split at made
        · cases made
          exact ⟨rfl, rfl, rfl, validateOptional_map _ _ previous,
            ((Sha256Digest.validate_eq_some _ _).mp payload).symm,
            ((Sha256Digest.validate_eq_some _ _).mp record).symm, rfl⟩
        · cases made

theorem buildDecisionIntegrityProof_spec (a : AuthorizationResponse) (sequenceNumber : Int)
    (previousHash : Option Str) (proof : DecisionIntegrityProof)
    (built : buildDecisionIntegrityProof platform a sequenceNumber previousHash = .ok proof) :
    ProofBuilt platform a sequenceNumber previousHash proof := by
  unfold buildDecisionIntegrityProof at built
  cases payload : calculateAuthorizationPayloadHash platform a with
  | error exc => simp [payload, bind, Except.bind] at built
  | ok payloadHash =>
    cases record : calculateIntegrityRecordHash platform a sequenceNumber previousHash payloadHash with
    | error exc => simp [payload, record, bind, Except.bind] at built
    | ok recordHash =>
      simp only [payload, record, bind, Except.bind, orRaise_eq_ok] at built
      have made := make_eq_some _ _ _ _ _ _ _ proof built
      obtain ⟨decisionId, projectId, sequence, previous, payloadDigest, recordDigest, createdAt⟩ :=
        made
      refine ⟨decisionId, projectId, sequence, previous, createdAt, ?_, ?_⟩
      · rw [payloadDigest]
        exact payload
      · unfold EnvelopeHashes EnvelopeFields.envelope DecisionIntegrityProof.fields
        simp only [decisionId, projectId, sequence, previous, payloadDigest, recordDigest, createdAt]
        exact ((recordHash_eq_ok platform ..).mp record).2

namespace Built

variable {project : Uuid} {entries : List Entry}

theorem mem (built : Built platform project entries) : ∀ e ∈ entries,
    e.authorization.projectId = project ∧
      ∃ sequence previous, ProofBuilt platform e.authorization sequence previous e.proof := by
  induction built with
  | nil => simp
  | snoc e before owned proved ih =>
    intro f member
    rcases List.mem_append.mp member with earlier | last
    · exact ih f earlier
    · obtain rfl := List.mem_singleton.mp last
      exact ⟨owned, _, _, proved⟩

theorem projectId (built : Built platform project entries) :
    ∀ e ∈ entries, e.proof.projectId = project := by
  intro e member
  obtain ⟨owned, _, _, proved⟩ := built.mem e member
  exact proved.projectId.trans owned

theorem sequences (built : Built platform project entries) :
    entries.map (fun e => e.proof.sequenceNumber) =
      (List.range entries.length).map fun n : Nat => (n : Int) + 1 := by
  induction built with
  | nil => rfl
  | snoc e before _ proved ih =>
    rw [List.map_append, ih, List.length_append, List.length_singleton, List.range_succ,
      List.map_append]
    simp [proved.sequence]

theorem linked (built : Built platform project entries) :
    Linked (EnvelopeHashes platform) EnvelopeFields.previousHash
      (entries.map fun e => e.proof.fields) (lastHash entries) := by
  induction built with
  | nil => exact .nil
  | snoc e before _ proved ih =>
    rw [List.map_append, lastHash, List.getLast?_concat]
    exact ih.snoc e.proof.fields e.proof.recordHash.val proved.previous proved.record

/-- Rows of a history are already in sequence. -/
theorem sorted (built : Built platform project entries) :
    (entries.map Entry.row).Pairwise Ledger.recordLe := by
  have ascending : ((List.range entries.length).map fun n : Nat => (n : Int) + 1).Pairwise (· ≤ ·) := by
    rw [List.pairwise_map]
    exact List.pairwise_lt_range.imp fun below => by omega
  rw [← built.sequences, List.pairwise_map] at ascending
  rw [List.pairwise_map]
  exact ascending

end Built

/-! ## Histories -/

section

variable (platform : Platform)

/-- The row is read back as the decision, or as the decision with the context of its column. -/
def ReadBack (d : DecisionRow) (a : AuthorizationResponse) : Prop :=
  rowToAuthorization platform d = .ok a ∨ rowToAuthorization platform d = .ok a.stored

/-- The history accounts for the records of a project, and every record for its decision. -/
structure Recorded (ledger : Ledger) (project : Uuid) (entries : List Entry) : Prop where
  built : Built platform project entries
  records : ledger.projectIntegrity project = entries.map Entry.row
  covered : ∀ e ∈ entries, ∃ d ∈ ledger.decisions, Ledger.matchRow d e.row = true ∧
    ReadBack platform d e.authorization

/-- The decisions joined to the records of the history are read back with the payloads that
were hashed. -/
def Rehashes (ledger : Ledger) (entries : List Entry) : Prop :=
  ∀ e ∈ entries, ∀ d ∈ ledger.decisions, Ledger.matchRow d e.row = true →
    ∀ a, rowToAuthorization platform d = .ok a →
      calculateAuthorizationPayloadHash platform a = .ok e.proof.payloadHash.val

end

/-- What is read back has the other fields of the decision. -/
theorem ReadBack.context {d : DecisionRow} {a : AuthorizationResponse}
    (read : ReadBack platform d a) :
    ∃ context, rowToAuthorization platform d = .ok { a with context := context } := by
  rcases read with same | stored
  · exact ⟨a.context, same⟩
  · exact ⟨a.context.stored, stored⟩

/-- The history accounts for the decisions of a project. -/
def Complete (ledger : Ledger) (project : Uuid) (entries : List Entry) : Prop :=
  ∀ d ∈ ledger.projectDecisions project, ∃ e ∈ entries, Ledger.matchRow d e.row = true

/-- A record belongs to one decision. -/
theorem Ledger.Keys.decision_eq {ledger : Ledger} (keys : ledger.Keys) {d d' : DecisionRow}
    {i : IntegrityRow} (stored : d ∈ ledger.decisions) (stored' : d' ∈ ledger.decisions)
    (matched : Ledger.matchRow d i = true) (matched' : Ledger.matchRow d' i = true) : d = d' := by
  simp only [Ledger.matchRow, Bool.and_eq_true, decide_eq_true_eq] at matched matched'
  exact List.inj_on_of_nodup_map keys.decisionId stored stored' (matched.1.trans matched'.1.symm)

namespace Recorded

variable {ledger : Ledger} {project : Uuid} {entries : List Entry}

theorem chain_eq (recorded : Recorded platform ledger project entries) :
    ledger.chain project = entries.map Entry.row := by
  rw [Ledger.chain, recorded.records]
  have trans : IsTrans IntegrityRow Ledger.recordLe := ⟨fun _ _ _ => le_trans⟩
  have total : Std.Total Ledger.recordLe :=
    ⟨fun a b => le_total a.sequenceNumber b.sequenceNumber⟩
  exact recorded.built.sorted.insertionSort_eq

theorem row_mem (recorded : Recorded platform ledger project entries) :
    ∀ e ∈ entries, e.row ∈ ledger.projectIntegrity project := by
  intro e member
  rw [recorded.records]
  exact List.mem_map_of_mem member

theorem decision_mem (recorded : Recorded platform ledger project entries) (e : Entry)
    (member : e ∈ entries) (d : DecisionRow) (stored : d ∈ ledger.decisions)
    (matched : Ledger.matchRow d e.row = true) : d ∈ ledger.projectDecisions project := by
  simp only [Ledger.matchRow, Bool.and_eq_true, decide_eq_true_eq] at matched
  have owned : e.row.projectId = project.str := congrArg Uuid.str (recorded.built.projectId e member)
  exact List.mem_filter.mpr ⟨stored, by simp [matched.2, owned]⟩

theorem unmatched (recorded : Recorded platform ledger project entries)
    (complete : Complete ledger project entries) : ledger.unmatchedRows project = [] := by
  have decisions : (ledger.projectDecisions project).filter
      (fun d => !ledger.integrity.any (Ledger.matchRow d)) = [] := by
    rw [List.filter_eq_nil_iff]
    intro d member
    obtain ⟨e, inside, matched⟩ := complete d member
    have stored : e.row ∈ ledger.integrity := List.mem_of_mem_filter (recorded.row_mem e inside)
    simpa using ⟨e.row, stored, matched⟩
  have records : (ledger.projectIntegrity project).filter
      (fun i => !ledger.decisions.any fun d => Ledger.matchRow d i) = [] := by
    rw [List.filter_eq_nil_iff]
    intro i member
    rw [recorded.records] at member
    obtain ⟨e, inside, rfl⟩ := List.mem_map.mp member
    obtain ⟨d, stored, matched, -⟩ := recorded.covered e inside
    simpa using ⟨d, stored, matched⟩
  rw [Ledger.unmatchedRows, decisions, records]
  rfl

/-- Both tables hold the same decision ids, each once. -/
theorem counts (recorded : Recorded platform ledger project entries)
    (complete : Complete ledger project entries) (keys : ledger.Keys) :
    (ledger.projectIntegrity project).length = (ledger.projectDecisions project).length := by
  have recordIds : ((ledger.projectIntegrity project).map (·.decisionId)).Nodup :=
    keys.integrityId.sublist (List.filter_sublist.map _)
  have decisionIds : ((ledger.projectDecisions project).map (·.decisionId)).Nodup :=
    keys.decisionId.sublist (List.filter_sublist.map _)
  have same : ((ledger.projectIntegrity project).map (·.decisionId)).Perm
      ((ledger.projectDecisions project).map (·.decisionId)) := by
    rw [List.perm_ext_iff_of_nodup recordIds decisionIds]
    intro id
    constructor
    · intro member
      obtain ⟨i, present, rfl⟩ := List.mem_map.mp member
      rw [recorded.records] at present
      obtain ⟨e, inside, rfl⟩ := List.mem_map.mp present
      obtain ⟨d, stored, matched, -⟩ := recorded.covered e inside
      refine List.mem_map.mpr ⟨d, recorded.decision_mem e inside d stored matched, ?_⟩
      simp only [Ledger.matchRow, Bool.and_eq_true, decide_eq_true_eq] at matched
      exact matched.1
    · intro member
      obtain ⟨d, present, rfl⟩ := List.mem_map.mp member
      obtain ⟨e, inside, matched⟩ := complete d present
      refine List.mem_map.mpr ⟨e.row, recorded.row_mem e inside, ?_⟩
      simp only [Ledger.matchRow, Bool.and_eq_true, decide_eq_true_eq] at matched
      exact matched.1.symm
  simpa using same.length_eq

/-- The decision joined to a record of the history is the one the history names. -/
theorem rebuilt (recorded : Recorded platform ledger project entries) (keys : ledger.Keys)
    (e : Entry) (member : e ∈ entries) (d : DecisionRow) (stored : d ∈ ledger.decisions)
    (matched : Ledger.matchRow d e.row = true) : ReadBack platform d e.authorization := by
  obtain ⟨d', stored', matched', rebuilt⟩ := recorded.covered e member
  obtain rfl := keys.decision_eq stored stored' matched matched'
  exact rebuilt

end Recorded

/-- The decisions of a history that are read back as they are rehash. -/
theorem Built.rehashes {ledger : Ledger} {project : Uuid} {entries : List Entry}
    (built : Built platform project entries) (keys : ledger.Keys)
    (rebuilt : ∀ e ∈ entries, ∃ d ∈ ledger.decisions, Ledger.matchRow d e.row = true ∧
      rowToAuthorization platform d = .ok e.authorization) : Rehashes platform ledger entries := by
  intro e member d stored matched a read
  obtain ⟨d', stored', matched', rebuilt⟩ := rebuilt e member
  obtain rfl := keys.decision_eq stored stored' matched matched'
  rw [rebuilt, Except.ok.injEq] at read
  obtain ⟨-, _, _, proved⟩ := built.mem e member
  exact read ▸ proved.payload

/-! ## Histories verify -/

/-- A checked row for an entry of the history. -/
private structure Checks (r : CheckedRow) (e : Entry) : Prop where
  integrity : r.integrity = e.row
  authorization : ∃ context, r.authorization = { e.authorization with context := context }
  rebuilt : rowToAuthorization platform r.decision = .ok r.authorization
  payload : calculateAuthorizationPayloadHash platform r.authorization = .ok e.proof.payloadHash.val

private theorem exists_checked (rows : List (DecisionRow × IntegrityRow)) (entries : List Entry)
    (same : rows.map Prod.snd = entries.map Entry.row)
    (rebuilt : ∀ row ∈ rows, ∀ e ∈ entries, row.2 = e.row → ReadBack platform row.1 e.authorization)
    (rehashed : ∀ row ∈ rows, ∀ e ∈ entries, row.2 = e.row →
      ∀ a, rowToAuthorization platform row.1 = .ok a →
        calculateAuthorizationPayloadHash platform a = .ok e.proof.payloadHash.val) :
    ∃ checked : List CheckedRow, checked.map CheckedRow.row = rows ∧
      List.Forall₂ (@Checks platform) checked entries := by
  induction rows generalizing entries with
  | nil =>
    obtain rfl := List.map_eq_nil_iff.mp same.symm
    exact ⟨[], rfl, .nil⟩
  | cons row rows ih =>
    cases entries with
    | nil => cases same
    | cons e entries =>
      rw [List.map_cons, List.map_cons, List.cons.injEq] at same
      obtain ⟨checked, mapped, related⟩ := ih entries same.2
        (fun row' inside e' inside' =>
          rebuilt row' (List.mem_cons_of_mem _ inside) e' (List.mem_cons_of_mem _ inside'))
        (fun row' inside e' inside' =>
          rehashed row' (List.mem_cons_of_mem _ inside) e' (List.mem_cons_of_mem _ inside'))
      obtain ⟨context, read⟩ := (rebuilt row (by simp) e (by simp) same.1).context
      have payload := rehashed row (by simp) e (by simp) same.1 _ read
      refine ⟨⟨row.1, row.2, { e.authorization with context := context }⟩ :: checked, ?_,
        .cons ⟨same.1, ⟨context, rfl⟩, read, payload⟩ related⟩
      rw [List.map_cons, mapped]
      rfl

theorem Accepted.snoc {count : Nat} {last : Option Str} {checked : List CheckedRow}
    (accepted : Accepted platform count last checked) (r : CheckedRow)
    (row : RowAccepted platform (count + checked.length + 1) (hashAfter last checked) r) :
    Accepted platform count last (checked ++ [r]) := by
  induction accepted with
  | nil => exact .cons r row (.nil _ _)
  | cons s before _ ih =>
    refine .cons s before (ih ?_)
    have shift : ∀ n m : Nat, n + (m + 1) + 1 = n + 1 + m + 1 := by omega
    simpa [hashAfter, shift] using row

private theorem rowAccepted_of_built (lawful : platform.Lawful) (e : Entry) (r : CheckedRow)
    (sequence : Nat) (previous : Option Str)
    (built : ProofBuilt platform e.authorization sequence previous e.proof)
    (checks : @Checks platform r e)
    (joined : r.decision.decisionId = r.integrity.decisionId) :
    RowAccepted platform sequence previous r := by
  obtain ⟨d, i, a⟩ := r
  obtain ⟨rfl, ⟨context, rfl⟩, rebuilt, payload⟩ := checks
  have createdAt : (e.row).createdAt = e.authorization.evaluatedAt.isoformat :=
    congrArg Datetime.isoformat built.createdAt
  refine
    { readableId := ?_
      sequence := built.sequence
      previous := built.previous
      algorithm := rfl
      schema := rfl
      rebuilt := rebuilt
      created := ?_
      payload := payload
      record := ?_ }
  · have id : d.decisionId = e.proof.decisionId.str := joined
    simp [id, lawful.uuid_str]
  · simp only [createdAt, lawful.fromIsoformat_isoformat]
  · have fields : CheckedRow.fields ⟨d, e.row, { e.authorization with context := context }⟩ =
        e.proof.fields := by
      simp only [CheckedRow.fields, DecisionIntegrityProof.fields, built.createdAt, built.decisionId,
        built.projectId]
      rfl
    rw [fields]
    exact built.record

private theorem accepted_of_built (lawful : platform.Lawful) {project : Uuid} {entries : List Entry}
    (built : Built platform project entries) (checked : List CheckedRow)
    (related : List.Forall₂ (@Checks platform) checked entries)
    (joined : ∀ r ∈ checked, r.decision.decisionId = r.integrity.decisionId) :
    Accepted platform 0 none checked ∧ hashAfter none checked = lastHash entries := by
  induction built generalizing checked with
  | nil =>
    cases related
    exact ⟨.nil _ _, rfl⟩
  | snoc e before owned proved ih =>
    rename_i earlier
    -- the last checked row belongs to the last entry
    have front := List.forall₂_take_append checked earlier [e] related
    have back := List.forall₂_drop_append checked earlier [e] related
    obtain ⟨r, single⟩ := List.length_eq_one_iff.mp back.length_eq
    have split : checked = checked.take earlier.length ++ [r] := by
      rw [← single, List.take_append_drop]
    have member : r ∈ checked := by
      rw [split]
      simp
    rw [single, List.forall₂_cons] at back
    obtain ⟨accepted, hash⟩ := ih (checked.take earlier.length) front
      fun s inside => joined s (List.mem_of_mem_take inside)
    have length := front.length_eq
    have row : RowAccepted platform (0 + (checked.take earlier.length).length + 1)
        (hashAfter none (checked.take earlier.length)) r := by
      rw [hash, length, Nat.zero_add]
      exact rowAccepted_of_built lawful e r _ _ proved back.1 (joined r member)
    refine ⟨?_, ?_⟩
    · rw [split]
      exact accepted.snoc r row
    · rw [split, hashAfter_snoc, lastHash, List.getLast?_concat, back.1.integrity]
      rfl

/-- A complete history whose decisions are read back with the payloads that were hashed verifies
against no checkpoint and against each of its hashes. -/
theorem Recorded.verifies (lawful : platform.Lawful) {ledger : Ledger} {project : Uuid}
    {entries : List Entry} (recorded : Recorded platform ledger project entries)
    (rehashes : Rehashes platform ledger entries) (complete : Complete ledger project entries)
    (keys : ledger.Keys) (expectedHead : Option Str)
    (known : expectedHead = none ∨ ∃ e ∈ entries, some e.proof.recordHash.val = expectedHead) :
    ∃ checked, Verifies platform ledger project expectedHead checked ∧
      hashAfter none checked = lastHash entries ∧ checked.length = entries.length := by
  have matched := recorded.unmatched complete
  have chain := verificationRows_chain ledger project keys matched
  rw [recorded.chain_eq] at chain
  have stored := mem_verificationRows ledger project (ledger.maxSequenceNumber project)
  obtain ⟨checked, rows, related⟩ := @exists_checked platform _ entries chain
    (fun row inside e member same => recorded.rebuilt keys e member row.1 (stored row inside).1
      (same ▸ (stored row inside).2.2))
    (fun row inside e member same => rehashes e member row.1 (stored row inside).1
      (same ▸ (stored row inside).2.2))
  have joined : ∀ r ∈ checked, r.decision.decisionId = r.integrity.decisionId := by
    intro r member
    have inside : r.row ∈ ledger.verificationRows project (ledger.maxSequenceNumber project) := by
      rw [← rows]
      exact List.mem_map_of_mem member
    have matched := (stored r.row inside).2.2
    simp only [Ledger.matchRow, Bool.and_eq_true, decide_eq_true_eq] at matched
    exact matched.1
  obtain ⟨accepted, hash⟩ := accepted_of_built lawful recorded.built checked related joined
  refine ⟨checked, ⟨recorded.counts complete keys, matched, rows, accepted, ?_, ?_⟩, hash,
    related.length_eq⟩
  · rcases known with absent | ⟨e, member, found⟩
    · exact .inl absent
    · obtain ⟨i, below, same⟩ := List.mem_iff_getElem.mp member
      have lengths := related.length_eq
      have pair := related.get (by omega : i < checked.length) below
      refine .inr ⟨checked[i], List.getElem_mem _, ?_⟩
      rw [← found, ← same]
      have record := congrArg IntegrityRow.recordHash pair.integrity
      exact congrArg some record
  · intro hash' last
    rw [hash, lastHash, Option.map_eq_some_iff] at last
    obtain ⟨e, -, rfl⟩ := last
    exact e.proof.recordHash.property

/-! ## The statements -/

theorem insertProof_spec (ledger ledger' : Ledger) (proof : DecisionIntegrityProof)
    (inserted : ledger.insertProof proof = .ok ledger') :
    (∃ d ∈ ledger.decisions, Ledger.matchRow d (integrityRow proof) = true) ∧
      ledger.recordConflict (integrityRow proof) = false ∧
      ledger' = { ledger with integrity := ledger.integrity ++ [integrityRow proof] } := by
  unfold Ledger.insertProof at inserted
  simp only [bind, Except.bind, pure, Except.pure, throw, throwThe, MonadExceptOf.throw] at inserted
  split at inserted
  · cases inserted
  split at inserted
  · cases inserted
  split at inserted
  · cases inserted
  next owned allowed =>
  rw [Bool.not_eq_false, List.any_eq_true] at owned
  rw [not_or, Bool.not_eq_true] at allowed
  cases inserted
  exact ⟨owned, allowed.2, rfl⟩

theorem insertDecision_spec (ledger ledger' : Ledger) (a : AuthorizationResponse)
    (inserted : ledger.insertDecision platform a = .ok ledger') :
    ∃ row, decisionRow platform a = .ok row ∧
      (∀ d ∈ ledger.decisions, d.decisionId ≠ row.decisionId) ∧
      ledger' = { ledger with decisions := ledger.decisions ++ [row] } := by
  unfold Ledger.insertDecision at inserted
  cases written : decisionRow platform a with
  | error exc => simp [written, bind, Except.bind] at inserted
  | ok row =>
    simp only [written, bind, Except.bind, pure, Except.pure, throw, throwThe,
      MonadExceptOf.throw] at inserted
    split at inserted
    · cases inserted
    split at inserted
    · cases inserted
    split at inserted
    · cases inserted
    next fresh =>
    cases inserted
    refine ⟨row, rfl, ?_, rfl⟩
    intro d member same
    exact fresh (List.any_eq_true.mpr ⟨d, member, decide_eq_true same⟩)

theorem insertIntegrity_spec (ledger ledger' : Ledger) (a : AuthorizationResponse)
    (proof : DecisionIntegrityProof)
    (inserted : ledger.insertIntegrity platform a = .ok (ledger', proof)) :
    ProofBuilt platform a (Ledger.nextSequence (ledger.chain a.projectId).getLast?)
      ((ledger.chain a.projectId).getLast?.map (·.recordHash)) proof ∧
      ledger.insertProof proof = .ok ledger' := by
  unfold Ledger.insertIntegrity at inserted
  simp only [bind, Except.bind, pure, Except.pure] at inserted
  split at inserted
  · cases inserted
  next proof' built =>
  split at inserted
  · cases inserted
  next ledger'' stored =>
  cases inserted
  exact ⟨buildDecisionIntegrityProof_spec _ _ _ _ built, stored⟩

theorem save_spec (ledger ledger' : Ledger) (a : AuthorizationResponse)
    (proof : DecisionIntegrityProof) (saved : ledger.save platform a = .ok (ledger', proof)) :
    ∃ middle, ledger.insertDecision platform a = .ok middle ∧
      middle.insertIntegrity platform a = .ok (ledger', proof) := by
  unfold Ledger.save at saved
  cases inserted : ledger.insertDecision platform a with
  | error exc => simp [inserted, bind, Except.bind] at saved
  | ok middle =>
    simp only [inserted, bind, Except.bind] at saved
    exact ⟨middle, rfl, saved⟩

/-! ## Keys -/

private theorem nodup_concat_map {α β : Type} (f : α → β) (l : List α) (a : α)
    (distinct : (l.map f).Nodup) (fresh : ∀ b ∈ l, f b ≠ f a) : ((l ++ [a]).map f).Nodup := by
  rw [List.map_append, List.nodup_append]
  refine ⟨distinct, by simp, ?_⟩
  intro b inside c last
  obtain ⟨x, member, rfl⟩ := List.mem_map.mp inside
  simp only [List.map_cons, List.map_nil, List.mem_cons, List.not_mem_nil, or_false] at last
  subst last
  exact fresh x member

theorem Ledger.Keys.addDecision {ledger : Ledger} (keys : ledger.Keys) (row : DecisionRow)
    (fresh : ∀ d ∈ ledger.decisions, d.decisionId ≠ row.decisionId) :
    Ledger.Keys { ledger with decisions := ledger.decisions ++ [row] } where
  decisionId := nodup_concat_map _ _ _ keys.decisionId fresh
  integrityId := keys.integrityId
  sequence := keys.sequence
  recordHash := keys.recordHash

theorem Ledger.Keys.addRecord {ledger : Ledger} (keys : ledger.Keys) (row : IntegrityRow)
    (fresh : ledger.recordConflict row = false) :
    Ledger.Keys { ledger with integrity := ledger.integrity ++ [row] } := by
  simp only [Ledger.recordConflict, List.any_eq_false, Bool.or_eq_true, Bool.and_eq_true,
    decide_eq_true_eq, not_or, not_and] at fresh
  refine ⟨keys.decisionId, ?_, ?_, ?_⟩
  · exact nodup_concat_map _ _ _ keys.integrityId fun i member => (fresh i member).1.1
  · refine nodup_concat_map _ _ _ keys.sequence fun i member same => ?_
    rw [Prod.mk.injEq] at same
    exact (fresh i member).2 same.1 same.2
  · exact nodup_concat_map _ _ _ keys.recordHash fun i member => (fresh i member).1.2

/-! ## Saving -/

section

variable (platform : Platform)

/-- Every project of the ledger has a history that accounts for all its rows. -/
structure Historical (ledger : Ledger) (history : Uuid → List Entry) : Prop where
  recorded : ∀ project, Recorded platform ledger project (history project)
  complete : ∀ project, Complete ledger project (history project)
  keys : ledger.Keys

end

theorem projectIntegrity_concat (ledger : Ledger) (proof : DecisionIntegrityProof) (project : Uuid) :
    Ledger.projectIntegrity { ledger with integrity := ledger.integrity ++ [integrityRow proof] }
      project = ledger.projectIntegrity project ++
        if proof.projectId = project then [integrityRow proof] else [] := by
  rw [Ledger.projectIntegrity, Ledger.projectIntegrity, List.filter_append, List.filter_cons,
    List.filter_nil]
  have same : (integrityRow proof).projectId = project.str ↔ proof.projectId = project :=
    ⟨Uuid.str_inj _ _, congrArg Uuid.str⟩
  by_cases owned : proof.projectId = project
  · simp [same.mpr owned, owned]
  · simp [mt same.mp owned, owned]

/-- More decisions and records of other projects leave a history as it is. -/
theorem Recorded.mono {ledger ledger' : Ledger} {project : Uuid} {entries : List Entry}
    (recorded : Recorded platform ledger project entries)
    (decisions : ∀ d ∈ ledger.decisions, d ∈ ledger'.decisions)
    (records : ledger'.projectIntegrity project = ledger.projectIntegrity project) :
    Recorded platform ledger' project entries where
  built := recorded.built
  records := by rw [records, recorded.records]
  covered := by
    intro e member
    obtain ⟨d, stored, matched, rebuilt⟩ := recorded.covered e member
    exact ⟨d, decisions d stored, matched, rebuilt⟩

/-- The record after the last one is built at the next number on the last hash. -/
theorem Recorded.next {ledger : Ledger} {project : Uuid} {entries : List Entry}
    (recorded : Recorded platform ledger project entries) :
    Ledger.nextSequence (ledger.chain project).getLast? = entries.length + 1 ∧
      (ledger.chain project).getLast?.map (·.recordHash) = lastHash entries := by
  rw [recorded.chain_eq, List.getLast?_map]
  refine ⟨?_, ?_⟩
  · rcases List.eq_nil_or_concat entries with rfl | ⟨front, e, rfl⟩
    · rfl
    · have sequences := congrArg List.getLast? recorded.built.sequences
      rw [List.concat_eq_append, List.map_append, List.getLast?_map] at sequences
      simp only [List.concat_eq_append, List.getLast?_concat, Option.map_some]
      simp only [List.map_cons, List.map_nil, List.getLast?_concat, List.length_append,
        List.length_singleton, List.range_succ, Option.map_some, Option.some.injEq] at sequences
      rw [Ledger.nextSequence, Entry.row, integrityRow, sequences]
      simp
  · rw [lastHash, Option.map_map]
    rfl

theorem Historical.save (lawful : platform.Lawful) {ledger ledger' : Ledger}
    {history : Uuid → List Entry} (historical : Historical platform ledger history)
    (a : AuthorizationResponse) (proof : DecisionIntegrityProof)
    (saved : ledger.save platform a = .ok (ledger', proof)) :
    Historical platform ledger'
      (Function.update history a.projectId (history a.projectId ++ [⟨a, proof⟩])) := by
  obtain ⟨middle, inserted, integrity⟩ := save_spec ledger ledger' a proof saved
  obtain ⟨row, written, fresh, rfl⟩ := insertDecision_spec ledger middle a inserted
  obtain ⟨built, stored⟩ := insertIntegrity_spec _ ledger' a proof integrity
  obtain ⟨-, noConflict, rfl⟩ := insertProof_spec _ ledger' proof stored
  have grown (project : Uuid) : Recorded platform
      { ledger with decisions := ledger.decisions ++ [row] } project (history project) :=
    (historical.recorded project).mono (fun d member => List.mem_append_left _ member) rfl
  have next := (grown a.projectId).next
  rw [next.1, next.2] at built
  have hashed := ((payloadHash_eq_ok platform a _).mp built.payload).2
  have rebuilt := rowToAuthorization_decisionRow lawful a row _ written hashed
  have ids : Ledger.matchRow row (integrityRow proof) = true := by
    obtain ⟨_, _, _, rfl, -⟩ := decisionRow_spec a row written
    simp [Ledger.matchRow, storedRow, integrityRow, built.decisionId, built.projectId]
  refine ⟨?_, ?_, (historical.keys.addDecision row fresh).addRecord _ noConflict⟩
  · intro project
    have records := projectIntegrity_concat
      { ledger with decisions := ledger.decisions ++ [row] } proof project
    by_cases own : project = a.projectId
    · subst own
      rw [Function.update_self]
      refine ⟨.snoc _ (grown _).built rfl built, ?_, ?_⟩
      · rw [records, (grown a.projectId).records, if_pos built.projectId, List.map_append]
        rfl
      · intro e member
        rcases List.mem_append.mp member with earlier | last
        · exact (grown a.projectId).covered e earlier
        · obtain rfl := List.mem_singleton.mp last
          exact ⟨row, by simp, ids, .inr rebuilt⟩
    · rw [Function.update_of_ne own]
      refine (grown project).mono (fun d member => member) ?_
      rw [records, if_neg (by rw [built.projectId]; exact Ne.symm own), List.append_nil]
  · intro project d member
    rw [Ledger.projectDecisions, List.filter_append, List.mem_append] at member
    by_cases own : project = a.projectId
    · subst own
      rw [Function.update_self]
      rcases member with earlier | last
      · obtain ⟨e, inside, matched⟩ := historical.complete a.projectId d earlier
        exact ⟨e, List.mem_append_left _ inside, matched⟩
      · obtain rfl := List.mem_singleton.mp (List.mem_of_mem_filter last)
        exact ⟨⟨a, proof⟩, by simp, ids⟩
    · rw [Function.update_of_ne own]
      rcases member with earlier | last
      · exact historical.complete project d earlier
      · obtain ⟨inside, owned⟩ := List.mem_filter.mp last
        obtain rfl := List.mem_singleton.mp inside
        simp only [Ledger.matchRow, Bool.and_eq_true, decide_eq_true_eq] at ids owned
        have projects : a.projectId.str = project.str := by
          rw [← owned, ids.2, ← built.projectId]
          rfl
        exact absurd (Uuid.str_inj _ _ projects).symm own

/-- A saved decision rehashes when its context is dumped alike from its column. -/
theorem Historical.save_rehashes (lawful : platform.Lawful) {ledger ledger' : Ledger}
    {history : Uuid → List Entry} (historical : Historical platform ledger history)
    (rehashes : ∀ project, Rehashes platform ledger (history project)) (a : AuthorizationResponse)
    (redumps : a.context.Redumps) (proof : DecisionIntegrityProof)
    (saved : ledger.save platform a = .ok (ledger', proof)) (project : Uuid) :
    Rehashes platform ledger'
      (Function.update history a.projectId (history a.projectId ++ [⟨a, proof⟩]) project) := by
  obtain ⟨middle, inserted, integrity⟩ := save_spec ledger ledger' a proof saved
  obtain ⟨row, written, fresh, rfl⟩ := insertDecision_spec ledger middle a inserted
  obtain ⟨built, stored⟩ := insertIntegrity_spec _ ledger' a proof integrity
  obtain ⟨-, -, rfl⟩ := insertProof_spec _ ledger' proof stored
  have id : row.decisionId = proof.decisionId.str := by
    obtain ⟨_, _, _, rfl, -⟩ := decisionRow_spec a row written
    exact congrArg Uuid.str built.decisionId.symm
  have earlier (p : Uuid) (e : Entry) (member : e ∈ history p) (d : DecisionRow)
      (present : d ∈ ledger.decisions ++ [row]) (matched : Ledger.matchRow d e.row = true) :
      ∀ b, rowToAuthorization platform d = .ok b →
        calculateAuthorizationPayloadHash platform b = .ok e.proof.payloadHash.val := by
    rcases List.mem_append.mp present with old | new
    · exact rehashes p e member d old matched
    · -- the record of an earlier entry belongs to an earlier decision
      obtain rfl := List.mem_singleton.mp new
      obtain ⟨d', stored', matched', -⟩ := (historical.recorded p).covered e member
      simp only [Ledger.matchRow, Bool.and_eq_true, decide_eq_true_eq] at matched matched'
      exact absurd (matched'.1.trans matched.1.symm) (fresh d' stored')
  by_cases own : project = a.projectId
  · subst own
    rw [Function.update_self]
    intro e member d present matched b read
    rcases List.mem_append.mp member with old | new
    · exact earlier _ e old d present matched b read
    · obtain rfl := List.mem_singleton.mp new
      rcases List.mem_append.mp present with old | last
      · simp only [Ledger.matchRow, Bool.and_eq_true, decide_eq_true_eq] at matched
        exact absurd (matched.1.trans id.symm) (fresh d old)
      · obtain rfl := List.mem_singleton.mp last
        have hashed := ((payloadHash_eq_ok platform a _).mp built.payload).2
        rw [rowToAuthorization_decisionRow lawful a d _ written hashed, Except.ok.injEq] at read
        exact read ▸ payloadHash_stored a redumps _ built.payload
  · rw [Function.update_of_ne own]
    exact fun e member d present matched => earlier project e member d present matched

end DecAustrum
