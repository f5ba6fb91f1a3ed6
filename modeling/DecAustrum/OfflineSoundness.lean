import DecAustrum.BundleBuilding
import DecAustrum.LedgerBackfill
import DecAustrum.StoredProofs
import DecAustrum.TamperEvidence

/-!
# Offline soundness

A bundle that verifies against a record hash of a genuine ledger holds the ledger's own
history up to that record, whoever built the bundle.
-/
namespace DecAustrum

open Python HashChain Traversal

variable {platform : Platform}

/-! ## Histories cut at a record -/

namespace Built

variable {project : Uuid}

theorem front {front back : List Entry} (built : Built platform project (front ++ back)) :
    Built platform project front := by
  induction back using List.reverseRecOn with
  | nil => simpa using built
  | append_singleton back e ih =>
    rw [← List.append_assoc] at built
    generalize whole : front ++ back ++ [e] = entries at built
    cases built with
    | nil => simp at whole
    | snoc e' before _ _ =>
      obtain ⟨same, -⟩ := List.append_inj' whole rfl
      rw [← same] at before
      exact ih before

theorem sequence_eq {front back : List Entry} {e : Entry}
    (built : Built platform project (front ++ e :: back)) :
    e.proof.sequenceNumber = front.length + 1 := by
  rw [← List.singleton_append, ← List.append_assoc] at built
  have cut := built.front
  generalize whole : front ++ [e] = entries at cut
  cases cut with
  | nil => simp at whole
  | snoc e' before _ proved =>
    obtain ⟨same, last⟩ := List.append_inj' whole rfl
    cases last
    rw [proved.sequence, same]

end Built

/-! ## The chain of an accepted bundle -/

theorem proofs_linked {project : Uuid} {chain : List DecisionIntegrityProof}
    (accepted : EachAfter (ProofAccepted platform project) [] chain) :
    Linked (EnvelopeHashes platform) EnvelopeFields.previousHash (chain.map (·.fields))
      (chain.getLast?.map (·.recordHash.val)) := by
  refine accepted.induct (motive := fun chain => Linked (EnvelopeHashes platform)
    EnvelopeFields.previousHash (chain.map (·.fields)) (chain.getLast?.map (·.recordHash.val)))
    .nil fun front proof linked passed => ?_
  rw [List.map_append, List.getLast?_concat]
  refine linked.snoc proof.fields proof.recordHash.val ?_ passed.record
  rw [DecisionIntegrityProof.fields, passed.previous, Option.map_map]
  rfl

/-- Proofs of one envelope and its hash are one proof. -/
theorem DecisionIntegrityProof.eq_of_fields (p q : DecisionIntegrityProof)
    (same : p.fields = q.fields) (pHashes : EnvelopeHashes platform p.fields p.recordHash.val)
    (qHashes : EnvelopeHashes platform q.fields q.recordHash.val) : p = q := by
  have record : p.recordHash = q.recordHash := by
    rw [same] at pHashes
    exact Subtype.ext (Except.ok.inj (pHashes.symm.trans qHashes))
  simp only [DecisionIntegrityProof.fields, EnvelopeFields.mk.injEq] at same
  obtain ⟨created, decisionId, payload, previous, project, sequence⟩ := same
  have previous := Option.map_injective Subtype.val_injective previous
  have created := Datetime.json_inj _ _ created
  have payload := Subtype.ext payload
  cases p
  cases q
  simp_all

/-- A chain that holds the hash of a record of the history begins with the history up to it. -/
theorem chain_take_eq {project owner : Uuid} {front : List Entry} {e : Entry}
    {chain : List DecisionIntegrityProof} (built : Built platform project (front ++ [e]))
    (single : ∀ f ∈ front ++ [e], OnePreimage platform f.proof.recordHash.val)
    (accepted : EachAfter (ProofAccepted platform owner) [] chain)
    (checkpoint : ∃ proof ∈ chain, proof.recordHash.val = e.proof.recordHash.val) :
    chain.take (front.length + 1) = (front ++ [e]).map (·.proof) := by
  obtain ⟨proof, member, same⟩ := checkpoint
  obtain ⟨before, after, split⟩ := List.append_of_mem member
  -- both chains, cut after the record of the checkpoint, end in its hash
  have cut : EachAfter (ProofAccepted platform owner) [] (before ++ [proof]) := by
    intro f a b parts
    refine accepted f a (b ++ after) ?_
    rw [split, ← List.singleton_append, ← List.append_assoc, parts]
    simp
  have bundleLinked := proofs_linked cut
  have historyLinked := built.linked
  rw [List.getLast?_concat, Option.map_some, same] at bundleLinked
  rw [lastHash, List.getLast?_concat, Option.map_some] at historyLinked
  have injective : ∀ r s h, r ∈ (before ++ [proof]).map (·.fields) →
      s ∈ (front ++ [e]).map (fun f => f.proof.fields) → EnvelopeHashes platform r h →
      EnvelopeHashes platform s h → r = s := by
    intro r s h _ inside rHashes sHashes
    obtain ⟨f, member, rfl⟩ := List.mem_map.mp inside
    obtain ⟨-, _, _, proved⟩ := built.mem f member
    obtain rfl := Except.ok.inj (sHashes.symm.trans proved.record)
    exact (single f member).envelope r _ rHashes sHashes
  have fields := bundleLinked.unique injective historyLinked
  have hashed : ∀ p ∈ before ++ [proof], EnvelopeHashes platform p.fields p.recordHash.val := by
    intro p inside
    obtain ⟨f, b, parts⟩ := List.append_of_mem inside
    exact (cut f p b parts).record
  have proofs : before ++ [proof] = (front ++ [e]).map (·.proof) := by
    refine List.forall₂_eq_eq_eq ▸ forall₂_of_map_eq DecisionIntegrityProof.fields Eq _ _ ?_ ?_
    · rw [fields, List.map_map]
      rfl
    · intro p inside q inside' equal
      obtain ⟨f, member', rfl⟩ := List.mem_map.mp inside'
      obtain ⟨-, _, _, proved⟩ := built.mem f member'
      exact DecisionIntegrityProof.eq_of_fields p f.proof equal (hashed p inside) proved.record
  have length := congrArg List.length proofs
  simp only [List.length_append, List.length_singleton, List.length_map] at length
  rw [← proofs, split, ← length, ← List.singleton_append, ← List.append_assoc]
  exact List.take_left' (by simp)

/-! ## A history and its checkpoint -/

/-- A history cut after the record with a number, and the rows of the ledger up to it. -/
structure CutAt (platform : Platform) (ledger : Ledger) (project : Uuid) (k : Nat) (hash : Str)
    (front : List Entry) (e : Entry) : Prop where
  built : Built platform project (front ++ [e])
  length : k = front.length + 1
  head : hash = e.proof.recordHash.val
  rows : (ledger.chain project).take k = (front ++ [e]).map Entry.row
  covered : ∀ f ∈ front ++ [e], f.row ∈ ledger.projectIntegrity project ∧
    ∃ d ∈ ledger.decisions, Ledger.matchRow d f.row = true ∧ ReadBack platform d f.authorization

theorem Recorded.cut {ledger : Ledger} {project : Uuid} {entries : List Entry}
    (recorded : Recorded platform ledger project entries) (k : Nat) (i : IntegrityRow)
    (stored : i ∈ ledger.projectIntegrity project) (sequence : i.sequenceNumber = k) :
    ∃ front e, CutAt platform ledger project k i.recordHash front e := by
  rw [recorded.records] at stored
  obtain ⟨e, member, rfl⟩ := List.mem_map.mp stored
  obtain ⟨front, back, rfl⟩ := List.append_of_mem member
  have whole := recorded.built
  have length : k = front.length + 1 := by
    have number := whole.sequence_eq
    change e.proof.sequenceNumber = k at sequence
    omega
  have split : front ++ e :: back = (front ++ [e]) ++ back := by simp
  rw [split] at whole
  refine ⟨front, e, whole.front, length, rfl, ?_, fun f inside => ?_⟩
  · rw [recorded.chain_eq, split, List.map_append]
    exact List.take_left' (by simp [length])
  · have present : f ∈ front ++ e :: back := by
      rw [split]
      exact List.mem_append_left _ inside
    exact ⟨recorded.row_mem f present, recorded.covered f present⟩

/-- The rows up to the checkpoint are read back with the payloads that were hashed. -/
def RehashesUpTo (platform : Platform) (ledger : Ledger) (project : Uuid) (k : Nat) : Prop :=
  ∀ j ∈ (ledger.chain project).take k, ∀ a, Covers platform ledger j a →
    calculateAuthorizationPayloadHash platform a = .ok j.payloadHash

/-- The selected records up to the checkpoint hold the payloads of the ledger's decisions. -/
def PayloadsAgree (platform : Platform) (ledger : Ledger) (project : Uuid) (k : Nat)
    (bundle : EvidenceBundle) : Prop :=
  ∀ r ∈ bundle.records, r.integrity.sequenceNumber ≤ k →
    ∃ j ∈ (ledger.chain project).take k, j.sequenceNumber = r.integrity.sequenceNumber ∧
      ∃ a, Covers platform ledger j a ∧ SamePayload r.decision a

section Cut

variable {ledger : Ledger} {project : Uuid} {k : Nat} {hash : Str} {front : List Entry} {e : Entry}

/-- A bundle that verifies against the checkpoint begins with the proofs of the ledger. -/
theorem CutAt.chain (cut : CutAt platform ledger project k hash front e)
    (single : ∀ i ∈ ledger.projectIntegrity project, OnePreimage platform i.recordHash)
    {bundle : EvidenceBundle} (verifies : BundleVerifies platform bundle (some hash)) :
    bundle.chain.take k = (front ++ [e]).map (·.proof) := by
  rw [cut.length]
  refine chain_take_eq cut.built (fun f inside => single _ (cut.covered f inside).1) verifies.chain ?_
  rw [← cut.head]
  exact verifies.checkpoints _ (List.mem_cons_of_mem _ (List.mem_singleton_self _)) _ rfl

theorem CutAt.proofs (lawful : platform.Lawful)
    (cut : CutAt platform ledger project k hash front e) :
    ((ledger.chain project).take k).mapM (rowToProof platform) =
      .ok ((front ++ [e]).map (·.proof)) := by
  rw [cut.rows, mapM_eq_ok_iff, List.forall₂_map_left_iff, List.forall₂_map_right_iff,
    List.forall₂_same]
  exact fun f _ => rowToProof_integrityRow lawful f.proof

/-- A selected record up to the checkpoint has the payload hash of a record of the ledger. -/
theorem CutAt.selected (cut : CutAt platform ledger project k hash front e)
    (single : ∀ i ∈ ledger.projectIntegrity project, OnePreimage platform i.recordHash)
    {bundle : EvidenceBundle} (verifies : BundleVerifies platform bundle (some hash))
    (r : VerifiableDecisionRecord) (selected : r ∈ bundle.records)
    (below : r.integrity.sequenceNumber ≤ k) : ∃ f ∈ front ++ [e],
      f.proof.sequenceNumber = r.integrity.sequenceNumber ∧
        calculateAuthorizationPayloadHash platform r.decision = .ok f.proof.payloadHash.val := by
  obtain ⟨ahead, behind, parts⟩ := List.append_of_mem selected
  have accepted := verifies.records ahead r behind parts
  obtain ⟨proof, found, equal⟩ := accepted.proved
  simp only [DecisionIntegrityProof.equal, Bool.and_eq_true, decide_eq_true_eq] at equal
  obtain ⟨⟨⟨⟨⟨⟨-, -⟩, sequences⟩, -⟩, payloads⟩, -⟩, -⟩ := equal
  -- the proof the record names is among the first `k`
  obtain ⟨before, after, position⟩ := List.append_of_mem (List.mem_of_find?_eq_some found)
  have number := (verifies.chain before proof after position).sequence
  have early : proof ∈ bundle.chain.take k := by
    rw [position, List.take_append, List.mem_append]
    right
    rw [List.take_cons (by simp only [List.nil_append] at number; omega)]
    exact List.mem_cons_self ..
  rw [cut.chain single verifies] at early
  obtain ⟨f, inside, rfl⟩ := List.mem_map.mp early
  refine ⟨f, inside, sequences.symm, ?_⟩
  rw [← payloads]
  exact accepted.payload

end Cut

/-! ## A bundle of a saved decision -/

/-- The proofs of a history pass the checks of a chain. -/
theorem Built.proofs_accepted {project : Uuid} {entries : List Entry}
    (built : Built platform project entries)
    (distinct : (entries.map fun e => e.proof.decisionId).Nodup) :
    EachAfter (ProofAccepted platform project) [] (entries.map (·.proof)) := by
  induction built with
  | nil => exact .nil
  | @snoc earlier e before owned proved ih =>
    rw [List.map_append, List.nodup_append] at distinct
    rw [List.map_append]
    refine (ih distinct.1).snoc ⟨proved.projectId.trans owned, ?_, ?_, proved.record, ?_⟩
    · rw [proved.sequence, List.length_map]
      rfl
    · -- the last proof is that of the last entry
      refine Option.map_injective Subtype.val_injective (proved.previous.trans ?_)
      rw [lastHash, List.getLast?_map, Option.map_map, Option.map_map]
      rfl
    · intro other member same
      obtain ⟨f, inside, rfl⟩ := List.mem_map.mp member
      exact distinct.2.2 _ (List.mem_map_of_mem inside) _ (by simp) same

theorem ProofBuilt.digestible {a : AuthorizationResponse} {sequence : Int} {previous : Option Str}
    {proof : DecisionIntegrityProof} (proved : ProofBuilt platform a sequence previous proof) :
    Digestible (.int proof.sequenceNumber) ∧ Digestible proof.dump := by
  have envelope := Digestible.of_digest _ _ proved.record
  have printable : Digestible (.int proof.sequenceNumber) :=
    envelope.member ("sequence_number", .int proof.sequenceNumber)
      (by simp [DecisionIntegrityProof.fields])
  exact ⟨printable, proof.dump_digestible printable⟩

theorem SamePayload.hash {a b : AuthorizationResponse} {hash : Str} (same : SamePayload a b)
    (hashed : calculateAuthorizationPayloadHash platform a = .ok hash) :
    calculateAuthorizationPayloadHash platform b = .ok hash := by
  obtain ⟨p, q, aPayload, bPayload, equal⟩ := same
  obtain ⟨-, rfl⟩ := (authorizationPayloadV1_eq_ok a p).mp aPayload
  obtain ⟨bDumpable, rfl⟩ := (authorizationPayloadV1_eq_ok b q).mp bPayload
  rw [payloadHash_eq_ok, digest_eq_ok_iff, ← Json.encodable_sortKeys] at hashed ⊢
  rw [← equal]
  exact ⟨bDumpable, hashed.2⟩

/-- A record covers one decision. -/
theorem Covers.unique {ledger : Ledger} (keys : ledger.Keys) {i : IntegrityRow}
    {a b : AuthorizationResponse} (covers : Covers platform ledger i a)
    (covers' : Covers platform ledger i b) : a = b := by
  obtain ⟨d, stored, matched, read⟩ := covers
  obtain ⟨d', stored', matched', read'⟩ := covers'
  obtain rfl := keys.decision_eq stored stored' matched matched'
  exact Except.ok.inj (read.symm.trans read')

section Cut

variable {ledger : Ledger} {project : Uuid} {k : Nat} {hash : Str} {front : List Entry} {e : Entry}

theorem CutAt.sequence_le (cut : CutAt platform ledger project k hash front e) (f : Entry)
    (inside : f ∈ front ++ [e]) : f.proof.sequenceNumber ≤ k := by
  obtain ⟨before, after, parts⟩ := List.append_of_mem inside
  have built := cut.built
  have length := congrArg List.length parts
  rw [parts] at built
  have number := built.sequence_eq
  have short := cut.length
  simp only [List.length_append, List.length_cons, List.length_nil] at length
  omega

theorem CutAt.row_eq (cut : CutAt platform ledger project k hash front e) (keys : ledger.Keys)
    (f g : Entry) (inside : f ∈ front ++ [e]) (inside' : g ∈ front ++ [e])
    (same : f.proof.sequenceNumber = g.proof.sequenceNumber) : f.row = g.row := by
  have stored (h : Entry) (member : h ∈ front ++ [e]) : h.row ∈ ledger.integrity :=
    List.mem_of_mem_filter (cut.covered h member).1
  refine List.inj_on_of_nodup_map keys.sequence (stored f inside) (stored g inside') ?_
  have projects := (cut.built.projectId f inside).trans (cut.built.projectId g inside').symm
  exact Prod.ext (congrArg Uuid.str projects) same

/-- A bundle with one decision of the history, as it was hashed, passes against the checkpoint. -/
theorem CutAt.bundle (lawful : platform.Lawful) (hex : platform.HexDigests)
    (cut : CutAt platform ledger project k hash front e) (keys : ledger.Keys) (f : Entry)
    (inside : f ∈ front ++ [e]) : ∃ bundle, BundleVerifies platform bundle (some hash) ∧
      bundle.records = [⟨f.authorization, f.proof⟩] := by
  have ids : ((front ++ [e]).map fun g => g.proof.decisionId).Nodup := by
    have rows : ((front ++ [e]).map fun g => g.row.decisionId).Nodup := by
      have taken : ((ledger.chain project).take k).Sublist (ledger.chain project) :=
        List.take_sublist _ _
      have sorted : (ledger.chain project).Perm (ledger.projectIntegrity project) :=
        List.perm_insertionSort _ _
      have distinct := (keys.integrityId.sublist (List.filter_sublist.map _)).perm
        (sorted.map (·.decisionId)).symm
      have cutRows := distinct.sublist (taken.map (·.decisionId))
      rwa [cut.rows, List.map_map] at cutRows
    refine List.Nodup.of_map Uuid.str ?_
    rw [List.map_map]
    exact rows
  have accepted := cut.built.proofs_accepted ids
  obtain ⟨owned, _, _, proved⟩ := cut.built.mem f inside
  have chainHead : ((front ++ [e]).map (·.proof)).getLast?.map (·.recordHash) =
      some e.proof.recordHash := by
    rw [List.map_append, List.map_cons, List.map_nil, List.getLast?_concat]
    rfl
  have last : Digestible (.int ((k : Nat) : Int)) := by
    obtain ⟨-, _, _, lastProved⟩ := cut.built.mem e (by simp)
    have number := cut.built.sequence_eq
    have printable := lastProved.digestible.1
    rw [number] at printable
    rw [cut.length]
    exact printable
  obtain ⟨bundle, builtBundle⟩ := buildEvidenceBundle_total lawful hex
    ⟨project, sampleMoment, k, k, some e.proof.recordHash, 1⟩ .all [⟨f.authorization, f.proof⟩]
    ((front ++ [e]).map (·.proof)) sampleMoment none ⟨0⟩ rfl (by simp [cut.length]) chainHead
    (fun r member => by
      obtain rfl := List.mem_singleton.mp member
      exact VerifiableDecisionRecord.digests _
        ((payloadHash_defined_iff lawful f.authorization).mp ⟨_, proved.payload⟩) proved.digestible.2)
    (fun p member => by
      obtain ⟨g, present, rfl⟩ := List.mem_map.mp member
      obtain ⟨-, _, _, also⟩ := cut.built.mem g present
      exact also.digestible.2)
    DecisionSearchFilters.all_digestible ⟨rfl, by simp [Json.strings]⟩ last
  have fields := buildEvidenceBundle_spec builtBundle
  have found : ((front ++ [e]).map (·.proof)).find? (fun other =>
      other.decisionId = f.authorization.decisionId) = some f.proof := by
    obtain ⟨before, after, parts⟩ := List.append_of_mem (List.mem_map_of_mem inside)
    rw [List.find?_eq_some_iff_append]
    refine ⟨decide_eq_true proved.decisionId, before, after, parts, fun p earlier => ?_⟩
    have distinct : ((before ++ f.proof :: after).map (·.decisionId)).Nodup := by
      rw [← parts, List.map_map]
      exact ids
    rw [List.map_append, List.nodup_append] at distinct
    have apart := distinct.2.2 _ (List.mem_map_of_mem earlier) _ List.mem_cons_self
    simpa [← proved.decisionId] using apart
  refine ⟨bundle, ?_, fields.recordsKept⟩
  exact
    { dumpable := fields.recordsKept ▸ fields.dumpable
      recordCount := by rw [fields.manifestRecords, fields.recordsKept, fields.recordCount]
      chainCount := by rw [fields.manifestChain, fields.chainKept, fields.chainCount]
      recordsDigest := fields.recordsKept ▸ fields.recordsDigest
      chainDigest := fields.chainKept ▸ fields.chainDigest
      bundleDigest := by
        rw [fields.recordsKept, fields.chainKept]
        exact fields.bundleDigest
      chain := by
        rw [fields.chainKept, fields.project]
        exact accepted
      head := by rw [fields.manifestHead, fields.chainKept, chainHead]
      checkpoints := by
        rw [fields.expected, fields.chainKept, cut.head]
        simp only [Option.map_none, List.mem_cons, List.not_mem_nil, or_false, forall_eq_or_imp,
          forall_eq, Option.mem_def, reduceCtorEq, false_implies, implies_true, true_and,
          Option.some.injEq, forall_eq']
        exact ⟨e.proof, List.mem_map_of_mem (by simp), rfl⟩
      records := by
        rw [fields.recordsKept, fields.chainKept, fields.project, EachAfter.cons_iff]
        exact ⟨⟨owned, proved.projectId.trans owned,
          ⟨f.proof, found, by simp [DecisionIntegrityProof.equal]⟩, proved.decisionId, by simp,
          proved.payload⟩, .nil⟩ }

end Cut

/-- A bundle that verifies against a record of a genuine ledger begins with the proofs of the
ledger. Its selected records hold the ledger's payloads just when the rows up to that record are
read back with the payloads that were hashed. -/
theorem verify_bundle_determines_history (lawful : platform.Lawful) (hex : platform.HexDigests)
    (ledger : Ledger) (genuine : Genuine platform ledger) (project : Uuid) (k : Nat)
    (i : IntegrityRow) (stored : i ∈ ledger.projectIntegrity project) (sequence : i.sequenceNumber = k)
    (single : ∀ j ∈ ledger.projectIntegrity project,
      OnePreimage platform j.recordHash ∧ OnePreimage platform j.payloadHash) :
    (∀ bundle now report,
      verifyEvidenceBundle platform bundle (some i.recordHash) now = .ok report ∧
        report.verified = true →
      ((ledger.chain project).take k).mapM (rowToProof platform) = .ok (bundle.chain.take k)) ∧
    ((∀ bundle now report,
      verifyEvidenceBundle platform bundle (some i.recordHash) now = .ok report ∧
        report.verified = true →
      ((ledger.chain project).take k).mapM (rowToProof platform) = .ok (bundle.chain.take k) ∧
        PayloadsAgree platform ledger project k bundle) ↔
      RehashesUpTo platform ledger project k) := by
  obtain ⟨history, historical⟩ := genuine.historical lawful
  obtain ⟨front, e, cut⟩ := (historical.recorded project).cut k i stored sequence
  have records : ∀ j ∈ ledger.projectIntegrity project, OnePreimage platform j.recordHash :=
    fun j member => (single j member).1
  have proofs : ∀ bundle now report,
      verifyEvidenceBundle platform bundle (some i.recordHash) now = .ok report ∧
        report.verified = true →
      ((ledger.chain project).take k).mapM (rowToProof platform) = .ok (bundle.chain.take k) := by
    intro bundle now report verified
    obtain ⟨verifies, -⟩ := (verifyEvidenceBundle_verified_iff bundle _ now report).mp verified
    rw [cut.proofs lawful, cut.chain records verifies]
  refine ⟨proofs, ?_, fun rehashes bundle now report verified => ?_⟩
  · intro agrees j inside a covers
    rw [cut.rows] at inside
    obtain ⟨f, member, rfl⟩ := List.mem_map.mp inside
    obtain ⟨bundle, verifies, single⟩ := cut.bundle lawful hex historical.keys f member
    have now := sampleMoment.val
    have verified := (verifyEvidenceBundle_verified_iff bundle _ now _).mpr ⟨verifies, rfl⟩
    obtain ⟨j, among, sequences, b, covers', same⟩ := (agrees bundle now _ verified).2
      ⟨f.authorization, f.proof⟩ (by simp [single]) (cut.sequence_le f member)
    rw [cut.rows] at among
    obtain ⟨g, member', rfl⟩ := List.mem_map.mp among
    rw [cut.row_eq historical.keys g f member' member sequences] at covers'
    obtain rfl := Covers.unique historical.keys covers covers'
    obtain ⟨-, _, _, proved⟩ := cut.built.mem f member
    exact same.hash proved.payload
  · refine ⟨proofs bundle now report verified, fun r selected below => ?_⟩
    obtain ⟨verifies, -⟩ := (verifyEvidenceBundle_verified_iff bundle _ now report).mp verified
    obtain ⟨f, inside, sequences, hashed⟩ := cut.selected records verifies r selected below
    obtain ⟨owned, d, present, matched, read⟩ := cut.covered f inside
    obtain ⟨context, rebuilt⟩ := read.context
    have among : f.row ∈ (ledger.chain project).take k := by
      rw [cut.rows]
      exact List.mem_map_of_mem inside
    have covers : Covers platform ledger f.row _ := ⟨d, present, matched, rebuilt⟩
    exact ⟨f.row, among, sequences, _, covers,
      (single f.row owned).2.payload _ _ hashed (rehashes _ among _ covers)⟩

/-! ## A sample bundle

The export of the first decision of the sample ledger. -/

def sampleProof : DecisionIntegrityProof :=
  ⟨samplePay.decisionId, sampleProject, 1, none, ⟨samplePayPayload, by decide +kernel⟩,
    ⟨samplePayRecord, samplePayRecord_digest⟩, samplePay.evaluatedAt, sampleVersion_positive⟩

def sampleRecord : VerifiableDecisionRecord := ⟨samplePay, sampleProof⟩

def sampleRecordsDigest : Sha256Digest :=
  ⟨"ab25a1aaf9adefe9bdb52c101de420facdba552079393558e75ac61b1f6455e9", by decide +kernel⟩

def sampleChainDigest : Sha256Digest :=
  ⟨"26d9c3b7721b088efe3443d676d34ad326f7b655cefbd07334b36881250cba06", by decide +kernel⟩

def sampleBundleDigest : Sha256Digest :=
  ⟨"119e40d934373ba8038df5467edb7a1f11fc8e069882bcd9e958d2d987ae4873", by decide +kernel⟩

def sampleExportTime : UtcDatetime := ⟨sampleDatetime 7, rfl⟩

def sampleManifest : EvidenceBundleManifest where
  exportId := ⟨20⟩
  generatedAt := sampleExportTime
  snapshotAt := sampleExportTime
  projectId := sampleProject
  criteria := .all
  recordCount := 1
  chainRecordCount := 1
  chainHeadHash := some ⟨samplePayRecord, samplePayRecord_digest⟩
  expectedHeadHash := none
  recordsSha256 := sampleRecordsDigest
  chainSha256 := sampleChainDigest
  bundleSha256 := sampleBundleDigest

def sampleBundle : EvidenceBundle := ⟨sampleManifest, [sampleRecord], [sampleProof]⟩

/-- The digests of a bundle, as they come. -/
def bundleTable (bundle : EvidenceBundle) : List (Bytes × Str) :=
  [(canonicalBytes (.arr (bundle.records.map (·.dumped))), bundle.manifest.recordsSha256.val),
    (canonicalBytes (.arr (bundle.chain.map (·.dump))), bundle.manifest.chainSha256.val),
    (canonicalBytes (logicalBundlePayload bundle.manifest.dumpWithoutBundleDigest
      (bundle.records.map (·.dumped)) (bundle.chain.map (·.dump))), bundle.manifest.bundleSha256.val)]

def sampleBundleTable : List (Bytes × Str) := sampleTable ++ bundleTable sampleBundle

def sampleBundlePlatform : Platform := referencePlatform (tableSha256 sampleBundleTable)

/-! The export of both decisions. -/

def sampleRefundProof : DecisionIntegrityProof :=
  ⟨sampleRefund.decisionId, sampleProject, 2, some ⟨samplePayRecord, samplePayRecord_digest⟩,
    ⟨sampleRefundPayload, by decide +kernel⟩, ⟨sampleRefundRecord, sampleRefundRecord_digest⟩,
    sampleRefund.evaluatedAt, by decide⟩

def sampleGrownBundle : EvidenceBundle where
  manifest :=
    { sampleManifest with
      recordCount := 2
      chainRecordCount := 2
      chainHeadHash := some ⟨sampleRefundRecord, sampleRefundRecord_digest⟩
      recordsSha256 :=
        ⟨"e73722ea039b4e189bce67c66251a09c846e8ad4c4cd4f3f7d337c3345d12f39", by decide +kernel⟩
      chainSha256 :=
        ⟨"fabb22d97045011a5f3f6dd35c3d78d844af3b07cfe83e199cf1ef706df8f8a6", by decide +kernel⟩
      bundleSha256 :=
        ⟨"ccdcc6eeb2b58b573181052dfb95b5d766fdd01b17fca7d4524bcb0d6091799f", by decide +kernel⟩ }
  records := [sampleRecord, ⟨sampleRefund, sampleRefundProof⟩]
  chain := [sampleProof, sampleRefundProof]

def sampleGrownTable : List (Bytes × Str) := sampleTable ++ bundleTable sampleGrownBundle

def sampleGrownPlatform : Platform := referencePlatform (hexSha256 sampleGrownTable)

theorem sampleLedgerGrown_genuine : Genuine sampleGrownPlatform sampleLedgerGrown :=
  .saved sampleRefund sampleRefundProof
    (.saved samplePay sampleProof (.initialized ⟨[], []⟩ ⟨[], []⟩ (by decide) rfl rfl)
      (by decide +kernel : Ledger.save sampleGrownPlatform ⟨[], []⟩ samplePay =
        .ok (sampleLedger, sampleProof)))
    (by decide +kernel)

theorem verify_bundle_determines_history_sample :
    ((sampleLedgerGrown.chain sampleProject).take 2).mapM (rowToProof sampleGrownPlatform) =
        .ok (sampleGrownBundle.chain.take 2) ∧
      PayloadsAgree sampleGrownPlatform sampleLedgerGrown sampleProject 2 sampleGrownBundle := by
  have distinct : (sampleGrownTable.map Prod.snd).Nodup := by decide +kernel
  have listed : ∀ j ∈ sampleLedgerGrown.projectIntegrity sampleProject,
      j.recordHash ≠ List.replicate 64 0x30 ∧ j.payloadHash ≠ List.replicate 64 0x30 := by
    decide +kernel
  have rehashed : ∀ j ∈ (sampleLedgerGrown.chain sampleProject).take 2,
      ∀ d ∈ sampleLedgerGrown.decisions, Ledger.matchRow d j = true →
        (rowToAuthorization sampleGrownPlatform d >>=
          calculateAuthorizationPayloadHash sampleGrownPlatform) = .ok j.payloadHash := by
    decide +kernel
  refine (@verify_bundle_determines_history sampleGrownPlatform (referencePlatform_lawful _)
    (hexPlatform_hex sampleGrownTable (by decide +kernel)) sampleLedgerGrown
    sampleLedgerGrown_genuine sampleProject 2 sampleRefundIntegrity (by decide +kernel) rfl
    (fun j member => ⟨hexPlatform_binding sampleGrownTable distinct _ (listed j member).1,
      hexPlatform_binding sampleGrownTable distinct _ (listed j member).2⟩)).2.mpr ?_
    sampleGrownBundle samplePay.evaluatedAt
    (verifiedBundleReport sampleGrownBundle samplePay.evaluatedAt) ⟨by decide +kernel, rfl⟩
  rintro j inside a ⟨d, stored, matched, read⟩
  have hashed := rehashed j inside d stored matched
  rw [read] at hashed
  exact hashed

/-! Two keys that are written alike: the row keeps its keys in order and is read back with
another member under the key that is written. -/

def collidingPay : AuthorizationResponse :=
  { samplePay with
    context := ⟨[([0xd801], .int 2), ([0xd800], .int 1)], by decide, by decide, rfl⟩ }

def collidingPayload : Str := "ea4c69c4b12807d100992da21e1e71e21d6fa540ad3c8d2482d8e1f958ad55d2"

def collidingRecord : Str := "f6195439cf9de66008531772fdf94461d66fd6ba4a3ab9d94277e0f590d241d9"

theorem collidingRecord_digest : isSha256Digest collidingRecord = true := by decide +kernel

def collidingLedger : Ledger :=
  ⟨[{ samplePayRow with contextJson := "\x7b\"\\ud800\": 1, \"\\ud801\": 2\x7d" }],
    [{ samplePayIntegrity with payloadHash := collidingPayload, recordHash := collidingRecord }]⟩

def collidingProof : DecisionIntegrityProof :=
  { sampleProof with
    payloadHash := ⟨collidingPayload, by decide +kernel⟩
    recordHash := ⟨collidingRecord, collidingRecord_digest⟩ }

def collidingBundle : EvidenceBundle where
  manifest :=
    { sampleManifest with
      chainHeadHash := some ⟨collidingRecord, collidingRecord_digest⟩
      recordsSha256 :=
        ⟨"504b0e23db214a5cf59317e69eda94c4745bd7e5e96af58311af0e8b2bf6377b", by decide +kernel⟩
      chainSha256 :=
        ⟨"88886b02bc4d07c27e67b7bc60cb2731f1f5c9cae29e3695d676065eb3931405", by decide +kernel⟩
      bundleSha256 :=
        ⟨"c5157ca97b1f8c3b8f0262edb7dd7e42d82d17879951863b548e3ddb20f64ee1", by decide +kernel⟩ }
  records := [⟨collidingPay, collidingProof⟩]
  chain := [collidingProof]

def collidingTable : List (Bytes × Str) :=
  [(canonicalBytes collidingPay.payload, collidingPayload),
    (canonicalBytes collidingProof.fields.envelope, collidingRecord)] ++ bundleTable collidingBundle

def collidingPlatform : Platform := referencePlatform (tableSha256 collidingTable)

theorem collidingLedger_saved : Ledger.save collidingPlatform ⟨[], []⟩ collidingPay =
    .ok (collidingLedger, collidingProof) := by decide +kernel

/-- The bundle holds the decision as it was hashed, the ledger as it is read back. -/
theorem colliding_bundle_verifies : CollisionFree collidingPlatform ∧
    Genuine collidingPlatform collidingLedger ∧
    ((collidingLedger.chain sampleProject).map fun i => (i.sequenceNumber, i.recordHash)) =
      [(1, collidingRecord)] ∧
    ∃ report, verifyEvidenceBundle collidingPlatform collidingBundle (some collidingRecord)
        samplePay.evaluatedAt = .ok report ∧ report.verified = true ∧
      ¬ PayloadsAgree collidingPlatform collidingLedger sampleProject 1 collidingBundle := by
  refine ⟨referencePlatform_collisionFree collidingTable (by decide +kernel) (by decide +kernel),
    .saved collidingPay collidingProof (.initialized ⟨[], []⟩ ⟨[], []⟩ (by decide) rfl rfl)
      collidingLedger_saved, by decide +kernel,
    verifiedBundleReport collidingBundle samplePay.evaluatedAt, by decide +kernel, rfl, ?_⟩
  intro agree
  obtain ⟨-, -, -, a, ⟨d, stored, -, read⟩, same⟩ :=
    agree ⟨collidingPay, collidingProof⟩ (List.mem_singleton_self _) (by decide)
  have hashed : calculateAuthorizationPayloadHash collidingPlatform collidingPay =
      .ok collidingPayload := by decide +kernel
  have rehashed : ∀ d ∈ collidingLedger.decisions, (rowToAuthorization collidingPlatform d >>=
      calculateAuthorizationPayloadHash collidingPlatform) ≠ .ok collidingPayload := by
    decide +kernel
  have other := rehashed d stored
  rw [read] at other
  exact other (same.hash hashed)

end DecAustrum
