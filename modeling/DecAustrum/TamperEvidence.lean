import DecAustrum.LedgerVerification
import DecAustrum.Reference

/-!
# Tamper evidence

Two states of the ledger that both verify against one checkpoint hold the same history up
to the record of that checkpoint.
-/
namespace DecAustrum

open Python HashChain

/-- A list up to and including its first element with the property. -/
def upThrough {α : Type} (p : α → Bool) : List α → List α
  | [] => []
  | a :: rest => if p a then [a] else a :: upThrough p rest

theorem upThrough_split {α : Type} (p : α → Bool) (l : List α) (found : ∃ a ∈ l, p a = true) :
    ∃ front a back, l = front ++ a :: back ∧ p a = true ∧ upThrough p l = front ++ [a] := by
  induction l with
  | nil => simp at found
  | cons b rest ih =>
    rw [upThrough]
    split
    · next here => exact ⟨[], b, rest, rfl, here, rfl⟩
    · next notHere =>
      have later : ∃ a ∈ rest, p a = true := by
        rcases found with ⟨a, member, holds⟩
        rcases List.mem_cons.mp member with rfl | inside
        · exact absurd holds notHere
        · exact ⟨a, inside, holds⟩
      rcases ih later with ⟨front, a, back, rfl, holds, same⟩
      exact ⟨b :: front, a, back, rfl, holds, by rw [same]; rfl⟩

theorem upThrough_map {α β : Type} (f : α → β) (p : β → Bool) (l : List α) :
    upThrough p (l.map f) = (upThrough (fun a => p (f a)) l).map f := by
  induction l with
  | nil => rfl
  | cons a rest ih =>
    simp only [List.map_cons, upThrough, ih]
    split <;> rfl

/-- The chain of a project up to and including the record of a checkpoint. -/
def Ledger.chainUpTo (ledger : Ledger) (project : Uuid) (head : Str) : List IntegrityRow :=
  upThrough (fun i => decide (i.recordHash = head)) (ledger.chain project)

/-- The record covers a stored decision row, which is read back as `a`. -/
def Covers (platform : Platform) (ledger : Ledger) (i : IntegrityRow) (a : AuthorizationResponse) :
    Prop :=
  ∃ d ∈ ledger.decisions, Ledger.matchRow d i = true ∧ rowToAuthorization platform d = .ok a

/-- Both decisions have payloads, which are equal. -/
def SamePayload (a b : AuthorizationResponse) : Prop :=
  ∃ p q, authorizationPayloadV1 a = .ok p ∧ authorizationPayloadV1 b = .ok q ∧ p.sortKeys = q.sortKeys

/-- Values of the digest are equal, key order apart. -/
def OnePreimage (platform : Platform) (hash : Str) : Prop :=
  ∀ v w, digest platform v = .ok hash → digest platform w = .ok hash → v.sortKeys = w.sortKeys

theorem forall₂_of_map_eq {α β : Type} (f : α → β) (R : α → α → Prop) (l l' : List α)
    (same : l.map f = l'.map f) (holds : ∀ a ∈ l, ∀ b ∈ l', f a = f b → R a b) :
    List.Forall₂ R l l' := by
  induction l generalizing l' with
  | nil =>
    obtain rfl := List.map_eq_nil_iff.mp same.symm
    exact .nil
  | cons a l ih =>
    cases l' with
    | nil => cases same
    | cons b l' =>
      rw [List.map_cons, List.map_cons, List.cons.injEq] at same
      refine .cons (holds a (by simp) b (by simp) same.1) (ih l' same.2 ?_)
      exact fun c inside d inside' => holds c (by simp [inside]) d (by simp [inside'])

variable {platform : Platform}

theorem CollisionFree.single (collisionFree : CollisionFree platform) (hash : Str) :
    OnePreimage platform hash := fun v w => collisionFree v w hash

namespace OnePreimage

variable {hash : Str}

/-- A record hash has one envelope behind it. -/
theorem envelope (single : OnePreimage platform hash) (e f : EnvelopeFields)
    (eHashes : EnvelopeHashes platform e hash) (fHashes : EnvelopeHashes platform f hash) : e = f :=
  EnvelopeFields.envelope_inj e f (single _ _ eHashes fHashes)

/-- A payload hash has one payload behind it. -/
theorem payload (single : OnePreimage platform hash) (a b : AuthorizationResponse)
    (aHashes : calculateAuthorizationPayloadHash platform a = .ok hash)
    (bHashes : calculateAuthorizationPayloadHash platform b = .ok hash) : SamePayload a b := by
  rw [payloadHash_eq_ok] at aHashes bHashes
  exact ⟨a.payload, b.payload, (authorizationPayloadV1_eq_ok a _).mpr ⟨aHashes.1, rfl⟩,
    (authorizationPayloadV1_eq_ok b _).mpr ⟨bHashes.1, rfl⟩, single _ _ aHashes.2 bHashes.2⟩

end OnePreimage

/-- What acceptance against a checkpoint says of the chain up to it. -/
private theorem chainUpTo_checked (ledger : Ledger) (project : Uuid) (head : Str) (now : Datetime)
    (report : DecisionIntegrityVerification) (keys : ledger.Keys)
    (verified : ledger.verify platform project (some head) now = .ok report ∧
      report.verified = true) :
    ∃ checked : List CheckedRow, checked.map CheckedRow.integrity = ledger.chainUpTo project head ∧
      (ledger.chainUpTo project head).getLast?.map (·.recordHash) = some head ∧
      Linked (EnvelopeHashes platform) EnvelopeFields.previousHash (checked.map CheckedRow.fields)
        (some head) ∧
      ∀ r ∈ checked, Covers platform ledger r.integrity r.authorization ∧
        calculateAuthorizationPayloadHash platform r.authorization = .ok r.integrity.payloadHash := by
  rcases (verify_verified_iff ledger project (some head) now report).mp verified with
    ⟨checked, headHash, verifies, -, -⟩
  have found : ∃ r ∈ checked, decide (r.integrity.recordHash = head) = true := by
    rcases verifies.checkpoint with absent | ⟨r, member, same⟩
    · cases absent
    · exact ⟨r, member, by simpa using same⟩
  rcases upThrough_split _ checked found with ⟨front, r, back, rfl, isHead, cut⟩
  have whole : Accepted platform 0 none ((front ++ [r]) ++ back) := by
    simpa using verifies.accepted
  have accepted : Accepted platform 0 none (front ++ [r]) := whole.take
  have rows := congrArg (List.map Prod.snd) verifies.rows
  rw [verificationRows_chain ledger project keys verifies.matched, List.map_map] at rows
  have chain : ledger.chain project = (front ++ r :: back).map CheckedRow.integrity := rows.symm
  have upTo : ledger.chainUpTo project head = (front ++ [r]).map CheckedRow.integrity := by
    rw [Ledger.chainUpTo, chain, upThrough_map, cut]
  refine ⟨front ++ [r], upTo.symm, ?_, ?_, ?_⟩
  · simpa [upTo] using isHead
  · have linked := accepted.walk.linked
    rwa [hashAfter_snoc, of_decide_eq_true isHead] at linked
  · intro s member
    have inRows : s.row ∈ ledger.verificationRows project (ledger.maxSequenceNumber project) := by
      rw [← verifies.rows]
      refine List.mem_map_of_mem ?_
      simp only [List.mem_append, List.mem_cons, List.not_mem_nil, or_false] at member ⊢
      rcases member with inside | same
      · exact .inl inside
      · exact .inr (.inl same)
    have stored := mem_verificationRows ledger project _ _ inRows
    have payload := accepted.payload s member
    exact ⟨⟨s.decision, stored.1, stored.2.2, payload.1⟩, payload.2⟩

/-- The history both states hold, record by record: one decision id and one payload. -/
theorem verify_checkpoint_determines_history (collisionFree : CollisionFree platform)
    (first second : Ledger) (project : Uuid) (head : Str) (now later : Datetime)
    (report report' : DecisionIntegrityVerification) (keys : first.Keys) (keys' : second.Keys)
    (verified : first.verify platform project (some head) now = .ok report ∧
      report.verified = true)
    (verified' : second.verify platform project (some head) later = .ok report' ∧
      report'.verified = true) :
    (first.chainUpTo project head).length = (second.chainUpTo project head).length ∧
      (first.chainUpTo project head).getLast?.map (·.recordHash) = some head ∧
      (second.chainUpTo project head).getLast?.map (·.recordHash) = some head ∧
      List.Forall₂ (fun i j => ∃ a b, Covers platform first i a ∧ Covers platform second j b ∧
        a.decisionId = b.decisionId ∧ SamePayload a b)
        (first.chainUpTo project head) (second.chainUpTo project head) := by
  rcases chainUpTo_checked first project head now report keys verified with
    ⟨checked, chain, ends, linked, covered⟩
  rcases chainUpTo_checked second project head later report' keys' verified' with
    ⟨checked', chain', ends', linked', covered'⟩
  have same : checked.map CheckedRow.fields = checked'.map CheckedRow.fields :=
    linked.unique (fun e f hash _ _ => (collisionFree.single hash).envelope e f) linked'
  refine ⟨?_, ends, ends', ?_⟩
  · simpa [← chain, ← chain'] using congrArg List.length same
  · rw [← chain, ← chain', List.forall₂_map_left_iff, List.forall₂_map_right_iff]
    refine forall₂_of_map_eq CheckedRow.fields _ checked checked' same ?_
    intro r member s member' fields
    have payloads : r.integrity.payloadHash = s.integrity.payloadHash :=
      congrArg EnvelopeFields.payloadHash fields
    have hashed := (covered r member).2
    rw [payloads] at hashed
    exact ⟨r.authorization, s.authorization, (covered r member).1, (covered' s member').1,
      congrArg EnvelopeFields.decisionId fields,
      (collisionFree.single _).payload _ _ hashed (covered' s member').2⟩

/-! ## A sample ledger

Two decisions of one project, with the digests SHA-256 gives their payloads and envelopes. -/

def sampleProject : Uuid := ⟨1⟩

/-- A second of one minute. -/
def sampleDatetime (second : Nat) : Datetime :=
  ⟨2025, 1, 2, 3, 4, second % 60, 0, some 0, sampleDate_valid,
    ⟨by decide, by decide, Nat.mod_lt _ (by decide), by decide⟩, utcOffset_valid⟩

def sampleAuthorization (id : Fin (2 ^ 128)) (at_ : Datetime) (action : Str) :
    AuthorizationResponse where
  decisionId := ⟨id⟩
  projectId := sampleProject
  evaluatedAt := at_
  decision := .allow
  policy := none
  policyVersion := none
  reason := "No policy matched."
  evidence := none
  agent := "billing"
  action := action
  context := sampleEmptyContext
  trace := []

def samplePay : AuthorizationResponse :=
  sampleAuthorization 10 (sampleDatetime 5) "pay"

def sampleRefund : AuthorizationResponse :=
  sampleAuthorization 11 (sampleDatetime 6) "refund"

def samplePayPayload : Str := "9cfa2b9273eb489f2a35a111f6c83f1fa5118fc807c482e024e6defc8dea12ad"

def samplePayRecord : Str := "2162c22bca3e6ab6daef211cf18f98399d687dcc72cfdb9141569ef9689cdcb3"

theorem samplePayRecord_digest : isSha256Digest samplePayRecord = true := by decide +kernel

def sampleRefundPayload : Str := "27bcbccc553a2ea8e311abbe722ea76d933095ba1a2038c96a32deffd92e7ec9"

def sampleRefundRecord : Str := "6482f654f9bebb4350b60c9a6ab70953bf60422e26c7a1d1014563472296908a"

theorem sampleRefundRecord_digest : isSha256Digest sampleRefundRecord = true := by decide +kernel

/-- The bytes of canonical text, as they come. -/
def canonicalBytes (v : Json) : Bytes :=
  (v.sortKeys.text referenceFloats .canonical).flatMap encodeCodePoint

def sampleTable : List (Bytes × Str) :=
  [(canonicalBytes samplePay.payload, samplePayPayload),
    (canonicalBytes (integrityRecordEnvelope integrityAlgorithm samplePay.evaluatedAt.json
      samplePay.decisionId samplePayPayload none sampleProject 1 1), samplePayRecord),
    (canonicalBytes sampleRefund.payload, sampleRefundPayload),
    (canonicalBytes (integrityRecordEnvelope integrityAlgorithm sampleRefund.evaluatedAt.json
      sampleRefund.decisionId sampleRefundPayload (some samplePayRecord) sampleProject 1 2),
      sampleRefundRecord)]

def samplePlatform : Platform := referencePlatform (tableSha256 sampleTable)

theorem referencePlatform_collisionFree (table : List (Bytes × Str))
    (digests : (table.all fun entry => isSha256Digest entry.2) = true)
    (distinct : (table.map Prod.snd).Nodup) :
    CollisionFree (referencePlatform (tableSha256 table)) :=
  collisionFree_of_injective _ referenceFloats_lawful (tableSha256_inj table digests distinct)

theorem hexPlatform_binding (table : List (Bytes × Str)) (distinct : (table.map Prod.snd).Nodup)
    (hash : Str) (listed : hash ≠ List.replicate 64 0x30) (v w : Json)
    (vHashed : digest (referencePlatform (hexSha256 table)) v = .ok hash)
    (wHashed : digest (referencePlatform (hexSha256 table)) w = .ok hash) :
    v.sortKeys = w.sortKeys :=
  digest_inj _ referenceFloats_lawful hash (hexSha256_single table distinct hash listed) v w vHashed
    wHashed

theorem samplePlatform_collisionFree : CollisionFree samplePlatform :=
  referencePlatform_collisionFree sampleTable (by decide +kernel) (by decide +kernel)

def samplePayRow : DecisionRow :=
  ⟨samplePay.decisionId.str, sampleProject.str, "2025-01-02T03:04:05+00:00", "ALLOW", none, none,
    "No policy matched.", none, "[]", "billing", "pay", "\x7b\x7d"⟩

def sampleRefundRow : DecisionRow :=
  ⟨sampleRefund.decisionId.str, sampleProject.str, "2025-01-02T03:04:06+00:00", "ALLOW", none, none,
    "No policy matched.", none, "[]", "billing", "refund", "\x7b\x7d"⟩

def samplePayIntegrity : IntegrityRow :=
  ⟨samplePay.decisionId.str, sampleProject.str, 1, none, samplePayPayload, samplePayRecord,
    "SHA-256", 1, "2025-01-02T03:04:05+00:00"⟩

def sampleRefundIntegrity : IntegrityRow :=
  ⟨sampleRefund.decisionId.str, sampleProject.str, 2, some samplePayRecord, sampleRefundPayload,
    sampleRefundRecord, "SHA-256", 1, "2025-01-02T03:04:06+00:00"⟩

/-- The ledger after the first decision, and after both. -/
def sampleLedger : Ledger := ⟨[samplePayRow], [samplePayIntegrity]⟩

def sampleLedgerGrown : Ledger :=
  ⟨[samplePayRow, sampleRefundRow], [samplePayIntegrity, sampleRefundIntegrity]⟩

/-- Its rows out of order, one of them with another text for its context. -/
def sampleLedgerEdited : Ledger :=
  ⟨[{ sampleRefundRow with contextJson := "\x7b \x7d" }, samplePayRow],
    [sampleRefundIntegrity, samplePayIntegrity]⟩

def sampleReport (count : Nat) (head : Sha256Digest) : DecisionIntegrityVerification :=
  ⟨sampleProject, true, count, count, some head, samplePay.evaluatedAt, none⟩

theorem verify_checkpoint_determines_history_sample :
    (sampleLedgerGrown.chainUpTo sampleProject sampleRefundRecord).length =
      (sampleLedgerEdited.chainUpTo sampleProject sampleRefundRecord).length ∧
    (sampleLedgerGrown.chainUpTo sampleProject sampleRefundRecord).getLast?.map (·.recordHash) =
      some sampleRefundRecord ∧
    (sampleLedgerEdited.chainUpTo sampleProject sampleRefundRecord).getLast?.map (·.recordHash) =
      some sampleRefundRecord ∧
    List.Forall₂ (fun i j => ∃ a b, Covers samplePlatform sampleLedgerGrown i a ∧
        Covers samplePlatform sampleLedgerEdited j b ∧ a.decisionId = b.decisionId ∧
        SamePayload a b)
      (sampleLedgerGrown.chainUpTo sampleProject sampleRefundRecord)
      (sampleLedgerEdited.chainUpTo sampleProject sampleRefundRecord) :=
  verify_checkpoint_determines_history samplePlatform_collisionFree sampleLedgerGrown
    sampleLedgerEdited sampleProject sampleRefundRecord samplePay.evaluatedAt samplePay.evaluatedAt
    (sampleReport 2 ⟨sampleRefundRecord, sampleRefundRecord_digest⟩)
    (sampleReport 2 ⟨sampleRefundRecord, sampleRefundRecord_digest⟩)
    ⟨by decide +kernel, by decide +kernel, by decide +kernel, by decide +kernel⟩
    ⟨by decide +kernel, by decide +kernel, by decide +kernel, by decide +kernel⟩
    ⟨by decide +kernel, rfl⟩ ⟨by decide +kernel, rfl⟩

end DecAustrum
