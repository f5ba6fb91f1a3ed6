import DecAustrum.Storage.Approvals

/-!
# Grants read from their rows

What the record of a grant shares with the row it was read from.
-/
namespace DecAustrum

open Python

/-- The columns of a row that its record repeats. -/
structure ReadsGrant (row : GrantRow Uuid UtcDatetime) (grant : ExecutionGrantRecord) : Prop where
  grantId : row.grantId = some grant.grantId
  decisionId : row.decisionId = grant.decisionId
  projectId : row.projectId = grant.projectId
  status : row.status = grant.status
  requestFingerprint : row.requestFingerprint = grant.requestFingerprint.val
  tokenHash : row.tokenHash = grant.tokenHash.val
  issuedAt : row.issuedAt = grant.issuedAt
  expiresAt : row.expiresAt = grant.expiresAt
  consumedAt : row.consumedAt = grant.consumedAt

theorem readsGrant_of_rowToGrant {row : GrantRow Uuid UtcDatetime} {grant : ExecutionGrantRecord}
    (read : rowToGrant row = .ok grant) : ReadsGrant row grant := by
  rw [rowToGrant, bind_eq_ok] at read
  obtain ⟨grantId, identified, read⟩ := read
  rw [bind_eq_ok] at read
  obtain ⟨requestFingerprint, fingerprint, read⟩ := read
  rw [bind_eq_ok] at read
  obtain ⟨tokenHash, hashed, read⟩ := read
  rw [orRaise_eq_ok] at identified fingerprint hashed
  extract_lets rest at read
  obtain ⟨consumedBy, read⟩ : ∃ consumedBy, rest consumedBy = .ok grant := by
    split at read
    all_goals
      rw [bind_eq_ok] at read
      obtain ⟨consumedBy, -, read⟩ := read
      exact ⟨consumedBy, read⟩
  unfold rest at read
  split at read
  next expiry =>
    split at read
    next consumption =>
      cases read
      constructor
      · exact identified
      · rfl
      · rfl
      · rfl
      · exact (Sha256Digest.validate_eq_some _ _).mp fingerprint
      · exact (Sha256Digest.validate_eq_some _ _).mp hashed
      · rfl
      · rfl
      · rfl
    next => cases read
  next => cases read

end DecAustrum
