import DecAustrum.Digestible
import DecAustrum.ExecutionGrants
import DecAustrum.Reference

/-!
# Tokens and payloads

Reading a token gives the payload it was built from, and no other spelling of a payload is
accepted.
-/
namespace DecAustrum

open Python Base64

/-! ## Splitting -/

theorem split_ne_nil (separator : CodePoint) (text : Str) : split separator text ≠ [] := by
  cases text with
  | nil => simp [split]
  | cons c rest =>
    rw [split]
    split
    · simp
    · split <;> simp

theorem split_clean {separator : CodePoint} {text : Str} (clean : separator ∉ text) :
    split separator text = [text] := by
  induction text with
  | nil => rfl
  | cons c rest ih =>
    rw [List.mem_cons, not_or] at clean
    rw [split, if_neg (Ne.symm clean.1), ih clean.2]

theorem split_append {separator : CodePoint} {text : Str} (clean : separator ∉ text) (rest : Str) :
    split separator (text ++ separator :: rest) = text :: split separator rest := by
  induction text with
  | nil => simp [split]
  | cons c text ih =>
    rw [List.mem_cons, not_or] at clean
    rw [List.cons_append, split, if_neg (Ne.symm clean.1), ih clean.2]

/-- The parts of a split, joined again. -/
theorem intercalate_split (separator : CodePoint) (text : Str) :
    [separator].intercalate (split separator text) = text := by
  induction text with
  | nil => rfl
  | cons c rest ih =>
    rw [split]
    split
    next same =>
      subst same
      cases parts : split c rest with
      | nil => exact absurd parts (split_ne_nil c rest)
      | cons part parts' =>
        rw [parts] at ih
        rw [← ih]
        simp [List.intercalate, List.intersperse]
    next =>
      split
      next none => exact absurd none (split_ne_nil separator rest)
      next part parts found =>
        rw [found] at ih
        rw [← ih]
        cases parts <;> simp [List.intercalate, List.intersperse]

theorem of_split_three {separator : CodePoint} {text a b c : Str}
    (parts : split separator text = [a, b, c]) :
    text = a ++ separator :: (b ++ separator :: c) := by
  rw [← intercalate_split separator text, parts]
  simp [List.intercalate, List.intersperse]

/-! ## Base64 segments -/

def IsAscii (text : Str) : Prop := ∀ c ∈ text, c.val < 128

theorem compareDigest_ascii {a b : Str} (left : IsAscii a) (right : IsAscii b) :
    EvidenceStore.compareDigest a b = .ok (decide (a = b)) := by
  have both : ((a ++ b).all fun c => c.val < 128) = true := by
    simp only [List.all_eq_true, List.mem_append, decide_eq_true_eq]
    rintro c (member | member)
    · exact left c member
    · exact right c member
  rw [EvidenceStore.compareDigest, if_pos both]

theorem compareDigest_ok {a b : Str} {same : Bool}
    (compared : EvidenceStore.compareDigest a b = .ok same) :
    IsAscii b ∧ same = decide (a = b) := by
  unfold EvidenceStore.compareDigest at compared
  split at compared
  next ascii =>
    refine ⟨fun c member => ?_, (Except.ok.inj compared).symm⟩
    simpa using List.all_eq_true.mp ascii c (List.mem_append_right _ member)
  next => cases compared

theorem base64urlEncode_ascii (data : Bytes) : IsAscii (base64urlEncode data) :=
  fun c member => isEncoded_ascii (isEncoded_base64urlEncode data c member)

theorem encodeAscii_of_isAscii {text : Str} (ascii : IsAscii text) :
    ∃ bytes, encodeAscii text = some bytes := by
  refine ⟨_, if_pos ?_⟩
  simpa [IsAscii] using ascii

theorem isAscii_of_encodeAscii {text : Str} {bytes : Bytes}
    (encoded : encodeAscii text = some bytes) : IsAscii text := by
  unfold encodeAscii at encoded
  split at encoded
  next ascii => simpa [IsAscii] using ascii
  next => cases encoded

theorem not_mem_base64urlEncode {c : CodePoint} (other : isEncoded c = false) (data : Bytes) :
    c ∉ base64urlEncode data := by
  intro member
  exact isEncoded_ne (isEncoded_base64urlEncode data c member) other rfl

theorem base64urlDecode_encode {data : Bytes} (nonempty : data ≠ []) :
    base64urlDecode (base64urlEncode data) = .ok data := by
  obtain ⟨bytes, ascii⟩ := encodeAscii_of_isAscii (base64urlEncode_ascii data)
  have proper : ¬ (base64urlEncode data = [] ∨ pad ∈ base64urlEncode data) := by
    rw [base64urlEncode_nil_iff, not_or]
    exact ⟨nonempty, not_mem_base64urlEncode (by decide) data⟩
  simp only [base64urlDecode, if_neg proper, ascii, b64decode_base64urlEncode,
    compareDigest_ascii (base64urlEncode_ascii data) (base64urlEncode_ascii data)]
  rfl

/-- A decoded text is the encoding of its bytes. -/
theorem base64urlEncode_of_decode {value : Str} {data : Bytes}
    (decoded : base64urlDecode value = .ok data) : base64urlEncode data = value := by
  unfold base64urlDecode at decoded
  split at decoded
  · cases decoded
  split at decoded
  next bytes found ascii _ =>
    rw [compareDigest_ascii (base64urlEncode_ascii _) (isAscii_of_encodeAscii ascii),
      Except.mapError, bind_eq_ok] at decoded
    obtain ⟨canonical, compared, decoded⟩ := decoded
    cases compared
    split at decoded
    next same =>
      cases decoded
      exact of_decide_eq_true same
    next => cases decoded
  next => cases decoded

/-! ## Payloads -/

theorem ExecutionGrantPayload.dump_unique (p : ExecutionGrantPayload) :
    p.dump.uniqueKeys = true := by
  refine uniqueKeys_obj _ (by simp only [List.map_cons, List.map_nil]; decide) ?_
  simp [Json.uniqueKeys, dumpUtc]

theorem ExecutionGrantPayload.dump_digestible (p : ExecutionGrantPayload) : Digestible p.dump := by
  refine .record (by simp only [List.all_cons, List.all_nil]; decide) ?_
  simp only [List.map_cons, List.map_nil, List.mem_cons, List.not_mem_nil, or_false,
    forall_eq_or_imp, forall_eq]
  exact ⟨⟨by decide, by simp [Json.strings]⟩, digestible_uuid _, digestible_uuid _,
    digestible_uuid _, digestible_digest _, digestible_json _, digestible_json _⟩

section

variable {platform : Platform} (lawful : platform.Lawful)

include lawful

theorem readTimezone_isoformat (d : UtcDatetime) :
    readTimezone platform (.str d.val.isoformat) = .ok (some d) := by
  rw [readTimezone, lawful.readDatetime_isoformat]
  simp only [UtcDatetime.of_val]

theorem ExecutionGrantPayload.validate_dump (p : ExecutionGrantPayload) :
    ExecutionGrantPayload.validate platform p.dump.sortKeys = .ok p := by
  have unique := p.dump_unique
  have zoned (key : Str) (d : UtcDatetime) (found : p.dump.get? key = some (dumpUtc d)) :
      raisingField key none (readTimezone platform) p.dump.sortKeys = .ok (some d) :=
    raisingField_sorted key none _ p.dump _ d unique found (readTimezone_json lawful d)
  rw [ExecutionGrantPayload.validate, bind_eq_ok]
  refine ⟨_, zoned "issued_at" p.issuedAt rfl, ?_⟩
  rw [bind_eq_ok]
  refine ⟨_, zoned "expires_at" p.expiresAt rfl, ?_⟩
  rw [orRaise_eq_ok]
  simp only [Option.bind_eq_bind, Option.bind_eq_some_iff]
  exact ⟨(), defaultField_sorted "version" () readSchemaVersion p.dump _ () unique rfl rfl,
    p.grantId, requiredField_sorted "grant_id" platform.readUuid p.dump _ p.grantId unique rfl
      (lawful.readUuid_str _),
    p.decisionId, requiredField_sorted "decision_id" platform.readUuid p.dump _ p.decisionId unique
      rfl (lawful.readUuid_str _),
    p.projectId, requiredField_sorted "project_id" platform.readUuid p.dump _ p.projectId unique rfl
      (lawful.readUuid_str _),
    p.requestFingerprint, requiredField_sorted "request_fingerprint" readDigest p.dump _
      p.requestFingerprint unique rfl (readDigest_dump _),
    p.issuedAt, rfl, p.expiresAt, rfl, dif_pos p.expiry⟩

/-- The segment of a payload is the encoding of bytes that read as the payload. -/
theorem payloadSegment_spec (p : ExecutionGrantPayload) : ∃ data text,
    payloadSegment platform p = .ok (base64urlEncode data) ∧ data ≠ [] ∧
      decodeUtf8 data = some text ∧ Json.loads platform.floats text = .ok p.dump.sortKeys := by
  have digestible := p.dump_digestible
  obtain ⟨data, encoded⟩ := digestible.encodes lawful
  have dumped : p.dump.dumps platform.floats .canonical =
      some (p.dump.sortKeys.text platform.floats .canonical) :=
    (Json.dumps_eq_some_iff _ _ _ _).mpr ⟨digestible.encodable, rfl⟩
  have loaded := Json.loads_dumps platform.floats .canonical lawful.floats Style.canonical_lawful
    p.dump _ p.dump_unique (Json.readable_raw _) dumped
  have decoded := decodeUtf8_encodeUtf8 _ data encoded
  refine ⟨data, _, ?_, ?_, decoded, loaded⟩
  · rw [payloadSegment, canonicalJson, dumped]
    simp [orRaise, raising, encoded, Except.mapError, bind, Except.bind, pure, Except.pure]
  · rintro rfl
    rw [decodeUtf8, Option.some.injEq] at decoded
    rw [← decoded] at loaded
    cases loaded

theorem readSegment_payloadSegment {p : ExecutionGrantPayload} {segment : Str}
    (written : payloadSegment platform p = .ok segment) : readSegment platform segment = .ok p := by
  obtain ⟨data, text, segment_eq, nonempty, decoded, loaded⟩ := payloadSegment_spec lawful p
  rw [written, Except.ok.injEq] at segment_eq
  subst segment_eq
  simp only [readSegment, base64urlDecode_encode nonempty, decoded, loaded,
    ExecutionGrantPayload.validate_dump lawful p, bind, Except.bind]

/-! ## Tokens -/

variable {hmac : HmacSha256}

omit lawful in
theorem raising_eq_ok {α : Type} {exc : PyExc} {value : Option α} {a : α} :
    raising exc value = .ok a ↔ value = some a := by
  cases value <;> simp [raising, orRaise, Except.mapError]

omit lawful in
theorem sign_spec {key : Bytes} {segment : Str} (ascii : IsAscii segment) :
    ∃ signature, sign hmac key segment = .ok signature ∧ signature ≠ [] := by
  have whole : IsAscii (executionGrantPrefix ++ dot :: segment) := by
    intro c member
    rw [List.mem_append, List.mem_cons] at member
    rcases member with member | rfl | member
    · have plain : executionGrantPrefix.all (fun c => decide (c.val < 128)) = true := by decide
      exact of_decide_eq_true (List.all_eq_true.mp plain c member)
    · decide
    · exact ascii c member
  obtain ⟨bytes, encoded⟩ := encodeAscii_of_isAscii whole
  refine ⟨hmac.digest key bytes, ?_, ?_⟩
  · rw [sign, raising_eq_ok.mpr encoded]
    rfl
  · intro empty
    have size := hmac.size key bytes
    rw [empty] at size
    cases size

omit lawful in
/-- The parts of a token. -/
theorem build_eq_ok {p : ExecutionGrantPayload} {secret token : Str} :
    buildExecutionGrantToken platform hmac p secret = .ok token ↔
      ∃ key segment signature, validateSecret secret = .ok key ∧
        payloadSegment platform p = .ok segment ∧ sign hmac key segment = .ok signature ∧
          executionGrantPrefix ++ dot :: (segment ++ dot :: base64urlEncode signature) = token := by
  simp only [buildExecutionGrantToken, bind_eq_ok]
  constructor
  · rintro ⟨key, validated, segment, written, signature, signed, done⟩
    cases done
    exact ⟨key, segment, signature, validated, written, signed, rfl⟩
  · rintro ⟨key, segment, signature, validated, written, signed, rfl⟩
    exact ⟨key, validated, segment, written, signature, signed, rfl⟩

omit lawful in
theorem dot_not_mem_prefix : dot ∉ executionGrantPrefix := by decide

/-- Every payload has a token, and the token reads as the payload. -/
theorem parse_build {secret : Str} {key : Bytes} (validated : validateSecret secret = .ok key)
    (p : ExecutionGrantPayload) : ∃ token,
      buildExecutionGrantToken platform hmac p secret = .ok token ∧
        parseExecutionGrantToken platform hmac token secret = .ok p := by
  obtain ⟨data, -, written, -, -⟩ := payloadSegment_spec lawful p
  obtain ⟨signature, signed, nonempty⟩ := @sign_spec hmac key _ (base64urlEncode_ascii data)
  refine ⟨_, build_eq_ok.mpr ⟨key, _, signature, validated, written, signed, rfl⟩, ?_⟩
  have clean (bytes : Bytes) : dot ∉ base64urlEncode bytes :=
    not_mem_base64urlEncode (by decide) bytes
  have parts : split dot (executionGrantPrefix ++
      dot :: (base64urlEncode data ++ dot :: base64urlEncode signature)) =
      [executionGrantPrefix, base64urlEncode data, base64urlEncode signature] := by
    rw [split_append dot_not_mem_prefix, split_append (clean data), split_clean (clean signature)]
  simp only [parseExecutionGrantToken, validated, parts, signed, written,
    base64urlDecode_encode nonempty, readSegment_payloadSegment lawful written, bind, Except.bind,
    ne_eq, not_true_eq_false, if_false]

omit lawful in
/-- A token that reads as a payload is the one token built from it. -/
theorem build_of_parse {secret token : Str} {p : ExecutionGrantPayload}
    (parsed : parseExecutionGrantToken platform hmac token secret = .ok p) :
    buildExecutionGrantToken platform hmac p secret = .ok token := by
  rw [parseExecutionGrantToken, bind_eq_ok] at parsed
  obtain ⟨key, validated, parsed⟩ := parsed
  split at parsed
  next head segment signature parts =>
    split at parsed
    · cases parsed
    next known =>
    rw [bind_eq_ok] at parsed
    obtain ⟨expected, signed, parsed⟩ := parsed
    rw [bind_eq_ok] at parsed
    obtain ⟨actual, decoded, parsed⟩ := parsed
    split at parsed
    · cases parsed
    next authentic =>
    rw [bind_eq_ok] at parsed
    obtain ⟨payload, -, parsed⟩ := parsed
    rw [bind_eq_ok] at parsed
    obtain ⟨canonical, written, parsed⟩ := parsed
    split at parsed
    · cases parsed
    next same =>
    cases parsed
    rw [ne_eq, not_not] at known authentic same
    subst known authentic same
    refine build_eq_ok.mpr ⟨key, canonical, expected, validated, written, signed, ?_⟩
    rw [base64urlEncode_of_decode decoded]
    exact (of_split_three parts).symm
  next => cases parsed

/-! ## Stored grants -/

omit lawful in
theorem readGrantStatus_text (status : GrantStatus) :
    readGrantStatus (.str status.text) = some status := by
  cases status <;> rfl

/-- A stored grant reads back as it was. -/
theorem toGrant_stored (g : ExecutionGrantRecord) : g.stored.toGrant platform = .ok g := by
  have consumed : timezoneColumn platform g.stored.consumedAt = .ok (some g.consumedAt) := by
    simp only [ExecutionGrantRecord.stored]
    cases g.consumedAt with
    | none => rfl
    | some d =>
      simp only [Option.map_some, timezoneColumn, readTimezone_isoformat lawful]
      rfl
  have consumer : readColumn SearchText.validate g.stored.consumedBy = some g.consumedBy := by
    simp only [ExecutionGrantRecord.stored]
    cases g.consumedBy with
    | none => rfl
    | some t => simp [readColumn, SearchText.validate_text]
  rw [StoredGrant.toGrant, bind_eq_ok]
  refine ⟨_, readTimezone_isoformat lawful g.issuedAt, ?_⟩
  rw [bind_eq_ok]
  refine ⟨_, readTimezone_isoformat lawful g.expiresAt, ?_⟩
  rw [bind_eq_ok]
  refine ⟨_, consumed, ?_⟩
  rw [orRaise_eq_ok]
  simp only [Option.bind_eq_bind, Option.bind_eq_some_iff]
  refine ⟨g.grantId, lawful.readUuid_str _, g.decisionId, lawful.readUuid_str _, g.projectId,
    lawful.readUuid_str _, g.requestFingerprint, Sha256Digest.validate_val _, g.issuedAt, rfl,
    g.expiresAt, rfl, g.status, readGrantStatus_text _, g.tokenHash, Sha256Digest.validate_val _,
    g.consumedAt, rfl, g.consumedBy, consumer, ?_⟩
  rw [dif_pos g.expiry, dif_pos g.consumption]
  rfl

omit lawful in
/-- The typed row of a grant reads back as well. -/
theorem rowToGrant_row (g : ExecutionGrantRecord) : rowToGrant g.row = .ok g := by
  obtain ⟨payload, status, tokenHash, consumedAt, consumedBy, consumption⟩ := g
  rw [rowToGrant, bind_eq_ok]
  refine ⟨payload.grantId, rfl, ?_⟩
  rw [bind_eq_ok]
  refine ⟨payload.requestFingerprint, (orRaise_eq_ok _ _ _).mpr (Sha256Digest.validate_val _), ?_⟩
  rw [bind_eq_ok]
  refine ⟨tokenHash, (orRaise_eq_ok _ _ _).mpr (Sha256Digest.validate_val _), ?_⟩
  cases consumedBy with
  | none =>
    refine (bind_eq_ok _ _ _).mpr ⟨none, rfl, ?_⟩
    exact (dif_pos payload.expiry).trans (dif_pos consumption)
  | some t =>
    refine (bind_eq_ok _ _ _).mpr ⟨some t, ?_, ?_⟩
    · simp only [SearchText.validate_text]
      rfl
    · exact (dif_pos payload.expiry).trans (dif_pos consumption)

/-- Building and reading tokens are inverse to each other, and a grant read back from its row
gives the token it was issued with. -/
theorem token_codec (hmac : HmacSha256) (secret : Str) :
    (∀ key, encodeUtf8 secret = some key → 32 ≤ key.length → ∀ p : ExecutionGrantPayload,
        ∃ token, buildExecutionGrantToken platform hmac p secret = .ok token ∧
          parseExecutionGrantToken platform hmac token secret = .ok p) ∧
      (∀ token p, parseExecutionGrantToken platform hmac token secret = .ok p →
        buildExecutionGrantToken platform hmac p secret = .ok token) ∧
      ∀ grant : ExecutionGrantRecord, ∃ read, grant.stored.toGrant platform = .ok read ∧
        buildExecutionGrantToken platform hmac read.toExecutionGrantPayload secret =
          buildExecutionGrantToken platform hmac grant.toExecutionGrantPayload secret := by
  refine ⟨?_, ?_, ?_⟩
  · intro key encoded size
    apply parse_build lawful
    rw [validateSecret, raising_eq_ok.mpr encoded]
    exact if_neg (Nat.not_lt.mpr size)
  · exact fun _ _ => build_of_parse
  · intro grant
    exact ⟨grant, toGrant_stored lawful grant, rfl⟩

end

/-! ## A token -/

def sampleIssuedAt : UtcDatetime := sampleMoment

def sampleExpiresAt : UtcDatetime :=
  ⟨⟨2025, 1, 2, 4, 4, 5, 0, some 0, sampleDate_valid, by decide, utcOffset_valid⟩, rfl⟩

def sampleDigest : Sha256Digest := ⟨List.replicate 64 0x61, by decide⟩

theorem sampleIssued_lt_expires : sampleIssuedAt < sampleExpiresAt := by decide

def samplePayload : ExecutionGrantPayload :=
  ⟨⟨7⟩, ⟨2⟩, ⟨1⟩, sampleDigest, sampleIssuedAt, sampleExpiresAt, sampleIssued_lt_expires⟩

def sampleSecret : Str := List.replicate 32 0x6b

/-- The signature of the sample payload under the sample secret. -/
def sampleHmac : HmacSha256 where
  digest _ _ := [33, 13, 152, 190, 238, 54, 4, 6, 190, 117, 234, 78, 249, 90, 10, 195, 205, 164, 4,
    137, 179, 107, 190, 148, 78, 88, 8, 86, 50, 75, 21, 66]
  size _ _ := rfl

theorem token_codec_sample :
    ∃ token, buildExecutionGrantToken (referencePlatform fun _ => []) sampleHmac samplePayload
        sampleSecret = .ok token ∧
      parseExecutionGrantToken (referencePlatform fun _ => []) sampleHmac token sampleSecret =
        .ok samplePayload :=
  (token_codec (referencePlatform_lawful _) sampleHmac sampleSecret).1 (List.replicate 32 0x6b)
    (by decide) (by decide) samplePayload

end DecAustrum
