import DecAustrum.StoredDecisions

/-!
# Values with a digest

A value has a digest when the encoder accepts it and none of its strings holds a surrogate.
-/
namespace DecAustrum

open Python

variable {platform : Platform}

def IsScalar (s : Str) : Prop := ∀ c ∈ s, isSurrogate c = false

structure Digestible (v : Json) : Prop where
  encodable : v.encodable = true
  scalar : ∀ s ∈ v.strings, IsScalar s

theorem isScalar_of_isPlain (s : Str) (plain : ∀ c ∈ s, isPlain c = true) : IsScalar s := by
  intro c member
  have printable := plain c member
  simp only [isPlain, Bool.and_eq_true, decide_eq_true_eq] at printable
  simp only [isSurrogate, Bool.and_eq_false_iff, decide_eq_false_iff_not, Fin.le_def]
  left
  change ¬ 0xd800 ≤ c.val
  omega

theorem isScalar_of_all (s : Str) (plain : s.all isPlain = true) : IsScalar s :=
  isScalar_of_isPlain s (List.all_eq_true.mp plain)

theorem Digestible.of_digest (v : Json) (hash : Str) (hashed : digest platform v = .ok hash) :
    Digestible v :=
  ⟨((digest_eq_ok_iff platform v hash).mp hashed).1, scalar_of_digest v hash hashed⟩

/-- The canonical text of a digestible value has a UTF-8 form. -/
theorem Digestible.encodes (lawful : platform.Lawful) {v : Json} (digestible : Digestible v) :
    ∃ bytes, encodeUtf8 (v.sortKeys.text platform.floats .canonical) = some bytes :=
  Json.encodes_of_scalar platform.floats lawful.floats v.sortKeys
    (by rw [Json.encodable_sortKeys, digestible.encodable])
    fun s member => digestible.scalar s ((Json.mem_strings_sortKeys s v).mp member)

theorem Digestible.digest (lawful : platform.Lawful) (hex : platform.HexDigests) {v : Json}
    (digestible : Digestible v) : ∃ hash : Sha256Digest, digest platform v = .ok hash.val := by
  obtain ⟨bytes, encoded⟩ := digestible.encodes lawful
  exact ⟨⟨platform.sha256 bytes, hex bytes⟩,
    (digest_eq_ok_iff platform v _).mpr ⟨digestible.encodable, bytes, encoded, rfl⟩⟩

theorem digest_defined_iff (lawful : platform.Lawful) (v : Json) :
    (∃ hash, digest platform v = .ok hash) ↔ Digestible v := by
  constructor
  · rintro ⟨hash, hashed⟩
    exact .of_digest v hash hashed
  · intro digestible
    obtain ⟨bytes, encoded⟩ := digestible.encodes lawful
    exact ⟨_, (digest_eq_ok_iff platform v _).mpr ⟨digestible.encodable, bytes, encoded, rfl⟩⟩

theorem Digestible.str (s : Str) (scalar : IsScalar s) : Digestible (.str s) :=
  ⟨rfl, by simpa [Json.strings] using scalar⟩

theorem Digestible.arr {items : List Json} (each : ∀ v ∈ items, Digestible v) :
    Digestible (.arr items) := by
  refine ⟨(Json.encodableItems_iff items).mpr fun v member => (each v member).encodable, ?_⟩
  intro s member
  rw [Json.strings, Json.mem_stringsItems] at member
  obtain ⟨v, present, inside⟩ := member
  exact (each v present).scalar s inside

theorem Digestible.obj {fields : List (Str × Json)}
    (each : ∀ field ∈ fields, IsScalar field.1 ∧ Digestible field.2) : Digestible (.obj fields) := by
  refine ⟨(Json.encodableFields_iff fields).mpr fun field member => (each field member).2.encodable, ?_⟩
  intro s member
  rw [Json.strings, Json.mem_stringsFields] at member
  obtain ⟨field, present, rfl | inside⟩ := member
  · exact (each field present).1
  · exact (each field present).2.scalar s inside

theorem Digestible.member {fields : List (Str × Json)} (digestible : Digestible (.obj fields))
    (field : Str × Json) (present : field ∈ fields) : Digestible field.2 := by
  refine ⟨(Json.encodableFields_iff fields).mp digestible.encodable field present, ?_⟩
  intro s inside
  refine digestible.scalar s ?_
  rw [Json.strings, Json.mem_stringsFields]
  exact ⟨field, present, .inr inside⟩

theorem Digestible.optional {α : Type} {dump : α → Json} {value : Option α}
    (digestible : ∀ a ∈ value, Digestible (dump a)) : Digestible (dumpOptional dump value) := by
  cases value with
  | none => exact ⟨rfl, by simp [dumpOptional, Json.strings]⟩
  | some a => exact digestible a rfl

/-! ## Records -/

theorem isPlain_digest (d : Sha256Digest) : ∀ c ∈ d.val, isPlain c = true := by
  intro c member
  have form := d.property
  simp only [isSha256Digest, Bool.and_eq_true, List.all_eq_true] at form
  have hexDigit := form.2 c member
  simp only [isPlain, isDigit, Bool.or_eq_true, Bool.and_eq_true, decide_eq_true_eq] at hexDigit ⊢
  omega

theorem digestible_digest (d : Sha256Digest) : Digestible (dumpDigest d) :=
  .str _ (isScalar_of_isPlain _ (isPlain_digest d))

theorem digestible_uuid (u : Uuid) : Digestible (.str u.str) :=
  .str _ (isScalar_of_isPlain _ u.isPlain_str)

theorem digestible_json (d : Datetime) : Digestible (.str d.json) :=
  .str _ (isScalar_of_isPlain _ d.isPlain_json)

/-- A dictionary under plain keys. -/
theorem Digestible.record {fields : List (Str × Json)}
    (keys : (fields.all fun field => field.1.all isPlain) = true)
    (values : ∀ v ∈ fields.map Prod.snd, Digestible v) : Digestible (.obj fields) :=
  .obj fun field present =>
    ⟨isScalar_of_all _ (List.all_eq_true.mp keys field present),
      values field.2 (List.mem_map_of_mem present)⟩

/-- A proof whose number can be printed. -/
theorem DecisionIntegrityProof.dump_digestible (p : DecisionIntegrityProof)
    (printable : Digestible (.int p.sequenceNumber)) : Digestible p.dump := by
  refine .record (by simp only [List.all_cons, List.all_nil]; decide) ?_
  simp only [List.map_cons, List.map_nil, List.mem_cons, List.not_mem_nil, or_false,
    forall_eq_or_imp, forall_eq]
  exact ⟨digestible_uuid _, digestible_uuid _, printable, .optional fun d _ => digestible_digest d,
    digestible_digest _, digestible_digest _, .str _ (isScalar_of_all _ (by decide)),
    ⟨rfl, by simp [Json.strings]⟩, digestible_json _⟩

/-- What is dumped has a digest. -/
def Digests (dump : Except PyExc Json) : Prop := ∃ v, dump = .ok v ∧ Digestible v

theorem AuthorizationResponse.digests_iff (a : AuthorizationResponse) :
    Digests a.dump ↔ a.Dumpable ∧ Digestible a.dumped := by
  simp only [Digests, dump_eq_ok]
  constructor
  · rintro ⟨_, ⟨dumpable, rfl⟩, digestible⟩
    exact ⟨dumpable, digestible⟩
  · rintro ⟨dumpable, digestible⟩
    exact ⟨_, ⟨dumpable, rfl⟩, digestible⟩

theorem VerifiableDecisionRecord.digests_iff (r : VerifiableDecisionRecord) :
    Digests r.dump ↔ r.decision.Dumpable ∧ Digestible r.dumped := by
  simp only [Digests, dump_eq_ok]
  constructor
  · rintro ⟨_, ⟨dumpable, rfl⟩, digestible⟩
    exact ⟨dumpable, digestible⟩
  · rintro ⟨dumpable, digestible⟩
    exact ⟨_, ⟨dumpable, rfl⟩, digestible⟩

theorem VerifiableDecisionRecord.digests (r : VerifiableDecisionRecord)
    (decision : Digests r.decision.dump) (integrity : Digestible r.integrity.dump) :
    Digests r.dump := by
  obtain ⟨dumpable, digestible⟩ := r.decision.digests_iff.mp decision
  refine r.digests_iff.mpr ⟨dumpable, ?_⟩
  refine .record (by simp only [List.all_cons, List.all_nil]; decide) ?_
  simp only [List.map_cons, List.map_nil, List.mem_cons, List.not_mem_nil, or_false,
    forall_eq_or_imp, forall_eq]
  exact ⟨digestible, integrity⟩

/-- The decision of a record with a digest has one. -/
theorem VerifiableDecisionRecord.decision_digests {r : VerifiableDecisionRecord}
    (digests : Digests r.dump) : Digests r.decision.dump := by
  obtain ⟨dumpable, digestible⟩ := r.digests_iff.mp digests
  exact r.decision.digests_iff.mpr
    ⟨dumpable, digestible.member ("decision", r.decision.dumped) (by simp)⟩

/-- A payload is hashed when the dump of its decision has a digest. -/
theorem payloadHash_defined_iff (lawful : platform.Lawful) (a : AuthorizationResponse) :
    (∃ hash, calculateAuthorizationPayloadHash platform a = .ok hash) ↔ Digests a.dump := by
  rw [a.digests_iff, ← digest_defined_iff lawful, ← a.payload_eq_dumped]
  simp only [payloadHash_eq_ok, exists_and_left]

theorem EvidenceBundleManifest.dump_digestible (m : EvidenceBundleManifest)
    (criteria : Digestible m.criteria.dump) (recordCount : Digestible (.int m.recordCount))
    (chainCount : Digestible (.int m.chainRecordCount)) :
    Digestible m.dumpWithoutBundleDigest := by
  refine .record (by simp only [List.all_cons, List.all_nil, EvidenceBundleManifest.fields]; decide) ?_
  simp only [EvidenceBundleManifest.fields, List.map_cons, List.map_nil, List.mem_cons,
    List.not_mem_nil, or_false, forall_eq_or_imp, forall_eq]
  exact ⟨⟨rfl, by simp [Json.strings]⟩, digestible_uuid _, digestible_json _, digestible_json _,
    digestible_uuid _, criteria, recordCount, chainCount, .optional fun d _ => digestible_digest d,
    .optional fun d _ => digestible_digest d, digestible_digest _, digestible_digest _⟩

theorem DecisionSearchFilters.all_digestible : Digestible DecisionSearchFilters.all.dump := by
  have null : Digestible .null := ⟨rfl, by simp [Json.strings]⟩
  refine .record (by decide) ?_
  simp only [DecisionSearchFilters.all, dumpOptional, List.map_cons, List.map_nil, List.mem_cons,
    List.not_mem_nil, or_false, forall_eq_or_imp, forall_eq]
  exact ⟨null, null, null, null, null, null, null, null, null,
    .str _ (isScalar_of_all _ (by decide))⟩

end DecAustrum
