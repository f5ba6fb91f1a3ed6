import DecAustrum.ArchiveRoundTrip
import DecAustrum.Exports
import DecAustrum.RequestEncoding

/-!
# Reading the JSON exports back

The envelope is put together from pieces of text: the metadata without its closing brace, the
records between commas, and the brackets. The lines of the other stream each end in the one
line feed they hold.
-/
namespace DecAustrum

open Python Traversal

variable {platform : Platform}

/-! ## Chunks -/

theorem drain_complete_iff (steps : List (Except PyExc Bytes)) :
    (drain steps).2 = none ↔ steps = (drain steps).1.map .ok := by
  induction steps with
  | nil => exact iff_of_true rfl rfl
  | cons step steps ih =>
    cases step with
    | error exc => simp [drain]
    | ok chunk => simpa [drain] using ih

theorem drain_ok (chunks : List Bytes) : drain (chunks.map .ok) = (chunks, none) := by
  induction chunks with
  | nil => rfl
  | cons chunk chunks ih => rw [List.map_cons, drain, ih]

theorem encodeUtf8_isSome_iff (s : Str) : (∃ bytes, encodeUtf8 s = some bytes) ↔ IsScalar s := by
  unfold encodeUtf8
  constructor
  · rintro ⟨bytes, written⟩
    split at written
    · cases written
    · next scalar => simpa [IsScalar] using scalar
  · intro scalar
    exact ⟨_, if_neg (by simpa [IsScalar] using scalar)⟩

theorem recordChunk_eq_ok_iff (r : VerifiableDecisionRecord) (suffix : Str) (chunk : Bytes) :
    recordChunk platform r suffix = .ok chunk ↔ r.decision.Dumpable ∧ r.dumped.encodable = true ∧
      encodeUtf8 (lineOf platform r.dumped ++ suffix) = some chunk := by
  simp only [recordChunk, bind_eq_ok, VerifiableDecisionRecord.dump_eq_ok, canonicalJson,
    orRaise_eq_ok, Json.dumps_eq_some_iff, encoded, lineOf]
  constructor
  · rintro ⟨_, ⟨dumpable, rfl⟩, _, ⟨accepted, rfl⟩, written⟩
    exact ⟨dumpable, accepted, written⟩
  · rintro ⟨dumpable, accepted, written⟩
    exact ⟨_, ⟨dumpable, rfl⟩, _, ⟨accepted, rfl⟩, written⟩

theorem digests_of_recordChunk {r : VerifiableDecisionRecord} {suffix : Str} {chunk : Bytes}
    (made : recordChunk platform r suffix = .ok chunk) : Digests r.dump := by
  obtain ⟨dumpable, accepted, written⟩ := (recordChunk_eq_ok_iff r suffix chunk).mp made
  refine r.digests_iff.mpr ⟨dumpable, accepted, fun s member => ?_⟩
  have scalar := (encodeUtf8_isSome_iff _).mp ⟨chunk, written⟩
  obtain ⟨bytes, line⟩ := (encodeUtf8_isSome_iff (lineOf platform r.dumped)).mpr
    fun c inside => scalar c (List.mem_append_left _ inside)
  exact Json.scalar_of_encodes platform.floats r.dumped.sortKeys bytes line s
    ((Json.mem_strings_sortKeys s r.dumped).mpr member)

theorem recordChunk_of_digests (lawful : platform.Lawful) {r : VerifiableDecisionRecord}
    (digests : Digests r.dump) (suffix : Str) (plain : IsScalar suffix) :
    ∃ chunk, recordChunk platform r suffix = .ok chunk ∧
      encodeUtf8 (lineOf platform r.dumped ++ suffix) = some chunk := by
  obtain ⟨dumpable, digestible⟩ := r.digests_iff.mp digests
  obtain ⟨line, first⟩ := digestible.encodes lawful
  obtain ⟨rest, second⟩ := (encodeUtf8_isSome_iff suffix).mpr plain
  have written := encodeUtf8_append _ _ _ _ first second
  exact ⟨line ++ rest,
    (recordChunk_eq_ok_iff r suffix _).mpr ⟨dumpable, digestible.encodable, written⟩, written⟩

/-! ## Lines -/

theorem lineFeed_not_mem_lineOf (lawful : platform.Lawful) (v : Json) (accepted : v.encodable = true) :
    (0x0a : CodePoint) ∉ lineOf platform v := by
  intro member
  rcases Json.mem_text platform.floats lawful.floats v.sortKeys
    (by rw [Json.encodable_sortKeys, accepted]) 0x0a member with plain | ⟨raw, -⟩
  · exact absurd plain (by decide)
  · exact absurd raw (by decide)

/-- The byte of a line feed stands for nothing else. -/
theorem lineFeed_mem_encodeCodePoint (c : CodePoint) (member : 0x0a ∈ encodeCodePoint c) :
    c = 0x0a := by
  have below := c.isLt
  have value (n : Nat) (small : n < 256) (same : (0x0a : UInt8) = UInt8.ofNat n) : n = 0x0a := by
    have values := congrArg UInt8.toNat same
    rw [UInt8.toNat_ofNat', Nat.mod_eq_of_lt (by omega)] at values
    exact values.symm
  have later (n : Nat) : (0x0a : UInt8) ≠ UInt8.ofNat (0x80 + n % 64) := by
    intro same
    have number := value _ (by omega) same
    omega
  unfold encodeCodePoint at member
  split at member
  · exact Fin.ext (value _ (by omega) (List.mem_singleton.mp member))
  split at member
  · simp only [List.mem_cons, List.not_mem_nil, or_false] at member
    rcases member with first | second
    · have number := value _ (by omega) first
      omega
    · exact absurd second (later _)
  split at member
  · simp only [List.mem_cons, List.not_mem_nil, or_false] at member
    rcases member with first | second | third
    · have number := value _ (by omega) first
      omega
    · exact absurd second (later _)
    · exact absurd third (later _)
  · simp only [List.mem_cons, List.not_mem_nil, or_false] at member
    rcases member with first | second | third | fourth
    · have number := value _ (by omega) first
      omega
    · exact absurd second (later _)
    · exact absurd third (later _)
    · exact absurd fourth (later _)

theorem lineFeed_not_mem_encodeUtf8 {s : Str} {bytes : Bytes} (written : encodeUtf8 s = some bytes)
    (clean : (0x0a : CodePoint) ∉ s) : (0x0a : UInt8) ∉ bytes := by
  unfold encodeUtf8 at written
  split at written
  · cases written
  · cases written
    intro member
    obtain ⟨c, inside, byte⟩ := List.mem_flatMap.mp member
    rw [lineFeed_mem_encodeCodePoint c byte] at inside
    exact clean inside

/-- A stream that is a line for each value, ended by a line feed and parsed to the value. -/
structure LinesParseBack (platform : Platform) (values : List Json)
    (drained : List Bytes × Option PyExc) : Prop where
  lines : ∃ lines : List Bytes, drained = (lines.map (· ++ [0x0a]), none) ∧
    (∀ line ∈ lines, (0x0a : UInt8) ∉ line) ∧
    List.Forall₂ (fun v line => ∃ text, decodeUtf8 line = some text ∧
      Json.loads platform.floats text = .ok v.sortKeys) values lines

theorem ndjson_parses_back (lawful : platform.Lawful) (records : List VerifiableDecisionRecord)
    (digests : ∀ r ∈ records, Digests r.dump) :
    LinesParseBack platform (records.map (·.dumped)) (drain (iterNdjsonExport platform records)) := by
  have printed : ∀ r ∈ records, r.decision.Dumpable ∧ Digestible r.dumped := by
    intro r member
    exact r.digests_iff.mp (digests r member)
  have each : ∀ r ∈ records, ∃ line, encodeUtf8 (lineOf platform r.dumped) = some line := by
    intro r member
    exact (printed r member).2.encodes lawful
  obtain ⟨lines, written⟩ := exists_forall₂ _ _ each
  have chunks : iterNdjsonExport platform records = (lines.map (· ++ [0x0a])).map .ok := by
    rw [iterNdjsonExport, ← List.forall₂_eq_eq_eq, List.map_map, List.forall₂_map_left_iff,
      List.forall₂_map_right_iff]
    refine List.forall₂_iff_zip.mpr ⟨written.length_eq, fun {r line} paired => ?_⟩
    apply (recordChunk_eq_ok_iff r _ _).mpr
    obtain ⟨dumpable, digestible⟩ := printed r (List.of_mem_zip paired).1
    refine ⟨dumpable, digestible.encodable, ?_⟩
    exact encodeUtf8_append _ _ _ _ ((List.forall₂_iff_zip.mp written).2 paired) (by decide)
  refine ⟨lines, by rw [chunks, drain_ok], ?_, ?_⟩
  · intro line inside
    obtain ⟨r, member, encodes⟩ := forall₂_right written inside
    exact lineFeed_not_mem_encodeUtf8 encodes
      (lineFeed_not_mem_lineOf lawful r.dumped (printed r member).2.encodable)
  · rw [List.forall₂_map_left_iff]
    refine List.forall₂_iff_zip.mpr ⟨written.length_eq, fun {r line} paired => ?_⟩
    have member := (List.of_mem_zip paired).1
    refine ⟨_, decodeUtf8_encodeUtf8 _ _ ((List.forall₂_iff_zip.mp written).2 paired), ?_⟩
    have read := loads_lineOf lawful r.dumped [] (printed r member).2.encodable r.dumped_unique
      (by simp)
    rwa [List.append_nil] at read

/-! ## The envelope -/

/-- The members of the envelope, with those of every value in key order. -/
def envelopeMembers (snapshot : EvidenceExportSnapshot) (criteria : DecisionSearchFilters)
    (forms : List Json) : List (Str × Json) :=
  [("schema_version", .int 1), ("project_id", .str snapshot.projectId.str),
    ("criteria", criteria.dump.sortKeys), ("snapshot", snapshot.dump.sortKeys),
    ("records", .arr (forms.map Json.sortKeys))]

/-- A stream whose chunks are the text of one object with these members, in some order. -/
structure ObjectParsesBack (platform : Platform) (members : List (Str × Json))
    (drained : List Bytes × Option PyExc) : Prop where
  complete : drained.2 = none
  parsed : ∃ text fields, decodeUtf8 drained.1.flatten = some text ∧
    Json.loads platform.floats text = .ok (.obj fields) ∧ fields.Perm members

section Text

variable (floats : FloatText)

theorem fieldsTail_concat (fields : List (Str × Json)) (key : Str) (v : Json) :
    Json.fieldsTail floats .canonical (fields ++ [(key, v)]) =
      Json.fieldsTail floats .canonical fields ++
        (0x2c :: (Json.quote false key ++ (0x3a :: Json.text floats .canonical v))) := by
  induction fields with
  | nil =>
    simp only [List.nil_append, Json.fieldsTail, List.append_nil]
    rfl
  | cons field fields ih =>
    simp only [List.cons_append, Json.fieldsTail, ih, List.append_assoc]

theorem fieldsText_concat (fields : List (Str × Json)) (some : fields ≠ []) (key : Str) (v : Json) :
    Json.fieldsText floats .canonical (fields ++ [(key, v)]) =
      Json.fieldsText floats .canonical fields ++
        (0x2c :: (Json.quote false key ++ (0x3a :: Json.text floats .canonical v))) := by
  cases fields with
  | nil => exact absurd rfl some
  | cons field fields =>
    simp only [List.cons_append, Json.fieldsText, fieldsTail_concat, List.append_assoc]

end Text

/-- The chunks between the brackets spell the items, from the first or from a later one. -/
theorem recordChunks_text (lawful : platform.Lawful) (records : List VerifiableDecisionRecord)
    (digests : ∀ r ∈ records, Digests r.dump) :
    (∃ chunks : List Bytes, recordChunks platform true records = chunks.map .ok ∧
      encodeUtf8 (Json.itemsText platform.floats .canonical (records.map fun r => r.dumped.sortKeys)) =
        some chunks.flatten) ∧
    ∃ chunks : List Bytes, recordChunks platform false records = chunks.map .ok ∧
      encodeUtf8 (Json.itemsTail platform.floats .canonical (records.map fun r => r.dumped.sortKeys)) =
        some chunks.flatten := by
  induction records with
  | nil => exact ⟨⟨[], rfl, rfl⟩, [], rfl, rfl⟩
  | cons r records ih =>
    obtain ⟨-, chunks, made, written⟩ := ih fun s later => digests s (List.mem_cons_of_mem _ later)
    obtain ⟨chunk, chunkMade, chunkWritten⟩ :=
      recordChunk_of_digests lawful (digests r (List.mem_cons_self ..)) [] (by simp [IsScalar])
    rw [List.append_nil] at chunkWritten
    have text := encodeUtf8_append _ _ _ _ chunkWritten written
    refine ⟨⟨chunk :: chunks, ?_, ?_⟩, [0x2c] :: chunk :: chunks, ?_, ?_⟩
    · rw [recordChunks, chunkMade, made]
      rfl
    · rw [List.map_cons, Json.itemsText, List.flatten_cons]
      exact text
    · rw [recordChunks, chunkMade, made]
      rfl
    · rw [List.map_cons, Json.itemsTail, List.flatten_cons, List.flatten_cons]
      exact encodeUtf8_append _ _ _ _ (by decide) text

theorem loads_text (lawful : platform.Lawful) (v : Json) (accepted : v.encodable = true)
    (unique : v.uniqueKeys = true) :
    Json.loads platform.floats (v.text platform.floats .canonical) = .ok v := by
  rcases Json.text_head platform.floats .canonical lawful.floats v accepted with
    ⟨c, t, opens, -, -, -, noMark⟩
  have read := Json.scan_text platform.floats .canonical lawful.floats Style.canonical_lawful v accepted
    (Json.readable_raw v)
  rw [Json.loads, read, if_neg, Except.map, Json.toDicts_of_uniqueKeys _ unique]
  rw [opens]
  simpa using noMark

theorem EvidenceExportSnapshot.dump_unique (s : EvidenceExportSnapshot) :
    s.dump.uniqueKeys = true := by
  refine uniqueKeys_obj _ (by simp only [List.map_cons, List.map_nil]; decide) ?_
  have head := uniqueKeys_optional dumpDigest (fun _ => rfl) s.chainHeadHash
  simp [Json.uniqueKeys, head]

variable {snapshot : EvidenceExportSnapshot} {criteria : DecisionSearchFilters}
  {forms : List Json}

theorem envelope_encodable (metadata : Digestible (exportMetadata snapshot criteria))
    (digestible : ∀ form ∈ forms, Digestible form) :
    ∀ field ∈ envelopeMembers snapshot criteria forms, field.2.encodable = true := by
  have criteriaAccepted := metadata.member ("criteria", criteria.dump) (by simp)
  have snapshotAccepted := metadata.member ("snapshot", snapshot.dump) (by simp)
  have recordsAccepted : (Json.arr (forms.map Json.sortKeys)).encodable = true := by
    refine (Json.encodableItems_iff _).mpr fun v member => ?_
    obtain ⟨form, inside, rfl⟩ := List.mem_map.mp member
    rw [Json.encodable_sortKeys, (digestible form inside).encodable]
  have version : (Json.int 1).encodable = true := by decide
  simp only [envelopeMembers, List.mem_cons, List.not_mem_nil, or_false, forall_eq_or_imp, forall_eq,
    Json.encodable_sortKeys]
  exact ⟨version, rfl, criteriaAccepted.encodable, snapshotAccepted.encodable, recordsAccepted⟩

theorem envelope_unique (unique : ∀ form ∈ forms, form.uniqueKeys = true) :
    ∀ field ∈ envelopeMembers snapshot criteria forms, field.2.uniqueKeys = true := by
  have recordsUnique : (Json.arr (forms.map Json.sortKeys)).uniqueKeys = true := by
    refine (Json.uniqueKeysItems_iff _).mpr fun v member => ?_
    obtain ⟨form, inside, rfl⟩ := List.mem_map.mp member
    rw [Json.uniqueKeys_sortKeys, unique form inside]
  simp only [envelopeMembers, List.mem_cons, List.not_mem_nil, or_false, forall_eq_or_imp, forall_eq,
    Json.uniqueKeys_sortKeys]
  exact ⟨rfl, rfl, criteria.dump_unique, snapshot.dump_unique, recordsUnique⟩

theorem json_parses_back (lawful : platform.Lawful) (snapshot : EvidenceExportSnapshot)
    (criteria : DecisionSearchFilters) (records : List VerifiableDecisionRecord)
    (metadata : Digestible (exportMetadata snapshot criteria))
    (digests : ∀ r ∈ records, Digests r.dump) :
    ObjectParsesBack platform (envelopeMembers snapshot criteria (records.map (·.dumped)))
      (drain (iterJsonExport platform snapshot criteria records)) := by
  have sortedForms : (records.map (·.dumped)).map Json.sortKeys =
      records.map fun r => r.dumped.sortKeys := List.map_map
  obtain ⟨fields, sorted, permuted⟩ : ∃ fields, (exportMetadata snapshot criteria).sortKeys = .obj fields ∧
      (fields ++ [(ofString "records", Json.arr (records.map fun r => r.dumped.sortKeys))]).Perm
        (envelopeMembers snapshot criteria (records.map (·.dumped))) := by
    refine ⟨_, by rw [exportMetadata, Json.sortKeys], ?_⟩
    rw [envelopeMembers, sortedForms]
    exact (List.perm_insertionSort Json.keyLe _).append_right _
  have some : fields ≠ [] := by
    rintro rfl
    exact absurd permuted.length_eq (by simp [envelopeMembers])
  obtain ⟨opening, opened⟩ := metadata.encodes lawful
  obtain ⟨⟨chunks, made, itemsWritten⟩, -⟩ := recordChunks_text lawful records digests
  rw [sorted, Json.text, ← List.cons_append] at opened
  have scalar := (encodeUtf8_isSome_iff _).mp ⟨opening, opened⟩
  -- the closing brace of the metadata goes and the records take its place
  obtain ⟨first, firstWritten⟩ := (encodeUtf8_isSome_iff
      (0x7b :: Json.fieldsText platform.floats .canonical fields ++ ofString ",\"records\":[")).mpr (by
    intro c member
    rcases List.mem_append.mp member with inside | literal
    · exact scalar c (List.mem_append_left _ inside)
    · exact isScalar_of_all (ofString ",\"records\":[") (by decide) c literal)
  have steps : iterJsonExport platform snapshot criteria records =
      (first :: (chunks ++ [[0x5d, 0x7d]])).map .ok := by
    have dumped : canonicalJson platform (exportMetadata snapshot criteria) =
        .ok (0x7b :: Json.fieldsText platform.floats .canonical fields ++ [0x7d]) := by
      rw [canonicalJson, orRaise_eq_ok, Json.dumps_eq_some_iff, sorted, Json.text]
      exact ⟨metadata.encodable, rfl⟩
    rw [iterJsonExport, dumped, made]
    simp only [bind, Except.bind, List.dropLast_concat, encoded, firstWritten, orRaise, List.map_cons,
      List.map_append, List.map_nil]
    rfl
  have whole : Json.text platform.floats .canonical
      (.obj (fields ++ [(ofString "records", Json.arr (records.map fun r => r.dumped.sortKeys))])) =
        0x7b :: Json.fieldsText platform.floats .canonical fields ++ ofString ",\"records\":[" ++
          (Json.itemsText platform.floats .canonical (records.map fun r => r.dumped.sortKeys) ++
            [0x5d, 0x7d]) := by
    have literal : ofString ",\"records\":[" =
        0x2c :: (Json.quote false (ofString "records") ++ [0x3a, 0x5b]) := by decide
    rw [Json.text, fieldsText_concat platform.floats fields some, Json.text, literal]
    simp
  have written := encodeUtf8_append _ _ _ _ firstWritten
    (encodeUtf8_append _ _ _ _ itemsWritten (show encodeUtf8 [0x5d, 0x7d] = Option.some [0x5d, 0x7d] by decide))
  rw [steps, drain_ok]
  refine ⟨rfl, _, _, ?_, loads_text lawful _ ?_ ?_, permuted⟩
  · rw [whole]
    have flat : (first :: (chunks ++ [[0x5d, 0x7d]])).flatten =
        first ++ (chunks.flatten ++ [0x5d, 0x7d]) := by simp
    rw [flat]
    exact decodeUtf8_encodeUtf8 _ _ written
  · refine (Json.encodableFields_iff _).mpr fun field member => ?_
    refine envelope_encodable metadata (fun form inside => ?_) field (permuted.mem_iff.mp member)
    obtain ⟨r, listed, rfl⟩ := List.mem_map.mp inside
    exact (r.digests_iff.mp (digests r listed)).2
  · refine uniqueKeys_obj _ ((permuted.map Prod.fst).nodup_iff.mpr ?_) fun field member =>
      envelope_unique (by simpa using fun r _ => VerifiableDecisionRecord.dumped_unique r) field
        (permuted.mem_iff.mp member)
    simp only [envelopeMembers, List.map_cons, List.map_nil]
    decide

/-! ## When the streams parse back -/

theorem SearchText.dump_digestible (t : SearchText) : Digestible (.str t.text) :=
  .str _ (by simpa [IsScalar] using t.encodable)

theorem DecisionSearchFilters.dump_digestible (f : DecisionSearchFilters) : Digestible f.dump := by
  have text (value : Option SearchText) : Digestible (dumpOptional (fun t => .str t.text) value) :=
    .optional fun t _ => t.dump_digestible
  have time (value : Option UtcDatetime) : Digestible (dumpOptional (fun d => .str d.val.json) value) :=
    .optional fun d _ => digestible_json d.val
  refine .record (by simp only [List.all_cons, List.all_nil]; decide) ?_
  simp only [List.map_cons, List.map_nil, List.mem_cons, List.not_mem_nil, or_false,
    forall_eq_or_imp, forall_eq]
  refine ⟨.optional fun d _ => ?_, text _, text _, text _, .optional fun b _ => digestible_bool b,
    .optional fun s _ => ?_, time _, time _, text _, ?_⟩
  · cases d <;> exact digestible_literal _ (by decide)
  · cases s <;> exact digestible_literal _ (by decide)
  · cases f.sort <;> exact digestible_literal _ (by decide)

theorem digestible_int_iff (n : Int) : Digestible (.int n) ↔ Json.withinDigitLimit n = true :=
  ⟨fun digestible => digestible.encodable, fun printable => ⟨printable, by simp [Json.strings]⟩⟩

/-- The integers of a snapshot that have to be printed. -/
def EvidenceExportSnapshot.counts (s : EvidenceExportSnapshot) : List Nat :=
  [s.maxSequenceNumber, s.chainRecordCount, s.recordCount]

theorem exportMetadata_digestible_iff (snapshot : EvidenceExportSnapshot)
    (criteria : DecisionSearchFilters) : Digestible (exportMetadata snapshot criteria) ↔
      ∀ n ∈ snapshot.counts, Json.withinDigitLimit n = true := by
  have head : Digestible (dumpOptional dumpDigest snapshot.chainHeadHash) :=
    .optional fun d _ => digestible_digest d
  have version : Digestible (.int 1) := (digestible_int_iff 1).mpr (by decide)
  rw [exportMetadata, digestible_record_iff (by simp only [List.all_cons, List.all_nil]; decide)]
  simp only [List.map_cons, List.map_nil, List.mem_cons, List.not_mem_nil, or_false,
    forall_eq_or_imp, forall_eq, EvidenceExportSnapshot.dump]
  rw [digestible_record_iff (by simp only [List.all_cons, List.all_nil]; decide)]
  simp only [List.map_cons, List.map_nil, List.mem_cons, List.not_mem_nil, or_false,
    forall_eq_or_imp, forall_eq, digestible_int_iff, EvidenceExportSnapshot.counts]
  constructor
  · rintro ⟨-, -, -, -, -, sequence, chain, -, records⟩
    exact ⟨sequence, chain, records⟩
  · rintro ⟨sequence, chain, records⟩
    exact ⟨version.encodable, digestible_uuid _, criteria.dump_digestible, digestible_uuid _,
      digestible_json _, sequence, chain, head, records⟩

theorem exportMetadata_digestible_of_encodable {snapshot : EvidenceExportSnapshot}
    {criteria : DecisionSearchFilters} (accepted : (exportMetadata snapshot criteria).encodable = true) :
    Digestible (exportMetadata snapshot criteria) := by
  have inner := (Json.encodableFields_iff _).mp accepted ("snapshot", snapshot.dump) (by simp)
  have each := (Json.encodableFields_iff _).mp inner
  rw [exportMetadata_digestible_iff]
  intro n member
  simp only [EvidenceExportSnapshot.counts, List.mem_cons, List.not_mem_nil, or_false] at member
  rcases member with rfl | rfl | rfl
  · exact each ("max_sequence_number", .int snapshot.maxSequenceNumber) (by simp)
  · exact each ("chain_record_count", .int snapshot.chainRecordCount) (by simp)
  · exact each ("record_count", .int snapshot.recordCount) (by simp)

/-- Every chunk of a completed stream was made. -/
theorem drain_complete_mem {steps : List (Except PyExc Bytes)} (complete : (drain steps).2 = none)
    {step : Except PyExc Bytes} (member : step ∈ steps) : ∃ chunk, step = .ok chunk := by
  rw [(drain_complete_iff steps).mp complete] at member
  obtain ⟨chunk, -, rfl⟩ := List.mem_map.mp member
  exact ⟨chunk, rfl⟩

theorem export_streams_parse_back_iff (platform : Platform) (lawful : platform.Lawful)
    (snapshot : EvidenceExportSnapshot) (criteria : DecisionSearchFilters)
    (records : List VerifiableDecisionRecord) :
    (∃ forms, records.mapM (·.dump) = .ok forms ∧
      ObjectParsesBack platform (envelopeMembers snapshot criteria forms)
        (drain (iterJsonExport platform snapshot criteria records)) ∧
      LinesParseBack platform forms (drain (iterNdjsonExport platform records))) ↔
      (∀ n ∈ snapshot.counts, Json.withinDigitLimit n = true) ∧
        ∀ r ∈ records, Digests r.dump := by
  rw [← exportMetadata_digestible_iff snapshot criteria]
  simp only [mapM_eq_map_iff VerifiableDecisionRecord.dump_eq_ok]
  constructor
  · rintro ⟨_, -, object, lines⟩
    constructor
    · obtain ⟨chunk, made⟩ := drain_complete_mem object.complete (List.mem_cons_self ..)
      obtain ⟨text, dumped, -⟩ := (bind_eq_ok _ _ _).mp made
      rw [canonicalJson, orRaise_eq_ok, Json.dumps_eq_some_iff] at dumped
      exact exportMetadata_digestible_of_encodable dumped.1
    · intro r member
      obtain ⟨_, drained, -⟩ := lines.lines
      have complete : (drain (iterNdjsonExport platform records)).2 = none := by rw [drained]
      obtain ⟨chunk, made⟩ := drain_complete_mem complete (List.mem_map_of_mem member)
      exact digests_of_recordChunk made
  · rintro ⟨metadata, digests⟩
    exact ⟨_, ⟨fun r member => (r.digests_iff.mp (digests r member)).1, rfl⟩,
      json_parses_back lawful snapshot criteria records metadata digests,
      ndjson_parses_back lawful records digests⟩

def sampleExportSnapshot : EvidenceExportSnapshot :=
  ⟨sampleManifest.projectId, sampleExportTime, 2, 2, sampleManifest.chainHeadHash, 2⟩

/-- A record, and one whose context has a key that is written as another. -/
def exportedRecords : List VerifiableDecisionRecord :=
  [sampleRecord, ⟨collidingPay, collidingProof⟩]

theorem digests_of_dump {r : VerifiableDecisionRecord} {form : Json} (dumped : r.dump = .ok form)
    (encodable : form.encodable = true)
    (scalar : (form.strings.all fun s => !s.any isSurrogate) = true) : Digests r.dump := by
  refine ⟨form, dumped, encodable, fun s member => ?_⟩
  simpa [IsScalar] using List.all_eq_true.mp scalar s member

/-- Both streams of the two records. -/
theorem export_streams_parse_back_sample :
    ∃ forms, exportedRecords.mapM (·.dump) = .ok forms ∧
      ObjectParsesBack sampleBundlePlatform (envelopeMembers sampleExportSnapshot .all forms)
        (drain (iterJsonExport sampleBundlePlatform sampleExportSnapshot .all exportedRecords)) ∧
      LinesParseBack sampleBundlePlatform forms
        (drain (iterNdjsonExport sampleBundlePlatform exportedRecords)) := by
  refine (export_streams_parse_back_iff sampleBundlePlatform (referencePlatform_lawful _)
    sampleExportSnapshot .all exportedRecords).mpr ⟨by decide +kernel, fun r member => ?_⟩
  simp only [exportedRecords, List.mem_cons, List.not_mem_nil, or_false] at member
  rcases member with rfl | rfl
  · exact digests_of_dump rfl (by decide +kernel) (by decide +kernel)
  · exact digests_of_dump rfl (by decide +kernel) (by decide +kernel)

/-- A record whose reason holds a lone surrogate. -/
def surrogateRecord : VerifiableDecisionRecord :=
  { sampleRecord with decision := { samplePay with reason := [0xd800] } }

/-- Both streams end in an exception there, the object after its opening. -/
theorem surrogate_export_raises :
    (drain (iterJsonExport sampleBundlePlatform sampleExportSnapshot .all [surrogateRecord])).2 =
        some .unicodeEncodeError ∧
      drain (iterNdjsonExport sampleBundlePlatform [surrogateRecord]) =
        ([], some .unicodeEncodeError) ∧
      ∀ forms,
        ¬ ObjectParsesBack sampleBundlePlatform (envelopeMembers sampleExportSnapshot .all forms)
          (drain (iterJsonExport sampleBundlePlatform sampleExportSnapshot .all [surrogateRecord])) ∧
        ¬ LinesParseBack sampleBundlePlatform forms
          (drain (iterNdjsonExport sampleBundlePlatform [surrogateRecord])) := by
  have object :
      (drain (iterJsonExport sampleBundlePlatform sampleExportSnapshot .all [surrogateRecord])).2 =
        some .unicodeEncodeError := by decide +kernel
  have lines : drain (iterNdjsonExport sampleBundlePlatform [surrogateRecord]) =
      ([], some .unicodeEncodeError) := by decide +kernel
  refine ⟨object, lines, fun forms => ⟨?_, ?_⟩⟩
  · intro parses
    rw [parses.complete] at object
    cases object
  · rintro ⟨_, drained, -⟩
    rw [lines, Prod.mk.injEq] at drained
    cases drained.2

end DecAustrum
