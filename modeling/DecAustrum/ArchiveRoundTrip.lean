import DecAustrum.Archive
import DecAustrum.Digestible
import DecAustrum.ModelRoundTrip
import DecAustrum.OfflineSoundness
import DecAustrum.Traversal

/-!
# The round trip of an archive

The writer ends each record with a line feed and leaves text above ASCII as it is; the reader
splits at every line boundary Unicode has. They agree on exactly the bundles whose records
hold none of the three boundaries JSON does not escape.
-/
namespace DecAustrum

open Python Traversal

variable {platform : Platform} {zip : ZipFormat}

/-! ## Lines -/

/-- The line of a value. -/
def lineOf (platform : Platform) (v : Json) : Str := v.sortKeys.text platform.floats .canonical

/-- The boundaries canonical JSON leaves unescaped. -/
def isRawBoundary (c : CodePoint) : Bool := c = 0x85 || c = 0x2028 || c = 0x2029

theorem isRawBoundary_iff (c : CodePoint) :
    isRawBoundary c = true ↔ isLineBoundary c = true ∧ Json.escapeChar false c = [c] := by
  constructor
  · intro raw
    simp only [isRawBoundary, Bool.or_eq_true, decide_eq_true_eq] at raw
    rcases raw with (rfl | rfl) | rfl <;> decide
  · rintro ⟨boundary, raw⟩
    by_contra other
    simp only [isRawBoundary, Bool.or_eq_true, decide_eq_true_eq, not_or] at other
    have control : c.val < 0x20 := by
      simp only [isLineBoundary, Bool.or_eq_true, Bool.and_eq_true, decide_eq_true_eq,
        Fin.le_def] at boundary
      rcases boundary with (((low | separator) | next) | line) | paragraph
      · have upper : c.val ≤ 0x0d := low.2
        omega
      · have upper : c.val ≤ 0x1e := separator.2
        omega
      · exact absurd next other.1.1
      · exact absurd line other.1.2
      · exact absurd paragraph other.2
    have length := congrArg List.length raw
    unfold Json.escapeChar at length
    iterate 7
      split at length
      · simp at length
    simp [Json.unicodeEscape] at length

/-- A line holds a boundary exactly when a string of its value does. -/
theorem lineOf_boundary_iff (lawful : platform.Lawful) (v : Json) (accepted : v.encodable = true) :
    (∃ c ∈ lineOf platform v, isLineBoundary c = true) ↔
      ∃ s ∈ v.strings, ∃ c ∈ s, isRawBoundary c = true := by
  constructor
  · rintro ⟨c, member, boundary⟩
    rcases Json.mem_text platform.floats lawful.floats v.sortKeys
      (by rw [Json.encodable_sortKeys, accepted]) c member with plain | ⟨raw, s, string, held⟩
    · have control : isPlain c = false := by
        simp only [isLineBoundary, isPlain, Bool.or_eq_true, Bool.and_eq_true, decide_eq_true_eq,
          Fin.le_def, Fin.ext_iff, Bool.and_eq_false_iff, decide_eq_false_iff_not] at *
        omega
      rw [control] at plain
      cases plain
    · exact ⟨s, (Json.mem_strings_sortKeys s v).mp string, c, held,
        (isRawBoundary_iff c).mpr ⟨boundary, raw⟩⟩
  · rintro ⟨s, string, c, held, rawBoundary⟩
    obtain ⟨boundary, raw⟩ := (isRawBoundary_iff c).mp rawBoundary
    exact ⟨c, Json.mem_text_of_raw platform.floats .canonical v.sortKeys s
      ((Json.mem_strings_sortKeys s v).mpr string) c held raw, boundary⟩

/-! ## Writing -/

theorem writeLines_spec {α : Type} (dump : α → Except PyExc Json) (maximumBytes : Nat)
    (items : List α) : ∀ (written : Nat) (member : Bytes × Nat),
      writeLines platform maximumBytes written (items.map dump) = .ok member →
      ∃ values, items.mapM dump = .ok values ∧ (∀ v ∈ values, v.encodable = true) ∧
        encodeUtf8 (values.flatMap fun v => lineOf platform v ++ [0x0a]) = some member.1 ∧
        member.2 = written + member.1.length ∧ (written ≤ maximumBytes → member.2 ≤ maximumBytes) := by
  induction items with
  | nil =>
    intro written member done
    cases done
    exact ⟨[], rfl, by simp, rfl, rfl, id⟩
  | cons a items ih =>
    intro written member done
    simp only [List.map_cons, writeLines, bind, Except.bind, pure, Except.pure, throw, throwThe,
      MonadExceptOf.throw] at done
    split at done
    · cases done
    next v dumped =>
    split at done
    · cases done
    next text canonical =>
    split at done
    · cases done
    next encoded utf8 =>
    split at done
    · cases done
    next fits =>
    split at done
    · cases done
    next more rest =>
    cases done
    rw [canonicalJson, orRaise_eq_ok, Json.dumps_eq_some_iff] at canonical
    obtain ⟨accepted, rfl⟩ := canonical
    rw [orRaise_eq_ok] at utf8
    obtain ⟨values, dumps, each, bytes, total, bound⟩ := ih _ more rest
    refine ⟨v :: values, ?_, by simpa using ⟨accepted, each⟩, ?_, ?_, fun _ => bound (by omega)⟩
    · rw [List.mapM_cons, dumped, dumps]
      rfl
    · rw [List.flatMap_cons]
      exact encodeUtf8_append _ _ _ _ utf8 bytes
    · rw [total, List.length_append]
      omega

/-- What a built archive holds. -/
structure Archived (platform : Platform) (bundle : EvidenceBundle) (manifest records chain : Bytes) :
    Prop where
  dumpable : ∀ r ∈ bundle.records, r.decision.Dumpable
  manifestAccepted : bundle.manifest.dump.encodable = true
  recordsAccepted : ∀ r ∈ bundle.records, r.dumped.encodable = true
  chainAccepted : ∀ p ∈ bundle.chain, p.dump.encodable = true
  manifestBytes : encodeUtf8 (lineOf platform bundle.manifest.dump ++ [0x0a]) = some manifest
  recordsBytes : encodeUtf8 ((bundle.records.map (·.dumped)).flatMap
    fun v => lineOf platform v ++ [0x0a]) = some records
  chainBytes : encodeUtf8 ((bundle.chain.map (·.dump)).flatMap
    fun v => lineOf platform v ++ [0x0a]) = some chain

theorem buildEvidenceBundleArchive_spec (bundle : EvidenceBundle) (maximumBytes : Nat)
    (archive : Bytes)
    (built : buildEvidenceBundleArchive platform zip bundle maximumBytes = .ok archive) :
    ∃ manifest records chain, Archived platform bundle manifest records chain ∧
      archive = zip.write [(manifestFile, manifest), (recordsFile, records), (chainFile, chain)] ∧
      archive.length ≤ maximumBytes ∧
      manifest.length + records.length + chain.length ≤ maximumBytes := by
  unfold buildEvidenceBundleArchive at built
  rw [bind_eq_ok] at built
  obtain ⟨manifest, manifestWritten, built⟩ := built
  rw [bind_eq_ok] at built
  obtain ⟨records, recordsWritten, built⟩ := built
  rw [bind_eq_ok] at built
  obtain ⟨chain, chainWritten, built⟩ := built
  simp only [bind, Except.bind, pure, Except.pure, throw, throwThe, MonadExceptOf.throw] at built
  split at built
  · cases built
  next fits =>
  cases built
  have plain {β : Type} (dump : β → Json) (a : β) (v : Json) :
      (Except.ok (dump a) : Except PyExc Json) = .ok v ↔ True ∧ v = dump a := by
    rw [Except.ok.injEq, true_and, eq_comm]
  obtain ⟨_, manifestDumped, manifestEach, manifestBytes, manifestTotal, manifestBound⟩ :=
    writeLines_spec (fun m => .ok m.dump) maximumBytes [bundle.manifest] _ manifest manifestWritten
  obtain ⟨_, recordsDumped, recordsEach, recordsBytes, recordsTotal, recordsBound⟩ :=
    writeLines_spec (·.dump) maximumBytes bundle.records _ records recordsWritten
  obtain ⟨_, chainDumped, chainEach, chainBytes, chainTotal, chainBound⟩ :=
    writeLines_spec (fun p => .ok p.dump) maximumBytes bundle.chain _ chain chainWritten
  obtain ⟨-, rfl⟩ := (mapM_eq_map_iff (plain EvidenceBundleManifest.dump) _ _).mp manifestDumped
  obtain ⟨dumpable, rfl⟩ :=
    (mapM_eq_map_iff VerifiableDecisionRecord.dump_eq_ok _ _).mp recordsDumped
  obtain ⟨-, rfl⟩ := (mapM_eq_map_iff (plain DecisionIntegrityProof.dump) _ _).mp chainDumped
  have total := chainBound (recordsBound (manifestBound (Nat.zero_le _)))
  refine ⟨manifest.1, records.1, chain.1, ⟨dumpable, ?_, ?_, ?_, ?_, recordsBytes, chainBytes⟩, rfl,
    Nat.le_of_not_lt fits, by omega⟩
  · exact manifestEach _ (List.mem_singleton_self _)
  · exact fun r member => recordsEach _ (List.mem_map_of_mem member)
  · exact fun p member => chainEach _ (List.mem_map_of_mem member)
  · simpa using manifestBytes

/-! ## Reading lines back -/

/-- The line of an object stands between braces. -/
theorem lineOf_obj (fields : List (Str × Json)) :
    ∃ inner, lineOf platform (.obj fields) = 0x7b :: (inner ++ [0x7d]) := by
  rw [lineOf, Json.sortKeys]
  exact ⟨_, rfl⟩

theorem isBlank_obj (fields : List (Str × Json)) :
    isBlank (lineOf platform (.obj fields)) = false := by
  obtain ⟨inner, braced⟩ := @lineOf_obj platform fields
  rw [braced, isBlank, List.all_eq_false]
  exact ⟨0x7b, List.mem_cons_self .., by decide⟩

theorem loads_lineOf (lawful : platform.Lawful) (v : Json) (gap : Str)
    (accepted : v.encodable = true) (unique : v.uniqueKeys = true)
    (blank : ∀ d ∈ gap, Json.isJsonSpace d = true) :
    Json.loads platform.floats (lineOf platform v ++ gap) = .ok v.sortKeys :=
  Json.loads_dumps_gap platform.floats .canonical lawful.floats Style.canonical_lawful v _ gap
    unique (Json.readable_raw v) blank ((Json.dumps_eq_some_iff _ _ _ _).mpr ⟨accepted, rfl⟩)

theorem parseLines_lines (lawful : platform.Lawful) (filename : Str) (values : List Json)
    (accepted : ∀ v ∈ values, v.encodable = true) (unique : ∀ v ∈ values, v.uniqueKeys = true)
    (objects : ∀ v ∈ values, ∃ fields, v = .obj fields) :
    ∀ number, parseLines platform filename number (values.map (lineOf platform)) =
      .ok (values.map Json.sortKeys) := by
  induction values with
  | nil => exact fun _ => rfl
  | cons v values ih =>
    intro number
    obtain ⟨fields, rfl⟩ := objects v (List.mem_cons_self ..)
    have read := loads_lineOf lawful (.obj fields) [] (accepted _ (List.mem_cons_self ..))
      (unique _ (List.mem_cons_self ..)) (by simp)
    rw [List.append_nil] at read
    have rest := ih (fun w later => accepted w (List.mem_cons_of_mem _ later))
      (fun w later => unique w (List.mem_cons_of_mem _ later))
      (fun w later => objects w (List.mem_cons_of_mem _ later)) (number + 1)
    rw [List.map_cons, List.map_cons, parseLines, isBlank_obj, read, if_neg (by simp), rest]
    rfl

/-- A member whose values hold no boundary is read back. -/
theorem parseNdjson_lines (lawful : platform.Lawful) (filename : Str) (values : List Json)
    (member : Bytes) (accepted : ∀ v ∈ values, v.encodable = true)
    (unique : ∀ v ∈ values, v.uniqueKeys = true)
    (objects : ∀ v ∈ values, ∃ fields, v = .obj fields)
    (unbroken : ∀ v ∈ values, ∀ s ∈ v.strings, ∀ c ∈ s, isRawBoundary c = false)
    (encoded : encodeUtf8 (values.flatMap fun v => lineOf platform v ++ [0x0a]) = some member) :
    parseNdjson platform member filename = .ok (values.map Json.sortKeys) := by
  have clean : ∀ line ∈ values.map (lineOf platform), ∀ c ∈ line, isLineBoundary c = false := by
    intro line inside c held
    obtain ⟨v, present, rfl⟩ := List.mem_map.mp inside
    by_contra boundary
    rw [Bool.not_eq_false] at boundary
    obtain ⟨s, string, d, inString, raw⟩ :=
      (lineOf_boundary_iff lawful v (accepted v present)).mp ⟨c, held, boundary⟩
    rw [unbroken v present s string d inString] at raw
    cases raw
  have lines := splitlines_lines (values.map (lineOf platform)) [] clean
  rw [List.flatMap_map, List.append_nil] at lines
  rw [parseNdjson, decodeUtf8_encodeUtf8 _ _ encoded]
  change parseLines platform filename 1 (splitlines _) = _
  rw [lines]
  simpa [splitlines, splitlinesFrom] using
    parseLines_lines lawful filename values accepted unique objects 1

/-- One value for each line that is not blank. -/
theorem parseLines_length (filename : Str) (lines : List Str) :
    ∀ number values, parseLines platform filename number lines = .ok values →
      values.length = (solidLines lines).length := by
  induction lines with
  | nil =>
    intro number values done
    cases done
    rfl
  | cons line lines ih =>
    intro number values done
    rw [parseLines] at done
    split at done
    · next blank =>
      rw [ih _ _ done]
      simp [solidLines, blank]
    · next solid =>
      simp only [bind, Except.bind, pure, Except.pure] at done
      split at done
      · split at done
        · cases done
        next rest parsed =>
        cases done
        rw [List.length_cons, ih _ _ parsed]
        simp [solidLines, solid]
      · cases done
      · cases done

/-- At least one line a value. -/
theorem solidLines_values (values : List Json)
    (objects : ∀ v ∈ values, ∃ fields, v = .obj fields) :
    values.length ≤
      (solidLines (splitlines (values.flatMap fun v => lineOf platform v ++ [0x0a]))).length := by
  induction values with
  | nil => exact Nat.zero_le _
  | cons v values ih =>
    obtain ⟨fields, rfl⟩ := objects v (List.mem_cons_self ..)
    obtain ⟨inner, braced⟩ := @lineOf_obj platform fields
    have rest := ih fun w later => objects w (List.mem_cons_of_mem _ later)
    have first := solidLines_text (0x7b :: inner)
      (values.flatMap fun v => lineOf platform v ++ [0x0a]) 0x7d (by decide) [] false
    rw [List.flatMap_cons, braced, List.length_cons]
    simp only [List.cons_append, List.append_assoc, List.nil_append] at first ⊢
    rw [splitlines]
    omega

/-- More lines than values where a value holds a boundary. -/
theorem solidLines_boundary_values (lawful : platform.Lawful) (values : List Json) (v : Json)
    (inside : v ∈ values) (accepted : v.encodable = true)
    (objects : ∀ v ∈ values, ∃ fields, v = .obj fields)
    (broken : ∃ s ∈ v.strings, ∃ c ∈ s, isRawBoundary c = true) :
    values.length <
      (solidLines (splitlines (values.flatMap fun v => lineOf platform v ++ [0x0a]))).length := by
  induction values with
  | nil => cases inside
  | cons w values ih =>
    have laterObjects : ∀ v ∈ values, ∃ fields, v = .obj fields :=
      fun w later => objects w (List.mem_cons_of_mem _ later)
    obtain ⟨fields, rfl⟩ := objects w (List.mem_cons_self ..)
    obtain ⟨inner, braced⟩ := @lineOf_obj platform fields
    rw [List.flatMap_cons, braced, List.length_cons]
    simp only [List.cons_append, List.append_assoc, List.nil_append]
    rcases List.mem_cons.mp inside with rfl | later
    · have rest := @solidLines_values platform values laterObjects
      obtain ⟨c, held, boundary⟩ := (lineOf_boundary_iff lawful _ accepted).mpr broken
      -- neither brace is a boundary
      have between : c ∈ inner := by
        rw [braced, List.mem_cons, List.mem_append, List.mem_singleton] at held
        rcases held with rfl | held | rfl
        · exact absurd boundary (by decide)
        · exact held
        · exact absurd boundary (by decide)
      have first := solidLines_boundary inner
        (values.flatMap fun v => lineOf platform v ++ [0x0a]) 0x7d c (by decide) between boundary
        [0x7b] 0x7b (List.mem_singleton_self _) (by decide)
      rw [splitlines, splitlinesFrom, if_neg (by simp), if_neg (by decide), List.nil_append]
      omega
    · have rest := ih later laterObjects
      have first := solidLines_text (0x7b :: inner)
        (values.flatMap fun v => lineOf platform v ++ [0x0a]) 0x7d (by decide) [] false
      simp only [List.cons_append] at first
      rw [splitlines]
      omega

theorem parseNdjson_length (filename : Str) (text : Str) (member : Bytes) (values : List Json)
    (encoded : encodeUtf8 text = some member)
    (parsed : parseNdjson platform member filename = .ok values) :
    values.length = (solidLines (splitlines text)).length := by
  rw [parseNdjson, decodeUtf8_encodeUtf8 _ _ encoded] at parsed
  exact parseLines_length filename (splitlines text) 1 values parsed

/-! ## Loading -/

/-- A proof holds UUIDs, digests, an instant and the algorithm. -/
theorem DecisionIntegrityProof.dump_plain (p : DecisionIntegrityProof) :
    ∀ s ∈ p.dump.strings, ∀ c ∈ s, isPlain c = true := by
  intro s string
  rw [DecisionIntegrityProof.dump, Json.strings, Json.mem_stringsFields] at string
  obtain ⟨field, inside, key | value⟩ := string
  · have keys : ([(ofString "decision_id"), "project_id", "sequence_number", "previous_hash",
        "payload_hash", "record_hash", "algorithm", "schema_version", "created_at"].all
        fun key => key.all isPlain) = true := by decide
    rw [key]
    have listed := List.mem_map_of_mem (f := Prod.fst) inside
    exact List.all_eq_true.mp (List.all_eq_true.mp keys field.1 (by simpa using listed))
  · simp only [List.mem_cons, List.not_mem_nil, or_false] at inside
    rcases inside with rfl | rfl | rfl | rfl | rfl | rfl | rfl | rfl | rfl
    · rw [List.mem_singleton.mp value]
      exact p.decisionId.isPlain_str
    · rw [List.mem_singleton.mp value]
      exact p.projectId.isPlain_str
    · cases value
    · cases previous : p.previousHash with
      | none =>
        rw [previous] at value
        cases value
      | some d =>
        rw [previous] at value
        rw [List.mem_singleton.mp value]
        exact isPlain_digest d
    · rw [List.mem_singleton.mp value]
      exact isPlain_digest p.payloadHash
    · rw [List.mem_singleton.mp value]
      exact isPlain_digest p.recordHash
    · rw [List.mem_singleton.mp value]
      exact List.all_eq_true.mp (by decide)
    · cases value
    · rw [List.mem_singleton.mp value]
      exact p.createdAt.isPlain_json

theorem isRawBoundary_of_isPlain (c : CodePoint) (plain : isPlain c = true) :
    isRawBoundary c = false := by
  by_contra raw
  rw [Bool.not_eq_false] at raw
  simp only [isRawBoundary, Bool.or_eq_true, decide_eq_true_eq] at raw
  rcases raw with (rfl | rfl) | rfl <;> exact absurd plain (by decide)

theorem EvidenceBundle.validate_dumps (lawful : platform.Lawful) (bundle : EvidenceBundle) :
    EvidenceBundle.validate platform (.obj [("manifest", bundle.manifest.dump.sortKeys),
      ("records", .arr ((bundle.records.map (·.dumped)).map Json.sortKeys)),
      ("chain", .arr ((bundle.chain.map (·.dump)).map Json.sortKeys))]) = .ok bundle.written := by
  have records := @readList_written _ _ VerifiableDecisionRecord.written
    (VerifiableDecisionRecord.validate platform) (·.dumped)
    (fun r => VerifiableDecisionRecord.validate_dumped lawful r) bundle.records
  have chain := readList_dump (DecisionIntegrityProof.validate platform) (·.dump)
    (DecisionIntegrityProof.validate_dump lawful) bundle.chain
  rw [Json.sortKeys, Json.sortKeysItems_eq] at records chain
  have manifest := EvidenceBundleManifest.validate_dump lawful bundle.manifest
  rw [EvidenceBundle.validate,
    requiredField_found "records" _ _ _ (bundle.records.map (·.written)) rfl records,
    requiredField_found "chain" _ _ _ bundle.chain rfl chain, bind_eq_ok]
  exact ⟨some bundle.manifest, manifest, rfl⟩

private theorem mapM_length {α β : Type} (read : α → Option β) (items : List α) :
    ∀ values, items.mapM read = some values → items.length = values.length := by
  induction items with
  | nil =>
    intro values done
    cases done
    rfl
  | cons a items ih =>
    intro values done
    simp only [List.mapM_cons, Option.bind_eq_bind, Option.bind_eq_some_iff, Option.pure_def,
      Option.some.injEq] at done
    obtain ⟨b, -, rest, mapped, rfl⟩ := done
    rw [List.length_cons, List.length_cons, ih rest mapped]

/-- A bundle has as many records and proofs as the value it is read from. -/
theorem EvidenceBundle.validate_length (m : Json) (records chain : List Json)
    (bundle : EvidenceBundle) (valid : EvidenceBundle.validate platform
      (.obj [("manifest", m), ("records", .arr records), ("chain", .arr chain)]) = .ok bundle) :
    records.length = bundle.records.length ∧ chain.length = bundle.chain.length := by
  simp only [EvidenceBundle.validate, bind_eq_ok, orRaise_eq_ok, Option.bind_eq_bind,
    Option.bind_eq_some_iff, Option.pure_def, Option.some.injEq] at valid
  obtain ⟨_, -, _, -, read, mapped, proofs, proofsMapped, rfl⟩ := valid
  exact ⟨mapM_length _ records read mapped, mapM_length _ chain proofs proofsMapped⟩

theorem validateBundle_eq_ok_iff (m : Json) (records chain : List Json) (bundle : EvidenceBundle) :
    validateBundle platform m records chain = .ok bundle ↔
      EvidenceBundle.validate platform
        (.obj [("manifest", m), ("records", .arr records), ("chain", .arr chain)]) =
          .ok bundle := by
  unfold validateBundle
  split
  next invalid => exact iff_of_false (by simp) (by simp [invalid])
  · exact Iff.rfl

theorem parseManifest_line (lawful : platform.Lawful) (m : EvidenceBundleManifest) (member : Bytes)
    (accepted : m.dump.encodable = true)
    (encoded : encodeUtf8 (lineOf platform m.dump ++ [0x0a]) = some member) :
    parseManifest platform member = .ok m.dump.sortKeys := by
  have read := loads_lineOf lawful m.dump [0x0a] accepted m.dump_unique
    (by simp [Json.isJsonSpace])
  rw [parseManifest, decodeUtf8_encodeUtf8 _ _ encoded]
  simp [orRaise, read, bind, Except.bind, pure, Except.pure]

/-- What loading does with the members of an archive within the limit. -/
theorem loadEvidenceBundleArchive_members (lossless : zip.Lossless) (manifest records chain : Bytes)
    (whole : (zip.write [(manifestFile, manifest), (recordsFile, records),
      (chainFile, chain)]).length ≤ maxEvidenceArchiveBytes)
    (parts : manifest.length + records.length + chain.length ≤ maxEvidenceArchiveBytes) :
    loadEvidenceBundleArchive platform zip
        (zip.write [(manifestFile, manifest), (recordsFile, records), (chainFile, chain)]) =
      (parseManifest platform manifest >>= fun m =>
        parseNdjson platform records recordsFile >>= fun r =>
          parseNdjson platform chain chainFile >>= fun c => validateBundle platform m r c) := by
  have names (members : List (Str × Bytes)) (three : members.map Prod.fst = evidenceBundleFiles) :
      (members.map Prod.fst).Nodup ∧
        (∀ name ∈ members.map Prod.fst, name ∈ evidenceBundleFiles) ∧
        ∀ file ∈ evidenceBundleFiles, file ∈ members.map Prod.fst := by
    rw [three]
    exact ⟨by decide, fun _ => id, fun _ => id⟩
  have total : ([(manifestFile, manifest), (recordsFile, records), (chainFile, chain)].map
      fun member => member.2.length).sum ≤ maxEvidenceArchiveBytes := by
    simp only [List.map_cons, List.map_nil, List.sum_cons, List.sum_nil]
    omega
  rw [loadEvidenceBundleArchive, if_neg (Nat.not_lt.mpr whole), lossless]
  simp only [orRaise, bind, Except.bind]
  rw [if_neg (Nat.not_lt.mpr total), if_neg (not_not_intro (names _ rfl))]
  rfl

/-! ## The loaded bundle -/

/-- The written object has its keys in order. -/
theorem StrictObject.written_canonical (c : StrictObject) : c.written.canonical = c.written :=
  StrictObject.ext _ _ (Json.insertionSort_insertionSort _)

theorem EvidenceBundle.canonical_canonical (bundle : EvidenceBundle) :
    bundle.canonical.canonical = bundle.canonical := by
  simp only [canonical, List.map_map, EvidenceBundle.mk.injEq, true_and, and_true]
  refine List.map_congr_left fun r _ => ?_
  simp only [Function.comp_apply, VerifiableDecisionRecord.canonical,
    AuthorizationResponse.canonical, StrictObject.canonical_canonical]

/-- The records of an archive whose keys are written as they are. -/
structure WrittenAlike (r : VerifiableDecisionRecord) : Prop where
  dumpable : r.decision.Dumpable
  scalar : r.decision.context.ScalarKeys

theorem verifyRecords_canonical (project : Uuid) (chain : List DecisionIntegrityProof)
    (records : List VerifiableDecisionRecord) (alike : ∀ r ∈ records, WrittenAlike r) :
    ∀ selected, verifyRecords platform project chain selected (records.map (·.canonical)) =
      verifyRecords platform project chain selected records := by
  induction records with
  | nil => exact fun _ => rfl
  | cons r records ih =>
    intro selected
    have here := alike r List.mem_cons_self
    have hashed := @payloadHash_canonical platform r.decision here.dumpable here.scalar
    have checked : checkRecord platform project chain selected r.canonical =
        checkRecord platform project chain selected r := by
      unfold checkRecord
      simp only [VerifiableDecisionRecord.canonical, hashed]
      rfl
    rw [List.map_cons, verifyRecords, verifyRecords, checked,
      ih fun s later => alike s (List.mem_cons_of_mem _ later)]
    rfl

theorem verifyEvidenceBundle_canonical (bundle : EvidenceBundle)
    (alike : ∀ r ∈ bundle.records, WrittenAlike r) (expectedHeadHash : Option Str)
    (verifiedAt : Datetime) :
    verifyEvidenceBundle platform bundle.canonical expectedHeadHash verifiedAt =
      verifyEvidenceBundle platform bundle expectedHeadHash verifiedAt := by
  have dumps : (bundle.records.map (·.canonical)).mapM (·.dump) = bundle.records.mapM (·.dump) := by
    rw [(mapM_eq_map_iff VerifiableDecisionRecord.dump_eq_ok bundle.records _).mpr
        ⟨fun r member => (alike r member).dumpable, rfl⟩,
      mapM_eq_map_iff VerifiableDecisionRecord.dump_eq_ok, List.map_map]
    refine ⟨fun r member => ?_, List.map_congr_left fun r member => ?_⟩
    · obtain ⟨s, present, rfl⟩ := List.mem_map.mp member
      exact s.decision.canonical_dumpable (alike s present).dumpable
    · simp only [Function.comp_apply, VerifiableDecisionRecord.dumped,
        VerifiableDecisionRecord.canonical, r.decision.canonical_dumped (alike r member).scalar]
  have selected := @verifyRecords_canonical platform bundle.manifest.projectId
    bundle.chain bundle.records alike []
  unfold verifyEvidenceBundle
  simp only [EvidenceBundle.canonical, dumps, selected, List.length_map]

theorem EvidenceBundle.written_eq_canonical (bundle : EvidenceBundle)
    (scalar : ∀ r ∈ bundle.records, r.decision.context.ScalarKeys) :
    bundle.written = bundle.canonical := by
  have records : bundle.records.map (·.written) = bundle.records.map (·.canonical) :=
    List.map_congr_left fun r member => by
      simp only [VerifiableDecisionRecord.written, VerifiableDecisionRecord.canonical,
        AuthorizationResponse.written, AuthorizationResponse.canonical,
        r.decision.context.written_eq_canonical_iff.mpr (scalar r member)]
  simp only [written, canonical, records]

/-- A bundle equal to the one that was written keeps its keys. -/
theorem EvidenceBundle.scalarKeys_of_written (bundle : EvidenceBundle)
    (equal : bundle.written.canonical = bundle.canonical) :
    ∀ r ∈ bundle.records, r.decision.context.ScalarKeys := by
  intro r member
  have records := congrArg EvidenceBundle.records equal
  simp only [canonical, written, List.map_map] at records
  have same := congrArg (·.decision.context) (List.map_inj_left.mp records r member)
  simp only [Function.comp_apply, VerifiableDecisionRecord.written,
    VerifiableDecisionRecord.canonical, AuthorizationResponse.written,
    AuthorizationResponse.canonical] at same
  rwa [r.decision.context.written_canonical, StrictObject.written_eq_canonical_iff] at same

/-- An archive is read back as an equal bundle exactly when no record holds a boundary JSON leaves
unescaped and no context a key that is written as another. -/
theorem archive_round_trip_iff (lawful : platform.Lawful) (lossless : zip.Lossless)
    (bundle : EvidenceBundle) (maximumBytes : Nat) (limit : maximumBytes ≤ maxEvidenceArchiveBytes)
    (archive : Bytes)
    (built : buildEvidenceBundleArchive platform zip bundle maximumBytes = .ok archive) :
    (∃ loaded, loadEvidenceBundleArchive platform zip archive = .ok loaded ∧
        loaded.canonical = bundle.canonical ∧
        ∀ expectedHeadHash verifiedAt,
          verifyEvidenceBundle platform loaded expectedHeadHash verifiedAt =
            verifyEvidenceBundle platform bundle expectedHeadHash verifiedAt) ↔
      (∀ r ∈ bundle.records, ∀ s ∈ r.dumped.strings, ∀ c ∈ s, isRawBoundary c = false) ∧
        ∀ r ∈ bundle.records, r.decision.context.ScalarKeys := by
  obtain ⟨manifest, records, chain, archived, rfl, whole, parts⟩ :=
    buildEvidenceBundleArchive_spec bundle maximumBytes archive built
  have loads := @loadEvidenceBundleArchive_members platform _ lossless manifest records
    chain (whole.trans limit) (parts.trans limit)
  rw [parseManifest_line lawful bundle.manifest manifest archived.manifestAccepted
    archived.manifestBytes] at loads
  have recordsObjects : ∀ v ∈ bundle.records.map (·.dumped), ∃ fields, v = .obj fields := by
    intro v inside
    obtain ⟨r, -, rfl⟩ := List.mem_map.mp inside
    exact ⟨_, rfl⟩
  have unbrokenLoads
      (unbroken : ∀ r ∈ bundle.records, ∀ s ∈ r.dumped.strings, ∀ c ∈ s, isRawBoundary c = false) :
      loadEvidenceBundleArchive platform zip (zip.write
        [(manifestFile, manifest), (recordsFile, records), (chainFile, chain)]) =
          .ok bundle.written := by
    have recordsRead := parseNdjson_lines lawful recordsFile (bundle.records.map (·.dumped)) records
      (by simpa using archived.recordsAccepted)
      (by simpa using fun r _ => VerifiableDecisionRecord.dumped_unique r) recordsObjects
      (by simpa using unbroken) archived.recordsBytes
    have chainRead := parseNdjson_lines lawful chainFile (bundle.chain.map (·.dump)) chain
      (by simpa using archived.chainAccepted)
      (by simpa using fun p _ => DecisionIntegrityProof.dump_unique p)
      (by
        intro v inside
        obtain ⟨p, -, rfl⟩ := List.mem_map.mp inside
        exact ⟨_, rfl⟩)
      (by
        intro v inside s string c held
        obtain ⟨p, -, rfl⟩ := List.mem_map.mp inside
        exact isRawBoundary_of_isPlain c (p.dump_plain s string c held))
      archived.chainBytes
    rw [loads, recordsRead, chainRead]
    simp only [bind_eq_ok, Except.ok.injEq, exists_eq_left', validateBundle_eq_ok_iff]
    exact EvidenceBundle.validate_dumps lawful bundle
  constructor
  · rintro ⟨loaded, read, equal, -⟩
    have unbroken : ∀ r ∈ bundle.records, ∀ s ∈ r.dumped.strings, ∀ c ∈ s,
        isRawBoundary c = false := by
      intro r member s string c held
      by_contra raw
      rw [Bool.not_eq_false] at raw
      have more := solidLines_boundary_values lawful (bundle.records.map (·.dumped)) r.dumped
        (List.mem_map_of_mem member) (archived.recordsAccepted r member) recordsObjects
        ⟨s, string, c, held, raw⟩
      rw [loads] at read
      -- the reader finds as many values as lines, the bundle has fewer
      simp only [bind_eq_ok, Except.ok.injEq, exists_eq_left', validateBundle_eq_ok_iff] at read
      obtain ⟨parsed, lines, _, -, valid⟩ := read
      have count := parseNdjson_length recordsFile _ records parsed archived.recordsBytes lines
      have values := (EvidenceBundle.validate_length _ parsed _ loaded valid).1
      have length := congrArg (fun b : EvidenceBundle => b.records.length) equal
      simp only [EvidenceBundle.canonical, List.length_map] at length
      rw [List.length_map] at more
      omega
    rw [unbrokenLoads unbroken, Except.ok.injEq] at read
    subst read
    exact ⟨unbroken, bundle.scalarKeys_of_written equal⟩
  · rintro ⟨unbroken, scalar⟩
    have written := bundle.written_eq_canonical scalar
    refine ⟨bundle.written, unbrokenLoads unbroken, ?_, fun expectedHeadHash verifiedAt => ?_⟩
    · rw [written, bundle.canonical_canonical]
    · rw [written]
      exact verifyEvidenceBundle_canonical bundle
        (fun r member => ⟨archived.dumpable r member, scalar r member⟩) expectedHeadHash verifiedAt

/-! ## A sample archive -/

/-- The members of a sample container in a row: `1` before the three bytes of each character of
a name, `0` before each byte of content, `2` after a member. -/
def spellMembers : List (Str × Bytes) → Bytes
  | [] => []
  | (name, content) :: rest =>
    (name.flatMap fun c => [1, UInt8.ofNat (c.val / 65536), UInt8.ofNat (c.val / 256 % 256),
      UInt8.ofNat (c.val % 256)]) ++
    ((content.flatMap fun b => [0, b]) ++ 2 :: spellMembers rest)

def readMembers : Bytes → Option (List (Str × Bytes))
  | [] => some []
  | mark :: rest =>
    if mark = 2 then (readMembers rest).map (([], []) :: ·)
    else if mark = 0 then
      match rest with
      | b :: rest =>
        match readMembers rest with
        | some ((name, content) :: members) => some ((name, b :: content) :: members)
        | _ => none
      | [] => none
    else
      match rest with
      | x :: y :: z :: rest =>
        match readMembers rest with
        | some ((name, content) :: members) =>
          some ((Fin.ofNat 0x110000 (x.toNat * 65536 + y.toNat * 256 + z.toNat) :: name, content) ::
            members)
        | _ => none
      | _ => none

private theorem spelled_codePoint (c : CodePoint) :
    Fin.ofNat 0x110000 ((UInt8.ofNat (c.val / 65536)).toNat * 65536 +
      (UInt8.ofNat (c.val / 256 % 256)).toNat * 256 + (UInt8.ofNat (c.val % 256)).toNat) = c := by
  have below := c.isLt
  have high : c.val / 65536 % 2 ^ 8 = c.val / 65536 := Nat.mod_eq_of_lt (by omega)
  have value : c.val / 65536 * 65536 + c.val / 256 % 256 * 256 + c.val % 256 = c.val := by omega
  apply Fin.ext
  rw [UInt8.toNat_ofNat', UInt8.toNat_ofNat', UInt8.toNat_ofNat', high,
    Nat.mod_eq_of_lt (a := c.val / 256 % 256) (by omega),
    Nat.mod_eq_of_lt (a := c.val % 256) (by omega), value]
  exact Nat.mod_eq_of_lt below

def sampleZip : ZipFormat := ⟨spellMembers, readMembers⟩

theorem sampleZip_lossless : sampleZip.Lossless := by
  intro members
  change readMembers (spellMembers members) = some members
  induction members with
  | nil => rfl
  | cons member members ih =>
    obtain ⟨name, content⟩ := member
    have contents : readMembers ((content.flatMap fun b => [0, b]) ++ 2 :: spellMembers members) =
        some (([], content) :: members) := by
      induction content with
      | nil =>
        rw [List.flatMap_nil, List.nil_append, readMembers.eq_def]
        simp [ih]
      | cons b content more =>
        rw [List.flatMap_cons, List.append_assoc, readMembers.eq_def]
        simp [more]
    rw [spellMembers]
    induction name with
    | nil => exact contents
    | cons c name more =>
      rw [List.flatMap_cons, List.append_assoc, readMembers.eq_def]
      simpa [more] using spelled_codePoint c

theorem archive_round_trip_sample :
    ∃ archive, buildEvidenceBundleArchive sampleBundlePlatform sampleZip sampleBundle
        maxEvidenceArchiveBytes = .ok archive ∧
      ((∃ loaded, loadEvidenceBundleArchive sampleBundlePlatform sampleZip archive = .ok loaded ∧
          loaded.canonical = sampleBundle.canonical ∧
          ∀ expectedHeadHash verifiedAt,
            verifyEvidenceBundle sampleBundlePlatform loaded expectedHeadHash verifiedAt =
              verifyEvidenceBundle sampleBundlePlatform sampleBundle expectedHeadHash verifiedAt) ↔
        (∀ r ∈ sampleBundle.records, ∀ s ∈ r.dumped.strings, ∀ c ∈ s, isRawBoundary c = false) ∧
          ∀ r ∈ sampleBundle.records, r.decision.context.ScalarKeys) := by
  have succeeds : (buildEvidenceBundleArchive sampleBundlePlatform sampleZip sampleBundle
      maxEvidenceArchiveBytes).isOk = true := by decide +kernel
  cases built : buildEvidenceBundleArchive sampleBundlePlatform sampleZip sampleBundle
      maxEvidenceArchiveBytes with
  | error exc =>
    rw [built] at succeeds
    cases succeeds
  | ok archive =>
    exact ⟨archive, rfl, archive_round_trip_iff (referencePlatform_lawful _) sampleZip_lossless
      sampleBundle maxEvidenceArchiveBytes le_rfl archive built⟩

/-- The sample record of an agent whose name holds a line separator. -/
def brokenLineBundle : EvidenceBundle :=
  { sampleBundle with
    records := [{ sampleRecord with decision := { samplePay with agent := [0x61, 0x2028, 0x62] } }] }

/-- The archive of that bundle is built and cannot be loaded. -/
theorem line_separator_unreadable :
    ∃ archive, buildEvidenceBundleArchive sampleBundlePlatform sampleZip brokenLineBundle
        maxEvidenceArchiveBytes = .ok archive ∧
      loadEvidenceBundleArchive sampleBundlePlatform sampleZip archive =
        .error (.archiveError "records.ndjson:1 is not valid JSON.") := by
  have fails : (buildEvidenceBundleArchive sampleBundlePlatform sampleZip brokenLineBundle
      maxEvidenceArchiveBytes).toOption.map (fun archive =>
        (loadEvidenceBundleArchive sampleBundlePlatform sampleZip archive).map fun _ => ()) =
      some (.error (.archiveError "records.ndjson:1 is not valid JSON.")) := by decide +kernel
  rw [Option.map_eq_some_iff] at fails
  obtain ⟨archive, built, loads⟩ := fails
  refine ⟨archive, ?_, ?_⟩
  · cases done : buildEvidenceBundleArchive sampleBundlePlatform sampleZip brokenLineBundle
        maxEvidenceArchiveBytes with
    | error exc =>
      rw [done] at built
      cases built
    | ok bytes =>
      rw [done] at built
      cases built
      rfl
  · cases done : loadEvidenceBundleArchive sampleBundlePlatform sampleZip archive with
    | error exc =>
      rw [done] at loads
      cases loads
      rfl
    | ok bundle =>
      rw [done] at loads
      cases loads

end DecAustrum
