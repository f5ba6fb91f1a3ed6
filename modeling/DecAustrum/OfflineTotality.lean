import DecAustrum.ExportStreams
import DecAustrum.OfflineVerifier

/-!
# Which files the offline verifier reports on

Every step of the verifier has its own exceptions, and the two handlers name some of them. A file
is reported on exactly when no step that is reached raises another.
-/
namespace DecAustrum.EvidenceVerifier

open Python

variable {platform : Platform}

/-! ## Handled outcomes -/

/-- A value, or the one exception `main` catches. -/
def Handled {α : Type} (outcome : Except VerifierExc α) : Prop :=
  ∀ exc, outcome = .error exc → ∃ message, exc = .python (.archiveError message)

theorem handled_ok {α : Type} (a : α) : Handled (.ok a) := by
  intro exc raised
  cases raised

theorem handled_bind_iff {α β : Type} (x : Except VerifierExc α) (f : α → Except VerifierExc β) :
    Handled (x >>= f) ↔ Handled x ∧ ∀ a, x = .ok a → Handled (f a) := by
  cases x with
  | error exc =>
    constructor
    · intro handled
      refine ⟨fun other raised => ?_, fun a done => by cases done⟩
      cases raised
      exact handled exc rfl
    · rintro ⟨handled, -⟩ other raised
      cases raised
      exact handled exc rfl
  | ok a =>
    constructor
    · intro handled
      refine ⟨handled_ok a, fun b done => ?_⟩
      cases done
      exact handled
    · rintro ⟨-, after⟩
      exact after a rfl

theorem handled_ofZip_iff {α : Type} (x : Except ZipExc α) :
    Handled (ofZip x) ↔ ∀ exc, x = .error exc → exc.caught = true := by
  cases x with
  | ok a => exact iff_of_true (handled_ok a) (fun exc raised => by cases raised)
  | error exc =>
    by_cases caught : exc.caught = true
    · refine iff_of_true ?_ (fun other raised => by cases raised; exact caught)
      rintro _ raised
      rw [ofZip, if_pos caught] at raised
      cases raised
      exact ⟨_, rfl⟩
    · refine iff_of_false (fun handled => ?_) (fun all => caught (all exc rfl))
      obtain ⟨message, same⟩ := handled (.zip exc) (by rw [ofZip, if_neg caught])
      cases same

theorem handled_ofPython_iff {α : Type} (x : Except PyExc α) :
    Handled (ofPython x) ↔ ∀ exc, x = .error exc → ∃ message, exc = .archiveError message := by
  cases x with
  | ok a => exact iff_of_true (handled_ok a) (fun exc raised => by cases raised)
  | error exc =>
    constructor
    · rintro handled _ ⟨⟩
      obtain ⟨message, same⟩ := handled _ rfl
      cases same
      exact ⟨message, rfl⟩
    · rintro named _ ⟨⟩
      obtain ⟨message, rfl⟩ := named exc rfl
      exact ⟨message, rfl⟩

theorem handled_orRaise {α : Type} (message : Str) (value : Option α) :
    Handled (ofPython (orRaise (.archiveError message) value)) := by
  rw [handled_ofPython_iff]
  intro exc raised
  cases value with
  | none =>
    cases raised
    exact ⟨message, rfl⟩
  | some a => cases raised

theorem ofZip_eq_ok_iff {α : Type} (x : Except ZipExc α) (a : α) : ofZip x = .ok a ↔ x = .ok a := by
  cases x with
  | ok b => simp [ofZip]
  | error exc =>
    rw [ofZip]
    split <;> simp

theorem ofPython_eq_ok_iff {α : Type} (x : Except PyExc α) (a : α) :
    ofPython x = .ok a ↔ x = .ok a := by
  cases x <;> simp [ofPython]

/-! ## The file and its layout -/

theorem readArchiveBytes_eq_ok_iff (file : Except Str Bytes) (source : Bytes) :
    readArchiveBytes file = .ok source ↔
      file = .ok source ∧ source.length ≤ maxEvidenceArchiveBytes := by
  cases file with
  | error text => simp [readArchiveBytes]
  | ok content =>
    by_cases long : maxEvidenceArchiveBytes < content.length
    · rw [readArchiveBytes, if_pos long]
      refine iff_of_false (by simp) ?_
      rintro ⟨⟨⟩, short⟩
      exact Nat.not_le.mpr long short
    · rw [readArchiveBytes, if_neg long]
      constructor
      · rintro ⟨⟩
        exact ⟨rfl, Nat.le_of_not_lt long⟩
      · rintro ⟨same, -⟩
        exact congrArg _ (Except.ok.inj same)

theorem handled_readArchiveBytes (file : Except Str Bytes) :
    Handled (ofPython (readArchiveBytes file)) := by
  rw [handled_ofPython_iff]
  intro exc raised
  cases file with
  | error text =>
    cases raised
    exact ⟨_, rfl⟩
  | ok content =>
    rw [readArchiveBytes] at raised
    split at raised
    · cases raised
      exact ⟨_, rfl⟩
    · cases raised

theorem checkLayout_eq_ok_iff (infos : List ZipInfo) (done : Unit) :
    checkLayout infos = .ok done ↔ Layout infos ∧ totalSize infos ≤ maxEvidenceArchiveBytes := by
  unfold checkLayout
  split
  next wrong => exact iff_of_false (by simp) (fun fits => wrong fits.1)
  next layout =>
  split
  next long => exact iff_of_false (by simp) (fun fits => Nat.not_le.mpr long fits.2)
  next short => exact iff_of_true rfl ⟨not_not.mp layout, Nat.le_of_not_lt short⟩

theorem handled_checkLayout (infos : List ZipInfo) : Handled (ofPython (checkLayout infos)) := by
  rw [handled_ofPython_iff]
  intro exc raised
  unfold checkLayout at raised
  split at raised
  · cases raised
    exact ⟨_, rfl⟩
  split at raised
  · cases raised
    exact ⟨_, rfl⟩
  · cases raised

/-! ## Text and lines -/

section Members

variable (platform)

/-- A text `json.loads` gives a value for, or the error that is handled. -/
def TextReadable (text : Str) : Prop := Json.loads platform.floats text ≠ .error .intDigits

/-- The lines up to the first that is no JSON hold no integer over the digit limit. -/
def LinesReadable : List Str → Prop
  | [] => True
  | line :: rest =>
    (isBlank line = true → LinesReadable rest) ∧
      (isBlank line = false → TextReadable platform line ∧
        ((∃ v, Json.loads platform.floats line = .ok v) → LinesReadable rest))

/-- The lines that are not blank are the texts of these values. -/
def LinesHold (lines : List Str) (values : List Json) : Prop :=
  List.Forall₂ (fun line v => Json.loads platform.floats line = .ok v) (solidLines lines) values

def ManifestReadable (content : Bytes) : Prop :=
  ∀ text, decodeUtf8 content = some text → TextReadable platform text

def NdjsonReadable (content : Bytes) : Prop :=
  ∀ text, decodeUtf8 content = some text → LinesReadable platform (splitlines text)

def ManifestHolds (content : Bytes) (v : Json) : Prop :=
  ∃ text, decodeUtf8 content = some text ∧ Json.loads platform.floats text = .ok v

def NdjsonHolds (content : Bytes) (values : List Json) : Prop :=
  ∃ text, decodeUtf8 content = some text ∧ LinesHold platform (splitlines text) values

end Members

theorem parseManifest_eq_ok_iff (content : Bytes) (v : Json) :
    parseManifest platform content = .ok v ↔ ManifestHolds platform content v := by
  unfold parseManifest ManifestHolds
  rw [bind_eq_ok]
  simp only [orRaise_eq_ok]
  refine exists_congr fun text => and_congr_right fun _ => ?_
  cases Json.loads platform.floats text with
  | ok w => simp [pure, Except.pure]
  | error exc => cases exc <;> simp [throw, throwThe, MonadExceptOf.throw]

theorem handled_parseManifest_iff (content : Bytes) :
    Handled (ofPython (parseManifest platform content)) ↔ ManifestReadable platform content := by
  rw [handled_ofPython_iff]
  unfold parseManifest ManifestReadable TextReadable
  cases decodeUtf8 content with
  | none => exact iff_of_true (by rintro _ ⟨⟩; exact ⟨_, rfl⟩) (by simp)
  | some text =>
    simp only [orRaise, bind, Except.bind, Option.some.injEq, forall_eq']
    cases Json.loads platform.floats text with
    | ok w => exact iff_of_true (by rintro _ ⟨⟩) (by simp)
    | error exc =>
      cases exc with
      | decode => exact iff_of_true (by rintro _ ⟨⟩; exact ⟨_, rfl⟩) (by simp)
      | intDigits => simp [throw, throwThe, MonadExceptOf.throw]

theorem parseLines_eq_ok_iff (filename : Str) (lines : List Str) :
    ∀ number values, parseLines platform filename number lines = .ok values ↔
      LinesHold platform lines values := by
  induction lines with
  | nil =>
    intro number values
    rw [parseLines, LinesHold, solidLines, List.filter_nil, List.forall₂_nil_left_iff,
      Except.ok.injEq, eq_comm]
  | cons line rest ih =>
    intro number values
    rw [parseLines, LinesHold, solidLines]
    by_cases blank : isBlank line = true
    · rw [if_pos blank, ih, List.filter_cons_of_neg (by simp [blank])]
      rfl
    · rw [if_neg blank, List.filter_cons_of_pos (by simp [blank])]
      cases read : Json.loads platform.floats line with
      | error exc =>
        refine iff_of_false ?_ ?_
        · cases exc <;> simp [bind, Except.bind]
        · intro held
          cases held with
          | cons first _ =>
            rw [read] at first
            cases first
      | ok v =>
        dsimp only
        rw [bind_eq_ok]
        simp only [Except.ok.injEq, exists_eq_left', bind_eq_ok, ih, pure, Except.pure]
        constructor
        · rintro ⟨later, held, rfl⟩
          exact .cons read held
        · intro held
          cases held with
          | cons first held =>
            rw [read] at first
            cases first
            exact ⟨_, held, rfl⟩

theorem parseNdjson_eq_ok_iff (content : Bytes) (filename : Str) (values : List Json) :
    parseNdjson platform content filename = .ok values ↔ NdjsonHolds platform content values := by
  unfold parseNdjson NdjsonHolds
  rw [bind_eq_ok]
  simp only [orRaise_eq_ok, parseLines_eq_ok_iff]

/-- The loop over the lines, by the line that ends it. -/
theorem handled_parseLines_iff (filename : Str) (lines : List Str) :
    ∀ number, Handled (ofPython (parseLines platform filename number lines)) ↔
      LinesReadable platform lines := by
  induction lines with
  | nil =>
    intro number
    exact iff_of_true (handled_ok []) trivial
  | cons line rest ih =>
    intro number
    rw [parseLines, LinesReadable]
    by_cases blank : isBlank line = true
    · rw [if_pos blank, ih]
      simp [blank]
    · rw [if_neg blank]
      simp only [blank, TextReadable, handled_ofPython_iff] at ih ⊢
      cases Json.loads platform.floats line with
      | error exc => cases exc <;> simp [bind, Except.bind]
      | ok v =>
        simp only [bind, Except.bind, pure, Except.pure, ← ih (number + 1)]
        cases parseLines platform filename (number + 1) rest <;> simp

theorem handled_parseNdjson_iff (content : Bytes) (filename : Str) :
    Handled (ofPython (parseNdjson platform content filename)) ↔
      NdjsonReadable platform content := by
  unfold parseNdjson NdjsonReadable
  cases decodeUtf8 content with
  | none =>
    refine iff_of_true ?_ (by simp)
    exact handled_orRaise _ none
  | some text =>
    simp only [Option.some.injEq, forall_eq']
    exact handled_parseLines_iff filename (splitlines text) 1

/-! ## Times -/

section Times

variable (platform)

/-- A time that has a UTC form, where it is read as one with a zone. -/
def Converts (v : Json) : Prop :=
  ∀ d, platform.readDatetime v = some d → d.offset ≠ none → d.astimezoneUtc ≠ none

structure CriteriaConvert (criteria : Json) : Prop where
  evaluatedAfter : ∀ w ∈ criteria.get? "evaluated_after", w ≠ .null → Converts platform w
  evaluatedBefore : ∀ w ∈ criteria.get? "evaluated_before", w ≠ .null → Converts platform w

/-- The times of a manifest, those of its criteria included. -/
structure TimesConvert (manifest : Json) : Prop where
  generatedAt : ∀ w ∈ manifest.get? "generated_at", Converts platform w
  snapshotAt : ∀ w ∈ manifest.get? "snapshot_at", Converts platform w
  criteria : ∀ w ∈ manifest.get? "criteria", CriteriaConvert platform w

end Times

/-- A reader with a value under this condition that raises `OverflowError` elsewhere. -/
structure OverflowsUnless {α : Type} (condition : Prop) (outcome : Except PyExc α) : Prop where
  value : condition → ∃ a, outcome = .ok a
  overflow : ¬ condition → outcome = .error .overflowError

theorem OverflowsUnless.congr {α : Type} {P Q : Prop} {outcome : Except PyExc α}
    (reads : OverflowsUnless P outcome) (same : P ↔ Q) : OverflowsUnless Q outcome :=
  ⟨fun holds => reads.value (same.mpr holds), fun fails => reads.overflow (mt same.mp fails)⟩

theorem overflowsUnless_ok {α : Type} (a : α) : OverflowsUnless True (.ok a) :=
  ⟨fun _ => ⟨a, rfl⟩, fun fails => absurd trivial fails⟩

theorem OverflowsUnless.bind {α β : Type} {P Q : Prop} {x : Except PyExc α}
    {f : α → Except PyExc β} (first : OverflowsUnless P x)
    (rest : ∀ a, OverflowsUnless Q (f a)) : OverflowsUnless (P ∧ Q) (x >>= f) := by
  constructor
  · rintro ⟨p, q⟩
    obtain ⟨a, done⟩ := first.value p
    rw [done]
    exact (rest a).value q
  · intro fails
    by_cases p : P
    · obtain ⟨a, done⟩ := first.value p
      rw [done]
      exact (rest a).overflow fun q => fails ⟨p, q⟩
    · rw [first.overflow p]
      rfl

theorem overflowsUnless_field {α : Type} (key : Str) (missing : Option α)
    (read : Json → Except PyExc (Option α)) (P : Json → Prop)
    (reads : ∀ w, OverflowsUnless (P w) (read w)) (v : Json) :
    OverflowsUnless (∀ w ∈ v.get? key, P w) (raisingField key missing read v) := by
  rw [raisingField]
  cases v.get? key with
  | none => exact (overflowsUnless_ok missing).congr (by simp)
  | some w => exact (reads w).congr (by simp)

theorem overflowsUnless_readTimezone (v : Json) :
    OverflowsUnless (Converts platform v) (readTimezone platform v) := by
  unfold readTimezone Converts
  cases platform.readDatetime v with
  | none => exact (overflowsUnless_ok none).congr (by simp)
  | some d =>
    simp only [Option.some.injEq, forall_eq']
    by_cases naive : d.offset = none
    · have refused : UtcDatetime.of d = .error .validationError := if_pos naive
      rw [refused]
      exact (overflowsUnless_ok none).congr (by simp [naive])
    · rw [UtcDatetime.of, if_neg naive]
      split
      next u made =>
        split at made
        · cases made
        next converted => exact (overflowsUnless_ok (some u)).congr (by simp [converted])
      next made =>
        split at made <;> cases made
      next exc _ made =>
        split at made
        next converted =>
          cases made
          exact ⟨fun converts => absurd converted (converts naive), fun _ => rfl⟩
        · cases made

theorem overflowsUnless_readTimezoneOptional (v : Json) :
    OverflowsUnless (v ≠ .null → Converts platform v) (readTimezoneOptional platform v) := by
  by_cases null : v = .null
  · subst null
    exact (overflowsUnless_ok (some none)).congr (by simp)
  · have read : readTimezoneOptional platform v =
        (readTimezone platform v >>= fun read => .ok (read.map some)) := by
      cases v with
      | null => exact absurd rfl null
      | _ =>
        rw [readTimezoneOptional]
        · cases readTimezone platform _ <;> rfl
        all_goals simp
    rw [read]
    exact ((overflowsUnless_readTimezone v).bind fun _ => overflowsUnless_ok _).congr
      (by simp [null])

theorem overflowsUnless_criteria (v : Json) :
    OverflowsUnless (CriteriaConvert platform v) (DecisionSearchFilters.validate platform v) := by
  cases v with
  | obj fields =>
    have after := overflowsUnless_field "evaluated_after" (some none) _ _
      (@overflowsUnless_readTimezoneOptional platform) (.obj fields)
    have before := overflowsUnless_field "evaluated_before" (some none) _ _
      (@overflowsUnless_readTimezoneOptional platform) (.obj fields)
    refine (after.bind fun _ => before.bind fun _ => overflowsUnless_ok _).congr ?_
    exact ⟨fun held => ⟨held.1, held.2.1⟩, fun held => ⟨held.1, held.2, trivial⟩⟩
  | _ =>
    exact (overflowsUnless_ok none).congr
      (iff_of_true trivial ⟨by simp [Json.get?], by simp [Json.get?]⟩)

theorem overflowsUnless_manifest (v : Json) :
    OverflowsUnless (TimesConvert platform v) (EvidenceBundleManifest.validate platform v) := by
  have generated := overflowsUnless_field "generated_at" none _ _
    (@overflowsUnless_readTimezone platform) v
  have snapshot := overflowsUnless_field "snapshot_at" none _ _
    (@overflowsUnless_readTimezone platform) v
  have criteria := overflowsUnless_field "criteria" none _ _
    (@overflowsUnless_criteria platform) v
  refine (generated.bind fun _ => snapshot.bind fun _ => criteria.bind fun _ =>
    overflowsUnless_ok _).congr ?_
  exact ⟨fun held => ⟨held.1, held.2.1, held.2.2.1⟩,
    fun held => ⟨held.1, held.2, held.3, trivial⟩⟩

theorem handled_validateBundle_iff (manifest : Json) (records chain : List Json) :
    Handled (ofPython (validateBundle platform manifest records chain)) ↔
      TimesConvert platform manifest := by
  have reads := @overflowsUnless_manifest platform manifest
  rw [handled_ofPython_iff, validateBundle, EvidenceBundle.validate]
  by_cases convert : TimesConvert platform manifest
  · obtain ⟨read, done⟩ := reads.value convert
    refine iff_of_true ?_ convert
    have field : raisingField "manifest" none (EvidenceBundleManifest.validate platform)
        (.obj [("manifest", manifest), ("records", .arr records), ("chain", .arr chain)]) =
        .ok read := done
    rw [field]
    intro exc raised
    dsimp only [bind, Except.bind] at raised
    split at raised
    · cases raised
      exact ⟨_, rfl⟩
    next invalid =>
      rw [error_of_orRaise raised] at raised
      exact absurd raised invalid
  · refine iff_of_false ?_ convert
    have field : raisingField "manifest" none (EvidenceBundleManifest.validate platform)
        (.obj [("manifest", manifest), ("records", .arr records), ("chain", .arr chain)]) =
        .error .overflowError := reads.overflow convert
    rw [field]
    intro named
    obtain ⟨message, same⟩ := named .overflowError rfl
    cases same

/-! ## The file -/

section File

variable (platform) (zip : ZipReader)

/-- A file within the limit that opens with the three members. -/
structure Opened (file : Except Str Bytes) (source : Bytes) (infos : List ZipInfo) : Prop where
  read : file = .ok source
  short : source.length ≤ maxEvidenceArchiveBytes
  infolist : zip.infolist source = .ok infos
  layout : Layout infos
  size : totalSize infos ≤ maxEvidenceArchiveBytes

/-- A member that is read to a content with a property, or refused with an error that is
handled. -/
structure MemberReadable (member : Except ZipExc Bytes) (Readable : Bytes → Prop) : Prop where
  refused : ∀ exc, member = .error exc → exc.caught = true
  content : ∀ content, member = .ok content → Readable content

def MemberHolds {α : Type} (member : Except ZipExc Bytes) (Holds : Bytes → α → Prop) (value : α) :
    Prop :=
  ∃ content, member = .ok content ∧ Holds content value

/-- The members in the order they are read, each where those before it give a value. -/
structure MembersReadable (source : Bytes) : Prop where
  manifest : MemberReadable (zip.read source manifestFile) (ManifestReadable platform)
  records : (∃ v, MemberHolds (zip.read source manifestFile) (ManifestHolds platform) v) →
    MemberReadable (zip.read source recordsFile) (NdjsonReadable platform)
  chain : (∃ v, MemberHolds (zip.read source manifestFile) (ManifestHolds platform) v) →
    (∃ values, MemberHolds (zip.read source recordsFile) (NdjsonHolds platform) values) →
    MemberReadable (zip.read source chainFile) (NdjsonReadable platform)
  times : ∀ v, MemberHolds (zip.read source manifestFile) (ManifestHolds platform) v →
    (∃ values, MemberHolds (zip.read source recordsFile) (NdjsonHolds platform) values) →
    (∃ values, MemberHolds (zip.read source chainFile) (NdjsonHolds platform) values) →
    TimesConvert platform v

structure FileReadable (file : Except Str Bytes) : Prop where
  archive : ∀ source, file = .ok source → source.length ≤ maxEvidenceArchiveBytes →
    ∀ exc, zip.infolist source = .error exc → exc.caught = true
  members : ∀ source infos, Opened zip file source infos → MembersReadable platform zip source

/-- The file is an archive of this bundle. -/
def FileHolds (file : Except Str Bytes) (bundle : EvidenceBundle) : Prop :=
  ∃ source infos, Opened zip file source infos ∧ ∃ manifest records chain,
    MemberHolds (zip.read source manifestFile) (ManifestHolds platform) manifest ∧
    MemberHolds (zip.read source recordsFile) (NdjsonHolds platform) records ∧
    MemberHolds (zip.read source chainFile) (NdjsonHolds platform) chain ∧
    EvidenceBundle.validate platform
      (.obj [("manifest", manifest), ("records", .arr records), ("chain", .arr chain)]) = .ok bundle

end File

variable {zip : ZipReader}

theorem loadArchive_eq_ok_iff (file : Except Str Bytes) (bundle : EvidenceBundle) :
    loadArchive platform zip file = .ok bundle ↔ FileHolds platform zip file bundle := by
  unfold loadArchive
  simp only [bind_eq_ok, ofPython_eq_ok_iff, ofZip_eq_ok_iff, readArchiveBytes_eq_ok_iff,
    checkLayout_eq_ok_iff, parseManifest_eq_ok_iff, parseNdjson_eq_ok_iff,
    validateBundle_eq_ok_iff]
  constructor
  · rintro ⟨source, ⟨read, short⟩, infos, infolist, -, ⟨layout, size⟩, first, firstRead, manifest,
      manifestHeld, second, secondRead, records, recordsHeld, third, thirdRead, chain, chainHeld,
      valid⟩
    exact ⟨source, infos, ⟨read, short, infolist, layout, size⟩, manifest, records, chain,
      ⟨first, firstRead, manifestHeld⟩, ⟨second, secondRead, recordsHeld⟩,
      ⟨third, thirdRead, chainHeld⟩, valid⟩
  · rintro ⟨source, infos, opened, manifest, records, chain, ⟨first, firstRead, manifestHeld⟩,
      ⟨second, secondRead, recordsHeld⟩, ⟨third, thirdRead, chainHeld⟩, valid⟩
    exact ⟨source, ⟨opened.read, opened.short⟩, infos, opened.infolist, (),
      ⟨opened.layout, opened.size⟩, first, firstRead, manifest, manifestHeld, second, secondRead,
      records, recordsHeld, third, thirdRead, chain, chainHeld, valid⟩

theorem handled_loadArchive_iff (file : Except Str Bytes) :
    Handled (loadArchive platform zip file) ↔ FileReadable platform zip file := by
  unfold loadArchive
  simp only [handled_bind_iff, handled_readArchiveBytes, handled_checkLayout, handled_ofZip_iff,
    handled_parseManifest_iff, handled_parseNdjson_iff, handled_validateBundle_iff,
    ofPython_eq_ok_iff, ofZip_eq_ok_iff, readArchiveBytes_eq_ok_iff, checkLayout_eq_ok_iff,
    parseManifest_eq_ok_iff, parseNdjson_eq_ok_iff, true_and]
  constructor
  · intro handled
    refine ⟨fun source read short => (handled source ⟨read, short⟩).1, fun source infos opened => ?_⟩
    obtain ⟨manifest, afterManifest⟩ := (handled source ⟨opened.read, opened.short⟩).2 infos
      opened.infolist () ⟨opened.layout, opened.size⟩
    refine ⟨⟨manifest, fun content read => (afterManifest content read).1⟩, ?_, ?_, ?_⟩
    · rintro ⟨v, content, read, held⟩
      obtain ⟨records, afterRecords⟩ := (afterManifest content read).2 v held
      exact ⟨records, fun content read => (afterRecords content read).1⟩
    · rintro ⟨v, content, read, held⟩ ⟨values, lines, linesRead, linesHeld⟩
      obtain ⟨-, afterRecords⟩ := (afterManifest content read).2 v held
      obtain ⟨chain, afterChain⟩ := (afterRecords lines linesRead).2 values linesHeld
      exact ⟨chain, fun content read => (afterChain content read).1⟩
    · rintro v ⟨content, read, held⟩ ⟨values, lines, linesRead, linesHeld⟩
        ⟨proofs, last, lastRead, lastHeld⟩
      obtain ⟨-, afterRecords⟩ := (afterManifest content read).2 v held
      obtain ⟨-, afterChain⟩ := (afterRecords lines linesRead).2 values linesHeld
      exact (afterChain last lastRead).2 proofs lastHeld
  · rintro readable source ⟨read, short⟩
    refine ⟨readable.archive source read short, fun infos infolist _ fits => ?_⟩
    have members := readable.members source infos ⟨read, short, infolist, fits.1, fits.2⟩
    refine ⟨members.manifest.refused, fun first firstRead =>
      ⟨members.manifest.content first firstRead, fun v held => ?_⟩⟩
    have records := members.records ⟨v, first, firstRead, held⟩
    refine ⟨records.refused, fun second secondRead =>
      ⟨records.content second secondRead, fun values linesHeld => ?_⟩⟩
    have chain := members.chain ⟨v, first, firstRead, held⟩ ⟨values, second, secondRead, linesHeld⟩
    exact ⟨chain.refused, fun third thirdRead => ⟨chain.content third thirdRead,
      fun proofs proofsHeld => members.times v ⟨first, firstRead, held⟩
        ⟨values, second, secondRead, linesHeld⟩ ⟨proofs, third, thirdRead, proofsHeld⟩⟩⟩

end DecAustrum.EvidenceVerifier
