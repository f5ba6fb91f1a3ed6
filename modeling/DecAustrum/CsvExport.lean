import DecAustrum.Digestible
import DecAustrum.Exports
import DecAustrum.OfflineSoundness
import DecAustrum.Traversal

/-!
# Formulas in the CSV export

A spreadsheet may take a cell for a formula when the first character that counts is a sign.
The export looks past whitespace for it, and past control characters only where they are
whitespace.
-/
namespace DecAustrum

open Python Traversal

/-! ## Cells -/

/-- The control characters of Unicode. -/
def isControl (c : CodePoint) : Bool := c.val ≤ 0x1f || (0x7f ≤ c.val && c.val ≤ 0x9f)

def isFormulaSign (c : CodePoint) : Bool := c = 0x3d || c = 0x2b || c = 0x2d || c = 0x40

/-- The first character that is neither whitespace nor a control character. -/
def firstEffective (value : Str) : Option CodePoint :=
  value.find? fun c => !(isSpace c || isControl c)

/-- What the export owes a text cell. -/
structure Neutralised (value cell : Str) : Prop where
  formula : ∀ c, firstEffective value = some c → isFormulaSign c = true → cell = 0x27 :: value
  plain : ∀ c, value.head? = some c → isSpace c = false → isControl c = false →
    isFormulaSign c = false → cell = value

/-- A formula behind a control character that is not whitespace. -/
def HiddenFormula (value : Str) : Prop :=
  (∃ c, value.head? = some c ∧ isControl c = true ∧ isSpace c = false) ∧
    ∃ c, firstEffective value = some c ∧ isFormulaSign c = true

theorem mem_csvFormulaPrefixes (c : CodePoint) (solid : isSpace c = false) :
    c ∈ csvFormulaPrefixes ↔ isFormulaSign c = true := by
  have notTab : c ≠ 0x09 := by
    rintro rfl
    exact absurd solid (by decide)
  have notReturn : c ≠ 0x0d := by
    rintro rfl
    exact absurd solid (by decide)
  have notFeed : c ≠ 0x0a := by
    rintro rfl
    exact absurd solid (by decide)
  simp [csvFormulaPrefixes, isFormulaSign, notTab, notReturn, notFeed, or_assoc]

theorem isControl_of_isFormulaSign (c : CodePoint) (sign : isFormulaSign c = true) :
    isControl c = false := by
  simp only [isFormulaSign, Bool.or_eq_true, decide_eq_true_eq] at sign
  rcases sign with ((rfl | rfl) | rfl) | rfl <;> decide

/-- Only the first character decides: after whitespace the cell is marked whatever follows. -/
theorem spreadsheetSafe_cons (c : CodePoint) (rest : Str) :
    spreadsheetSafeCsvValue (.str (c :: rest)) =
      .str (if isSpace c || isFormulaSign c then 0x27 :: c :: rest else c :: rest) := by
  rw [spreadsheetSafeCsvValue]
  by_cases space : isSpace c = true
  · simp [space]
  rw [Bool.not_eq_true] at space
  have kept : (c :: rest).dropWhile isSpace = c :: rest := by
    rw [List.dropWhile_cons_of_neg (by simp [space])]
  simp only [kept, List.head?_cons, Option.any_some, space, mem_csvFormulaPrefixes c space,
    Bool.or_false, Bool.false_or, Bool.decide_eq_true, Bool.or_self]
  split <;> rfl

theorem neutralised_iff (value cell : Str)
    (written : spreadsheetSafeCsvValue (.str value) = .str cell) :
    Neutralised value cell ↔ ¬ HiddenFormula value := by
  cases value with
  | nil =>
    have nothing : ¬ HiddenFormula [] := by
      rintro ⟨⟨c, head, -⟩, -⟩
      cases head
    refine iff_of_true ⟨?_, ?_⟩ nothing
    · intro c found
      cases found
    · intro c head
      cases head
  | cons c rest =>
    rw [spreadsheetSafe_cons, CsvValue.str.injEq] at written
    subst written
    by_cases space : isSpace c = true
    · constructor
      · rintro - ⟨⟨d, head, -, solid⟩, -⟩
        cases head
        rw [space] at solid
        cases solid
      · intro _
        refine ⟨fun _ _ _ => by simp [space], fun d head solid => ?_⟩
        cases head
        rw [space] at solid
        cases solid
    rw [Bool.not_eq_true] at space
    by_cases sign : isFormulaSign c = true
    · have visible := isControl_of_isFormulaSign c sign
      constructor
      · rintro - ⟨⟨d, head, control, -⟩, -⟩
        cases head
        rw [visible] at control
        cases control
      · intro _
        refine ⟨fun _ _ _ => by simp [sign], fun d head _ _ other => ?_⟩
        cases head
        rw [sign] at other
        cases other
    rw [Bool.not_eq_true] at sign
    simp only [space, sign, Bool.or_false, Bool.false_eq_true, if_false]
    -- the cell is left as it is, so the formula part holds only of values that are no formula
    constructor
    · rintro neutral ⟨-, d, found, formula⟩
      have longer := congrArg List.length (neutral.formula d found formula)
      simp at longer
    · intro visible
      refine ⟨fun d found formula => absurd ⟨⟨c, rfl, ?_, space⟩, d, found, formula⟩ visible,
        fun _ _ _ _ _ => rfl⟩
      by_contra plain
      rw [Bool.not_eq_true] at plain
      have first : firstEffective (c :: rest) = some c := by
        simp [firstEffective, space, plain]
      rw [first, Option.some.injEq] at found
      rw [← found, sign] at formula
      cases formula

theorem not_hidden_of_visible (value : Str)
    (visible : ∀ c, value.head? = some c → isControl c = false) : ¬ HiddenFormula value := by
  rintro ⟨⟨c, head, control, -⟩, -⟩
  rw [visible c head] at control
  cases control

theorem not_hidden_of_isPlain (value : Str) (plain : ∀ c ∈ value, isPlain c = true) :
    ¬ HiddenFormula value := by
  refine not_hidden_of_visible value fun c head => ?_
  have printable := plain c (List.mem_of_head? head)
  simp only [isPlain, Bool.and_eq_true, decide_eq_true_eq] at printable
  simp only [isControl, Bool.or_eq_false_iff, Bool.and_eq_false_iff, decide_eq_false_iff_not]
  omega

/-! ## Rows -/

variable {platform : Platform} {quotesReturn : Bool}

/-- The texts of a record that stand in a cell as their writers left them. -/
def VerifiableDecisionRecord.freeTexts (r : VerifiableDecisionRecord) : List Str :=
  r.decision.policy.toList ++ [r.decision.reason, r.decision.agent, r.decision.action]

theorem lookup_fst {β : Type} (row : List (Str × β)) (distinct : (row.map Prod.fst).Nodup) :
    ∀ cell ∈ row, row.lookup cell.1 = some cell.2 := by
  induction row with
  | nil => simp
  | cons first row ih =>
    rw [List.map_cons, List.nodup_cons] at distinct
    intro cell member
    rcases List.mem_cons.mp member with rfl | later
    · obtain ⟨column, value⟩ := cell
      simp
    · have other : cell.1 ≠ first.1 := by
        rintro same
        exact distinct.1 (same ▸ List.mem_map_of_mem later)
      rw [List.lookup_cons, beq_false_of_ne other]
      exact ih distinct.2 cell later

theorem csvCells_keys {r : VerifiableDecisionRecord} {cells : List (Str × CsvValue)}
    (made : csvCells platform r = .ok cells) : cells.map Prod.fst = csvColumns := by
  unfold csvCells at made
  simp only [bind_eq_ok] at made
  obtain ⟨_, _, _, _, _, _, _, _, made⟩ := made
  cases made
  rfl

theorem csvColumns_nodup : csvColumns.Nodup := by decide +kernel

/-- The fields of a row under the columns are the texts of its cells, in order. -/
theorem csvFields_ok {row : List (Str × CsvValue)} {fields : List Str}
    (keys : row.map Prod.fst = csvColumns) (written : csvFields row = .ok fields) :
    List.Forall₂ (fun cell field => cell.2.text = .ok field) row fields := by
  have distinct : (row.map Prod.fst).Nodup := by
    rw [keys]
    exact csvColumns_nodup
  rw [csvFields, ← keys, mapM_eq_ok_iff, List.forall₂_map_left_iff] at written
  obtain ⟨lengths, each⟩ := List.forall₂_iff_zip.mp written
  refine List.forall₂_iff_zip.mpr ⟨lengths, fun {cell field} paired => ?_⟩
  have field := each paired
  rwa [lookup_fst row distinct cell (List.of_mem_zip paired).1] at field

/-- A chunk is the row of the marked cells. -/
theorem csvChunk_ok {r : VerifiableDecisionRecord} {chunk : Bytes}
    (made : csvChunk platform quotesReturn r = .ok chunk) :
    ∃ cells fields, csvCells platform r = .ok cells ∧
      List.Forall₂ (fun cell field => (spreadsheetSafeCsvValue cell.2).text = .ok field) cells fields ∧
      encodeUtf8 ((exportDialect quotesReturn).writeRow fields) = some chunk := by
  unfold csvChunk csvRow at made
  simp only [bind_eq_ok] at made
  obtain ⟨row, rowed, fields, fielded, written⟩ := made
  cases cellsMade : csvCells platform r with
  | error exc =>
    rw [cellsMade] at rowed
    cases rowed
  | ok cells =>
    rw [cellsMade] at rowed
    cases rowed
    have keys : (cells.map fun cell => (cell.1, spreadsheetSafeCsvValue cell.2)).map Prod.fst =
        csvColumns := by
      rw [List.map_map]
      exact csvCells_keys cellsMade
    refine ⟨cells, fields, rfl, ?_, (orRaise_eq_ok _ _ _).mp written⟩
    have each := csvFields_ok keys fielded
    rwa [List.forall₂_map_left_iff] at each

theorem canonicalJson_obj_head {fields : List (Str × Json)} {text : Str}
    (made : canonicalJson platform (.obj fields) = .ok text) : text.head? = some 0x7b := by
  rw [canonicalJson, orRaise_eq_ok, Json.dumps_eq_some_iff] at made
  obtain ⟨-, rfl⟩ := made
  rw [Json.sortKeys, Json.text]
  rfl

theorem canonicalJson_arr_head {items : List Json} {text : Str}
    (made : canonicalJson platform (.arr items) = .ok text) : text.head? = some 0x5b := by
  rw [canonicalJson, orRaise_eq_ok, Json.dumps_eq_some_iff] at made
  obtain ⟨-, rfl⟩ := made
  rw [Json.sortKeys, Json.text]
  rfl

/-- The cells that can hide a formula are those of the free texts. -/
theorem csvCells_hidden {r : VerifiableDecisionRecord} {cells : List (Str × CsvValue)}
    (made : csvCells platform r = .ok cells) :
    (∀ cell ∈ cells, ∀ value, cell.2 = .str value → ¬ HiddenFormula value) ↔
      ∀ value ∈ r.freeTexts, ¬ HiddenFormula value := by
  unfold csvCells at made
  simp only [bind_eq_ok] at made
  obtain ⟨-, -, context, contextMade, evidence, evidenceMade, trace, traceMade, made⟩ := made
  cases made
  have contextVisible : ¬ HiddenFormula context := by
    rw [StrictObject.dumped_eq] at contextMade
    refine not_hidden_of_visible context fun c head => ?_
    rw [canonicalJson_obj_head contextMade] at head
    cases head
    decide
  have evidenceVisible : ¬ HiddenFormula evidence := by
    refine not_hidden_of_visible evidence fun c head => ?_
    unfold evidenceJson at evidenceMade
    split at evidenceMade
    · cases evidenceMade
      cases head
    · rw [canonicalJson_obj_head evidenceMade] at head
      cases head
      decide
  have traceVisible : ¬ HiddenFormula trace := by
    refine not_hidden_of_visible trace fun c head => ?_
    rw [canonicalJson_arr_head traceMade] at head
    cases head
    decide
  have decisionVisible : ¬ HiddenFormula r.decision.decision.text := by
    cases r.decision.decision <;>
      exact not_hidden_of_isPlain _ (List.all_eq_true.mp (by decide))
  have algorithmVisible : ¬ HiddenFormula integrityAlgorithm :=
    not_hidden_of_isPlain _ (List.all_eq_true.mp (by decide))
  have digestVisible (d : Sha256Digest) : ¬ HiddenFormula d.val :=
    not_hidden_of_isPlain _ (isPlain_digest d)
  have uuidVisible (u : Uuid) : ¬ HiddenFormula u.str := not_hidden_of_isPlain _ u.isPlain_str
  have timeVisible (d : Datetime) : ¬ HiddenFormula d.json := not_hidden_of_isPlain _ d.isPlain_json
  have previousVisible : ∀ value,
      CsvValue.ofOptional (fun d : Sha256Digest => .str d.val) r.integrity.previousHash = .str value →
        ¬ HiddenFormula value := by
    intro value text
    cases previous : r.integrity.previousHash with
    | none =>
      rw [previous] at text
      cases text
    | some d =>
      rw [previous] at text
      cases text
      exact digestVisible d
  have versionAbsent : ∀ value, CsvValue.ofOptional .int r.decision.policyVersion ≠ .str value := by
    intro value text
    cases version : r.decision.policyVersion with
    | none =>
      rw [version] at text
      cases text
    | some n =>
      rw [version] at text
      cases text
  have policyText : ∀ value, CsvValue.ofOptional .str r.decision.policy = .str value ↔
      value ∈ r.decision.policy.toList := by
    intro value
    cases r.decision.policy <;> simp [CsvValue.ofOptional, eq_comm]
  simp only [List.mem_cons, List.not_mem_nil, or_false, forall_eq_or_imp, forall_eq,
    CsvValue.str.injEq, forall_eq', reduceCtorEq, false_implies, implies_true, true_and]
  constructor
  · rintro ⟨-, -, -, -, policyVisible, -, reasonVisible, agentVisible, actionVisible, -⟩ value member
    simp only [VerifiableDecisionRecord.freeTexts, List.mem_append, List.mem_cons, List.not_mem_nil,
      or_false] at member
    rcases member with policy | rfl | rfl | rfl
    · exact policyVisible value ((policyText value).mpr policy)
    · exact reasonVisible
    · exact agentVisible
    · exact actionVisible
  · intro visible
    refine ⟨uuidVisible _, uuidVisible _, timeVisible _, decisionVisible, fun value text => ?_,
      fun value text => absurd text (versionAbsent value), ?_, ?_, ?_, contextVisible, evidenceVisible,
      traceVisible, previousVisible, digestVisible _, digestVisible _, algorithmVisible,
      timeVisible _⟩
    · exact visible value (List.mem_append_left _ ((policyText value).mp text))
    all_goals exact visible _ (by simp [VerifiableDecisionRecord.freeTexts])

/-! ## The table -/

/-- The rows a reader of the dialect finds in the chunks. -/
def tableOf (quotesReturn : Bool) (chunks : List Bytes) : Option (List (List Str)) :=
  (decodeUtf8 chunks.flatten).bind (exportDialect quotesReturn).readRows

/-- A row whose text cells are what the export owes them. -/
def NeutralRow (platform : Platform) (r : VerifiableDecisionRecord) (row : List Str) : Prop :=
  ∃ cells, csvCells platform r = .ok cells ∧
    List.Forall₂ (fun cell field => ∀ value, cell.2 = .str value → Neutralised value field) cells row

/-- The records whose rows are delivered: those before the first that cannot be written. -/
def exported (platform : Platform) (quotesReturn : Bool) (records : List VerifiableDecisionRecord) :
    List VerifiableDecisionRecord :=
  records.takeWhile fun r => (csvChunk platform quotesReturn r).isOk

/-- The row a record's chunk is the text of. -/
def RowOf (platform : Platform) (r : VerifiableDecisionRecord) (row : List Str) : Prop :=
  ∃ cells, csvCells platform r = .ok cells ∧
    List.Forall₂ (fun cell field => (spreadsheetSafeCsvValue cell.2).text = .ok field) cells row

theorem spreadsheetSafe_text {value field : Str}
    (written : (spreadsheetSafeCsvValue (.str value)).text = .ok field) :
    spreadsheetSafeCsvValue (.str value) = .str field := by
  cases value with
  | nil =>
    cases written
    rfl
  | cons c rest =>
    rw [spreadsheetSafe_cons] at written ⊢
    exact congrArg CsvValue.str (Except.ok.inj written)

theorem neutralRow_iff {r : VerifiableDecisionRecord} {row : List Str} (written : RowOf platform r row) :
    NeutralRow platform r row ↔ ∀ value ∈ r.freeTexts, ¬ HiddenFormula value := by
  obtain ⟨cells, made, fields⟩ := written
  rw [← csvCells_hidden made]
  have each {cell : Str × CsvValue} {field : Str} (paired : (cell, field) ∈ cells.zip row) (value : Str)
      (text : cell.2 = .str value) : Neutralised value field ↔ ¬ HiddenFormula value := by
    have field := (List.forall₂_iff_zip.mp fields).2 paired
    rw [text] at field
    exact neutralised_iff value _ (spreadsheetSafe_text field)
  constructor
  · rintro ⟨again, same, neutral⟩ cell member value text
    rw [made, Except.ok.injEq] at same
    subst same
    obtain ⟨field, paired⟩ := exists_zip _ _ _ fields cell member
    exact (each paired value text).mp ((List.forall₂_iff_zip.mp neutral).2 paired value text)
  · intro visible
    refine ⟨cells, made, List.forall₂_iff_zip.mpr ⟨fields.length_eq, fun {cell field} paired => ?_⟩⟩
    intro value text
    exact (each paired value text).mpr (visible cell (List.of_mem_zip paired).1 value text)

theorem encodable_header (quotesReturn : Bool) :
    ∃ header, encodeUtf8 ((exportDialect quotesReturn).writeRow csvColumns) = some header := by
  cases quotesReturn
  · exact ⟨_, by rw [encodeUtf8, if_neg (by decide +kernel)]⟩
  · exact ⟨_, by rw [encodeUtf8, if_neg (by decide +kernel)]⟩

/-- The table read back has the row of each delivered record. -/
theorem table_rows (records : List VerifiableDecisionRecord) :
    ∃ rows, tableOf quotesReturn (drain (iterCsvExport platform quotesReturn records)).1 =
        some (csvColumns :: rows) ∧
      List.Forall₂ (RowOf platform) (exported platform quotesReturn records) rows := by
  have delivered := drain_map (csvChunk platform quotesReturn) records
  change List.Forall₂ _ (exported platform quotesReturn records) _ at delivered
  obtain ⟨header, headed⟩ := encodable_header quotesReturn
  have chunks : (drain (iterCsvExport platform quotesReturn records)).1 =
      header :: (drain (records.map (csvChunk platform quotesReturn))).1 := by
    rw [iterCsvExport, encoded, headed]
    rfl
  rw [chunks]
  generalize (drain (records.map (csvChunk platform quotesReturn))).1 = lines at delivered
  generalize exported platform quotesReturn records = delivers at delivered
  have rows : ∃ rows, List.Forall₂ (RowOf platform) delivers rows ∧
      List.Forall₂ (fun text line => encodeUtf8 text = some line)
        (rows.map (exportDialect quotesReturn).writeRow) lines := by
    induction delivered with
    | nil => exact ⟨[], .nil, .nil⟩
    | cons made _ ih =>
      obtain ⟨rows, rowed, written⟩ := ih
      obtain ⟨cells, row, cellsMade, fields, line⟩ := csvChunk_ok made
      exact ⟨row :: rows, .cons ⟨cells, cellsMade, fields⟩ rowed, .cons line written⟩
  obtain ⟨rows, rowed, written⟩ := rows
  refine ⟨rows, ?_, rowed⟩
  have text := encodeUtf8_flatten (((csvColumns :: rows).map (exportDialect quotesReturn).writeRow))
    (header :: lines) (.cons headed written)
  rw [tableOf, decodeUtf8_encodeUtf8 _ _ text, Option.bind_some, ← List.flatMap_def,
    CsvDialect.readRows_writeRows]

theorem csv_export_neutralised_iff (platform : Platform) (quotesReturn : Bool)
    (records : List VerifiableDecisionRecord) :
    (∃ rows, tableOf quotesReturn (drain (iterCsvExport platform quotesReturn records)).1 =
        some (csvColumns :: rows) ∧
      List.Forall₂ (NeutralRow platform) (exported platform quotesReturn records) rows) ↔
      ∀ r ∈ exported platform quotesReturn records, ∀ value ∈ r.freeTexts, ¬ HiddenFormula value := by
  obtain ⟨rows, read, rowed⟩ := @table_rows platform quotesReturn records
  constructor
  · rintro ⟨again, readAgain, neutral⟩ r member
    rw [read, Option.some.injEq, List.cons.injEq] at readAgain
    obtain ⟨-, rfl⟩ := readAgain
    obtain ⟨row, paired⟩ := exists_zip _ _ _ rowed r member
    exact (neutralRow_iff ((List.forall₂_iff_zip.mp rowed).2 paired)).mp
      ((List.forall₂_iff_zip.mp neutral).2 paired)
  · intro visible
    refine ⟨rows, read, List.forall₂_iff_zip.mpr ⟨rowed.length_eq, fun {r row} paired => ?_⟩⟩
    exact (neutralRow_iff ((List.forall₂_iff_zip.mp rowed).2 paired)).mpr
      (visible r (List.of_mem_zip paired).1)

/-- A control character before the sign. -/
def controlRecord : VerifiableDecisionRecord :=
  { sampleRecord with decision := { samplePay with agent := 0x01 :: ofString "=SUM(1,1)" } }

/-- The row of that record is delivered with the formula as it was. -/
theorem control_formula_exported :
    exported sampleBundlePlatform false [controlRecord] = [controlRecord] ∧
      ¬ ∃ rows, tableOf false (drain (iterCsvExport sampleBundlePlatform false [controlRecord])).1 =
          some (csvColumns :: rows) ∧
        List.Forall₂ (NeutralRow sampleBundlePlatform)
          (exported sampleBundlePlatform false [controlRecord]) rows := by
  have written : (csvChunk sampleBundlePlatform false controlRecord).isOk = true := by decide +kernel
  have delivered : exported sampleBundlePlatform false [controlRecord] = [controlRecord] := by
    rw [exported, List.takeWhile_cons, if_pos written, List.takeWhile_nil]
  refine ⟨delivered, ?_⟩
  rintro ⟨rows, read, neutral⟩
  obtain ⟨again, readAgain, rowed⟩ := @table_rows sampleBundlePlatform false [controlRecord]
  rw [read, Option.some.injEq, List.cons.injEq] at readAgain
  obtain ⟨-, rfl⟩ := readAgain
  rw [delivered] at neutral rowed
  cases neutral with
  | cons neutralRow _ =>
    cases rowed with
    | cons rowOf _ =>
      refine (neutralRow_iff rowOf).mp neutralRow (0x01 :: ofString "=SUM(1,1)")
        (by simp [VerifiableDecisionRecord.freeTexts, controlRecord]) ?_
      exact ⟨⟨0x01, rfl, by decide, by decide⟩, 0x3d, by decide, by decide⟩

end DecAustrum
