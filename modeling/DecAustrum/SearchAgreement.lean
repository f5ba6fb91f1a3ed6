import DecAustrum.CapturedRecords
import DecAustrum.SearchConditions
import Mathlib.Data.Prod.Lex

/-!
# Pages, counts and exports agree

A search, its count and a capture of records read one list: the decisions of the project that the
filters select, in the order asked for. The pages of a search are cut from it one after the other.
-/
namespace DecAustrum

open Python Transaction Traversal

variable {platform : Platform}

/-! ## Pages -/

section

variable {α : Type}

theorem page_natCast (size offset : Nat) (rows : List α) :
    page (size : Int) (offset : Int) rows = (rows.drop offset).take size := by
  rw [page, if_neg (by omega)]
  rfl

/-- Pages that follow each other are the beginning of the list. -/
theorem flatten_pages (size count : Nat) (rows : List α) :
    ((List.range count).map fun k => (rows.drop (k * size)).take size).flatten =
      rows.take (count * size) := by
  induction count with
  | zero => simp
  | succ count ih =>
    rw [List.range_succ, List.map_append, List.flatten_append, ih, Nat.succ_mul, List.take_add]
    simp

/-- The pages up to the first that is not full are the whole list. -/
theorem flatten_all_pages (size : Nat) (positive : 0 < size) (rows : List α) :
    ((List.range (rows.length / size + 1)).map fun k => (rows.drop (k * size)).take size).flatten =
      rows := by
  rw [flatten_pages, List.take_of_length_le]
  rw [Nat.mul_comm]
  exact (Nat.lt_mul_div_succ rows.length positive).le

end

/-! ## Related lists -/

section

variable {α : Type}

theorem forall₂_mem_right {β : Type} (R : α → β → Prop) (l : List α) (r : List β)
    (related : List.Forall₂ R l r) : ∀ b ∈ r, ∃ a ∈ l, R a b := by
  induction related with
  | nil => exact fun b inside => nomatch inside
  | @cons a b l r first _ ih =>
    intro c inside
    rcases List.mem_cons.mp inside with rfl | later
    · exact ⟨a, List.mem_cons_self .., first⟩
    · obtain ⟨d, member, its⟩ := ih c later
      exact ⟨d, List.mem_cons_of_mem _ member, its⟩

/-- A list related to an ordered one is ordered, if related elements are. -/
theorem forall₂_pairwise {β : Type} {R : α → β → Prop} {S : α → α → Prop} {T : β → β → Prop}
    {l : List α} {r : List β} (related : List.Forall₂ R l r) (ordered : l.Pairwise S)
    (carries : ∀ a b a' b', R a b → R a' b' → S a a' → T b b') : r.Pairwise T := by
  induction related with
  | nil => exact .nil
  | @cons a b l r first rest ih =>
    rw [List.pairwise_cons] at ordered ⊢
    refine ⟨fun b' inside => ?_, ih ordered.2⟩
    obtain ⟨a', member, its⟩ := forall₂_mem_right _ _ _ rest b' inside
    exact carries a b a' b' first its (ordered.1 a' member)

end

/-! ## The rows of a search -/

section

variable (db : Database) (project : Uuid) (filters : DecisionSearchFilters)

/-- The decisions of the project that the filters select. -/
def Database.selected : List DecisionRow :=
  (db.ledger.projectDecisions project).filter (db.selects filters)

variable {db} (unique : db.UniqueApprovals)

include unique

theorem searchRows_eq : AuthorizationDecisionRepository.searchRows db project filters =
    (db.selected project filters).insertionSort (searchOrder filters.sort) := by
  unfold AuthorizationDecisionRepository.searchRows Database.selected
  congr 1
  induction db.ledger.projectDecisions project with
  | nil => rfl
  | cons d rows ih =>
    rw [List.flatMap_cons, ih, Database.joinedRows_eq unique, List.filter_cons]
    split <;> rfl

theorem countSearch_eq : AuthorizationDecisionRepository.countSearch db project filters =
    (AuthorizationDecisionRepository.searchRows db project filters).length := by
  rw [searchRows_eq _ _ unique, List.length_insertionSort]
  unfold AuthorizationDecisionRepository.countSearch Database.selected
  induction db.ledger.projectDecisions project with
  | nil => rfl
  | cons d rows ih =>
    rw [List.flatMap_cons, List.length_append, ih, Database.joinedRows_eq unique, List.filter_cons]
    split
    · exact Nat.add_comm _ _
    · exact Nat.zero_add _

/-- Where each decision has one record, the query of an export reads the rows of the search. -/
theorem recordQuery_eq (recordOf : DecisionRow → IntegrityRow) (maxSequence : Int)
    (single : ∀ d ∈ db.ledger.projectDecisions project, (db.ledger.integrity.filter fun i =>
      Ledger.matchRow d i && i.sequenceNumber ≤ maxSequence) = [recordOf d]) :
    EvidenceRepository.recordQuery db project filters maxSequence =
      (AuthorizationDecisionRepository.searchRows db project filters).map
        fun d => (d, recordOf d) := by
  have same : ∀ d e, searchOrder filters.sort d e ↔
      Ledger.recordOrder filters.sort (d, recordOf d) (e, recordOf e) := by
    intro d e
    cases filters.sort <;> rfl
  rw [searchRows_eq _ _ unique, List.map_insertionSort (searchOrder filters.sort)
    (Ledger.recordOrder filters.sort) _ _ fun d _ e _ => same d e]
  unfold EvidenceRepository.recordQuery Database.selected
  congr 1
  generalize db.ledger.projectDecisions project = rows at single
  induction rows with
  | nil => rfl
  | cons d rows ih =>
    rw [List.flatMap_cons, ih fun e inside => single e (List.mem_cons_of_mem _ inside),
      single d (List.mem_cons_self ..), List.flatMap_singleton, Database.joinedRows_eq unique,
      List.filter_cons]
    split <;> rfl

end

/-! ## The record of a row -/

/-- Every decision is stored at a time of UTC, as the authorization service stamps them. -/
def Ledger.Stamped (ledger : Ledger) : Prop :=
  ∀ d ∈ ledger.decisions, ∃ t : UtcDatetime, d.evaluatedAt = t.val.isoformat

theorem Recorded.lastSequence_eq {ledger : Ledger} {project : Uuid} {entries : List Entry}
    (recorded : Recorded platform ledger project entries) :
    ledger.lastSequence project = entries.length := by
  rw [Ledger.lastSequence, recorded.chain_eq, List.getLast?_map]
  cases recorded.built with
  | nil => rfl
  | snoc e before owned proved =>
    rw [List.getLast?_concat, List.length_append, List.length_singleton]
    exact proved.sequence

theorem Built.sequence_le {project : Uuid} {entries : List Entry}
    (built : Built platform project entries) (e : Entry) (member : e ∈ entries) :
    e.proof.sequenceNumber ≤ entries.length := by
  have numbered : e.proof.sequenceNumber ∈ entries.map fun e => e.proof.sequenceNumber :=
    List.mem_map_of_mem member
  rw [built.sequences, List.mem_map] at numbered
  obtain ⟨n, below, number⟩ := numbered
  have bound := List.mem_range.mp below
  omega

/-- A row with the record that is read of it. -/
structure RowRecorded (platform : Platform) (ledger : Ledger) (project : Uuid) (d : DecisionRow)
    (r : VerifiableDecisionRecord) : Prop where
  searched : SearchedAs platform d r.decision
  owned : r.decision.projectId = project
  single : (ledger.integrity.filter fun i =>
    Ledger.matchRow d i && i.sequenceNumber ≤ ledger.lastSequence project) =
      [integrityRow r.integrity]
  read : rowToRecord platform (d, integrityRow r.integrity) = .ok r
  proof : Digestible r.integrity.dump

theorem Historical.rowRecorded (lawful : platform.Lawful) {ledger : Ledger}
    {history : Uuid → List Entry} (historical : Historical platform ledger history)
    (stamped : ledger.Stamped) (project : Uuid) (d : DecisionRow)
    (member : d ∈ ledger.projectDecisions project) :
    ∃ r, RowRecorded platform ledger project d r := by
  have recorded := historical.recorded project
  obtain ⟨e, inside, matched⟩ := historical.complete project d member
  have stored := List.mem_of_mem_filter member
  obtain ⟨context, rebuilt⟩ := (recorded.rebuilt historical.keys e inside d stored matched).context
  obtain ⟨owned, sequence, previous, built⟩ := recorded.built.mem e inside
  have same := matched
  simp only [Ledger.matchRow, Bool.and_eq_true, decide_eq_true_eq] at same
  have named : d.decisionId = e.proof.decisionId.str := same.1
  refine ⟨⟨{ e.authorization with context := context }, e.proof⟩, ?_, owned, ?_, ?_, ?_⟩
  · obtain ⟨t, isTime⟩ := stamped d stored
    have reads := (rowToAuthorization_reads d _ rebuilt).evaluatedAt
    rw [isTime, lawful.readDatetime_isoformat, Option.some.injEq] at reads
    refine ⟨rebuilt, rowToAuthorization_texts d _ rebuilt, ?_, ?_, ?_⟩
    · rw [named, built.decisionId]
    · rw [isTime, reads]
    · rw [← reads]
      exact t.property
  · -- the one record of the decision is not after the last of the project
    obtain ⟨i, only⟩ := List.length_eq_one_iff.mp ((historical.chained project).recorded d member)
    have its : e.row ∈ ledger.integrity.filter (Ledger.matchRow d) :=
      List.mem_filter.mpr ⟨List.mem_of_mem_filter (recorded.row_mem e inside), matched⟩
    rw [only, List.mem_singleton] at its
    change _ = [e.row]
    rw [its, ← only]
    refine List.filter_congr fun j inTable => ?_
    cases joined : Ledger.matchRow d j with
    | false => rfl
    | true =>
      have isOnly : j ∈ ledger.integrity.filter (Ledger.matchRow d) :=
        List.mem_filter.mpr ⟨inTable, joined⟩
      rw [only, List.mem_singleton, ← its] at isOnly
      rw [isOnly, recorded.lastSequence_eq]
      exact decide_eq_true (recorded.built.sequence_le e inside)
  · have row : ({ e.row with decisionId := d.decisionId } : IntegrityRow) = integrityRow e.proof := by
      rw [named]
      rfl
    rw [rowToRecord, rebuilt]
    change (rowToProof platform { e.row with decisionId := d.decisionId } >>= _) = _
    rw [row, rowToProof_integrityRow lawful]
    rfl
  · have envelope := Digestible.of_digest _ _ built.record
    have number : Digestible (.int e.proof.sequenceNumber) :=
      envelope.member ("sequence_number", .int e.proof.fields.sequenceNumber) (by simp)
    exact e.proof.dump_digestible number

/-! ## The order of a search -/

namespace Ledger

theorem decisionLe_iff (d e : DecisionRow) : decisionLe d e ↔
    toLex (d.evaluatedAt, d.decisionId) ≤ toLex (e.evaluatedAt, e.decisionId) := by
  rw [Prod.Lex.toLex_le_toLex]
  rfl

end Ledger

instance (sort : DecisionSortOrder) : IsTrans DecisionRow (searchOrder sort) := by
  constructor
  intro a b c first second
  cases sort <;> simp only [searchOrder, Ledger.decisionLe_iff] at first second ⊢
  · exact first.trans second
  · exact second.trans first

instance (sort : DecisionSortOrder) : Std.Total (searchOrder sort) := by
  constructor
  intro a b
  cases sort <;> simp only [searchOrder, Ledger.decisionLe_iff]
  · exact le_total _ _
  · exact le_total _ _

/-- By time, then by identifier. -/
def AuthorizationResponse.earlier (a b : AuthorizationResponse) : Prop :=
  a.evaluatedAt.clock < b.evaluatedAt.clock ∨
    a.evaluatedAt.clock = b.evaluatedAt.clock ∧ a.decisionId.str < b.decisionId.str

def AuthorizationResponse.before (sort : DecisionSortOrder) (a b : AuthorizationResponse) : Prop :=
  match sort with
  | .asc => a.earlier b
  | .desc => b.earlier a

theorem SearchedAs.earlier {d e : DecisionRow} {a b : AuthorizationResponse}
    (first : SearchedAs platform d a) (second : SearchedAs platform e b)
    (ordered : Ledger.decisionLe d e) (distinct : d.decisionId ≠ e.decisionId) : a.earlier b := by
  rw [Ledger.decisionLe, first.evaluatedAt, second.evaluatedAt,
    Datetime.isoformat_lt_iff _ _ first.utc second.utc] at ordered
  refine ordered.imp_right fun ⟨same, below⟩ => ⟨?_, ?_⟩
  · apply le_antisymm
    · exact (Datetime.isoformat_le_iff _ _ first.utc second.utc).mp same.le
    · exact (Datetime.isoformat_le_iff _ _ second.utc first.utc).mp same.ge
  · rw [← first.decisionId, ← second.decisionId]
    exact lt_of_le_of_ne below distinct

theorem SearchedAs.before {d e : DecisionRow} {a b : AuthorizationResponse}
    (first : SearchedAs platform d a) (second : SearchedAs platform e b) (sort : DecisionSortOrder)
    (ordered : searchOrder sort d e) (distinct : d.decisionId ≠ e.decisionId) : a.before sort b := by
  cases sort with
  | asc => exact first.earlier second ordered distinct
  | desc => exact second.earlier first ordered distinct.symm

/-! ## What a capture reads -/

/-- Rows that can be read are read when their bytes are within the limit, and refused otherwise. -/
theorem readWithin_sizes {α β : Type} (maximumBytes : Nat) (read : α → Except PyExc β)
    (dump : β → Except PyExc Json) (rows : List α) (values : List β) (sizes : List Nat)
    (each : List.Forall₂ (fun row value => read row = .ok value) rows values)
    (sized : List.Forall₂ (fun value size => (dump value >>= serializedBytes platform) = .ok size)
      values sizes) :
    ∀ size ≤ maximumBytes, readWithin platform maximumBytes read dump size rows =
      if size + sizes.sum ≤ maximumBytes then .ok values else .error .exportSizeLimitError := by
  induction each generalizing sizes with
  | nil =>
    cases sized
    intro size within
    exact (if_pos within).symm
  | cons first _ ih =>
    cases sized with
    | @cons _ bytes _ rest serialized later =>
      intro size within
      obtain ⟨dumped, dumps, serialized⟩ := (bind_eq_ok _ _ _).mp serialized
      have total : size + (bytes :: rest).sum = size + bytes + rest.sum := by
        rw [List.sum_cons, Nat.add_assoc]
      rw [total]
      simp only [readWithin, first, dumps, serialized, bind, Except.bind, pure, Except.pure, throw,
        throwThe, MonadExceptOf.throw]
      by_cases beyond : maximumBytes < size + bytes
      · rw [if_pos beyond, if_neg (by omega)]
      · rw [if_neg beyond, ih rest later (size + bytes) (by omega)]
        by_cases fits : size + bytes + rest.sum ≤ maximumBytes
        · rw [if_pos fits, if_pos fits]
        · rw [if_neg fits, if_neg fits]

theorem Chained.length_fits {ledger : Ledger} {project : Uuid} (chained : Chained ledger project)
    (numbers : ledger.NumbersFit) :
    fitsInteger (ledger.projectDecisions project).length = true := by
  have length : (ledger.chain project).length = (ledger.projectDecisions project).length := by
    rw [Ledger.chain, List.length_insertionSort]
    exact chained.counts
  rw [← length]
  cases count : (ledger.chain project).length with
  | zero => rfl
  | succ n =>
    -- the last record has the number of the records
    have numbered : (n : Int) + 1 ∈ (ledger.chain project).map (·.sequenceNumber) := by
      rw [chained.sequences, count]
      exact List.mem_map_of_mem (List.mem_range.mpr (Nat.lt_succ_self n))
    obtain ⟨i, inside, number⟩ := List.mem_map.mp numbered
    have stored := List.mem_of_mem_filter ((List.mem_insertionSort _).mp inside)
    have fits := numbers i stored
    rw [number] at fits
    exact fits

theorem Recorded.snapshot_eq {ledger : Ledger} {project : Uuid} {entries : List Entry}
    (recorded : Recorded platform ledger project entries) (count : Nat)
    (capturedAt : UtcDatetime) :
    ∃ snapshot, ledger.snapshot project count capturedAt = some snapshot ∧
      snapshot.recordCount = count := by
  unfold Ledger.snapshot
  rw [recorded.chain_eq, List.getLast?_map]
  cases last : entries.getLast? with
  | none => exact ⟨_, rfl, rfl⟩
  | some e =>
    have hash : Sha256Digest.validate e.row.recordHash = some e.proof.recordHash :=
      (Sha256Digest.validate_eq_some _ _).mpr rfl
    have positive : 0 ≤ e.row.sequenceNumber := Int.le_of_lt e.proof.positive
    simp only [Option.map_some, hash, Option.bind_eq_bind, Option.bind_some, if_pos positive]
    exact ⟨_, rfl, rfl⟩

/-! ## Agreement -/

/-- The search and its count answer with these decisions: those of the project the filters select,
each once, in the order asked for. -/
structure SearchAgrees (platform : Platform) (db : Database) (project : Uuid)
    (filters : DecisionSearchFilters) (decisions : List AuthorizationResponse) : Prop where
  readable : ∀ d ∈ db.ledger.projectDecisions project, ∃ a, rowToAuthorization platform d = .ok a
  exact : ∀ a, a ∈ decisions ↔ (∃ d ∈ db.ledger.projectDecisions project,
    rowToAuthorization platform d = .ok a) ∧ Satisfies filters a (db.approvalStatus a.decisionId)
  once : (decisions.map (·.decisionId)).Nodup
  ordered : decisions.Pairwise (AuthorizationResponse.before filters.sort)
  pages : ∀ size : Nat, 0 < size → fitsInteger size = true → ∃ pages,
    ((List.range (decisions.length / size + 1)).mapM fun k : Nat =>
      AuthorizationDecisionRepository.search platform db project filters size (k * size : Nat)) =
        .ok pages ∧ pages.flatten = decisions
  count : AuthorizationDecisionRepository.countSearch db project filters = decisions.length

/-- A capture of records within its limits answers with these decisions, in this order. -/
def Captures (platform : Platform) (db : Database) (project : Uuid) (filters : DecisionSearchFilters)
    (decisions : List AuthorizationResponse) : Prop :=
  ∃ records sizes, records.map (·.decision) = decisions ∧
    List.Forall₂ (fun record size => (VerifiableDecisionRecord.dump record >>=
      serializedBytes platform) = .ok size) records sizes ∧
    ∀ maximumRecords maximumBytes capturedAt, ∃ snapshot : EvidenceExportSnapshot,
      snapshot.recordCount = decisions.length ∧
      EvidenceRepository.captureRecords platform db project filters maximumRecords maximumBytes
        capturedAt =
          if maximumRecords < decisions.length then .ok (snapshot, [])
          else if sizes.sum ≤ maximumBytes then .ok (snapshot, records)
          else .error .exportSizeLimitError

theorem fitsInteger_of_le {m n : Nat} (below : m ≤ n) (fits : fitsInteger n = true) :
    fitsInteger m = true := by
  simp only [fitsInteger, Bool.and_eq_true, decide_eq_true_eq] at fits ⊢
  omega

section

variable {db : Database} {project : Uuid} {filters : DecisionSearchFilters}
  {decisions : List AuthorizationResponse}

/-- A page of a search is cut from its answer. -/
theorem search_eq (size offset : Nat) (sizeFits : fitsInteger size = true)
    (offsetFits : fitsInteger offset = true)
    (read : List.Forall₂ (fun d a => rowToAuthorization platform d = .ok a)
      (AuthorizationDecisionRepository.searchRows db project filters) decisions) :
    AuthorizationDecisionRepository.search platform db project filters size offset =
      .ok ((decisions.drop offset).take size) := by
  unfold AuthorizationDecisionRepository.search
  rw [sizeFits, offsetFits, page_natCast]
  exact (mapM_eq_ok_iff _ _ _).mpr (List.forall₂_take size (List.forall₂_drop offset read))

theorem search_pages (bounded : fitsInteger decisions.length = true)
    (read : List.Forall₂ (fun d a => rowToAuthorization platform d = .ok a)
      (AuthorizationDecisionRepository.searchRows db project filters) decisions)
    (size : Nat) (positive : 0 < size) (fits : fitsInteger size = true) :
    ∃ pages, ((List.range (decisions.length / size + 1)).mapM fun k : Nat =>
      AuthorizationDecisionRepository.search platform db project filters size (k * size : Nat)) =
        .ok pages ∧ pages.flatten = decisions := by
  refine ⟨_, (mapM_eq_ok_iff _ _ _).mpr ?_, flatten_all_pages size positive decisions⟩
  rw [List.forall₂_map_right_iff, List.forall₂_same]
  intro k member
  have offset : k * size ≤ decisions.length :=
    (Nat.mul_le_mul_right size (Nat.le_of_lt_succ (List.mem_range.mp member))).trans
      (Nat.div_mul_le_self _ _)
  exact search_eq size (k * size) fits (fitsInteger_of_le offset bounded) read

end

/-- A capture reads the records of the rows of the search. -/
theorem captureRecords_eq {db : Database} {project : Uuid} {filters : DecisionSearchFilters}
    {history : Uuid → List Entry} (historical : Historical platform db.ledger history)
    (unique : db.UniqueApprovals)
    (each : ∀ d ∈ db.ledger.projectDecisions project,
      ∃ r, RowRecorded platform db.ledger project d r)
    {records : List VerifiableDecisionRecord}
    (related : List.Forall₂ (RowRecorded platform db.ledger project)
      (AuthorizationDecisionRepository.searchRows db project filters) records)
    {sizes : List Nat} (sized : List.Forall₂ (fun record size =>
      (VerifiableDecisionRecord.dump record >>= serializedBytes platform) = .ok size) records sizes)
    (maximumRecords maximumBytes : Nat) (capturedAt : UtcDatetime) :
    ∃ snapshot : EvidenceExportSnapshot, snapshot.recordCount = records.length ∧
      EvidenceRepository.captureRecords platform db project filters maximumRecords maximumBytes
        capturedAt =
          if maximumRecords < records.length then .ok (snapshot, [])
          else if sizes.sum ≤ maximumBytes then .ok (snapshot, records)
          else .error .exportSizeLimitError := by
  let matching (d : DecisionRow) : List IntegrityRow := db.ledger.integrity.filter fun i =>
    Ledger.matchRow d i && i.sequenceNumber ≤ db.ledger.lastSequence project
  let recordOf (d : DecisionRow) : IntegrityRow :=
    (matching d).headD ⟨[], [], 0, none, [], [], [], 0, []⟩
  have recordOf_eq {d : DecisionRow} {r : VerifiableDecisionRecord}
      (isRecorded : RowRecorded platform db.ledger project d r) :
      recordOf d = integrityRow r.integrity := by
    have only : matching d = [integrityRow r.integrity] := isRecorded.single
    simp only [recordOf, only, List.headD_cons]
  have query := recordQuery_eq project filters unique recordOf (db.ledger.lastSequence project) <| by
    intro d member
    obtain ⟨r, isRecorded⟩ := each d member
    rw [recordOf_eq isRecorded]
    exact isRecorded.single
  obtain ⟨snapshot, taken, counted⟩ :=
    (historical.recorded project).snapshot_eq records.length capturedAt
  have read : List.Forall₂ (fun row record => rowToRecord platform row = .ok record)
      ((AuthorizationDecisionRepository.searchRows db project filters).map fun d => (d, recordOf d))
      records := by
    rw [List.forall₂_map_left_iff]
    refine related.imp fun d r isRecorded => ?_
    rw [recordOf_eq isRecorded]
    exact isRecorded.read
  have within := readWithin_sizes maximumBytes (rowToRecord platform) VerifiableDecisionRecord.dump
    _ _ sizes read sized 0 (Nat.zero_le _)
  refine ⟨snapshot, counted, ?_⟩
  unfold EvidenceRepository.captureRecords
  dsimp only
  rw [query, List.length_map, related.length_eq, taken, within, Nat.zero_add]
  by_cases many : maximumRecords < records.length
  · rw [if_pos many]
    simp [orRaise, bind, Except.bind, many, pure, Except.pure]
  · rw [if_neg many]
    by_cases fits : sizes.sum ≤ maximumBytes
    · simp [orRaise, bind, Except.bind, many, pure, Except.pure, fits]
    · simp [orRaise, bind, Except.bind, many, fits]

/-- What a capture answers with can be printed. -/
theorem Captures.digests {db : Database} {project : Uuid} {filters : DecisionSearchFilters}
    {decisions : List AuthorizationResponse}
    (captures : Captures platform db project filters decisions) :
    ∀ a ∈ decisions, Digests a.dump := by
  obtain ⟨records, sizes, same, sized, -⟩ := captures
  intro a inside
  rw [← same] at inside
  obtain ⟨r, member, rfl⟩ := List.mem_map.mp inside
  obtain ⟨size, -, serialized⟩ := forall₂_mem_right _ _ _ sized.flip r member
  obtain ⟨dumped, dumps, serialized⟩ := (bind_eq_ok _ _ _).mp serialized
  exact VerifiableDecisionRecord.decision_digests
    ⟨dumped, dumps, serializedBytes_digestible serialized⟩

theorem Searchable.agrees (lawful : platform.Lawful) {db : Database}
    (searchable : Searchable platform db) (stamped : db.ledger.Stamped) (project : Uuid)
    (filters : DecisionSearchFilters) :
    ∃ decisions, SearchAgrees platform db project filters decisions ∧
      (Captures platform db project filters decisions ↔ ∀ a ∈ decisions, Digests a.dump) := by
  obtain ⟨⟨history, historical⟩, numbers, unique⟩ := searchable
  have recorded := historical.recorded project
  have each := historical.rowRecorded lawful stamped project
  have chained := historical.chained project
  have mem_rows (d : DecisionRow) :
      d ∈ AuthorizationDecisionRepository.searchRows db project filters ↔
        d ∈ db.ledger.projectDecisions project ∧ db.selects filters d = true := by
    rw [searchRows_eq _ _ unique, List.mem_insertionSort, Database.selected, List.mem_filter]
  have sorted : (AuthorizationDecisionRepository.searchRows db project filters).Pairwise
      (searchOrder filters.sort) := by
    rw [searchRows_eq _ _ unique]
    exact List.pairwise_insertionSort _ _
  have distinct : (AuthorizationDecisionRepository.searchRows db project filters).Pairwise
      fun d e => d.decisionId ≠ e.decisionId := by
    rw [← List.pairwise_map (R := (· ≠ ·)), searchRows_eq _ _ unique]
    refine (((List.perm_insertionSort _ _).map _).nodup_iff).mpr ?_
    exact historical.keys.decisionId.sublist
      ((List.filter_sublist.trans List.filter_sublist).map _)
  have short : (AuthorizationDecisionRepository.searchRows db project filters).length ≤
      (db.ledger.projectDecisions project).length := by
    rw [searchRows_eq _ _ unique, List.length_insertionSort]
    exact List.length_filter_le _ _
  obtain ⟨records, related⟩ := exists_forall₂ (RowRecorded platform db.ledger project) _
    fun d inside => each d ((mem_rows d).mp inside).1
  have lengths := related.length_eq
  refine ⟨records.map (·.decision), ⟨?_, ?_, ?_, ?_, ?_, ?_⟩, ?_⟩
  · intro d member
    obtain ⟨r, isRecorded⟩ := each d member
    exact ⟨_, isRecorded.searched.rebuilt⟩
  · intro a
    rw [List.mem_map]
    constructor
    · rintro ⟨r, inside, rfl⟩
      obtain ⟨d, member, isRecorded⟩ := forall₂_mem_right _ _ _ related r inside
      obtain ⟨owned, selected⟩ := (mem_rows d).mp member
      exact ⟨⟨d, owned, isRecorded.searched.rebuilt⟩,
        (selects_iff isRecorded.searched filters).mp selected⟩
    · rintro ⟨⟨d, owned, rebuilt⟩, satisfied⟩
      obtain ⟨r, isRecorded⟩ := each d owned
      have same := isRecorded.searched.rebuilt
      rw [rebuilt, Except.ok.injEq] at same
      have selected := (selects_iff isRecorded.searched filters).mpr (same ▸ satisfied)
      obtain ⟨s, inside, again⟩ := forall₂_mem_right _ _ _ related.flip d
        ((mem_rows d).mpr ⟨owned, selected⟩)
      have read := again.searched.rebuilt
      rw [rebuilt, Except.ok.injEq] at read
      exact ⟨s, inside, read.symm⟩
  · rw [List.map_map]
    refine List.pairwise_map.mpr (forall₂_pairwise related distinct ?_)
    intro d r d' r' first second differ same
    apply differ
    rw [first.searched.decisionId, second.searched.decisionId]
    exact congrArg Uuid.str same
  · refine List.pairwise_map.mpr (forall₂_pairwise related (sorted.and distinct) ?_)
    intro d r d' r' first second ordered
    exact first.searched.before second.searched _ ordered.1 ordered.2
  · have read : List.Forall₂ (fun d a => rowToAuthorization platform d = .ok a)
        (AuthorizationDecisionRepository.searchRows db project filters)
        (records.map (·.decision)) :=
      List.forall₂_map_right_iff.mpr (related.imp fun d r isRecorded => isRecorded.searched.rebuilt)
    have bounded : fitsInteger (records.map (·.decision)).length = true := by
      rw [List.length_map, ← lengths]
      exact fitsInteger_of_le short (chained.length_fits numbers)
    exact search_pages bounded read
  · rw [countSearch_eq _ _ unique, lengths, List.length_map]
  · constructor
    · exact Captures.digests
    · intro digests
      have printable : ∀ r ∈ records, ∃ size,
          (VerifiableDecisionRecord.dump r >>= serializedBytes platform) = .ok size := by
        intro r inside
        obtain ⟨d, -, isRecorded⟩ := forall₂_mem_right _ _ _ related r inside
        obtain ⟨dumped, dumps, digestible⟩ :=
          r.digests (digests r.decision (List.mem_map_of_mem inside)) isRecorded.proof
        obtain ⟨size, serialized⟩ := serializedBytes_total lawful digestible
        exact ⟨size, (bind_eq_ok _ _ _).mpr ⟨dumped, dumps, serialized⟩⟩
      obtain ⟨sizes, sized⟩ := exists_forall₂ _ records printable
      refine ⟨records, sizes, rfl, sized, fun maximumRecords maximumBytes capturedAt => ?_⟩
      rw [List.length_map]
      exact captureRecords_eq historical unique each related sized ..

/-! ## Runs -/

/-- Saving a decision evaluated in UTC keeps the stamps. -/
theorem Ledger.Stamped.save {ledger ledger' : Ledger} {a : AuthorizationResponse}
    {proof : DecisionIntegrityProof} (stamped : ledger.Stamped) (utc : a.evaluatedAt.offset = some 0)
    (saved : ledger.save platform a = .ok (ledger', proof)) : ledger'.Stamped := by
  obtain ⟨middle, inserted, integrity⟩ := save_spec ledger ledger' a proof saved
  obtain ⟨row, written, -, rfl⟩ := insertDecision_spec ledger middle a inserted
  obtain ⟨-, stored⟩ := insertIntegrity_spec _ ledger' a proof integrity
  obtain ⟨-, -, rfl⟩ := insertProof_spec _ ledger' proof stored
  intro d member
  rcases List.mem_append.mp member with old | new
  · exact stamped d old
  · obtain ⟨_, _, _, rfl, -⟩ := decisionRow_spec a row written
    rw [List.mem_singleton.mp new]
    exact ⟨⟨a.evaluatedAt, utc⟩, rfl⟩

/-- Every run whose calls save decisions evaluated in UTC keeps the stamps. -/
theorem stamped_reachable {C ω : Type} [DecidableEq C] {start : Database}
    (stamped : start.ledger.Stamped) {calls : C → Operation}
    (utc : ∀ c, ∀ a ∈ (calls c).saved, a.evaluatedAt.offset = some 0)
    {w : World C Database Uuid ω StoreExc Unit}
    (reachable : Reachable anyOpening start (fun c => (calls c).session platform) w) :
    w.committed.ledger.Stamped :=
  ledger_holds (fun c a saved _ _ _ earlier done => earlier.save (utc c a saved) done) stamped
    reachable

/-- In every state of a run of calls that save decisions evaluated in UTC, for every project and
every filters: the pages of a search of any size, put together, are the decisions of the project
that satisfy the filters, each once and in the order asked for, and the count is their number. A
capture within its limits reads the same decisions in the same order if and only if each of them
can be printed as it is read back. -/
theorem search_agrees_iff {C ω : Type} [DecidableEq C] (platform : Platform)
    (lawful : platform.Lawful) (legacy : Database) (ledger : Ledger)
    (keys : (legacy.ledger.decisions.map (·.decisionId)).Nodup)
    (unrecorded : legacy.ledger.integrity = []) (approvals : legacy.UniqueApprovals)
    (stamped : legacy.ledger.Stamped) (initialized : legacy.ledger.backfill platform = .ok ledger)
    (calls : C → Operation) (utc : ∀ c, ∀ a ∈ (calls c).saved, a.evaluatedAt.offset = some 0)
    (w : World C Database Uuid ω StoreExc Unit)
    (reachable : Reachable anyOpening { legacy with ledger := ledger }
      (fun c => (calls c).session platform) w)
    (project : Uuid) (filters : DecisionSearchFilters) :
    ∃ decisions, SearchAgrees platform w.committed project filters decisions ∧
      (Captures platform w.committed project filters decisions ↔
        ∀ a ∈ decisions, Digests a.dump) := by
  obtain ⟨_, _, _, decisions⟩ :=
    Historical.of_backfill lawful legacy.ledger ledger keys unrecorded initialized
  have start : Ledger.Stamped ({ legacy with ledger := ledger } : Database).ledger := by
    rw [Ledger.Stamped, decisions]
    exact stamped
  exact (searchable_reachable lawful keys unrecorded approvals initialized reachable).agrees lawful
    (stamped_reachable start utc reachable) project filters

/-- The decisions on refunds. -/
def sampleFilters : DecisionSearchFilters :=
  { DecisionSearchFilters.all with query := some ⟨"REFUND", by decide, by decide, by decide⟩ }

theorem search_agrees_sample : ∃ decisions,
    SearchAgrees samplePlatform sampleSavesRun.committed sampleProject sampleFilters decisions ∧
      (Captures samplePlatform sampleSavesRun.committed sampleProject sampleFilters decisions ↔
        ∀ a ∈ decisions, Digests a.dump) := by
  refine search_agrees_iff samplePlatform (referencePlatform_lawful _) sampleUnrecorded sampleLedger
    (by decide +kernel) rfl .nil ?_ (by decide +kernel) sampleSaves ?_ sampleSavesRun
    (play_reachable _ _ _) sampleProject sampleFilters
  · intro d member
    obtain rfl := List.mem_singleton.mp member
    exact ⟨⟨samplePay.evaluatedAt, rfl⟩, rfl⟩
  · intro c a saved
    obtain rfl : a = sampleRefund := by
      rw [Fin.fin_one_eq_zero c] at saved
      exact (Option.mem_some.mp saved).symm
    rfl

/-! ## A decision that is hashed and cannot be printed when it is read back -/

/-- The last of the two keys is hashed; in the column it comes first. -/
def unprintablePay : AuthorizationResponse :=
  { samplePay with context := ⟨[([0xd801], .str [0xd800]), ([0xd800], .int 1)], by decide, by decide,
    rfl⟩ }

def unprintableSaves : Fin 1 → Operation
  | 0 => .save unprintablePay

def unprintableRun : World (Fin 1) Database Uuid Unit StoreExc Unit :=
  (World.start Database.empty fun c => (unprintableSaves c).session collidingPlatform).play
    (turns () (List.replicate 12 soleClient))

/-- An empty database is initialised and one decision is saved. The search finds it, and no
capture answers with what the search answers. -/
theorem unprintable_capture_raises :
    Database.empty.ledger.backfill collidingPlatform = .ok Database.empty.ledger ∧
      Reachable anyOpening Database.empty (fun c => (unprintableSaves c).session collidingPlatform)
        unprintableRun ∧
      EvidenceRepository.captureRecords collidingPlatform unprintableRun.committed sampleProject .all
        1000 1000000 ⟨samplePay.evaluatedAt, rfl⟩ = .error .unicodeEncodeError ∧
      ¬ ∃ decisions,
        SearchAgrees collidingPlatform unprintableRun.committed sampleProject .all decisions ∧
          Captures collidingPlatform unprintableRun.committed sampleProject .all decisions := by
  refine ⟨by decide +kernel, play_reachable _ _ _, ?_, ?_⟩
  · have raised : ((EvidenceRepository.captureRecords collidingPlatform unprintableRun.committed
        sampleProject .all 1000 1000000 ⟨samplePay.evaluatedAt, rfl⟩).map fun _ => ()) =
          .error .unicodeEncodeError := by decide +kernel
    cases captured : EvidenceRepository.captureRecords collidingPlatform unprintableRun.committed
        sampleProject .all 1000 1000000 ⟨samplePay.evaluatedAt, rfl⟩ with
    | error exc =>
      rw [captured] at raised
      exact congrArg Except.error (Except.error.inj raised)
    | ok answer =>
      rw [captured] at raised
      cases raised
  · rintro ⟨decisions, agrees, captures⟩
    have single : unprintableRun.committed.ledger.decisions.length = 1 := by decide +kernel
    have rehashed : ∀ d ∈ unprintableRun.committed.ledger.decisions, d.projectId = sampleProject.str ∧
        (rowToAuthorization collidingPlatform d >>=
          calculateAuthorizationPayloadHash collidingPlatform) = .error .unicodeEncodeError := by
      decide +kernel
    obtain ⟨d, only⟩ := List.length_eq_one_iff.mp single
    obtain ⟨owned, raises⟩ := rehashed d (by rw [only]; exact List.mem_singleton_self d)
    have listed : d ∈ unprintableRun.committed.ledger.projectDecisions sampleProject := by
      rw [Ledger.projectDecisions, only]
      simpa using owned
    obtain ⟨a, rebuilt⟩ := agrees.readable d listed
    have satisfied : Satisfies .all a (unprintableRun.committed.approvalStatus a.decisionId) := by
      constructor <;> simp [DecisionSearchFilters.all]
    have digests := captures.digests a ((agrees.exact a).mpr ⟨⟨d, listed, rebuilt⟩, satisfied⟩)
    obtain ⟨hash, hashed⟩ := (payloadHash_defined_iff (referencePlatform_lawful _) a).mpr digests
    rw [rebuilt] at raises
    change calculateAuthorizationPayloadHash collidingPlatform a = _ at raises
    rw [collidingPlatform] at raises
    rw [raises] at hashed
    cases hashed

end DecAustrum
