import DecAustrum.LedgerHistory
import DecAustrum.Traversal

/-!
# The backfill

A table of decisions without records gets a history for each project, and a second backfill
changes nothing. Decisions are taken in the order of their timestamp texts, so the loop
invariant is the history built so far, with the next number and the last hash.
-/
namespace DecAustrum

open Python HashChain Traversal

variable {platform : Platform}

/-! ## The loop over one project -/

/-- A row of the loop and the entry it became. -/
structure Backfilled (platform : Platform) (decisions : List DecisionRow) (row : DecisionRow)
    (e : Entry) : Prop where
  rebuilt : rowToAuthorization platform row = .ok e.authorization
  proved : e.proof.decisionId = e.authorization.decisionId
  stored : ∃ d ∈ decisions, Ledger.matchRow d e.row = true

theorem backfillRows_spec (project : Uuid) (rows : List DecisionRow) :
    ∀ (ledger ledger' : Ledger) (before : List Entry),
      Built platform project before →
      (∀ row ∈ rows, platform.readUuid (.str row.projectId) = some project) →
      ledger.Keys →
      ledger.backfillRows platform (before.length + 1) (lastHash before) rows = .ok ledger' →
      ∃ entries, List.Forall₂ (Backfilled platform ledger.decisions) rows entries ∧
        Built platform project (before ++ entries) ∧ ledger'.Keys ∧
        ledger' = { ledger with integrity := ledger.integrity ++ entries.map Entry.row } := by
  induction rows with
  | nil =>
    intro ledger ledger' before built _ keys done
    cases done
    exact ⟨[], .nil, by simpa using built, keys, by simp⟩
  | cons row rows ih =>
    intro ledger ledger' before built owned keys done
    simp only [Ledger.backfillRows, bind_eq_ok] at done
    obtain ⟨a, rebuilt, proof, proved, middle, inserted, rest⟩ := done
    have fields := buildDecisionIntegrityProof_spec _ _ _ _ proved
    obtain ⟨stored, fresh, rfl⟩ := insertProof_spec _ _ _ inserted
    have reads := rowToAuthorization_reads row a rebuilt
    have project_eq : a.projectId = project := by
      have mine := owned row (List.mem_cons_self ..)
      rw [reads.projectId, Option.some.injEq] at mine
      exact mine
    let e : Entry := ⟨a, proof⟩
    have grown : Built platform project (before ++ [e]) := built.snoc e project_eq fields
    have length : ((before ++ [e]).length : Int) = before.length + 1 := by simp
    have last : lastHash (before ++ [e]) = some proof.recordHash.val := by
      rw [lastHash, List.getLast?_concat]
      rfl
    rw [← length, ← last] at rest
    obtain ⟨entries, related, whole, keys', rfl⟩ := ih _ ledger' (before ++ [e]) grown
      (fun row' inside => owned row' (List.mem_cons_of_mem _ inside)) (keys.addRecord _ fresh) rest
    refine ⟨e :: entries, .cons ⟨rebuilt, fields.decisionId, stored⟩ related, ?_, keys', ?_⟩
    · simpa using whole
    · simp [Entry.row, e]

/-! ## The text of an id -/

/-- The ids of the rows are in canonical text. The trigger asks for a decision under the
canonical text of each id, and that decision is a row of the loop with the same id; ids are
distinct, so it is the row the id was read from. -/
theorem backfilled_ids (lawful : platform.Lawful) (project : Uuid) (decisions rows : List DecisionRow)
    (entries : List Entry) (related : List.Forall₂ (Backfilled platform decisions) rows entries)
    (mem_rows : ∀ d ∈ decisions, d.projectId = project.str → d ∈ rows)
    (projects : ∀ e ∈ entries, e.proof.projectId = project)
    (distinct : (entries.map fun e => e.row.decisionId).Nodup) :
    ∀ pair ∈ rows.zip entries, Ledger.matchRow pair.1 pair.2.row = true := by
  have pairs : ∀ d e, (d, e) ∈ rows.zip entries → Backfilled platform decisions d e :=
    fun _ _ inside => (List.forall₂_iff_zip.mp related).2 inside
  have ids : ((rows.zip entries).map fun pair => pair.2.row.decisionId).Nodup := by
    have split := congrArg (List.map fun e : Entry => e.row.decisionId)
      (List.map_snd_zip related.length_eq.ge)
    rw [List.map_map] at split
    exact split ▸ distinct
  rintro ⟨d, e⟩ inside
  have backfilled := pairs d e inside
  obtain ⟨d', stored, matched⟩ := backfilled.stored
  have same := matched
  simp only [Ledger.matchRow, Bool.and_eq_true, decide_eq_true_eq] at same
  have owned : d'.projectId = project.str :=
    same.2.trans (congrArg Uuid.str (projects e (List.of_mem_zip inside).2))
  obtain ⟨e', inside'⟩ := exists_zip _ _ _ related d' (mem_rows d' stored owned)
  have backfilled' := pairs d' e' inside'
  have read := (rowToAuthorization_reads d' e'.authorization backfilled'.rebuilt).decisionId
  rw [same.1] at read
  have canonical : e'.authorization.decisionId = e.proof.decisionId := by
    have direct := lawful.readUuid_str e.proof.decisionId
    exact (Option.some.inj (direct.symm.trans read)).symm
  have rowIds : e'.row.decisionId = e.row.decisionId :=
    congrArg Uuid.str (backfilled'.proved.trans canonical)
  have equal := List.inj_on_of_nodup_map ids inside' inside rowIds
  rw [Prod.mk.injEq] at equal
  exact equal.1 ▸ matched

/-! ## One group -/

/-- Between two groups each project has a history, and one with records is complete. The decisions
of a history are those its rows are read back as. -/
structure PartlyHistorical (platform : Platform) (ledger : Ledger) (history : Uuid → List Entry) :
    Prop where
  recorded : ∀ project, Recorded platform ledger project (history project)
  rehashes : ∀ project, Rehashes platform ledger (history project)
  complete : ∀ project, history project = [] ∨ Complete ledger project (history project)
  keys : ledger.Keys

private theorem complete_of_no_decisions (ledger : Ledger) (project : Uuid) (entries : List Entry)
    (absent : ledger.projectDecisions project = []) : Complete ledger project entries := by
  intro d member
  rw [absent] at member
  cases member

private theorem projectIntegrity_append (ledger : Ledger) (project other : Uuid)
    (entries : List Entry) (projects : ∀ e ∈ entries, e.proof.projectId = project) :
    Ledger.projectIntegrity { ledger with integrity := ledger.integrity ++ entries.map Entry.row }
      other = ledger.projectIntegrity other ++ if other = project then entries.map Entry.row else [] := by
  rw [Ledger.projectIntegrity, List.filter_append]
  refine congrArg _ ?_
  by_cases same : other = project
  · subst same
    rw [if_pos rfl, List.filter_eq_self]
    intro i member
    obtain ⟨e, inside, rfl⟩ := List.mem_map.mp member
    exact decide_eq_true (congrArg Uuid.str (projects e inside))
  · rw [if_neg same, List.filter_eq_nil_iff]
    intro i member
    obtain ⟨e, inside, rfl⟩ := List.mem_map.mp member
    have text : e.row.projectId = project.str := congrArg Uuid.str (projects e inside)
    rw [decide_eq_true_eq, text]
    exact fun equal => same (Uuid.str_inj _ _ equal).symm

/-- The loop over a project without records gives it a complete history. -/
theorem PartlyHistorical.fill (lawful : platform.Lawful) {ledger ledger' : Ledger}
    {history : Uuid → List Entry} (partly : PartlyHistorical platform ledger history) (project : Uuid)
    (absent : history project = [])
    (filled : ledger.backfillRows platform 1 none
      ((ledger.projectDecisions project).insertionSort Ledger.decisionLe) = .ok ledger') :
    ∃ entries, PartlyHistorical platform ledger' (Function.update history project entries) ∧
      Complete ledger' project entries ∧ ledger'.decisions = ledger.decisions := by
  have mem_rows : ∀ d, d ∈ (ledger.projectDecisions project).insertionSort Ledger.decisionLe ↔
      d ∈ ledger.decisions ∧ d.projectId = project.str := by
    intro d
    rw [List.mem_insertionSort, Ledger.projectDecisions, List.mem_filter, decide_eq_true_eq]
  obtain ⟨entries, related, built, keys, rfl⟩ := @backfillRows_spec platform project _
    ledger ledger' [] .nil (fun row inside => by
      rw [((mem_rows row).mp inside).2]
      exact lawful.readUuid_str project) partly.keys filled
  rw [List.nil_append] at built
  have distinct : (entries.map fun e => e.row.decisionId).Nodup := by
    have unique := keys.integrityId
    rw [List.map_append, List.nodup_append, List.map_map] at unique
    exact unique.2.1
  have matched := backfilled_ids lawful project ledger.decisions _ entries related
    (fun d stored owned => (mem_rows d).mpr ⟨stored, owned⟩) built.projectId distinct
  have pairs : ∀ d e, (d, e) ∈ (((ledger.projectDecisions project).insertionSort
      Ledger.decisionLe).zip entries) → Backfilled platform ledger.decisions d e :=
    fun _ _ inside => (List.forall₂_iff_zip.mp related).2 inside
  have complete : Complete { ledger with integrity := ledger.integrity ++ entries.map Entry.row }
      project entries := by
    intro d member
    obtain ⟨stored, owned⟩ := List.mem_filter.mp member
    obtain ⟨e, inside⟩ := exists_zip _ _ _ related d
      ((mem_rows d).mpr ⟨stored, of_decide_eq_true owned⟩)
    exact ⟨e, (List.of_mem_zip inside).2, matched (d, e) inside⟩
  have read : ∀ e ∈ entries, ∃ d ∈ ledger.decisions, Ledger.matchRow d e.row = true ∧
      rowToAuthorization platform d = .ok e.authorization := by
    intro e member
    obtain ⟨d, inside⟩ := exists_zip _ _ _ related.flip e member
    have swapped : (d, e) ∈ ((ledger.projectDecisions project).insertionSort
        Ledger.decisionLe).zip entries := by
      rw [← List.zip_swap]
      exact List.mem_map.mpr ⟨(e, d), inside, rfl⟩
    exact ⟨d, ((mem_rows d).mp (List.of_mem_zip swapped).1).1, matched (d, e) swapped,
      (pairs d e swapped).rebuilt⟩
  refine ⟨entries, ⟨?_, ?_, ?_, keys⟩, complete, rfl⟩
  · intro other
    have records := projectIntegrity_append ledger project other entries built.projectId
    by_cases same : other = project
    · subst same
      rw [Function.update_self]
      refine ⟨built, ?_, ?_⟩
      · rw [records, (partly.recorded other).records, absent, if_pos rfl, List.map_nil,
          List.nil_append]
      · intro e member
        obtain ⟨d, stored, matched, rebuilt⟩ := read e member
        exact ⟨d, stored, matched, .inl rebuilt⟩
    · rw [Function.update_of_ne same]
      refine (partly.recorded other).mono (fun d member => member) ?_
      rw [records, if_neg same, List.append_nil]
  · intro other
    by_cases same : other = project
    · subst same
      rw [Function.update_self]
      exact built.rehashes keys read
    · rw [Function.update_of_ne same]
      exact partly.rehashes other
  · intro other
    by_cases same : other = project
    · subst same
      rw [Function.update_self]
      exact .inr complete
    · rw [Function.update_of_ne same]
      exact partly.complete other

theorem backfillGroup_spec (ledger ledger' : Ledger) (text : Str)
    (done : ledger.backfillGroup platform text = .ok ledger') :
    ∃ project, platform.uuid text = some project ∧
      ((ledger.projectIntegrity project).length =
          (ledger.decisions.filter fun d => d.projectId = text).length ∧ ledger' = ledger ∨
        ledger.projectIntegrity project = [] ∧ ledger.backfillRows platform 1 none
          ((ledger.projectDecisions project).insertionSort Ledger.decisionLe) = .ok ledger') := by
  unfold Ledger.backfillGroup at done
  rw [bind_eq_ok] at done
  obtain ⟨project, parsed, done⟩ := done
  rw [orRaise_eq_ok] at parsed
  simp only [bind, Except.bind, pure, Except.pure, throw, throwThe, MonadExceptOf.throw] at done
  refine ⟨project, parsed, ?_⟩
  split at done
  next equal =>
    cases done
    exact .inl ⟨equal, rfl⟩
  next different =>
    split at done
    · cases done
    next empty =>
      rw [not_not] at empty
      exact .inr ⟨List.eq_nil_of_length_eq_zero empty, done⟩

/-- What a group leaves: its project complete, and no complete project spoiled. -/
theorem PartlyHistorical.group (lawful : platform.Lawful) {ledger ledger' : Ledger}
    {history : Uuid → List Entry} (partly : PartlyHistorical platform ledger history) (text : Str)
    (done : ledger.backfillGroup platform text = .ok ledger') :
    ∃ history', PartlyHistorical platform ledger' history' ∧
      ledger'.decisions = ledger.decisions ∧
      (∀ p, Complete ledger p (history p) → Complete ledger' p (history' p)) ∧
      ∀ p : Uuid, text = p.str → Complete ledger' p (history' p) := by
  obtain ⟨project, parsed, kept | filled⟩ := backfillGroup_spec ledger ledger' text done
  all_goals
    have named : ∀ p : Uuid, text = p.str → p = project := by
      intro p same
      rw [same, lawful.uuid_str] at parsed
      exact Option.some.inj parsed
    have records := (partly.recorded project).records
  · obtain ⟨equal, rfl⟩ := kept
    refine ⟨history, partly, rfl, fun p complete => complete, fun p same => ?_⟩
    obtain rfl := named p same
    -- as many records as decisions: none of either, or a complete history
    rcases partly.complete p with absent | complete
    · apply complete_of_no_decisions
      rw [records, absent, List.map_nil, List.length_nil, same] at equal
      exact List.eq_nil_of_length_eq_zero equal.symm
    · exact complete
  · obtain ⟨empty, done⟩ := filled
    rw [empty] at records
    have absent := List.map_eq_nil_iff.mp records.symm
    obtain ⟨entries, partly', complete, decisions⟩ := partly.fill lawful project absent done
    refine ⟨_, partly', decisions, fun p before => ?_, fun p same => ?_⟩
    · by_cases own : p = project
      · subst own
        rw [Function.update_self]
        exact complete
      · rw [Function.update_of_ne own]
        intro d member
        rw [Ledger.projectDecisions, decisions] at member
        exact before d member
    · obtain rfl := named p same
      rw [Function.update_self]
      exact complete

/-! ## The whole backfill -/

private theorem backfill_groups (lawful : platform.Lawful) (texts : List Str) :
    ∀ (ledger ledger' : Ledger) (history : Uuid → List Entry),
      PartlyHistorical platform ledger history →
      texts.foldlM (Ledger.backfillGroup platform) ledger = .ok ledger' →
      ∃ history', PartlyHistorical platform ledger' history' ∧
        ledger'.decisions = ledger.decisions ∧
        (∀ p, Complete ledger p (history p) → Complete ledger' p (history' p)) ∧
        ∀ p : Uuid, p.str ∈ texts → Complete ledger' p (history' p) := by
  induction texts with
  | nil =>
    intro ledger ledger' history partly done
    cases done
    exact ⟨history, partly, rfl, fun _ complete => complete, by simp⟩
  | cons text texts ih =>
    intro ledger ledger' history partly done
    rw [List.foldlM_cons, bind_eq_ok] at done
    obtain ⟨middle, first, rest⟩ := done
    obtain ⟨history₁, partly₁, decisions₁, kept₁, own₁⟩ := partly.group lawful text first
    obtain ⟨history₂, partly₂, decisions₂, kept₂, own₂⟩ := ih middle ledger' history₁ partly₁ rest
    refine ⟨history₂, partly₂, decisions₂.trans decisions₁, fun p complete => kept₂ p (kept₁ p complete),
      fun p member => ?_⟩
    rcases List.mem_cons.mp member with same | later
    · exact kept₂ p (own₁ p same.symm)
    · exact own₂ p later

/-- The backfill of a table of decisions without records gives every project a history. -/
theorem Historical.of_backfill (lawful : platform.Lawful) (legacy ledger : Ledger)
    (keys : (legacy.decisions.map (·.decisionId)).Nodup) (empty : legacy.integrity = [])
    (done : legacy.backfill platform = .ok ledger) :
    ∃ history, Historical platform ledger history ∧
      (∀ project, Rehashes platform ledger (history project)) ∧
      ledger.decisions = legacy.decisions := by
  have start : PartlyHistorical platform legacy fun _ => [] := by
    refine ⟨fun project => ⟨.nil, ?_, by simp⟩, fun project e member => absurd member List.not_mem_nil,
      fun _ => .inl rfl, keys, ?_, ?_, ?_⟩
    · rw [Ledger.projectIntegrity, empty]
      rfl
    all_goals simp [empty]
  obtain ⟨history, partly, decisions, -, complete⟩ :=
    backfill_groups lawful legacy.projectTexts legacy ledger _ start done
  refine ⟨history, ⟨partly.recorded, fun project => ?_, partly.keys⟩, partly.rehashes, decisions⟩
  by_cases listed : project.str ∈ legacy.projectTexts
  · exact complete project listed
  · apply complete_of_no_decisions
    rw [Ledger.projectDecisions, decisions, List.filter_eq_nil_iff]
    intro d member same
    refine listed (List.mem_insertionSort _ |>.mpr (List.mem_dedup.mpr ?_))
    exact List.mem_map.mpr ⟨d, member, of_decide_eq_true same⟩

/-- A second backfill adds nothing: it is done, or raises. -/
theorem Historical.backfill_eq {ledger ledger' : Ledger} {history : Uuid → List Entry}
    (historical : Historical platform ledger history)
    (done : ledger.backfill platform = .ok ledger') : ledger' = ledger := by
  have group (text : Str) (after : Ledger)
      (grouped : ledger.backfillGroup platform text = .ok after) : after = ledger := by
    obtain ⟨project, -, ⟨-, same⟩ | ⟨empty, filled⟩⟩ := backfillGroup_spec ledger after text grouped
    · exact same
    · have recorded := historical.recorded project
      rw [recorded.records, List.map_eq_nil_iff] at empty
      have none : ledger.projectDecisions project = [] := by
        refine List.eq_nil_iff_forall_not_mem.mpr fun d member => ?_
        obtain ⟨e, inside, -⟩ := historical.complete project d member
        rw [empty] at inside
        cases inside
      rw [none] at filled
      cases filled
      rfl
  have fold : ∀ texts : List Str, texts.foldlM (Ledger.backfillGroup platform) ledger = .ok ledger' →
      ledger' = ledger := by
    intro texts
    induction texts with
    | nil =>
      intro done
      cases done
      rfl
    | cons text texts ih =>
      intro done
      rw [List.foldlM_cons, bind_eq_ok] at done
      obtain ⟨middle, first, rest⟩ := done
      obtain rfl := group text middle first
      exact ih rest
  exact fold _ done

/-- It is done when the project texts are canonical. -/
theorem Historical.backfill_ok (lawful : platform.Lawful) {ledger : Ledger}
    {history : Uuid → List Entry} (historical : Historical platform ledger history)
    (canonical : ∀ d ∈ ledger.decisions, ∃ project : Uuid, d.projectId = project.str) :
    ledger.backfill platform = .ok ledger := by
  have fold : ∀ texts : List Str, (∀ text ∈ texts, ∃ project : Uuid, text = project.str) →
      texts.foldlM (Ledger.backfillGroup platform) ledger = .ok ledger := by
    intro texts
    induction texts with
    | nil =>
      intro _
      rfl
    | cons text texts ih =>
      intro canonical
      obtain ⟨project, same⟩ := canonical text (List.mem_cons_self ..)
      have count := (historical.recorded project).counts (historical.complete project) historical.keys
      have group : ledger.backfillGroup platform text = .ok ledger := by
        rw [Ledger.backfillGroup, same, lawful.uuid_str]
        exact if_pos count
      rw [List.foldlM_cons, group]
      exact ih fun text' inside => canonical text' (List.mem_cons_of_mem _ inside)
  refine fold _ fun text member => ?_
  obtain ⟨d, stored, rfl⟩ := List.mem_map.mp
    (List.mem_dedup.mp ((List.mem_insertionSort _).mp member))
  exact canonical d stored

/-! ## Ledgers of the program -/

/-- The ledgers the program builds: the backfill of a table of decisions, then saves. -/
inductive Genuine (platform : Platform) : Ledger → Prop
  | initialized (legacy ledger : Ledger) (keys : (legacy.decisions.map (·.decisionId)).Nodup)
      (empty : legacy.integrity = []) (done : legacy.backfill platform = .ok ledger) :
      Genuine platform ledger
  | saved {ledger ledger' : Ledger} (a : AuthorizationResponse) (proof : DecisionIntegrityProof)
      (before : Genuine platform ledger) (done : ledger.save platform a = .ok (ledger', proof)) :
      Genuine platform ledger'

theorem Genuine.historical (lawful : platform.Lawful) {ledger : Ledger}
    (genuine : Genuine platform ledger) : ∃ history, Historical platform ledger history := by
  induction genuine with
  | initialized legacy ledger keys empty done =>
    obtain ⟨history, historical, -⟩ := Historical.of_backfill lawful legacy ledger keys empty done
    exact ⟨history, historical⟩
  | saved a proof _ done ih =>
    obtain ⟨history, historical⟩ := ih
    exact ⟨_, historical.save lawful a proof done⟩

end DecAustrum
