import DecAustrum.EvidenceStore.AuthorityUnits
import DecAustrum.LedgerBackfill
import DecAustrum.OfflineSoundness

/-!
# Runs of the ledger

Saving a decision is one unit of the store, and every other unit leaves the ledger alone. So the
ledgers of every run of concurrent calls have a history, which verifies.
-/
namespace DecAustrum

open Python Transaction Table
open Block (Leaves keeps_of_exec)

/-! ## The unit that saves -/

section

variable {platform : Platform} {draws rest : ℕ → Uuid} {db db' : Database}

theorem ledgerStatement_ok {write : Ledger → Except PyExc Ledger} {u : Unit}
    (ran : (ledgerStatement write).exec draws db = .ok (u, rest, db')) :
    ∃ ledger, write db.ledger = .ok ledger ∧ rest = draws ∧ db' = { db with ledger := ledger } := by
  rw [ledgerStatement, Block.exec_statement] at ran
  cases result : write db.ledger with
  | error exc =>
    rw [result] at ran
    cases ran
  | ok ledger =>
    rw [result] at ran
    cases ran
    exact ⟨ledger, rfl, rfl, rfl⟩

/-- The body saves what the ledger saves. -/
theorem recordDecision_ok {a : AuthorizationResponse} {proof : DecisionIntegrityProof}
    (ran : (EvidenceStore.recordDecision platform a).exec draws db = .ok (proof, rest, db')) :
    ∃ ledger, db.ledger.save platform a = .ok (ledger, proof) ∧ db' = { db with ledger := ledger } := by
  unfold EvidenceStore.recordDecision AuthorizationDecisionRepository.insert
    DecisionIntegrityRepository.insert at ran
  rw [Block.exec_bind_eq_ok] at ran
  obtain ⟨_, draws₁, db₁, inserted, ran⟩ := ran
  obtain ⟨middle, isMiddle, rfl, rfl⟩ := ledgerStatement_ok inserted
  rw [exec_query_bind, Block.exec_bind_eq_ok] at ran
  obtain ⟨built, draws₂, db₂, checked, ran⟩ := ran
  obtain ⟨isBuilt, rfl, rfl⟩ := ofPython_ok checked
  rw [Block.exec_bind_eq_ok] at ran
  obtain ⟨_, draws₃, db₃, stored, ran⟩ := ran
  obtain ⟨ledger, isLedger, rfl, rfl⟩ := ledgerStatement_ok stored
  cases ran
  refine ⟨ledger, ?_, rfl⟩
  have saved : Ledger.insertIntegrity platform middle a = .ok (ledger, proof) := by
    unfold Ledger.insertIntegrity
    dsimp only at isBuilt isLedger ⊢
    rw [isBuilt]
    change (middle.insertProof proof >>= fun l => .ok (l, proof)) = _
    rw [isLedger]
    rfl
  unfold Ledger.save
  rw [isMiddle]
  exact saved

end

/-- What every unit keeps that holds of a ledger, if saving its decisions keeps it. -/
theorem StoreUnit.keeps_ledger {platform : Platform} {scope : StoreScope} {inv : Database → Prop}
    {rel : Database → Database → Prop}
    (same : ∀ s t, t.ledger = s.ledger → inv s → inv t ∧ rel s t)
    (records : ∀ a, scope.saves a → (EvidenceStore.recordDecision platform a).Keeps inv rel)
    {β : Type} {x : Body β} (unit : StoreUnit platform scope β x) : x.Keeps inv rel := by
  have leaves {γ : Type} {y : Body γ} (immediate : y.Immediate) (leaves : y.Leaves Database.ledger) :
      y.Keeps inv rel :=
    keeps_of_exec immediate fun draws s b rest t holds _ ran =>
      same s t (leaves draws s b rest t ran) holds
  refine unit.keeps_authority (fun s t left => same s t (congrArg Prod.fst left)) ?_
  intro γ y writes
  cases writes with
  | insertSeed =>
    exact leaves trivial (leaves_insertSeed _ _ _ (fun _ _ => rfl) (fun _ _ => rfl))
  | writeVersion projectId policy updatedAt changeType sourceVersion current =>
    refine leaves ?_ (leaves_writeVersion _ _ _ (fun _ _ => rfl) (fun _ _ => rfl) _ _ _)
    cases current <;> trivial
  | disablePolicy => exact leaves trivial (leaves_updateRows fun _ => rfl)
  | recordDecision authorization saved => exact records authorization saved

/-! ## The chain of a project -/

/-- Every decision of the project has one record, and the records are numbered from one and
linked. -/
structure Chained (ledger : Ledger) (project : Uuid) : Prop where
  recorded : ∀ d ∈ ledger.projectDecisions project,
    (ledger.integrity.filter (Ledger.matchRow d)).length = 1
  counts : (ledger.projectIntegrity project).length = (ledger.projectDecisions project).length
  sequences : (ledger.chain project).map (·.sequenceNumber) =
    (List.range (ledger.chain project).length).map fun n : Nat => (n : Int) + 1
  first : ∀ i ∈ (ledger.chain project).head?, i.previousHash = none
  links : (ledger.chain project).IsChain fun i j => j.previousHash = some i.recordHash

/-- The verifier accepts the ledger and reports its last hash. -/
def VerifiesWith (platform : Platform) (ledger : Ledger) (project : Uuid)
    (expectedHead : Option Str) : Prop :=
  ∀ now, ∃ report, ledger.verify platform project expectedHead now = .ok report ∧
    report.verified = true ∧
    report.headHash.map (·.val) = (ledger.chain project).getLast?.map (·.recordHash)

variable {platform : Platform}

theorem Built.chained {project : Uuid} {entries : List Entry}
    (built : Built platform project entries) :
    (∀ i ∈ (entries.map Entry.row).head?, i.previousHash = none) ∧
      (entries.map Entry.row).IsChain fun i j => j.previousHash = some i.recordHash := by
  induction built with
  | nil => exact ⟨by simp, .nil⟩
  | @snoc entries e before _ proved ih =>
    have previous : e.row.previousHash = lastHash entries := proved.previous
    refine ⟨?_, ?_⟩
    · intro i member
      cases entries with
      | nil =>
        simp only [List.nil_append, List.map_cons, List.map_nil, List.head?_cons,
          Option.mem_some] at member
        rw [← member]
        exact previous
      | cons first later => exact ih.1 i (by simpa using member)
    · rw [List.map_append, List.isChain_append]
      refine ⟨ih.2, .singleton _, ?_⟩
      intro i last j new
      simp only [List.map_cons, List.map_nil, List.head?_cons, Option.mem_some] at new
      rw [← new, previous, lastHash]
      rw [List.getLast?_map, Option.mem_map] at last
      obtain ⟨f, isLast, rfl⟩ := last
      rw [Option.mem_def] at isLast
      rw [isLast]
      rfl

theorem Historical.chained {ledger : Ledger} {history : Uuid → List Entry}
    (historical : Historical platform ledger history) (project : Uuid) : Chained ledger project := by
  have recorded := historical.recorded project
  have complete := historical.complete project
  refine ⟨?_, recorded.counts complete historical.keys, ?_, ?_, ?_⟩
  · intro d member
    obtain ⟨e, inside, matched⟩ := complete d member
    have stored := List.mem_of_mem_filter (recorded.row_mem e inside)
    have unique : UniqueKey (fun i : IntegrityRow => some i.decisionId) ledger.integrity := by
      simpa [UniqueKey, List.filterMap_eq_map'] using historical.keys.integrityId
    rw [unique.filter_eq stored rfl ?_]
    · rfl
    · intro i inTable
      simp only [Ledger.matchRow, Bool.and_eq_true, decide_eq_true_eq, Option.some.injEq] at matched ⊢
      constructor
      · exact fun its => its.1.symm.trans matched.1
      · intro same
        have isRow := unique.eq inTable stored rfl (by rw [same])
        rw [isRow]
        exact matched
  · rw [recorded.chain_eq, List.length_map, List.map_map]
    exact recorded.built.sequences
  · rw [recorded.chain_eq]
    exact recorded.built.chained.1
  · rw [recorded.chain_eq]
    exact recorded.built.chained.2

theorem Historical.verifiesWith (lawful : platform.Lawful) {ledger : Ledger}
    {history : Uuid → List Entry} (historical : Historical platform ledger history) (project : Uuid)
    (rehashes : Rehashes platform ledger (history project)) (expectedHead : Option Str)
    (known : expectedHead = none ∨ ∃ i ∈ ledger.chain project, some i.recordHash = expectedHead) :
    VerifiesWith platform ledger project expectedHead := by
  have recorded := historical.recorded project
  have inHistory : expectedHead = none ∨
      ∃ e ∈ history project, some e.proof.recordHash.val = expectedHead := by
    refine known.imp_right fun ⟨i, member, isHead⟩ => ?_
    rw [recorded.chain_eq] at member
    obtain ⟨e, inside, rfl⟩ := List.mem_map.mp member
    exact ⟨e, inside, isHead⟩
  obtain ⟨checked, verifies, head, -⟩ := recorded.verifies lawful rehashes
    (historical.complete project) historical.keys expectedHead inHistory
  intro now
  obtain ⟨headHash, validated⟩ : ∃ headHash,
      Sha256Digest.validateOptional (hashAfter none checked) = some headHash :=
    (validateOptional_isSome _).mpr verifies.headForm
  obtain ⟨verified, positive⟩ := (verify_verified_iff ledger project expectedHead now _).mpr
    ⟨checked, headHash, verifies, validated, rfl⟩
  refine ⟨_, verified, positive, ?_⟩
  rw [recorded.chain_eq, List.getLast?_map, Option.map_map]
  exact (validateOptional_map _ _ validated).trans head

/-! ## Runs -/

/-- Every decision is stored under the text of a project identifier. -/
def Ledger.CanonicalProjects (ledger : Ledger) : Prop :=
  ∀ d ∈ ledger.decisions, ∃ project : Uuid, d.projectId = project.str

/-- The records of a project are only added to. -/
def ChainsGrow (s t : Database) : Prop :=
  ∀ project, s.ledger.projectIntegrity project <+: t.ledger.projectIntegrity project

/-- What every run keeps of the ledger. What is read back of the decisions is part of it in a run
whose contexts are all dumped alike from their columns. -/
structure LedgerSound (platform : Platform) (canonical redumped : Prop) (s : Database) : Prop where
  historical : ∃ history, Historical platform s.ledger history ∧
    (redumped → ∀ project, Rehashes platform s.ledger (history project))
  projects : canonical → s.ledger.CanonicalProjects

theorem recordDecision_keeps (lawful : platform.Lawful) (canonical redumped : Prop)
    (a : AuthorizationResponse) (redumps : redumped → a.context.Redumps) :
    (EvidenceStore.recordDecision platform a).Keeps (LedgerSound platform canonical redumped)
      ChainsGrow := by
  refine keeps_of_exec trivial fun draws s proof rest t sound _ ran => ?_
  obtain ⟨ledger, saved, rfl⟩ := recordDecision_ok ran
  obtain ⟨⟨history, historical, rehashes⟩, projects⟩ := sound
  obtain ⟨middle, inserted, integrity⟩ := save_spec s.ledger ledger a proof saved
  obtain ⟨row, written, -, rfl⟩ := insertDecision_spec s.ledger middle a inserted
  obtain ⟨-, stored⟩ := insertIntegrity_spec _ ledger a proof integrity
  obtain ⟨-, -, rfl⟩ := insertProof_spec _ ledger proof stored
  refine ⟨⟨⟨_, historical.save lawful a proof saved, fun alike =>
    historical.save_rehashes lawful (rehashes alike) a (redumps alike) proof saved⟩, ?_⟩, ?_⟩
  · intro isCanonical d member
    rcases List.mem_append.mp member with old | new
    · exact projects isCanonical d old
    · obtain ⟨_, _, _, rfl, -⟩ := decisionRow_spec a row written
      rw [List.mem_singleton.mp new]
      exact ⟨a.projectId, rfl⟩
  · intro project
    rw [projectIntegrity_concat { s.ledger with decisions := s.ledger.decisions ++ [row] } proof
      project]
    exact List.prefix_append _ _

/-- In every run of calls from an initialised table of decisions, in each project: every decision
has one record, the records are numbered from one and linked; the verifier accepts the ledger with
no checkpoint and with every hash that was ever the last one; and running the backfill again
changes nothing. The contexts that the calls save are those that are dumped alike from their
columns. -/
theorem ledger_verifies_of_redumps {C ω : Type} [DecidableEq C] (platform : Platform)
    (lawful : platform.Lawful) (legacy : Database) (ledger : Ledger)
    (keys : (legacy.ledger.decisions.map (·.decisionId)).Nodup)
    (unrecorded : legacy.ledger.integrity = [])
    (initialized : legacy.ledger.backfill platform = .ok ledger) (calls : C → Operation)
    (w : World C Database Uuid ω StoreExc Unit)
    (reachable : Reachable anyOpening { legacy with ledger := ledger }
      (fun c => (calls c).session platform) w)
    (redumps : ∀ c, ∀ a ∈ (calls c).saved, a.context.Redumps) :
    (∀ project, Chained w.committed.ledger project ∧
      VerifiesWith platform w.committed.ledger project none ∧
      ∀ s, s = { legacy with ledger := ledger } ∨ (∃ entry ∈ w.log, s = entry.after) →
        ∀ last ∈ (s.ledger.chain project).getLast?,
          VerifiesWith platform w.committed.ledger project (some last.recordHash)) ∧
      (∀ again, w.committed.ledger.backfill platform = .ok again → again = w.committed.ledger) ∧
      (legacy.ledger.CanonicalProjects →
        w.committed.ledger.backfill platform = .ok w.committed.ledger) := by
  obtain ⟨history, historical, rehashes, decisions⟩ :=
    Historical.of_backfill lawful legacy.ledger ledger keys unrecorded initialized
  have start : LedgerSound platform legacy.ledger.CanonicalProjects True
      { legacy with ledger := ledger } := by
    refine ⟨⟨history, historical, fun _ => rehashes⟩, fun canonical d member => canonical d ?_⟩
    rwa [← decisions]
  have refl : ∀ s, ChainsGrow s s := fun s project => List.prefix_refl _
  have trans : ∀ s t u, ChainsGrow s t → ChainsGrow t u → ChainsGrow s u :=
    fun s t u first second project => (first project).trans (second project)
  have units : ∀ c (β : Type) (x : Body β), StoreUnit platform (calls c).scope β x →
      x.Keeps (LedgerSound platform legacy.ledger.CanonicalProjects True) ChainsGrow := by
    intro c β x unit
    refine StoreUnit.keeps_ledger ?_ (fun a saved => recordDecision_keeps lawful _ _ a fun _ =>
      redumps c a saved) unit
    intro s t same ⟨inHistory, projects⟩
    refine ⟨⟨?_, ?_⟩, ?_⟩
    · rwa [same]
    · rwa [same]
    · intro project
      rw [same]
  obtain ⟨⟨⟨now, historicalNow, rehashesNow⟩, projects⟩, linked, entries⟩ := invariant_reachable refl
    trans anyOpening (fun _ _ => True) (fun _ _ _ _ => trivial) { legacy with ledger := ledger } start
    (fun c => (calls c).session platform)
    (fun c => (@Operation.bodies platform _ (calls c)).mono fun β body composed =>
      composed.keeps refl trans (units c)) w reachable
  refine ⟨fun project => ⟨historicalNow.chained project,
    historicalNow.verifiesWith lawful project (rehashesNow trivial project) none (.inl rfl), ?_⟩,
    fun again done => historicalNow.backfill_eq done,
    fun canonical => historicalNow.backfill_ok lawful (projects canonical)⟩
  intro s reached last isLast
  refine historicalNow.verifiesWith lawful project (rehashesNow trivial project) _
    (.inr ⟨last, ?_, rfl⟩)
  have step : ∀ entry ∈ w.log, ChainsGrow entry.before entry.after :=
    fun entry member => (entries entry member).1
  have grown : ChainsGrow s w.committed := by
    rcases reached with rfl | ⟨entry, member, rfl⟩
    · exact linked.rel refl trans step
    · exact linked.ends refl trans step entry member
  have inTable : last ∈ s.ledger.projectIntegrity project := by
    have inChain := List.mem_of_getLast? isLast
    exact (List.mem_insertionSort _).mp inChain
  exact (List.mem_insertionSort _).mpr ((grown project).mem inTable)

/-! ## A save after a backfill -/

/-- A table of one decision, written before there were records. -/
def sampleUnrecorded : Database :=
  { Database.empty with ledger := ⟨[samplePayRow], []⟩ }

def sampleSaves : Fin 1 → Operation
  | 0 => .save sampleRefund

def sampleSavesRun : World (Fin 1) Database Uuid Unit StoreExc Unit :=
  (World.start { sampleUnrecorded with ledger := sampleLedger }
    fun c => (sampleSaves c).session samplePlatform).play
      (turns () (List.replicate 12 soleClient))

theorem ledger_verifies_sample :
    sampleSavesRun.committed.ledger.integrity.map (·.sequenceNumber) = [1, 2] ∧
      VerifiesWith samplePlatform sampleSavesRun.committed.ledger sampleProject none := by
  refine ⟨by decide +kernel, ((ledger_verifies_of_redumps samplePlatform (referencePlatform_lawful _)
    sampleUnrecorded sampleLedger (by decide +kernel) rfl (by decide +kernel) sampleSaves
    sampleSavesRun (play_reachable _ _ _) ?_).1 sampleProject).2.1⟩
  intro c a saved
  obtain rfl : a = sampleRefund := by
    rw [Fin.fin_one_eq_zero c] at saved
    exact (Option.mem_some.mp saved).symm
  have plain : (sampleRefund.context.json.strings.all fun s => s.all isPlain) = true := by decide
  refine sampleRefund.context.redumps_of_readable (fun s inside _ => ?_) (by decide)
  exact isScalar_of_all s (List.all_eq_true.mp plain s inside)

/-! ## A save of two keys that are written alike -/

def collidingSaves : Fin 1 → Operation
  | 0 => .save collidingPay

def collidingRun : World (Fin 1) Database Uuid Unit StoreExc Unit :=
  (World.start Database.empty fun c => (collidingSaves c).session collidingPlatform).play
    (turns () (List.replicate 12 soleClient))

/-- An empty database is initialised, one decision is saved, and the ledger does not verify. -/
theorem colliding_save_mismatch :
    Database.empty.ledger.backfill collidingPlatform = .ok Database.empty.ledger ∧
      Reachable anyOpening Database.empty (fun c => (collidingSaves c).session collidingPlatform)
        collidingRun ∧
      collidingRun.committed.ledger = collidingLedger ∧
      ¬ VerifiesWith collidingPlatform collidingRun.committed.ledger sampleProject none := by
  have ledger : collidingRun.committed.ledger = collidingLedger := by decide +kernel
  have verdict : (Ledger.verify collidingPlatform collidingLedger sampleProject none
      samplePay.evaluatedAt).map (fun report => (report.verified, report.failure.map (·.code))) =
        .ok (false, some .payloadHashMismatch) := by decide +kernel
  refine ⟨by decide +kernel, play_reachable _ _ _, ledger, fun verifies => ?_⟩
  rw [ledger] at verifies
  obtain ⟨report, answered, verified, -⟩ := verifies samplePay.evaluatedAt
  rw [answered] at verdict
  simp [Except.map, verified] at verdict

end DecAustrum
