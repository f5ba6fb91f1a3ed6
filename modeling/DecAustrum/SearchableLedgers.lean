import DecAustrum.LedgerRuns

/-!
# Ledgers a search can rely on

What the runs keep of the tables a search joins: a history for each project, record numbers that
are integers of SQLite, and one approval at most for each decision.
-/
namespace DecAustrum

open Python Transaction Table
open Block (keeps_of_exec)

variable {platform : Platform}

/-! ## Numbers -/

def Ledger.NumbersFit (ledger : Ledger) : Prop :=
  ∀ i ∈ ledger.integrity, fitsInteger i.sequenceNumber = true

theorem insertProof_numbersFit {ledger ledger' : Ledger} {proof : DecisionIntegrityProof}
    (fit : ledger.NumbersFit) (inserted : ledger.insertProof proof = .ok ledger') :
    ledger'.NumbersFit := by
  have fits : fitsInteger (integrityRow proof).sequenceNumber = true := by
    by_contra large
    rw [Bool.not_eq_true] at large
    rw [Ledger.insertProof, if_pos large] at inserted
    cases inserted
  obtain ⟨-, -, rfl⟩ := insertProof_spec _ _ _ inserted
  intro i member
  rcases List.mem_append.mp member with old | new
  · exact fit i old
  · obtain rfl := List.mem_singleton.mp new
    exact fits

theorem backfillRows_numbersFit (rows : List DecisionRow) :
    ∀ (ledger ledger' : Ledger) (sequenceNumber : Int) (previousHash : Option Str),
      ledger.NumbersFit →
      ledger.backfillRows platform sequenceNumber previousHash rows = .ok ledger' →
      ledger'.NumbersFit := by
  induction rows with
  | nil =>
    intro ledger ledger' sequenceNumber previousHash fit done
    cases done
    exact fit
  | cons row rows ih =>
    intro ledger ledger' sequenceNumber previousHash fit done
    simp only [Ledger.backfillRows, bind_eq_ok] at done
    obtain ⟨a, -, proof, -, middle, inserted, rest⟩ := done
    exact ih _ _ _ _ (insertProof_numbersFit fit inserted) rest

theorem backfill_numbersFit {ledger ledger' : Ledger} (fit : ledger.NumbersFit)
    (done : ledger.backfill platform = .ok ledger') : ledger'.NumbersFit := by
  have fold (texts : List Str) : ∀ ledger : Ledger, ledger.NumbersFit →
      texts.foldlM (Ledger.backfillGroup platform) ledger = .ok ledger' → ledger'.NumbersFit := by
    induction texts with
    | nil =>
      intro ledger fit done
      cases done
      exact fit
    | cons text texts ih =>
      intro ledger fit done
      rw [List.foldlM_cons, bind_eq_ok] at done
      obtain ⟨middle, group, rest⟩ := done
      refine ih middle ?_ rest
      obtain ⟨project, -, ⟨-, rfl⟩ | ⟨-, filled⟩⟩ := backfillGroup_spec ledger middle text group
      · exact fit
      · exact backfillRows_numbersFit _ _ _ _ _ fit filled
  exact fold _ ledger fit done

/-! ## Saving -/

theorem recordDecision_keeps_ledger {inv : Ledger → Prop} {a : AuthorizationResponse}
    (saves : ∀ ledger ledger' proof, inv ledger → ledger.save platform a = .ok (ledger', proof) →
      inv ledger') :
    (EvidenceStore.recordDecision platform a).Keeps (fun s => inv s.ledger) fun _ _ => True := by
  refine keeps_of_exec trivial fun draws s proof rest t holds _ ran => ?_
  obtain ⟨ledger, saved, rfl⟩ := recordDecision_ok ran
  exact ⟨saves _ _ _ holds saved, trivial⟩

/-- What the saves of the calls keep of the ledger holds after every run. -/
theorem ledger_holds {C ω : Type} [DecidableEq C] {inv : Ledger → Prop} {calls : C → Operation}
    (saves : ∀ c, ∀ a ∈ (calls c).saved, ∀ ledger ledger' proof, inv ledger →
      ledger.save platform a = .ok (ledger', proof) → inv ledger')
    {start : Database} (holds : inv start.ledger) {w : World C Database Uuid ω StoreExc Unit}
    (reachable : Reachable anyOpening start (fun c => (calls c).session platform) w) :
    inv w.committed.ledger := by
  have units : ∀ c (β : Type) (x : Body β), StoreUnit platform (calls c).scope β x →
      x.Keeps (fun s => inv s.ledger) fun _ _ => True := by
    intro c β x unit
    refine StoreUnit.keeps_ledger ?_ (fun a saved => ?_) unit
    · intro s t same kept
      exact ⟨by rwa [same], trivial⟩
    · exact recordDecision_keeps_ledger (saves c a saved)
  exact holds_of_units units holds reachable

theorem save_numbersFit {ledger ledger' : Ledger} {a : AuthorizationResponse}
    {proof : DecisionIntegrityProof} (fit : ledger.NumbersFit)
    (saved : ledger.save platform a = .ok (ledger', proof)) : ledger'.NumbersFit := by
  obtain ⟨middle, inserted, integrity⟩ := save_spec ledger ledger' a proof saved
  obtain ⟨row, -, -, rfl⟩ := insertDecision_spec ledger middle a inserted
  obtain ⟨-, stored⟩ := insertIntegrity_spec _ ledger' a proof integrity
  refine insertProof_numbersFit ?_ stored
  exact fit

/-! ## Runs -/

/-- What a search relies on. -/
structure Searchable (platform : Platform) (s : Database) : Prop where
  historical : ∃ history, Historical platform s.ledger history
  numbers : s.ledger.NumbersFit
  approvals : s.UniqueApprovals

/-- Every run of calls from an initialised table of decisions leaves a searchable database. -/
theorem searchable_reachable {C ω : Type} [DecidableEq C] (lawful : platform.Lawful)
    {legacy : Database} {ledger : Ledger}
    (keys : (legacy.ledger.decisions.map (·.decisionId)).Nodup)
    (unrecorded : legacy.ledger.integrity = []) (approvals : legacy.UniqueApprovals)
    (initialized : legacy.ledger.backfill platform = .ok ledger) {calls : C → Operation}
    {w : World C Database Uuid ω StoreExc Unit}
    (reachable : Reachable anyOpening { legacy with ledger := ledger }
      (fun c => (calls c).session platform) w) : Searchable platform w.committed := by
  refine ⟨?_, ?_, ?_⟩
  · obtain ⟨history, historical, -⟩ :=
      Historical.of_backfill lawful legacy.ledger ledger keys unrecorded initialized
    have saves : ∀ c, ∀ a ∈ (calls c).saved, ∀ before after proof,
        (∃ history, Historical platform before history) →
          before.save platform a = .ok (after, proof) →
            ∃ history, Historical platform after history := by
      rintro c a - before after proof ⟨earlier, recorded⟩ saved
      exact ⟨_, recorded.save lawful a proof saved⟩
    exact ledger_holds saves ⟨history, historical⟩ reachable
  · refine ledger_holds (fun _ _ _ _ _ _ => save_numbersFit) ?_ reachable
    refine backfill_numbersFit ?_ initialized
    rw [Ledger.NumbersFit, unrecorded]
    rintro i ⟨⟩
  · have start : Database.UniqueApprovals { legacy with ledger := ledger } := approvals
    exact holds_of_units (fun _ _ _ unit => unit.keeps_uniqueApprovals) start reachable

end DecAustrum
