import DecAustrum.Digestible
import DecAustrum.StoredProofs
import DecAustrum.Traversal

/-!
# Captured records

What the readers of an export return: every row of the project, each read by itself, unless
a size limit stops them.
-/
namespace DecAustrum

open Python Traversal

variable {platform : Platform}

/-! ## Reading within a limit -/

section

variable {α β : Type}

theorem readWithin_spec (maximumBytes : Nat) (read : α → Except PyExc β)
    (dump : β → Except PyExc Json) (rows : List α) : ∀ (size : Nat) (values : List β),
      readWithin platform maximumBytes read dump size rows = .ok values →
      List.Forall₂ (fun row value => read row = .ok value) rows values := by
  induction rows with
  | nil =>
    intro size values done
    cases done
    exact .nil
  | cons row rows ih =>
    intro size values done
    simp only [readWithin, bind, Except.bind, pure, Except.pure, throw, throwThe,
      MonadExceptOf.throw] at done
    split at done
    · cases done
    next value valueRead =>
    split at done
    · cases done
    split at done
    · cases done
    split at done
    · cases done
    split at done
    · cases done
    next rest restRead =>
    cases done
    exact .cons valueRead (ih _ rest restRead)

theorem serializedBytes_total (lawful : platform.Lawful) {v : Json} (digestible : Digestible v) :
    ∃ bytes, serializedBytes platform v = .ok bytes := by
  obtain ⟨bytes, encoded⟩ := digestible.encodes lawful
  have text : canonicalJson platform v = .ok (v.sortKeys.text platform.floats .canonical) := by
    rw [canonicalJson, Json.dumps, if_pos digestible.encodable]
    rfl
  refine ⟨bytes.length + 1, ?_⟩
  simp [serializedBytes, text, encoded, bind, Except.bind, orRaise, pure, Except.pure]

theorem serializedBytes_digestible {v : Json} {bytes : Nat}
    (serialized : serializedBytes platform v = .ok bytes) : Digestible v := by
  unfold serializedBytes at serialized
  rw [bind_eq_ok] at serialized
  obtain ⟨text, dumped, serialized⟩ := serialized
  rw [canonicalJson, orRaise_eq_ok, Json.dumps_eq_some_iff] at dumped
  obtain ⟨encodable, rfl⟩ := dumped
  rw [bind_eq_ok] at serialized
  obtain ⟨utf8, encoded, -⟩ := serialized
  rw [orRaise_eq_ok] at encoded
  exact .of_digest v _ ((digest_eq_ok_iff platform v _).mpr ⟨encodable, utf8, encoded, rfl⟩)

/-- Rows that can be read and printed are read, or the limit is passed. -/
theorem readWithin_total (lawful : platform.Lawful) (maximumBytes : Nat)
    (read : α → Except PyExc β) (dump : β → Except PyExc Json) (rows : List α) (values : List β)
    (each : List.Forall₂ (fun row value => read row = .ok value ∧ Digests (dump value)) rows
      values) : ∀ size, readWithin platform maximumBytes read dump size rows = .ok values ∨
        readWithin platform maximumBytes read dump size rows = .error .exportSizeLimitError := by
  induction each with
  | nil => exact fun _ => .inl rfl
  | cons first _ ih =>
    intro size
    obtain ⟨written, dumped, digestible⟩ := first.2
    obtain ⟨bytes, serialized⟩ := serializedBytes_total lawful digestible
    simp only [readWithin, first.1, dumped, serialized, bind, Except.bind, pure, Except.pure, throw,
      throwThe, MonadExceptOf.throw]
    split
    · exact .inr rfl
    · rcases ih (size + bytes) with read | stopped
      · exact .inl (by rw [read])
      · exact .inr (by rw [stopped])

end

/-! ## The rows of the records -/

namespace Ledger

variable (ledger : Ledger) (project : Uuid)

theorem mem_recordRows (selects : DecisionRow → Bool) (sort : DecisionSortOrder) (maxSequence : Int)
    (row : DecisionRow × IntegrityRow) :
    row ∈ ledger.recordRows project selects sort maxSequence ↔
      row.1 ∈ ledger.projectDecisions project ∧ selects row.1 = true ∧ row.2 ∈ ledger.integrity ∧
        matchRow row.1 row.2 = true ∧ row.2.sequenceNumber ≤ maxSequence := by
  obtain ⟨d, i⟩ := row
  simp only [recordRows, List.mem_insertionSort, List.mem_flatMap, List.mem_map, List.mem_filter,
    Bool.and_eq_true, decide_eq_true_eq, Prod.mk.injEq]
  constructor
  · rintro ⟨d', ⟨owned, selected⟩, i', ⟨stored, matched, below⟩, rfl, rfl⟩
    exact ⟨owned, selected, stored, matched, below⟩
  · rintro ⟨owned, selected, stored, matched, below⟩
    exact ⟨d, ⟨owned, selected⟩, i, ⟨stored, matched, below⟩, rfl, rfl⟩

private theorem flatMap_sublist {α β γ : Type} (l : List α) (g : α → List β) (f : β → γ) (h : α → γ)
    (single : ∀ a ∈ l, ((g a).map f).Sublist [h a]) : ((l.flatMap g).map f).Sublist (l.map h) := by
  induction l with
  | nil => simp
  | cons a l ih =>
    rw [List.flatMap_cons, List.map_append, List.map_cons]
    exact (single a (List.mem_cons_self ..)).append
      (ih fun b inside => single b (List.mem_cons_of_mem _ inside))

/-- Each decision has at most one record, so it gives at most one row. -/
theorem recordRows_ids (keys : ledger.Keys) (selects : DecisionRow → Bool) (sort : DecisionSortOrder)
    (maxSequence : Int) :
    ∃ ids, ids.Sublist ((ledger.projectDecisions project).map (·.decisionId)) ∧
      ((ledger.recordRows project selects sort maxSequence).map (·.1.decisionId)).Perm ids := by
  refine ⟨_, ?_, (List.perm_insertionSort _ _).map _⟩
  refine (flatMap_sublist _ _ (fun row : DecisionRow × IntegrityRow => row.1.decisionId)
    (·.decisionId) fun d _ => ?_).trans (List.filter_sublist.map _)
  rw [List.map_map]
  -- the records that match one decision have its id, and ids of records are distinct
  have distinct : ((ledger.integrity.filter fun i => matchRow d i &&
      decide (i.sequenceNumber ≤ maxSequence)).map (·.decisionId)).Nodup :=
    keys.integrityId.sublist (List.filter_sublist.map _)
  have constant : (ledger.integrity.filter fun i => matchRow d i &&
      decide (i.sequenceNumber ≤ maxSequence)).map (·.decisionId) =
      (ledger.integrity.filter fun i => matchRow d i &&
        decide (i.sequenceNumber ≤ maxSequence)).map fun _ => d.decisionId := by
    refine List.map_congr_left fun i member => ?_
    have matched := (List.mem_filter.mp member).2
    simp only [matchRow, Bool.and_eq_true, decide_eq_true_eq] at matched
    exact matched.1.1.symm
  rw [constant, List.map_const'] at distinct
  change ((ledger.integrity.filter _).map fun _ => d.decisionId).Sublist _
  rw [List.map_const']
  have small := List.nodup_replicate.mp distinct
  exact List.replicate_sublist_replicate d.decisionId (n := 1) |>.mpr small

theorem recordRows_nodup (keys : ledger.Keys) (selects : DecisionRow → Bool)
    (sort : DecisionSortOrder) (maxSequence : Int) :
    ((ledger.recordRows project selects sort maxSequence).map (·.1.decisionId)).Nodup := by
  obtain ⟨ids, below, same⟩ := ledger.recordRows_ids project keys selects sort maxSequence
  exact same.nodup_iff.mpr ((keys.decisionId.sublist (List.filter_sublist.map _)).sublist below)

theorem recordRows_length_le (keys : ledger.Keys) (selects : DecisionRow → Bool)
    (sort : DecisionSortOrder) (maxSequence : Int) :
    (ledger.recordRows project selects sort maxSequence).length ≤
      (ledger.projectDecisions project).length := by
  obtain ⟨ids, below, same⟩ := ledger.recordRows_ids project keys selects sort maxSequence
  have lengths := same.length_eq
  have bound := below.length_le
  rw [List.length_map] at lengths bound
  omega

theorem snapshot_fields (count : Nat) (capturedAt : UtcDatetime) (s : EvidenceExportSnapshot)
    (made : ledger.snapshot project count capturedAt = some s) :
    s.projectId = project ∧ (s.maxSequenceNumber : Int) = ledger.lastSequence project := by
  unfold snapshot at made
  cases last : (ledger.chain project).getLast? with
  | none =>
    simp only [last, Option.some.injEq] at made
    subst made
    simp [lastSequence, last]
  | some head =>
    simp only [last, Option.bind_eq_bind, Option.bind_eq_some_iff] at made
    obtain ⟨hash, -, made⟩ := made
    split at made
    · next nonnegative =>
      cases made
      simp [lastSequence, last, Int.toNat_of_nonneg nonnegative]
    · cases made

theorem captureRecords_snapshot (selects : DecisionRow → Bool) (sort : DecisionSortOrder)
    (maximumRecords maximumBytes : Nat) (capturedAt : UtcDatetime)
    (captured : EvidenceExportSnapshot × List VerifiableDecisionRecord)
    (done : ledger.captureRecords platform project selects sort maximumRecords maximumBytes
      capturedAt = .ok captured) :
    captured.1.projectId = project ∧
      (captured.1.maxSequenceNumber : Int) = ledger.lastSequence project := by
  unfold captureRecords at done
  rw [bind_eq_ok] at done
  obtain ⟨s, made, done⟩ := done
  rw [orRaise_eq_ok] at made
  have fields := ledger.snapshot_fields project _ capturedAt s made
  split at done
  · cases done
    exact fields
  · rw [bind_eq_ok] at done
    obtain ⟨records, -, done⟩ := done
    cases done
    exact fields

end Ledger

end DecAustrum
