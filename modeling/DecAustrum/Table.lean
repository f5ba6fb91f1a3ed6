import Mathlib.Data.List.Find
import Mathlib.Data.List.Nodup

/-!
# Tables

A table is the list of its rows in insertion order. A unique column is a partial key: rows
without one never collide.
-/
namespace Table

variable {α κ : Type}

/-- No two rows share a key. -/
def UniqueKey (key : α → Option κ) (rows : List α) : Prop := (rows.filterMap key).Nodup

section

variable {key : α → Option κ} {rows : List α}

@[simp] theorem uniqueKey_nil : UniqueKey key [] := List.nodup_nil

theorem uniqueKey_append (row : α) :
    UniqueKey key (rows ++ [row]) ↔
      UniqueKey key rows ∧ ∀ other ∈ rows, ∀ k, key row = some k → key other ≠ some k := by
  unfold UniqueKey
  cases found : key row with
  | none => simp [found]
  | some k =>
    simp only [List.filterMap_append, List.filterMap_cons_some found, List.filterMap_nil,
      List.nodup_append, List.nodup_singleton, true_and, List.mem_filterMap, List.mem_singleton,
      Option.some.injEq]
    constructor
    · rintro ⟨unique, fresh⟩
      exact ⟨unique, fun other member k' same keyOther =>
        fresh k ⟨other, member, same ▸ keyOther⟩ k rfl rfl⟩
    · rintro ⟨unique, fresh⟩
      refine ⟨unique, ?_⟩
      rintro a ⟨other, member, keyOther⟩ b rfl rfl
      exact fresh other member a rfl keyOther

theorem UniqueKey.tail {row : α} {rest : List α} (unique : UniqueKey key (row :: rest)) :
    UniqueKey key rest ∧ ∀ k, key row = some k → ∀ c ∈ rest, key c ≠ some k := by
  unfold UniqueKey at unique ⊢
  cases found : key row with
  | none =>
    rw [List.filterMap_cons_none found] at unique
    exact ⟨unique, fun k same => by cases same⟩
  | some k' =>
    rw [List.filterMap_cons_some found, List.nodup_cons] at unique
    refine ⟨unique.2, ?_⟩
    rintro k ⟨⟩ c member keyC
    exact unique.1 (List.mem_filterMap.mpr ⟨c, member, keyC⟩)

theorem UniqueKey.sublist {fewer : List α} (sub : fewer.Sublist rows) (unique : UniqueKey key rows) :
    UniqueKey key fewer :=
  (sub.filterMap key).nodup unique

/-- No other row has the key of the one that is taken away. -/
theorem UniqueKey.erased {a : α} {k : κ} {i : Nat} (unique : UniqueKey key rows)
    (found : rows[i]? = some a) (keyA : key a = some k) : ∀ b ∈ rows.eraseIdx i, key b ≠ some k := by
  induction rows generalizing i with
  | nil => cases found
  | cons row rest ih =>
    obtain ⟨tail, fresh⟩ := unique.tail
    cases i with
    | zero =>
      cases found
      exact fresh k keyA
    | succ i =>
      rw [List.getElem?_cons_succ] at found
      intro b member keyB
      rcases List.mem_cons.mp member with rfl | inRest
      · exact fresh k keyB a (List.mem_of_getElem? found) keyA
      · exact ih tail found b inRest keyB

theorem UniqueKey.eq {a b : α} {k : κ} (unique : UniqueKey key rows) (ha : a ∈ rows) (hb : b ∈ rows)
    (keyA : key a = some k) (keyB : key b = some k) : a = b := by
  induction rows with
  | nil => cases ha
  | cons row rest ih =>
    obtain ⟨tail, fresh⟩ := unique.tail
    rcases List.mem_cons.mp ha with rfl | inA
    · rcases List.mem_cons.mp hb with rfl | inB
      · rfl
      · exact absurd keyB (fresh k keyA b inB)
    · rcases List.mem_cons.mp hb with rfl | inB
      · exact absurd keyA (fresh k keyB a inA)
      · exact ih tail inA inB

/-- A key selects its row. -/
theorem UniqueKey.filter_eq {a : α} {k : κ} {p : α → Bool} (unique : UniqueKey key rows)
    (member : a ∈ rows) (keyA : key a = some k)
    (hits : ∀ b ∈ rows, p b = true ↔ key b = some k) : rows.filter p = [a] := by
  induction rows with
  | nil => cases member
  | cons row rest ih =>
    obtain ⟨tail, fresh⟩ := unique.tail
    have later : ∀ b ∈ rest, p b = true ↔ key b = some k :=
      fun b inRest => hits b (List.mem_cons_of_mem _ inRest)
    by_cases its : key row = some k
    · have same : row = a := unique.eq (List.mem_cons_self ..) member its keyA
      have none : rest.filter p = [] := by
        rw [List.filter_eq_nil_iff]
        exact fun b inRest hit => fresh k its b inRest ((later b inRest).mp hit)
      rw [List.filter_cons_of_pos ((hits row (List.mem_cons_self ..)).mpr its), none, same]
    · have missed : ¬p row = true := fun hit => its ((hits row (List.mem_cons_self ..)).mp hit)
      have inRest : a ∈ rest := by
        rcases List.mem_cons.mp member with rfl | inRest
        · exact absurd keyA its
        · exact inRest
      rw [List.filter_cons_of_neg missed, ih tail inRest later]

end

/-! ## Rows updated by a condition -/

section UpdateWhere

variable {p : α → Bool} {f : α → α} {rows : List α}

/-- `UPDATE … SET … WHERE`. -/
def updateWhere (p : α → Bool) (f : α → α) (rows : List α) : List α :=
  rows.map fun row => if p row then f row else row

theorem mem_updateWhere {row : α} :
    row ∈ updateWhere p f rows ↔
      ∃ old ∈ rows, (p old = true ∧ row = f old) ∨ (p old = false ∧ row = old) := by
  unfold updateWhere
  rw [List.mem_map]
  refine exists_congr fun old => and_congr_right fun _ => ?_
  cases p old <;> simp [eq_comm]

theorem map_updateWhere_of_eq {β : Type} (g : α → β)
    (same : ∀ row ∈ rows, p row = true → g (f row) = g row) :
    (updateWhere p f rows).map g = rows.map g := by
  unfold updateWhere
  rw [List.map_map, List.map_inj_left]
  intro row member
  by_cases hit : p row = true
  · simp [hit, same row member hit]
  · simp [hit]

theorem uniqueKey_updateWhere {key : α → Option κ}
    (same : ∀ row ∈ rows, p row = true → key (f row) = key row) :
    UniqueKey key (updateWhere p f rows) ↔ UniqueKey key rows := by
  have column : ∀ l : List α, l.filterMap key = (l.map key).filterMap id := by
    intro l
    simp [List.filterMap_map]
  unfold UniqueKey
  rw [column, column, map_updateWhere_of_eq key same]

/-- A key finds the updated row. -/
theorem find?_updateWhere (q : α → Bool) (same : ∀ row ∈ rows, p row = true → q (f row) = q row) :
    (updateWhere p f rows).find? q = (rows.find? q).map fun row => if p row then f row else row := by
  unfold updateWhere
  rw [List.find?_map]
  congr 1
  refine List.find?_congr fun row member => ?_
  by_cases hit : p row = true
  · simp [hit, same row member hit]
  · simp [hit]

/-- A key that no updated row has, before or after, finds what it found. -/
theorem find?_updateWhere_other (q : α → Bool)
    (apart : ∀ row ∈ rows, p row = true → q row = false ∧ q (f row) = false) :
    (updateWhere p f rows).find? q = rows.find? q := by
  rw [find?_updateWhere q fun row member hit => by rw [(apart row member hit).1, (apart row member hit).2]]
  cases found : rows.find? q with
  | none => rfl
  | some row =>
    have member := List.mem_of_find?_eq_some found
    have missed : p row = false := by
      by_contra hit
      have absent := (apart row member (by simpa using hit)).1
      rw [List.find?_some found] at absent
      cases absent
    simp [missed]

theorem updateWhere_of_none (absent : ∀ row ∈ rows, p row = false) : updateWhere p f rows = rows := by
  have fixed : ∀ row ∈ rows, (if p row then f row else row) = row := by
    intro row member
    simp [absent row member]
  rw [updateWhere, List.map_congr_left fixed, List.map_id']

end UpdateWhere

/-! ## One row replaced -/

section Set

variable {rows : List α} {i : Nat} {old new : α}

theorem mem_set_of_ne {a : α} (found : rows[i]? = some old) (member : a ∈ rows) (ne : a ≠ old) :
    a ∈ rows.set i new := by
  obtain ⟨j, hj, rfl⟩ := List.getElem_of_mem member
  have apart : i ≠ j := by
    rintro rfl
    apply ne
    simpa [List.getElem?_eq_getElem hj] using found
  exact List.mem_iff_getElem.mpr ⟨j, by simpa using hj, by rw [List.getElem_set_ne apart]⟩

theorem mem_set_self (found : rows[i]? = some old) : new ∈ rows.set i new := by
  obtain ⟨hi, -⟩ := List.getElem?_eq_some_iff.mp found
  exact List.mem_set hi new

/-- A column that the replacement keeps is the same column. -/
theorem map_set_of_eq {β : Type} (f : α → β) (found : rows[i]? = some old) (same : f new = f old) :
    (rows.set i new).map f = rows.map f := by
  obtain ⟨hi, rfl⟩ := List.getElem?_eq_some_iff.mp found
  rw [List.map_set, same, ← List.getElem_map f (h := by simpa using hi), List.set_getElem_self]

theorem uniqueKey_set {key : α → Option κ} (found : rows[i]? = some old) (same : key new = key old) :
    UniqueKey key (rows.set i new) ↔ UniqueKey key rows := by
  have column : ∀ l : List α, l.filterMap key = (l.map key).filterMap id := by
    intro l
    simp [List.filterMap_map]
  unfold UniqueKey
  rw [column, column, map_set_of_eq key found same]

end Set

end Table
