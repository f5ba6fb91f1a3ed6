import DecAustrum.Operators
import DecAustrum.Python.JsonKeys
import Mathlib.Data.List.Perm.Subperm

/-!
# What the operators mean

Equality of JSON values as a relation on their scalars carried through arrays and objects,
and how far the operators follow it.
-/
namespace DecAustrum.Python.Json

/-! ## Relations on scalars, carried through containers -/

def IsContainer : Json → Prop
  | .arr _ => True
  | .obj _ => True
  | _ => False

/-- The same shape, with `R` at every pair of scalars. -/
inductive Agree (R : Json → Json → Prop) : Json → Json → Prop
  | scalar (v w : Json) (left : ¬ IsContainer v) (right : ¬ IsContainer w) (related : R v w) :
      Agree R v w
  | arr (items others : List Json) (each : List.Forall₂ (Agree R) items others) :
      Agree R (.arr items) (.arr others)
  | obj (fields others : List (Str × Json))
      (keys : ∀ key, (lookup key fields).isSome = (lookup key others).isSome)
      (each : ∀ key v w, lookup key fields = some v → lookup key others = some w → Agree R v w) :
      Agree R (.obj fields) (.obj others)

/-- `R` at one pair of scalars at least, found by going down both values along one path. -/
inductive Somewhere (R : Json → Json → Prop) : Json → Json → Prop
  | here (v w : Json) (left : ¬ IsContainer v) (right : ¬ IsContainer w) (related : R v w) :
      Somewhere R v w
  | item (items others : List Json) (i : Nat) (v w : Json) (left : items[i]? = some v)
      (right : others[i]? = some w) (below : Somewhere R v w) :
      Somewhere R (.arr items) (.arr others)
  | member (fields others : List (Str × Json)) (key : Str) (v w : Json)
      (left : lookup key fields = some v) (right : lookup key others = some w)
      (below : Somewhere R v w) : Somewhere R (.obj fields) (.obj others)

theorem mem_of_lookup {key : Str} {fields : List (Str × Json)} {v : Json}
    (found : lookup key fields = some v) : (key, v) ∈ fields := by
  rw [lookup, Option.map_eq_some_iff] at found
  obtain ⟨field, first, rfl⟩ := found
  have same : field.1 = key := by simpa using List.find?_some first
  rw [← same]
  exact List.mem_of_find?_eq_some first

theorem agree_scalar_iff {R : Json → Json → Prop} {v w : Json} (left : ¬ IsContainer v) :
    Agree R v w ↔ ¬ IsContainer w ∧ R v w := by
  constructor
  · rintro (⟨_, _, -, right, related⟩ | _ | _)
    · exact ⟨right, related⟩
    · exact absurd trivial left
    · exact absurd trivial left
  · rintro ⟨right, related⟩
    exact .scalar v w left right related

/-- A value that agrees up to `R` or `Q` agrees up to `R`, unless `Q` is needed somewhere. -/
theorem Agree.split {R Q : Json → Json → Prop} (v : Json) :
    ∀ w, Agree (fun a b => R a b ∨ Q a b) v w → Agree R v w ∨ Somewhere Q v w := by
  have atScalar (v w : Json) (left : ¬ IsContainer v)
      (agree : Agree (fun a b => R a b ∨ Q a b) v w) : Agree R v w ∨ Somewhere Q v w := by
    obtain ⟨right, related | other⟩ := (agree_scalar_iff left).mp agree
    · exact .inl (.scalar v w left right related)
    · exact .inr (.here v w left right other)
  induction v using Json.inductionOn with
  | null => exact fun w => atScalar _ w id
  | bool b => exact fun w => atScalar _ w id
  | int n => exact fun w => atScalar _ w id
  | float x => exact fun w => atScalar _ w id
  | str s => exact fun w => atScalar _ w id
  | arr items ih =>
    intro w agree
    cases agree with
    | scalar _ _ left => exact absurd trivial left
    | arr _ others each =>
      by_cases all : List.Forall₂ (Agree R) items others
      · exact .inl (.arr items others all)
      right
      rw [List.forall₂_iff_get] at all each
      push Not at all
      obtain ⟨i, inside, inside', other⟩ := all each.1
      have below := ih (items.get ⟨i, inside⟩) (List.get_mem _ _) (others.get ⟨i, inside'⟩)
        (each.2 i inside inside')
      refine .item items others i _ _ (List.getElem?_eq_getElem inside)
        (List.getElem?_eq_getElem inside') (below.resolve_left other)
  | obj fields ih =>
    intro w agree
    cases agree with
    | scalar _ _ left => exact absurd trivial left
    | obj _ others keys each =>
      by_cases all : ∀ key v w, lookup key fields = some v → lookup key others = some w → Agree R v w
      · exact .inl (.obj fields others keys all)
      right
      push Not at all
      obtain ⟨key, v, w, left, right, other⟩ := all
      have below := ih (key, v) (mem_of_lookup left) w (each key v w left right)
      exact .member fields others key v w left right (below.resolve_left other)

/-- A value that agrees up to `R` needs nowhere a relation that excludes `R`. -/
theorem Agree.nowhere {R Q : Json → Json → Prop} (apart : ∀ v w, R v w → ¬ Q v w) {v w : Json}
    (somewhere : Somewhere Q v w) : ¬ Agree R v w := by
  induction somewhere with
  | here v w left _ other =>
    intro agree
    exact apart v w ((agree_scalar_iff left).mp agree).2 other
  | item items others i v w left right _ ih =>
    intro agree
    cases agree with
    | scalar _ _ scalar => exact scalar trivial
    | arr _ _ each =>
      apply ih
      obtain ⟨inside, rfl⟩ := List.getElem?_eq_some_iff.mp left
      obtain ⟨inside', rfl⟩ := List.getElem?_eq_some_iff.mp right
      exact (List.forall₂_iff_get.mp each).2 i inside inside'
  | member fields others key v w left right _ ih =>
    intro agree
    cases agree with
    | scalar _ _ scalar => exact scalar trivial
    | obj _ _ _ each => exact ih (each key v w left right)

theorem Agree.mono {R Q : Json → Json → Prop} (weaken : ∀ v w, R v w → Q v w) (v : Json) :
    ∀ w, Agree R v w → Agree Q v w := by
  have atScalar (v w : Json) (left : ¬ IsContainer v) (agree : Agree R v w) : Agree Q v w := by
    obtain ⟨right, related⟩ := (agree_scalar_iff left).mp agree
    exact .scalar v w left right (weaken v w related)
  induction v using Json.inductionOn with
  | null => exact fun w => atScalar _ w id
  | bool b => exact fun w => atScalar _ w id
  | int n => exact fun w => atScalar _ w id
  | float x => exact fun w => atScalar _ w id
  | str s => exact fun w => atScalar _ w id
  | arr items ih =>
    intro w agree
    cases agree with
    | scalar _ _ left => exact absurd trivial left
    | arr _ others each =>
      apply Agree.arr
      rw [List.forall₂_iff_get] at each ⊢
      refine ⟨each.1, fun i inside inside' => ?_⟩
      exact ih _ (List.get_mem _ _) _ (each.2 i inside inside')
  | obj fields ih =>
    intro w agree
    cases agree with
    | scalar _ _ left => exact absurd trivial left
    | obj _ others keys each =>
      apply Agree.obj fields others keys
      intro key v w left right
      exact ih (key, v) (mem_of_lookup left) w (each key v w left right)

/-! ## Python's equality -/

/-- The number an int or a float is; a boolean is none. -/
def amount? : Json → Option ℚ
  | .int n => some n
  | .float x => some x.value
  | _ => none

/-- Equal scalars of one type, numbers compared by their value. -/
def SameScalar : Json → Json → Prop
  | .null, .null => True
  | .bool b, .bool c => b = c
  | .str s, .str t => s = t
  | v, w => ∃ q, amount? v = some q ∧ amount? w = some q

/-- A boolean against the number it counts as. -/
def BooleanAgainstNumber (v w : Json) : Prop :=
  ∃ b, (v = .bool b ∧ amount? w = some (if b then 1 else 0)) ∨
    (w = .bool b ∧ amount? v = some (if b then 1 else 0))

/-- Equality of JSON values: numbers by value, and a boolean equal to booleans only. -/
def Same (v w : Json) : Prop := Agree SameScalar v w

theorem equalItems_iff (items : List Json) : ∀ others,
    equalItems items others = true ↔ List.Forall₂ (fun v w => equal v w = true) items others := by
  induction items with
  | nil =>
    intro others
    cases others <;> simp [equalItems]
  | cons v items ih =>
    intro others
    cases others with
    | nil => simp [equalItems]
    | cons w others => simp [equalItems, ih]

theorem equalFields_iff (fields others : List (Str × Json)) :
    equalFields fields others = true ↔
      ∀ field ∈ fields, ∃ w, lookup field.1 others = some w ∧ equal field.2 w = true := by
  induction fields with
  | nil => simp [equalFields]
  | cons field fields ih =>
    obtain ⟨key, v⟩ := field
    rw [equalFields, Bool.and_eq_true, ih, List.forall_mem_cons]
    cases lookup key others <;> simp

theorem lookup_isSome_iff {key : Str} {fields : List (Str × Json)} :
    (lookup key fields).isSome = true ↔ key ∈ fields.map Prod.fst := by
  induction fields with
  | nil => simp [lookup]
  | cons field fields ih =>
    obtain ⟨k, v⟩ := field
    rw [lookup_cons, List.map_cons, List.mem_cons, ← ih]
    split
    next same => simp [same]
    next other => simp [Ne.symm other]

/-- Two dictionaries of one size, the keys of one among those of the other, have the same keys. -/
theorem keys_eq_of_subset {fields others : List (Str × Json)}
    (distinct : (fields.map Prod.fst).Nodup) (size : fields.length = others.length)
    (subset : fields.map Prod.fst ⊆ others.map Prod.fst) (key : Str) :
    (lookup key fields).isSome = (lookup key others).isSome := by
  have perm : (fields.map Prod.fst).Perm (others.map Prod.fst) :=
    (List.subperm_of_subset distinct subset).perm_of_length_le (by simp [size])
  rw [Bool.eq_iff_iff, lookup_isSome_iff, lookup_isSome_iff]
  exact perm.mem_iff

theorem length_eq_of_keys {fields others : List (Str × Json)}
    (distinct : (fields.map Prod.fst).Nodup) (distinct' : (others.map Prod.fst).Nodup)
    (keys : ∀ key, (lookup key fields).isSome = (lookup key others).isSome) :
    fields.length = others.length := by
  have perm : (fields.map Prod.fst).Perm (others.map Prod.fst) := by
    rw [List.perm_ext_iff_of_nodup distinct distinct']
    intro key
    rw [← lookup_isSome_iff, ← lookup_isSome_iff, keys key]
  simpa using perm.length_eq

theorem uniqueKeys_arr {items : List Json} (unique : (Json.arr items).uniqueKeys = true) :
    ∀ v ∈ items, v.uniqueKeys = true := by
  rwa [uniqueKeys, uniqueKeysItems_iff] at unique

theorem uniqueKeys_obj {fields : List (Str × Json)} (unique : (Json.obj fields).uniqueKeys = true) :
    (fields.map Prod.fst).Nodup ∧ ∀ field ∈ fields, field.2.uniqueKeys = true := by
  rwa [uniqueKeys, Bool.and_eq_true, decide_eq_true_eq, uniqueKeysFields_iff] at unique

theorem equal_scalar_iff (v w : Json) (left : ¬ IsContainer v) :
    equal v w = true ↔ ¬ IsContainer w ∧ (SameScalar v w ∨ BooleanAgainstNumber v w) := by
  cases v <;> cases w <;>
    simp_all [equal, number?, IsContainer, SameScalar, BooleanAgainstNumber, amount?]
  case bool.bool b c => cases b <;> cases c <;> decide
  all_goals exact eq_comm

/-- `==` of two values is agreement of their scalars with each boolean taken for its number. -/
theorem equal_iff (v : Json) : ∀ w, v.uniqueKeys = true → w.uniqueKeys = true →
    (equal v w = true ↔ Agree (fun a b => SameScalar a b ∨ BooleanAgainstNumber a b) v w) := by
  have atScalar (v w : Json) (left : ¬ IsContainer v) : equal v w = true ↔
      Agree (fun a b => SameScalar a b ∨ BooleanAgainstNumber a b) v w := by
    rw [equal_scalar_iff v w left, agree_scalar_iff left]
  induction v using Json.inductionOn with
  | null => exact fun w _ _ => atScalar _ w id
  | bool b => exact fun w _ _ => atScalar _ w id
  | int n => exact fun w _ _ => atScalar _ w id
  | float x => exact fun w _ _ => atScalar _ w id
  | str s => exact fun w _ _ => atScalar _ w id
  | arr items ih =>
    intro w unique unique'
    cases w with
    | arr others =>
      rw [equal, equalItems_iff, List.forall₂_iff_get]
      have inner (i : Nat) (inside : i < items.length) (inside' : i < others.length) :=
        ih _ (List.get_mem items ⟨i, inside⟩) (others.get ⟨i, inside'⟩)
          (uniqueKeys_arr unique _ (List.get_mem _ _)) (uniqueKeys_arr unique' _ (List.get_mem _ _))
      constructor
      · rintro ⟨size, each⟩
        apply Agree.arr
        rw [List.forall₂_iff_get]
        exact ⟨size, fun i inside inside' => (inner i inside inside').mp (each i inside inside')⟩
      · intro agree
        cases agree with
        | scalar _ _ left => exact absurd trivial left
        | arr _ _ each =>
          rw [List.forall₂_iff_get] at each
          exact ⟨each.1, fun i inside inside' =>
            (inner i inside inside').mpr (each.2 i inside inside')⟩
    | _ =>
      constructor
      · intro equals
        simp [equal, number?] at equals
      · intro agree
        cases agree with
        | scalar _ _ left => exact absurd trivial left
  | obj fields ih =>
    intro w unique unique'
    cases w with
    | obj others =>
      have distinct := (uniqueKeys_obj unique).1
      have distinct' := (uniqueKeys_obj unique').1
      have inner (key : Str) (v w : Json) (left : lookup key fields = some v)
          (right : lookup key others = some w) :=
        ih _ (mem_of_lookup left) w ((uniqueKeys_obj unique).2 _ (mem_of_lookup left))
          ((uniqueKeys_obj unique').2 _ (mem_of_lookup right))
      rw [equal, Bool.and_eq_true, decide_eq_true_eq, equalFields_iff]
      constructor
      · rintro ⟨size, each⟩
        have subset : fields.map Prod.fst ⊆ others.map Prod.fst := by
          intro key inside
          obtain ⟨field, member, rfl⟩ := List.mem_map.mp inside
          obtain ⟨w, found, -⟩ := each field member
          exact lookup_isSome_iff.mp (by rw [found]; rfl)
        apply Agree.obj fields others (keys_eq_of_subset distinct size subset)
        intro key v w left right
        obtain ⟨w', found, equals⟩ := each (key, v) (mem_of_lookup left)
        rw [right, Option.some.injEq] at found
        subst found
        exact (inner key v w left right).mp equals
      · intro agree
        cases agree with
        | scalar _ _ left => exact absurd trivial left
        | obj _ _ keys each =>
          refine ⟨length_eq_of_keys distinct distinct' keys, ?_⟩
          rintro ⟨key, v⟩ inside
          have left := (lookup_eq_some_iff key fields v distinct).mpr inside
          have present := keys key
          rw [left, Option.isSome_some, eq_comm, Option.isSome_iff_exists] at present
          obtain ⟨w, right⟩ := present
          exact ⟨w, right, (inner key v w left right).mpr (each key v w left right)⟩
    | _ =>
      constructor
      · intro equals
        simp [equal, number?] at equals
      · intro agree
        cases agree with
        | scalar _ _ left => exact absurd trivial left

theorem sameScalar_not_boolean (v w : Json) (same : SameScalar v w) :
    ¬ BooleanAgainstNumber v w := by
  rintro ⟨b, ⟨rfl, number⟩ | ⟨rfl, number⟩⟩
  · cases w <;> simp_all [SameScalar, amount?]
  · cases v <;> simp_all [SameScalar, amount?]

/-- Two arrays or two objects that agree everywhere, except that somewhere inside a boolean of
one stands against the number 1 or 0 it counts as. -/
def BooleanReadAsNumber (v w : Json) : Prop :=
  IsContainer v ∧ Agree (fun a b => SameScalar a b ∨ BooleanAgainstNumber a b) v w ∧
    Somewhere BooleanAgainstNumber v w

theorem booleanReadAsNumber_apart {v w : Json} (read : BooleanReadAsNumber v w) : ¬ Same v w :=
  Agree.nowhere sameScalar_not_boolean read.2.2

end Json

end DecAustrum.Python

namespace DecAustrum

open Python Json

/-! ## The operators -/

/-- What is expected of the operators on two values. -/
structure OperatorLaws (actual expected : Json) : Prop where
  equals : evaluateOperator .equals actual expected = some true → Same actual expected
  notEquals : ∀ equals differs, evaluateOperator .equals actual expected = some equals →
    evaluateOperator .notEquals actual expected = some differs → differs = !equals
  trichotomy : (amount? actual).isSome = true → (amount? expected).isSome = true →
    ∃ greater less equals, evaluateOperator .greaterThan actual expected = some greater ∧
      evaluateOperator .lessThan actual expected = some less ∧
        evaluateOperator .equals actual expected = some equals ∧
          ((greater = true ∧ less = false ∧ equals = false) ∨
            (greater = false ∧ less = true ∧ equals = false) ∨
              (greater = false ∧ less = false ∧ equals = true))

theorem notEquals_negates {actual expected : Json} {equals differs : Bool}
    (evaluated : evaluateOperator .equals actual expected = some equals)
    (negated : evaluateOperator .notEquals actual expected = some differs) : differs = !equals := by
  unfold evaluateOperator at evaluated negated
  split at evaluated
  next compatible =>
    rw [if_pos compatible] at negated
    simp only [Option.some.injEq] at evaluated negated
    rw [← evaluated, ← negated]
  next => cases evaluated

theorem evaluateOperator_numbers {actual expected : Json} {m n : ℚ}
    (left : amount? actual = some m) (right : amount? expected = some n) :
    evaluateOperator .greaterThan actual expected = some (decide (n < m)) ∧
      evaluateOperator .lessThan actual expected = some (decide (m < n)) ∧
        evaluateOperator .equals actual expected = some (decide (m = n)) := by
  cases actual <;> simp only [amount?, Option.some.injEq, reduceCtorEq] at left <;>
    cases expected <;> simp only [amount?, Option.some.injEq, reduceCtorEq] at right <;>
    subst left right <;>
    simp [evaluateOperator, valuesHaveCompatibleTypes, Json.compare, equal, number?, Order.holds]

theorem numbers_trichotomy {actual expected : Json} (left : (amount? actual).isSome = true)
    (right : (amount? expected).isSome = true) :
    ∃ greater less equals, evaluateOperator .greaterThan actual expected = some greater ∧
      evaluateOperator .lessThan actual expected = some less ∧
        evaluateOperator .equals actual expected = some equals ∧
          ((greater = true ∧ less = false ∧ equals = false) ∨
            (greater = false ∧ less = true ∧ equals = false) ∨
              (greater = false ∧ less = false ∧ equals = true)) := by
  obtain ⟨m, left⟩ := Option.isSome_iff_exists.mp left
  obtain ⟨n, right⟩ := Option.isSome_iff_exists.mp right
  obtain ⟨greater, less, equals⟩ := evaluateOperator_numbers left right
  refine ⟨_, _, _, greater, less, equals, ?_⟩
  simp only [decide_eq_true_eq, decide_eq_false_iff_not]
  rcases lt_trichotomy m n with below | same | above
  · exact .inr (.inl ⟨below.asymm, below, below.ne⟩)
  · exact .inr (.inr ⟨by simp [same], by simp [same], same⟩)
  · exact .inl ⟨above, above.asymm, above.ne'⟩

theorem evaluateOperator_equals {actual expected : Json} :
    evaluateOperator .equals actual expected = some true ↔
      valuesHaveCompatibleTypes actual expected = true ∧ actual.equal expected = true := by
  unfold evaluateOperator
  split
  next compatible => simp [compatible]
  next other => simp [other]

/-- A boolean is compatible with booleans only. -/
theorem compatible_boolean {v w : Json} (compatible : valuesHaveCompatibleTypes v w = true) :
    ¬ BooleanAgainstNumber v w := by
  rintro ⟨b, ⟨rfl, number⟩ | ⟨rfl, number⟩⟩
  · cases w <;> simp_all [valuesHaveCompatibleTypes, amount?]
  · cases v <;> simp_all [valuesHaveCompatibleTypes, amount?]

theorem compatible_sameScalar {v w : Json} (same : SameScalar v w) :
    valuesHaveCompatibleTypes v w = true := by
  cases v <;> cases w <;> simp_all [SameScalar, amount?, valuesHaveCompatibleTypes]

theorem compatible_agree {R : Json → Json → Prop} {v w : Json} (agree : Agree R v w)
    (scalars : ¬ IsContainer v → SameScalar v w) : valuesHaveCompatibleTypes v w = true := by
  cases agree with
  | scalar _ _ left => exact compatible_sameScalar (scalars left)
  | arr => rfl
  | obj => rfl

/-- `equals` is true of the values that are the same, and of the containers that differ only
in booleans read as numbers. -/
theorem equals_iff (actual expected : StrictJson) :
    evaluateOperator .equals actual.json expected.json = some true ↔
      Same actual.json expected.json ∨ BooleanReadAsNumber actual.json expected.json := by
  rw [evaluateOperator_equals, equal_iff _ _ actual.unique expected.unique]
  constructor
  · rintro ⟨compatible, agree⟩
    by_cases container : IsContainer actual.json
    · rcases agree.split with same | somewhere
      · exact .inl same
      · exact .inr ⟨container, agree, somewhere⟩
    · obtain ⟨right, same | other⟩ := (agree_scalar_iff container).mp agree
      · exact .inl (.scalar _ _ container right same)
      · exact absurd other (compatible_boolean compatible)
  · rintro (same | ⟨container, agree, -⟩)
    · constructor
      · exact compatible_agree same fun left => ((agree_scalar_iff left).mp same).2
      · exact same.mono (fun _ _ => .inl) _ _
    · exact ⟨compatible_agree agree fun left => absurd container left, agree⟩

/-- The operators keep their laws on every two values but those containers. -/
theorem operator_laws_iff (actual expected : StrictJson) :
    OperatorLaws actual.json expected.json ↔
      ¬ BooleanReadAsNumber actual.json expected.json := by
  constructor
  · intro laws read
    exact booleanReadAsNumber_apart read (laws.equals ((equals_iff actual expected).mpr (.inr read)))
  · intro clear
    constructor
    · intro equals
      exact ((equals_iff actual expected).mp equals).resolve_right clear
    · exact fun _ _ => notEquals_negates
    · exact numbers_trichotomy

def sampleFlags : StrictJson := ⟨.arr [.bool true], rfl, rfl, rfl⟩

def sampleCounts : StrictJson := ⟨.arr [.int 1], rfl, rfl, rfl⟩

/-- `[True] == [1]`. -/
theorem flags_equal_counts :
    evaluateOperator .equals sampleFlags.json sampleCounts.json = some true ∧
      ¬ OperatorLaws sampleFlags.json sampleCounts.json := by
  have equals : evaluateOperator .equals sampleFlags.json sampleCounts.json = some true := by
    decide +kernel
  refine ⟨equals, fun laws => ?_⟩
  have same := laws.equals equals
  cases same with
  | scalar _ _ left => exact left trivial
  | arr _ _ each =>
    cases each with
    | cons first _ =>
      obtain ⟨q, number, -⟩ := ((agree_scalar_iff id).mp first).2
      cases number

end DecAustrum
