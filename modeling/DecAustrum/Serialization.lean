import DecAustrum.Platform

/-!
# What `model_dump` makes of JSON values

A field of type `Any` is written as the value it holds. A `dict[str, Any]` is written member by
member, under keys that have a UTF-8 form.
-/
namespace DecAustrum

open Python

/-- Successful traversal by a function that is known where it succeeds. -/
theorem mapM_eq_map_iff {ε α β : Type} {f : α → Except ε β} {p : α → Prop} {g : α → β}
    (each : ∀ a b, f a = .ok b ↔ p a ∧ b = g a) (l : List α) (r : List β) :
    l.mapM f = .ok r ↔ (∀ a ∈ l, p a) ∧ r = l.map g := by
  induction l generalizing r with
  | nil => simp [pure, Except.pure, eq_comm]
  | cons a l ih =>
    rw [List.mapM_cons, bind_eq_ok]
    simp only [each, bind_eq_ok, ih, pure, Except.pure, Except.ok.injEq, List.forall_mem_cons,
      List.map_cons]
    constructor
    · rintro ⟨b, ⟨here, rfl⟩, rest, ⟨later, rfl⟩, rfl⟩
      exact ⟨⟨here, later⟩, rfl⟩
    · rintro ⟨⟨here, later⟩, rfl⟩
      exact ⟨_, ⟨here, rfl⟩, _, ⟨later, rfl⟩, rfl⟩

/-! ## Keys -/

/-- A key as it is written: each of the three bytes of a surrogate is replaced. -/
def lossy (s : Str) : Str :=
  s.flatMap fun c => if isSurrogate c then [0xfffd, 0xfffd, 0xfffd] else [c]

theorem lossy_of_scalar {s : Str} (scalar : s.any isSurrogate = false) : lossy s = s := by
  rw [List.any_eq_false] at scalar
  induction s with
  | nil => rfl
  | cons c s ih =>
    have rest := ih fun d member => scalar d (List.mem_cons_of_mem c member)
    rw [lossy, List.flatMap_cons, if_neg (scalar c List.mem_cons_self)]
    exact congrArg (c :: ·) rest

theorem lossy_scalar (s : Str) : (lossy s).any isSurrogate = false := by
  rw [List.any_eq_false]
  intro c member
  obtain ⟨d, -, written⟩ := List.mem_flatMap.mp member
  split at written
  · simp only [List.mem_cons, List.not_mem_nil, or_false, or_self] at written
    subst written
    decide
  · next scalar =>
    rw [List.mem_singleton.mp written]
    exact scalar

/-- The members under their written keys. A later one replaces the value of an earlier one
that is written alike, in the earlier one's place. -/
def lossyDict (fields : List (Str × Json)) : List (Str × Json) :=
  Json.toDict (fields.map fun field => (lossy field.1, field.2))

theorem lossyDict_nodup (fields : List (Str × Json)) : ((lossyDict fields).map Prod.fst).Nodup :=
  Json.toDict_nodup _

theorem mem_lossyDict {fields : List (Str × Json)} {field : Str × Json}
    (member : field ∈ lossyDict fields) :
    field.1.any isSurrogate = false ∧ ∃ original ∈ fields, field.2 = original.2 := by
  obtain ⟨original, present, rfl⟩ := List.mem_map.mp (Json.mem_of_mem_toDict member)
  exact ⟨lossy_scalar _, original, present, rfl⟩

theorem lossyDict_of_scalar {fields : List (Str × Json)} (distinct : (fields.map Prod.fst).Nodup)
    (scalar : ∀ field ∈ fields, field.1.any isSurrogate = false) : lossyDict fields = fields := by
  have same : (fields.map fun field => (lossy field.1, field.2)) = fields := by
    conv_rhs => rw [← List.map_id fields]
    exact List.map_congr_left fun field member =>
      Prod.ext (lossy_of_scalar (scalar field member)) rfl
  rw [lossyDict, same, Json.toDict_of_nodup fields distinct]

/-! ## Values -/

/-- What the serializer of `Any` takes. -/
structure Serializable (v : Json) : Prop where
  nesting : v.nesting ≤ 255
  keys : ∀ key ∈ v.keys, key.any isSurrogate = false

/-- A value of type `Any`. Its serializer follows no more than 255 values into one another,
and encodes the keys it meets. A value with both defects raises for the one it meets first,
which is not followed here. -/
def serializeAny (v : Json) : Except PyExc Json :=
  if 255 < v.nesting then .error .valueError
  else if v.keys.any (fun key => key.any isSurrogate) then .error .unicodeEncodeError
  else .ok v

theorem serializeAny_eq_ok (v w : Json) : serializeAny v = .ok w ↔ Serializable v ∧ w = v := by
  unfold serializeAny
  by_cases deep : 255 < v.nesting
  · simp only [if_pos deep, reduceCtorEq, false_iff, not_and]
    exact fun taken => absurd taken.nesting (Nat.not_le.mpr deep)
  by_cases surrogate : v.keys.any (fun key => key.any isSurrogate) = true
  · simp only [if_neg deep, if_pos surrogate, reduceCtorEq, false_iff, not_and]
    intro taken
    obtain ⟨key, member, held⟩ := List.any_eq_true.mp surrogate
    rw [taken.keys key member] at held
    cases held
  · rw [if_neg deep, if_neg surrogate, Except.ok.injEq]
    have taken : Serializable v := by
      refine ⟨Nat.not_lt.mp deep, fun key member => ?_⟩
      rw [← Bool.not_eq_true]
      exact fun held => surrogate (List.any_eq_true.mpr ⟨key, member, held⟩)
    exact ⟨fun same => ⟨taken, same.symm⟩, fun both => both.2.symm⟩

/-- `dict[str, Any]`. -/
def serializeDict (fields : List (Str × Json)) : Except PyExc Json := do
  let _ ← fields.mapM fun field => serializeAny field.2
  return .obj (lossyDict fields)

theorem serializeDict_eq_ok (fields : List (Str × Json)) (w : Json) :
    serializeDict fields = .ok w ↔
      (∀ field ∈ fields, Serializable field.2) ∧ w = .obj (lossyDict fields) := by
  have values := mapM_eq_map_iff (fun field v => serializeAny_eq_ok (Prod.snd field) v) fields
  simp only [serializeDict, bind_eq_ok, values, pure, Except.pure, Except.ok.injEq]
  constructor
  · rintro ⟨_, ⟨taken, -⟩, rfl⟩
    exact ⟨taken, rfl⟩
  · rintro ⟨taken, rfl⟩
    exact ⟨_, ⟨taken, rfl⟩, rfl⟩

/-- `T | None`. -/
def serializeOptional {α : Type} (dump : α → Except PyExc Json) : Option α → Except PyExc Json
  | none => .ok .null
  | some a => dump a

end DecAustrum
