import DecAustrum.OperatorSemantics
import DecAustrum.Services.Requests
import DecAustrum.TamperEvidence

/-!
# Canonical forms

Canonical JSON tells apart all values but those that differ in the order of keys. What is hashed
in this form, the fingerprint of a request and the payload of a decision, is told apart by its
digest.
-/
namespace DecAustrum.Python.Json

/-- Equality up to the order of keys: the same scalars, token for token. -/
def EqualUpToOrder (v w : Json) : Prop := Agree (· = ·) v w

theorem sortKeys_scalar {v : Json} (scalar : ¬ IsContainer v) : v.sortKeys = v := by
  cases v <;> first | rfl | exact absurd trivial scalar

theorem isContainer_sortKeys (v : Json) : IsContainer v.sortKeys ↔ IsContainer v := by
  cases v <;> exact Iff.rfl

theorem sortKeys_scalar_iff {v w : Json} (left : ¬ IsContainer v) :
    v.sortKeys = w.sortKeys ↔ EqualUpToOrder v w := by
  rw [EqualUpToOrder, agree_scalar_iff left, sortKeys_scalar left]
  constructor
  · intro same
    have right : ¬ IsContainer w := by
      rw [← isContainer_sortKeys, ← same]
      exact left
    exact ⟨right, same.trans (sortKeys_scalar right)⟩
  · rintro ⟨right, rfl⟩
    rw [sortKeys_scalar right]

/-- Sorted members are equal when the members are the same ones in some order. -/
theorem insertionSort_eq_iff {fields others : List (Str × Json)}
    (distinct : (fields.map Prod.fst).Nodup) :
    fields.insertionSort keyLe = others.insertionSort keyLe ↔ fields.Perm others := by
  constructor
  · intro same
    exact ((List.perm_insertionSort keyLe fields).symm.trans (by rw [same])).trans
      (List.perm_insertionSort keyLe others)
  · intro permuted
    have transitive : IsTrans (Str × Json) keyLe := ⟨fun _ _ _ => le_trans⟩
    have total : Std.Total (α := Str × Json) keyLe := ⟨fun a b => le_total a.1 b.1⟩
    refine List.Perm.eq_of_pairwise ?_ (List.pairwise_insertionSort keyLe _)
      (List.pairwise_insertionSort keyLe _) (((List.perm_insertionSort keyLe fields).trans permuted).trans
        (List.perm_insertionSort keyLe others).symm)
    -- distinct keys make the order of the members strict
    intro a b inside inside' le ge
    rw [List.mem_insertionSort] at inside inside'
    have key : a.1 = b.1 := le_antisymm le ge
    exact List.inj_on_of_nodup_map distinct inside (permuted.mem_iff.mpr inside') key

theorem keys_of_sorted (fields : List (Str × Json)) :
    (fields.map fun field => (field.1, field.2.sortKeys)).map Prod.fst = fields.map Prod.fst := by
  simp

/-- Members are the same in some order when every key finds the same value. -/
theorem perm_iff_lookup {fields others : List (Str × Json)} (distinct : (fields.map Prod.fst).Nodup)
    (distinct' : (others.map Prod.fst).Nodup) :
    (fields.map fun field => (field.1, field.2.sortKeys)).Perm
        (others.map fun field => (field.1, field.2.sortKeys)) ↔
      ∀ key, (lookup key fields).map sortKeys = (lookup key others).map sortKeys := by
  have left : ((fields.map fun field => (field.1, field.2.sortKeys)).map Prod.fst).Nodup := by
    rwa [keys_of_sorted]
  have right : ((others.map fun field => (field.1, field.2.sortKeys)).map Prod.fst).Nodup := by
    rwa [keys_of_sorted]
  constructor
  · intro permuted key
    rw [← lookup_map, ← lookup_map]
    exact (lookup_perm key _ _ permuted left).symm
  · intro same
    rw [List.perm_ext_iff_of_nodup left.of_map right.of_map]
    rintro ⟨key, v⟩
    rw [← lookup_eq_some_iff key _ v left, ← lookup_eq_some_iff key _ v right, lookup_map, lookup_map,
      same key]

theorem sortKeys_eq_iff (v : Json) : ∀ w, v.uniqueKeys = true → w.uniqueKeys = true →
    (v.sortKeys = w.sortKeys ↔ EqualUpToOrder v w) := by
  induction v using Json.inductionOn with
  | null => exact fun w _ _ => sortKeys_scalar_iff id
  | bool b => exact fun w _ _ => sortKeys_scalar_iff id
  | int n => exact fun w _ _ => sortKeys_scalar_iff id
  | float x => exact fun w _ _ => sortKeys_scalar_iff id
  | str s => exact fun w _ _ => sortKeys_scalar_iff id
  | arr items ih =>
    intro w unique unique'
    cases w with
    | arr others =>
      have inner (i : Nat) (inside : i < items.length) (inside' : i < others.length) :=
        ih _ (List.get_mem items ⟨i, inside⟩) (others.get ⟨i, inside'⟩)
          (uniqueKeys_arr unique _ (List.get_mem _ _)) (uniqueKeys_arr unique' _ (List.get_mem _ _))
      rw [sortKeys, sortKeys, arr.injEq, sortKeysItems_eq, sortKeysItems_eq, ← List.forall₂_eq_eq_eq,
        List.forall₂_map_left_iff, List.forall₂_map_right_iff, List.forall₂_iff_get]
      constructor
      · rintro ⟨size, each⟩
        apply Agree.arr
        rw [List.forall₂_iff_get]
        exact ⟨size, fun i inside inside' => (inner i inside inside').mp (each i inside inside')⟩
      · intro agree
        cases agree with
        | scalar _ _ left => exact absurd trivial left
        | arr _ _ each =>
          rw [List.forall₂_iff_get] at each
          exact ⟨each.1, fun i inside inside' => (inner i inside inside').mpr (each.2 i inside inside')⟩
    | _ =>
      constructor
      · intro same
        cases same
      · intro agree
        cases agree with
        | scalar _ _ left => exact absurd trivial left
  | obj fields ih =>
    intro w unique unique'
    cases w with
    | obj others =>
      have distinct := (uniqueKeys_obj unique).1
      have distinct' := (uniqueKeys_obj unique').1
      have inner (key : Str) (v w : Json) (left : lookup key fields = some v)
          (right : lookup key others = some w) :=
        ih _ (mem_of_lookup left) w ((uniqueKeys_obj unique).2 _ (mem_of_lookup left))
          ((uniqueKeys_obj unique').2 _ (mem_of_lookup right))
      rw [sortKeys, sortKeys, obj.injEq, sortKeysFields_eq, sortKeysFields_eq,
        insertionSort_eq_iff (by rwa [keys_of_sorted]), perm_iff_lookup distinct distinct']
      constructor
      · intro same
        apply Agree.obj
        · intro key
          rw [← Option.isSome_map (f := sortKeys), same key, Option.isSome_map]
        · intro key v w left right
          have values := same key
          rw [left, right, Option.map_some, Option.map_some, Option.some.injEq] at values
          exact (inner key v w left right).mp values
      · intro agree
        cases agree with
        | scalar _ _ left => exact absurd trivial left
        | obj _ _ keys each =>
          intro key
          have present := keys key
          cases left : lookup key fields with
          | none =>
            rw [left] at present
            have absent : lookup key others = none := by simpa using present.symm
            rw [absent]
          | some v =>
            rw [left] at present
            obtain ⟨w, right⟩ := Option.isSome_iff_exists.mp present.symm
            rw [right, Option.map_some, Option.map_some,
              (inner key v w left right).mpr (each key v w left right)]
    | _ =>
      constructor
      · intro same
        cases same
      · intro agree
        cases agree with
        | scalar _ _ left => exact absurd trivial left

end DecAustrum.Python.Json

namespace DecAustrum

open Python Json

variable {platform : Platform}

/-! ## Texts -/

theorem canonicalJson_eq_iff (floats : platform.floats.Lawful) {v w : Json} {s : Str}
    (unique : v.uniqueKeys = true) (unique' : w.uniqueKeys = true)
    (written : canonicalJson platform v = .ok s) :
    canonicalJson platform w = .ok s ↔ EqualUpToOrder v w := by
  rw [← sortKeys_eq_iff v w unique unique']
  rw [canonicalJson, orRaise_eq_ok] at written ⊢
  constructor
  · intro same
    exact dumps_inj platform.floats .canonical floats Style.canonical_lawful v w s (readable_raw v)
      (readable_raw w) written same
  · intro same
    rw [dumps_eq_some_iff] at written ⊢
    rw [← encodable_sortKeys, ← same, encodable_sortKeys]
    exact written

/-! ## Digests -/

theorem digest_congr {v w : Json} (same : v.sortKeys = w.sortKeys) {hash : Str}
    (hashed : digest platform v = .ok hash) : digest platform w = .ok hash := by
  rw [digest_eq_ok_iff] at hashed ⊢
  rwa [← encodable_sortKeys, ← same, encodable_sortKeys]

theorem digest_eq_ok_iff_sorted (floats : platform.floats.Lawful)
    (collisionFree : ∀ x y, platform.sha256 x = platform.sha256 y → x = y) {v w : Json} {hash : Str}
    (hashed : digest platform v = .ok hash) :
    digest platform w = .ok hash ↔ v.sortKeys = w.sortKeys := by
  constructor
  · intro again
    exact collisionFree_of_injective platform floats collisionFree v w hash hashed again
  · intro same
    exact digest_congr same hashed

/-! ## Requests -/

theorem NonEmptyString.validate_eq_some {s : Str} {t : NonEmptyString}
    (valid : NonEmptyString.validate s = some t) : t.text = strip s := by
  unfold NonEmptyString.validate at valid
  split at valid
  · cases valid
    rfl
  · cases valid

theorem StrictObject.validate_eq_some {v : Json} {c : StrictObject}
    (valid : StrictObject.validate v = some c) : c.json = v.sortKeys ∧ v.uniqueKeys = true := by
  unfold StrictObject.validate at valid
  split at valid
  · split at valid
    next fields checked =>
      cases valid
      refine ⟨?_, checked.1⟩
      change Json.obj ((sortKeysFields (sortKeysFields fields)).insertionSort keyLe) = _
      rw [sortKeysFields_sortKeysFields]
      rfl
    next => cases valid
  · cases valid

theorem AuthorizationRequest.of_eq_some {agent action : Str} {context : Json} {r : AuthorizationRequest}
    (made : AuthorizationRequest.of agent action context = some r) :
    r.agent.text = strip agent ∧ r.action.text = strip action ∧ r.context.json = context.sortKeys ∧
      context.uniqueKeys = true := by
  simp only [AuthorizationRequest.of, Option.bind_eq_bind, Option.bind_eq_some_iff, Option.pure_def,
    Option.some.injEq] at made
  obtain ⟨s, agentValid, t, actionValid, c, contextValid, rfl⟩ := made
  exact ⟨NonEmptyString.validate_eq_some agentValid, NonEmptyString.validate_eq_some actionValid,
    StrictObject.validate_eq_some contextValid⟩

theorem AuthorizationRequest.dumped_sorted_iff (r q : AuthorizationRequest) :
    r.dumped.sortKeys = q.dumped.sortKeys ↔ r.agent.text = q.agent.text ∧
      r.action.text = q.action.text ∧ r.context.dumped = q.context.dumped := by
  have unique (r : AuthorizationRequest) : r.dumped.uniqueKeys = true := by
    refine DecAustrum.uniqueKeys_obj _ (by simp only [List.map_cons, List.map_nil]; decide) ?_
    simp only [List.mem_cons, List.not_mem_nil, or_false, forall_eq_or_imp, forall_eq]
    exact ⟨rfl, rfl, r.context.dumped_unique⟩
  constructor
  · intro same
    have member (key : Str) := get?_of_sortKeys_eq key r.dumped q.dumped (unique r) (unique q) same
    have agent : some (Json.str r.agent.text) = some (.str q.agent.text) := member "agent"
    have action : some (Json.str r.action.text) = some (.str q.action.text) := member "action"
    have context : some r.context.dumped.sortKeys = some q.context.dumped.sortKeys :=
      member "context"
    rw [Option.some.injEq, Json.str.injEq] at agent action
    rw [Option.some.injEq, r.context.dumped_sorted, q.context.dumped_sorted] at context
    exact ⟨agent, action, context⟩
  · rintro ⟨agent, action, context⟩
    rw [AuthorizationRequest.dumped, AuthorizationRequest.dumped, agent, action, context]

theorem fingerprint_eq_ok (r : AuthorizationRequest) (hash : Str) :
    buildRequestFingerprint platform r = .ok hash ↔
      r.context.Dumpable ∧ digest platform r.dumped = .ok hash := by
  refine (bind_eq_ok r.dump (digest platform) hash).trans ?_
  simp only [r.dump_eq_ok]
  constructor
  · rintro ⟨_, ⟨dumpable, rfl⟩, hashed⟩
    exact ⟨dumpable, hashed⟩
  · rintro ⟨dumpable, hashed⟩
    exact ⟨_, ⟨dumpable, rfl⟩, hashed⟩

/-- Equal contexts can be dumped together. -/
theorem StrictObject.dumpable_of_json_eq {c d : StrictObject} (same : c.json = d.json)
    (dumpable : c.Dumpable) : d.Dumpable := by
  rw [← d.canonical_dumpable, ← (c.canonical_eq_iff d).mpr same]
  exact c.canonical_dumpable.mpr dumpable

/-- Rewriting the keys that have no UTF-8 form makes two contexts equal just when they are. -/
def WrittenApart (c d : StrictObject) : Prop :=
  d.Dumpable → (c.dumped = d.dumped ↔ c.json = d.json)

/-- Keys that are written as they are tell contexts apart. -/
theorem writtenApart_of_scalarKeys {c d : StrictObject} (left : c.ScalarKeys)
    (right : d.ScalarKeys) : WrittenApart c d := by
  intro _
  rw [c.dumped_eq_json_iff.mpr left, d.dumped_eq_json_iff.mpr right]

/-- What the two fingerprints of requests made of these arguments have to do with each other. -/
theorem fingerprint_eq_iff (floats : platform.floats.Lawful)
    (collisionFree : ∀ x y, platform.sha256 x = platform.sha256 y → x = y)
    {agent agent' action action' : Str} {context context' : Json} {r q : AuthorizationRequest} {hash : Str}
    (made : AuthorizationRequest.of agent action context = some r)
    (made' : AuthorizationRequest.of agent' action' context' = some q)
    (fingerprinted : buildRequestFingerprint platform r = .ok hash) :
    (buildRequestFingerprint platform q = .ok hash ↔
      strip agent = strip agent' ∧ strip action = strip action' ∧ EqualUpToOrder context context') ↔
    (strip agent = strip agent' → strip action = strip action' →
      WrittenApart r.context q.context) := by
  obtain ⟨agents, actions, contexts, unique⟩ := AuthorizationRequest.of_eq_some made
  obtain ⟨agents', actions', contexts', unique'⟩ := AuthorizationRequest.of_eq_some made'
  obtain ⟨dumpable, hashed⟩ := (fingerprint_eq_ok r hash).mp fingerprinted
  have dumpable' := StrictObject.dumpable_of_json_eq (c := r.context) (d := q.context)
  rw [fingerprint_eq_ok, digest_eq_ok_iff_sorted floats collisionFree hashed,
    AuthorizationRequest.dumped_sorted_iff, agents, agents', actions, actions',
    ← sortKeys_eq_iff context context' unique unique', ← contexts, ← contexts', WrittenApart]
  constructor
  · intro same sameAgent sameAction able
    constructor
    · intro written
      exact (same.mp ⟨able, sameAgent, sameAction, written⟩).2.2
    · intro equal
      exact (same.mpr ⟨sameAgent, sameAction, equal⟩).2.2.2
  · intro apart
    constructor
    · rintro ⟨able, sameAgent, sameAction, written⟩
      exact ⟨sameAgent, sameAction, (apart sameAgent sameAction able).mp written⟩
    · rintro ⟨sameAgent, sameAction, equal⟩
      have able := dumpable' equal dumpable
      exact ⟨able, sameAgent, sameAction, (apart sameAgent sameAction able).mpr equal⟩

/-! ## Payloads -/

/-- Two payloads are equal when the decisions are, their contexts as they are written. -/
theorem payload_sorted_iff (lawful : platform.Lawful) (a b : AuthorizationResponse) :
    a.payload.sortKeys = b.payload.sortKeys ↔
      { a with context := b.context } = b ∧ a.context.dumped = b.context.dumped := by
  constructor
  · intro same
    -- the reader of the model recovers every field from the sorted payload
    have left := AuthorizationResponse.validate_dumped lawful a
    have right := AuthorizationResponse.validate_dumped lawful b
    rw [a.payload_eq_dumped, b.payload_eq_dumped] at same
    rw [same, right, Option.some.injEq] at left
    have context : a.context.written = b.context.written :=
      congrArg AuthorizationResponse.context left.symm
    refine ⟨?_, ?_⟩
    · have fields := congrArg (fun d => { d with context := b.context }) left.symm
      exact fields
    · rw [a.context.dumped_eq, b.context.dumped_eq]
      exact congrArg (fun c => Json.obj (StrictObject.fields c)) context
  · rintro ⟨fields, context⟩
    have payload : a.payload = ({ a with context := b.context } : AuthorizationResponse).payload := by
      simp only [AuthorizationResponse.payload, context]
    rw [payload, fields]

theorem AuthorizationResponse.canonical_eq_iff (a b : AuthorizationResponse) :
    a.canonical = b.canonical ↔ { a with context := b.context } = b ∧ a.context.json = b.context.json := by
  rw [← StrictObject.canonical_eq_iff]
  constructor
  · intro same
    refine ⟨?_, congrArg AuthorizationResponse.context same⟩
    exact congrArg (fun d => { d with context := b.context }) same
  · rintro ⟨fields, context⟩
    have canonical : a.canonical = ({ a with context := b.context } : AuthorizationResponse).canonical := by
      simp only [AuthorizationResponse.canonical, context]
    rw [canonical, fields]

theorem payloadHash_eq_iff (lawful : platform.Lawful)
    (collisionFree : ∀ x y, platform.sha256 x = platform.sha256 y → x = y)
    {a b : AuthorizationResponse} {hash : Str}
    (hashed : calculateAuthorizationPayloadHash platform a = .ok hash) :
    (calculateAuthorizationPayloadHash platform b = .ok hash ↔ a.canonical = b.canonical) ↔
      ({ a with context := b.context } = b → WrittenApart a.context b.context) := by
  obtain ⟨dumpable, hashed⟩ := (payloadHash_eq_ok platform a hash).mp hashed
  have fieldsDumpable (fields : { a with context := b.context } = b)
      (able : b.context.Dumpable) : b.Dumpable := by
    rw [← fields]
    exact ⟨dumpable.evidence, able, dumpable.trace⟩
  rw [payloadHash_eq_ok, digest_eq_ok_iff_sorted lawful.floats collisionFree hashed,
    payload_sorted_iff lawful, a.canonical_eq_iff, WrittenApart]
  constructor
  · intro same fields able
    constructor
    · intro written
      exact (same.mp ⟨fieldsDumpable fields able, fields, written⟩).2
    · intro equal
      exact (same.mpr ⟨fields, equal⟩).2.2
  · intro apart
    constructor
    · rintro ⟨able, fields, written⟩
      exact ⟨fields, (apart fields able.context).mp written⟩
    · rintro ⟨fields, equal⟩
      have able := StrictObject.dumpable_of_json_eq equal dumpable.context
      exact ⟨fieldsDumpable fields able, fields, (apart fields able).mpr equal⟩

/-! ## Injectivity -/

/-- The texts tell values apart. The digests tell requests and decisions apart just where their
contexts are written apart. -/
theorem canonical_forms_injective (platform : Platform) (lawful : platform.Lawful)
    (collisionFree : ∀ x y, platform.sha256 x = platform.sha256 y → x = y) :
    (∀ (v w : Json) (s : Str), v.uniqueKeys = true → w.uniqueKeys = true →
      canonicalJson platform v = .ok s → (canonicalJson platform w = .ok s ↔ EqualUpToOrder v w)) ∧
    (∀ (agent agent' action action' : Str) (context context' : Json) (r q : AuthorizationRequest)
      (hash : Str), AuthorizationRequest.of agent action context = some r →
      AuthorizationRequest.of agent' action' context' = some q →
      buildRequestFingerprint platform r = .ok hash →
      ((buildRequestFingerprint platform q = .ok hash ↔
        strip agent = strip agent' ∧ strip action = strip action' ∧ EqualUpToOrder context context') ↔
      (strip agent = strip agent' → strip action = strip action' →
        WrittenApart r.context q.context))) ∧
    ∀ (a b : AuthorizationResponse) (hash : Str),
      calculateAuthorizationPayloadHash platform a = .ok hash →
      ((calculateAuthorizationPayloadHash platform b = .ok hash ↔ a.canonical = b.canonical) ↔
        ({ a with context := b.context } = b → WrittenApart a.context b.context)) := by
  refine ⟨?_, ?_, ?_⟩
  · intro v w s unique unique' written
    exact canonicalJson_eq_iff lawful.floats unique unique' written
  · intro agent agent' action action' context context' r q hash made made' fingerprinted
    exact fingerprint_eq_iff lawful.floats collisionFree made made' fingerprinted
  · intro a b hash hashed
    exact payloadHash_eq_iff lawful collisionFree hashed

def paddedRequest : AuthorizationRequest :=
  (AuthorizationRequest.of " bot\n" "pay" (.obj [("a", .int 1), ("b", .null)])).get (by decide +kernel)

def reorderedRequest : AuthorizationRequest :=
  (AuthorizationRequest.of "bot" "pay" (.obj [("b", .null), ("a", .int 1)])).get (by decide +kernel)

theorem reordered_equal :
    EqualUpToOrder (.obj [("a", .int 1), ("b", .null)]) (.obj [("b", .null), ("a", .int 1)]) := by
  rw [← sortKeys_eq_iff _ _ (by decide +kernel) (by decide +kernel)]
  rfl

/-- One text and one fingerprint of two orders of keys, two digests of two decisions. -/
theorem canonical_forms_injective_sample :
    canonicalJson samplePlatform (.obj [("b", .null), ("a", .int 1)]) =
        .ok "\x7b\"a\":1,\"b\":null\x7d" ∧
      (∀ hash, buildRequestFingerprint samplePlatform paddedRequest = .ok hash →
        buildRequestFingerprint samplePlatform reorderedRequest = .ok hash) ∧
      calculateAuthorizationPayloadHash samplePlatform sampleRefund ≠ .ok samplePayPayload := by
  obtain ⟨texts, fingerprints, payloads⟩ := canonical_forms_injective samplePlatform
    (referencePlatform_lawful _) (tableSha256_inj sampleTable (by decide +kernel) (by decide +kernel))
  refine ⟨?_, ?_, ?_⟩
  · refine (texts (.obj [("a", .int 1), ("b", .null)]) _ _ (by decide +kernel) (by decide +kernel) ?_).mpr
      reordered_equal
    rfl
  · intro hash fingerprinted
    refine ((fingerprints " bot\n" "bot" "pay" "pay" (.obj [("a", .int 1), ("b", .null)])
      (.obj [("b", .null), ("a", .int 1)]) paddedRequest reorderedRequest hash (Option.some_get _).symm
      (Option.some_get _).symm fingerprinted).mpr fun _ _ => ?_).mpr
        ⟨by decide +kernel, rfl, reordered_equal⟩
    exact writtenApart_of_scalarKeys (by decide +kernel) (by decide +kernel)
  · intro same
    have pay : calculateAuthorizationPayloadHash samplePlatform samplePay = .ok samplePayPayload := by
      decide +kernel
    have equal := ((payloads samplePay sampleRefund samplePayPayload pay).mpr fun _ =>
      writtenApart_of_scalarKeys (by decide +kernel) (by decide +kernel)).mp same
    exact absurd (congrArg AuthorizationResponse.decisionId equal) (by decide)

/-- A key that is a lone surrogate, and the key it is written as. -/
def loneKeyRequest : AuthorizationRequest :=
  (AuthorizationRequest.of "bot" "pay" (.obj [([0xd800], .int 1)])).get (by decide +kernel)

def replacedKeyRequest : AuthorizationRequest :=
  (AuthorizationRequest.of "bot" "pay" (.obj [([0xfffd, 0xfffd, 0xfffd], .int 1)])).get
    (by decide +kernel)

/-- Two requests with unequal contexts have one fingerprint. -/
theorem lone_key_collision : (∀ x y, samplePlatform.sha256 x = samplePlatform.sha256 y → x = y) ∧
    (buildRequestFingerprint samplePlatform loneKeyRequest).isOk = true ∧
      buildRequestFingerprint samplePlatform replacedKeyRequest =
        buildRequestFingerprint samplePlatform loneKeyRequest ∧
      ¬ EqualUpToOrder (.obj [([0xd800], .int 1)]) (.obj [([0xfffd, 0xfffd, 0xfffd], .int 1)]) := by
  refine ⟨tableSha256_inj sampleTable (by decide +kernel) (by decide +kernel), by decide +kernel,
    by decide +kernel, ?_⟩
  rw [← sortKeys_eq_iff _ _ (by decide +kernel) (by decide +kernel)]
  intro same
  exact absurd (congrArg Json.keys same) (by decide +kernel)

end DecAustrum
