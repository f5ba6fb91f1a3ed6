import DecAustrum.EvidenceStore.AuthorityUnits
import DecAustrum.Reference
import DecAustrum.Storage.ApiKeys

/-!
# Authentication

What a presented key gives while keys are created and revoked and projects change. The row that was
selected is looked at again after the hash is computed, and rows of keys only ever gain a
revocation.
-/
namespace DecAustrum

open Python Transaction Table
open Block (keeps_of_exec Composed)

/-! ## The rows of keys -/

/-- The primary key and the two unique indexes of `project_api_keys`. -/
structure Database.UniqueKeys (db : Database) : Prop where
  ids : UniqueKey (fun k : ProjectApiKeyRecord => some k.apiKeyId) db.apiKeys
  hashes : UniqueKey (fun k : ProjectApiKeyRecord => some k.keyHash) db.apiKeys
  prefixes : UniqueKey (fun k : ProjectApiKeyRecord => some k.keyPrefix) db.apiKeys

/-- The same row later: at most a revocation is new, and one that was there is kept. -/
structure ProjectApiKeyRecord.Continues (key later : ProjectApiKeyRecord) : Prop where
  row : later = { key with revokedAt := later.revokedAt }
  revocation : key.revokedAt ≠ none → later.revokedAt = key.revokedAt

/-- Every row of a key is still there. -/
def KeysContinue (s t : Database) : Prop := ∀ key ∈ s.apiKeys, ∃ later ∈ t.apiKeys, key.Continues later

namespace KeysContinue

theorem of_eq {s t : Database} (same : t.apiKeys = s.apiKeys) : KeysContinue s t :=
  fun key stored => ⟨key, same ▸ stored, rfl, fun _ => rfl⟩

theorem refl (s : Database) : KeysContinue s s := of_eq rfl

theorem trans (s t u : Database) (first : KeysContinue s t) (second : KeysContinue t u) :
    KeysContinue s u := by
  intro key stored
  obtain ⟨middle, inT, toMiddle⟩ := first key stored
  obtain ⟨later, inU, toLater⟩ := second middle inT
  refine ⟨later, inU, ?_, ?_⟩
  · have row := toLater.row
    rw [toMiddle.row] at row
    exact row
  · intro revoked
    have kept := toMiddle.revocation revoked
    rw [← kept]
    exact toLater.revocation (kept ▸ revoked)

end KeysContinue

/-! ## The units -/

theorem insertKey_keeps (apiKey : ProjectApiKeyRecord) :
    (ProjectApiKeyRepository.insert apiKey).Keeps Database.UniqueKeys KeysContinue := by
  refine keeps_of_exec trivial fun draws s b rest t unique _ ran => ?_
  rw [ProjectApiKeyRepository.insert, exec_insertRow] at ran
  split at ran
  case isFalse => cases ran
  next accepted =>
  cases ran
  have fresh : ∀ other ∈ s.apiKeys, other.apiKeyId ≠ apiKey.apiKeyId ∧
      other.keyHash ≠ apiKey.keyHash ∧ other.keyPrefix ≠ apiKey.keyPrefix := by
    intro other stored
    simp only [Bool.and_eq_true, Bool.not_eq_true', List.any_eq_false, Bool.or_eq_true,
      decide_eq_true_eq, not_or] at accepted
    have apart := accepted.1 other stored
    exact ⟨apart.1.1, apart.1.2, apart.2⟩
  have appended {κ : Type} (column : ProjectApiKeyRecord → κ)
      (held : UniqueKey (fun k => some (column k)) s.apiKeys)
      (new : ∀ other ∈ s.apiKeys, column other ≠ column apiKey) :
      UniqueKey (fun k => some (column k)) (s.apiKeys ++ [apiKey]) := by
    rw [uniqueKey_append]
    refine ⟨held, fun other stored k same taken => new other stored ?_⟩
    exact Option.some.inj (taken.trans same.symm)
  refine ⟨⟨?_, ?_, ?_⟩, ?_⟩
  · exact appended _ unique.ids fun other stored => (fresh other stored).1
  · exact appended _ unique.hashes fun other stored => (fresh other stored).2.1
  · exact appended _ unique.prefixes fun other stored => (fresh other stored).2.2
  · exact fun key stored => ⟨key, List.mem_append_left _ stored, rfl, fun _ => rfl⟩

theorem revokeKey_keeps (projectId apiKeyId : Uuid) (revokedAt : UtcDatetime) :
    (ProjectApiKeyRepository.revokeWithConnection projectId apiKeyId revokedAt).Keeps
      Database.UniqueKeys KeysContinue := by
  refine keeps_of_exec trivial fun draws s b rest t unique _ ran => ?_
  rw [ProjectApiKeyRepository.revokeWithConnection, exec_updateRows_bind] at ran
  cases ran
  have column {κ : Type} (f : ProjectApiKeyRecord → κ)
      (same : ∀ key, f (ProjectApiKeyRepository.revoked revokedAt key) = f key)
      (held : UniqueKey (fun k => some (f k)) s.apiKeys) :
      UniqueKey (fun k => some (f k)) (updateWhere (fun key => key.projectId = projectId &&
        key.apiKeyId = apiKeyId) (ProjectApiKeyRepository.revoked revokedAt) s.apiKeys) := by
    refine (uniqueKey_updateWhere ?_).mpr held
    exact fun row _ _ => congrArg some (same row)
  refine ⟨⟨?_, ?_, ?_⟩, ?_⟩
  · exact column _ (fun _ => rfl) unique.ids
  · exact column _ (fun _ => rfl) unique.hashes
  · exact column _ (fun _ => rfl) unique.prefixes
  · intro key stored
    refine ⟨_, List.mem_map_of_mem stored, ?_⟩
    split
    · refine ⟨rfl, fun revoked => ?_⟩
      -- `COALESCE` keeps the first revocation
      obtain ⟨first, isFirst⟩ := Option.ne_none_iff_exists'.mp revoked
      rw [ProjectApiKeyRepository.revoked, isFirst]
      rfl
    · exact ⟨rfl, fun _ => rfl⟩

theorem StoreUnit.keeps_keys {platform : Platform} {scope : StoreScope} {β : Type} {x : Body β}
    (unit : StoreUnit platform scope β x) : x.Keeps Database.UniqueKeys KeysContinue := by
  have tables (s t : Database) (same : t.apiKeys = s.apiKeys) (unique : s.UniqueKeys) :
      t.UniqueKeys ∧ KeysContinue s t := by
    refine ⟨⟨?_, ?_, ?_⟩, .of_eq same⟩
    · exact same ▸ unique.ids
    · exact same ▸ unique.hashes
    · exact same ▸ unique.prefixes
  refine unit.keeps_guarded (fun s t left => tables s t (congrArg Prod.snd left))
    (fun writes => keeps_of_leaves tables ?_) (fun changes => keeps_of_leaves tables ?_) ?_
  · exact writes.leaves (fun _ _ => rfl) (fun _ _ => rfl) fun _ _ => rfl
  · exact changes.leaves fun _ _ => rfl
  · intro γ y writes
    cases writes with
    | insertKey apiKey => exact insertKey_keeps apiKey
    | revokeKey projectId apiKeyId revokedAt => exact revokeKey_keeps projectId apiKeyId revokedAt

/-! ## Calls -/

section

variable (platform : Platform) (scrypt : Bytes → Bytes → Bytes)

/-- A call that writes, or one that authenticates. -/
inductive KeyCall where
  | write (operation : Operation)
  | authenticate (apiKey : Str)

def KeyCall.session {ω : Type} :
    KeyCall → Session Database Uuid ω StoreExc (Option ProjectApiKeyPrincipal)
  | .write operation => do
    let _ ← operation.session platform
    return none
  | .authenticate apiKey => ProjectApiKeyRepository.getActivePrincipalByApiKey scrypt apiKey

/-- The row `k` stands for a principal at the second read. -/
structure Vouches (apiKey : Str) (principal : ProjectApiKeyPrincipal) (first second : Database)
    (k : ProjectApiKeyRecord) : Prop where
  stored : k ∈ second.apiKeys
  selected : ∃ row ∈ first.apiKeys, row.apiKeyId = k.apiKeyId ∧ row.keyHash = k.keyHash ∧
    row.revokedAt = none
  valid : k.revokedAt = none
  active : ∃ p ∈ second.projects, p.projectId = k.projectId ∧ p.status = .active
  selector : getApiKeyPrefix apiKey = .ok k.keyPrefix
  verified : verifyApiKey scrypt apiKey k.keyHash = .ok true
  apiKeyId : principal.apiKeyId = k.apiKeyId
  role : principal.role = k.role
  project : principal.project.projectId = k.projectId

end

variable {platform : Platform} {scrypt : Bytes → Bytes → Bytes}

/-- The two reads of a call see one row. -/
theorem vouches_of_reads {apiKey keyPrefix : Str} {first second : Database}
    {key : ProjectApiKeyRecord} {project : Project} (unique : second.UniqueKeys)
    (continued : KeysContinue first second) (selector : getApiKeyPrefix apiKey = .ok keyPrefix)
    (selected : first.activeKey keyPrefix = some (key, project))
    (verified : verifyApiKey scrypt apiKey key.keyHash = .ok true)
    (active : second.stillActive key.apiKeyId key.keyHash = true) :
    ∃ k, Vouches scrypt apiKey ⟨key.apiKeyId, key.role, project⟩ first second k := by
  obtain ⟨stored, isPrefix, valid, owner⟩ := Database.activeKey_eq_some selected
  obtain ⟨k, inSecond, isId, isHash, unrevoked, isActive⟩ := (Database.stillActive_iff _ _).mp active
  obtain ⟨later, inSecond', continues⟩ := continued key stored
  have laterId : later.apiKeyId = key.apiKeyId := by rw [continues.row]
  obtain rfl : k = later :=
    unique.ids.eq inSecond inSecond' (congrArg some isId) (congrArg some laterId)
  have row := continues.row
  refine ⟨k, inSecond, ⟨key, stored, isId.symm, isHash.symm, valid⟩, unrevoked, isActive, ?_, ?_,
    isId.symm, ?_, ?_⟩
  · rw [selector, ← isPrefix, row]
  · rwa [isHash]
  · rw [row]
  · rw [row]
    exact owner.symm

section Runs

variable {C ω : Type} [DecidableEq C]

abbrev keyContract : Contract C Database :=
  invariantContract Database.UniqueKeys KeysContinue KeysContinue.refl KeysContinue.trans anyOpening

/-- What a call that authenticates ends with. -/
def AuthenticatedBy (scrypt : Bytes → Bytes → Bytes) (call : KeyCall)
    (result : Except StoreExc (Option ProjectApiKeyPrincipal)) (history : List (Seen Database)) :
    Prop :=
  ∀ apiKey principal, call = .authenticate apiKey → result = .ok (some principal) →
    ∃ first second k, history = [.read first, .read second] ∧ second.UniqueKeys ∧
      Vouches scrypt apiKey principal first second k

omit [DecidableEq C] in
theorem authenticate_safe (c : C) (apiKey : Str) :
    (ProjectApiKeyRepository.getActivePrincipalByApiKey (ω := ω) scrypt apiKey).Safe keyContract c
      (AuthenticatedBy scrypt (.authenticate apiKey)) [] := by
  have nothing (history : List (Seen Database)) :
      AuthenticatedBy scrypt (.authenticate apiKey) (.ok none) history := by
    rintro _ principal - ⟨⟩
  unfold ProjectApiKeyRepository.getActivePrincipalByApiKey
  cases selector : getApiKeyPrefix apiKey with
  | error exc => exact nothing _
  | ok keyPrefix =>
    refine Session.safe_query_bind fun first _ _ => ?_
    cases selected : first.activeKey keyPrefix with
    | none => exact nothing _
    | some row =>
      obtain ⟨key, project⟩ := row
      dsimp only
      cases verified : verifyApiKey scrypt apiKey key.keyHash with
      | error exc =>
        rintro _ principal - ⟨⟩
      | ok matches_ =>
        cases matches_ with
        | false => exact nothing _
        | true =>
          refine Session.safe_query_bind fun second unique knows => ?_
          cases active : second.stillActive key.apiKeyId key.keyHash with
          | false => exact nothing _
          | true =>
            have continued : KeysContinue first second :=
              knows (.read first) (by simp)
            obtain ⟨k, vouches⟩ := vouches_of_reads unique continued selector selected verified active
            rintro _ principal ⟨⟩ ⟨⟩
            exact ⟨first, second, k, rfl, unique, vouches⟩

omit [DecidableEq C] in
theorem KeyCall.safe (c : C) (call : KeyCall) :
    (call.session platform scrypt : Session Database Uuid ω StoreExc _).Safe keyContract c
      (AuthenticatedBy scrypt call) [] := by
  cases call with
  | write operation =>
    have bodies : (KeyCall.session platform scrypt (.write operation) :
        Session Database Uuid ω StoreExc _).Bodies fun _ body =>
          body.KeepsFrom Database.UniqueKeys KeysContinue fun _ => True := by
      refine Session.Bodies.bind ((Operation.bodies platform operation).mono ?_) fun _ => trivial
      intro β body composed
      exact composed.keeps KeysContinue.refl KeysContinue.trans fun _ _ unit => unit.keeps_keys
    have safe := Session.safe_of_bodies KeysContinue.refl KeysContinue.trans anyOpening c
      (fun _ _ _ => trivial) _ bodies []
    refine safe.mono ?_
    rintro r h - apiKey principal ⟨⟩
  | authenticate apiKey => exact authenticate_safe c apiKey

/-- A call that authenticates returns a principal only for a row that its second read finds, and
no revocation committed before that read is missed. -/
theorem authentication_respects_revocation (platform : Platform) (scrypt : Bytes → Bytes → Bytes)
    (start : Database) (unique : start.UniqueKeys) (calls : C → KeyCall)
    (w : World C Database Uuid ω StoreExc (Option ProjectApiKeyPrincipal))
    (reachable : Reachable anyOpening start (fun c => (calls c).session platform scrypt) w) :
    (∀ c apiKey principal, calls c = .authenticate apiKey →
      w.session c = some (.ret (some principal)) →
      ∃ first second k, w.history c = [.read first, .read second] ∧
        Vouches scrypt apiKey principal first second k) ∧
    ∀ later, Relation.ReflTransGen (Step anyOpening) w later →
      ∀ key ∈ w.committed.apiKeys, key.revokedAt ≠ none →
      ∀ c apiKey principal, calls c = .authenticate apiKey → (reads (w.history c)).length < 2 →
        later.session c = some (.ret (some principal)) →
        principal.apiKeyId ≠ key.apiKeyId ∧ getApiKeyPrefix apiKey ≠ .ok key.keyPrefix := by
  have holds := (keyContract (C := C)).sound start unique (fun c => (calls c).session platform scrypt)
    (fun c => KeyCall.safe c (calls c)) w reachable
  have returned (v : World C Database Uuid ω StoreExc (Option ProjectApiKeyPrincipal))
      (holds : (keyContract (C := C)).Holds (fun c => AuthenticatedBy scrypt (calls c)) start v)
      (c : C) (principal : ProjectApiKeyPrincipal)
      (ended : v.session c = some (.ret (some principal))) :
      AuthenticatedBy scrypt (calls c) (.ok (some principal)) (v.history c) := by
    refine holds.safe c _ ended fun s writing => ?_
    obtain ⟨-, β, body, next, found, -⟩ := holds.inside c s writing
    rw [ended] at found
    cases found
  constructor
  · intro c apiKey principal call ended
    obtain ⟨first, second, k, history, -, vouches⟩ :=
      returned w holds c principal ended apiKey principal call rfl
    exact ⟨first, second, k, history, vouches⟩
  · intro later run key stored revoked c apiKey principal call unfinished ended
    obtain ⟨holds', -, grown⟩ := holds.run_later run
    obtain ⟨first, second, k, history, unique', vouches⟩ :=
      returned later holds' c principal ended apiKey principal call rfl
    obtain ⟨new, appended, states⟩ := grown c
    -- the second read is not among those made before the revocation was seen committed
    have isNew : Seen.read second ∈ new := by
      rw [history] at appended
      cases earlier : w.history c with
      | nil =>
        rw [earlier, List.nil_append] at appended
        rw [← appended]
        simp
      | cons event rest =>
        rw [earlier, List.cons_append, List.cons.injEq] at appended
        obtain ⟨rfl, appended⟩ := appended
        cases rest with
        | nil =>
          rw [List.nil_append] at appended
          rw [← appended]
          simp
        | cons event rest =>
          rw [List.cons_append, List.cons.injEq] at appended
          obtain ⟨rfl, -⟩ := appended
          rw [earlier] at unfinished
          exact absurd unfinished (by simp [reads])
    have continued : KeysContinue w.committed second := states _ isNew
    obtain ⟨row, inSecond, continues⟩ := continued key stored
    have stays : row.revokedAt ≠ none := by rwa [continues.revocation revoked]
    have rowId : row.apiKeyId = key.apiKeyId := by rw [continues.row]
    have rowPrefix : row.keyPrefix = key.keyPrefix := by rw [continues.row]
    have apart : k ≠ row := fun same => stays (same ▸ vouches.valid)
    constructor
    · intro same
      rw [vouches.apiKeyId, ← rowId] at same
      exact apart (unique'.ids.eq vouches.stored inSecond (congrArg some same) rfl)
    · intro same
      rw [vouches.selector, Except.ok.injEq, ← rowPrefix] at same
      exact apart (unique'.prefixes.eq vouches.stored inSecond (congrArg some same) rfl)

end Runs

/-! ## A revocation between the two reads -/

def samplePresentedKey : Str := ("dak_0123456789abcdef." : Str) ++ List.replicate 43 0x41

def sampleVerifier : Str :=
  "scrypt$16384$8$5$000102030405060708090a0b0c0d0e0f$" ++
    "c4a5217b2f0407d3016ae3f2c4940f01eaf548e37fc728d302040c2301db1f06"

/-- The derived key of one key and one salt. -/
def sampleScrypt (key salt : Bytes) : Bytes :=
  if encodeUtf8 samplePresentedKey = some key ∧ salt = (List.range 16).map UInt8.ofNat then
    [196, 165, 33, 123, 47, 4, 7, 211, 1, 106, 227, 242, 196, 148, 15, 1, 234, 245, 72, 227, 127,
      199, 40, 211, 2, 4, 12, 35, 1, 219, 31, 6]
  else []

def sampleKeyTime : UtcDatetime :=
  ⟨⟨2025, 3, 4, 5, 6, 7, 0, some 0, by decide, by decide, utcOffset_valid⟩, rfl⟩

def sampleKeyRow : ProjectApiKeyRecord :=
  { apiKeyId := ⟨7⟩, projectId := ⟨1⟩, keyPrefix := "dak_0123456789abcdef", role := .reviewer,
    createdAt := sampleKeyTime, revokedAt := none, keyHash := sampleVerifier }

def sampleKeys : Database :=
  { Database.empty with
    projects := [⟨⟨1⟩, [0x50], .active, sampleKeyTime, sampleKeyTime⟩], apiKeys := [sampleKeyRow] }

def sampleKeyCalls : Fin 2 → KeyCall
  | 0 => .authenticate samplePresentedKey
  | 1 => .write (.revokeProjectApiKey ⟨1⟩ ⟨7⟩ sampleKeyTime none)

def sampleKeyRun (clients : List (Fin 2)) :
    World (Fin 2) Database Uuid Unit StoreExc (Option ProjectApiKeyPrincipal) :=
  (World.start sampleKeys fun c => (sampleKeyCalls c).session (referencePlatform fun _ => [])
    sampleScrypt).play (turns () clients)

/-- The result of a client that has returned. -/
def returned {C σ ι ω ε α : Type} (w : World C σ ι ω ε α) (c : C) : Option α :=
  match w.session c with
  | some (.ret a) => some a
  | _ => none

theorem returned_eq {C σ ι ω ε α : Type} {w : World C σ ι ω ε α} {c : C} {a : α}
    (done : returned w c = some a) : w.session c = some (.ret a) := by
  unfold returned at done
  split at done
  next b ended =>
    cases done
    exact ended
  next => cases done

/-- Alone the key is accepted; revoked between the two reads it is not. -/
theorem authentication_respects_revocation_sample :
    returned (sampleKeyRun [0, 0, 0, 0, 1, 1, 1, 1]) 0 =
        some (some ⟨⟨7⟩, .reviewer, ⟨⟨1⟩, [0x50], .active, sampleKeyTime, sampleKeyTime⟩⟩) ∧
      returned (sampleKeyRun [0, 0, 1, 1, 1, 1, 0, 0]) 0 = some none ∧
      ∃ first second k, (sampleKeyRun [0, 0, 0, 0, 1, 1, 1, 1]).history 0 =
          [.read first, .read second] ∧
        Vouches sampleScrypt samplePresentedKey
          ⟨⟨7⟩, .reviewer, ⟨⟨1⟩, [0x50], .active, sampleKeyTime, sampleKeyTime⟩⟩ first second k := by
  have accepted : returned (sampleKeyRun [0, 0, 0, 0, 1, 1, 1, 1]) 0 =
      some (some ⟨⟨7⟩, .reviewer, ⟨⟨1⟩, [0x50], .active, sampleKeyTime, sampleKeyTime⟩⟩) := by
    decide +kernel
  have reachable (clients : List (Fin 2)) : Reachable anyOpening sampleKeys
      (fun c => (sampleKeyCalls c).session (referencePlatform fun _ => []) sampleScrypt)
      (sampleKeyRun clients) := play_reachable _ _ _
  have unique : sampleKeys.UniqueKeys :=
    ⟨List.nodup_singleton _, List.nodup_singleton _, List.nodup_singleton _⟩
  have held := authentication_respects_revocation (referencePlatform fun _ => []) sampleScrypt
    sampleKeys unique sampleKeyCalls (sampleKeyRun [0, 0, 0, 0, 1, 1, 1, 1]) (reachable _)
  exact ⟨accepted, by decide +kernel, held.1 0 samplePresentedKey _ rfl (returned_eq accepted)⟩

end DecAustrum
