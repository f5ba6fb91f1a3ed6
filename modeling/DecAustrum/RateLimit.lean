import DecAustrum.Python.Double
import DecAustrum.Python.Text
import Mathlib.Data.List.AList

/-!
# The rate limiter

`FixedWindowRateLimiter`: a counter for each pair of policy and subject, in windows of one length
that begin at its multiples. The clock is read before the lock is taken, and the answer is made
up after it is released.
-/
namespace DecAustrum

open Python

/-- A policy and a subject. -/
abbrev RateKey := Str × Str

structure RateLimitDecision where
  allowed : Bool
  limit : Int
  remaining : Int
  resetAt : Int
  retryAfter : Int
  deriving DecidableEq

inductive RateLimitError where
  | valueError (message : Str)
  | overflowError
  deriving DecidableEq

structure FixedWindowRateLimiter where
  /-- The window each key was last allowed in, and how often. -/
  entries : AList fun _ : RateKey => Int × Int
  checks : Nat

namespace FixedWindowRateLimiter

def new : FixedWindowRateLimiter := ⟨∅, 0⟩

def windowStart (now : Double) (windowSeconds : Int) : Int :=
  now.toInt.fdiv windowSeconds * windowSeconds

/-- `_remove_expired`. -/
def removeExpired (currentWindow : Int) (entries : AList fun _ : RateKey => Int × Int) :
    AList fun _ : RateKey => Int × Int :=
  let expired := (entries.entries.filter fun entry => entry.2.1 < currentWindow).map (·.1)
  expired.foldl (fun rest key => rest.erase key) entries

/-- The count of a key in a window. -/
def stored (limiter : FixedWindowRateLimiter) (key : RateKey) (window : Int) : Int :=
  let found := (limiter.entries.lookup key).getD (window, 0)
  if found.1 ≠ window then 0 else found.2

/-- What is done under the lock: whether the call is allowed, and the count after it. -/
def admission (limiter : FixedWindowRateLimiter) (key : RateKey) (limit window : Int) :
    (Bool × Int) × FixedWindowRateLimiter :=
  let before := limiter.stored key window
  let allowed := before < limit
  let count := if allowed then before + 1 else before
  let entries := if allowed then limiter.entries.insert key (window, count) else limiter.entries
  let checks := limiter.checks + 1
  ((allowed, count),
    ⟨if checks % 1024 = 0 then removeExpired window entries else entries, checks⟩)

/-- `max(1, math.ceil(reset_at - current_time))`. -/
def retryAfter (resetAt : Int) (now : Double) : Except RateLimitError Int :=
  match (Double.ofInt resetAt).bind fun reset => reset.sub now with
  | none => .error .overflowError
  | some wait => .ok (max 1 ⌈wait.val⌉)

def decision (limit resetAt : Int) (now : Double) (admission : Bool × Int) :
    Except RateLimitError RateLimitDecision := do
  let retry ← retryAfter resetAt now
  return ⟨admission.1, limit, max 0 (limit - admission.2), resetAt, retry⟩

/-- `check`, with the clock value it read. -/
def check (limiter : FixedWindowRateLimiter) (policy subject : Str) (limit windowSeconds : Int)
    (now : Double) : Except RateLimitError RateLimitDecision × FixedWindowRateLimiter :=
  if limit < 1 then (.error (.valueError "Rate limit must be positive."), limiter)
  else if windowSeconds < 1 then
    (.error (.valueError "Rate limit window must be positive."), limiter)
  else
    let window := windowStart now windowSeconds
    let admission := limiter.admission (policy, subject) limit window
    (decision limit (window + windowSeconds) now admission.1, admission.2)

theorem decision_eq (limit resetAt : Int) (now : Double) (admission : Bool × Int) :
    decision limit resetAt now admission = (retryAfter resetAt now).map fun retry =>
      ⟨admission.1, limit, max 0 (limit - admission.2), resetAt, retry⟩ := by
  unfold decision
  cases retryAfter resetAt now <;> rfl

/-! ## The table -/

theorem lookup_eraseAll (entries : AList fun _ : RateKey => Int × Int) (keys : List RateKey)
    (key : RateKey) : (keys.foldl (fun rest k => rest.erase k) entries).lookup key =
      if key ∈ keys then none else entries.lookup key := by
  induction keys generalizing entries with
  | nil => rfl
  | cons k rest ih =>
    rw [List.foldl_cons, ih]
    by_cases later : key ∈ rest
    · simp [later]
    by_cases first : key = k
    · subst first
      simp [later, AList.lookup_erase]
    · simp [later, first, AList.lookup_erase_ne first]

/-- A cleanup drops the entries of earlier windows. -/
theorem lookup_removeExpired (entries : AList fun _ : RateKey => Int × Int) (window : Int)
    (key : RateKey) : (removeExpired window entries).lookup key =
      (entries.lookup key).filter fun entry => window ≤ entry.1 := by
  rw [removeExpired, lookup_eraseAll]
  cases found : entries.lookup key with
  | none => simp
  | some entry =>
    have member : (⟨key, entry⟩ : Sigma fun _ : RateKey => Int × Int) ∈ entries.entries :=
      AList.mem_lookup_iff.mp found
    by_cases live : window ≤ entry.1
    · have absent : key ∉ (entries.entries.filter fun e => e.2.1 < window).map (·.1) := by
        intro inside
        obtain ⟨⟨k, e⟩, kept, same⟩ := List.mem_map.mp inside
        obtain ⟨other, expired⟩ := List.mem_filter.mp kept
        cases same
        have equal := AList.mem_lookup_iff.mpr other
        rw [found] at equal
        cases equal
        simp at expired
        omega
      rw [if_neg absent, Option.filter, if_pos (decide_eq_true live)]
    · have inside : key ∈ (entries.entries.filter fun e => e.2.1 < window).map (·.1) :=
        List.mem_map.mpr ⟨_, List.mem_filter.mpr ⟨member, by simpa using live⟩, rfl⟩
      rw [if_pos inside, Option.filter, if_neg (by simpa using live)]

section Admit

variable (limiter : FixedWindowRateLimiter) (key : RateKey) (limit window : Int)

/-- The call is allowed. -/
def allows : Prop := limiter.stored key window < limit

instance : Decidable (limiter.allows key limit window) :=
  inferInstanceAs (Decidable (limiter.stored key window < limit))

/-- The table before a cleanup. -/
def written : AList fun _ : RateKey => Int × Int :=
  if limiter.allows key limit window then
    limiter.entries.insert key (window, limiter.stored key window + 1)
  else limiter.entries

theorem admission_entries : (limiter.admission key limit window).2.entries =
    if (limiter.checks + 1) % 1024 = 0 then removeExpired window (limiter.written key limit window)
    else limiter.written key limit window := by
  unfold admission written
  by_cases allowed : limiter.allows key limit window
  · rw [if_pos allowed]
    simp only [show limiter.stored key window < limit from allowed, if_true]
  · rw [if_neg allowed]
    simp only [show ¬ limiter.stored key window < limit from allowed, if_false]

/-- The count after the call. -/
theorem admission_count : (limiter.admission key limit window).1.2 =
    if limiter.allows key limit window then limiter.stored key window + 1
    else limiter.stored key window := rfl

/-- What the table holds of a key after a call. -/
theorem lookup_admission (other : RateKey) :
    ∃ kept : Int × Int → Bool, (∀ entry, window ≤ entry.1 → kept entry = true) ∧
      (limiter.admission key limit window).2.entries.lookup other =
        (if other = key ∧ limiter.allows key limit window then
            some (window, limiter.stored key window + 1)
          else limiter.entries.lookup other).filter kept := by
  have found : (limiter.written key limit window).lookup other =
      if other = key ∧ limiter.allows key limit window then
        some (window, limiter.stored key window + 1)
      else limiter.entries.lookup other := by
    unfold written
    by_cases allowed : limiter.allows key limit window
    · rw [if_pos allowed]
      by_cases same : other = key
      · rw [same, AList.lookup_insert, if_pos ⟨rfl, allowed⟩]
      · rw [AList.lookup_insert_ne same, if_neg fun both => same both.1]
    · rw [if_neg allowed, if_neg fun both => allowed both.2]
  rw [← found, admission_entries]
  by_cases cleanup : (limiter.checks + 1) % 1024 = 0
  · refine ⟨fun entry => window ≤ entry.1, fun entry live => decide_eq_true live, ?_⟩
    rw [if_pos cleanup, lookup_removeExpired]
  · refine ⟨fun _ => true, fun _ _ => rfl, ?_⟩
    rw [if_neg cleanup]
    cases (limiter.written key limit window).lookup other <;> rfl

theorem stored_of_lookup {other : RateKey} {v window' : Int} {count : Int}
    (found : limiter.entries.lookup other = some (window', count)) :
    limiter.stored other v = if window' = v then count else 0 := by
  unfold stored
  rw [found]
  by_cases same : window' = v
  · simp [same]
  · simp [same]

theorem stored_of_missing {other : RateKey} (v : Int)
    (missing : limiter.entries.lookup other = none) : limiter.stored other v = 0 := by
  unfold stored
  rw [missing]
  simp

/-- What the table counts in windows that are not over after a call. -/
theorem stored_admission (other : RateKey) (v : Int) (live : window ≤ v) :
    (limiter.admission key limit window).2.stored other v =
      if other = key ∧ limiter.allows key limit window then
        if v = window then limiter.stored key window + 1 else 0
      else limiter.stored other v := by
  obtain ⟨kept, keeps, found⟩ := limiter.lookup_admission key limit window other
  by_cases counted : other = key ∧ limiter.allows key limit window
  · rw [if_pos counted, Option.filter_some_pos (keeps _ le_rfl)] at found
    rw [stored_of_lookup _ found, if_pos counted]
    by_cases same : v = window
    · rw [if_pos same, if_pos same.symm]
    · rw [if_neg same, if_neg (Ne.symm same)]
  · rw [if_neg counted] at found ⊢
    cases before : limiter.entries.lookup other with
    | none =>
      rw [before, Option.filter_none] at found
      rw [stored_of_missing _ v found, stored_of_missing _ v before]
    | some entry =>
      obtain ⟨window', count⟩ := entry
      rw [before] at found
      rw [stored_of_lookup _ before]
      by_cases keep : kept (window', count) = true
      · rw [Option.filter_some_pos keep] at found
        rw [stored_of_lookup _ found]
      · rw [Option.filter_some_neg (by simpa using keep)] at found
        rw [stored_of_missing _ v found, if_neg]
        rintro rfl
        exact keep (keeps _ live)

end Admit

end FixedWindowRateLimiter

end DecAustrum
