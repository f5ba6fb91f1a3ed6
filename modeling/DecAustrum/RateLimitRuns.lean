import DecAustrum.RateLimit

/-!
# Runs of the rate limiter

The calls in the order in which they take the lock. With a clock that does not go back, the
table counts exactly the calls allowed in the current window; in any other order a counter can be
lost and begin anew.
-/
namespace DecAustrum

open Python

structure RateCall where
  key : RateKey
  now : Double

structure RateOutcome where
  call : RateCall
  allowed : Bool
  result : Except RateLimitError RateLimitDecision

def RateCall.window (call : RateCall) (windowSeconds : Int) : Int :=
  FixedWindowRateLimiter.windowStart call.now windowSeconds

/-- The calls of a key in a window that were allowed. -/
def allowedIn (windowSeconds : Int) (outcomes : List RateOutcome) (key : RateKey) (window : Int) :
    Nat :=
  outcomes.countP fun o =>
    o.allowed && decide (o.call.key = key ∧ o.call.window windowSeconds = window)

namespace FixedWindowRateLimiter

section Runs

variable (limit : RateKey → Int) (windowSeconds : Int)

/-- One call, whether it was allowed, and its result. -/
def perform (limiter : FixedWindowRateLimiter) (call : RateCall) :
    RateOutcome × FixedWindowRateLimiter :=
  let answer := limiter.check call.key.1 call.key.2 (limit call.key) windowSeconds call.now
  (⟨call, limiter.allows call.key (limit call.key) (call.window windowSeconds), answer.1⟩, answer.2)

def run : FixedWindowRateLimiter → List RateCall → List RateOutcome
  | _, [] => []
  | limiter, call :: rest =>
    (limiter.perform limit windowSeconds call).1 ::
      run (limiter.perform limit windowSeconds call).2 rest

/-- The limiter after calls. -/
def afterCalls (limit : RateKey → Int) (windowSeconds : Int) (calls : List RateCall) :
    FixedWindowRateLimiter :=
  calls.foldl (fun limiter call => (limiter.perform limit windowSeconds call).2) new

end Runs

section

variable {limit : RateKey → Int} {windowSeconds : Int}

theorem run_snoc (limiter : FixedWindowRateLimiter) (calls : List RateCall) (call : RateCall) :
    limiter.run limit windowSeconds (calls ++ [call]) =
      limiter.run limit windowSeconds calls ++ [((calls.foldl (fun limiter call =>
        (limiter.perform limit windowSeconds call).2) limiter).perform limit windowSeconds call).1] := by
  induction calls generalizing limiter with
  | nil => rfl
  | cons first rest ih =>
    rw [List.cons_append, run, run, ih]
    rfl

/-! ## One call -/

theorem windowStart_spec (positive : 1 ≤ windowSeconds) (now : Double) :
    windowStart now windowSeconds ≤ now.toInt ∧
      now.toInt < windowStart now windowSeconds + windowSeconds := by
  unfold windowStart
  rw [Int.fdiv_eq_ediv_of_nonneg _ (by omega)]
  have whole := Int.mul_ediv_add_emod now.toInt windowSeconds
  have remainder := Int.emod_nonneg now.toInt (show windowSeconds ≠ 0 by omega)
  have small := Int.emod_lt_of_pos now.toInt (show 0 < windowSeconds by omega)
  rw [mul_comm] at whole
  omega

theorem windowStart_mono (positive : 1 ≤ windowSeconds) {s t : Double} (le : s.val ≤ t.val) :
    windowStart s windowSeconds ≤ windowStart t windowSeconds := by
  unfold windowStart
  rw [Int.fdiv_eq_ediv_of_nonneg _ (by omega), Int.fdiv_eq_ediv_of_nonneg _ (by omega)]
  apply mul_le_mul_of_nonneg_right _ (by omega)
  exact Int.ediv_le_ediv (by omega) (Double.toInt_mono le)

/-- A call with a proper limit and window. -/
theorem perform_eq (limits : ∀ key, 1 ≤ limit key) (positive : 1 ≤ windowSeconds)
    (limiter : FixedWindowRateLimiter) (call : RateCall) :
    limiter.perform limit windowSeconds call =
      (⟨call, limiter.allows call.key (limit call.key) (call.window windowSeconds),
        decision (limit call.key) (call.window windowSeconds + windowSeconds) call.now
          (limiter.admission call.key (limit call.key) (call.window windowSeconds)).1⟩,
        (limiter.admission call.key (limit call.key) (call.window windowSeconds)).2) := by
  have proper := limits call.key
  unfold perform check
  rw [if_neg (by omega), if_neg (by omega)]
  rfl

/-- Where the end of the window and the time to it are doubles, the wait is exact. -/
theorem retryAfter_exact {resetAt : Int} {now : Double} (reset : IsDouble resetAt)
    (wait : IsDouble (resetAt - now.val)) :
    retryAfter resetAt now = .ok (max 1 ⌈(resetAt : ℚ) - now.val⌉) := by
  have converted : Double.ofInt resetAt = some ⟨resetAt, reset⟩ := Double.ofRat_of_isDouble reset
  have difference : Double.sub ⟨resetAt, reset⟩ now = some ⟨resetAt - now.val, wait⟩ :=
    Double.ofRat_of_isDouble wait
  unfold retryAfter
  rw [converted, Option.bind_some, difference]

/-! ## Calls in the order of the clock -/

theorem allowedIn_snoc (outcomes : List RateOutcome) (o : RateOutcome) (key : RateKey) (v : Int) :
    allowedIn windowSeconds (outcomes ++ [o]) key v = allowedIn windowSeconds outcomes key v +
      if o.allowed = true ∧ o.call.key = key ∧ o.call.window windowSeconds = v then 1 else 0 := by
  rw [allowedIn, List.countP_append, List.countP_singleton]
  simp [allowedIn]

theorem allowedIn_eq_zero {outcomes : List RateOutcome} {top v : Int} (key : RateKey)
    (past : ∀ o ∈ outcomes, o.call.window windowSeconds ≤ top) (later : top < v) :
    allowedIn windowSeconds outcomes key v = 0 := by
  rw [allowedIn, List.countP_eq_zero]
  intro o inside
  have := past o inside
  simp only [Bool.and_eq_true, decide_eq_true_eq, not_and]
  omega

/-- The table counts the calls allowed in every window from `top` on. -/
structure Counts (limit : RateKey → Int) (windowSeconds : Int) (limiter : FixedWindowRateLimiter)
    (outcomes : List RateOutcome) (top : Int) : Prop where
  stored : ∀ key v, top ≤ v → limiter.stored key v = allowedIn windowSeconds outcomes key v
  past : ∀ o ∈ outcomes, o.call.window windowSeconds ≤ top
  bounded : ∀ key v, (allowedIn windowSeconds outcomes key v : Int) ≤ limit key

theorem counts_new (limits : ∀ key, 1 ≤ limit key) (top : Int) :
    Counts limit windowSeconds new [] top where
  stored key v _ := stored_of_missing _ v rfl
  past := by simp
  bounded key v := by
    have := limits key
    simp only [allowedIn, List.countP_nil]
    omega

/-- A call that is not before the others finds the calls of its window counted, and counts. -/
theorem Counts.step {limiter : FixedWindowRateLimiter} {outcomes : List RateOutcome} {top : Int}
    (counts : Counts limit windowSeconds limiter outcomes top) (limits : ∀ key, 1 ≤ limit key)
    (positive : 1 ≤ windowSeconds) (call : RateCall) (later : top ≤ call.window windowSeconds) :
    Counts limit windowSeconds (limiter.perform limit windowSeconds call).2
      (outcomes ++ [(limiter.perform limit windowSeconds call).1])
      (call.window windowSeconds) := by
  rw [perform_eq limits positive]
  have current := counts.stored call.key (call.window windowSeconds) later
  constructor
  · intro key v live
    rw [stored_admission _ _ _ _ _ _ live, allowedIn_snoc, counts.stored key v (later.trans live)]
    by_cases same : key = call.key
    · subst same
      by_cases allowed : limiter.allows call.key (limit call.key) (call.window windowSeconds)
      · by_cases now : v = call.window windowSeconds
        · subst now
          simp [allowed, current]
        · have fresh : allowedIn windowSeconds outcomes call.key v = 0 :=
            allowedIn_eq_zero call.key (fun o inside => (counts.past o inside).trans later)
              (by omega)
          simp [allowed, now, Ne.symm now, fresh]
      · simp [allowed]
    · simp [same, Ne.symm same]
  · intro o inside
    rcases List.mem_append.mp inside with old | new
    · exact (counts.past o old).trans later
    · rw [List.mem_singleton.mp new]
  · intro key v
    rw [allowedIn_snoc]
    have bound := counts.bounded key v
    split
    next hit =>
      obtain ⟨allowed, same, now⟩ := hit
      dsimp only at allowed same now
      subst same now
      have room : limiter.stored call.key (call.window windowSeconds) < limit call.key :=
        of_decide_eq_true allowed
      rw [current] at room
      push_cast
      omega
    next => simpa using bound

/-- What is promised of a call after others: it is allowed while fewer calls of its key were
allowed in its window than the limit, and the answer tells the calls left and the end of the
window. -/
structure Exact (limit : RateKey → Int) (windowSeconds : Int) (before : List RateOutcome)
    (o : RateOutcome) : Prop where
  allowed : o.allowed = true ↔ (allowedIn windowSeconds before o.call.key
    (o.call.window windowSeconds) : Int) < limit o.call.key
  result : o.result =
    (retryAfter (o.call.window windowSeconds + windowSeconds) o.call.now).map fun retry =>
      ⟨o.allowed, limit o.call.key, limit o.call.key - allowedIn windowSeconds (before ++ [o])
        o.call.key (o.call.window windowSeconds), o.call.window windowSeconds + windowSeconds,
        retry⟩

theorem Counts.exact {limiter : FixedWindowRateLimiter} {outcomes : List RateOutcome} {top : Int}
    (counts : Counts limit windowSeconds limiter outcomes top) (limits : ∀ key, 1 ≤ limit key)
    (positive : 1 ≤ windowSeconds) (call : RateCall) (later : top ≤ call.window windowSeconds) :
    Exact limit windowSeconds outcomes (limiter.perform limit windowSeconds call).1 := by
  have next := counts.step limits positive call later
  have current := counts.stored call.key (call.window windowSeconds) later
  rw [perform_eq limits positive] at next ⊢
  constructor
  · dsimp only
    rw [decide_eq_true_iff, allows, current]
  · have left := next.bounded call.key (call.window windowSeconds)
    have count : (limiter.admission call.key (limit call.key) (call.window windowSeconds)).1.2 =
        allowedIn windowSeconds (outcomes ++ [⟨call,
          limiter.allows call.key (limit call.key) (call.window windowSeconds),
          decision (limit call.key) (call.window windowSeconds + windowSeconds) call.now
            (limiter.admission call.key (limit call.key) (call.window windowSeconds)).1⟩])
          call.key (call.window windowSeconds) := by
      rw [admission_count, allowedIn_snoc, current]
      by_cases allowed : limiter.allows call.key (limit call.key) (call.window windowSeconds)
      · simp [allowed]
      · simp [allowed]
    refine (decision_eq ..).trans ?_
    rw [count, max_eq_right (sub_nonneg.mpr left)]
    rfl

theorem run_exact (limits : ∀ key, 1 ≤ limit key) (positive : 1 ≤ windowSeconds)
    (calls : List RateCall) (limiter : FixedWindowRateLimiter) (outcomes : List RateOutcome)
    (top : Int) (counts : Counts limit windowSeconds limiter outcomes top)
    (ordered : calls.Pairwise fun a b => a.now.val ≤ b.now.val)
    (later : ∀ call ∈ calls, top ≤ call.window windowSeconds) (before after : List RateOutcome)
    (o : RateOutcome) (ran : limiter.run limit windowSeconds calls = before ++ o :: after) :
    Exact limit windowSeconds (outcomes ++ before) o := by
  induction calls generalizing limiter outcomes top before with
  | nil => simp [run] at ran
  | cons call rest ih =>
    have first := later call (List.mem_cons_self ..)
    obtain ⟨after_call, ordered_rest⟩ := List.pairwise_cons.mp ordered
    rw [run] at ran
    cases before with
    | nil =>
      cases ran
      rw [List.append_nil]
      exact counts.exact limits positive call first
    | cons head before =>
      obtain ⟨rfl, tail⟩ := List.cons.inj ran
      have continued := ih _ _ _ (counts.step limits positive call first) ordered_rest
        (fun other inside => windowStart_mono positive (after_call other inside)) before tail
      rwa [List.append_assoc, List.singleton_append] at continued

/-- With one limit for each key, one window length and a clock that does not go back, a call is
allowed if and only if fewer calls than the limit were allowed before it under its key in its
window, however many cleanups came between. The answer tells how many are left, the end of the
window, and the wait as the difference of the doubles gives it, which is exact where the end and
the time to it are doubles. -/
theorem rate_limit_exact (limits : ∀ key, 1 ≤ limit key) (positive : 1 ≤ windowSeconds)
    (calls : List RateCall) (ordered : calls.Pairwise fun a b => a.now.val ≤ b.now.val)
    (before after : List RateOutcome) (o : RateOutcome)
    (ran : new.run limit windowSeconds calls = before ++ o :: after) :
    Exact limit windowSeconds before o ∧
      (o.call.window windowSeconds ≤ o.call.now.toInt ∧
        o.call.now.toInt < o.call.window windowSeconds + windowSeconds) ∧
      ∀ resetAt, resetAt = o.call.window windowSeconds + windowSeconds → IsDouble resetAt →
        IsDouble (resetAt - o.call.now.val) →
          retryAfter resetAt o.call.now = .ok (max 1 ⌈(resetAt : ℚ) - o.call.now.val⌉) := by
  refine ⟨?_, windowStart_spec positive o.call.now, ?_⟩
  · cases calls with
    | nil => simp [run] at ran
    | cons call rest =>
      have exact := run_exact limits positive (call :: rest) new [] (call.window windowSeconds)
        (counts_new limits _) ordered ?_ before after o ran
      · rwa [List.nil_append] at exact
      · intro other inside
        rcases List.mem_cons.mp inside with rfl | inside
        · exact le_rfl
        · exact windowStart_mono positive ((List.pairwise_cons.mp ordered).1 other inside)
  · rintro resetAt - reset wait
    exact retryAfter_exact reset wait

end

/-! ## A sample -/

/-- The double just below 12. -/
def earlyClock : Double :=
  ⟨12 - 1 / 2 ^ 49, 6755399441055743, -49, by norm_num, by norm_num, by norm_num, by norm_num⟩

/-- The wait of 48 seconds and a fraction is rounded to 48 seconds before its ceiling is taken. -/
theorem early_retry :
    (new.check [] [] 1 60 earlyClock).1 = .ok ⟨true, 1, 0, 60, 48⟩ ∧
      max 1 ⌈(60 : ℚ) - earlyClock.val⌉ = 49 := by
  decide +kernel

def minuteEnd : Double := ⟨59, 59, 0, by norm_num, by norm_num, by norm_num, by norm_num⟩

def minuteStart : Double := ⟨60, 60, 0, by norm_num, by norm_num, by norm_num, by norm_num⟩

def sampleCall (subject : Str) (now : Double) : RateCall := ⟨("api", subject), now⟩

def sampleLimits (key : RateKey) : Int := if key.2 = "b" then 2 else 1

/-- In the first minute two calls of `a`, the second refused, and 1021 of `b`. -/
def sampleCalls : List RateCall :=
  sampleCall "a" minuteEnd :: sampleCall "a" minuteEnd ::
    List.replicate 1021 (sampleCall "b" minuteEnd)

theorem sampleLimits_positive (key : RateKey) : 1 ≤ sampleLimits key := by
  rw [sampleLimits]
  split <;> norm_num

theorem sampleCalls_early : ∀ call ∈ sampleCalls, call.now = minuteEnd := by
  intro call inside
  rcases List.mem_cons.mp inside with rfl | inside
  · rfl
  rcases List.mem_cons.mp inside with rfl | inside
  · rfl
  · rw [List.eq_of_mem_replicate inside]
    rfl

theorem sampleCalls_ordered :
    (sampleCalls ++ [sampleCall "a" minuteStart] ++ [sampleCall "a" minuteStart]).Pairwise
      fun a b => a.now.val ≤ b.now.val := by
  rw [List.append_assoc]
  refine List.pairwise_append.mpr ⟨?_, ?_, ?_⟩
  · refine List.pairwise_of_forall_mem_list fun a early b later => ?_
    rw [sampleCalls_early a early, sampleCalls_early b later]
  · exact List.pairwise_pair.mpr le_rfl
  · intro a early b late
    have next : b = sampleCall "a" minuteStart := by simpa using late
    rw [sampleCalls_early a early, next]
    norm_num [minuteEnd, minuteStart, sampleCall]

/-- Two calls of `a` in the next minute. At the first, the 1024th, the counters of the first
minute are dropped: it is allowed, and the one after it refused. -/
theorem rate_limit_exact_sample :
    ∃ first second, new.run sampleLimits 60
        (sampleCalls ++ [sampleCall "a" minuteStart] ++ [sampleCall "a" minuteStart]) =
          new.run sampleLimits 60 sampleCalls ++ [first] ++ [second] ∧
      allowedIn 60 (new.run sampleLimits 60 sampleCalls) ("api", "a") 0 = 1 ∧
      allowedIn 60 (new.run sampleLimits 60 sampleCalls) ("api", "b") 0 = 2 ∧
      first.allowed = true ∧ second.allowed = false ∧
      Exact sampleLimits 60 (new.run sampleLimits 60 sampleCalls) first ∧
      Exact sampleLimits 60 (new.run sampleLimits 60 sampleCalls ++ [first]) second := by
  have ran := @run_snoc sampleLimits 60 new (sampleCalls ++ [sampleCall "a" minuteStart])
    (sampleCall "a" minuteStart)
  rw [@run_snoc sampleLimits 60 new sampleCalls] at ran
  have first := (rate_limit_exact sampleLimits_positive (by norm_num) _ sampleCalls_ordered
    _ _ _ (ran.trans (List.append_assoc ..))).1
  have second := (rate_limit_exact sampleLimits_positive (by norm_num) _ sampleCalls_ordered
    _ [] _ ran).1
  have window : (sampleCall "a" minuteStart).window 60 = 60 := by decide +kernel
  have before : allowedIn 60 (new.run sampleLimits 60 sampleCalls) ("api", "a") 60 = 0 := by
    decide +kernel
  have allowed := first.allowed.mpr (by
    change (allowedIn 60 _ ("api", "a") ((sampleCall "a" minuteStart).window 60) : Int) < 1
    rw [window, before]
    norm_num)
  refine ⟨_, _, ran, by decide +kernel, by decide +kernel, allowed, ?_, first, second⟩
  refine Bool.eq_false_iff.mpr fun again => ?_
  have fewer := second.allowed.mp again
  rw [allowedIn_snoc, if_pos ⟨allowed, rfl, rfl⟩] at fewer
  have limit : ((_ + 1 : Nat) : Int) < 1 := fewer
  omega

section

variable {limit : RateKey → Int} {windowSeconds : Int}

/-! ## Calls in any order -/

/-- The calls of a key with a clock value in a window. -/
def callsIn (windowSeconds : Int) (calls : List RateCall) (key : RateKey) (window : Int) : Nat :=
  calls.countP fun call => decide (call.key = key ∧ call.window windowSeconds = window)

/-- The table holds no counter of the key for the window. -/
def Forgotten (limiter : FixedWindowRateLimiter) (key : RateKey) (window : Int) : Prop :=
  ∀ count, limiter.entries.lookup key ≠ some (window, count)

/-- A call, not the first of its key in its window, finds the counter gone: a call of another
window has taken its place, or a cleanup has dropped it. -/
def Restarts (limit : RateKey → Int) (windowSeconds : Int) (calls : List RateCall) (key : RateKey)
    (window : Int) : Prop :=
  ∃ before call after, calls = before ++ call :: after ∧ call.key = key ∧
    call.window windowSeconds = window ∧ callsIn windowSeconds before key window ≠ 0 ∧
      (afterCalls limit windowSeconds before).Forgotten key window

theorem callsIn_snoc (calls : List RateCall) (call : RateCall) (key : RateKey) (window : Int) :
    callsIn windowSeconds (calls ++ [call]) key window = callsIn windowSeconds calls key window +
      if call.key = key ∧ call.window windowSeconds = window then 1 else 0 := by
  rw [callsIn, List.countP_append, List.countP_singleton]
  simp [callsIn]

theorem restarts_snoc (calls : List RateCall) (call : RateCall) (key : RateKey) (window : Int) :
    Restarts limit windowSeconds (calls ++ [call]) key window ↔
      Restarts limit windowSeconds calls key window ∨
        call.key = key ∧ call.window windowSeconds = window ∧
          callsIn windowSeconds calls key window ≠ 0 ∧
            (afterCalls limit windowSeconds calls).Forgotten key window := by
  constructor
  · rintro ⟨before, other, after, split, facts⟩
    rcases List.eq_nil_or_concat after with rfl | ⟨later, last, rfl⟩
    · obtain ⟨rfl, same⟩ := List.append_inj' split rfl
      cases same
      exact .inr facts
    · rw [List.concat_eq_append, ← List.cons_append, ← List.append_assoc] at split
      obtain ⟨earlier, -⟩ := List.append_inj' split rfl
      exact .inl ⟨before, other, later, earlier, facts⟩
  · rintro (⟨before, other, after, rfl, facts⟩ | facts)
    · exact ⟨before, other, after ++ [call], by simp, facts⟩
    · exact ⟨calls, call, [], rfl, facts⟩

/-- What `n` calls of a key in a window leave, `a` of them allowed: as long as the counter was not
lost it tells them all, and once it was lost it tells too few. -/
structure Tally (limit : RateKey → Int) (limiter : FixedWindowRateLimiter) (key : RateKey)
    (window : Int) (restarted : Prop) (n a : Nat) : Prop where
  missing : n = 0 → limiter.Forgotten key window
  begun : restarted → n ≠ 0
  allowed : n ≠ 0 → 1 ≤ a
  few : a ≤ n
  kept : ¬ restarted → (a : Int) = min (n : Int) (limit key)
  lost : restarted → a = n ∨ limit key < a
  held : ∀ count, limiter.entries.lookup key = some (window, count) → 1 ≤ count ∧
    count ≤ limit key ∧ (¬ restarted → count = a) ∧ (restarted → count < a)

section

variable {limiter : FixedWindowRateLimiter} {key : RateKey} {window : Int} {restarted : Prop}
variable {n a : Nat}

/-- The counter of a key that is asked for survives its own call. -/
theorem lookup_admission_self (proper : 1 ≤ limit key) :
    (limiter.admission key (limit key) window).2.entries.lookup key =
      if limiter.allows key (limit key) window then some (window, limiter.stored key window + 1)
      else limiter.entries.lookup key := by
  obtain ⟨kept, keeps, found⟩ := limiter.lookup_admission key (limit key) window key
  rw [found]
  by_cases allowed : limiter.allows key (limit key) window
  · rw [if_pos ⟨rfl, allowed⟩, if_pos allowed, Option.filter_some_pos (keeps _ le_rfl)]
  · rw [if_neg fun both => allowed both.2, if_neg allowed]
    cases before : limiter.entries.lookup key with
    | none => rfl
    | some entry =>
      obtain ⟨window', count⟩ := entry
      have counted : limiter.stored key window = if window' = window then count else 0 :=
        stored_of_lookup _ before
      have full : ¬ limiter.stored key window < limit key := allowed
      have current : window' = window := by
        by_contra other
        rw [if_neg other] at counted
        omega
      exact Option.filter_some_pos (keeps _ current.ge)

/-- A call of another key or window puts no counter in its place. -/
theorem lookup_admission_other {other : RateKey} {window' count : Int}
    (apart : ¬ (other = key ∧ window' = window)) (bound : Int)
    (found : (limiter.admission other bound window').2.entries.lookup key = some (window, count)) :
    limiter.entries.lookup key = some (window, count) := by
  obtain ⟨kept, -, lookup⟩ := limiter.lookup_admission other bound window' key
  rw [found] at lookup
  obtain ⟨source, -⟩ := Option.filter_eq_some_iff.mp lookup.symm
  split at source
  next counted =>
    cases source
    exact absurd ⟨counted.1.symm, rfl⟩ apart
  next => exact source

/-- A call elsewhere leaves the tally. -/
theorem Tally.elsewhere (tally : Tally limit limiter key window restarted n a) {other : RateKey}
    {window' : Int} (apart : ¬ (other = key ∧ window' = window)) (bound : Int) :
    Tally limit (limiter.admission other bound window').2 key window restarted n a where
  missing none count found := tally.missing none count (lookup_admission_other apart bound found)
  begun := tally.begun
  allowed := tally.allowed
  few := tally.few
  kept := tally.kept
  lost := tally.lost
  held count found := tally.held count (lookup_admission_other apart bound found)

theorem stored_of_forgotten (gone : limiter.Forgotten key window) : limiter.stored key window = 0 := by
  cases found : limiter.entries.lookup key with
  | none => exact stored_of_missing _ _ found
  | some entry =>
    obtain ⟨window', count⟩ := entry
    rw [stored_of_lookup _ found, if_neg]
    rintro rfl
    exact gone count found

/-- A call that finds no counter begins one. -/
theorem lookup_admission_forgotten (proper : 1 ≤ limit key) (gone : limiter.Forgotten key window) :
    limiter.allows key (limit key) window ∧
      (limiter.admission key (limit key) window).2.entries.lookup key = some (window, 1) := by
  have none := stored_of_forgotten gone
  have allowed : limiter.allows key (limit key) window := by
    rw [allows, none]
    omega
  refine ⟨allowed, ?_⟩
  rw [lookup_admission_self proper, if_pos allowed, none]
  rfl

theorem Tally.first (tally : Tally limit limiter key window restarted 0 a)
    (proper : 1 ≤ limit key) :
    Tally limit (limiter.admission key (limit key) window).2 key window restarted 1
      (a + if limiter.allows key (limit key) window then 1 else 0) := by
  obtain ⟨allowed, found⟩ := lookup_admission_forgotten proper (tally.missing rfl)
  have before := tally.few
  have never : ¬ restarted := fun again => tally.begun again rfl
  rw [if_pos allowed]
  constructor
  · intro none
    cases none
  · exact fun _ => one_ne_zero
  · intro _
    omega
  · omega
  · intro _
    push_cast
    omega
  · exact fun again => absurd again never
  · intro count held
    rw [found, Option.some.injEq, Prod.mk.injEq] at held
    obtain ⟨-, rfl⟩ := held
    refine ⟨le_rfl, proper, fun _ => ?_, fun again => absurd again never⟩
    push_cast
    omega

/-- A call that finds its counter. -/
theorem Tally.counted (tally : Tally limit limiter key window restarted n a)
    (proper : 1 ≤ limit key) {count : Int}
    (found : limiter.entries.lookup key = some (window, count)) :
    Tally limit (limiter.admission key (limit key) window).2 key window restarted (n + 1)
      (a + if limiter.allows key (limit key) window then 1 else 0) := by
  obtain ⟨positive, bounded, exact, less⟩ := tally.held count found
  have asked : n ≠ 0 := fun none => tally.missing none count found
  have one := tally.allowed asked
  have few := tally.few
  have stored : limiter.stored key window = count := by
    rw [stored_of_lookup _ found, if_pos rfl]
  have lookup : (limiter.admission key (limit key) window).2.entries.lookup key =
      if limiter.allows key (limit key) window then some (window, limiter.stored key window + 1)
      else limiter.entries.lookup key := lookup_admission_self proper
  by_cases allowed : limiter.allows key (limit key) window
  · -- the counter goes up with the number of calls allowed
    have room : count < limit key := by
      rw [← stored]
      exact allowed
    rw [if_pos allowed, stored] at lookup
    rw [if_pos allowed]
    constructor
    · omega
    · exact fun _ => Nat.succ_ne_zero n
    · omega
    · omega
    · intro never
      have := exact never
      have := tally.kept never
      push_cast
      omega
    · intro again
      have := tally.lost again
      push_cast
      omega
    · intro count' held
      rw [lookup, Option.some.injEq, Prod.mk.injEq] at held
      obtain ⟨-, rfl⟩ := held
      refine ⟨by omega, by omega, fun never => ?_, fun again => ?_⟩
      · have := exact never
        push_cast
        omega
      · have := less again
        push_cast
        omega
  · -- the counter is full
    have full : ¬ count < limit key := by
      rw [← stored]
      exact allowed
    rw [if_neg allowed, found] at lookup
    rw [if_neg allowed, add_zero]
    constructor
    · omega
    · exact fun _ => Nat.succ_ne_zero n
    · omega
    · omega
    · intro never
      have := exact never
      have := tally.kept never
      push_cast
      omega
    · intro again
      have := less again
      omega
    · intro count' held
      rw [lookup, Option.some.injEq, Prod.mk.injEq] at held
      obtain ⟨-, rfl⟩ := held
      exact ⟨positive, bounded, exact, less⟩

/-- A call that finds its counter gone. -/
theorem Tally.again (tally : Tally limit limiter key window restarted n a)
    (proper : 1 ≤ limit key) (later : n ≠ 0) (gone : limiter.Forgotten key window) :
    Tally limit (limiter.admission key (limit key) window).2 key window True (n + 1)
      (a + if limiter.allows key (limit key) window then 1 else 0) := by
  obtain ⟨allowed, found⟩ := lookup_admission_forgotten proper gone
  have few := tally.few
  have one := tally.allowed later
  have total : a = n ∨ limit key ≤ a := by
    by_cases before : restarted
    · have := tally.lost before
      omega
    · have := tally.kept before
      omega
  rw [if_pos allowed]
  constructor
  · omega
  · exact fun _ => Nat.succ_ne_zero n
  · omega
  · omega
  · exact fun never => absurd trivial never
  · intro _
    push_cast
    omega
  · intro count held
    rw [found, Option.some.injEq, Prod.mk.injEq] at held
    obtain ⟨-, rfl⟩ := held
    refine ⟨le_rfl, proper, fun never => absurd trivial never, fun _ => ?_⟩
    push_cast
    omega

end

theorem Tally.congr {limiter : FixedWindowRateLimiter} {key : RateKey} {window : Int}
    {p q : Prop} {n m a b : Nat} (tally : Tally limit limiter key window p n a) (same : p ↔ q)
    (calls : n = m) (allowed : a = b) : Tally limit limiter key window q m b := by
  obtain rfl := propext same
  subst calls allowed
  exact tally

theorem tally_calls (limits : ∀ key, 1 ≤ limit key) (positive : 1 ≤ windowSeconds)
    (calls : List RateCall) (key : RateKey) (window : Int) :
    Tally limit (afterCalls limit windowSeconds calls) key window
      (Restarts limit windowSeconds calls key window) (callsIn windowSeconds calls key window)
      (allowedIn windowSeconds (new.run limit windowSeconds calls) key window) := by
  induction calls using List.reverseRecOn with
  | nil =>
    have never : ¬ Restarts limit windowSeconds [] key window := by
      rintro ⟨before, call, after, split, -⟩
      simp at split
    constructor
    · intro _ count found
      cases found
    · exact fun again => absurd again never
    · exact fun some => absurd rfl some
    · exact le_rfl
    · intro _
      have := limits key
      simp only [run, allowedIn, callsIn, List.countP_nil]
      omega
    · exact fun again => absurd again never
    · intro count found
      cases found
  | append_singleton calls call ih =>
    have outcomes := @run_snoc limit windowSeconds new calls call
    rw [perform_eq limits positive] at outcomes
    have state : afterCalls limit windowSeconds (calls ++ [call]) =
        ((afterCalls limit windowSeconds calls).admission call.key (limit call.key)
          (call.window windowSeconds)).2 := by
      rw [afterCalls, List.foldl_append, List.foldl_cons, List.foldl_nil,
        perform_eq limits positive]
      rfl
    rw [state, outcomes]
    by_cases here : call.key = key ∧ call.window windowSeconds = window
    · obtain ⟨rfl, rfl⟩ := here
      have counted : callsIn windowSeconds (calls ++ [call]) call.key (call.window windowSeconds) =
          callsIn windowSeconds calls call.key (call.window windowSeconds) + 1 := by
        rw [callsIn_snoc, if_pos ⟨rfl, rfl⟩]
      have total := @allowedIn_snoc windowSeconds
        (new.run limit windowSeconds calls) ⟨call,
          (afterCalls limit windowSeconds calls).allows call.key (limit call.key)
            (call.window windowSeconds),
          decision (limit call.key) (call.window windowSeconds + windowSeconds) call.now
            ((afterCalls limit windowSeconds calls).admission call.key (limit call.key)
              (call.window windowSeconds)).1⟩ call.key (call.window windowSeconds)
      simp only [decide_eq_true_eq, and_self, and_true] at total
      by_cases none : callsIn windowSeconds calls call.key (call.window windowSeconds) = 0
      · have first := ih
        rw [none] at first
        refine (first.first (limits call.key)).congr ?_ (by rw [counted, none]) total.symm
        rw [restarts_snoc]
        simp [none]
      · by_cases gone :
            (afterCalls limit windowSeconds calls).Forgotten call.key (call.window windowSeconds)
        · refine (ih.again (limits call.key) none gone).congr ?_ counted.symm total.symm
          rw [restarts_snoc]
          simp [none, gone]
        · obtain ⟨count, found⟩ : ∃ count, (afterCalls limit windowSeconds calls).entries.lookup
              call.key = some (call.window windowSeconds, count) := by
            simpa [Forgotten] using gone
          refine (ih.counted (limits call.key) found).congr ?_ counted.symm total.symm
          rw [restarts_snoc]
          simp [gone]
    · refine (ih.elsewhere here (limit call.key)).congr ?_ ?_ ?_
      · rw [restarts_snoc]
        constructor
        · exact .inl
        · rintro (old | ⟨same, now, -⟩)
          · exact old
          · exact absurd ⟨same, now⟩ here
      · rw [callsIn_snoc, if_neg here, add_zero]
      · rw [allowedIn_snoc, if_neg fun hit => here hit.2, add_zero]

/-- In whatever order the calls come, at most the limit are allowed of a key in a window if and
only if no more come, or none of them after the first finds its counter gone. -/
theorem rate_limit_bound_iff (limits : ∀ key, 1 ≤ limit key) (positive : 1 ≤ windowSeconds)
    (calls : List RateCall) :
    (∀ key window, (allowedIn windowSeconds (new.run limit windowSeconds calls) key window : Int) ≤
        limit key) ↔
      ∀ key window, (callsIn windowSeconds calls key window : Int) ≤ limit key ∨
        ¬ Restarts limit windowSeconds calls key window := by
  refine forall_congr' fun key => forall_congr' fun window => ?_
  have tally := tally_calls limits positive calls key window
  have few := tally.few
  constructor
  · intro bound
    by_cases again : Restarts limit windowSeconds calls key window
    · have := tally.lost again
      left
      omega
    · exact .inr again
  · rintro (fits | never)
    · omega
    · have := tally.kept never
      omega

end

/-! ## A late call -/

/-- A call at 59.5 seconds that takes the lock after one at 60. -/
def lateCalls : List RateCall :=
  [⟨([], []), 59, 59, 0, by norm_num, by norm_num, by norm_num, by norm_num⟩,
    ⟨([], []), 60, 60, 0, by norm_num, by norm_num, by norm_num, by norm_num⟩,
    ⟨([], []), 119 / 2, 119, -1, by norm_num, by norm_num, by norm_num, by norm_num⟩]

/-- With a limit of one, two calls of the first window are allowed. -/
theorem late_call_allowed :
    lateCalls.map (·.window 60) = [0, 60, 0] ∧
      allowedIn 60 (new.run (fun _ => 1) 60 lateCalls) ([], []) 0 = 2 := by
  decide +kernel

theorem rate_limit_bound_sample :
    (∀ key window, (allowedIn 60 (new.run (fun _ => 1) 60 lateCalls) key window : Int) ≤ 1) ↔
      ∀ key window, (callsIn 60 lateCalls key window : Int) ≤ 1 ∨
        ¬ Restarts (fun _ => 1) 60 lateCalls key window :=
  rate_limit_bound_iff (by simp) (by norm_num) lateCalls

end FixedWindowRateLimiter

end DecAustrum
