import DecAustrum.Transaction.Program

/-!
# What a body preserves

A predicate that a body preserves while it runs alone, together with the exceptions it can raise.
-/
namespace Transaction.Block

variable {σ ι ε α β : Type}

theorem check_ok_bind (a : α) (f : α → Block σ ι ε β) : (check (.ok a) >>= f) = f a := rfl

/-- From a state in `inv` the body stays there, and what it raises is in `E`. -/
def Preserves (inv : σ → Prop) (E : ε → Prop) (x : Block σ ι ε β) : Prop :=
  ∀ s, inv s → x.Ensures (fun _ t => inv t) E s

section

variable {inv : σ → Prop} {E : ε → Prop}

theorem preserves_ret (b : β) : (ret b : Block σ ι ε β).Preserves inv E := fun _ holds => holds

theorem preserves_raise {exc : ε} (allowed : E exc) : (raise exc : Block σ ι ε β).Preserves inv E :=
  fun _ _ => allowed

theorem preserves_query (q : σ → β) : (query q : Block σ ι ε β).Preserves inv E := fun _ holds => holds

theorem preserves_fresh : (fresh : Block σ ι ε ι).Preserves inv E := fun _ holds _ => holds

theorem preserves_check {x : Except ε β} (allowed : ∀ exc, x = .error exc → E exc) :
    (check x : Block σ ι ε β).Preserves inv E := by
  intro s holds
  cases x with
  | ok b => exact holds
  | error exc => exact allowed exc rfl

theorem ensures_statement {Q : β → σ → Prop} (st : σ → Except ε (σ × β)) (s : σ)
    (returned : ∀ t b, st s = .ok (t, b) → Q b t) (raised : ∀ exc, st s = .error exc → E exc) :
    (statement st : Block σ ι ε β).Ensures Q E s := by
  simp only [statement, Ensures]
  cases result : st s with
  | ok r => exact returned r.1 r.2 result
  | error exc => exact raised exc result

theorem preserves_statement {st : σ → Except ε (σ × β)}
    (kept : ∀ s t b, inv s → st s = .ok (t, b) → inv t)
    (raised : ∀ s exc, inv s → st s = .error exc → E exc) :
    (statement st : Block σ ι ε β).Preserves inv E :=
  fun s holds => ensures_statement st s (fun t b => kept s t b holds) fun exc => raised s exc holds

theorem Preserves.bind {x : Block σ ι ε α} {f : α → Block σ ι ε β} (first : x.Preserves inv E)
    (second : ∀ a, (f a).Preserves inv E) : (x >>= f).Preserves inv E := by
  intro s holds
  rw [ensures_bind]
  exact (first s holds).mono (fun a t kept => second a t kept) fun _ allowed => allowed

/-- A statement whose exception the body goes on with. -/
theorem preserves_attempt_bind {st : σ → Except ε (σ × α)} {f : Except ε α → Block σ ι ε β}
    (kept : ∀ s t a, inv s → st s = .ok (t, a) → inv t) (returned : ∀ a, (f (.ok a)).Preserves inv E)
    (raised : ∀ s exc, inv s → st s = .error exc → (f (.error exc)).Preserves inv E) :
    (attempt st >>= f).Preserves inv E := by
  intro s holds
  simp only [attempt, execute_bind, Ensures, ret_bind]
  cases result : st s with
  | ok r => exact returned r.2 _ (kept s r.1 r.2 holds result)
  | error exc => exact raised s exc holds result _ holds

theorem ensures_query_bind {R : β → σ → Prop} (q : σ → α) (f : α → Block σ ι ε β) (s : σ) :
    (query q >>= f).Ensures R E s ↔ (f (q s)).Ensures R E s := Iff.rfl

/-- What is read is known of the state. -/
theorem preserves_query_bind {q : σ → α} {f : α → Block σ ι ε β}
    (later : ∀ s, inv s → (f (q s)).Ensures (fun _ t => inv t) E s) :
    (query q >>= f).Preserves inv E := later

/-- A run that returns, and the exceptions of one that does not. -/
theorem Ensures.of_exec_of_preserves [Nonempty ι] {Q : β → σ → Prop} {x : Block σ ι ε β} {s : σ}
    (returned : ∀ draws b rest t, x.exec draws s = .ok (b, rest, t) → Q b t)
    (raises : x.Preserves (fun _ => True) E) : x.Ensures Q E s := by
  refine ensures_of_exec returned fun draws exc ran => ?_
  have outcome := (ensures_iff_exec x s).mp (raises s trivial) draws
  rw [ran] at outcome
  exact outcome

end

end Transaction.Block
