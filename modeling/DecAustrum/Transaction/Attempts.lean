import DecAustrum.Transaction.Invariants

/-!
# Sessions that handle their exceptions

A session whose exception its caller sees, and a computation that touches no database.
-/
namespace Transaction.Session

variable {σ ι ω ε α β : Type}

/-- `try` around a session: an exception becomes a result. -/
def attempt : Session σ ι ω ε α → Session σ ι ω ε (Except ε α)
  | ret a => ret (.ok a)
  | raise exc => ret (.error exc)
  | connect body next => connect body fun r => (next r).attempt
  | ask next => ask fun w => (next w).attempt

def check (x : Except ε α) : Session σ ι ω ε α :=
  match x with
  | .ok a => ret a
  | .error exc => raise exc

/-- An exception of the first part is not seen by the second. -/
theorem attempt_bind (x : Session σ ι ω ε α) (f : α → Session σ ι ω ε β) :
    (x >>= f).attempt = x.attempt >>= fun
      | .ok a => (f a).attempt
      | .error exc => ret (.error exc) := by
  induction x with
  | ret a => rfl
  | raise exc => rfl
  | connect body next ih => exact congrArg (connect body) (funext ih)
  | ask next ih => exact congrArg ask (funext ih)

section Bodies

variable {P : (β : Type) → Block σ ι ε β → Prop}

theorem Bodies.attempt {x : Session σ ι ω ε α} (bodies : x.Bodies P) : x.attempt.Bodies P := by
  induction x with
  | ret a => trivial
  | raise exc => trivial
  | connect body next ih => exact ⟨bodies.1, fun r => ih r (bodies.2 r)⟩
  | ask next ih => exact fun a => ih a (bodies a)

theorem bodies_check_bind {x : Except ε α} {f : α → Session σ ι ω ε β}
    (returned : ∀ a, x = .ok a → (f a).Bodies P) : (check x >>= f).Bodies P := by
  cases x with
  | ok a => exact returned a rfl
  | error exc => trivial

theorem Bodies.map {x : Session σ ι ω ε α} (bodies : x.Bodies P) (f : α → β) :
    (f <$> x).Bodies P := bodies.bind fun _ => trivial

end Bodies

section Safe

variable {C : Type} {contract : Contract C σ} {c : C} {R : Except ε β → List (Seen σ) → Prop}
variable {history : List (Seen σ)}

theorem safe_check_bind {x : Except ε α} {f : α → Session σ ι ω ε β}
    (returned : ∀ a, x = .ok a → (f a).Safe contract c R history)
    (raised : ∀ exc, x = .error exc → R (.error exc) history) :
    (check x >>= f).Safe contract c R history := by
  cases x with
  | ok a => exact returned a rfl
  | error exc => exact raised exc rfl

theorem safe_attempt_bind (x : Session σ ι ω ε α) (f : Except ε α → Session σ ι ω ε β) :
    (x.attempt >>= f).Safe contract c R history ↔
      x.Safe contract c (fun r h => (f r).Safe contract c R h) history := by
  induction x generalizing history with
  | ret a => rfl
  | raise exc => rfl
  | connect body next ih => simp only [attempt, connect_bind, Safe, ih]
  | ask next ih => exact forall_congr' fun a => ih a

theorem safe_map (x : Session σ ι ω ε α) (f : α → β) :
    (f <$> x).Safe contract c R history ↔
      x.Safe contract c (fun r h => R (r.map f) h) history := by
  have mapped : (f <$> x).Safe contract c R history ↔ _ :=
    safe_bind x (fun a => (ret (f a) : Session σ ι ω ε β)) history
  refine mapped.trans ⟨fun safe => safe.mono ?_, fun safe => safe.mono ?_⟩
  · intro r h holds
    cases r <;> exact holds
  · intro r h holds
    cases r <;> exact holds

end Safe

section Run

variable (draws : ℕ → ℕ → ι) (answers : ℕ → ω) (s : σ)

@[simp] theorem run_check_bind (x : Except ε α) (f : α → Session σ ι ω ε β) :
    (check x >>= f).run draws answers s =
      match x with
      | .ok a => (f a).run draws answers s
      | .error exc => (.error exc, s) := by
  cases x <;> rfl

/-- A body alone, its exception seen. -/
theorem run_attempt_within_bind (body : Block σ ι ε α) (f : Except ε α → Session σ ι ω ε β) :
    ((within body).attempt >>= f).run draws answers s =
      match body.exec (draws 0) s with
      | .ok (a, _, s') => (f (.ok a)).run (fun n => draws (n + 1)) answers s'
      | .error exc => (f (.error exc)).run (fun n => draws (n + 1)) answers s := by
  simp only [within, attempt, connect_bind, run]
  cases body.exec (draws 0) s <;> rfl

end Run

end Transaction.Session
