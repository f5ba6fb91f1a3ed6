import Mathlib.Order.Basic

/-!
# Programs over a database

The body of a connection is a tree of statements. A query outside a transaction reads what is
committed; the first statement that writes opens the transaction. The body commits when it
returns and rolls back when it raises. A session is a sequence of such bodies.
-/
namespace Transaction

/-- The body of one connection to a database `σ`. `ι` are the values it draws, such as fresh
identifiers; `ε` are its exceptions. -/
inductive Block (σ ι ε α : Type) : Type 1 where
  | ret (a : α)
  | raise (exc : ε)
  | select {β : Type} (query : σ → β) (next : β → Block σ ι ε α)
  | execute {β : Type} (statement : σ → Except ε (σ × β)) (next : Except ε β → Block σ ι ε α)
  | draw (next : ι → Block σ ι ε α)

namespace Block

variable {σ ι ε α β γ : Type}

def bind : Block σ ι ε α → (α → Block σ ι ε β) → Block σ ι ε β
  | ret a, f => f a
  | raise exc, _ => raise exc
  | select query next, f => select query fun b => (next b).bind f
  | execute statement next, f => execute statement fun r => (next r).bind f
  | draw next, f => draw fun i => (next i).bind f

instance : Monad (Block σ ι ε) where
  pure := ret
  bind := bind

/-- A query. -/
def query (q : σ → β) : Block σ ι ε β := select q ret

/-- A statement that writes; it raises what the database raises. -/
def statement (s : σ → Except ε (σ × β)) : Block σ ι ε β :=
  execute s fun
    | .ok b => ret b
    | .error exc => raise exc

/-- A statement whose exception the body sees. A statement that fails changes nothing, but the
transaction stays open. -/
def attempt (s : σ → Except ε (σ × β)) : Block σ ι ε (Except ε β) := execute s ret

def fresh : Block σ ι ε ι := draw ret

def check (x : Except ε α) : Block σ ι ε α :=
  match x with
  | .ok a => ret a
  | .error exc => raise exc

@[simp] theorem pure_eq (a : α) : (pure a : Block σ ι ε α) = ret a := rfl
@[simp] theorem ret_bind (a : α) (f : α → Block σ ι ε β) : (ret a >>= f) = f a := rfl
@[simp] theorem raise_bind (exc : ε) (f : α → Block σ ι ε β) : (raise exc >>= f) = raise exc := rfl
@[simp] theorem select_bind (q : σ → γ) (next : γ → Block σ ι ε α) (f : α → Block σ ι ε β) :
    (select q next >>= f) = select q fun b => next b >>= f := rfl
@[simp] theorem execute_bind (s : σ → Except ε (σ × γ)) (next : Except ε γ → Block σ ι ε α)
    (f : α → Block σ ι ε β) : (execute s next >>= f) = execute s fun r => next r >>= f := rfl
@[simp] theorem draw_bind (next : ι → Block σ ι ε α) (f : α → Block σ ι ε β) :
    (draw next >>= f) = draw fun i => next i >>= f := rfl

private theorem bind_ret (x : Block σ ι ε α) : x.bind ret = x := by
  induction x with
  | ret a => rfl
  | raise exc => rfl
  | select q next ih => exact congrArg (select q) (funext ih)
  | execute s next ih => exact congrArg (execute s) (funext ih)
  | draw next ih => exact congrArg draw (funext ih)

private theorem bind_bind (x : Block σ ι ε α) (f : α → Block σ ι ε β) (g : β → Block σ ι ε γ) :
    (x.bind f).bind g = x.bind fun a => (f a).bind g := by
  induction x with
  | ret a => rfl
  | raise exc => rfl
  | select q next ih => exact congrArg (select q) (funext ih)
  | execute s next ih => exact congrArg (execute s) (funext ih)
  | draw next ih => exact congrArg draw (funext ih)

instance : LawfulMonad (Block σ ι ε) :=
  LawfulMonad.mk' _ (fun x => bind_ret x) (fun _ _ => rfl) (fun x f g => bind_bind x f g)

/-! ## Running alone -/

/-- The run of a body that no other client interrupts: the result, the draws left and the
database. An exception leaves no database: it rolls back. -/
def exec : Block σ ι ε α → (ℕ → ι) → σ → Except ε (α × (ℕ → ι) × σ)
  | ret a, draws, s => .ok (a, draws, s)
  | raise exc, _, _ => .error exc
  | select q next, draws, s => (next (q s)).exec draws s
  | execute st next, draws, s =>
    match st s with
    | .ok (s', b) => (next (.ok b)).exec draws s'
    | .error exc => (next (.error exc)).exec draws s
  | draw next, draws, s => (next (draws 0)).exec (fun n => draws (n + 1)) s

section Exec

variable (draws : ℕ → ι) (s : σ)

@[simp] theorem exec_ret (a : α) : (ret a : Block σ ι ε α).exec draws s = .ok (a, draws, s) := rfl
@[simp] theorem exec_raise (exc : ε) : (raise exc : Block σ ι ε α).exec draws s = .error exc := rfl
@[simp] theorem exec_query (q : σ → β) :
    (query q : Block σ ι ε β).exec draws s = .ok (q s, draws, s) := rfl
@[simp] theorem exec_fresh :
    (fresh : Block σ ι ε ι).exec draws s = .ok (draws 0, fun n => draws (n + 1), s) := rfl
@[simp] theorem exec_pure (a : α) :
    (pure a : Block σ ι ε α).exec draws s = .ok (a, draws, s) := rfl

@[simp] theorem exec_statement (st : σ → Except ε (σ × β)) :
    (statement st : Block σ ι ε β).exec draws s = (st s).map fun r => (r.2, draws, r.1) := by
  simp only [statement, exec]
  cases st s <;> rfl

@[simp] theorem exec_check (x : Except ε α) :
    (check x : Block σ ι ε α).exec draws s = x.map fun a => (a, draws, s) := by
  cases x <;> rfl

theorem exec_bind (x : Block σ ι ε α) (f : α → Block σ ι ε β) :
    (x >>= f).exec draws s =
      match x.exec draws s with
      | .ok (a, rest, s') => (f a).exec rest s'
      | .error exc => .error exc := by
  induction x generalizing draws s with
  | ret a => rfl
  | raise exc => rfl
  | select q next ih => exact ih (q s) draws s
  | execute st next ih =>
    simp only [execute_bind, exec]
    cases st s with
    | ok r => exact ih (.ok r.2) draws r.1
    | error exc => exact ih (.error exc) draws s
  | draw next ih => exact ih (draws 0) _ s

theorem exec_bind_eq_ok {x : Block σ ι ε α} {f : α → Block σ ι ε β} {r : β × (ℕ → ι) × σ} :
    (x >>= f).exec draws s = .ok r ↔
      ∃ a between mid, x.exec draws s = .ok (a, between, mid) ∧ (f a).exec between mid = .ok r := by
  rw [exec_bind]
  cases first : x.exec draws s with
  | error exc => simp
  | ok q =>
    obtain ⟨a, between, mid⟩ := q
    constructor
    · exact fun result => ⟨a, between, mid, rfl, result⟩
    · rintro ⟨a', between', mid', same, result⟩
      cases same
      exact result

end Exec

/-! ## What a run inside a transaction satisfies -/

/-- Every run of the body on the database `s` ends in `Q`, or raises an exception in `E`. -/
def Ensures (Q : α → σ → Prop) (E : ε → Prop) : Block σ ι ε α → σ → Prop
  | ret a, s => Q a s
  | raise exc, _ => E exc
  | select q next, s => (next (q s)).Ensures Q E s
  | execute st next, s =>
    match st s with
    | .ok (s', b) => (next (.ok b)).Ensures Q E s'
    | .error exc => (next (.error exc)).Ensures Q E s
  | draw next, s => ∀ i, (next i).Ensures Q E s

section Ensures

variable {Q Q' : α → σ → Prop} {E E' : ε → Prop}

theorem Ensures.mono {x : Block σ ι ε α} {s : σ} (ensures : x.Ensures Q E s)
    (weaker : ∀ a t, Q a t → Q' a t) (weakerExc : ∀ exc, E exc → E' exc) :
    x.Ensures Q' E' s := by
  induction x generalizing s with
  | ret a => exact weaker a s ensures
  | raise exc => exact weakerExc exc ensures
  | select q next ih => exact ih (q s) ensures
  | execute st next ih =>
    simp only [Ensures] at ensures ⊢
    cases result : st s with
    | ok r => exact ih _ (by simpa [result] using ensures)
    | error exc => exact ih _ (by simpa [result] using ensures)
  | draw next ih => exact fun i => ih i (ensures i)

theorem ensures_bind (x : Block σ ι ε α) (f : α → Block σ ι ε β) {R : β → σ → Prop} (s : σ) :
    (x >>= f).Ensures R E s ↔ x.Ensures (fun a t => (f a).Ensures R E t) E s := by
  induction x generalizing s with
  | ret a => rfl
  | raise exc => rfl
  | select q next ih => exact ih (q s) s
  | execute st next ih =>
    simp only [execute_bind, Ensures]
    cases st s with
    | ok r => exact ih (.ok r.2) r.1
    | error exc => exact ih (.error exc) s
  | draw next ih => exact forall_congr' fun i => ih i s

/-- A run inside a transaction is a run alone. -/
theorem ensures_iff_exec [Nonempty ι] (x : Block σ ι ε α) (s : σ) :
    x.Ensures Q E s ↔ ∀ draws,
      match x.exec draws s with
      | .ok (a, _, s') => Q a s'
      | .error exc => E exc := by
  induction x generalizing s with
  | ret a => exact (forall_const (ℕ → ι)).symm
  | raise exc => exact (forall_const (ℕ → ι)).symm
  | select q next ih => exact ih (q s) s
  | execute st next ih =>
    simp only [Ensures, exec]
    cases st s with
    | ok r => exact ih (.ok r.2) r.1
    | error exc => exact ih (.error exc) s
  | draw next ih =>
    constructor
    · exact fun ensures draws => (ih (draws 0) s).mp (ensures (draws 0)) _
    · intro runs i
      rw [ih]
      exact fun draws => runs fun n => n.casesOn i draws

theorem ensures_of_exec [Nonempty ι] {x : Block σ ι ε α} {s : σ}
    (returned : ∀ draws a rest s', x.exec draws s = .ok (a, rest, s') → Q a s')
    (raised : ∀ draws exc, x.exec draws s = .error exc → E exc) : x.Ensures Q E s := by
  rw [ensures_iff_exec]
  intro draws
  cases result : x.exec draws s with
  | ok r => exact returned draws r.1 r.2.1 r.2.2 result
  | error exc => exact raised draws exc result

end Ensures

end Block

/-! ## Sessions -/

/-- A client: bodies of connections, each with what the client does with its result, and answers
of the outside world. -/
inductive Session (σ ι ω ε α : Type) : Type 1 where
  | ret (a : α)
  | raise (exc : ε)
  | connect {β : Type} (body : Block σ ι ε β) (next : Except ε β → Session σ ι ω ε α)
  | ask (next : ω → Session σ ι ω ε α)

namespace Session

variable {σ ι ω ε α β : Type}

def bind : Session σ ι ω ε α → (α → Session σ ι ω ε β) → Session σ ι ω ε β
  | ret a, f => f a
  | raise exc, _ => raise exc
  | connect body next, f => connect body fun r => (next r).bind f
  | ask next, f => ask fun w => (next w).bind f

instance : Monad (Session σ ι ω ε) where
  pure := ret
  bind := bind

/-- `with connect()`: the exception of the body is the client's. -/
def within (body : Block σ ι ε α) : Session σ ι ω ε α :=
  connect body fun
    | .ok a => ret a
    | .error exc => raise exc

@[simp] theorem pure_eq (a : α) : (pure a : Session σ ι ω ε α) = ret a := rfl
@[simp] theorem ret_bind (a : α) (f : α → Session σ ι ω ε β) : (ret a >>= f) = f a := rfl
@[simp] theorem raise_bind (exc : ε) (f : α → Session σ ι ω ε β) :
    (raise exc >>= f) = raise exc := rfl
@[simp] theorem connect_bind {γ : Type} (body : Block σ ι ε γ)
    (next : Except ε γ → Session σ ι ω ε α) (f : α → Session σ ι ω ε β) :
    (connect body next >>= f) = connect body fun r => next r >>= f := rfl
@[simp] theorem ask_bind (next : ω → Session σ ι ω ε α) (f : α → Session σ ι ω ε β) :
    (ask next >>= f) = ask fun w => next w >>= f := rfl

private theorem bind_ret (x : Session σ ι ω ε α) : x.bind ret = x := by
  induction x with
  | ret a => rfl
  | raise exc => rfl
  | connect body next ih => exact congrArg (connect body) (funext ih)
  | ask next ih => exact congrArg ask (funext ih)

private theorem bind_bind {γ : Type} (x : Session σ ι ω ε α) (f : α → Session σ ι ω ε β)
    (g : β → Session σ ι ω ε γ) : (x.bind f).bind g = x.bind fun a => (f a).bind g := by
  induction x with
  | ret a => rfl
  | raise exc => rfl
  | connect body next ih => exact congrArg (connect body) (funext ih)
  | ask next ih => exact congrArg ask (funext ih)

instance : LawfulMonad (Session σ ι ω ε) :=
  LawfulMonad.mk' _ (fun x => bind_ret x) (fun _ _ => rfl) (fun x f g => bind_bind x f g)

/-- The session run alone, each connection with its own draws. -/
def run : Session σ ι ω ε α → (ℕ → ℕ → ι) → (ℕ → ω) → σ → Except ε α × σ
  | ret a, _, _, s => (.ok a, s)
  | raise exc, _, _, s => (.error exc, s)
  | connect body next, draws, answers, s =>
    match body.exec (draws 0) s with
    | .ok (b, _, s') => (next (.ok b)).run (fun n => draws (n + 1)) answers s'
    | .error exc => (next (.error exc)).run (fun n => draws (n + 1)) answers s
  | ask next, draws, answers, s => (next (answers 0)).run draws (fun n => answers (n + 1)) s

section Run

variable (draws : ℕ → ℕ → ι) (answers : ℕ → ω) (s : σ)

@[simp] theorem run_ret (a : α) :
    (ret a : Session σ ι ω ε α).run draws answers s = (.ok a, s) := rfl
@[simp] theorem run_raise (exc : ε) :
    (raise exc : Session σ ι ω ε α).run draws answers s = (.error exc, s) := rfl

theorem run_within (body : Block σ ι ε β) (f : β → Session σ ι ω ε α) :
    (within body >>= f).run draws answers s =
      match body.exec (draws 0) s with
      | .ok (b, _, s') => (f b).run (fun n => draws (n + 1)) answers s'
      | .error exc => (.error exc, s) := by
  simp only [within, connect_bind, run]
  cases body.exec (draws 0) s <;> rfl

end Run

end Session

end Transaction
