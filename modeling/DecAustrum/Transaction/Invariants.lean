import DecAustrum.Transaction.Rules

/-!
# Invariants

An invariant that every body keeps, whatever the databases it read before its transaction, holds
in every world. Bodies are composed of units, and a body of units that keep it keeps it.
-/
namespace Transaction

variable {C σ ι ω ε α β : Type}

namespace Block

/-- The body keeps `inv` and moves along `rel` if it opens its transaction on a database in
`opening`. What it read before may be out of date by then, but no more than `rel` allows. -/
def KeepsFrom (inv : σ → Prop) (rel : σ → σ → Prop) : (σ → Prop) → Block σ ι ε β → Prop
  | _, ret _ => True
  | _, raise _ => True
  | opening, select q next => ∀ s, inv s →
      KeepsFrom inv rel (fun t => opening t ∧ rel s t) (next (q s))
  | opening, execute st next => ∀ s, inv s → opening s →
      (execute st next).Ensures (fun _ t => inv t ∧ rel s t) (fun _ => True) s
  | opening, draw next => ∀ i, KeepsFrom inv rel opening (next i)

/-- The body keeps `inv` wherever it opens its transaction. -/
abbrev Keeps (inv : σ → Prop) (rel : σ → σ → Prop) (x : Block σ ι ε β) : Prop :=
  x.KeepsFrom inv rel fun _ => True

section Keeps

variable {opening inv : σ → Prop} {rel : σ → σ → Prop}

theorem KeepsFrom.mono {narrower : σ → Prop} {x : Block σ ι ε β} (keeps : x.KeepsFrom inv rel opening)
    (within : ∀ s, narrower s → opening s) : x.KeepsFrom inv rel narrower := by
  induction x generalizing opening narrower with
  | ret a => trivial
  | raise exc => trivial
  | select q next ih =>
    exact fun s holds => ih (q s) (keeps s holds) fun t ⟨inside, known⟩ => ⟨within t inside, known⟩
  | execute st next => exact fun s holds inside => keeps s holds (within s inside)
  | draw next ih => exact fun i => ih i (keeps i) within

/-- Inside a transaction nothing is out of date. -/
theorem KeepsFrom.ensures (refl : ∀ s, rel s s) {x : Block σ ι ε β}
    (keeps : x.KeepsFrom inv rel opening) {s : σ} (holds : inv s) (opens : opening s) :
    x.Ensures (fun _ t => inv t ∧ rel s t) (fun _ => True) s := by
  induction x generalizing opening with
  | ret a => exact ⟨holds, refl s⟩
  | raise exc => trivial
  | select q next ih => exact ih (q s) (keeps s holds) ⟨opens, refl s⟩
  | execute st next => exact keeps s holds opens
  | draw next ih => exact fun i => ih i (keeps i) opens

/-- Only the first part decides on what the transaction opens. -/
theorem KeepsFrom.bind (refl : ∀ s, rel s s) (trans : ∀ s t u, rel s t → rel t u → rel s u)
    {x : Block σ ι ε α} {f : α → Block σ ι ε β} (first : x.KeepsFrom inv rel opening)
    (second : ∀ a, (f a).Keeps inv rel) : (x >>= f).KeepsFrom inv rel opening := by
  induction x generalizing opening with
  | ret a => exact (second a).mono fun _ _ => trivial
  | raise exc => trivial
  | select q next ih => exact fun s holds => ih (q s) (first s holds)
  | execute st next =>
    intro s holds opens
    have all := (ensures_bind (.execute st next) f s
      (R := fun _ t => inv t ∧ rel s t) (E := fun _ => True)).mpr
    refine all ((first s holds opens).mono ?_ fun _ h => h)
    intro a t ⟨kept, related⟩
    exact ((second a).ensures refl kept trivial).mono
      (fun _ u ⟨keptU, relatedU⟩ => ⟨keptU, trans _ _ _ related relatedU⟩) fun _ h => h
  | draw next ih => exact fun i => ih i (first i)

theorem keeps_query_bind {q : σ → α} {f : α → Block σ ι ε β}
    (later : ∀ s, inv s → (f (q s)).KeepsFrom inv rel fun t => opening t ∧ rel s t) :
    (query q >>= f).KeepsFrom inv rel opening := later

theorem keeps_ret (b : β) : (ret b : Block σ ι ε β).KeepsFrom inv rel opening := trivial

theorem keeps_query (q : σ → β) : (query q : Block σ ι ε β).KeepsFrom inv rel opening :=
  fun _ _ => trivial

theorem keeps_check (x : Except ε α) : (check x : Block σ ι ε α).KeepsFrom inv rel opening := by
  cases x <;> trivial

theorem keeps_fresh : (fresh : Block σ ι ε ι).KeepsFrom inv rel opening := fun _ => trivial

/-- The body reads nothing before its first write. -/
def Immediate : Block σ ι ε β → Prop
  | ret _ => True
  | raise _ => True
  | select _ _ => False
  | execute _ _ => True
  | draw next => ∀ i, (next i).Immediate

theorem Immediate.bind {x : Block σ ι ε α} {f : α → Block σ ι ε β} (first : x.Immediate)
    (second : ∀ a, (f a).Immediate) : (x >>= f).Immediate := by
  induction x with
  | ret a => exact second a
  | raise exc => trivial
  | select q next => exact first
  | execute st next => trivial
  | draw next ih => exact fun i => ih i (first i)

theorem immediate_check (x : Except ε α) : (check x : Block σ ι ε α).Immediate := by
  cases x <;> trivial

/-- For a body that reads nothing out of date, its run alone decides. -/
theorem keeps_of_exec [Nonempty ι] {x : Block σ ι ε β} (immediate : x.Immediate)
    (kept : ∀ draws s b rest t, inv s → opening s → x.exec draws s = .ok (b, rest, t) →
      inv t ∧ rel s t) :
    x.KeepsFrom inv rel opening := by
  induction x with
  | ret a => trivial
  | raise exc => trivial
  | select q next => exact absurd immediate id
  | execute st next =>
    exact fun s holds opens => ensures_of_exec
      (fun draws b rest t ran => kept draws s b rest t holds opens ran) fun _ _ _ => trivial
  | draw next ih =>
    refine fun i => ih i (immediate i) fun draws s b rest t holds opens ran => ?_
    exact kept (fun n => n.casesOn (motive := fun _ => ι) i draws) s b rest t holds opens ran

end Keeps

/-! ## What a body leaves alone -/

/-- A run of the body leaves what `view` shows. -/
def Leaves {ρ : Type} (view : σ → ρ) (x : Block σ ι ε β) : Prop :=
  ∀ draws s b rest t, x.exec draws s = .ok (b, rest, t) → view t = view s

section Leaves

variable {ρ : Type} {view : σ → ρ}

theorem leaves_ret (b : β) : (ret b : Block σ ι ε β).Leaves view := by
  intro draws s b' rest t ran
  cases ran
  rfl

theorem leaves_raise (exc : ε) : (raise exc : Block σ ι ε β).Leaves view := by
  intro draws s b rest t ran
  cases ran

theorem leaves_query (q : σ → β) : (query q : Block σ ι ε β).Leaves view := by
  intro draws s b rest t ran
  cases ran
  rfl

theorem leaves_fresh : (fresh : Block σ ι ε ι).Leaves view := by
  intro draws s b rest t ran
  cases ran
  rfl

theorem leaves_check (x : Except ε β) : (check x : Block σ ι ε β).Leaves view := by
  cases x with
  | ok b => exact leaves_ret b
  | error exc => exact leaves_raise exc

theorem leaves_execute {γ : Type} {st : σ → Except ε (σ × γ)} {next : Except ε γ → Block σ ι ε β}
    (kept : ∀ s t c, st s = .ok (t, c) → view t = view s) (later : ∀ r, (next r).Leaves view) :
    (execute st next).Leaves view := by
  intro draws s b rest t ran
  rw [exec] at ran
  cases result : st s with
  | ok r =>
    rw [result] at ran
    exact (later _ _ _ _ _ _ ran).trans (kept s r.1 r.2 result)
  | error exc =>
    rw [result] at ran
    exact later _ _ _ _ _ _ ran

theorem leaves_statement {st : σ → Except ε (σ × β)}
    (kept : ∀ s t b, st s = .ok (t, b) → view t = view s) :
    (statement st : Block σ ι ε β).Leaves view := by
  refine leaves_execute kept fun r => ?_
  cases r with
  | ok b => exact leaves_ret b
  | error exc => exact leaves_raise exc

theorem Leaves.bind {x : Block σ ι ε α} {f : α → Block σ ι ε β} (first : x.Leaves view)
    (second : ∀ a, (f a).Leaves view) : (x >>= f).Leaves view := by
  intro draws s b rest t ran
  rw [exec_bind_eq_ok] at ran
  obtain ⟨a, between, mid, one, two⟩ := ran
  exact (second a _ _ _ _ _ two).trans (first _ _ _ _ _ one)

end Leaves

/-! ## What a body maintains -/

/-- What holds before a run of the body holds after it. -/
def Maintains (inv : σ → Prop) (x : Block σ ι ε β) : Prop :=
  ∀ draws s b rest t, inv s → x.exec draws s = .ok (b, rest, t) → inv t

section Maintains

variable {inv : σ → Prop}

theorem Leaves.maintains {ρ : Type} {view : σ → ρ} {x : Block σ ι ε β} (leaves : x.Leaves view)
    (depends : ∀ s t, view t = view s → inv s → inv t) : x.Maintains inv := by
  intro draws s b rest t holds ran
  exact depends s t (leaves draws s b rest t ran) holds

theorem maintains_execute {γ : Type} {st : σ → Except ε (σ × γ)}
    {next : Except ε γ → Block σ ι ε β} (kept : ∀ s t c, inv s → st s = .ok (t, c) → inv t)
    (later : ∀ r, (next r).Maintains inv) : (execute st next).Maintains inv := by
  intro draws s b rest t holds ran
  rw [exec] at ran
  cases result : st s with
  | ok r =>
    rw [result] at ran
    exact later _ _ _ _ _ _ (kept s r.1 r.2 holds result) ran
  | error exc =>
    rw [result] at ran
    exact later _ _ _ _ _ _ holds ran

theorem maintains_statement {st : σ → Except ε (σ × β)}
    (kept : ∀ s t b, inv s → st s = .ok (t, b) → inv t) :
    (statement st : Block σ ι ε β).Maintains inv := by
  apply maintains_execute kept
  intro r
  cases r with
  | ok b =>
    intro draws s b rest t holds ran
    cases ran
    exact holds
  | error exc =>
    intro draws s b rest t holds ran
    cases ran

theorem Maintains.bind {x : Block σ ι ε α} {f : α → Block σ ι ε β} (first : x.Maintains inv)
    (second : ∀ a, (f a).Maintains inv) : (x >>= f).Maintains inv := by
  intro draws s b rest t holds ran
  rw [exec_bind_eq_ok] at ran
  obtain ⟨a, between, mid, one, two⟩ := ran
  exact second a _ _ _ _ _ (first _ _ _ _ _ holds one) two

/-- A body that reads nothing before its first write keeps what it maintains. -/
theorem Maintains.keeps [Nonempty ι] {x : Block σ ι ε β} (maintains : x.Maintains inv)
    (immediate : x.Immediate) : x.Keeps inv fun _ _ => True := by
  apply keeps_of_exec immediate
  intro draws s b rest t holds _ ran
  exact ⟨maintains draws s b rest t holds ran, trivial⟩

end Maintains

/-! ## Units -/

/-- A body composed of queries, draws and the units `U`. -/
inductive Composed (U : (β : Type) → Block σ ι ε β → Prop) : (β : Type) → Block σ ι ε β → Prop
  | ret {β : Type} (a : β) : Composed U β (ret a)
  | raise {β : Type} (exc : ε) : Composed U β (raise exc)
  | query {β : Type} (q : σ → β) : Composed U β (query q)
  | check {β : Type} (x : Except ε β) : Composed U β (check x)
  | fresh : Composed U ι fresh
  | unit {β : Type} {x : Block σ ι ε β} (unit : U β x) : Composed U β x
  | bind {β γ : Type} {x : Block σ ι ε β} {f : β → Block σ ι ε γ} (first : Composed U β x)
      (second : ∀ b, Composed U γ (f b)) : Composed U γ (x >>= f)

theorem Composed.keeps {U : (β : Type) → Block σ ι ε β → Prop} {inv : σ → Prop}
    {rel : σ → σ → Prop} (refl : ∀ s, rel s s) (trans : ∀ s t u, rel s t → rel t u → rel s u)
    (units : ∀ (β : Type) (x : Block σ ι ε β), U β x → x.Keeps inv rel) {x : Block σ ι ε β}
    (composed : Composed U β x) : x.Keeps inv rel := by
  induction composed with
  | ret a => trivial
  | raise exc => trivial
  | query q => exact keeps_query q
  | check x => exact keeps_check x
  | fresh => exact keeps_fresh
  | unit member => exact units _ _ member
  | bind _ _ first second => exact KeepsFrom.bind refl trans first second

/-- Units that are composed of others. -/
theorem Composed.flatten {U V : (β : Type) → Block σ ι ε β → Prop} {x : Block σ ι ε β}
    (composed : Composed U β x)
    (units : ∀ (γ : Type) (y : Block σ ι ε γ), U γ y → Composed V γ y) : Composed V β x := by
  induction composed with
  | ret a => exact .ret a
  | raise exc => exact .raise exc
  | query q => exact .query q
  | check x => exact .check x
  | fresh => exact .fresh
  | unit member => exact units _ _ member
  | bind _ _ first second => exact .bind first second

/-- What every unit leaves alone, a body composed of them does. -/
theorem Composed.leaves {U : (β : Type) → Block σ ι ε β → Prop} {ρ : Type} {view : σ → ρ}
    (units : ∀ (β : Type) (x : Block σ ι ε β), U β x → x.Leaves view) {x : Block σ ι ε β}
    (composed : Composed U β x) : x.Leaves view := by
  induction composed with
  | ret a => exact leaves_ret a
  | raise exc => exact leaves_raise exc
  | query q => exact leaves_query q
  | check x => exact leaves_check x
  | fresh => exact leaves_fresh
  | unit member => exact units _ _ member
  | bind _ _ first second => exact first.bind second

/-! ## Two facts about one body -/

theorem Ensures.and {x : Block σ ι ε β} {Q Q' : β → σ → Prop} {E E' : ε → Prop} {s : σ}
    (first : x.Ensures Q E s) (second : x.Ensures Q' E' s) :
    x.Ensures (fun b t => Q b t ∧ Q' b t) (fun exc => E exc ∧ E' exc) s := by
  induction x generalizing s with
  | ret b => exact ⟨first, second⟩
  | raise exc => exact ⟨first, second⟩
  | select q next ih => exact ih (q s) first second
  | execute st next ih =>
    simp only [Ensures] at first second ⊢
    cases ran : st s with
    | ok r =>
      rw [ran] at first second
      exact ih _ first second
    | error exc =>
      rw [ran] at first second
      exact ih _ first second
  | draw next ih => exact fun i => ih i (first i) (second i)

/-- An invariant that the body keeps besides another one. -/
theorem KeepsFrom.and {inv inv' opening opening' : σ → Prop} {rel : σ → σ → Prop}
    {x : Block σ ι ε β} (first : x.KeepsFrom inv rel opening)
    (second : x.KeepsFrom inv' (fun _ _ => True) opening')
    (opens : ∀ s, opening s → opening' s) :
    x.KeepsFrom (fun s => inv s ∧ inv' s) rel opening := by
  induction x generalizing opening opening' with
  | ret b => trivial
  | raise exc => trivial
  | select q next ih =>
    exact fun s holds => ih (q s) (first s holds.1) (second s holds.2) fun t inside =>
      ⟨opens t inside.1, trivial⟩
  | execute st next =>
    intro s holds inside
    refine ((first s holds.1 inside).and (second s holds.2 (opens s inside))).mono ?_ fun _ _ => trivial
    exact fun b t ⟨kept, other⟩ => ⟨⟨kept.1, other.1⟩, kept.2⟩
  | draw next ih => exact fun i => ih i (first i) (second i) opens

theorem Outside.and {contract : Contract C σ} {c : C} {x : Block σ ι ε β}
    {Q Q' : β → List (Seen σ) → Prop} {T T' : β → List (Seen σ) → σ → σ → Prop}
    {E E' : ε → List (Seen σ) → Prop} {history : List (Seen σ)}
    (first : x.Outside contract c Q T E history) (second : x.Outside contract c Q' T' E' history) :
    x.Outside contract c (fun b h => Q b h ∧ Q' b h) (fun b h s t => T b h s t ∧ T' b h s t)
      (fun exc h => E exc h ∧ E' exc h) history := by
  induction x generalizing history with
  | ret b => exact ⟨first, second⟩
  | raise exc => exact ⟨first, second⟩
  | select q next ih => exact fun s inv knows => ih (q s) (first s inv knows) (second s inv knows)
  | execute st next =>
    exact fun s inv knows allowed => (first s inv knows allowed).and (second s inv knows allowed)
  | draw next ih => exact fun i => ih i (first i) (second i)

/-! ## Reads that are not out of date -/

/-- What the body reads before its first write is the same on databases that `same` relates. -/
def ReadsBy (same : σ → σ → Prop) : Block σ ι ε β → Prop
  | ret _ => True
  | raise _ => True
  | select q next => (∀ s t, same s t → q s = q t) ∧ ∀ s, (next (q s)).ReadsBy same
  | execute _ _ => True
  | draw next => ∀ i, (next i).ReadsBy same

theorem ReadsBy.bind {same : σ → σ → Prop} {x : Block σ ι ε α} {f : α → Block σ ι ε β}
    (first : x.ReadsBy same) (second : ∀ a, (f a).ReadsBy same) : (x >>= f).ReadsBy same := by
  induction x with
  | ret a => exact second a
  | raise exc => trivial
  | select q next ih => exact ⟨first.1, fun s => ih (q s) (first.2 s)⟩
  | execute st next => trivial
  | draw next ih => exact fun i => ih i (first i)

theorem readsBy_query_bind {same : σ → σ → Prop} {q : σ → α} {f : α → Block σ ι ε β}
    (agrees : ∀ s t, same s t → q s = q t) (later : ∀ s, (f (q s)).ReadsBy same) :
    (query q >>= f).ReadsBy same := ⟨agrees, later⟩

theorem readsBy_check {same : σ → σ → Prop} (x : Except ε α) :
    (check x : Block σ ι ε α).ReadsBy same := by
  cases x <;> trivial

/-- Where what it read is not out of date, a body that commits has run as if alone. -/
theorem outside_of_exec [Nonempty ι] {contract : Contract C σ} {c : C} {same : σ → σ → Prop}
    {x : Block σ ι ε β} (reads : x.ReadsBy same) {Q : β → List (Seen σ) → Prop}
    {T : β → List (Seen σ) → σ → σ → Prop} {E : ε → List (Seen σ) → Prop} (ret : ∀ b h, Q b h)
    (raised : ∀ exc h, E exc h) (history : List (Seen σ))
    (fresh : ∀ later s, contract.allowed c (history ++ later) s → ∀ d, Seen.read d ∈ later → same d s)
    (commits : ∀ later draws s b rest t, contract.inv s → contract.Knows (history ++ later) s →
      contract.allowed c (history ++ later) s → x.exec draws s = .ok (b, rest, t) →
      T b (history ++ later) s t) :
    x.Outside contract c Q T E history := by
  induction x generalizing history with
  | ret b => exact ret b history
  | raise exc => exact raised exc history
  | select q next ih =>
    intro s₀ _ _
    refine ih (q s₀) (reads.2 s₀) (history ++ [.read s₀]) ?_ ?_
    · intro later s allowed d member
      rw [List.append_assoc] at allowed
      exact fresh _ s allowed d (List.mem_append_right _ member)
    · intro later draws s b rest t inv knows allowed ran
      rw [List.append_assoc] at knows allowed ⊢
      refine commits _ draws s b rest t inv knows allowed ?_
      have current : q s₀ = q s := reads.1 _ _ (fresh _ s allowed s₀ (by simp))
      rw [exec, ← current]
      exact ran
  | execute st next =>
    intro s inv knows allowed
    refine ensures_of_exec ?_ fun _ _ _ => raised _ _
    intro draws b rest t ran
    have all := commits [] draws s b rest t inv
    simp only [List.append_nil] at all
    exact all knows allowed ran
  | draw next ih =>
    refine fun i => ih i (reads i) history fresh ?_
    intro later draws s b rest t inv knows allowed ran
    exact commits later (fun n => n.casesOn (motive := fun _ => ι) i draws) s b rest t inv knows
      allowed ran

/-- The body does nothing before its first write, and does not end before it. -/
def Opens : Block σ ι ε β → Prop
  | ret _ => False
  | raise _ => False
  | select _ _ => False
  | execute _ _ => True
  | draw next => ∀ i, (next i).Opens

/-- A body that starts with a write runs on the database it opens its transaction on. -/
theorem outside_of_opens {contract : Contract C σ} {c : C} {x : Block σ ι ε β}
    {Q : β → List (Seen σ) → Prop} {T : β → List (Seen σ) → σ → σ → Prop}
    {E : ε → List (Seen σ) → Prop} {history : List (Seen σ)} (opens : x.Opens)
    (runs : ∀ s, contract.inv s → contract.Knows history s → contract.allowed c history s →
      x.Ensures (fun b t => T b history s t) (fun exc => E exc (history ++ [.rollback s])) s) :
    x.Outside contract c Q T E history := by
  induction x with
  | ret b => exact absurd opens id
  | raise exc => exact absurd opens id
  | select q next => exact absurd opens id
  | execute st next => exact runs
  | draw next ih =>
    exact fun i => ih i (opens i) fun s inv knows allowed => runs s inv knows allowed i

end Block

/-! ## Sessions -/

/-- Every connection of the session has a body in `P`. -/
def Session.Bodies (P : (β : Type) → Block σ ι ε β → Prop) : Session σ ι ω ε α → Prop
  | .ret _ => True
  | .raise _ => True
  | .connect body next => P _ body ∧ ∀ r, (next r).Bodies P
  | .ask next => ∀ a, (next a).Bodies P

namespace Session

variable {P Q : (β : Type) → Block σ ι ε β → Prop}

theorem Bodies.bind {x : Session σ ι ω ε α} {f : α → Session σ ι ω ε β} (first : x.Bodies P)
    (second : ∀ a, (f a).Bodies P) : (x >>= f).Bodies P := by
  induction x with
  | ret a => exact second a
  | raise exc => trivial
  | connect body next ih => exact ⟨first.1, fun r => ih r (first.2 r)⟩
  | ask next ih => exact fun a => ih a (first a)

theorem Bodies.mono {x : Session σ ι ω ε α} (bodies : x.Bodies P)
    (weaker : ∀ (β : Type) (body : Block σ ι ε β), P β body → Q β body) : x.Bodies Q := by
  induction x with
  | ret a => trivial
  | raise exc => trivial
  | connect body next ih => exact ⟨weaker _ body bodies.1, fun r => ih r (bodies.2 r)⟩
  | ask next ih => exact fun a => ih a (bodies a)

theorem bodies_within {body : Block σ ι ε β} (member : P β body) :
    (within body : Session σ ι ω ε β).Bodies P := by
  refine ⟨member, ?_⟩
  intro r
  cases r <;> trivial

end Session

section Contract

variable {contract : Contract C σ} {c : C}

/-- A body that keeps the invariant of a contract, from where its transaction may open. -/
theorem Block.KeepsFrom.outside_of {base opening : σ → Prop}
    (opens : ∀ h s, contract.allowed c h s → base s) {x : Block σ ι ε β}
    (keeps : x.KeepsFrom contract.inv contract.rel opening)
    {Q : β → List (Seen σ) → Prop} {T : β → List (Seen σ) → σ → σ → Prop}
    {E : ε → List (Seen σ) → Prop} (ret : ∀ b h, Q b h)
    (inside : ∀ b h s t, contract.inv t → contract.rel s t → T b h s t)
    (raised : ∀ exc h, E exc h) (history : List (Seen σ))
    (known : ∀ s, base s → (∀ event ∈ history, contract.rel event.state s) → opening s) :
    x.Outside contract c Q T E history := by
  induction x generalizing history opening with
  | ret b => exact ret b history
  | raise exc => exact raised exc history
  | select q next ih =>
    refine fun s holds _ => ih (q s) (keeps s holds) _ fun t inside knows => ⟨?_, ?_⟩
    · exact known t inside fun event member => knows event (List.mem_append_left _ member)
    · exact knows (.read s) (List.mem_append_right _ (List.mem_singleton_self _))
  | execute st next =>
    intro s holds knows permitted
    exact (keeps s holds (known s (opens _ s permitted) knows)).mono
      (fun b t ⟨kept, related⟩ => inside b history s t kept related) fun exc _ => raised exc _
  | draw next ih => exact fun i => ih i (keeps i) history known

/-- A connection whose body keeps the invariant, with what is known of its body besides. -/
theorem Session.safe_within_bind {body : Block σ ι ε β} {f : β → Session σ ι ω ε α}
    {Q : β → List (Seen σ) → Prop} {T : β → List (Seen σ) → σ → σ → Prop}
    {E : ε → List (Seen σ) → Prop} {R : Except ε α → List (Seen σ) → Prop}
    {history : List (Seen σ)} (keeps : body.Keeps contract.inv contract.rel)
    (facts : body.Outside contract c Q T E history)
    (ret : ∀ b h, Q b h → (f b).Safe contract c R h)
    (inside : ∀ b h s t, T b h s t →
      contract.commits c h s t ∧ (f b).Safe contract c R (h ++ [.commit s t]))
    (raised : ∀ exc h, E exc h → R (.error exc) h) :
    (within body >>= f).Safe contract c R history := by
  have kept : body.Outside contract c (fun _ _ => True)
      (fun _ _ s t => contract.inv t ∧ contract.rel s t) (fun _ _ => True) history := by
    apply keeps.outside_of (fun _ _ _ => trivial) (fun _ _ => trivial)
    · exact fun _ _ _ _ holds related => ⟨holds, related⟩
    · exact fun _ _ => trivial
    · exact fun _ _ _ => trivial
  refine (kept.and facts).mono ?_ ?_ ?_
  · exact fun b h known => ret b h known.2
  · intro b h s t known
    obtain ⟨commits, safe⟩ := inside b h s t known.2
    exact ⟨known.1.1, known.1.2, commits, safe⟩
  · exact fun exc h known => raised exc h known.2

/-- A connection whose body keeps the invariant, where what follows depends on nothing else. -/
theorem Session.safe_kept_bind {body : Block σ ι ε β} {f : β → Session σ ι ω ε α}
    {R : Except ε α → List (Seen σ) → Prop} {history : List (Seen σ)}
    (keeps : body.Keeps contract.inv contract.rel) (commits : ∀ h s t, contract.commits c h s t)
    (later : ∀ b h, (f b).Safe contract c R h) (raised : ∀ exc h, R (.error exc) h) :
    (within body >>= f).Safe contract c R history := by
  apply keeps.outside_of (fun _ _ _ => trivial) later
  · exact fun b h s t kept related => ⟨kept, related, commits h s t, later b _⟩
  · exact raised
  · exact fun _ _ _ => trivial

/-- A session of bodies that keep the invariant, where nothing more is asked of its commits. -/
theorem Session.safe_of_keeps {session : Session σ ι ω ε α}
    (bodies : session.Bodies fun _ body => body.Keeps contract.inv contract.rel)
    (commits : ∀ h s t, contract.commits c h s t) (history : List (Seen σ)) :
    session.Safe contract c (fun _ _ => True) history := by
  induction session generalizing history with
  | ret a => trivial
  | raise exc => trivial
  | connect body next ih =>
    refine Block.KeepsFrom.outside_of (fun _ _ _ => trivial) bodies.1
      (fun b h => ih (.ok b) (bodies.2 _) h) ?_ (fun exc h => ih (.error exc) (bodies.2 _) h)
      history fun _ (_ : True) _ => trivial
    exact fun b h s t kept related => ⟨kept, related, commits h s t, ih (.ok b) (bodies.2 _) _⟩
  | ask next ih => exact fun a => ih a (bodies a) history

end Contract

/-- The contract of an invariant: nothing is asked of commits. -/
def invariantContract (inv : σ → Prop) (rel : σ → σ → Prop) (refl : ∀ s, rel s s)
    (trans : ∀ s t u, rel s t → rel t u → rel s u) (allowed : C → List (Seen σ) → σ → Prop) :
    Contract C σ where
  inv := inv
  rel := rel
  refl := refl
  trans := trans
  allowed := allowed
  commits _ _ _ _ := True

section Invariant

variable {inv opening : σ → Prop} {rel : σ → σ → Prop} (refl : ∀ s, rel s s)
variable (trans : ∀ s t u, rel s t → rel t u → rel s u) (allowed : C → List (Seen σ) → σ → Prop)

theorem Block.KeepsFrom.outside (c : C) (base : σ → Prop)
    (opens : ∀ h s, allowed c h s → base s) {x : Block σ ι ε β} {opening : σ → Prop}
    (keeps : x.KeepsFrom inv rel opening)
    {Q : β → List (Seen σ) → Prop} {T : β → List (Seen σ) → σ → σ → Prop}
    {E : ε → List (Seen σ) → Prop} (ret : ∀ b h, Q b h)
    (inside : ∀ b h s t, inv t → rel s t → T b h s t) (raised : ∀ exc h, E exc h)
    (history : List (Seen σ))
    (known : ∀ s, base s → (∀ event ∈ history, rel event.state s) → opening s) :
    x.Outside (invariantContract inv rel refl trans allowed) c Q T E history :=
  Block.KeepsFrom.outside_of opens keeps ret inside raised history known

theorem Session.safe_of_bodies (c : C) (opens : ∀ h s, allowed c h s → opening s)
    (session : Session σ ι ω ε α)
    (bodies : session.Bodies fun _ body => body.KeepsFrom inv rel opening)
    (history : List (Seen σ)) :
    session.Safe (invariantContract inv rel refl trans allowed) c (fun _ _ => True) history := by
  induction session generalizing history with
  | ret a => trivial
  | raise exc => trivial
  | connect body next ih =>
    refine bodies.1.outside refl trans allowed c opening opens
      (fun b h => ih (.ok b) (bodies.2 _) h) ?_ (fun exc h => ih (.error exc) (bodies.2 _) h)
      history fun s inside _ => inside
    exact fun b h s t kept related => ⟨kept, related, trivial, ih (.ok b) (bodies.2 _) _⟩
  | ask next ih => exact fun a => ih a (bodies a) history

/-- An invariant that every body keeps, from where it is allowed to open its transaction, holds of
what is committed, and every commit moves along the relation. -/
theorem invariant_reachable [DecidableEq C] (refl : ∀ s, rel s s)
    (trans : ∀ s t u, rel s t → rel t u → rel s u) (allowed : C → List (Seen σ) → σ → Prop)
    (opening : C → σ → Prop) (opens : ∀ c h s, allowed c h s → opening c s) (s : σ) (holds : inv s)
    (programs : C → Session σ ι ω ε α)
    (bodies : ∀ c, (programs c).Bodies fun _ body => body.KeepsFrom inv rel (opening c))
    (w : World C σ ι ω ε α) (reachable : Reachable allowed s programs w) :
    inv w.committed ∧ Linked s w.log w.committed ∧
      ∀ entry ∈ w.log, rel entry.before entry.after ∧ inv entry.before ∧ inv entry.after := by
  have sound := (invariantContract inv rel refl trans allowed).sound s
    holds programs (fun c => Session.safe_of_bodies refl trans allowed c (opens c) (programs c)
      (bodies c) []) w reachable
  exact ⟨sound.inv, sound.linked, fun entry member =>
    have facts := sound.entries entry member
    ⟨facts.1, facts.2.1, facts.2.2.1⟩⟩

end Invariant

/-! ## Commits that exclude each other -/

/-- Of commits that cannot come one after the other, a run has one at most. -/
theorem Linked.filter_length_le_one {R : σ → σ → Prop} (refl : ∀ s, R s s)
    (trans : ∀ s t u, R s t → R t u → R s u) {s t : σ} {log : List (Commit C σ)}
    (linked : Linked s log t) (step : ∀ entry ∈ log, R entry.before entry.after)
    {p : Commit C σ → Bool}
    (excludes : ∀ a ∈ log, ∀ b ∈ log, p a = true → p b = true → ¬ R a.after b.before) :
    (log.filter p).length ≤ 1 := by
  have ordered := (linked.pairwise refl trans step).filter p
  have members (entry : Commit C σ) (member : entry ∈ log.filter p) := List.mem_filter.mp member
  cases found : log.filter p with
  | nil => exact Nat.zero_le 1
  | cons first rest =>
    cases rest with
    | nil => exact Nat.le_refl 1
    | cons second rest =>
      rw [found] at ordered members
      obtain ⟨inFirst, isFirst⟩ := members first (by simp)
      obtain ⟨inSecond, isSecond⟩ := members second (by simp)
      have later := (List.pairwise_cons.mp ordered).1 second (List.mem_cons_self ..)
      exact absurd later (excludes first inFirst second inSecond isFirst isSecond)

/-! ## Sessions that have ended -/

section Ended

variable [DecidableEq C] {contract : Contract C σ} {s : σ} {w : World C σ ι ω ε α}
variable {result : C → Except ε α → List (Seen σ) → Prop}

private theorem Contract.Holds.ended (holds : contract.Holds result s w) {c : C}
    {session : Session σ ι ω ε α} (ended : w.session c = some session)
    (quiet : ∀ (β : Type) (body : Block σ ι ε β) next, session ≠ .connect body next) :
    session.Safe contract c (result c) (w.history c) := by
  refine holds.safe c session ended fun t writing => ?_
  obtain ⟨-, β, body, next, found, -⟩ := holds.inside c t writing
  rw [ended, Option.some.injEq] at found
  exact quiet β body next found

theorem Contract.Holds.returned (holds : contract.Holds result s w) (c : C) (a : α)
    (ended : w.session c = some (.ret a)) : result c (.ok a) (w.history c) :=
  holds.ended ended fun _ _ _ same => by cases same

theorem Contract.Holds.raised (holds : contract.Holds result s w) (c : C) (exc : ε)
    (ended : w.session c = some (.raise exc)) : result c (.error exc) (w.history c) :=
  holds.ended ended fun _ _ _ same => by cases same

end Ended

end Transaction
