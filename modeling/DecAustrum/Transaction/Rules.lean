import DecAustrum.Transaction.Interleaving
import Mathlib.Data.List.Pairwise

/-!
# Rules for interleaved sessions

A contract says what every committed database satisfies, how committed databases evolve and what
a commit does. Sessions that are safe for the contract, each on its own, keep it under every
interleaving.
-/
namespace Transaction

structure Contract (C σ : Type) where
  inv : σ → Prop
  /-- A later committed database, as seen from an earlier one. -/
  rel : σ → σ → Prop
  refl : ∀ s, rel s s
  trans : ∀ s t u, rel s t → rel t u → rel s u
  /-- When a client may open its transaction. -/
  allowed : C → List (Seen σ) → σ → Prop
  /-- What a commit satisfies: the client's history, and the databases before and after. -/
  commits : C → List (Seen σ) → σ → σ → Prop

variable {C σ ι ω ε α β γ : Type}

/-- Everything the client has seen is older than `s`. -/
def Contract.Knows (contract : Contract C σ) (history : List (Seen σ)) (s : σ) : Prop :=
  ∀ event ∈ history, contract.rel event.state s

/-- The body is safe outside a transaction: `Q` if it returns there, `T` if it returns inside one,
`E` if it raises. -/
def Block.Outside (contract : Contract C σ) (c : C) (Q : β → List (Seen σ) → Prop)
    (T : β → List (Seen σ) → σ → σ → Prop) (E : ε → List (Seen σ) → Prop) :
    List (Seen σ) → Block σ ι ε β → Prop
  | history, .ret b => Q b history
  | history, .raise exc => E exc history
  | history, .select q next => ∀ s, contract.inv s → contract.Knows history s →
      Outside contract c Q T E (history ++ [.read s]) (next (q s))
  | history, .execute st next => ∀ s, contract.inv s → contract.Knows history s →
      contract.allowed c history s →
      (Block.execute st next).Ensures (fun b after => T b history s after)
        (fun exc => E exc (history ++ [.rollback s])) s
  | history, .draw next => ∀ i, Outside contract c Q T E history (next i)

/-- The session is safe from a history on, and ends in `R`. -/
def Session.Safe (contract : Contract C σ) (c : C) (R : Except ε α → List (Seen σ) → Prop) :
    List (Seen σ) → Session σ ι ω ε α → Prop
  | history, .ret a => R (.ok a) history
  | history, .raise exc => R (.error exc) history
  | history, .connect body next =>
    body.Outside contract c (fun b h => Safe contract c R h (next (.ok b)))
      (fun b h before after => contract.inv after ∧ contract.rel before after ∧
        contract.commits c h before after ∧
        Safe contract c R (h ++ [.commit before after]) (next (.ok b)))
      (fun exc h => Safe contract c R h (next (.error exc))) history
  | history, .ask next => ∀ a, Safe contract c R history (next a)

/-! ## Composition -/

section Composition

variable {contract : Contract C σ} {c : C}

theorem Block.outside_bind (x : Block σ ι ε β) (f : β → Block σ ι ε γ)
    {Q : γ → List (Seen σ) → Prop} {T : γ → List (Seen σ) → σ → σ → Prop}
    {E : ε → List (Seen σ) → Prop} (history : List (Seen σ)) :
    (x >>= f).Outside contract c Q T E history ↔
      x.Outside contract c (fun b h => (f b).Outside contract c Q T E h)
        (fun b h before s => (f b).Ensures (fun a after => T a h before after)
          (fun exc => E exc (h ++ [.rollback before])) s) E history := by
  induction x generalizing history with
  | ret b => rfl
  | raise exc => rfl
  | select q next ih =>
    exact forall_congr' fun s => imp_congr_right fun _ => imp_congr_right fun _ => ih (q s) _
  | execute st next ih =>
    refine forall_congr' fun s => imp_congr_right fun _ => imp_congr_right fun _ =>
      imp_congr_right fun _ => ?_
    exact ensures_bind (.execute st next) f s
  | draw next ih => exact forall_congr' fun i => ih i history

theorem Block.Outside.mono {x : Block σ ι ε β} {Q Q' : β → List (Seen σ) → Prop}
    {T T' : β → List (Seen σ) → σ → σ → Prop} {E E' : ε → List (Seen σ) → Prop}
    {history : List (Seen σ)} (safe : x.Outside contract c Q T E history)
    (ret : ∀ b h, Q b h → Q' b h) (inside : ∀ b h s t, T b h s t → T' b h s t)
    (raised : ∀ exc h, E exc h → E' exc h) : x.Outside contract c Q' T' E' history := by
  induction x generalizing history with
  | ret b => exact ret b history safe
  | raise exc => exact raised exc history safe
  | select q next ih => exact fun s inv knows => ih (q s) (safe s inv knows)
  | execute st next ih =>
    exact fun s inv knows allowed => (safe s inv knows allowed).mono
      (fun b t => inside b history s t) fun exc => raised exc _
  | draw next ih => exact fun i => ih i (safe i)

theorem Session.safe_bind (x : Session σ ι ω ε β) (f : β → Session σ ι ω ε α)
    {R : Except ε α → List (Seen σ) → Prop} (history : List (Seen σ)) :
    (x >>= f).Safe contract c R history ↔
      x.Safe contract c (fun r h =>
        match r with
        | .ok b => (f b).Safe contract c R h
        | .error exc => R (.error exc) h) history := by
  induction x generalizing history with
  | ret b => rfl
  | raise exc => rfl
  | connect body next ih =>
    simp only [connect_bind, Safe, ih]
  | ask next ih => exact forall_congr' fun a => ih a history

/-- A connection that only reads. -/
theorem Session.safe_query_bind {q : σ → β} {f : β → Session σ ι ω ε α}
    {R : Except ε α → List (Seen σ) → Prop} {history : List (Seen σ)}
    (later : ∀ s, contract.inv s → contract.Knows history s →
      (f (q s)).Safe contract c R (history ++ [.read s])) :
    (within (Block.query q) >>= f).Safe contract c R history := later

theorem Session.Safe.mono {x : Session σ ι ω ε α} {R R' : Except ε α → List (Seen σ) → Prop}
    {history : List (Seen σ)} (safe : x.Safe contract c R history)
    (weaker : ∀ r h, R r h → R' r h) : x.Safe contract c R' history := by
  induction x generalizing history with
  | ret b => exact weaker _ _ safe
  | raise exc => exact weaker _ _ safe
  | connect body next ih =>
    exact Block.Outside.mono safe (fun b _ => ih (.ok b))
      (fun b _ _ _ ⟨inv, rel, commits, rest⟩ => ⟨inv, rel, commits, ih (.ok b) rest⟩)
      fun exc _ => ih (.error exc)
  | ask next ih => exact fun a => ih a (safe a)

end Composition

/-! ## Commits in order -/

/-- The commits lead from one database to another. -/
def Linked : σ → List (Commit C σ) → σ → Prop
  | s, [], t => s = t
  | s, entry :: rest, t => entry.before = s ∧ Linked entry.after rest t

theorem linked_append (s t u : σ) (log later : List (Commit C σ)) (first : Linked s log t)
    (second : Linked t later u) : Linked s (log ++ later) u := by
  induction log generalizing s with
  | nil =>
    cases first
    exact second
  | cons entry rest ih => exact ⟨first.1, ih entry.after first.2⟩

/-- A relation kept by every commit holds between the ends. -/
theorem Linked.rel {R : σ → σ → Prop} (refl : ∀ s, R s s)
    (trans : ∀ s t u, R s t → R t u → R s u) {s t : σ} {log : List (Commit C σ)}
    (linked : Linked s log t) (step : ∀ entry ∈ log, R entry.before entry.after) : R s t := by
  induction log generalizing s with
  | nil => exact linked ▸ refl s
  | cons entry rest ih =>
    obtain ⟨rfl, tail⟩ := linked
    exact trans _ _ _ (step entry (by simp))
      (ih tail fun e member => step e (List.mem_cons_of_mem _ member))

/-- The start evolves into what a commit starts on. -/
theorem Linked.starts {R : σ → σ → Prop} (refl : ∀ s, R s s)
    (trans : ∀ s t u, R s t → R t u → R s u) {s t : σ} {log : List (Commit C σ)}
    (linked : Linked s log t) (step : ∀ entry ∈ log, R entry.before entry.after) :
    ∀ entry ∈ log, R s entry.before := by
  induction log generalizing s with
  | nil => exact fun _ member => by cases member
  | cons entry rest ih =>
    obtain ⟨rfl, tail⟩ := linked
    intro e member
    rcases List.mem_cons.mp member with rfl | inRest
    · exact refl _
    · exact trans _ _ _ (step entry (List.mem_cons_self ..))
        (ih tail (fun x later => step x (List.mem_cons_of_mem _ later)) e inRest)

/-- What a commit leaves evolves into the end. -/
theorem Linked.ends {R : σ → σ → Prop} (refl : ∀ s, R s s)
    (trans : ∀ s t u, R s t → R t u → R s u) {s t : σ} {log : List (Commit C σ)}
    (linked : Linked s log t) (step : ∀ entry ∈ log, R entry.before entry.after) :
    ∀ entry ∈ log, R entry.after t := by
  induction log generalizing s with
  | nil => exact fun _ member => by cases member
  | cons entry rest ih =>
    have stepRest : ∀ e ∈ rest, R e.before e.after :=
      fun e member => step e (List.mem_cons_of_mem _ member)
    intro e member
    rcases List.mem_cons.mp member with rfl | inRest
    · exact linked.2.rel refl trans stepRest
    · exact ih linked.2 stepRest e inRest

/-- The end of a commit evolves into what the later ones start on. -/
theorem Linked.pairwise {R : σ → σ → Prop} (refl : ∀ s, R s s)
    (trans : ∀ s t u, R s t → R t u → R s u) {s t : σ} {log : List (Commit C σ)}
    (linked : Linked s log t) (step : ∀ entry ∈ log, R entry.before entry.after) :
    log.Pairwise fun a b => R a.after b.before := by
  induction log generalizing s with
  | nil => exact .nil
  | cons entry rest ih =>
    have stepRest : ∀ e ∈ rest, R e.before e.after :=
      fun e member => step e (List.mem_cons_of_mem _ member)
    exact .cons (linked.2.starts refl trans stepRest) (ih linked.2 stepRest)

/-- Of two commits of the log one comes first, and its end evolves into the start of the other. -/
theorem Linked.ordered {R : σ → σ → Prop} (refl : ∀ s, R s s)
    (trans : ∀ s t u, R s t → R t u → R s u) {s t : σ} {log : List (Commit C σ)}
    (linked : Linked s log t) (step : ∀ entry ∈ log, R entry.before entry.after)
    {a b : Commit C σ} (ha : a ∈ log) (hb : b ∈ log) (ne : a ≠ b) :
    R a.after b.before ∨ R b.after a.before := by
  have pairwise : log.Pairwise fun a b => R a.after b.before ∨ R b.after a.before :=
    (linked.pairwise refl trans step).imp .inl
  have : Std.Symm fun a b : Commit C σ => R a.after b.before ∨ R b.after a.before :=
    ⟨fun _ _ => Or.symm⟩
  exact pairwise.forall ha hb ne

/-! ## Soundness -/

/-- What the contract promises of a reachable world. -/
structure Contract.Holds [DecidableEq C] (contract : Contract C σ)
    (result : C → Except ε α → List (Seen σ) → Prop) (s : σ) (w : World C σ ι ω ε α) : Prop where
  inv : contract.inv w.committed
  linked : Linked s w.log w.committed
  entries : ∀ entry ∈ w.log, contract.rel entry.before entry.after ∧
    contract.inv entry.before ∧ contract.inv entry.after ∧
    contract.Knows entry.history entry.before ∧
    contract.allowed entry.client entry.history entry.before ∧
    contract.commits entry.client entry.history entry.before entry.after
  knows : ∀ c, contract.Knows (w.history c) w.committed
  /-- A commit a client remembers is in the log. -/
  logged : ∀ c before after, .commit before after ∈ w.history c →
    ∃ entry ∈ w.log, entry.client = c ∧ entry.before = before ∧ entry.after = after
  /-- A client remembers its commits, and what came before each. -/
  remembered : ∀ entry ∈ w.log, ∃ later,
    w.history entry.client = entry.history ++ .commit entry.before entry.after :: later
  safe : ∀ c session, w.session c = some session → w.Outside c →
    session.Safe contract c (result c) (w.history c)
  /-- The open transaction, on what is committed. -/
  inside : ∀ c s, w.writer = some (c, s) → contract.allowed c (w.history c) w.committed ∧
    ∃ (β : Type) (body : Block σ ι ε β) (next : Except ε β → Session σ ι ω ε α),
      w.session c = some (.connect body next) ∧
      body.Ensures
        (fun b after => contract.inv after ∧ contract.rel w.committed after ∧
          contract.commits c (w.history c) w.committed after ∧
          (next (.ok b)).Safe contract c (result c) (w.history c ++ [.commit w.committed after]))
        (fun exc => (next (.error exc)).Safe contract c (result c) (w.history c ++ [.rollback w.committed])) s

section Soundness

variable [DecidableEq C] {contract : Contract C σ}
variable {result : C → Except ε α → List (Seen σ) → Prop} {s : σ} {w : World C σ ι ω ε α}

omit [DecidableEq C] in
theorem Contract.Knows.mono {history : List (Seen σ)} {s t : σ}
    (knows : contract.Knows history s) (later : contract.rel s t) : contract.Knows history t :=
  fun event member => contract.trans _ _ _ (knows event member) later

omit [DecidableEq C] in
theorem Contract.Knows.snoc {history : List (Seen σ)} {s : σ} (knows : contract.Knows history s)
    (event : Seen σ) (known : contract.rel event.state s) :
    contract.Knows (history ++ [event]) s := by
  intro e member
  rcases List.mem_append.mp member with old | new
  · exact knows e old
  · rw [List.mem_singleton.mp new]
    exact known

theorem ensures_outcome {Q : β → σ → Prop} {E : ε → Prop} {st : σ → Except ε (σ × γ)}
    {next : Except ε γ → Block σ ι ε β} {s : σ} (ensures : (Block.execute st next).Ensures Q E s) :
    (next (outcome st s).2).Ensures Q E (outcome st s).1 := by
  unfold outcome
  simp only [Block.Ensures] at ensures
  cases result : st s with
  | ok r => simpa [result] using ensures
  | error exc => simpa [result] using ensures

/-- A step of a client outside a transaction. -/
private theorem holds_outside (holds : contract.Holds result s w) (c : C) (outside : w.Outside c)
    (session : Session σ ι ω ε α) (history : List (Seen σ))
    (knows : contract.Knows history w.committed)
    (old : ∀ before after, .commit before after ∈ history →
      .commit before after ∈ w.history c)
    (grown : ∃ later, history = w.history c ++ later)
    (safe : session.Safe contract c (result c) history) :
    contract.Holds result s { w with
      session := Function.update w.session c (some session)
      history := Function.update w.history c history } where
  inv := holds.inv
  linked := holds.linked
  entries := holds.entries
  knows d := by
    by_cases same : d = c
    · subst same
      simpa using knows
    · simpa [same] using holds.knows d
  logged d before after member := by
    by_cases same : d = c
    · subst same
      exact holds.logged d before after (old before after (by simpa using member))
    · exact holds.logged d before after (by simpa [same] using member)
  remembered entry member := by
    obtain ⟨later, remembered⟩ := holds.remembered entry member
    by_cases same : entry.client = c
    · obtain ⟨more, rfl⟩ := grown
      rw [same] at remembered
      exact ⟨later ++ more, by simp [same, remembered]⟩
    · exact ⟨later, by simpa [same] using remembered⟩
  safe d other found out := by
    by_cases same : d = c
    · subst same
      obtain rfl : session = other := by simpa using found
      simpa using safe
    · simpa [same] using holds.safe d other (by simpa [same] using found) out
  inside d t writing := by
    have apart : d ≠ c := fun same => outside t (same ▸ writing)
    simpa [apart] using holds.inside d t writing

/-- A step of the client whose transaction is or gets open. -/
private theorem holds_inside (holds : contract.Holds result s w) (c : C)
    (alone : ∀ d t, w.writer = some (d, t) → d = c) (t : σ) (body : Block σ ι ε β)
    (next : Except ε β → Session σ ι ω ε α)
    (allowed : contract.allowed c (w.history c) w.committed)
    (ensures : body.Ensures
      (fun b after => contract.inv after ∧ contract.rel w.committed after ∧
        contract.commits c (w.history c) w.committed after ∧
        (next (.ok b)).Safe contract c (result c) (w.history c ++ [.commit w.committed after]))
      (fun exc => (next (.error exc)).Safe contract c (result c)
        (w.history c ++ [.rollback w.committed])) t) :
    contract.Holds result s { w.resume c (.connect body next) with writer := some (c, t) } where
  inv := holds.inv
  linked := holds.linked
  entries := holds.entries
  knows := holds.knows
  logged := holds.logged
  remembered := holds.remembered
  safe d other found out := by
    have apart : d ≠ c := by
      rintro rfl
      exact out t rfl
    refine holds.safe d other (by simpa [World.resume, apart] using found) ?_
    intro u writing
    exact apart (alone d u writing)
  inside d u writing := by
    obtain ⟨rfl, rfl⟩ : c = d ∧ t = u := by simpa using writing
    exact ⟨allowed, β, body, next, by simp [World.resume], ensures⟩

/-- A client ends its transaction. -/
private theorem holds_end (holds : contract.Holds result s w) (c : C)
    (alone : ∀ d t, w.writer = some (d, t) → d = c) (session : Session σ ι ω ε α) (event : Seen σ)
    (committed : σ) (log : List (Commit C σ)) (inv : contract.inv committed)
    (later : contract.rel w.committed committed) (known : contract.rel event.state committed)
    (linked : Linked w.committed log committed)
    (entries : ∀ entry ∈ log, contract.rel entry.before entry.after ∧
      contract.inv entry.before ∧ contract.inv entry.after ∧
      contract.Knows entry.history entry.before ∧
      contract.allowed entry.client entry.history entry.before ∧
      contract.commits entry.client entry.history entry.before entry.after)
    (logged : ∀ before after, .commit before after = event →
      ∃ entry ∈ log, entry.client = c ∧ entry.before = before ∧ entry.after = after)
    (remembered : ∀ entry ∈ log, entry.client = c ∧ entry.history = w.history c ∧
      .commit entry.before entry.after = event)
    (safe : session.Safe contract c (result c) (w.history c ++ [event])) :
    contract.Holds result s { (w.resume c session).record c event with
      committed := committed, writer := none, log := w.log ++ log } where
  inv := inv
  linked := linked_append s w.committed committed w.log log holds.linked linked
  entries entry member := by
    rcases List.mem_append.mp member with old | new
    · exact holds.entries entry old
    · exact entries entry new
  knows d := by
    by_cases same : d = c
    · subst same
      simpa [World.record, World.resume] using ((holds.knows d).mono later).snoc event known
    · simpa [World.record, World.resume, same] using (holds.knows d).mono later
  logged d before after member := by
    by_cases same : d = c
    · subst same
      have cases : .commit before after ∈ w.history d ∨ .commit before after = event := by
        simpa [World.record, World.resume] using member
      rcases cases with old | new
      · obtain ⟨entry, inLog, facts⟩ := holds.logged d before after old
        exact ⟨entry, List.mem_append_left _ inLog, facts⟩
      · obtain ⟨entry, inLog, facts⟩ := logged before after new
        exact ⟨entry, List.mem_append_right _ inLog, facts⟩
    · obtain ⟨entry, inLog, facts⟩ := holds.logged d before after
        (by simpa [World.record, World.resume, same] using member)
      exact ⟨entry, List.mem_append_left _ inLog, facts⟩
  remembered entry member := by
    rcases List.mem_append.mp member with old | new
    · obtain ⟨later, known⟩ := holds.remembered entry old
      by_cases same : entry.client = c
      · rw [same] at known
        exact ⟨later ++ [event], by simp [World.record, World.resume, same, known]⟩
      · exact ⟨later, by simpa [World.record, World.resume, same] using known⟩
    · obtain ⟨rfl, history, isEvent⟩ := remembered entry new
      exact ⟨[], by simp [World.record, World.resume, history, isEvent]⟩
  safe d other found _ := by
    by_cases same : d = c
    · subst same
      obtain rfl : session = other := by simpa [World.record, World.resume] using found
      simpa [World.record, World.resume] using safe
    · have before := holds.safe d other (by simpa [World.record, World.resume, same] using found)
        fun t writing => same (alone d t writing)
      simpa [World.record, World.resume, same] using before
  inside d t writing := by cases writing

theorem Contract.Holds.step {w' : World C σ ι ω ε α} (holds : contract.Holds result s w)
    (step : Step contract.allowed w w') : contract.Holds result s w' := by
  cases step with
  | read c query next k pc outside =>
    have safe := holds.safe c _ pc outside w.committed holds.inv (holds.knows c)
    refine holds_outside holds c outside _ _ ((holds.knows c).snoc _ (contract.refl _)) ?_
      ⟨[_], rfl⟩ safe
    intro before after member
    simpa [World.resume] using member
  | readOwn c query next k t pc inside =>
    obtain ⟨allowed, β', body, next', found, ensures⟩ := holds.inside c t inside
    rw [pc] at found
    cases found
    have alone : ∀ d u, w.writer = some (d, u) → d = c := by simp_all
    have after := holds_inside holds c alone t (next (query t)) k allowed ensures
    simpa [World.resume, inside] using after
  | begin c st next k pc free permitted =>
    have outside : w.Outside c := by simp [World.Outside, free]
    have safe := holds.safe c _ pc outside w.committed holds.inv (holds.knows c) permitted
    exact holds_inside holds c (by simp [free]) _ _ k permitted (ensures_outcome safe)
  | write c st next k t pc inside =>
    obtain ⟨allowed, β', body, next', found, ensures⟩ := holds.inside c t inside
    rw [pc] at found
    cases found
    exact holds_inside holds c (by simp_all) _ _ k allowed (ensures_outcome ensures)
  | draw c next k i pc =>
    by_cases writing : ∃ t, w.writer = some (c, t)
    · obtain ⟨t, inside⟩ := writing
      obtain ⟨allowed, β', body, next', found, ensures⟩ := holds.inside c t inside
      rw [pc] at found
      cases found
      have alone : ∀ d u, w.writer = some (d, u) → d = c := by simp_all
      have after := holds_inside holds c alone t (next i) k allowed (ensures i)
      simpa [World.resume, inside] using after
    · have outside : w.Outside c := fun t inside => writing ⟨t, inside⟩
      have safe := holds.safe c _ pc outside i
      simpa [World.resume] using holds_outside holds c outside (.connect (next i) k) (w.history c)
        (holds.knows c) (fun _ _ m => m) ⟨[], by simp⟩ safe
  | commit c b k t pc inside =>
    obtain ⟨allowed, β', body, next', found, ensures⟩ := holds.inside c t inside
    rw [pc] at found
    cases found
    obtain ⟨inv, later, commits, safe⟩ := ensures
    refine holds_end holds c (by simp_all) _ _ t _ inv later (contract.refl t) ⟨rfl, rfl⟩ ?_ ?_ ?_ safe
    · intro entry member
      rw [List.mem_singleton.mp member]
      exact ⟨later, holds.inv, inv, holds.knows c, allowed, commits⟩
    · intro before after same
      cases same
      exact ⟨_, List.mem_singleton_self _, rfl, rfl, rfl⟩
    · intro entry member
      rw [List.mem_singleton.mp member]
      exact ⟨rfl, rfl, rfl⟩
  | close c b k pc outside =>
    have safe := holds.safe c _ pc outside
    simpa [World.resume] using holds_outside holds c outside (k (.ok b)) (w.history c)
      (holds.knows c) (fun _ _ m => m) ⟨[], by simp⟩ safe
  | rollback c exc k t pc inside =>
    obtain ⟨allowed, β', body, next', found, ensures⟩ := holds.inside c t inside
    rw [pc] at found
    cases found
    have after := holds_end holds c (by simp_all) (k (.error exc)) (.rollback w.committed)
      w.committed [] holds.inv (contract.refl _) (contract.refl _) rfl (by simp) (by simp) (by simp)
      ensures
    simpa [World.record, World.resume] using after
  | fail c exc k pc outside =>
    have safe := holds.safe c _ pc outside
    simpa [World.resume] using holds_outside holds c outside (k (.error exc)) (w.history c)
      (holds.knows c) (fun _ _ m => m) ⟨[], by simp⟩ safe
  | answer c next a pc =>
    have outside : w.Outside c := by
      intro t inside
      obtain ⟨-, β', body, next', found, -⟩ := holds.inside c t inside
      rw [pc] at found
      cases found
    have safe := holds.safe c _ pc outside a
    simpa [World.resume] using
      holds_outside holds c outside _ (w.history c) (holds.knows c) (fun _ _ m => m) ⟨[], by simp⟩ safe
  | kill c =>
    have others : ∀ d t, d ≠ c →
        ((w.writer.filter fun held => held.1 ≠ c) = some (d, t) ↔ w.writer = some (d, t)) := by
      intro d t apart
      rw [Option.filter_eq_some_iff]
      simp [apart]
    refine ⟨holds.inv, holds.linked, holds.entries, holds.knows, holds.logged, holds.remembered, ?_, ?_⟩
    · intro d other found out
      by_cases same : d = c
      · subst same
        simp at found
      · refine holds.safe d other (by simpa [same] using found) ?_
        exact fun t writing => out t ((others d t same).mpr writing)
    · intro d t writing
      by_cases same : d = c
      · subst same
        simp [Option.filter_eq_some_iff] at writing
      · simpa [same] using holds.inside d t ((others d t same).mp writing)

/-- Safe sessions keep the contract under every interleaving. -/
theorem Contract.sound (contract : Contract C σ) (s : σ) (inv : contract.inv s)
    (programs : C → Session σ ι ω ε α) (safe : ∀ c, (programs c).Safe contract c (result c) [])
    (w : World C σ ι ω ε α) (reachable : Reachable contract.allowed s programs w) :
    contract.Holds result s w := by
  induction reachable with
  | refl =>
    refine ⟨inv, rfl, by simp [World.start], by simp [World.start, Contract.Knows],
      by simp [World.start], by simp [World.start], ?_, by simp [World.start]⟩
    intro c session found _
    obtain rfl : programs c = session := by simpa [World.start] using found
    exact safe c
  | tail _ step ih => exact ih.step step

/-! ### Later worlds -/

/-- A step records nothing or what is committed after it. -/
theorem Contract.Holds.step_later {w' : World C σ ι ω ε α} (holds : contract.Holds result s w)
    (step : Step contract.allowed w w') :
    contract.rel w.committed w'.committed ∧
      ∀ c, ∃ later, w'.history c = w.history c ++ later ∧
        ∀ event ∈ later, event.state = w'.committed := by
  have quiet (v : World C σ ι ω ε α) (committed : v.committed = w.committed)
      (history : v.history = w.history) :
      contract.rel w.committed v.committed ∧ ∀ c, ∃ later, v.history c = w.history c ++ later ∧
        ∀ event ∈ later, event.state = v.committed :=
    ⟨committed ▸ contract.refl _, fun c => ⟨[], by simp [history], by simp⟩⟩
  have recorded (d : C) (event : Seen σ) (t : σ) (state : event.state = t) :
      ∀ c, ∃ later, Function.update w.history d (w.history d ++ [event]) c = w.history c ++ later ∧
        ∀ e ∈ later, e.state = t := by
    intro c
    by_cases same : c = d
    · subst same
      exact ⟨[event], by simp, by simpa using state⟩
    · exact ⟨[], by simp [same], by simp⟩
  cases step with
  | read c query next k pc outside =>
    exact ⟨contract.refl _, recorded c (.read w.committed) w.committed rfl⟩
  | readOwn c query next k t pc inside => exact quiet _ rfl rfl
  | begin c st next k pc free permitted => exact quiet _ rfl rfl
  | write c st next k t pc inside => exact quiet _ rfl rfl
  | draw c next k i pc => exact quiet _ rfl rfl
  | commit c b k t pc inside =>
    obtain ⟨-, β', body, next', found, ensures⟩ := holds.inside c t inside
    rw [pc] at found
    cases found
    exact ⟨ensures.2.1, recorded c (.commit w.committed t) t rfl⟩
  | close c b k pc outside => exact quiet _ rfl rfl
  | rollback c exc k t pc inside =>
    exact ⟨contract.refl _, recorded c (.rollback w.committed) w.committed rfl⟩
  | fail c exc k pc outside => exact quiet _ rfl rfl
  | answer c next a pc => exact quiet _ rfl rfl
  | kill c => exact quiet _ rfl rfl

/-- What a client sees from a world on is later than what is committed in that world. -/
theorem Contract.Holds.run_later {w' : World C σ ι ω ε α} (holds : contract.Holds result s w)
    (run : Relation.ReflTransGen (Step contract.allowed) w w') :
    contract.Holds result s w' ∧ contract.rel w.committed w'.committed ∧
      ∀ c, ∃ later, w'.history c = w.history c ++ later ∧
        ∀ event ∈ later, contract.rel w.committed event.state := by
  induction run with
  | refl => exact ⟨holds, contract.refl _, fun c => ⟨[], by simp, by simp⟩⟩
  | tail _ step ih =>
    obtain ⟨between, evolved, grown⟩ := ih
    obtain ⟨more, records⟩ := between.step_later step
    have reached := contract.trans _ _ _ evolved more
    refine ⟨between.step step, reached, fun c => ?_⟩
    obtain ⟨later, history, states⟩ := grown c
    obtain ⟨new, appended, newStates⟩ := records c
    refine ⟨later ++ new, by rw [appended, history, List.append_assoc], ?_⟩
    intro event member
    rcases List.mem_append.mp member with old | last
    · exact states event old
    · rw [newStates event last]
      exact reached

end Soundness

end Transaction
