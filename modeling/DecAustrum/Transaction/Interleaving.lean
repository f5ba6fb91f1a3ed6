import DecAustrum.Transaction.Program
import Mathlib.Logic.Function.Basic
import Mathlib.Logic.Relation

/-!
# Interleaved sessions

Any number of clients run their sessions one statement at a time. There is one writer: a client
opens its transaction at its first writing statement, on the database committed at that moment,
and the others read what is committed until it commits. A client can be killed at any time.
-/
namespace Transaction

/-- What a client has been through: databases it read outside a transaction, its commits and its
rollbacks. -/
inductive Seen (σ : Type) where
  | read (s : σ)
  | commit (before after : σ)
  | rollback (before : σ)

/-- The last committed database that the client knows of by the event. -/
def Seen.state {σ : Type} : Seen σ → σ
  | .read s => s
  | .commit _ after => after
  | .rollback before => before

/-- The databases that a client read outside its transactions. -/
def reads {σ : Type} (history : List (Seen σ)) : List σ :=
  history.filterMap fun
    | .read s => some s
    | _ => none

theorem mem_reads {σ : Type} {history : List (Seen σ)} {s : σ} :
    s ∈ reads history ↔ .read s ∈ history := by
  rw [reads, List.mem_filterMap]
  constructor
  · rintro ⟨event, member, found⟩
    cases event with
    | read t =>
      cases found
      exact member
    | commit before after => cases found
    | rollback before => cases found
  · exact fun member => ⟨_, member, rfl⟩

/-- The commits of a client, each with the database before and after. -/
def commitsOf {σ : Type} (history : List (Seen σ)) : List (σ × σ) :=
  history.filterMap fun
    | .commit before after => some (before, after)
    | _ => none

section

variable {σ : Type} (history : List (Seen σ))

@[simp] theorem commitsOf_read (s : σ) : commitsOf (history ++ [.read s]) = commitsOf history := by
  simp [commitsOf]

@[simp] theorem commitsOf_rollback (s : σ) :
    commitsOf (history ++ [.rollback s]) = commitsOf history := by
  simp [commitsOf]

@[simp] theorem commitsOf_commit (before after : σ) :
    commitsOf (history ++ [.commit before after]) = commitsOf history ++ [(before, after)] := by
  simp [commitsOf]

end

structure Commit (C σ : Type) where
  client : C
  /-- What the client had been through when it opened the transaction. -/
  history : List (Seen σ)
  before : σ
  after : σ

structure World (C σ ι ω ε α : Type) where
  committed : σ
  /-- The client whose transaction is open, and the database it sees. -/
  writer : Option (C × σ)
  /-- A killed client has no session. -/
  session : C → Option (Session σ ι ω ε α)
  history : C → List (Seen σ)
  log : List (Commit C σ)

/-- A statement that fails leaves the database as it was. -/
def outcome {σ ε β : Type} (statement : σ → Except ε (σ × β)) (s : σ) : σ × Except ε β :=
  match statement s with
  | .ok (s', b) => (s', .ok b)
  | .error exc => (s, .error exc)

namespace World

variable {C σ ι ω ε α : Type} [DecidableEq C]

def start (s : σ) (programs : C → Session σ ι ω ε α) : World C σ ι ω ε α :=
  ⟨s, none, fun c => some (programs c), fun _ => [], []⟩

/-- The client goes on with a session. -/
def resume (w : World C σ ι ω ε α) (c : C) (session : Session σ ι ω ε α) :
    World C σ ι ω ε α :=
  { w with session := Function.update w.session c (some session) }

def record (w : World C σ ι ω ε α) (c : C) (event : Seen σ) : World C σ ι ω ε α :=
  { w with history := Function.update w.history c (w.history c ++ [event]) }

/-- The client has no open transaction. -/
def Outside (w : World C σ ι ω ε α) (c : C) : Prop := ∀ d, w.writer ≠ some (c, d)

end World

open World

/-- One step of one client. `allowed c history s` says when a client may open its transaction
on `s`; runs without a restriction allow every opening. -/
inductive Step {C σ ι ω ε α : Type} [DecidableEq C] (allowed : C → List (Seen σ) → σ → Prop) :
    World C σ ι ω ε α → World C σ ι ω ε α → Prop where
  | read {w β γ} (c : C) (query : σ → γ) (next : γ → Block σ ι ε β)
      (k : Except ε β → Session σ ι ω ε α)
      (pc : w.session c = some (.connect (.select query next) k)) (outside : w.Outside c) :
      Step allowed w ((w.resume c (.connect (next (query w.committed)) k)).record c
        (.read w.committed))
  | readOwn {w β γ} (c : C) (query : σ → γ) (next : γ → Block σ ι ε β)
      (k : Except ε β → Session σ ι ω ε α) (s : σ)
      (pc : w.session c = some (.connect (.select query next) k))
      (inside : w.writer = some (c, s)) :
      Step allowed w (w.resume c (.connect (next (query s)) k))
  | begin {w β γ} (c : C) (st : σ → Except ε (σ × γ)) (next : Except ε γ → Block σ ι ε β)
      (k : Except ε β → Session σ ι ω ε α)
      (pc : w.session c = some (.connect (.execute st next) k)) (free : w.writer = none)
      (permitted : allowed c (w.history c) w.committed) :
      Step allowed w { w.resume c (.connect (next (outcome st w.committed).2) k) with
        writer := some (c, (outcome st w.committed).1) }
  | write {w β γ} (c : C) (st : σ → Except ε (σ × γ)) (next : Except ε γ → Block σ ι ε β)
      (k : Except ε β → Session σ ι ω ε α) (s : σ)
      (pc : w.session c = some (.connect (.execute st next) k))
      (inside : w.writer = some (c, s)) :
      Step allowed w { w.resume c (.connect (next (outcome st s).2) k) with
        writer := some (c, (outcome st s).1) }
  | draw {w β} (c : C) (next : ι → Block σ ι ε β) (k : Except ε β → Session σ ι ω ε α) (i : ι)
      (pc : w.session c = some (.connect (.draw next) k)) :
      Step allowed w (w.resume c (.connect (next i) k))
  | commit {w β} (c : C) (b : β) (k : Except ε β → Session σ ι ω ε α) (s : σ)
      (pc : w.session c = some (.connect (.ret b) k)) (inside : w.writer = some (c, s)) :
      Step allowed w { (w.resume c (k (.ok b))).record c (.commit w.committed s) with
        committed := s, writer := none,
        log := w.log ++ [⟨c, w.history c, w.committed, s⟩] }
  | close {w β} (c : C) (b : β) (k : Except ε β → Session σ ι ω ε α)
      (pc : w.session c = some (.connect (.ret b) k)) (outside : w.Outside c) :
      Step allowed w (w.resume c (k (.ok b)))
  | rollback {w β} (c : C) (exc : ε) (k : Except ε β → Session σ ι ω ε α) (s : σ)
      (pc : w.session c = some (.connect (.raise exc) k)) (inside : w.writer = some (c, s)) :
      Step allowed w { (w.resume c (k (.error exc))).record c (.rollback w.committed) with
        writer := none }
  | fail {w β} (c : C) (exc : ε) (k : Except ε β → Session σ ι ω ε α)
      (pc : w.session c = some (.connect (.raise exc) k)) (outside : w.Outside c) :
      Step allowed w (w.resume c (k (.error exc)))
  | answer {w} (c : C) (next : ω → Session σ ι ω ε α) (a : ω)
      (pc : w.session c = some (.ask next)) :
      Step allowed w (w.resume c (next a))
  | kill {w} (c : C) :
      Step allowed w { w with
        session := Function.update w.session c none,
        writer := w.writer.filter fun held => held.1 ≠ c }

/-- The worlds reached from a database and one session for each client. -/
def Reachable {C σ ι ω ε α : Type} [DecidableEq C] (allowed : C → List (Seen σ) → σ → Prop)
    (s : σ) (programs : C → Session σ ι ω ε α) : World C σ ι ω ε α → Prop :=
  Relation.ReflTransGen (Step allowed) (World.start s programs)

/-- Every opening is allowed. -/
def anyOpening {C σ : Type} : C → List (Seen σ) → σ → Prop := fun _ _ _ => True

section Mono

variable {C σ ι ω ε α : Type} [DecidableEq C] {allowed wider : C → List (Seen σ) → σ → Prop}

theorem Step.mono (weaker : ∀ c h s, allowed c h s → wider c h s) {w w' : World C σ ι ω ε α}
    (step : Step allowed w w') : Step wider w w' := by
  cases step with
  | read c q next k pc outside => exact .read c q next k pc outside
  | readOwn c q next k s pc inside => exact .readOwn c q next k s pc inside
  | begin c st next k pc free permitted =>
    exact .begin c st next k pc free (weaker _ _ _ permitted)
  | write c st next k s pc inside => exact .write c st next k s pc inside
  | draw c next k i pc => exact .draw c next k i pc
  | commit c b k s pc inside => exact .commit c b k s pc inside
  | close c b k pc outside => exact .close c b k pc outside
  | rollback c exc k s pc inside => exact .rollback c exc k s pc inside
  | fail c exc k pc outside => exact .fail c exc k pc outside
  | answer c next a pc => exact .answer c next a pc
  | kill c => exact .kill c

theorem Reachable.mono (weaker : ∀ c h s, allowed c h s → wider c h s) {s : σ}
    {programs : C → Session σ ι ω ε α} {w : World C σ ι ω ε α}
    (reachable : Reachable allowed s programs w) : Reachable wider s programs w := by
  induction reachable with
  | refl => exact .refl
  | tail _ step ih => exact ih.tail (step.mono weaker)

end Mono

end Transaction
