import DecAustrum.Transaction.Interleaving

/-!
# Schedules

A schedule names the clients whose turn it is. Playing it gives a run.
-/
namespace Transaction

variable {C σ ι ω ε α : Type} [DecidableEq C]

/-- A turn: the client, the value it draws and the answer it gets, if it asks for one. -/
structure Turn (C ι ω : Type) where
  client : C
  drawn : ι
  answer : ω

namespace World

/-- One step of the client whose turn it is. A client that waits for the writer stays where it
is. -/
def advance (w : World C σ ι ω ε α) (turn : Turn C ι ω) : World C σ ι ω ε α :=
  match w.session turn.client with
  | none => w
  | some (.ret _) => w
  | some (.raise _) => w
  | some (.ask next) => w.resume turn.client (next turn.answer)
  | some (.connect body k) =>
    match w.writer with
    | none =>
      match body with
      | .ret b => w.resume turn.client (k (.ok b))
      | .raise exc => w.resume turn.client (k (.error exc))
      | .select q next =>
        (w.resume turn.client (.connect (next (q w.committed)) k)).record turn.client
          (.read w.committed)
      | .execute st next =>
        { w.resume turn.client (.connect (next (outcome st w.committed).2) k) with
          writer := some (turn.client, (outcome st w.committed).1) }
      | .draw next => w.resume turn.client (.connect (next turn.drawn) k)
    | some (d, s) =>
      if d = turn.client then
        match body with
        | .ret b =>
          { (w.resume turn.client (k (.ok b))).record turn.client (.commit w.committed s) with
            committed := s, writer := none,
            log := w.log ++ [⟨turn.client, w.history turn.client, w.committed, s⟩] }
        | .raise exc =>
          { (w.resume turn.client (k (.error exc))).record turn.client (.rollback w.committed) with
            writer := none }
        | .select q next => w.resume turn.client (.connect (next (q s)) k)
        | .execute st next =>
          { w.resume turn.client (.connect (next (outcome st s).2) k) with
            writer := some (turn.client, (outcome st s).1) }
        | .draw next => w.resume turn.client (.connect (next turn.drawn) k)
      else
        match body with
        | .ret b => w.resume turn.client (k (.ok b))
        | .raise exc => w.resume turn.client (k (.error exc))
        | .select q next =>
          (w.resume turn.client (.connect (next (q w.committed)) k)).record turn.client
            (.read w.committed)
        | .execute _ _ => w
        | .draw next => w.resume turn.client (.connect (next turn.drawn) k)

/-- The turn opens a transaction. -/
def opening (w : World C σ ι ω ε α) (turn : Turn C ι ω) : Bool :=
  w.writer.isNone && match w.session turn.client with
    | some (.connect (.execute _ _) _) => true
    | _ => false

theorem advance_step {allowed : C → List (Seen σ) → σ → Prop} (w : World C σ ι ω ε α)
    (turn : Turn C ι ω)
    (permits : w.opening turn = true →
      allowed turn.client (w.history turn.client) w.committed) :
    w.advance turn = w ∨ Step allowed w (w.advance turn) := by
  unfold advance
  cases pc : w.session turn.client with
  | none => exact .inl rfl
  | some session =>
    cases session with
    | ret a => exact .inl rfl
    | raise exc => exact .inl rfl
    | ask next => exact .inr (.answer turn.client next turn.answer pc)
    | connect body k =>
      cases free : w.writer with
      | none =>
        have outside : w.Outside turn.client := by simp [World.Outside, free]
        cases body with
        | ret b => exact .inr (.close turn.client b k pc outside)
        | raise exc => exact .inr (.fail turn.client exc k pc outside)
        | select q next => exact .inr (.read turn.client q next k pc outside)
        | execute st next =>
          exact .inr (.begin turn.client st next k pc free (permits (by simp [opening, free, pc])))
        | draw next => exact .inr (.draw turn.client next k turn.drawn pc)
      | some held =>
        obtain ⟨d, s⟩ := held
        dsimp only
        split
        · rename_i same
          subst same
          cases body with
          | ret b => exact .inr (.commit turn.client b k s pc free)
          | raise exc => exact .inr (.rollback turn.client exc k s pc free)
          | select q next =>
            have step : Step allowed w (w.resume turn.client (.connect (next (q s)) k)) :=
              .readOwn turn.client q next k s pc free
            exact .inr step
          | execute st next => exact .inr (.write turn.client st next k s pc free)
          | draw next => exact .inr (.draw turn.client next k turn.drawn pc)
        · rename_i other
          have outside : w.Outside turn.client := by
            intro t writing
            rw [free] at writing
            cases writing
            exact other rfl
          cases body with
          | ret b => exact .inr (.close turn.client b k pc outside)
          | raise exc => exact .inr (.fail turn.client exc k pc outside)
          | select q next => exact .inr (.read turn.client q next k pc outside)
          | execute st next => exact .inl rfl
          | draw next => exact .inr (.draw turn.client next k turn.drawn pc)

def play (w : World C σ ι ω ε α) (schedule : List (Turn C ι ω)) : World C σ ι ω ε α :=
  schedule.foldl advance w

/-- Each turn that opens a transaction is allowed to. -/
def Permitted (allowed : C → List (Seen σ) → σ → Prop) (w : World C σ ι ω ε α) :
    List (Turn C ι ω) → Prop
  | [] => True
  | turn :: rest =>
    (w.opening turn = true → allowed turn.client (w.history turn.client) w.committed) ∧
      Permitted allowed (w.advance turn) rest

instance Permitted.decide (allowed : C → List (Seen σ) → σ → Prop)
    [∀ c history s, Decidable (allowed c history s)] (w : World C σ ι ω ε α)
    (schedule : List (Turn C ι ω)) : Decidable (w.Permitted allowed schedule) :=
  match schedule with
  | [] => isTrue trivial
  | turn :: rest =>
    have := Permitted.decide allowed (w.advance turn) rest
    inferInstanceAs (Decidable (_ ∧ _))

theorem permitted_anyOpening (w : World C σ ι ω ε α) (schedule : List (Turn C ι ω)) :
    w.Permitted anyOpening schedule := by
  induction schedule generalizing w with
  | nil => trivial
  | cons turn rest ih => exact ⟨fun _ => trivial, ih (w.advance turn)⟩

end World

open World

theorem play_permitted {allowed : C → List (Seen σ) → σ → Prop} (s : σ)
    (programs : C → Session σ ι ω ε α) (schedule : List (Turn C ι ω))
    (permitted : (World.start s programs).Permitted allowed schedule) :
    Reachable allowed s programs ((World.start s programs).play schedule) := by
  have all : ∀ (schedule : List (Turn C ι ω)) (w : World C σ ι ω ε α),
      w.Permitted allowed schedule → Reachable allowed s programs w →
        Reachable allowed s programs (w.play schedule) := by
    intro schedule
    induction schedule with
    | nil => exact fun w _ reachable => reachable
    | cons turn rest ih =>
      intro w permitted reachable
      refine ih (w.advance turn) permitted.2 ?_
      rcases w.advance_step turn permitted.1 with stays | step
      · rwa [stays]
      · exact reachable.tail step
  exact all schedule _ permitted .refl

theorem play_reachable (s : σ) (programs : C → Session σ ι ω ε α) (schedule : List (Turn C ι ω)) :
    Reachable anyOpening s programs ((World.start s programs).play schedule) :=
  play_permitted s programs schedule (permitted_anyOpening _ schedule)

end Transaction
