import Mathlib.Data.List.Basic
import Mathlib.Data.List.Forall2
import Mathlib.Data.List.Induction

/-!
# Traversals

A loop that checks each element against the elements before it accepts a list when every
element passes after those in front of it.
-/
namespace Traversal

variable {α β ε : Type*}

/-- Every element of `rest` passes after `seen` and the elements in front of it. -/
def EachAfter (P : List α → α → Prop) (seen rest : List α) : Prop :=
  ∀ front a back, rest = front ++ a :: back → P (seen ++ front) a

namespace EachAfter

variable {P Q : List α → α → Prop} {seen rest : List α}

theorem nil : EachAfter P seen [] := by
  intro front a back split
  simp at split

theorem cons_iff (a : α) : EachAfter P seen (a :: rest) ↔ P seen a ∧ EachAfter P (seen ++ [a]) rest := by
  constructor
  · intro each
    refine ⟨by simpa using each [] a rest rfl, fun front b back split => ?_⟩
    simpa using each (a :: front) b back (by rw [split]; rfl)
  · rintro ⟨first, each⟩ front b back split
    cases front with
    | nil =>
      cases split
      simpa using first
    | cons c front =>
      rw [List.cons_append, List.cons.injEq] at split
      obtain ⟨rfl, split⟩ := split
      simpa using each front b back split

theorem mono (each : EachAfter P seen rest) (weaken : ∀ front a, P front a → Q front a) :
    EachAfter Q seen rest := fun front a back split => weaken _ _ (each front a back split)

/-- A property of the elements that holds after an accepted run, by induction on its last one. -/
theorem induct {motive : List α → Prop} (each : EachAfter P [] rest) (empty : motive [])
    (snoc : ∀ front a, motive front → P front a → motive (front ++ [a])) : motive rest := by
  have prefixes : ∀ front back, rest = front ++ back → motive front := by
    intro front
    induction front using List.reverseRecOn with
    | nil => exact fun _ _ => empty
    | append_singleton front a ih =>
      intro back split
      rw [List.append_assoc, List.singleton_append] at split
      exact snoc front a (ih _ split) (by simpa using each front a back split)
  exact prefixes rest [] (List.append_nil _).symm

theorem snoc {front : List α} {a : α} (each : EachAfter P [] front) (passes : P front a) :
    EachAfter P [] (front ++ [a]) := by
  intro earlier b back split
  rcases List.eq_nil_or_concat back with rfl | ⟨back, final, rfl⟩
  · obtain ⟨rfl, last⟩ := List.append_inj' split rfl
    obtain rfl := List.singleton_inj.mp last
    exact passes
  · rw [List.concat_eq_append, ← List.cons_append, ← List.append_assoc] at split
    exact each earlier b back (List.append_inj' split rfl).1

end EachAfter

/-- Traversal with a partial function is pointwise. -/
theorem mapM_eq_ok_iff {ε α β : Type} (f : α → Except ε β) (l : List α) (r : List β) :
    l.mapM f = .ok r ↔ List.Forall₂ (fun a b => f a = .ok b) l r := by
  induction l generalizing r with
  | nil => cases r <;> simp [pure, Except.pure]
  | cons a l ih =>
    rw [List.mapM_cons]
    cases head : f a with
    | error exc => cases r <;> simp [bind, Except.bind, head]
    | ok b =>
      cases tail : l.mapM f with
      | error exc => cases r <;> simp [bind, Except.bind, ← ih, tail, head]
      | ok bs => cases r <;> simp [bind, Except.bind, pure, Except.pure, ← ih, tail, head]

theorem exists_forall₂ (R : α → β → Prop) (l : List α) (each : ∀ a ∈ l, ∃ b, R a b) :
    ∃ r, List.Forall₂ R l r := by
  induction l with
  | nil => exact ⟨[], .nil⟩
  | cons a l ih =>
    obtain ⟨b, related⟩ := each a (List.mem_cons_self ..)
    obtain ⟨r, rest⟩ := ih fun a' inside => each a' (List.mem_cons_of_mem _ inside)
    exact ⟨b :: r, .cons related rest⟩

theorem exists_zip (R : α → β → Prop) (l : List α) (r : List β)
    (related : List.Forall₂ R l r) : ∀ a ∈ l, ∃ b, (a, b) ∈ l.zip r := by
  induction related with
  | nil => simp
  | cons _ _ ih =>
    intro a member
    rcases List.mem_cons.mp member with rfl | later
    · exact ⟨_, List.mem_cons_self ..⟩
    · obtain ⟨b, inside⟩ := ih a later
      exact ⟨b, List.mem_cons_of_mem _ inside⟩

/-- A split of the second list splits the first at the same place. -/
theorem forall₂_split (R : α → β → Prop) (l : List α) (front : List β) (b : β) (back : List β)
    (related : List.Forall₂ R l (front ++ b :: back)) :
    ∃ front' a back', l = front' ++ a :: back' ∧ List.Forall₂ R front' front ∧ R a b ∧
      List.Forall₂ R back' back := by
  induction front generalizing l with
  | nil =>
    cases related with
    | cons first rest => exact ⟨[], _, _, rfl, .nil, first, rest⟩
  | cons c front ih =>
    cases related with
    | cons first rest =>
      obtain ⟨front', a, back', rfl, fronts, here, backs⟩ := ih _ rest
      exact ⟨_ :: front', a, back', rfl, .cons first fronts, here, backs⟩

end Traversal
