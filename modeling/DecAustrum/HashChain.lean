import Mathlib.Data.List.Basic
import Mathlib.Data.List.Induction

/-!
# Hash chains

A chain of records in which each names the hash of the one before it. When a hash has one
record behind it, the hash at the end of a chain determines the whole chain: the argument
walks the two chains backwards, one record at a time.
-/
namespace HashChain

variable {ρ η : Type*}

section

variable (Hashes : ρ → η → Prop) (previous : ρ → Option η)

/-- `Linked chain last`: every record names the hash before it, the first names none, and
`last` is the hash the next record has to name. -/
inductive Linked : List ρ → Option η → Prop
  | nil : Linked [] none
  | snoc {chain : List ρ} {last : Option η} (record : ρ) (hash : η)
      (before : Linked chain last) (names : previous record = last) (hashes : Hashes record hash) :
      Linked (chain ++ [record]) (some hash)

end

variable {Hashes : ρ → η → Prop} {previous : ρ → Option η}

namespace Linked

theorem eq_nil {chain : List ρ} (linked : Linked Hashes previous chain none) : chain = [] := by
  cases linked
  rfl

/-- The end of a chain determines the chain. -/
theorem unique {chain other : List ρ} {last : Option η}
    (injective : ∀ r s h, r ∈ chain → s ∈ other → Hashes r h → Hashes s h → r = s)
    (linked : Linked Hashes previous chain last) (linked' : Linked Hashes previous other last) :
    chain = other := by
  induction linked generalizing other with
  | nil => exact linked'.eq_nil.symm
  | snoc record hash before names hashes ih =>
    cases linked' with
    | snoc record' _ before' names' hashes' =>
      have same : record = record' :=
        injective record record' hash (by simp) (by simp) hashes hashes'
      subst same
      have ends := names.symm.trans names'
      subst ends
      rw [ih (fun r s h inside inside' => injective r s h (by simp [inside]) (by simp [inside']))
        before']

/-- Cutting a chain after one of its records leaves a chain that ends in its hash. -/
theorem cut {chain : List ρ} {last : Option η} (linked : Linked Hashes previous chain last)
    (front back : List ρ) (record : ρ) (split : chain = front ++ record :: back) :
    ∃ hash, Hashes record hash ∧ Linked Hashes previous (front ++ [record]) (some hash) := by
  induction linked generalizing back with
  | nil => simp at split
  | snoc last hash before names hashes ih =>
    rcases List.eq_nil_or_concat back with rfl | ⟨back, final, rfl⟩
    · have parts := List.append_inj' split rfl
      obtain rfl := parts.1
      obtain rfl := List.singleton_inj.mp parts.2
      exact ⟨hash, hashes, before.snoc last hash names hashes⟩
    · rw [List.concat_eq_append, ← List.cons_append, ← List.append_assoc] at split
      exact ih back (List.append_inj' split rfl).1

end Linked

/-! ## Checking a chain from the front

A verifier walks the chain with the hash seen last in hand. -/

section

variable (Hashes previous)

/-- Each record names the hash in hand and hands on its own. -/
inductive Walk : Option η → List ρ → Option η → Prop
  | done (last : Option η) : Walk last [] last
  | step {last final : Option η} {rest : List ρ} (record : ρ) (hash : η)
      (names : previous record = last) (hashes : Hashes record hash)
      (continues : Walk (some hash) rest final) : Walk last (record :: rest) final

end

/-- A walk that starts after a chain extends it. -/
theorem Walk.extends_linked {last final : Option η} {front rest : List ρ}
    (walk : Walk Hashes previous last rest final) (linked : Linked Hashes previous front last) :
    Linked Hashes previous (front ++ rest) final := by
  induction walk generalizing front with
  | done last => simpa using linked
  | step record hash names hashes _ ih =>
    have extended := ih (linked.snoc record hash names hashes)
    rwa [List.append_assoc, List.singleton_append] at extended

theorem Walk.linked {rest : List ρ} {final : Option η}
    (walk : Walk Hashes previous none rest final) : Linked Hashes previous rest final := by
  simpa using walk.extends_linked Linked.nil

end HashChain
