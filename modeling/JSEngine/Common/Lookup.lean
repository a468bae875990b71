import Mathlib.Data.Option.Basic
import Mathlib.Order.Basic

/-!
# Lookups along a chain

A property lookup starts at an object, and at each object it either stops with
an answer or goes on at one other object (the prototype, the target of a
proxy). Nothing bounds the chain but the native stack: after `n` hops the
lookup gives up with a fixed answer.

* `follow_of_stopsAfter`, `follow_of_endless`: what a lookup answers.
* `follow_iff`: a property that the overflow answer lacks holds of the answer
  exactly where the chain stops in time with an answer that has it.
* `exists_trail_of_stopsAfter`: some object on the chain gives the answer.
-/

namespace JSEngine.Common

/-- What one object of the chain does with a lookup. -/
inductive Hop (α β : Type*) where
  | stop (answer : β)
  | next (object : α)
  deriving DecidableEq, Repr

namespace Hop

variable {α β : Type*}

/-- The lookup from `a` with room for `n` objects. -/
def follow (hop : α → Hop α β) (overflow : β) : ℕ → α → β
  | 0, _ => overflow
  | n + 1, a =>
    match hop a with
    | .stop b => b
    | .next a' => follow hop overflow n a'

/-- The object the lookup is at after `k` hops. -/
def trail (hop : α → Hop α β) : ℕ → α → Option α
  | 0, a => some a
  | k + 1, a =>
    match hop a with
    | .stop _ => none
    | .next a' => trail hop k a'

/-- The answer with which the lookup stops after exactly `k` hops. -/
def stopsAfter (hop : α → Hop α β) : ℕ → α → Option β
  | 0, a =>
    match hop a with
    | .stop b => some b
    | .next _ => none
  | k + 1, a =>
    match hop a with
    | .stop _ => none
    | .next a' => stopsAfter hop k a'

/-- The lookup from `a` stops, within `n` objects, with an answer in `P`. -/
def EndsIn (hop : α → Hop α β) (P : β → Prop) (n : ℕ) (a : α) : Prop :=
  ∃ k, k < n ∧ ∃ b, stopsAfter hop k a = some b ∧ P b

instance (hop : α → Hop α β) (P : β → Prop) [DecidablePred P] (n : ℕ) (a : α) :
    Decidable (EndsIn hop P n a) :=
  decidable_of_iff (∃ k, k < n ∧ (stopsAfter hop k a).any (fun b => decide (P b)) = true)
    (by simp only [EndsIn, Option.any_eq_true, decide_eq_true_eq])

variable {hop : α → Hop α β} {overflow : β}

theorem follow_of_stopsAfter {k : ℕ} {b : β} :
    ∀ {n : ℕ} {a : α}, stopsAfter hop k a = some b → k < n → follow hop overflow n a = b := by
  induction k with
  | zero =>
    intro n a h hn
    obtain ⟨m, rfl⟩ : ∃ m, n = m + 1 := ⟨n - 1, by omega⟩
    cases ha : hop a with
    | stop b' =>
      obtain rfl : b' = b := by simpa [stopsAfter, ha] using h
      simp only [follow, ha]
    | next a' => simp [stopsAfter, ha] at h
  | succ k ih =>
    intro n a h hn
    obtain ⟨m, rfl⟩ : ∃ m, n = m + 1 := ⟨n - 1, by omega⟩
    cases ha : hop a with
    | stop b' => simp [stopsAfter, ha] at h
    | next a' =>
      have h' : stopsAfter hop k a' = some b := by simpa [stopsAfter, ha] using h
      simp only [follow, ha]
      exact ih h' (by omega)

theorem follow_of_endless {n : ℕ} :
    ∀ {a : α}, (∀ k, k < n → stopsAfter hop k a = none) → follow hop overflow n a = overflow := by
  induction n with
  | zero => intro a _; rfl
  | succ n ih =>
    intro a h
    have h0 : stopsAfter hop 0 a = none := h 0 (by omega)
    cases ha : hop a with
    | stop b => simp [stopsAfter, ha] at h0
    | next a' =>
      simp only [follow, ha]
      apply ih
      intro k hk
      simpa [stopsAfter, ha] using h (k + 1) (by omega)

/-- A lookup either stops in time or overflows. -/
theorem follow_cases (hop : α → Hop α β) (overflow : β) (n : ℕ) (a : α) :
    (∃ k, k < n ∧ stopsAfter hop k a = some (follow hop overflow n a)) ∨
      follow hop overflow n a = overflow := by
  by_cases h : ∃ k, k < n ∧ (stopsAfter hop k a).isSome
  · obtain ⟨k, hk, hb⟩ := h
    obtain ⟨b, hb⟩ := Option.isSome_iff_exists.mp hb
    left
    exact ⟨k, hk, by rw [follow_of_stopsAfter hb hk, hb]⟩
  · right
    apply follow_of_endless
    intro k hk
    by_contra hne
    exact h ⟨k, hk, Option.isSome_iff_ne_none.mpr hne⟩

theorem follow_iff {P : β → Prop} (hover : ¬ P overflow) (n : ℕ) (a : α) :
    P (follow hop overflow n a) ↔ EndsIn hop P n a := by
  constructor
  · intro h
    rcases follow_cases hop overflow n a with ⟨k, hk, hb⟩ | hb
    · exact ⟨k, hk, _, hb, h⟩
    · rw [hb] at h
      exact absurd h hover
  · rintro ⟨k, hk, b, hb, h⟩
    rw [follow_of_stopsAfter hb hk]
    exact h

/-- The answer of a lookup is the answer of some object on its trail. -/
theorem exists_trail_of_stopsAfter {k : ℕ} {b : β} :
    ∀ {a : α}, stopsAfter hop k a = some b →
      ∃ a', trail hop k a = some a' ∧ hop a' = .stop b := by
  induction k with
  | zero =>
    intro a h
    cases ha : hop a with
    | stop b' =>
      obtain rfl : b' = b := by simpa [stopsAfter, ha] using h
      exact ⟨a, rfl, ha⟩
    | next a' => simp [stopsAfter, ha] at h
  | succ k ih =>
    intro a h
    cases ha : hop a with
    | stop b' => simp [stopsAfter, ha] at h
    | next a' =>
      have h' : stopsAfter hop k a' = some b := by simpa [stopsAfter, ha] using h
      simpa [trail, ha] using ih h'

end Hop

end JSEngine.Common
