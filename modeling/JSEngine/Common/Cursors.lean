import Mathlib.Data.List.Basic
import Mathlib.Data.List.Find
import Mathlib.Order.Basic

/-!
# Cursors in a list that loses elements

A cursor rests on an element of a list, other elements come and go, and the
cursor moves on to what is behind it. Where the list is in ascending order, with
each element taken for the time it was added, what is behind a cursor does not
depend on what has been removed in front of it.

* `after_eq_filter`, `since_eq_filter`: what is behind an element, and the rest
  of the list from it on, by the order;
* `head?_after`, `find?_since`: the next element of the list, and the first one
  from it on with a property, in the list before any removal;
* `find?_of_find?`: a search may stop on its way.
-/

namespace JSEngine.Common.Cursors

variable {α : Type*}

section
variable [DecidableEq α]

/-- What is behind `x`. -/
def after : List α → α → List α
  | [], _ => []
  | a :: l, x => if a = x then l else after l x

/-- The list from `x` on. -/
def since : List α → α → List α
  | [], _ => []
  | a :: l, x => if a = x then a :: l else since l x

end

section
variable [LinearOrder α] {l : List α} {x : α}

theorem after_eq_filter (hl : l.Pairwise (· < ·)) (hx : x ∈ l) :
    after l x = l.filter (x < ·) := by
  induction l with
  | nil => cases hx
  | cons a l ih =>
    obtain ⟨ha, hl⟩ := List.pairwise_cons.mp hl
    rw [after]
    obtain rfl | hne := eq_or_ne a x
    · rw [if_pos rfl, List.filter_cons_of_neg (by simp), List.filter_eq_self.mpr]
      exact fun b hb => decide_eq_true (ha b hb)
    · have hx := (List.mem_cons.mp hx).resolve_left hne.symm
      rw [if_neg hne, ih hl hx, List.filter_cons_of_neg]
      simpa using (ha x hx).le

theorem since_eq_filter (hl : l.Pairwise (· < ·)) (hx : x ∈ l) :
    since l x = l.filter (x ≤ ·) := by
  induction l with
  | nil => cases hx
  | cons a l ih =>
    obtain ⟨ha, hl⟩ := List.pairwise_cons.mp hl
    rw [since]
    obtain rfl | hne := eq_or_ne a x
    · rw [if_pos rfl, List.filter_cons_of_pos (by simp), List.filter_eq_self.mpr]
      exact fun b hb => decide_eq_true (ha b hb).le
    · have hx := (List.mem_cons.mp hx).resolve_left hne.symm
      rw [if_neg hne, ih hl hx, List.filter_cons_of_neg]
      simpa using ha x hx

section
variable {l₀ : List α} {p q : α → Bool}

/-- Where a search stops on its way does not matter. -/
theorem find?_of_find? (hl : l.Pairwise (· < ·)) (hq : ∀ a, q a → p a) (x : α) :
    (l.find? fun a => decide (x ≤ a) && q a) =
      (l.find? fun a => decide (x ≤ a) && p a).bind fun y =>
        l.find? fun a => decide (y ≤ a) && q a := by
  induction l with
  | nil => rfl
  | cons a l ih =>
    obtain ⟨ha, hl⟩ := List.pairwise_cons.mp hl
    by_cases hp : (decide (x ≤ a) && p a) = true
    · have hxa : x ≤ a := of_decide_eq_true (Bool.and_eq_true_iff.mp hp).1
      rw [List.find?_cons_of_pos (p := fun a => decide (x ≤ a) && p a) hp, Option.bind_some]
      refine List.find?_congr fun b hb => ?_
      obtain rfl | hb := List.mem_cons.mp hb
      · simp [hxa]
      · simp [(ha b hb).le, hxa.trans (ha b hb).le]
    · have hqa : ¬(decide (x ≤ a) && q a) = true := fun h => hp (by
        simp only [Bool.and_eq_true] at h ⊢
        exact ⟨h.1, hq a h.2⟩)
      rw [List.find?_cons_of_neg (p := fun a => decide (x ≤ a) && p a) hp,
        List.find?_cons_of_neg (p := fun a => decide (x ≤ a) && q a) hqa, ih hl]
      refine Option.bind_congr fun y hy => ?_
      have := ha y (List.mem_of_find?_eq_some hy)
      rw [List.find?_cons_of_neg (by simp [this])]

/-- The next element on a list. -/
theorem head?_after (hl : l₀.Pairwise (· < ·)) (hx : x ∈ l₀.filter p) :
    (after (l₀.filter p) x).head? = l₀.find? fun a => decide (x < a) && p a := by
  rw [after_eq_filter (hl.filter p) hx, List.filter_filter, List.head?_filter]

/-- **The first element from a cursor on** with the property `q` does not depend on what has been
    removed, if the elements with `q` are all there. -/
theorem find?_since (hl : l₀.Pairwise (· < ·)) (hx : x ∈ l₀.filter p) (hq : ∀ a, q a → p a) :
    (since (l₀.filter p) x).find? q = l₀.find? fun a => decide (x ≤ a) && q a := by
  rw [since_eq_filter (hl.filter p) hx, List.find?_filter, List.find?_filter]
  congr 1
  funext a
  cases hqa : q a with
  | false => simp
  | true => simp [hq a hqa]

end

end

end JSEngine.Common.Cursors
