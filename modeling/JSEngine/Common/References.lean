import Mathlib.Data.List.Basic
import Mathlib.Data.List.Count
import Mathlib.Data.List.Nodup
import Mathlib.Data.List.Perm.Basic
import Mathlib.Tactic

/-!
# References between objects

Objects refer to objects, some to one object more than once. What a reference count counts are the
occurrences of an object among the references of all of them.

* `refsFrom_replace`: the references change by those of one object, when that object changes;
* `Reach.mem_of_closed`: what has the roots and is closed under references has all that can be
  reached.
-/

namespace JSEngine.Common.References

variable {α : Type*} {f g : α → List α} {l : List α} {x c : α}

/-! ## Counting references -/

section Count

variable [DecidableEq α]

/-- How many references to an object the objects of a list have. -/
def refsFrom (f : α → List α) (l : List α) (x : α) : ℕ := (l.flatMap f).count x

@[simp] theorem refsFrom_nil (f : α → List α) (x : α) : refsFrom f [] x = 0 := rfl

theorem refsFrom_cons (f : α → List α) (a : α) (l : List α) (x : α) :
    refsFrom f (a :: l) x = (f a).count x + refsFrom f l x := by
  rw [refsFrom, List.flatMap_cons, List.count_append, refsFrom]

theorem refsFrom_append (f : α → List α) (l l' : List α) (x : α) :
    refsFrom f (l ++ l') x = refsFrom f l x + refsFrom f l' x := by
  rw [refsFrom, List.flatMap_append, List.count_append, refsFrom, refsFrom]

theorem refsFrom_perm {l' : List α} (f : α → List α) (h : l.Perm l') (x : α) :
    refsFrom f l x = refsFrom f l' x :=
  (h.flatMap_right f).count_eq x

theorem refsFrom_congr (h : ∀ y ∈ l, f y = g y) (x : α) : refsFrom f l x = refsFrom g l x := by
  rw [refsFrom, refsFrom, List.flatMap_congr h]

theorem refsFrom_ne_zero : refsFrom f l x ≠ 0 ↔ ∃ y ∈ l, x ∈ f y := by
  rw [refsFrom, Ne, List.count_eq_zero, not_not, List.mem_flatMap]

theorem refsFrom_eq_zero : refsFrom f l x = 0 ↔ ∀ y ∈ l, x ∉ f y := by
  rw [refsFrom, List.count_eq_zero, List.mem_flatMap]
  exact ⟨fun h y hy hx => h ⟨y, hy, hx⟩, fun h ⟨y, hy, hx⟩ => h y hy hx⟩

theorem refsFrom_eq_zero_of_nil (h : ∀ y ∈ l, f y = []) (x : α) : refsFrom f l x = 0 :=
  refsFrom_eq_zero.mpr fun y hy hx => by rw [h y hy] at hx; cases hx

/-- **One object changes**: its references of before are exchanged for those of after. -/
theorem refsFrom_replace (hl : l.Nodup) (hc : c ∈ l) (h : ∀ y ∈ l, y ≠ c → g y = f y) (x : α) :
    refsFrom g l x + (f c).count x = refsFrom f l x + (g c).count x := by
  induction l with
  | nil => cases hc
  | cons a l ih =>
    obtain ⟨ha, hl⟩ := List.nodup_cons.mp hl
    rw [refsFrom_cons, refsFrom_cons]
    by_cases heq : a = c
    · subst heq
      have hrest : refsFrom g l x = refsFrom f l x := by
        refine refsFrom_congr (fun y hy => h y (List.mem_cons_of_mem _ hy) ?_) x
        rintro rfl
        exact ha hy
      omega
    · have hc : c ∈ l := (List.mem_cons.mp hc).resolve_left (Ne.symm heq)
      have hstep := ih hl hc fun y hy => h y (List.mem_cons_of_mem _ hy)
      have hhead := h a List.mem_cons_self heq
      rw [hhead]
      omega

end Count

/-! ## Reachable objects -/

/-- What can be reached from the roots. -/
inductive Reach (f : α → List α) (root : α → Prop) : α → Prop
  | root {x : α} : root x → Reach f root x
  | step {x y : α} : Reach f root x → y ∈ f x → Reach f root y

/-- **A closed set** with the roots in it has everything reachable. -/
theorem Reach.mem_of_closed {root : α → Prop} {S : α → Prop} (hroot : ∀ x, root x → S x)
    (hclosed : ∀ x, S x → ∀ y ∈ f x, S y) (h : Reach f root x) : S x := by
  induction h with
  | root hx => exact hroot _ hx
  | step _ hy ih => exact hclosed _ ih _ hy

theorem Reach.mono {root root' : α → Prop} (hroot : ∀ x, root x → Reach g root' x)
    (hstep : ∀ x, Reach g root' x → f x ⊆ g x) (h : Reach f root x) : Reach g root' x :=
  h.mem_of_closed hroot fun x hx _ hy => .step hx (hstep x hx hy)

end JSEngine.Common.References
