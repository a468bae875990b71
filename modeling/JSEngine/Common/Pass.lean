import Mathlib.Data.List.Forall2

/-!
# Fallible passes over a list

A pass applies a function that may fail to the elements of a list in turn and
ends at the first failure.

* `pass_eq_ok`: a pass succeeds exactly where it does on every element;
* `pass_append`, `pass_bind`: passes over parts, and passes in sequence;
* `pass_eq_inPlace`, `inPlace_eq_self_iff`: a pass that overwrites its list as it
  goes, up to the element it fails at.
-/

namespace JSEngine.Common

variable {ε α β γ : Type*}

@[simp] theorem ok_bind (a : α) (f : α → Except ε β) : (Except.ok a).bind f = f a := rfl

theorem bind_eq_ok {x : Except ε α} {f : α → Except ε β} {b : β} :
    x.bind f = .ok b ↔ ∃ a, x = .ok a ∧ f a = .ok b := by
  cases x with
  | error e => simp [Except.bind]
  | ok a => simp [Except.bind]

theorem map_eq_ok {x : Except ε α} {f : α → β} {b : β} :
    x.map f = .ok b ↔ ∃ a, x = .ok a ∧ f a = b := by
  cases x with
  | error e => simp [Except.map]
  | ok a => simp [Except.map]

/-- `f` on the elements in turn. -/
def pass (f : α → Except ε β) : List α → Except ε (List β)
  | [] => .ok []
  | x :: xs => (f x).bind fun y => (pass f xs).bind fun ys => .ok (y :: ys)

@[simp] theorem pass_nil (f : α → Except ε β) : pass f [] = .ok [] := rfl

theorem pass_cons_eq_ok {f : α → Except ε β} {x : α} {xs : List α} {zs : List β} :
    pass f (x :: xs) = .ok zs ↔
      ∃ y ys, f x = .ok y ∧ pass f xs = .ok ys ∧ zs = y :: ys := by
  simp only [pass, bind_eq_ok, Except.ok.injEq]
  constructor
  · rintro ⟨y, hy, ys, hys, rfl⟩
    exact ⟨y, ys, hy, hys, rfl⟩
  · rintro ⟨y, ys, hy, hys, rfl⟩
    exact ⟨y, hy, ys, hys, rfl⟩

/-- A pass succeeds with `ys` exactly where `f` succeeds with the element of
    `ys` at every position. -/
theorem pass_eq_ok {f : α → Except ε β} {xs : List α} {ys : List β} :
    pass f xs = .ok ys ↔ List.Forall₂ (fun x y => f x = .ok y) xs ys := by
  induction xs generalizing ys with
  | nil =>
    rw [pass_nil, List.forall₂_nil_left_iff, Except.ok.injEq]
    exact eq_comm
  | cons x xs ih =>
    rw [pass_cons_eq_ok, List.forall₂_cons_left_iff]
    constructor
    · rintro ⟨y, ys', hy, hys, rfl⟩
      exact ⟨y, ys', hy, ih.mp hys, rfl⟩
    · rintro ⟨y, ys', hy, hys, rfl⟩
      exact ⟨y, ys', hy, ih.mpr hys, rfl⟩

/-- A pass that succeeds has the result of every element at its position. -/
theorem pass_getElem? {f : α → Except ε β} {xs : List α} {ys : List β} (h : pass f xs = .ok ys) :
    ys.length = xs.length ∧ ∀ (i : ℕ) (x : α), xs[i]? = some x → ∃ y, ys[i]? = some y ∧ f x = .ok y := by
  have h := pass_eq_ok.mp h
  induction h with
  | nil => simp
  | cons hx hxs ih =>
    obtain ⟨hlen, hget⟩ := ih (pass_eq_ok.mpr hxs)
    refine ⟨by simp [hlen], fun i x hi => ?_⟩
    cases i with
    | zero =>
      obtain rfl := Option.some.inj hi
      exact ⟨_, rfl, hx⟩
    | succ i => exact hget i x (by simpa using hi)

/-- A pass that fails does so at some element. -/
theorem exists_of_pass_eq_error {f : α → Except ε β} {xs : List α} {e : ε}
    (h : pass f xs = .error e) : ∃ x ∈ xs, f x = .error e := by
  induction xs with
  | nil => cases h
  | cons x xs ih =>
    cases hx : f x with
    | error e' =>
      simp only [pass, hx, Except.bind, Except.error.injEq] at h
      exact ⟨x, List.mem_cons_self, by rw [hx, h]⟩
    | ok y =>
      simp only [pass, hx, ok_bind] at h
      cases hxs : pass f xs with
      | error e' =>
        simp only [hxs, Except.bind, Except.error.injEq] at h
        obtain ⟨x', hmem, hx'⟩ := ih (by rw [hxs, h])
        exact ⟨x', List.mem_cons_of_mem _ hmem, hx'⟩
      | ok ys => simp [hxs, Except.bind] at h

theorem pass_map (f : β → Except ε γ) (g : α → β) (xs : List α) :
    pass f (xs.map g) = pass (fun x => f (g x)) xs := by
  induction xs with
  | nil => rfl
  | cons x xs ih => simp only [List.map_cons, pass, ih]

/-- A pass over two parts. -/
theorem pass_append {f : α → Except ε β} {xs xs' : List α} {zs : List β} :
    pass f (xs ++ xs') = .ok zs ↔
      ∃ ys ys', pass f xs = .ok ys ∧ pass f xs' = .ok ys' ∧ zs = ys ++ ys' := by
  induction xs generalizing zs with
  | nil => simp
  | cons x xs ih =>
    rw [List.cons_append, pass_cons_eq_ok]
    constructor
    · rintro ⟨y, ys, hy, hys, rfl⟩
      obtain ⟨ys₁, ys₂, h₁, h₂, rfl⟩ := ih.mp hys
      exact ⟨y :: ys₁, ys₂, pass_cons_eq_ok.mpr ⟨y, ys₁, hy, h₁, rfl⟩, h₂, rfl⟩
    · rintro ⟨ys₁, ys₂, h₁, h₂, rfl⟩
      obtain ⟨y, ys, hy, hys, rfl⟩ := pass_cons_eq_ok.mp h₁
      exact ⟨y, ys ++ ys₂, hy, ih.mpr ⟨ys, ys₂, hys, h₂, rfl⟩, rfl⟩

/-- Two passes in sequence succeed exactly where one pass of both functions does. -/
theorem pass_bind {f : α → Except ε β} {g : β → Except ε γ} {xs : List α} {zs : List γ} :
    (pass f xs).bind (pass g) = .ok zs ↔ pass (fun x => (f x).bind g) xs = .ok zs := by
  rw [bind_eq_ok]
  induction xs generalizing zs with
  | nil => simp
  | cons x xs ih =>
    rw [pass_cons_eq_ok]
    constructor
    · rintro ⟨ys, hys, hzs⟩
      obtain ⟨y, ys', hy, hys', rfl⟩ := pass_cons_eq_ok.mp hys
      obtain ⟨z, zs', hz, hzs', rfl⟩ := pass_cons_eq_ok.mp hzs
      exact ⟨z, zs', bind_eq_ok.mpr ⟨y, hy, hz⟩, ih.mp ⟨ys', hys', hzs'⟩, rfl⟩
    · rintro ⟨z, zs, hz, hzs, rfl⟩
      obtain ⟨y, hy, hz⟩ := bind_eq_ok.mp hz
      obtain ⟨ys, hys, hzs⟩ := ih.mpr hzs
      exact ⟨y :: ys, pass_cons_eq_ok.mpr ⟨y, ys, hy, hys, rfl⟩,
        pass_cons_eq_ok.mpr ⟨z, zs, hz, hzs, rfl⟩⟩

/-- Of a pass that succeeds, another function gives the same exactly where it
    does on every element. -/
theorem pass_congr_iff {f g : α → Except ε β} {xs : List α} {ys : List β}
    (h : pass f xs = .ok ys) :
    pass g xs = .ok ys ↔ ∀ x ∈ xs, g x = f x := by
  rw [pass_eq_ok] at h ⊢
  induction h with
  | nil => simp
  | cons hx hxs ih =>
    rw [List.forall₂_cons, List.forall_mem_cons, ih, hx]

/-- Two elements that `f` treats the same are interchangeable in a pass. -/
theorem pass_replace {f : α → Except ε β} {x y : α} (h : f x = f y) (before after : List α) :
    pass f (before ++ x :: after) = pass f (before ++ y :: after) := by
  induction before with
  | nil => simp only [List.nil_append, pass, h]
  | cons b before ih => simp only [List.cons_append, pass, ih]

/-! ## Passes that overwrite their list -/

/-- `f` on the elements in turn, each overwritten with its result; the list
    after the pass, and the failure that ended it. -/
def inPlace (f : α → Except ε α) : List α → List α × Except ε Unit
  | [] => ([], .ok ())
  | x :: xs =>
    match f x with
    | .error e => (x :: xs, .error e)
    | .ok y => (y :: (inPlace f xs).1, (inPlace f xs).2)

/-- A pass in place fails where the pass does, and with the same failure. -/
theorem pass_eq_inPlace (f : α → Except ε α) (xs : List α) :
    pass f xs = (inPlace f xs).2.map fun _ => (inPlace f xs).1 := by
  induction xs with
  | nil => rfl
  | cons x xs ih =>
    cases hx : f x with
    | error e => simp only [pass, inPlace, hx, Except.bind, Except.map]
    | ok y =>
      simp only [pass, inPlace, hx, Except.bind, ih]
      cases (inPlace f xs).2 <;> rfl

/-- The list is as it was exactly where `f` returns every element before the
    failure unchanged. -/
theorem inPlace_eq_self_iff {f : α → Except ε α} {xs : List α} :
    (inPlace f xs).1 = xs ↔ ∀ x ∈ xs.takeWhile fun x => (f x).isOk, f x = .ok x := by
  induction xs with
  | nil => simp [inPlace]
  | cons x xs ih =>
    cases hx : f x with
    | error e => simp [inPlace, hx, Except.isOk, Except.toBool]
    | ok y => simp [inPlace, hx, Except.isOk, Except.toBool, ih]

end JSEngine.Common
