import Mathlib.Order.Lattice
import Mathlib.Tactic.Tauto

/-!
# Piecewise constant tables

A table begins with a value at a position and changes it at the positions of its steps. A
position climbs if no value before it is higher than its own, and the next other value is:
these are what a single pass upwards through the values finds.

* `valueAt`: the value at a position;
* `afterRun`: the table from the next other value on;
* `found_afterRun`: what is found in a table is found in its first run or after it;
* `valueAt_changes`: the steps that change nothing can be left out;
* `valueAt_starts`: the table of a row of chunks has the value of each chunk throughout it.
-/

namespace JSEngine.Common.Pieces

variable {α β : Type*} [LinearOrder α] [LinearOrder β]

/-- The value at a position of the table that begins with `a`. -/
def valueAt (a : α) : List (β × α) → β → α
  | [], _ => a
  | (p, b) :: steps, x => if x < p then a else valueAt b steps x

/-- The steps do not go back, from `q` on. -/
def Ascending (q : β) : List (β × α) → Prop
  | [] => True
  | (p, _) :: steps => q ≤ p ∧ Ascending p steps

/-- The table after the values `a` it begins with, at `q`: its position, value and steps. -/
def afterRun (a : α) (q : β) : List (β × α) → β × α × List (β × α)
  | [] => (q, a, [])
  | (p, b) :: steps => if b = a then afterRun a p steps else (p, b, steps)

/-- The next value other than `a` is higher. -/
def rises (a : α) : List (β × α) → Bool
  | [] => false
  | (_, b) :: steps => if b = a then rises a steps else a < b

/-- No value before the position is higher than its own, and the next other value is. -/
def climbs (a : α) : List (β × α) → β → Bool
  | [], _ => false
  | (p, b) :: steps, x =>
    if x < p then rises a ((p, b) :: steps) else climbs b steps x && a ≤ valueAt b steps x

/-- A position with the value `c`, at `q` or after it, that climbs. -/
def Found (c a : α) (q : β) (steps : List (β × α)) (x : β) : Prop :=
  q ≤ x ∧ valueAt a steps x = c ∧ climbs a steps x = true

theorem not_found_nil {c a : α} {q x : β} : ¬Found c a q [] x := fun h => nomatch h.2.2

omit [LinearOrder α] in
theorem Ascending.mono {p q : β} {steps : List (β × α)} (h : Ascending q steps) (hle : p ≤ q) :
    Ascending p steps := by
  cases steps with
  | nil => trivial
  | cons step steps => exact ⟨hle.trans h.1, h.2⟩

/-! ## Runs of one value -/

omit [LinearOrder β] in
theorem rises_eq (a : α) (q : β) (steps : List (β × α)) :
    rises a steps = decide (a < (afterRun a q steps).2.1) := by
  induction steps generalizing q with
  | nil => simp [rises, afterRun]
  | cons step steps ih =>
    obtain ⟨p, b⟩ := step
    by_cases hb : b = a
    · simp only [rises, afterRun, if_pos hb, ih p]
    · simp only [rises, afterRun, if_neg hb]

omit [LinearOrder β] in
/-- After the values `a` there is another one, or nothing. -/
theorem afterRun_nil {a : α} {q : β} {steps : List (β × α)}
    (h : (afterRun a q steps).2.1 = a) : (afterRun a q steps).2.2 = [] := by
  induction steps generalizing q with
  | nil => rfl
  | cons step steps ih =>
    obtain ⟨p, b⟩ := step
    by_cases hb : b = a
    · simp only [afterRun, if_pos hb] at h ⊢
      exact ih h
    · simp only [afterRun, if_neg hb] at h
      exact absurd h hb

theorem Ascending.afterRun {a : α} {q : β} {steps : List (β × α)} (h : Ascending q steps) :
    q ≤ (afterRun a q steps).1 ∧
      Ascending (afterRun a q steps).1 (afterRun a q steps).2.2 := by
  induction steps generalizing q with
  | nil => exact ⟨le_refl q, trivial⟩
  | cons step steps ih =>
    obtain ⟨p, b⟩ := step
    obtain ⟨hle, hrest⟩ := h
    by_cases hb : b = a
    · simp only [Pieces.afterRun, if_pos hb]
      obtain ⟨hp, hafter⟩ := ih hrest
      exact ⟨hle.trans hp, hafter⟩
    · simp only [Pieces.afterRun, if_neg hb]
      exact ⟨hle, hrest⟩

/-! ## What is found -/

theorem le_of_climbs {a : α} {steps : List (β × α)} {x : β} (h : climbs a steps x = true) :
    a ≤ valueAt a steps x := by
  cases steps with
  | nil => exact le_refl a
  | cons step steps =>
    obtain ⟨p, b⟩ := step
    by_cases hx : x < p
    · rw [valueAt, if_pos hx]
    · rw [climbs, if_neg hx, Bool.and_eq_true, decide_eq_true_iff] at h
      rw [valueAt, if_neg hx]
      exact h.2

theorem Found.le {c a : α} {q : β} {steps : List (β × α)} {x : β} (h : Found c a q steps x) :
    a ≤ c :=
  h.2.1 ▸ le_of_climbs h.2.2

/-- In front of the first step. -/
theorem found_cons_of_lt {c a b : α} {q p x : β} {steps : List (β × α)} (hx : x < p) :
    Found c a q ((p, b) :: steps) x ↔ q ≤ x ∧ a = c ∧ rises a ((p, b) :: steps) = true := by
  rw [Found, valueAt, climbs, if_pos hx, if_pos hx]

/-- Behind the first step. -/
theorem found_cons_of_le {c a b : α} {q p x : β} {steps : List (β × α)} (hq : q ≤ p)
    (hx : p ≤ x) : Found c a q ((p, b) :: steps) x ↔ a ≤ c ∧ Found c b p steps x := by
  have hnot : ¬x < p := not_lt.mpr hx
  rw [Found, Found, valueAt, climbs, if_neg hnot, if_neg hnot, Bool.and_eq_true,
    decide_eq_true_iff]
  constructor
  · rintro ⟨-, rfl, hclimbs, hle⟩
    exact ⟨hle, hx, rfl, hclimbs⟩
  · rintro ⟨hle, -, rfl, hclimbs⟩
    exact ⟨hq.trans hx, rfl, hclimbs, hle⟩

/-- **What is found** is the first run, if a higher value follows, and what is found after
    it that is not below. -/
theorem found_afterRun {c a : α} {q x : β} {steps : List (β × α)} (h : Ascending q steps) :
    Found c a q steps x ↔
      (a < (afterRun a q steps).2.1 ∧ a = c ∧ q ≤ x ∧ x < (afterRun a q steps).1) ∨
      (a ≤ c ∧ Found c (afterRun a q steps).2.1 (afterRun a q steps).1
        (afterRun a q steps).2.2 x) := by
  induction steps generalizing q with
  | nil =>
    refine iff_of_false not_found_nil ?_
    rintro (⟨hlt, -⟩ | ⟨-, hfound⟩)
    · exact lt_irrefl a hlt
    · exact not_found_nil hfound
  | cons step steps ih =>
    obtain ⟨p, b⟩ := step
    obtain ⟨hq, hrest⟩ := h
    have hle : p ≤ (afterRun b p steps).1 := hrest.afterRun.1
    by_cases hx : x < p
    · rw [found_cons_of_lt hx, rises_eq a q, decide_eq_true_iff]
      have hp : p ≤ (afterRun a q ((p, b) :: steps)).1 := by
        by_cases hb : b = a
        · subst hb
          simpa only [afterRun, if_pos] using hle
        · simp only [afterRun, if_neg hb, le_refl]
      constructor
      · rintro ⟨hqx, rfl, hlt⟩
        exact .inl ⟨hlt, rfl, hqx, hx.trans_le hp⟩
      · rintro (⟨hlt, rfl, hqx, -⟩ | ⟨-, hpx, -⟩)
        · exact ⟨hqx, rfl, hlt⟩
        · exact absurd (hx.trans_le hp) (not_lt.mpr hpx)
    · have hpx : p ≤ x := not_lt.mp hx
      rw [found_cons_of_le hq hpx]
      by_cases hb : b = a
      · subst hb
        simp only [afterRun, if_pos]
        rw [ih hrest, and_or_left, and_iff_right_of_imp (fun h => h.2.1.le)]
        simp only [hpx, hq.trans hpx, true_and]
        rw [and_iff_right_of_imp (And.left : _ ∧ _ → _)]
      · simp only [afterRun, if_neg hb]
        refine ⟨.inr, ?_⟩
        rintro (⟨-, -, -, hlt⟩ | hfound)
        · exact absurd hlt hx
        · exact hfound

/-- What is higher than the first value is found after its run. -/
theorem found_afterRun_of_lt {c a : α} {q x : β} {steps : List (β × α)}
    (h : Ascending q steps) (hlt : a < c) :
    Found c a q steps x ↔
      Found c (afterRun a q steps).2.1 (afterRun a q steps).1 (afterRun a q steps).2.2 x := by
  rw [found_afterRun h, and_iff_right hlt.le]
  refine ⟨?_, .inr⟩
  rintro (⟨-, rfl, -⟩ | hfound)
  · exact absurd hlt (lt_irrefl a)
  · exact hfound

/-! ## Steps that change nothing -/

/-- The steps that change the value. -/
def changes (a : α) : List (β × α) → List (β × α)
  | [] => []
  | (p, b) :: steps => if b = a then changes a steps else (p, b) :: changes b steps

omit [LinearOrder β] in
theorem changes_map (f : β → β) (a : α) (steps : List (β × α)) :
    changes a (steps.map (Prod.map f id)) = (changes a steps).map (Prod.map f id) := by
  induction steps generalizing a with
  | nil => rfl
  | cons step steps ih =>
    obtain ⟨p, b⟩ := step
    by_cases hb : b = a
    · simp only [List.map_cons, Prod.map, id, changes, if_pos hb]
      exact ih a
    · simp only [List.map_cons, Prod.map, id, changes, if_neg hb]
      exact congrArg _ (ih b)

omit [LinearOrder β] in
theorem changes_changes (a : α) (steps : List (β × α)) :
    changes a (changes a steps) = changes a steps := by
  induction steps generalizing a with
  | nil => rfl
  | cons step steps ih =>
    obtain ⟨p, b⟩ := step
    by_cases hb : b = a
    · simp only [changes, if_pos hb]
      exact ih a
    · simp only [changes, if_neg hb]
      exact congrArg _ (ih b)

omit [LinearOrder β] in
theorem mem_of_mem_changes {a : α} {steps : List (β × α)} {s : β × α} (h : s ∈ changes a steps) :
    s ∈ steps := by
  induction steps generalizing a with
  | nil => exact h
  | cons step steps ih =>
    obtain ⟨p, b⟩ := step
    by_cases hb : b = a
    · rw [changes, if_pos hb] at h
      exact List.mem_cons_of_mem _ (ih h)
    · rw [changes, if_neg hb, List.mem_cons] at h
      exact List.mem_cons.mpr (h.imp_right ih)

omit [LinearOrder β] in
theorem changes_eq_nil_iff {a : α} {steps : List (β × α)} :
    changes a steps = [] ↔ ∀ s ∈ steps, s.2 = a := by
  induction steps with
  | nil => exact iff_of_true rfl (List.forall_mem_nil _)
  | cons step steps ih =>
    obtain ⟨p, b⟩ := step
    rw [changes, List.forall_mem_cons]
    by_cases hb : b = a
    · rw [if_pos hb, ih, and_iff_right hb]
    · rw [if_neg hb]
      exact iff_of_false (List.cons_ne_nil _ _) fun h => hb h.1

theorem Ascending.changes {q : β} {a : α} {steps : List (β × α)} (h : Ascending q steps) :
    Ascending q (Pieces.changes a steps) := by
  induction steps generalizing q a with
  | nil => exact h
  | cons step steps ih =>
    obtain ⟨p, b⟩ := step
    by_cases hb : b = a
    · rw [Pieces.changes, if_pos hb]
      exact (ih h.2).mono h.1
    · rw [Pieces.changes, if_neg hb]
      exact ⟨h.1, ih h.2⟩

omit [LinearOrder α] in
theorem valueAt_of_lt {q x : β} (a : α) {steps : List (β × α)} (h : Ascending q steps)
    (hx : x < q) : valueAt a steps x = a := by
  cases steps with
  | nil => rfl
  | cons step steps => rw [valueAt, if_pos (hx.trans_le h.1)]

/-- **The steps that change nothing** can be left out. -/
theorem valueAt_changes {q : β} (a : α) {steps : List (β × α)} (h : Ascending q steps) (x : β) :
    valueAt a (changes a steps) x = valueAt a steps x := by
  induction steps generalizing a q with
  | nil => rfl
  | cons step steps ih =>
    obtain ⟨p, b⟩ := step
    by_cases hb : b = a
    · subst hb
      rw [changes, if_pos rfl, ih b h.2, valueAt]
      split_ifs with hx
      · exact valueAt_of_lt b h.2 hx
      · rfl
    · rw [changes, if_neg hb, valueAt, valueAt, ih b h.2]

/-! ## Rows of chunks -/

section Rows

omit [LinearOrder α]

/-- Where the chunks of a row begin, from `q` on. -/
def starts (q : ℕ) : List (α × ℕ) → List (ℕ × α)
  | [] => []
  | (a, n) :: chunks => (q, a) :: starts (q + n) chunks

/-- How long a row of chunks is. -/
def total : List (α × ℕ) → ℕ
  | [] => 0
  | c :: chunks => c.2 + total chunks

@[simp] theorem total_nil : total ([] : List (α × ℕ)) = 0 := rfl

@[simp] theorem total_cons (c : α × ℕ) (chunks : List (α × ℕ)) :
    total (c :: chunks) = c.2 + total chunks := rfl

/-- The chunk that has a position in it. -/
def chunkAt : List (α × ℕ) → ℕ → Option α
  | [], _ => none
  | (a, n) :: chunks, x => if x < n then some a else chunkAt chunks (x - n)

theorem map_snd_starts (q : ℕ) (chunks : List (α × ℕ)) :
    (starts q chunks).map Prod.snd = chunks.map Prod.fst := by
  induction chunks generalizing q with
  | nil => rfl
  | cons c chunks ih => exact congrArg (c.1 :: ·) (ih (q + c.2))

theorem ascending_starts (q : ℕ) (chunks : List (α × ℕ)) : Ascending q (starts q chunks) := by
  induction chunks generalizing q with
  | nil => trivial
  | cons c chunks ih => exact ⟨le_refl q, (ih (q + c.2)).mono (Nat.le_add_right q c.2)⟩

theorem starts_le {q : ℕ} {chunks : List (α × ℕ)} {s : ℕ × α} (h : s ∈ starts q chunks) :
    q ≤ s.1 ∧ s.1 ≤ q + total chunks := by
  induction chunks generalizing q with
  | nil => cases h
  | cons c chunks ih =>
    rw [total_cons]
    obtain rfl | h := List.mem_cons.mp h
    · show q ≤ q ∧ q ≤ q + (c.2 + total chunks)
      omega
    · have hs := ih h
      omega

theorem valueAt_starts_from (b : α) {p q x : ℕ} {chunks : List (α × ℕ)} (hq : p ≤ q) (hp : p ≤ x)
    (hx : x < q + total chunks) :
    chunkAt ((b, q - p) :: chunks) (x - p) = some (valueAt b (starts q chunks) x) := by
  induction chunks generalizing b p q with
  | nil =>
    rw [total_nil] at hx
    rw [chunkAt, if_pos (by omega)]
    rfl
  | cons c chunks ih =>
    obtain ⟨a, n⟩ := c
    have hx : x < q + (n + total chunks) := hx
    rw [chunkAt, starts, valueAt]
    split_ifs with hlt hlt' hlt'
    · rfl
    · omega
    · omega
    · have hstep := ih a (p := q) (q := q + n) (by omega) (by omega) (by omega)
      rw [Nat.add_sub_cancel_left] at hstep
      rw [← hstep]
      congr 1
      omega

/-- **The table of a row** has the value of each chunk throughout it. -/
theorem valueAt_starts (b : α) {chunks : List (α × ℕ)} {x : ℕ} (hx : x < total chunks) :
    chunkAt chunks x = some (valueAt b (starts 0 chunks) x) := by
  have hfrom := valueAt_starts_from b (le_refl 0) (Nat.zero_le x) (by rwa [Nat.zero_add])
  rwa [chunkAt, Nat.sub_self, if_neg (Nat.not_lt_zero _), Nat.sub_zero, Nat.sub_zero] at hfrom

theorem starts_sub (q d : ℕ) (chunks : List (α × ℕ)) :
    starts q chunks = (starts (q + d) chunks).map (Prod.map (· - d) id) := by
  induction chunks generalizing q with
  | nil => rfl
  | cons c chunks ih =>
    have hrest := ih (q + c.2)
    rw [Nat.add_right_comm] at hrest
    rw [starts, starts, List.map_cons, ← hrest]
    simp only [Prod.map, id, Nat.add_sub_cancel]

theorem map_fst_modify {k d : ℕ} (chunks : List (α × ℕ)) :
    (chunks.modify k fun c => (c.1, c.2 - d)).map Prod.fst = chunks.map Prod.fst := by
  induction chunks generalizing k with
  | nil => rw [List.modify_nil]
  | cons c chunks ih =>
    cases k with
    | zero => rw [List.modify_zero_cons, List.map_cons, List.map_cons]
    | succ k => rw [List.modify_succ_cons, List.map_cons, List.map_cons, ih]

theorem total_modify_le {k d : ℕ} (chunks : List (α × ℕ)) :
    total (chunks.modify k fun c => (c.1, c.2 - d)) ≤ total chunks := by
  induction chunks generalizing k with
  | nil => rw [List.modify_nil]
  | cons c chunks ih =>
    cases k with
    | zero =>
      rw [List.modify_zero_cons]
      exact Nat.add_le_add_right (Nat.sub_le c.2 d) _
    | succ k =>
      rw [List.modify_succ_cons]
      exact Nat.add_le_add_left ih c.2

/-- Bytes are taken out of a chunk: what begins after them moves down. -/
theorem starts_modify {q k off d n : ℕ} {a : α} {chunks : List (α × ℕ)}
    (hk : chunks[k]? = some (a, n)) (hd : 0 < d) (hoff : off + d ≤ n) :
    starts q (chunks.modify k fun c => (c.1, c.2 - d)) =
      (starts q chunks).map
        (Prod.map (fun p => if q + total (chunks.take k) + off < p then p - d else p) id) := by
  induction chunks generalizing q k with
  | nil => cases hk
  | cons c chunks ih =>
    cases k with
    | zero =>
      obtain rfl : c = (a, n) := Option.some.inj hk
      have hrest : starts (q + (n - d)) chunks =
          (starts (q + n) chunks).map (Prod.map
            (fun p => if q + total ([] : List (α × ℕ)) + off < p then p - d else p) id) := by
        have hq : q + (n - d) + d = q + n := by omega
        rw [starts_sub _ d, hq]
        refine List.map_congr_left fun s hs => ?_
        have hle := (starts_le hs).1
        rw [Prod.map, Prod.map, total_nil, if_pos (by omega)]
      rw [List.modify_zero_cons, List.take_zero, starts, starts, List.map_cons, ← hrest]
      simp only [Prod.map, id, if_neg (show ¬q + total ([] : List (α × ℕ)) + off < q by omega)]
    | succ k =>
      have hrest := ih (q := q + c.2) (k := k) hk
      have hq : q + c.2 + total (chunks.take k) = q + total ((c :: chunks).take (k + 1)) := by
        rw [List.take_succ_cons, total_cons, Nat.add_assoc]
      rw [hq] at hrest
      rw [List.modify_succ_cons, starts, starts, List.map_cons, ← hrest]
      simp only [Prod.map, id,
        if_neg (show ¬q + total ((c :: chunks).take (k + 1)) + off < q by omega)]

end Rows

end JSEngine.Common.Pieces
