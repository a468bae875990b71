import Mathlib.Data.List.MinMax
import Mathlib.Data.Prod.Lex
import Mathlib.Tactic

/-!
# Selection of a best element

A loop that goes over a list and keeps an element while no later one has a smaller
score, and scores that pack two criteria into one number.

* `foldl_keepBest_eq_argmin`: the loop finds the first element of least score;
* `argmin_packed_iff`: exactly when a packed score selects the element that is first
  in the lexicographic order of the two criteria;
* `argmin_packed_of_bounded`: bounds for which it always does.
-/

namespace JSEngine.Common

variable {α : Type*}

/-! ## The loop -/

/-- One turn of the loop, on the best element so far and its score. -/
def keepBest (accept : α → Bool) (score : α → ℤ) (best : Option α × ℤ) (a : α) : Option α × ℤ :=
  if accept a then if score a < best.2 then (some a, score a) else best else best

/-- The loop keeps the score of the element it has found. -/
theorem foldl_keepBest {accept : α → Bool} {score : α → ℤ} {init : ℤ}
    (hinit : ∀ a, score a < init) (l : List α) (best : Option α × ℤ)
    (h : best = (none, init) ∨ ∃ a, best = (some a, score a)) :
    (l.foldl (keepBest accept score) best).1 =
      (l.filter accept).foldl (List.argAux fun a b => score a < score b) best.1 := by
  induction l generalizing best with
  | nil => rfl
  | cons a l ih =>
    rw [List.foldl_cons]
    by_cases hacc : accept a = true
    · rw [List.filter_cons_of_pos hacc, List.foldl_cons]
      rcases h with rfl | ⟨b, rfl⟩
      · have hstep : keepBest accept score (none, init) a = (some a, score a) := by
          unfold keepBest
          rw [if_pos hacc, if_pos (hinit a)]
        rw [hstep, ih _ (Or.inr ⟨a, rfl⟩)]
        rfl
      · by_cases hlt : score a < score b
        · have hstep : keepBest accept score (some b, score b) a = (some a, score a) := by
            unfold keepBest
            rw [if_pos hacc, if_pos hlt]
          rw [hstep, ih _ (Or.inr ⟨a, rfl⟩)]
          simp only [List.argAux, if_pos hlt]
        · have hstep : keepBest accept score (some b, score b) a = (some b, score b) := by
            unfold keepBest
            rw [if_pos hacc, if_neg hlt]
          rw [hstep, ih _ (Or.inr ⟨b, rfl⟩)]
          simp only [List.argAux, if_neg hlt]
    · have hstep : keepBest accept score best a = best := by
        unfold keepBest
        rw [if_neg hacc]
      rw [List.filter_cons_of_neg hacc, hstep, ih best h]

/-- **The loop finds the first element of least score.** -/
theorem foldl_keepBest_eq_argmin {accept : α → Bool} {score : α → ℤ} {init : ℤ}
    (hinit : ∀ a, score a < init) (l : List α) :
    (l.foldl (keepBest accept score) (none, init)).1 = (l.filter accept).argmin score :=
  foldl_keepBest hinit l _ (Or.inl rfl)

/-! ## Packed scores -/

/-- The first element of least distance, and among these of greatest bonus. -/
noncomputable def lexFirst (distance : α → ℕ) (bonus : α → ℤ) (l : List α) : Option α :=
  l.argmin fun a => toLex (distance a, -bonus a)

variable [DecidableEq α] {distance : α → ℕ} {bonus : α → ℤ} {weight : ℕ → ℤ} {l : List α}

/-- `a`, which is farther than `best`, does not make up for it by its bonus; what
    comes later in the list has to exceed, not to equal. -/
def NotOutweighed (distance : α → ℕ) (bonus : α → ℤ) (weight : ℕ → ℤ) (l : List α) (best a : α) :
    Prop :=
  bonus a - bonus best < weight (distance a) - weight (distance best) ∨
    bonus a - bonus best = weight (distance a) - weight (distance best) ∧
      l.idxOf best < l.idxOf a

/-- What the lexicographic order says of its first element. -/
theorem mem_lexFirst_iff {best : α} :
    best ∈ lexFirst distance bonus l ↔ best ∈ l ∧ ∀ a ∈ l,
      distance best < distance a ∨ distance best = distance a ∧
        (bonus a < bonus best ∨ bonus a = bonus best ∧ l.idxOf best ≤ l.idxOf a) := by
  unfold lexFirst
  rw [List.mem_argmin_iff]
  constructor
  · rintro ⟨hmem, hle, hidx⟩
    refine ⟨hmem, fun a ha => ?_⟩
    have hle := hle a ha
    rw [Prod.Lex.toLex_le_toLex] at hle
    rcases hle with hlt | ⟨heq, hb⟩
    · exact Or.inl hlt
    · refine Or.inr ⟨heq, ?_⟩
      rcases (neg_le_neg_iff.mp hb).lt_or_eq with hlt | hbonus
      · exact Or.inl hlt
      · refine Or.inr ⟨hbonus, hidx a ha ?_⟩
        rw [Prod.Lex.toLex_le_toLex]
        exact Or.inr ⟨heq.symm, by omega⟩
  · rintro ⟨hmem, h⟩
    refine ⟨hmem, fun a ha => ?_, fun a ha hle => ?_⟩
    · rw [Prod.Lex.toLex_le_toLex]
      rcases h a ha with hlt | ⟨heq, hb⟩
      · exact Or.inl hlt
      · exact Or.inr ⟨heq, by omega⟩
    · rw [Prod.Lex.toLex_le_toLex] at hle
      dsimp only at hle
      rcases h a ha with hlt | ⟨heq, hb | ⟨-, hidx⟩⟩
      · omega
      · omega
      · exact hidx

/-- **A packed score selects the lexicographically first element exactly where no
    farther element outweighs it.** -/
theorem mem_argmin_packed_iff {best : α} (hbest : best ∈ lexFirst distance bonus l) :
    (best ∈ l.argmin fun a => weight (distance a) - bonus a) ↔
      ∀ a ∈ l, distance best < distance a →
        NotOutweighed distance bonus weight l best a := by
  obtain ⟨hmem, hlex⟩ := mem_lexFirst_iff.mp hbest
  rw [List.mem_argmin_iff]
  constructor
  · rintro ⟨-, hle, hidx⟩ a ha hlt
    have hle := hle a ha
    unfold NotOutweighed
    by_cases hge : weight (distance a) - bonus a ≤ weight (distance best) - bonus best
    · have hne : best ≠ a := fun h => by rw [h] at hlt; omega
      have hidx := hidx a ha hge
      refine Or.inr ⟨by omega, lt_of_le_of_ne hidx fun h => hne ?_⟩
      exact (List.idxOf_inj hmem).mp h
    · exact Or.inl (by omega)
  · intro h
    refine ⟨hmem, fun a ha => ?_, fun a ha hle => ?_⟩
    · rcases hlex a ha with hlt | ⟨heq, hb⟩
      · rcases h a ha hlt with h | ⟨h, -⟩ <;> omega
      · rw [heq]
        omega
    · rcases hlex a ha with hlt | ⟨heq, hb⟩
      · rcases h a ha hlt with h | ⟨-, hidx⟩
        · omega
        · exact hidx.le
      · rw [heq] at hle
        rcases hb with hb | ⟨-, hidx⟩
        · omega
        · exact hidx

theorem argmin_packed_iff :
    (l.argmin fun a => weight (distance a) - bonus a) = lexFirst distance bonus l ↔
      ∀ best ∈ lexFirst distance bonus l, ∀ a ∈ l, distance best < distance a →
        NotOutweighed distance bonus weight l best a := by
  cases hbest : lexFirst distance bonus l with
  | none =>
    have hnil : l = [] := List.argmin_eq_none.mp hbest
    simp [hnil]
  | some best =>
    have h : (l.argmin fun a => weight (distance a) - bonus a) = some best ↔ _ :=
      mem_argmin_packed_iff hbest
    rw [h]
    simp

/-- Bonuses between 0 and a bound that the weight of one step exceeds never
    outweigh. -/
theorem argmin_packed_of_bounded {bound : ℤ} (hbonus : ∀ a ∈ l, 0 ≤ bonus a ∧ bonus a ≤ bound)
    (hweight : ∀ a ∈ l, ∀ b ∈ l, distance a < distance b →
      bound < weight (distance b) - weight (distance a)) :
    (l.argmin fun a => weight (distance a) - bonus a) = lexFirst distance bonus l := by
  rw [argmin_packed_iff]
  intro best hbest a ha hlt
  have hmem := (mem_lexFirst_iff.mp hbest).1
  have h1 := hbonus a ha
  have h2 := hbonus best hmem
  have h3 := hweight best hmem a ha hlt
  exact Or.inl (by omega)

end JSEngine.Common
