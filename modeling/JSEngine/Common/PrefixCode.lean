import Mathlib.Data.List.Basic

/-!
# Prefix codes

A code writes a value as a nonempty word such that the value can be read off the
front of any text that begins with the word, and nothing but words are read.

* `decodeAll_eq_some_iff`: reading a text value by value succeeds exactly on
  texts made of words, with the values written.
-/

namespace JSEngine.Common

/-- A code with words over `β` for the values `α`. -/
structure PrefixCode (α β : Type*) where
  encode : α → List β
  /-- the value at the front of a text, and the text behind its word -/
  read : List β → Option (α × List β)
  encode_ne_nil : ∀ a, encode a ≠ []
  read_eq_some_iff : ∀ text a rest, read text = some (a, rest) ↔ text = encode a ++ rest

namespace PrefixCode

variable {α β : Type*} (c : PrefixCode α β)

/-- The words of the values, one after the other. -/
def encodeAll (as : List α) : List β := as.flatMap c.encode

/-- The values of a text, read in at most `n` steps. -/
def decodeLoop : ℕ → List β → Option (List α)
  | _, [] => some []
  | 0, _ :: _ => none
  | n + 1, b :: bs =>
    match c.read (b :: bs) with
    | none => none
    | some (a, rest) => (decodeLoop n rest).map (a :: ·)

/-- The values of a text; a step takes at least one symbol. -/
def decodeAll (text : List β) : Option (List α) := c.decodeLoop text.length text

@[simp] theorem encodeAll_nil : c.encodeAll [] = [] := rfl

@[simp] theorem encodeAll_cons (a : α) (as : List α) :
    c.encodeAll (a :: as) = c.encode a ++ c.encodeAll as := List.flatMap_cons

theorem encode_length_pos (a : α) : 0 < (c.encode a).length :=
  List.length_pos_of_ne_nil (c.encode_ne_nil a)

theorem decodeLoop_encodeAll {n : ℕ} {as : List α} (hn : (c.encodeAll as).length ≤ n) :
    c.decodeLoop n (c.encodeAll as) = some as := by
  induction as generalizing n with
  | nil => cases n <;> rfl
  | cons a as ih =>
    rw [encodeAll_cons] at hn ⊢
    have hread := (c.read_eq_some_iff _ a (c.encodeAll as)).mpr rfl
    have hpos := c.encode_length_pos a
    rw [List.length_append] at hn
    cases htext : c.encode a ++ c.encodeAll as with
    | nil => exact absurd (List.append_eq_nil_iff.mp htext).1 (c.encode_ne_nil a)
    | cons b bs =>
      obtain ⟨m, rfl⟩ : ∃ m, n = m + 1 := ⟨n - 1, by omega⟩
      rw [htext] at hread
      simp only [decodeLoop, hread]
      rw [ih (by omega)]
      rfl

theorem eq_of_decodeLoop {n : ℕ} {text : List β} {as : List α}
    (h : c.decodeLoop n text = some as) : text = c.encodeAll as := by
  induction n generalizing text as with
  | zero =>
    cases text with
    | nil =>
      obtain rfl : [] = as := by simpa [decodeLoop] using h
      rfl
    | cons b bs => simp [decodeLoop] at h
  | succ n ih =>
    cases text with
    | nil =>
      obtain rfl : [] = as := by simpa [decodeLoop] using h
      rfl
    | cons b bs =>
      unfold decodeLoop at h
      cases hread : c.read (b :: bs) with
      | none => simp [hread] at h
      | some r =>
        obtain ⟨a, rest⟩ := r
        simp only [hread, Option.map_eq_some_iff] at h
        obtain ⟨as', has, rfl⟩ := h
        rw [encodeAll_cons, (c.read_eq_some_iff _ _ _).mp hread, ih has]

/-- Exactly the texts made of words are read, as the values written. -/
theorem decodeAll_eq_some_iff {text : List β} {as : List α} :
    c.decodeAll text = some as ↔ text = c.encodeAll as := by
  constructor
  · exact c.eq_of_decodeLoop
  · rintro rfl
    exact c.decodeLoop_encodeAll (Nat.le_refl _)

end PrefixCode

end JSEngine.Common
