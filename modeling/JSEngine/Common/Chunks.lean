import Mathlib.Data.List.Basic
import Mathlib.Tactic

/-!
# Reading from a stream that comes in chunks

The chunks are what arrives; a read takes what it asks for from the first chunk, or the
whole of it. An empty chunk, or none, is the end of the stream.

* `readFully_eq`: a loop of reads finds the next `n` symbols, however they are cut up;
* `readFully_of_short`: it fails where there are fewer.
-/

namespace JSEngine.Common

variable {α : Type*}

/-- Reads until `n` symbols have come; what is left is left for the next reads. -/
def readFully : ℕ → List (List α) → Option (List α) × List (List α)
  | 0, chunks => (some [], chunks)
  | _ + 1, [] => (none, [])
  | _ + 1, [] :: chunks => (none, chunks)
  | n + 1, (x :: xs) :: chunks =>
    if n < xs.length then
      (some (x :: xs.take n), xs.drop n :: chunks)
    else
      let r := readFully (n - xs.length) chunks
      (r.1.map fun read => (x :: xs) ++ read, r.2)

/-- There is enough. -/
theorem readFully_eq {n : ℕ} {chunks : List (List α)} (hne : [] ∉ chunks)
    (h : n ≤ chunks.flatten.length) :
    ∃ rest, readFully n chunks = (some (chunks.flatten.take n), rest) ∧
      rest.flatten = chunks.flatten.drop n ∧ [] ∉ rest := by
  induction chunks generalizing n with
  | nil =>
    obtain rfl : n = 0 := Nat.le_zero.mp h
    exact ⟨[], rfl, rfl, hne⟩
  | cons chunk chunks ih =>
    cases n with
    | zero => exact ⟨chunk :: chunks, by rw [readFully, List.take_zero], rfl, hne⟩
    | succ n =>
      cases chunk with
      | nil => exact absurd List.mem_cons_self hne
      | cons x xs =>
        rw [List.flatten_cons, List.cons_append] at h ⊢
        rw [readFully]
        split_ifs with hn
        · refine ⟨xs.drop n :: chunks, ?_, ?_, ?_⟩
          · rw [List.take_succ_cons, List.take_append_of_le_length hn.le]
          · rw [List.flatten_cons, List.drop_succ_cons, List.drop_append_of_le_length hn.le]
          · refine List.not_mem_cons_of_ne_of_not_mem ?_ fun hmem => hne (List.mem_cons_of_mem _ hmem)
            exact fun hnil => absurd (List.drop_eq_nil_iff.mp hnil.symm) (not_le.mpr hn)
        · have hle : xs.length ≤ n := not_lt.mp hn
          rw [List.length_cons, List.length_append] at h
          obtain ⟨rest, hread, hrest, hne'⟩ :=
            ih (n := n - xs.length) (fun hmem => hne (List.mem_cons_of_mem _ hmem)) (by omega)
          refine ⟨rest, ?_, ?_, hne'⟩
          · rw [hread, List.take_succ_cons, List.take_append, List.take_of_length_le hle]
            rfl
          · rw [hrest, List.drop_succ_cons, List.drop_append, List.drop_eq_nil_of_le hle,
              List.nil_append]

/-- There is not enough: everything is used up. -/
theorem readFully_of_short {n : ℕ} {chunks : List (List α)} (hne : [] ∉ chunks)
    (h : chunks.flatten.length < n) : readFully n chunks = (none, []) := by
  induction chunks generalizing n with
  | nil =>
    cases n with
    | zero => exact absurd h (Nat.not_lt_zero _)
    | succ n => rfl
  | cons chunk chunks ih =>
    cases n with
    | zero => exact absurd h (Nat.not_lt_zero _)
    | succ n =>
      cases chunk with
      | nil => exact absurd List.mem_cons_self hne
      | cons x xs =>
        rw [List.flatten_cons, List.length_append, List.length_cons] at h
        rw [readFully, if_neg (by omega),
          ih (fun hmem => hne (List.mem_cons_of_mem _ hmem)) (by omega)]
        rfl

end JSEngine.Common
