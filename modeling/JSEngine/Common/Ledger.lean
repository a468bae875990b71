import Mathlib.Data.Finmap
import Mathlib.Algebra.BigOperators.Group.Multiset.Basic

/-!
# Ledgers

A ledger records an amount for each of finitely many accounts; `total` is the
sum of the amounts. Opening an account adds its amount, closing one takes its
amount off, and a machine word that is updated so agrees with the total as long
as the total fits (`toInt_ofNat_eq_iff`).
-/

namespace JSEngine.Common

/-- Amounts of finitely many accounts. -/
abbrev Ledger (α : Type*) := Finmap fun _ : α => ℕ

namespace Ledger

variable {α : Type*} [DecidableEq α]

/-- The sum of the amounts. -/
def total (m : Ledger α) : ℕ := (m.entries.map Sigma.snd).sum

omit [DecidableEq α] in
@[simp] theorem total_empty : total (∅ : Ledger α) = 0 := rfl

/-- Opening an account adds its amount. -/
theorem total_insert {m : Ledger α} {a : α} (n : ℕ) (h : a ∉ m) :
    total (m.insert a n) = total m + n := by
  unfold total
  rw [Finmap.entries_insert_of_notMem h, Multiset.map_cons, Multiset.sum_cons]
  exact Nat.add_comm ..

/-- A closed account can be opened again as it was. -/
theorem insert_erase {m : Ledger α} {a : α} {n : ℕ} (h : m.lookup a = some n) :
    (m.erase a).insert a n = m := by
  apply Finmap.ext_lookup
  intro x
  by_cases hx : x = a
  · subst hx
    rw [Finmap.lookup_insert, h]
  · rw [Finmap.lookup_insert_of_ne _ hx, Finmap.lookup_erase_ne hx]

/-- Closing an account takes its amount off. -/
theorem total_erase {m : Ledger α} {a : α} {n : ℕ} (h : m.lookup a = some n) :
    total (m.erase a) + n = total m := by
  rw [← total_insert n Finmap.notMem_erase_self, insert_erase h]

/-- There is nothing to close where there is no account. -/
theorem erase_of_lookup_eq_none {m : Ledger α} {a : α} (h : m.lookup a = none) : m.erase a = m := by
  apply Finmap.ext_lookup
  intro x
  by_cases hx : x = a
  · subst hx
    rw [Finmap.lookup_erase, h]
  · rw [Finmap.lookup_erase_ne hx]

/-- A closed account is no longer there. -/
theorem erase_ne {m : Ledger α} {a : α} (h : a ∈ m) : m ≠ m.erase a := by
  intro he
  rw [he] at h
  exact Finmap.notMem_erase_self h

end Ledger

/-! ## Totals in machine words -/

/-- A signed word of `w` bits holds `n` exactly below `2 ^ (w - 1)`. -/
theorem toInt_ofNat_eq_iff (w n : ℕ) : (BitVec.ofNat w n).toInt = n ↔ n < 2 ^ (w - 1) := by
  rw [BitVec.toInt_ofNat']
  obtain _ | w := w
  · simp only [pow_zero, Int.bmod_one, Nat.zero_sub]
    omega
  · have hpow : 2 ^ (w + 1) = 2 * 2 ^ w := Nat.pow_succ'
    have hpos : 0 < 2 ^ w := Nat.two_pow_pos w
    rw [Nat.add_sub_cancel, hpow]
    constructor
    · intro h
      have := Int.bmod_lt (x := (n : ℤ)) (Nat.mul_pos Nat.two_pos hpos)
      omega
    · intro h
      exact Int.bmod_eq_of_le_mul_two (by omega) (by omega)

end JSEngine.Common
