import Mathlib.Tactic

/-!
# Hexadecimal numbers of a fixed width

* `value_digits`: a number that is written in `k` digits is read back, reduced to `k`
  digits.
-/

namespace JSEngine.Common.Hex

/-- The character of a digit, in lower case. -/
def digit (d : ℕ) : UInt8 := UInt8.ofNat (if d < 10 then 48 + d else 87 + d)

/-- The value of a character, in lower or upper case. -/
def digitValue (c : UInt8) : Option ℕ :=
  if 48 ≤ c.toNat ∧ c.toNat < 58 then some (c.toNat - 48)
  else if 97 ≤ c.toNat ∧ c.toNat < 103 then some (c.toNat - 87)
  else if 65 ≤ c.toNat ∧ c.toNat < 71 then some (c.toNat - 55)
  else none

def isDigit (c : UInt8) : Bool := (digitValue c).isSome

/-- The number that the characters denote. -/
def value (cs : List UInt8) : ℕ := cs.foldl (fun n c => 16 * n + (digitValue c).getD 0) 0

/-- The last `k` digits of a number. -/
def digits : ℕ → ℕ → List UInt8
  | 0, _ => []
  | k + 1, n => digits k (n / 16) ++ [digit (n % 16)]

theorem digitValue_digit : ∀ d < 16, digitValue (digit d) = some d := by decide

theorem value_append (cs : List UInt8) (c : UInt8) :
    value (cs ++ [c]) = 16 * value cs + (digitValue c).getD 0 := by
  rw [value, List.foldl_append]
  rfl

@[simp] theorem length_digits (k n : ℕ) : (digits k n).length = k := by
  induction k generalizing n with
  | zero => rfl
  | succ k ih => rw [digits, List.length_append, ih, List.length_singleton]

theorem isDigit_of_mem_digits {k n : ℕ} {c : UInt8} (h : c ∈ digits k n) : isDigit c = true := by
  induction k generalizing n with
  | zero => exact absurd h List.not_mem_nil
  | succ k ih =>
    obtain h | h := List.mem_append.mp h
    · exact ih h
    · rw [List.mem_singleton.mp h, isDigit, digitValue_digit _ (Nat.mod_lt _ (by decide))]
      rfl

theorem value_digits (k n : ℕ) : value (digits k n) = n % 16 ^ k := by
  induction k generalizing n with
  | zero => exact (Nat.mod_one n).symm
  | succ k ih =>
    have hlast : (digitValue (digit (n % 16))).getD 0 = n % 16 := by
      rw [digitValue_digit _ (Nat.mod_lt _ (by decide)), Option.getD_some]
    calc value (digits (k + 1) n) = 16 * (n / 16 % 16 ^ k) + n % 16 := by
          rw [digits, value_append, ih, hlast]
      _ = n % 16 ^ (k + 1) := by rw [pow_succ', Nat.mod_mul, add_comm]

end JSEngine.Common.Hex
