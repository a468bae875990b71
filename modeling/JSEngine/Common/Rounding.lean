import Mathlib.Tactic

/-!
# Integers of few significant bits

The integers that a binary floating-point format of `p` significant bits
represents, and rounding to the nearest of them, ties to even. The exponent is
unbounded.

* `representable_iff_dvd`: the bits behind the first `p` are zero;
* `roundBits_eq_self_iff`: rounding keeps exactly the representable integers;
* `representable_roundBits`: rounding gives one of them.
-/

namespace JSEngine.Common

/-- At most `p` significant bits. -/
def Representable (p : ℕ) (n : ℤ) : Prop := ∃ (m : ℤ) (k : ℕ), n = m * 2 ^ k ∧ m.natAbs < 2 ^ p

/-- The number of binary digits. -/
def bitLength (a : ℕ) : ℕ := if a = 0 then 0 else a.log2 + 1

/-- The bits of `a` behind the first `p`. -/
def excess (p a : ℕ) : ℕ := bitLength a - p

/-- The nearest multiple of `2 ^ e` as the factor, ties to the even one. -/
def roundQuotient (e a : ℕ) : ℕ :=
  if 2 * (a % 2 ^ e) < 2 ^ e ∨ (2 * (a % 2 ^ e) = 2 ^ e ∧ a / 2 ^ e % 2 = 0) then a / 2 ^ e
  else a / 2 ^ e + 1

/-- `n` rounded to `p` significant bits. -/
def roundBits (p : ℕ) (n : ℤ) : ℤ :=
  n.sign * (roundQuotient (excess p n.natAbs) n.natAbs * 2 ^ excess p n.natAbs : ℕ)

theorem bitLength_le {a n : ℕ} : bitLength a ≤ n ↔ a < 2 ^ n := by
  unfold bitLength
  split_ifs with h
  · subst h
    exact iff_of_true (Nat.zero_le _) (Nat.two_pow_pos n)
  · exact Nat.log2_lt h

theorem lt_two_pow_excess (p a : ℕ) : a < 2 ^ (p + excess p a) := by
  rw [← bitLength_le]
  unfold excess
  omega

theorem natAbs_sign_mul_le (n : ℤ) (q : ℕ) : (n.sign * q).natAbs ≤ q := by
  have hsign : n.sign.natAbs ≤ 1 := by
    rcases Int.sign_trichotomy n with h | h | h <;> simp [h]
  calc (n.sign * q).natAbs = n.sign.natAbs * q := by rw [Int.natAbs_mul, Int.natAbs_natCast]
    _ ≤ 1 * q := Nat.mul_le_mul_right q hsign
    _ = q := Nat.one_mul q

theorem representable_iff_dvd {p : ℕ} {n : ℤ} :
    Representable p n ↔ 2 ^ excess p n.natAbs ∣ n.natAbs := by
  constructor
  · rintro ⟨m, k, rfl, hm⟩
    have habs : (m * 2 ^ k).natAbs = m.natAbs * 2 ^ k := by simp [Int.natAbs_mul, Int.natAbs_pow]
    have hlen : bitLength (m.natAbs * 2 ^ k) ≤ p + k := by
      rw [bitLength_le, pow_add]
      exact (Nat.mul_lt_mul_right (Nat.two_pow_pos k)).mpr hm
    have hk : excess p (m.natAbs * 2 ^ k) ≤ k := by
      unfold excess
      omega
    rw [habs]
    exact Dvd.dvd.mul_left (Nat.pow_dvd_pow 2 hk) _
  · rintro ⟨q, hq⟩
    refine ⟨n.sign * q, excess p n.natAbs, ?_, ?_⟩
    · rw [mul_assoc, mul_comm (q : ℤ)]
      have hcast : ((2 ^ excess p n.natAbs * q : ℕ) : ℤ) = n.natAbs := congrArg _ hq.symm
      push_cast at hcast
      rw [hcast, ← Int.natCast_natAbs, Int.sign_mul_natAbs]
    · have hlt := lt_two_pow_excess p n.natAbs
      have hle := natAbs_sign_mul_le n q
      rw [pow_add, mul_comm] at hlt
      conv_lhs at hlt => rw [hq]
      have := Nat.lt_of_mul_lt_mul_left hlt
      omega

theorem roundQuotient_le (e a : ℕ) : roundQuotient e a ≤ a / 2 ^ e + 1 := by
  unfold roundQuotient
  split_ifs
  · exact Nat.le_succ _
  · exact Nat.le_refl _

/-- The rounded integer has at most `p` significant bits. -/
theorem representable_roundBits {p : ℕ} (hp : 0 < p) (n : ℤ) : Representable p (roundBits p n) := by
  have hq : roundQuotient (excess p n.natAbs) n.natAbs ≤ 2 ^ p := by
    have hlt := lt_two_pow_excess p n.natAbs
    rw [pow_add] at hlt
    have := Nat.div_lt_of_lt_mul (by rwa [mul_comm] at hlt)
    have := roundQuotient_le (excess p n.natAbs) n.natAbs
    omega
  rcases Nat.lt_or_eq_of_le hq with hlt | heq
  · refine ⟨n.sign * roundQuotient (excess p n.natAbs) n.natAbs, excess p n.natAbs, ?_, ?_⟩
    · unfold roundBits
      push_cast
      ring
    · exact lt_of_le_of_lt (natAbs_sign_mul_le n _) hlt
  · refine ⟨n.sign, p + excess p n.natAbs, ?_, ?_⟩
    · unfold roundBits
      rw [heq]
      push_cast
      ring
    · have hle := natAbs_sign_mul_le n 1
      rw [Nat.cast_one, mul_one] at hle
      exact lt_of_le_of_lt hle (Nat.one_lt_two_pow hp.ne')

/-- Rounding keeps exactly the integers of at most `p` significant bits. -/
theorem roundBits_eq_self_iff {p : ℕ} (hp : 0 < p) {n : ℤ} : roundBits p n = n ↔ Representable p n := by
  constructor
  · intro h
    rw [← h]
    exact representable_roundBits hp n
  · intro h
    obtain ⟨q, hq⟩ := representable_iff_dvd.mp h
    have hzero : n.natAbs % 2 ^ excess p n.natAbs = 0 :=
      Nat.mod_eq_zero_of_dvd (representable_iff_dvd.mp h)
    have hround : roundQuotient (excess p n.natAbs) n.natAbs =
        n.natAbs / 2 ^ excess p n.natAbs := by
      unfold roundQuotient
      rw [hzero, if_pos (Or.inl (by simp))]
    unfold roundBits
    rw [hround, Nat.div_mul_cancel (representable_iff_dvd.mp h), Int.sign_mul_natAbs]

/-- Ties go to the even neighbour. -/
example : roundBits 53 (2 ^ 53 + 1) = 2 ^ 53 ∧ roundBits 53 (2 ^ 53 + 3) = 2 ^ 53 + 4 := by decide

/-- An integer in the range of the significand is kept. -/
theorem representable_of_lt {p : ℕ} {n : ℤ} (h : n.natAbs < 2 ^ p) : Representable p n :=
  ⟨n, 0, by simp, h⟩

/-- Integers with more than `p` bits stay beyond the small ones. -/
theorem le_roundBits {p : ℕ} (hp : 0 < p) {n : ℤ} (h : 2 ^ p ≤ n.natAbs) :
    2 ^ (p - 1) ≤ (roundBits p n).natAbs := by
  have hne : n.natAbs ≠ 0 := (Nat.two_pow_pos p).trans_le h |>.ne'
  have hlen : p < bitLength n.natAbs := by
    by_contra hle
    exact absurd (bitLength_le.mp (Nat.le_of_not_lt hle)) (by omega)
  have hpow : 2 ^ (p - 1 + excess p n.natAbs) ≤ n.natAbs := by
    by_contra hlt
    have hle := bitLength_le.mpr (Nat.lt_of_not_le hlt)
    unfold excess at hle
    omega
  have hquot : 2 ^ (p - 1) ≤ n.natAbs / 2 ^ excess p n.natAbs := by
    rw [pow_add] at hpow
    exact (Nat.le_div_iff_mul_le (Nat.two_pow_pos _)).mpr hpow
  have hround : n.natAbs / 2 ^ excess p n.natAbs ≤
      roundQuotient (excess p n.natAbs) n.natAbs := by
    unfold roundQuotient
    split_ifs
    · exact Nat.le_refl _
    · exact Nat.le_succ _
  have hsign : n.sign.natAbs = 1 := Int.natAbs_sign_of_ne_zero (by omega)
  unfold roundBits
  rw [Int.natAbs_mul, hsign, one_mul, Int.natAbs_natCast]
  calc 2 ^ (p - 1) ≤ roundQuotient (excess p n.natAbs) n.natAbs := hquot.trans hround
    _ ≤ _ := Nat.le_mul_of_pos_right _ (Nat.two_pow_pos _)

/-- A small result of rounding is the integer itself. -/
theorem eq_of_roundBits {p : ℕ} (hp : 0 < p) {n i : ℤ} (h : roundBits p n = i)
    (hi : i.natAbs < 2 ^ (p - 1)) : n = i := by
  have hn : n.natAbs < 2 ^ p := by
    by_contra hle
    have := le_roundBits hp (Nat.le_of_not_lt hle)
    rw [h] at this
    omega
  rw [← h]
  exact ((roundBits_eq_self_iff hp).mpr (representable_of_lt hn)).symm

end JSEngine.Common
