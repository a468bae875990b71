import JSEngine.Common.Rounding

/-!
# Binary floating-point data

The data of a binary interchange format: the finite values as rational numbers,
with a zero of either sign, the infinities, and one NaN. Enough for conversions
between two formats and between a format and the integers, and for the comparison
`==`.

* `ofInt`: the conversion of an integer, rounding to nearest;
* `truncate`: the narrowing to an interval of integers, toward zero;
* `widen`: the conversion to a wider format, exact (`value?_widen`);
* `eq_ofInt_iff`: what is equal to a small integer has its value.
-/

namespace JSEngine.Common

/-- A format: finite values have `precision` bits and an exponent from `-fraction`
    up to `maxExponent`. -/
structure Format where
  precision : ℕ
  fraction : ℕ
  maxExponent : ℕ
  precision_pos : 0 < precision

def binary32 : Format := ⟨24, 149, 104, by decide⟩

def binary64 : Format := ⟨53, 1074, 971, by decide⟩

namespace Format

/-- The rational number is a value of the format. -/
def Represents (f : Format) (q : ℚ) : Prop :=
  ∃ m e : ℤ, m.natAbs < 2 ^ f.precision ∧ -f.fraction ≤ e ∧ e ≤ f.maxExponent ∧ q = m * 2 ^ e

/-- Every value of `f` is one of `g`. -/
structure Le (f g : Format) : Prop where
  precision : f.precision ≤ g.precision
  fraction : f.fraction ≤ g.fraction
  maxExponent : f.maxExponent ≤ g.maxExponent

theorem binary32_le_binary64 : binary32.Le binary64 := ⟨by decide, by decide, by decide⟩

theorem Represents.widen {f g : Format} (hle : f.Le g) {q : ℚ} (h : f.Represents q) :
    g.Represents q := by
  obtain ⟨m, e, hm, hmin, hmax, rfl⟩ := h
  obtain ⟨hp, hf, he⟩ := hle
  have hpow : 2 ^ f.precision ≤ 2 ^ g.precision := Nat.pow_le_pow_right (by decide) hp
  exact ⟨m, e, by omega, by omega, by omega, rfl⟩

/-- The largest power of two beyond the format. -/
def bound (f : Format) : ℕ := 2 ^ (f.precision + f.maxExponent)

/-- An integer of few significant bits below the bound is a value. -/
theorem represents_int {f : Format} {n : ℤ} (h : Representable f.precision n)
    (hn : n.natAbs < f.bound) : f.Represents n := by
  have hexcess : excess f.precision n.natAbs ≤ f.maxExponent := by
    have hlen := bitLength_le.mpr hn
    unfold excess
    omega
  obtain ⟨q, hq⟩ := representable_iff_dvd.mp h
  have hlt : q < 2 ^ f.precision := by
    have hlt := lt_two_pow_excess f.precision n.natAbs
    rw [pow_add, mul_comm] at hlt
    conv_lhs at hlt => rw [hq]
    exact Nat.lt_of_mul_lt_mul_left hlt
  have hle := natAbs_sign_mul_le n q
  refine ⟨n.sign * q, excess f.precision n.natAbs, by omega, by omega, by omega, ?_⟩
  have hvalue : n = n.sign * q * 2 ^ excess f.precision n.natAbs := by
    have hcast : ((2 ^ excess f.precision n.natAbs * q : ℕ) : ℤ) = n.natAbs :=
      congrArg _ hq.symm
    push_cast at hcast
    rw [mul_assoc, mul_comm (q : ℤ), hcast, ← Int.natCast_natAbs, Int.sign_mul_natAbs]
  rw [zpow_natCast]
  exact_mod_cast hvalue

end Format

/-- A datum of a format. -/
inductive Datum (f : Format)
  | nan
  | infinite (negative : Bool)
  | negativeZero
  | finite (q : ℚ) (h : f.Represents q)
  deriving DecidableEq

namespace Datum

variable {f g : Format}

/-- The number behind a datum. -/
def value? : Datum f → Option ℚ
  | finite q _ => some q
  | negativeZero => some 0
  | _ => none

/-- `x == y`: NaN is equal to nothing, and the two zeros are equal. -/
def eq (x y : Datum f) : Bool :=
  match x, y with
  | nan, _ | _, nan => false
  | infinite a, infinite b => a == b
  | x, y => x.value? == y.value?

/-- The conversion of an integer, rounding to nearest. -/
def ofInt (f : Format) (n : ℤ) : Datum f :=
  if h : (roundBits f.precision n).natAbs < f.bound then
    finite (roundBits f.precision n)
      (Format.represents_int (representable_roundBits f.precision_pos n) h)
  else infinite (n < 0)

/-- The conversion to a wider format. -/
def widen (hle : f.Le g) : Datum f → Datum g
  | nan => nan
  | infinite negative => infinite negative
  | negativeZero => negativeZero
  | finite q h => finite q (h.widen hle)

/-- The conversion to an integer between `lo` and `hi`, toward zero. -/
def truncate (lo hi : ℤ) : Datum f → ℤ
  | nan | negativeZero => 0
  | infinite negative => if negative then lo else hi
  | finite q _ => max lo (min hi (q.num.tdiv q.den))

@[simp] theorem value?_widen (hle : f.Le g) (x : Datum f) : (x.widen hle).value? = x.value? := by
  cases x <;> rfl

/-- A small integer is converted exactly. -/
theorem value?_ofInt {n : ℤ} (h : n.natAbs < 2 ^ f.precision) : (ofInt f n).value? = some (n : ℚ) := by
  have hround : roundBits f.precision n = n :=
    (roundBits_eq_self_iff f.precision_pos).mpr (representable_of_lt h)
  have hbound : (roundBits f.precision n).natAbs < f.bound := by
    rw [hround]
    refine h.trans_le ?_
    unfold Format.bound
    exact Nat.pow_le_pow_right (by decide) (by omega)
  unfold ofInt
  rw [dif_pos hbound]
  show some ((roundBits f.precision n : ℤ) : ℚ) = _
  rw [hround]

/-- A small value comes from the same integer. -/
theorem eq_of_value?_ofInt {n i : ℤ} (h : (ofInt f n).value? = some (i : ℚ))
    (hi : i.natAbs < 2 ^ (f.precision - 1)) : n = i := by
  unfold ofInt at h
  split_ifs at h with hbound
  · have hround : ((roundBits f.precision n : ℤ) : ℚ) = i := Option.some.inj h
    exact eq_of_roundBits f.precision_pos (by exact_mod_cast hround) hi
  · exact absurd h (by simp [value?])

/-- What is equal to a datum with a value has the value. -/
theorem eq_iff_value? {x y : Datum f} {q : ℚ} (hy : y.value? = some q) :
    x.eq y ↔ x.value? = some q := by
  have hne : y ≠ nan := by
    rintro rfl
    exact absurd hy (by simp [value?])
  have heq : x.eq y = (x.value? == y.value?) := by
    cases y with
    | nan => exact absurd rfl hne
    | infinite negative => exact absurd hy (by simp [value?])
    | negativeZero => cases x <;> rfl
    | finite q h => cases x <;> rfl
  rw [heq, hy, beq_iff_eq]

/-- What is equal to a small integer has its value. -/
theorem eq_ofInt_iff {x : Datum f} {n : ℤ} (h : n.natAbs < 2 ^ f.precision) :
    x.eq (ofInt f n) ↔ x.value? = some (n : ℚ) :=
  eq_iff_value? (value?_ofInt h)

/-- An integer in the interval is kept. -/
theorem truncate_eq {x : Datum f} {n lo hi : ℤ} (hx : x.value? = some (n : ℚ)) (hlo : lo ≤ n)
    (hhi : n ≤ hi) : x.truncate lo hi = n := by
  cases x with
  | nan => exact absurd hx (by simp [value?])
  | infinite negative => exact absurd hx (by simp [value?])
  | negativeZero =>
    have hn : (0 : ℚ) = n := Option.some.inj hx
    exact_mod_cast hn
  | finite q h =>
    obtain rfl : q = n := Option.some.inj hx
    show max lo (min hi ((n : ℚ).num.tdiv (n : ℚ).den)) = n
    rw [Rat.num_intCast, Rat.den_intCast, Nat.cast_one, Int.tdiv_one]
    omega

end Datum

end JSEngine.Common
