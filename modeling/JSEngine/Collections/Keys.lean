import JSEngine.Atoms.Table

/-!
# The keys of maps and sets

A `Map` or `Set` looks a key up by `js_same_value_zero`, in the chain of the hash of the key
(`map_hash_key`, quickjs.c:44984-45021). Equal numbers have two forms, integers and doubles, and
`map_hash_key` tells them apart; `JS_NewFloat64` (quickjs.h:540-559) makes a double only of what is
no integer of 32 bits, and `__JS_NewFloat64` of anything.

* `same_iff`: the comparison is that of a normal form, so it is an equivalence;
* `hash_eq_of_same`: equal keys have equal hashes, unless one is an integer and the other one a
  double.
-/

namespace JSEngine.Collections

open JSEngine.Scalars (JSString)
open JSEngine.Atoms (hash_string)

/-! ## Doubles -/

/-- The bits of the double for an integer of 32 bits. -/
def doubleBits (n : ℤ) : UInt64 :=
  if n = 0 then 0
  else
    let sign : ℕ := if n < 0 then 1 else 0
    let exponent := Nat.log2 n.natAbs
    UInt64.ofNat (sign * 2 ^ 63 + (1023 + exponent) * 2 ^ 52 +
      (n.natAbs * 2 ^ (52 - exponent) - 2 ^ 52))

/-- `isnan`, from the bits. -/
def isnan (u : UInt64) : Bool := 0x7ff0000000000000 < u &&& 0x7fffffffffffffff

/-- The double is a zero of either sign. -/
def isZero (u : UInt64) : Bool := u &&& 0x7fffffffffffffff = 0

/-- `d1 == d2`. -/
def equalDoubles (u v : UInt64) : Bool :=
  !isnan u && !isnan v && (u = v || (isZero u && isZero v))

/-- The bits of `JS_FLOAT64_NAN`. -/
def JS_FLOAT64_NAN : UInt64 := 0x7ff8000000000000

/-! ## Keys -/

/-- A `JSValue` as a key: objects and symbols by their addresses, doubles by their bits. -/
inductive Key
  | int (n : Int32)
  | bool (b : Bool)
  | null
  | undefined
  | float64 (u : UInt64)
  | string (str : JSString)
  | symbol (address : UInt64)
  | object (address : UInt64)

/-- `JS_VALUE_GET_NORM_TAG` (quickjs.h:68-87), as `uint32_t`. -/
def Key.tag : Key → UInt32
  | .int _ => 0
  | .bool _ => 1
  | .null => 2
  | .undefined => 3
  | .float64 _ => 7
  | .string _ => -7
  | .symbol _ => -8
  | .object _ => -1

/-- `map_normalize_key` (lines 44973-44981): a zero becomes an integer. -/
def map_normalize_key : Key → Key
  | .float64 u => if equalDoubles u 0 then .int 0 else .float64 u
  | key => key

/-- `hash_float64` of `map_hash_key`: the two words of a double. -/
def hash_float64 (u : UInt64) : UInt32 := (u.toUInt32 ^^^ (u >>> 32).toUInt32) * 3163

/-- `map_hash_key` (lines 44984-45021). An integer is multiplied before it is made a double. -/
def map_hash_key (key : Key) : UInt32 :=
  let h : UInt32 :=
    match key with
    | .bool b => if b then 1 else 0
    | .string str => hash_string str 0
    | .object address | .symbol address => (address * 3163).toUInt32
    | .int n => hash_float64 (doubleBits (n * 3163).toInt)
    | .float64 u => hash_float64 (if isnan u then JS_FLOAT64_NAN else u)
    | .null | .undefined => 0
  h ^^^ key.tag

/-- The number test of `js_strict_eq2` for `JS_EQ_SAME_VALUE_ZERO` (lines 14485-14492). -/
def sameNumber (d1 d2 : UInt64) : Bool :=
  if isnan d1 || isnan d2 then isnan d1 == isnan d2 else equalDoubles d1 d2

/-- `js_same_value_zero`: `js_strict_eq2` with `JS_EQ_SAME_VALUE_ZERO` (lines 14415-14561). -/
def js_same_value_zero : Key → Key → Bool
  | .bool b, .bool b' => b = b'
  | .null, .null | .undefined, .undefined => true
  | .string str, .string str' => str.units = str'.units
  | .symbol address, .symbol address' | .object address, .object address' => address = address'
  | .int n, .int n' => sameNumber (doubleBits n.toInt) (doubleBits n'.toInt)
  | .int n, .float64 u => sameNumber (doubleBits n.toInt) u
  | .float64 u, .int n => sameNumber u (doubleBits n.toInt)
  | .float64 u, .float64 u' => sameNumber u u'
  | _, _ => false

/-! ## The comparison -/

/-- What is compared of a double: there is one NaN, and one zero. -/
def normalDouble (u : UInt64) : UInt64 := if isnan u then JS_FLOAT64_NAN else if isZero u then 0 else u

theorem isnan_of_isZero {u : UInt64} (h : isZero u = true) : isnan u = false := by
  rw [isZero, decide_eq_true_eq] at h
  rw [isnan, h]
  decide

theorem equalDoubles_iff {u v : UInt64} : equalDoubles u v = true ↔
    isnan u = false ∧ isnan v = false ∧ (u = v ∨ isZero u = true ∧ isZero v = true) := by
  simp [equalDoubles, and_assoc]

theorem sameNumber_iff {u v : UInt64} : sameNumber u v = true ↔ normalDouble u = normalDouble v := by
  have hnan : isnan JS_FLOAT64_NAN = true := by decide
  have hzero : isZero 0 = true := by decide
  have hnan0 : isnan 0 = false := by decide
  -- no other double is compared like a NaN
  have hne : ∀ {w}, isnan w = false → normalDouble w ≠ JS_FLOAT64_NAN := by
    intro w hw h
    rw [normalDouble, if_neg (by simp [hw])] at h
    split_ifs at h with hz
    · exact absurd h (by decide)
    · rw [h, hnan] at hw
      exact absurd hw (by decide)
  rw [sameNumber]
  cases hu : isnan u <;> cases hv : isnan v
  · simp only [Bool.or_self, Bool.false_eq_true, if_false, equalDoubles_iff, hu, hv, true_and,
      normalDouble]
    cases hzu : isZero u <;> cases hzv : isZero v
    · simp
    · simp only [Bool.false_eq_true, false_and, or_false, if_false, if_true]
      constructor
      · rintro rfl
        rw [hzu] at hzv
        exact absurd hzv (by decide)
      · rintro rfl
        exact absurd (hzero.symm.trans hzu) (by decide)
    · simp only [Bool.false_eq_true, and_false, or_false, if_false, if_true]
      constructor
      · rintro rfl
        rw [hzu] at hzv
        exact absurd hzv (by decide)
      · rintro rfl
        exact absurd (hzero.symm.trans hzv) (by decide)
    · simp
  · refine iff_of_false (by simp) fun h => hne hu (h.trans ?_)
    rw [normalDouble, if_pos hv]
  · refine iff_of_false (by simp) fun h => hne hv (h.symm.trans ?_)
    rw [normalDouble, if_pos hu]
  · simp [normalDouble, hu, hv]

/-- What is compared of a key. -/
inductive Identity
  | number (u : UInt64)
  | bool (b : Bool)
  | null
  | undefined
  | string (units : JSEngine.Java.JString)
  | symbol (address : UInt64)
  | object (address : UInt64)

def Key.identity : Key → Identity
  | .int n => .number (normalDouble (doubleBits n.toInt))
  | .bool b => .bool b
  | .null => .null
  | .undefined => .undefined
  | .float64 u => .number (normalDouble u)
  | .string str => .string str.units
  | .symbol address => .symbol address
  | .object address => .object address

/-- **Equal keys** have the same normal form. -/
theorem same_iff (a b : Key) : js_same_value_zero a b = true ↔ a.identity = b.identity := by
  cases a <;> cases b <;> simp [js_same_value_zero, Key.identity, sameNumber_iff]

theorem same_comm (a b : Key) : js_same_value_zero a b = js_same_value_zero b a := by
  rw [Bool.eq_iff_iff, same_iff, same_iff, eq_comm]

/-! ## Hashes of equal keys -/

theorem isnan_ofNat (n : ℕ) : isnan (UInt64.ofNat n) = decide (2047 * 2 ^ 52 < n % 2 ^ 63) := by
  have hmask : (0x7fffffffffffffff : UInt64).toNat = 2 ^ 63 - 1 := by decide
  have hbound : (0x7ff0000000000000 : UInt64).toNat = 2047 * 2 ^ 52 := by decide
  rw [isnan, decide_eq_decide, UInt64.lt_iff_toNat_lt, UInt64.toNat_and, UInt64.toNat_ofNat', hmask,
    hbound, Nat.and_two_pow_sub_one_eq_mod, Nat.mod_mod_of_dvd _ (by decide)]

theorem isZero_ofNat (n : ℕ) : isZero (UInt64.ofNat n) = decide (n % 2 ^ 63 = 0) := by
  have hmask : (0x7fffffffffffffff : UInt64).toNat = 2 ^ 63 - 1 := by decide
  have hzero : (0 : UInt64).toNat = 0 := by decide
  rw [isZero, decide_eq_decide, ← UInt64.toNat_inj, UInt64.toNat_and, UInt64.toNat_ofNat', hmask,
    hzero, Nat.and_two_pow_sub_one_eq_mod, Nat.mod_mod_of_dvd _ (by decide)]

/-- The sign, the exponent and the digits of the double of an integer. -/
theorem doubleBits_fields {n : ℤ} (hn : n.natAbs < 2 ^ 32) (h0 : n ≠ 0) :
    ∃ e m, e < 32 ∧ m < 2 ^ 52 ∧ n.natAbs * 2 ^ (52 - e) = 2 ^ 52 + m ∧
      doubleBits n = UInt64.ofNat ((if n < 0 then 1 else 0) * 2 ^ 63 + (1023 + e) * 2 ^ 52 + m) := by
  have hpos : n.natAbs ≠ 0 := Int.natAbs_ne_zero.mpr h0
  have hlog : n.natAbs.log2 < 32 := (Nat.log2_lt hpos).mpr hn
  have hlt : n.natAbs * 2 ^ (52 - n.natAbs.log2) < 2 ^ 53 := by
    have := Nat.mul_lt_mul_of_pos_right (Nat.lt_log2_self (n := n.natAbs))
      (Nat.two_pow_pos (52 - n.natAbs.log2))
    rwa [← pow_add, show n.natAbs.log2 + 1 + (52 - n.natAbs.log2) = 53 by omega] at this
  have hle : 2 ^ 52 ≤ n.natAbs * 2 ^ (52 - n.natAbs.log2) := by
    have := Nat.mul_le_mul_right (2 ^ (52 - n.natAbs.log2)) (Nat.log2_self_le hpos)
    rwa [← pow_add, show n.natAbs.log2 + (52 - n.natAbs.log2) = 52 by omega] at this
  refine ⟨n.natAbs.log2, n.natAbs * 2 ^ (52 - n.natAbs.log2) - 2 ^ 52, hlog, ?_, ?_, ?_⟩
  · omega
  · omega
  · rw [doubleBits, if_neg h0]

/-- The double of an integer is a number. -/
theorem isnan_doubleBits {n : ℤ} (hn : n.natAbs < 2 ^ 32) : isnan (doubleBits n) = false := by
  by_cases h0 : n = 0
  · subst h0
    decide
  · obtain ⟨e, m, he, hm, -, hbits⟩ := doubleBits_fields hn h0
    rw [hbits, isnan_ofNat, decide_eq_false_iff_not]
    split_ifs <;> omega

theorem isZero_doubleBits {n : ℤ} (hn : n.natAbs < 2 ^ 32) (h0 : n ≠ 0) :
    isZero (doubleBits n) = false := by
  obtain ⟨e, m, he, hm, -, hbits⟩ := doubleBits_fields hn h0
  rw [hbits, isZero_ofNat, decide_eq_false_iff_not]
  split_ifs <;> omega

/-- Different integers have different doubles. -/
theorem doubleBits_inj {n n' : ℤ} (hn : n.natAbs < 2 ^ 32) (hn' : n'.natAbs < 2 ^ 32)
    (h : doubleBits n = doubleBits n') : n = n' := by
  have hzero : isZero (doubleBits 0) = true := by decide
  by_cases h0 : n = 0
  · subst h0
    by_contra hne
    have := isZero_doubleBits hn' (Ne.symm hne)
    rw [← h, hzero] at this
    exact absurd this (by decide)
  by_cases h0' : n' = 0
  · rw [← h0', ← h, isZero_doubleBits hn h0] at hzero
    exact absurd hzero (by decide)
  obtain ⟨e, m, he, hm, hvalue, hbits⟩ := doubleBits_fields hn h0
  obtain ⟨e', m', he', hm', hvalue', hbits'⟩ := doubleBits_fields hn' h0'
  rw [hbits, hbits', ← UInt64.toNat_inj, UInt64.toNat_ofNat', UInt64.toNat_ofNat'] at h
  have hsign : (n < 0 ↔ n' < 0) ∧ e = e' ∧ m = m' := by
    split_ifs at h <;> omega
  obtain ⟨hsign, rfl, rfl⟩ := hsign
  have := Nat.eq_of_mul_eq_mul_right (Nat.two_pow_pos _) (hvalue.trans hvalue'.symm)
  omega

/-- The keys as `JS_NewInt32` and `JS_NewFloat64` make them: no double is an integer of 32 bits. -/
def Key.Canonical : Key → Prop
  | .float64 u => ∀ n : Int32, u ≠ doubleBits n.toInt
  | _ => True

theorem natAbs_toInt_lt (n : Int32) : n.toInt.natAbs < 2 ^ 32 := by
  have := n.toInt_lt
  have := n.le_toInt
  omega

/-- The double of an integer is compared as it is. -/
theorem normalDouble_doubleBits (n : Int32) :
    normalDouble (doubleBits n.toInt) = doubleBits n.toInt := by
  have hnan := isnan_doubleBits (natAbs_toInt_lt n)
  rw [normalDouble, hnan, if_neg (by decide)]
  by_cases h0 : n.toInt = 0
  · rw [h0]
    decide
  · rw [isZero_doubleBits (natAbs_toInt_lt n) h0, if_neg (by decide)]

/-- A key that is normalised is no zero of a double. -/
theorem canonical_normalize {key : Key} (h : key.Canonical) :
    (map_normalize_key key).Canonical ∧
      ∀ u, map_normalize_key key = .float64 u → isZero u = false := by
  cases key with
  | float64 u =>
    rw [map_normalize_key]
    split_ifs with hzero
    · exact ⟨trivial, fun u h => by cases h⟩
    · refine ⟨h, fun v hv => ?_⟩
      obtain rfl := Key.float64.inj hv
      by_contra hz
      rw [Bool.not_eq_false] at hz
      exact hzero (equalDoubles_iff.mpr ⟨isnan_of_isZero hz, by decide, .inr ⟨hz, by decide⟩⟩)
  | _ => exact ⟨trivial, fun u h => by cases h⟩

/-- No other double is equal to an integer. -/
theorem normalDouble_ne {n : Int32} {u : UInt64} (hu : Key.Canonical (.float64 u))
    (hzero : isZero u = false) : normalDouble u ≠ doubleBits n.toInt := by
  intro h
  rw [normalDouble, hzero, if_neg Bool.false_ne_true] at h
  split_ifs at h with hnan
  · have := isnan_doubleBits (natAbs_toInt_lt n)
    rw [← h] at this
    exact absurd this (by decide)
  · exact hu n h

/-- **Equal keys have equal hashes**, once they are normalised. -/
theorem hash_eq_of_same {a b : Key} (ha : a.Canonical) (hb : b.Canonical)
    (h : js_same_value_zero (map_normalize_key a) (map_normalize_key b) = true) :
    map_hash_key (map_normalize_key a) = map_hash_key (map_normalize_key b) := by
  obtain ⟨ha, hza⟩ := canonical_normalize ha
  obtain ⟨hb, hzb⟩ := canonical_normalize hb
  generalize map_normalize_key a = a at *
  generalize map_normalize_key b = b at *
  rw [same_iff] at h
  cases a with
  | int n =>
    cases b with
    | int n' =>
      have h := Identity.number.inj h
      rw [normalDouble_doubleBits, normalDouble_doubleBits] at h
      rw [Int32.toInt_inj.mp (doubleBits_inj (natAbs_toInt_lt n) (natAbs_toInt_lt n') h)]
    | float64 u =>
      have h := Identity.number.inj h
      rw [normalDouble_doubleBits] at h
      exact absurd h.symm (normalDouble_ne hb (hzb u rfl))
    | _ => cases h
  | float64 u =>
    cases b with
    | int n =>
      have h := Identity.number.inj h
      rw [normalDouble_doubleBits] at h
      exact absurd h (normalDouble_ne ha (hza u rfl))
    | float64 v =>
      have h := Identity.number.inj h
      rw [normalDouble, normalDouble, hza u rfl, hzb v rfl, if_neg Bool.false_ne_true,
        if_neg Bool.false_ne_true] at h
      simp only [map_hash_key, h, Key.tag]
    | _ => cases h
  | string str =>
    cases b with
    | string str' =>
      have h := Identity.string.inj h
      simp only [map_hash_key, hash_string, h, Key.tag]
    | _ => cases h
  | _ =>
    cases b <;> cases h
    rfl

end JSEngine.Collections
