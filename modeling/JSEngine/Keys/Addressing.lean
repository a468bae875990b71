import JSEngine.Keys.Numbers

/-!
# Which property a number key addresses

* `eq_intValue_iff`: `set` takes the way of an index exactly for the numbers of the
  range of `int`;
* `set_eq`, `get_eq`: both read and write one property, `setName` and `getName`;
* `number_keys_iff`: a value that is set under a number is read back, from the
  property that script calls by this number, exactly where the key is `Addressable`;
  an `int` addresses its property exactly where it is not negative.
-/

namespace JSEngine.Keys

open JSEngine.Java JSEngine.Common JSEngine.Scalars

/-! ## The range of `int` -/

namespace JavaNumber

/-- The number is the integer `i`, an `int`. -/
def IsInt (k : JavaNumber) (i : ℤ) : Prop :=
  minInt ≤ i ∧ i ≤ maxInt ∧ k.doubleValue.value? = some (i : ℚ)

theorem toInt_bounds (n : BitVec 32) : minInt ≤ n.toInt ∧ n.toInt ≤ maxInt := by
  have hle := n.le_toInt
  have hlt := n.toInt_lt
  unfold minInt maxInt
  omega

theorem natAbs_lt {i : ℤ} (hmin : minInt ≤ i) (hmax : i ≤ maxInt) :
    i.natAbs < 2 ^ (binary64.precision - 1) := by
  unfold minInt at hmin
  unfold maxInt at hmax
  show i.natAbs < 2 ^ 52
  omega

theorem natAbs_lt' {i : ℤ} (hmin : minInt ≤ i) (hmax : i ≤ maxInt) :
    i.natAbs < 2 ^ binary64.precision :=
  (natAbs_lt hmin hmax).trans (by decide)

/-- The narrowing of a number in the range. -/
theorem toInt_ofInt_truncate {f : Format} {x : Datum f} {i : ℤ} (hmin : minInt ≤ i)
    (hmax : i ≤ maxInt) (h : x.value? = some (i : ℚ)) :
    (BitVec.ofInt 32 (x.truncate minInt maxInt)).toInt = i := by
  rw [Datum.truncate_eq h hmin hmax, BitVec.toInt_ofInt]
  unfold minInt at hmin
  unfold maxInt at hmax
  exact Int.bmod_eq_of_le (by omega) (by omega)

/-- `intValue` of a number in the range is the number. -/
theorem IsInt.intValue {k : JavaNumber} {i : ℤ} (h : k.IsInt i) : k.intValue.toInt = i := by
  obtain ⟨hmin, hmax, hvalue⟩ := h
  have hsmall := natAbs_lt hmin hmax
  cases k with
  | byte n =>
    show (n.signExtend 32).toInt = i
    rw [BitVec.toInt_signExtend_of_le (by decide)]
    exact Datum.eq_of_value?_ofInt hvalue hsmall
  | short n =>
    show (n.signExtend 32).toInt = i
    rw [BitVec.toInt_signExtend_of_le (by decide)]
    exact Datum.eq_of_value?_ofInt hvalue hsmall
  | integer n => exact Datum.eq_of_value?_ofInt hvalue hsmall
  | long n =>
    have hn : n.toInt = i := Datum.eq_of_value?_ofInt hvalue hsmall
    have hbits : (n.toNat : ℤ) = if 2 * n.toNat < 2 ^ 64 then i else i + 2 ^ 64 := by
      rw [← hn, BitVec.toInt_eq_toNat_cond]
      split_ifs <;> omega
    unfold minInt at hmin
    unfold maxInt at hmax
    show (n.setWidth 32).toInt = i
    rw [BitVec.toInt_setWidth, Int.bmod_def, hbits]
    split_ifs <;> omega
  | float x =>
    rw [doubleValue, Datum.value?_widen] at hvalue
    exact toInt_ofInt_truncate hmin hmax hvalue
  | double x => exact toInt_ofInt_truncate hmin hmax hvalue

theorem IsInt.toInt_long {n : BitVec 64} {i : ℤ} (h : (long n).IsInt i) : n.toInt = i := by
  obtain ⟨hmin, hmax, hvalue⟩ := h
  exact Datum.eq_of_value?_ofInt hvalue (natAbs_lt hmin hmax)

/-- An integer in the range, as a number. -/
theorem isInt_of_doubleValue {k : JavaNumber} {i : ℤ} (hmin : minInt ≤ i) (hmax : i ≤ maxInt)
    (h : k.doubleValue = .ofInt binary64 i) : k.IsInt i :=
  ⟨hmin, hmax, by rw [h]; exact Datum.value?_ofInt (natAbs_lt' hmin hmax)⟩

theorem isInt_integer (n : BitVec 32) : (integer n).IsInt n.toInt :=
  isInt_of_doubleValue (toInt_bounds n).1 (toInt_bounds n).2 rfl

theorem isInt_byte (n : BitVec 8) : (byte n).IsInt n.toInt := by
  have hle := n.le_toInt
  have hlt := n.toInt_lt
  exact isInt_of_doubleValue (by unfold minInt; omega) (by unfold maxInt; omega) rfl

theorem isInt_short (n : BitVec 16) : (short n).IsInt n.toInt := by
  have hle := n.le_toInt
  have hlt := n.toInt_lt
  exact isInt_of_doubleValue (by unfold minInt; omega) (by unfold maxInt; omega) rfl

/-- `number.doubleValue() == number.intValue()` holds of the numbers in the range. -/
theorem eq_intValue_iff (k : JavaNumber) :
    k.doubleValue.eq (.ofInt binary64 k.intValue.toInt) ↔ ∃ i, k.IsInt i := by
  obtain ⟨hmin, hmax⟩ := toInt_bounds k.intValue
  rw [Datum.eq_ofInt_iff (natAbs_lt' hmin hmax)]
  constructor
  · intro h
    exact ⟨k.intValue.toInt, hmin, hmax, h⟩
  · rintro ⟨i, h⟩
    rw [h.intValue]
    exact h.2.2

end JavaNumber

/-! ## The property of a key -/

variable (T : Texts) {α : Type}

/-- How script calls the property of an integer. -/
def indexName (i : ℤ) : JString := T.number (.ofInt binary64 i)

/-- How script calls the property of a number. -/
def keyName (k : JavaNumber) : JString := T.number k.doubleValue

/-- The property that `get` reads. -/
def getName (engine : Engine) (k : JavaNumber) : Option JString :=
  if k.equalsInteger k.intValue then some (indexName T k.intValue.toNat)
  else propertyKey T engine (coerceJavaToJavaScript engine k)

/-- The property that `set` writes. -/
def setName (engine : Engine) (k : JavaNumber) : Option JString :=
  if k.doubleValue.eq (.ofInt binary64 k.intValue.toInt) then
    some (indexName T k.intValue.toNat)
  else propertyKey T engine (.number k)

theorem getIndex_eq (o : Properties α) (i : BitVec 32) :
    getIndex T o i = o (indexName T i.toNat) := rfl

theorem setIndex_eq (o : Properties α) (i : BitVec 32) (v : α) :
    setIndex T o i v = Function.update o (indexName T i.toNat) (some v) := rfl

theorem get_eq (engine : Engine) (o : Properties α) (k : JavaNumber) :
    get T engine o k = (getName T engine k).bind o := by
  unfold get getName
  split_ifs <;> rfl

theorem set_eq (engine : Engine) (o : Properties α) (k : JavaNumber) (v : α) :
    set T engine o k v =
      (setName T engine k).elim o fun name => Function.update o name (some v) := by
  unfold set setName
  split_ifs
  · rfl
  · show setKeyObject T engine o (.number k) v = _
    unfold setKeyObject
    cases propertyKey T engine (.number k) <;> rfl

/-- Where an empty object has a value after a write, there it was written. -/
theorem eq_of_update {name p : JString} {v : α}
    (h : Function.update (fun _ => none : Properties α) p (some v) name = some v) : p = name := by
  by_contra hne
  rw [Function.update_of_ne (Ne.symm hne)] at h
  exact absurd h (Option.some_ne_none v).symm

/-- A value is read back from the property `name`, whatever the object and the value
    are, exactly where both go to this property. -/
theorem back_iff_names [Inhabited α] (engine : Engine) (k : JavaNumber) (name : JString) :
    (∀ (o : Properties α) (v : α), get T engine (set T engine o k v) k = some v ∧
      set T engine o k v = Function.update o name (some v)) ↔
      setName T engine k = some name ∧ getName T engine k = some name := by
  constructor
  · intro h
    obtain ⟨hget, hset⟩ := h (fun _ => none) default
    rw [hset, get_eq] at hget
    rw [set_eq] at hset
    have hvalue := congrFun hset name
    rw [Function.update_self] at hvalue
    constructor
    · cases hwritten : setName T engine k with
      | none =>
        rw [hwritten] at hvalue
        exact absurd hvalue (Option.some_ne_none _).symm
      | some p =>
        rw [hwritten] at hvalue
        exact congrArg some (eq_of_update hvalue)
    · obtain ⟨q, hread, hq⟩ := Option.bind_eq_some_iff.mp hget
      rw [hread, eq_of_update hq]
  · rintro ⟨hset, hget⟩ o v
    rw [get_eq, set_eq, hset, hget]
    refine ⟨?_, rfl⟩
    show Function.update o name (some v) name = some v
    exact Function.update_self name (some v) o

/-! ## Indices -/

/-- An `int` is cast to its own value exactly where it is not negative. -/
theorem indexName_iff (i : BitVec 32) : indexName T i.toNat = indexName T i.toInt ↔ 0 ≤ i.toInt := by
  have hdecimal (n : ℤ) (hn : n.natAbs ≤ 2 ^ 52) : indexName T n = decimal n :=
    T.number_int _ n (Datum.value?_ofInt (by show n.natAbs < 2 ^ 53; omega)) (by omega)
  have hbits := BitVec.toInt_eq_toNat_cond i
  have hlt := i.isLt
  obtain ⟨hmin, hmax⟩ := JavaNumber.toInt_bounds i
  unfold minInt at hmin
  unfold maxInt at hmax
  rw [hdecimal _ (by omega), hdecimal _ (by omega), decimal_inj]
  split_ifs at hbits <;> omega

/-- The name of a number in the range of `int`. -/
theorem keyName_of_isInt {k : JavaNumber} {i : ℤ} (h : k.IsInt i) : keyName T k = decimal i := by
  obtain ⟨hmin, hmax, hvalue⟩ := h
  unfold minInt at hmin
  unfold maxInt at hmax
  exact T.number_int _ i hvalue (by omega)

theorem indexName_of_isInt {k : JavaNumber} {i : ℤ} (h : k.IsInt i) :
    indexName T i = keyName T k := by
  obtain ⟨hmin, hmax, hvalue⟩ := h
  have hsmall := JavaNumber.natAbs_lt' hmin hmax
  have hname := T.number_int _ i (Datum.value?_ofInt hsmall) (Nat.le_of_lt hsmall)
  rw [keyName_of_isInt T ⟨hmin, hmax, hvalue⟩]
  exact hname

/-! ## The way of `set` -/

/-- In the range, `set` writes under the name exactly where the number is not
    negative. -/
theorem setName_of_isInt (engine : Engine) {k : JavaNumber} {i : ℤ} (h : k.IsInt i) :
    setName T engine k = some (keyName T k) ↔ 0 ≤ i := by
  unfold setName
  rw [if_pos ((k.eq_intValue_iff).mpr ⟨i, h⟩), Option.some_inj, ← indexName_of_isInt T h, ← h.intValue]
  exact indexName_iff T k.intValue

theorem setName_of_not_isInt (engine : Engine) {k : JavaNumber} (h : ¬ ∃ i, k.IsInt i) :
    setName T engine k = propertyKey T engine (.number k) := by
  unfold setName
  rw [if_neg fun heq => h ((k.eq_intValue_iff).mp heq)]

/-! ## The way of `get` -/

/-- In the range, `get` reads the name of a number that is not negative. -/
theorem getName_of_isInt (engine : Engine) {k : JavaNumber} {i : ℤ} (h : k.IsInt i) (hi : 0 ≤ i) :
    getName T engine k = some (keyName T k) := by
  cases k with
  | byte n =>
    show some (T.number (.ofInt binary64 (n.signExtend 32).toInt)) = _
    rw [BitVec.toInt_signExtend_of_le (by decide)]
    rfl
  | short n =>
    show some (T.number (.ofInt binary64 (n.signExtend 32).toInt)) = _
    rw [BitVec.toInt_signExtend_of_le (by decide)]
    rfl
  | integer n =>
    have hn : n.toInt = i := h.intValue
    have hequals : (JavaNumber.integer n).equalsInteger (JavaNumber.integer n).intValue :=
      beq_self_eq_true n
    unfold getName
    rw [if_pos hequals]
    exact congrArg some ((indexName_iff T n).mpr (hn ▸ hi))
  | long n =>
    cases engine with
    | quickJS => rfl
    | duktape =>
      have hn : n.toInt = i := h.toInt_long
      show some (decimal n.toInt) = _
      rw [keyName_of_isInt T h, hn]
  | float x => rfl
  | double x => rfl

/-! ## The claim -/

/-- Where Java writes the number on its way to the engine, script writes it alike. -/
def WrittenAlike (engine : Engine) (k : JavaNumber) : Prop :=
  match k with
  | .long n => engine = .duktape → decimal n.toInt = keyName T k
  | .float x => T.float x = keyName T k
  | _ => True

/-- The keys that address their property: the numbers of the range of `int` that are
    not negative, and the numbers outside of it that are written alike. -/
def Addressable (engine : Engine) (k : JavaNumber) : Prop :=
  (∃ i, k.IsInt i ∧ 0 ≤ i) ∨ (¬ ∃ i, k.IsInt i) ∧ WrittenAlike T engine k

theorem addressable_of_isInt (engine : Engine) {k : JavaNumber} {i : ℤ} (h : k.IsInt i) :
    Addressable T engine k ↔ 0 ≤ i := by
  constructor
  · rintro (⟨j, hj, h0⟩ | ⟨hnot, -⟩)
    · rwa [← h.intValue, hj.intValue]
    · exact absurd ⟨i, h⟩ hnot
  · intro h0
    exact Or.inl ⟨i, h, h0⟩

/-- Outside of the range, `set` does not coerce and `get` does. -/
theorem names_of_not_isInt (engine : Engine) {k : JavaNumber} (h : ¬ ∃ i, k.IsInt i) :
    setName T engine k = some (keyName T k) ∧ getName T engine k = some (keyName T k) ↔
      Addressable T engine k := by
  rw [setName_of_not_isInt T engine h, Addressable, or_iff_right fun hi => h ⟨_, hi.choose_spec.1⟩,
    and_iff_right h]
  cases k with
  | byte n => exact absurd ⟨_, JavaNumber.isInt_byte n⟩ h
  | short n => exact absurd ⟨_, JavaNumber.isInt_short n⟩ h
  | integer n => exact absurd ⟨_, JavaNumber.isInt_integer n⟩ h
  | long n =>
    cases engine with
    | quickJS => exact iff_of_true ⟨rfl, rfl⟩ fun h => (nomatch h)
    | duktape =>
      show some (decimal n.toInt) = _ ∧ some (decimal n.toInt) = _ ↔ _
      rw [and_self_iff, Option.some_inj]
      constructor
      · intro hname _
        exact hname
      · intro hname
        exact hname rfl
  | float x =>
    show some (T.float x) = _ ∧ _ ↔ T.float x = _
    rw [Option.some_inj]
    exact and_iff_left rfl
  | double x => exact iff_of_true ⟨rfl, rfl⟩ trivial

theorem names_iff (engine : Engine) (k : JavaNumber) :
    setName T engine k = some (keyName T k) ∧ getName T engine k = some (keyName T k) ↔
      Addressable T engine k := by
  by_cases h : ∃ i, k.IsInt i
  · obtain ⟨i, hi⟩ := h
    rw [addressable_of_isInt T engine hi, setName_of_isInt T engine hi]
    exact and_iff_left_of_imp fun h0 => getName_of_isInt T engine hi h0
  · exact names_of_not_isInt T engine h

/-- A value that is set under a number is read back, from the property that script
    calls by the number, exactly where the key is addressable; and an `int` addresses
    the property that script calls by it exactly where it is not negative. -/
theorem number_keys_iff [Inhabited α] (engine : Engine) :
    (∀ k : JavaNumber,
      (∀ (o : Properties α) (v : α), get T engine (set T engine o k v) k = some v ∧
        set T engine o k v = Function.update o (keyName T k) (some v)) ↔
      Addressable T engine k) ∧
    ∀ i : BitVec 32,
      (∀ (o : Properties α) (v : α), getIndex T o i = o (indexName T i.toInt) ∧
        setIndex T o i v = Function.update o (indexName T i.toInt) (some v)) ↔
      0 ≤ i.toInt := by
  constructor
  · intro k
    rw [back_iff_names, names_iff]
  · intro i
    rw [← indexName_iff T i]
    constructor
    · intro h
      have hset := congrFun (h (fun _ => none) default).2 (indexName T i.toInt)
      rw [setIndex_eq, Function.update_self] at hset
      exact eq_of_update hset
    · intro hname o v
      rw [getIndex_eq, setIndex_eq, hname]
      exact ⟨rfl, rfl⟩

/-- Texts that are right for the integers. -/
def integerTexts : Texts where
  number x := x.value?.elim [] fun q => decimal q.num
  float _ := []
  double _ := []
  number_int := by
    intro x n hx _
    rw [hx]
    show decimal (n : ℚ).num = decimal n
    rw [Rat.num_intCast]

/-- `set(-1, v)` writes the property 4294967295. -/
theorem set_negative_misses :
    ¬ ∀ (T : Texts) (engine : Engine) (k : JavaNumber) (o : Properties Bool) (v : Bool),
      get T engine (set T engine o k v) k = some v ∧
        set T engine o k v = Function.update o (keyName T k) (some v) := by
  intro h
  have hnames := (back_iff_names integerTexts .quickJS (.integer (-1)) _).mp
    (h integerTexts .quickJS (.integer (-1)))
  have haddress := (names_iff integerTexts .quickJS (.integer (-1))).mp hnames
  have hnonneg := (addressable_of_isInt integerTexts .quickJS
    (JavaNumber.isInt_integer (-1))).mp haddress
  exact absurd hnonneg (by decide)

end JSEngine.Keys
