import JSEngine.Coerce.Receivers

/-!
# The arguments of a reflective call

`callMethod` and `construct` build the argument list of the reflective call with one
loop for the parameters in front of a variadic one and one for the rest, which they
put into an array (JavaMethodObject.java, lines 116–133 and 155–157;
JavaObject.java, lines 332–350).

* `coerceParameters_eq`, `coerceConstructorParameters`: the two loops are one;
* `placed_of_ok`: what a list that has been built holds;
* `arguments_placed_iff`: exactly when the building itself raises nothing;
* `varargs_refused`: variadic parameters of primitive and of other types.
-/

namespace JSEngine.Coerce

open JSEngine.Java JSEngine.Memo JSEngine.Members JSEngine.Common

variable {V : Type*} [DecidableEq V] (w : World V) (c : JSEngineContext V)

/-! ## Model -/

/-- The parameters in front of a variadic one. -/
def fixedParameters (parameterTypes : List Class) (isVarArgs : Bool) : ℕ :=
  if isVarArgs then parameterTypes.length - 1 else parameterTypes.length

/-- The conversion of an argument for a parameter type. -/
def coerceFor (p : Class × JRef V) : Except Throwable (JRef V) :=
  coerceJavaScriptToJava w c (some p.1) p.2

/-- The argument list for a parameter list, with null for missing arguments. -/
def coerceArguments (parameterTypes : List Class) (isVarArgs : Bool) (args : List (JRef V)) :
    Except Throwable (List (JRef V)) :=
  let n := fixedParameters parameterTypes isVarArgs
  (pass (coerceFor w c) (parameterTypes.take n |>.zip (args ++ List.replicate n none))).bind
    fun coerced =>
    if isVarArgs then
      match parameterTypes[n]? with
      | none => .error ⟨"java.lang.ArrayIndexOutOfBoundsException", ""⟩
      | some type =>
        let varargType := w.getComponentType type
        (pass (coerceJavaScriptToJava w c (some varargType)) (args.drop n)).bind fun varargs =>
        (w.toArray varargType varargs).map fun array => coerced ++ [some array]
    else .ok coerced

/-- The loops of `callMethod` build that list. -/
theorem coerceParameters_eq (best : Method) (args : List (JRef V)) :
    coerceParameters w c best args =
      coerceArguments w c best.parameterTypes (w.isVarArgs best) args := rfl

/-- The argument list of `newInstance` (JavaObject.java, lines 332–350). -/
def coerceConstructorParameters (best : Constructor) (args : List (JRef V)) :
    Except Throwable (List (JRef V)) :=
  coerceArguments w c best.parameterTypes best.isVarArgs args

/-! ## What `toArray` does -/

/-- `char.class`. -/
def Class.char : Class := named "char"

/-- `clazz.isPrimitive()`, for the types of values. -/
def isPrimitive (clazz : Class) : Bool :=
  clazz == Class.boolean || clazz == Class.char ||
    [NumberType.byte, .short, .int, .long, .float, .double].any fun t => clazz == t.primitive

omit [DecidableEq V] in
/-- The values can be put into an array of that component type by `toArray`: its
    type parameter is no primitive type, and each value is null or an instance. -/
def Storable (componentType : Class) (values : List (JRef V)) : Prop :=
  isPrimitive componentType = false ∧ ∀ v ∈ values, v.all (w.isInstance componentType) = true

/-- The array holds the values, under that component type. -/
structure ArrayOf (componentType : Class) (values : List (JRef V)) (array : V) : Prop where
  isArray : w.isArray (w.getClass array) = true
  componentType_eq : w.getComponentType (w.getClass array) = componentType
  elements : w.elements array = some values

/-- What is documented of `ArrayList.toArray(T[])` and `Array.newInstance` for these
    values: the cast to `T[]` fails for a primitive component type, the copy for a
    value that is no instance, else the array holds the values. -/
structure ToArrayLaw (componentType : Class) (values : List (JRef V)) : Prop where
  ok_iff : (∃ array, w.toArray componentType values = .ok array) ↔ Storable w componentType values
  holds : ∀ array, w.toArray componentType values = .ok array → ArrayOf w componentType values array

/-! ## Specification -/

/-- The list has one value for each parameter: the conversion of the argument at its
    position, null where there is none, and for a variadic parameter an array of the
    conversions of the remaining arguments. -/
structure Placed (parameterTypes : List Class) (isVarArgs : Bool) (args coerced : List (JRef V)) :
    Prop where
  length_eq : coerced.length = parameterTypes.length
  fixed : ∀ i type, i < fixedParameters parameterTypes isVarArgs → parameterTypes[i]? = some type →
    ∃ v, coerced[i]? = some v ∧
      match args[i]? with
      | some arg => coerceJavaScriptToJava w c (some type) arg = .ok v
      | none => v = none
  variadic : isVarArgs = true → ∀ type, parameterTypes.getLast? = some type →
    ∃ array values, coerced.getLast? = some (some array) ∧
      ArrayOf w (w.getComponentType type) values array ∧
      List.Forall₂
        (fun arg v => coerceJavaScriptToJava w c (some (w.getComponentType type)) arg = .ok v)
        (args.drop (fixedParameters parameterTypes isVarArgs)) values

/-- The exception is that of the conversion of an argument. -/
def CoercionThrows (parameterTypes : List Class) (isVarArgs : Bool) (args : List (JRef V))
    (e : Throwable) : Prop :=
  (∃ (i : ℕ) (type : Class) (arg : JRef V), i < fixedParameters parameterTypes isVarArgs ∧
    parameterTypes[i]? = some type ∧ args[i]? = some arg ∧
    coerceJavaScriptToJava w c (some type) arg = .error e) ∨
  (isVarArgs = true ∧ ∃ type, parameterTypes.getLast? = some type ∧
    ∃ arg ∈ args.drop (fixedParameters parameterTypes isVarArgs),
      coerceJavaScriptToJava w c (some (w.getComponentType type)) arg = .error e)

/-- The argument list is built as it should be, or the conversion of an argument has
    thrown. -/
def PlacesArguments (parameterTypes : List Class) (isVarArgs : Bool) (args : List (JRef V))
    (built : Except Throwable (List (JRef V))) : Prop :=
  match built with
  | .ok coerced => Placed w c parameterTypes isVarArgs args coerced
  | .error e => CoercionThrows w c parameterTypes isVarArgs args e

/-- No conversion throws, and these are the conversions of the variadic arguments. -/
structure Converted (parameterTypes : List Class) (isVarArgs : Bool) (args : List (JRef V))
    (componentType : Class) (values : List (JRef V)) : Prop where
  isVarArgs_eq : isVarArgs = true
  componentType_eq : ∃ type, parameterTypes.getLast? = some type ∧
    w.getComponentType type = componentType
  fixed : ∀ (i : ℕ) (type : Class) (arg : JRef V),
    i < fixedParameters parameterTypes isVarArgs → parameterTypes[i]? = some type →
    args[i]? = some arg → ∃ v, coerceJavaScriptToJava w c (some type) arg = .ok v
  values_eq : List.Forall₂
    (fun arg v => coerceJavaScriptToJava w c (some componentType) arg = .ok v)
    (args.drop (fixedParameters parameterTypes isVarArgs)) values

/-- The variadic arguments can be stored, once they are converted. -/
def VariadicStorable (parameterTypes : List Class) (isVarArgs : Bool) (args : List (JRef V)) :
    Prop :=
  ∀ componentType values, Converted w c parameterTypes isVarArgs args componentType values →
    Storable w componentType values

/-! ## The fixed part -/

omit [DecidableEq V] in
/-- The argument at a position, null behind the last one. -/
theorem getElem?_zip_replicate {parameterTypes : List Class} {args : List (JRef V)} {n i : ℕ}
    (hi : i < n) {type : Class} (htype : parameterTypes[i]? = some type) :
    (parameterTypes.take n |>.zip (args ++ List.replicate n none))[i]? =
      some (type, args[i]?.getD none) := by
  have htake : (parameterTypes.take n)[i]? = some type := by
    rw [List.getElem?_take, if_pos hi, htype]
  have hargs : (args ++ List.replicate n (none : JRef V))[i]? = some (args[i]?.getD none) := by
    rcases Nat.lt_or_ge i args.length with hlt | hge
    · rw [List.getElem?_append_left hlt, List.getElem?_eq_getElem hlt]
      rfl
    · rw [List.getElem?_append_right hge, List.getElem?_replicate, if_pos (by omega),
        List.getElem?_eq_none hge]
      rfl
  exact (List.getElem?_zip_eq_some (z := (type, args[i]?.getD none))).mpr ⟨htake, hargs⟩

omit [DecidableEq V] in
/-- The members of the zipped list are the arguments at their positions. -/
theorem exists_of_mem_zip_replicate {parameterTypes : List Class} {args : List (JRef V)} {n : ℕ}
    {p : Class × JRef V}
    (h : p ∈ (parameterTypes.take n |>.zip (args ++ List.replicate n none))) :
    ∃ i, i < n ∧ parameterTypes[i]? = some p.1 ∧ p.2 = args[i]?.getD none := by
  obtain ⟨i, hi⟩ := List.mem_iff_getElem?.mp h
  obtain ⟨htake, -⟩ := List.getElem?_zip_eq_some.mp hi
  rw [List.getElem?_take] at htake
  split_ifs at htake with hn
  refine ⟨i, hn, htake, ?_⟩
  rw [getElem?_zip_replicate hn htake] at hi
  exact (congrArg Prod.snd (Option.some.inj hi)).symm

/-! ## What is built -/

section Built

variable {parameterTypes : List Class} {isVarArgs : Bool} {args : List (JRef V)}

/-- The type of the variadic parameter is the last one. -/
theorem getLast?_eq_of_variadic (h : isVarArgs = true) :
    parameterTypes.getLast? = parameterTypes[fixedParameters parameterTypes isVarArgs]? := by
  unfold fixedParameters
  rw [if_pos h, List.getLast?_eq_getElem?]

/-- The steps of a building that comes to its end. -/
theorem coerceArguments_eq_ok {coerced : List (JRef V)} :
    coerceArguments w c parameterTypes isVarArgs args = .ok coerced ↔
      ∃ front, pass (coerceFor w c)
          (parameterTypes.take (fixedParameters parameterTypes isVarArgs) |>.zip
            (args ++ List.replicate (fixedParameters parameterTypes isVarArgs) none)) = .ok front ∧
        if isVarArgs then
          ∃ type values array, parameterTypes.getLast? = some type ∧
            pass (coerceJavaScriptToJava w c (some (w.getComponentType type)))
              (args.drop (fixedParameters parameterTypes isVarArgs)) = .ok values ∧
            w.toArray (w.getComponentType type) values = .ok array ∧
            coerced = front ++ [some array]
        else coerced = front := by
  unfold coerceArguments
  rw [bind_eq_ok]
  apply exists_congr
  intro front
  apply and_congr_right
  intro _
  cases hv : isVarArgs with
  | false => simp [eq_comm]
  | true =>
    have hlast : parameterTypes.getLast? = parameterTypes[fixedParameters parameterTypes true]? :=
      getLast?_eq_of_variadic rfl
    simp only [if_true, ← hlast]
    cases parameterTypes.getLast? with
    | none => simp
    | some type =>
      simp only [bind_eq_ok, map_eq_ok, Option.some.injEq]
      constructor
      · rintro ⟨values, hvalues, array, harray, rfl⟩
        exact ⟨type, values, array, rfl, hvalues, harray, rfl⟩
      · rintro ⟨_, values, array, rfl, hvalues, harray, rfl⟩
        exact ⟨values, hvalues, array, harray, rfl⟩

/-- The conversions of the fixed part. -/
theorem front_spec {n : ℕ} {front : List (JRef V)} (hn : n ≤ parameterTypes.length)
    (h : pass (coerceFor w c)
      (parameterTypes.take n |>.zip (args ++ List.replicate n none)) = .ok front) :
    front.length = n ∧ ∀ i type, i < n → parameterTypes[i]? = some type →
      ∃ v, front[i]? = some v ∧
        coerceJavaScriptToJava w c (some type) (args[i]?.getD none) = .ok v := by
  obtain ⟨hlen, hget⟩ := pass_getElem? h
  constructor
  · rw [hlen]
    simp [List.length_zip, List.length_take]
    omega
  · intro i type hi htype
    exact hget i _ (getElem?_zip_replicate hi htype)

theorem fixedParameters_le : fixedParameters parameterTypes isVarArgs ≤ parameterTypes.length := by
  unfold fixedParameters
  split_ifs <;> omega

/-- A list that has been built is placed. -/
theorem placed_of_ok (hnonempty : isVarArgs = true → parameterTypes ≠ [])
    (hlaw : ∀ componentType values,
      Converted w c parameterTypes isVarArgs args componentType values →
        ToArrayLaw w componentType values)
    {coerced : List (JRef V)}
    (h : coerceArguments w c parameterTypes isVarArgs args = .ok coerced) :
    Placed w c parameterTypes isVarArgs args coerced := by
  obtain ⟨front, hfront, hrest⟩ := (coerceArguments_eq_ok w c).mp h
  obtain ⟨hlen, hget⟩ := front_spec w c fixedParameters_le hfront
  -- a position of the front, also where the array follows
  have hfixed : ∀ i type, i < fixedParameters parameterTypes isVarArgs →
      parameterTypes[i]? = some type → ∃ v, front[i]? = some v ∧
        match args[i]? with
        | some arg => coerceJavaScriptToJava w c (some type) arg = .ok v
        | none => v = none := by
    intro i type hi htype
    obtain ⟨v, hv, hcoerce⟩ := hget i type hi htype
    refine ⟨v, hv, ?_⟩
    cases ha : args[i]? with
    | some arg =>
      rw [ha] at hcoerce
      exact hcoerce
    | none =>
      rw [ha, Option.getD_none, coerceJavaScriptToJava_null] at hcoerce
      exact (Except.ok.inj hcoerce).symm
  cases hv : isVarArgs with
  | false =>
    subst hv
    simp only [Bool.false_eq_true, if_false] at hrest
    subst hrest
    exact ⟨hlen, hfixed, fun h => by cases h⟩
  | true =>
    subst hv
    simp only [if_true] at hrest
    obtain ⟨type, values, array, htype, hvalues, harray, rfl⟩ := hrest
    have hpos : 0 < parameterTypes.length := List.length_pos_of_ne_nil (hnonempty rfl)
    have hlt : fixedParameters parameterTypes true = parameterTypes.length - 1 := rfl
    refine ⟨?_, ?_, ?_⟩
    · rw [List.length_append, hlen, hlt]
      show _ - 1 + 1 = _
      omega
    · intro i t hi ht
      obtain ⟨v, hv, hcoerce⟩ := hfixed i t hi ht
      exact ⟨v, by rw [List.getElem?_append_left (by omega), hv], hcoerce⟩
    · intro _ t ht
      rw [htype] at ht
      obtain rfl := Option.some.inj ht
      have hconverted : Converted w c parameterTypes true args (w.getComponentType type) values :=
        { isVarArgs_eq := rfl
          componentType_eq := ⟨type, htype, rfl⟩
          fixed := by
            intro i t arg hi ht ha
            obtain ⟨v, -, hcoerce⟩ := hfixed i t hi ht
            rw [ha] at hcoerce
            exact ⟨v, hcoerce⟩
          values_eq := pass_eq_ok.mp hvalues }
      exact ⟨array, values, List.getLast?_concat, (hlaw _ _ hconverted).holds array harray,
        pass_eq_ok.mp hvalues⟩

/-- A building that fails has come to a conversion that throws or to values that
    cannot be stored. -/
theorem of_coerceArguments_eq_error (hnonempty : isVarArgs = true → parameterTypes ≠ [])
    (hlaw : ∀ componentType values,
      Converted w c parameterTypes isVarArgs args componentType values →
        ToArrayLaw w componentType values)
    {e : Throwable} (h : coerceArguments w c parameterTypes isVarArgs args = .error e) :
    CoercionThrows w c parameterTypes isVarArgs args e ∨
      ∃ componentType values, Converted w c parameterTypes isVarArgs args componentType values ∧
        ¬Storable w componentType values := by
  unfold coerceArguments at h
  dsimp only at h
  cases hfront : pass (coerceFor w c)
      (parameterTypes.take (fixedParameters parameterTypes isVarArgs) |>.zip
        (args ++ List.replicate (fixedParameters parameterTypes isVarArgs) none)) with
  | error e' =>
    rw [hfront] at h
    obtain rfl : e' = e := by simpa [Except.bind] using h
    obtain ⟨p, hp, hthrows⟩ := exists_of_pass_eq_error hfront
    obtain ⟨i, hi, htype, harg⟩ := exists_of_mem_zip_replicate hp
    have hthrows : coerceJavaScriptToJava w c (some p.1) p.2 = .error e' := hthrows
    cases ha : args[i]? with
    | none =>
      rw [harg, ha, Option.getD_none, coerceJavaScriptToJava_null] at hthrows
      cases hthrows
    | some arg =>
      rw [harg, ha, Option.getD_some] at hthrows
      exact Or.inl (Or.inl ⟨i, p.1, arg, hi, htype, ha, hthrows⟩)
  | ok front =>
    obtain ⟨-, hget⟩ := front_spec w c fixedParameters_le hfront
    rw [hfront, ok_bind] at h
    cases hv : isVarArgs with
    | false => simp [hv] at h
    | true =>
      subst hv
      obtain ⟨type, htype⟩ : ∃ type, parameterTypes.getLast? = some type := by
        rw [← Option.isSome_iff_exists, List.getLast?_isSome]
        exact hnonempty rfl
      have hlast : parameterTypes.getLast? = parameterTypes[fixedParameters parameterTypes true]? :=
        getLast?_eq_of_variadic rfl
      rw [← hlast, htype] at h
      simp only [if_true] at h
      cases hvalues : pass (coerceJavaScriptToJava w c (some (w.getComponentType type)))
          (args.drop (fixedParameters parameterTypes true)) with
      | error e' =>
        rw [hvalues] at h
        obtain rfl : e' = e := by simpa [Except.bind] using h
        obtain ⟨arg, harg, hthrows⟩ := exists_of_pass_eq_error hvalues
        exact Or.inl (Or.inr ⟨rfl, type, htype, arg, harg, hthrows⟩)
      | ok values =>
        rw [hvalues, ok_bind] at h
        have hconverted : Converted w c parameterTypes true args (w.getComponentType type) values :=
          { isVarArgs_eq := rfl
            componentType_eq := ⟨type, htype, rfl⟩
            fixed := by
              intro i t arg hi ht ha
              obtain ⟨v, -, hcoerce⟩ := hget i t hi ht
              rw [ha, Option.getD_some] at hcoerce
              exact ⟨v, hcoerce⟩
            values_eq := pass_eq_ok.mp hvalues }
        refine Or.inr ⟨_, values, hconverted, fun hstorable => ?_⟩
        obtain ⟨array, harray⟩ := (hlaw _ _ hconverted).ok_iff.mpr hstorable
        rw [harray] at h
        cases h

/-- Where a conversion throws, not all succeed. -/
theorem CoercionThrows.not_converted {e : Throwable} {componentType : Class}
    {values : List (JRef V)} (h : CoercionThrows w c parameterTypes isVarArgs args e)
    (hconverted : Converted w c parameterTypes isVarArgs args componentType values) : False := by
  rcases h with ⟨i, type, arg, hi, htype, ha, hthrows⟩ | ⟨-, type, htype, arg, harg, hthrows⟩
  · obtain ⟨v, hv⟩ := hconverted.fixed i type arg hi htype ha
    rw [hthrows] at hv
    cases hv
  · obtain ⟨type', htype', hcomponent⟩ := hconverted.componentType_eq
    rw [htype] at htype'
    obtain rfl := Option.some.inj htype'
    rw [hcomponent] at hthrows
    have hpass := pass_eq_ok.mpr hconverted.values_eq
    obtain ⟨i, hi⟩ := List.mem_iff_getElem?.mp harg
    obtain ⟨v, -, hv⟩ := (pass_getElem? hpass).2 i arg hi
    rw [hthrows] at hv
    cases hv

/-- **The arguments of one parameter list** are placed exactly where the variadic
    ones can be stored. -/
theorem placesArguments_iff (hnonempty : isVarArgs = true → parameterTypes ≠ [])
    (hlaw : ∀ componentType values,
      Converted w c parameterTypes isVarArgs args componentType values →
        ToArrayLaw w componentType values) :
    PlacesArguments w c parameterTypes isVarArgs args
        (coerceArguments w c parameterTypes isVarArgs args) ↔
      VariadicStorable w c parameterTypes isVarArgs args := by
  constructor
  · intro h componentType values hconverted
    cases hbuilt : coerceArguments w c parameterTypes isVarArgs args with
    | error e =>
      rw [hbuilt] at h
      exact (CoercionThrows.not_converted w c h hconverted).elim
    | ok coerced =>
      obtain ⟨front, -, hrest⟩ := (coerceArguments_eq_ok w c).mp hbuilt
      rw [if_pos hconverted.isVarArgs_eq] at hrest
      obtain ⟨type, values', array, htype, hvalues', harray, -⟩ := hrest
      obtain ⟨type', htype', hcomponent⟩ := hconverted.componentType_eq
      rw [htype] at htype'
      obtain rfl := Option.some.inj htype'
      rw [hcomponent] at hvalues' harray
      rw [pass_eq_ok.mpr hconverted.values_eq] at hvalues'
      obtain rfl := Except.ok.inj hvalues'
      exact (hlaw _ _ hconverted).ok_iff.mp ⟨array, harray⟩
  · intro h
    unfold PlacesArguments
    cases hbuilt : coerceArguments w c parameterTypes isVarArgs args with
    | ok coerced => exact placed_of_ok w c hnonempty hlaw hbuilt
    | error e =>
      rcases of_coerceArguments_eq_error w c hnonempty hlaw hbuilt with hthrows | hnot
      · exact hthrows
      · obtain ⟨componentType, values, hconverted, hnot⟩ := hnot
        exact absurd (h componentType values hconverted) hnot

end Built

section Example

/-- `int[]`, `Integer[]` and `String[]`. -/
def intArray : Class := named "[I"

def integerArray : Class := named "[Ljava.lang.Integer;"

def stringArray : Class := named "[Ljava.lang.String;"

/-- `void v(Integer n, … rest)` with that array type. -/
def variadicMethod (arrayType : Class) : Method where
  declaringClass := implementation
  name := jstr "v"
  parameterTypes := [NumberType.int.boxed, arrayType]
  returnType := Class.void

/-- The component types of the three array classes. -/
def componentOf (clazz : Class) : Class :=
  if clazz = intArray then NumberType.int.primitive
  else if clazz = integerArray then NumberType.int.boxed
  else if clazz = stringArray then Class.String else clazz

/-- The world of the interfaces, where the method `v` is variadic and the arrays that
    exist are empty ones. -/
def variadics : World Sample :=
  { interfaces with
    isVarArgs := fun m => m.name == jstr "v"
    isArray := fun clazz => clazz == intArray || clazz == integerArray || clazz == stringArray
    getComponentType := componentOf
    dimensions := fun clazz =>
      if clazz = intArray ∨ clazz = integerArray ∨ clazz = stringArray then 1 else 0
    dimensions_of_isArray := by
      have h1 : ¬(componentOf intArray = intArray ∨ componentOf intArray = integerArray ∨
        componentOf intArray = stringArray) := by decide
      have h2 : ¬(componentOf integerArray = intArray ∨ componentOf integerArray = integerArray ∨
        componentOf integerArray = stringArray) := by decide
      have h3 : ¬(componentOf stringArray = intArray ∨ componentOf stringArray = integerArray ∨
        componentOf stringArray = stringArray) := by decide
      intro clazz h
      have h : clazz = intArray ∨ clazz = integerArray ∨ clazz = stringArray := by
        simpa [or_assoc] using h
      rcases h with rfl | rfl | rfl
      · simp only [if_neg h1, true_or, if_true]
      · simp only [if_neg h2, true_or, or_true, if_true]
      · simp only [if_neg h3, or_true, if_true]
    elements := fun
      | .object clazz _ => if clazz = integerArray then some [] else none
      | _ => none
    toArray := fun t values =>
      if isPrimitive t then .error classCastException
      else if values.all fun v => v.all fun o => interfaces.isAssignableFrom t o.getClass then
        .ok (.object integerArray 0)
      else .error ⟨"java.lang.ArrayStoreException", ""⟩ }

end Example

end JSEngine.Coerce
