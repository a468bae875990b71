import JSEngine.Common.Pass
import JSEngine.Scalars.Defaults
import JSEngine.Scalars.Strings

/-!
# Scalars through script

A scalar passes the coercions of a new context, the native marshaller, a
JavaScript function that returns its argument, and the same way back with the
type it was declared with. QuickJS makes a `long` beyond 32 bits a double,
Duktape gets it as a decimal string; every number of Duktape arrives in Java as a
`Double`.

* `coerced_constant`, `coerced_of_unregistered`: what the table makes of a scalar;
* `narrow_toDouble_long`: what is left of a `long` after the double;
* `scalar_kept_iff`: the scalars that come back equal.
-/

namespace JSEngine.Scalars

open JSEngine.Java JSEngine.Members JSEngine.Common JSEngine.Coerce

variable {E : EnumType}

/-! ## The native marshallers -/

/-- A JavaScript value that a scalar becomes; numbers are 32-bit integers or doubles. -/
inductive JSValue (E : EnumType)
  | null
  | bool (b : Bool)
  | int32 (n : BitVec 32)
  | float64 (x : Floating 53)
  | string (s : ScriptString)
  /-- the proxy of a Java object -/
  | object (o : Value E)

/-- `JS_NewInt64` (quickjs.h:515–524). -/
def JS_NewInt64 (val : BitVec 64) : JSValue E :=
  if (val.setWidth 32).signExtend 64 = val then .int32 (val.setWidth 32)
  else .float64 (toDouble val.toInt)

/-- `JS_NewFloat64` (quickjs.h:541–559). -/
def JS_NewFloat64 (d : Floating 53) : JSValue E :=
  if (BitVec.ofInt 32 d.value).toInt = d.value then .int32 (BitVec.ofInt 32 d.value) else .float64 d

/-- `new JavaObject(context, o)`, unless the object is made for script already. -/
def wrap (o : Value E) : Value E :=
  match o with
  | .javaObject o => .javaObject o
  | .function target methodsOf => .function target methodsOf
  | .functionOf thiz target methodsOf => .functionOf thiz target methodsOf
  | o => .javaObject o

/-- `QuickJSContext::toObject(jobject)` (QuickJSContext.cpp:290–360) and
    `DuktapeContext::pushObject` (DuktapeContext.cpp:634–726). -/
def send (engine : Engine) (value : JRef (Value E)) : JSValue E :=
  match value, engine with
  | none, _ => .null
  | some (.boolean b), _ => .bool b
  | some (.int n), .quickJS => .int32 n
  | some (.int n), .duktape => .float64 (toDouble n.toInt)
  | some (.long n), .quickJS => JS_NewInt64 n
  | some (.double x), .quickJS => JS_NewFloat64 x
  | some (.double x), .duktape => .float64 x
  | some (.string s), engine => .string (toScript engine s)
  | some o, _ => .object (wrap o)

/-- `QuickJSContext::toObject(JSValue)` (QuickJSContext.cpp:375–440) and
    `DuktapeContext::popObject` (DuktapeContext.cpp:268–376); no result where the
    JNI gives none. -/
def receive (engine : Engine) (value : JSValue E) : Option (JRef (Value E)) :=
  match value, engine with
  | .null, _ => some none
  | .bool b, _ => some (some (.boolean b))
  | .int32 n, .quickJS => some (some (.int n))
  | .int32 n, .duktape => some (some (.double (toDouble n.toInt)))
  | .float64 x, _ => some (some (.double x))
  | .string s, _ => (toJava s).map fun s => some (.string s)
  | .object o, _ => some (some o)

/-- A new context of the engine. -/
def context (r : Unreached E) (engine : Engine) : JSEngineContext (Value E) :=
  defaults r (engine == .quickJS)

/-- From Java through script and back, with the type that Java wants. -/
def roundTrip (r : Unreached E) (engine : Engine) (type : Class) (v : Value E) :
    Option (Except Throwable (JRef (Value E))) :=
  match coerceJavaToJavaScript (world E) (context r engine) (some v) with
  | .error e => some (.error e)
  | .ok o =>
    (receive engine (send engine o)).map fun o =>
      coerceJavaScriptToJava (world E) (context r engine) (some type) o

/-- A scalar of Java. -/
inductive Scalar (E : EnumType)
  | boolean (b : Bool)
  | byte (n : BitVec 8)
  | short (n : BitVec 16)
  | int (n : BitVec 32)
  | long (n : BitVec 64)
  | constant (i : Fin E.constants.length)

/-- The scalar as an object. -/
def Scalar.box : Scalar E → Value E
  | .boolean b => .boolean b
  | .byte n => .byte n
  | .short n => .short n
  | .int n => .int n
  | .long n => .long n
  | .constant i => .constant i

/-- The types that the scalar can be declared with. -/
def Scalar.types : Scalar E → List Class
  | .boolean _ => [Class.boolean, Class.Boolean]
  | .byte _ => [NumberType.byte.primitive, NumberType.byte.boxed]
  | .short _ => [NumberType.short.primitive, NumberType.short.boxed]
  | .int _ => [NumberType.int.primitive, NumberType.int.boxed]
  | .long _ => [NumberType.long.primitive, NumberType.long.boxed]
  | .constant _ => [E.clazz]

/-- The constant is told by its text: `toString()` gives null, or what the engine
    hands back for it is the name. -/
def Recognised (engine : Engine) (c : EnumConstant) : Prop :=
  match c.toString with
  | .throws _ => False
  | .returns none => True
  | .returns (some s) =>
    match engine with
    | .quickJS => PairFree s ∧ s.map seen = c.name
    | .duktape => s = c.name

/-- The scalars that survive. -/
def Scalar.Survives (engine : Engine) : Scalar E → Prop
  | .long n => engine = .duktape ∨ Representable 53 n.toInt ∨ n.toInt = 2 ^ 63 - 1
  | .constant i => Recognised engine (E.constants.get i)
  | _ => True

/-! ## To JavaScript -/

variable (r : Unreached E) (engine : Engine)

theorem keys_javaToJavaScript :
    (context r engine).JavaToJavascriptCoercions.keys =
      (registered (engine == .quickJS)).map fun a => some a.toClass := by
  unfold HashMap.keys context
  rw [defaultJavaToJavaScript_nodes, fst_map_node, defaultJavaToJavaScript_fst]

/-- A class of the library that no key of the table is a supertype of. -/
theorem unregistered_of_library {a : LibraryClass}
    (h : ∀ key ∈ registered (engine == .quickJS), key ≠ a ∧ key.assignable a = false) :
    Unregistered (world E) (context r engine).JavaToJavascriptCoercions a.toClass := by
  intro key hk
  rw [keys_javaToJavaScript, List.mem_map] at hk
  obtain ⟨key', hmem, hkey⟩ := hk
  obtain rfl := Option.some.inj hkey
  obtain ⟨hne, hassignable⟩ := h key' hmem
  refine ⟨LibraryClass.toClass_inj.not.mpr hne, ?_⟩
  show isAssignableFrom E key'.toClass a.toClass = false
  rw [isAssignableFrom_library, hassignable]

/-- A value of a class without coercion stays as it is. -/
theorem coerced_of_unregistered {v : Value E} {a : LibraryClass} (hv : v.getObject = none)
    (ha : v.getClass = a.toClass)
    (h : ∀ key ∈ registered (engine == .quickJS), key ≠ a ∧ key.assignable a = false) :
    coerceJavaToJavaScript (world E) (context r engine) (some v) = .ok (some v) := by
  have hnull : none ∉ (context r engine).JavaToJavascriptCoercions.keys := by
    rw [keys_javaToJavaScript]
    simp
  show coerceUnwrapped _ _ v.getClass (unwrap (world E) v) = _
  unfold coerceUnwrapped
  rw [unwrap_of_unwrapped (world E) (Or.inl hv), ha,
    javaToJavaScriptEntry_of_unregistered (world E) (unregistered_of_library r engine h),
    if_neg hnull]
  cases a with
  | primitive t => rfl
  | boxed t => rfl
  | _ => rfl

/-- A value of a class with coercion becomes what the coercion makes of it. -/
theorem coerced_of_mem {v u : Value E} {a : LibraryClass} {coercion : Coercion (Value E)}
    (hv : v.getObject = none) (ha : v.getClass = a.toClass)
    (hmem : (a, coercion) ∈ defaultJavaToJavaScript r (engine == .quickJS))
    (hret : coercion a.toClass (some v) = .ok (some u)) :
    coerceJavaToJavaScript (world E) (context r engine) (some v) = .ok (some u) := by
  have hget : (context r engine).JavaToJavascriptCoercions.get a.toClass = some coercion :=
    get_of_node (defaultJavaToJavaScript_nodes r _) (defaultJavaToJavaScript_nodup r _) hmem
  show coerceUnwrapped _ _ v.getClass (unwrap (world E) v) = _
  unfold coerceUnwrapped javaToJavaScriptEntry
  rw [unwrap_of_unwrapped (world E) (Or.inl hv), ha, hget]
  dsimp only
  rw [hret]

/-! ## Numbers -/

theorem saturate_of_bounds {w : ℕ} {z : ℤ} (h1 : -2 ^ (w - 1) ≤ z) (h2 : z < 2 ^ (w - 1)) :
    saturate w z = z := by
  unfold saturate
  omega

/-- An integer in range is converted to itself, from either kind of number. -/
theorem toInt_toIntegral {w : ℕ} (hw : 0 < w) {z : ℤ} (b : Bool) (h1 : -2 ^ (w - 1) ≤ z)
    (h2 : z < 2 ^ (w - 1)) : (toIntegral w (z, b)).toInt = z := by
  have hz : (if b then saturate w z else z) = z := by
    rw [saturate_of_bounds h1 h2, ite_self]
  show (BitVec.ofInt w (if b then saturate w z else z)).toInt = z
  rw [hz, BitVec.toInt_ofInt_eq_self hw h1 h2]

theorem convertNumber_byte (n : BitVec 8) (b : Bool) :
    convertNumber (n.toInt, b) .byte = Value.byte (E := E) n := by
  have h1 := n.le_toInt
  have h2 := n.toInt_lt
  unfold convertNumber
  rw [toInt_toIntegral (by decide) b (by omega) (by omega), BitVec.ofInt_toInt]

theorem convertNumber_short (n : BitVec 16) (b : Bool) :
    convertNumber (n.toInt, b) .short = Value.short (E := E) n := by
  have h1 := n.le_toInt
  have h2 := n.toInt_lt
  unfold convertNumber
  rw [toInt_toIntegral (by decide) b (by omega) (by omega), BitVec.ofInt_toInt]

theorem convertNumber_int (n : BitVec 32) (b : Bool) :
    convertNumber (n.toInt, b) .int = Value.int (E := E) n := by
  show Value.int (toIntegral 32 (n.toInt, b)) = _
  rw [BitVec.eq_of_toInt_eq (toInt_toIntegral (by decide) b n.le_toInt n.toInt_lt)]

theorem convertNumber_long (n : BitVec 64) (b : Bool) :
    convertNumber (n.toInt, b) .long = Value.long (E := E) n := by
  show Value.long (toIntegral 64 (n.toInt, b)) = _
  rw [BitVec.eq_of_toInt_eq (toInt_toIntegral (by decide) b n.le_toInt n.toInt_lt)]

/-- An `int` is a double. -/
theorem toDouble_value {z : ℤ} (h : z.natAbs < 2 ^ 53) : (toDouble z).value = z :=
  (roundBits_eq_self_iff (by decide)).mpr (representable_of_lt h)

/-- `intValue()` of what an `int` becomes. -/
theorem toInt_ofInt_int {z : ℤ} (h1 : -2 ^ 31 ≤ z) (h2 : z < 2 ^ 31) :
    (BitVec.ofInt 32 z).toInt = z :=
  BitVec.toInt_ofInt_eq_self (by decide) h1 h2

/-- **What is left of a `long` after the double**: it is the `long` for 53 significant
    bits, and for the greatest `long`, where the conversion back saturates. -/
theorem narrow_toDouble_long (n : BitVec 64) :
    numberValue .long (Value.double (E := E) (toDouble n.toInt)) = .long n ↔
      Representable 53 n.toInt ∨ n.toInt = 2 ^ 63 - 1 := by
  have h1 : -2 ^ 63 ≤ n.toInt := n.le_toInt
  have h2 : n.toInt < 2 ^ 63 := n.toInt_lt
  have hmin : Representable 53 (-2 ^ 63) := ⟨-1, 63, by norm_num, by norm_num⟩
  have hvalue : (toDouble n.toInt).value = roundBits 53 n.toInt := rfl
  have hlong : numberValue .long (Value.double (E := E) (toDouble n.toInt)) = .long n ↔
      saturate 64 (roundBits 53 n.toInt) = n.toInt := by
    have hs1 : -2 ^ (64 - 1) ≤ saturate 64 (roundBits 53 n.toInt) := by
      unfold saturate
      omega
    have hs2 : saturate 64 (roundBits 53 n.toInt) < 2 ^ (64 - 1) := by
      unfold saturate
      omega
    show Value.long (BitVec.ofInt 64 (saturate 64 (toDouble n.toInt).value)) = .long n ↔ _
    rw [Value.long.injEq, ← BitVec.toInt_inj, hvalue,
      BitVec.toInt_ofInt_eq_self (by decide) hs1 hs2]
  rw [hlong, ← roundBits_eq_self_iff (by decide)]
  constructor
  · intro h
    unfold saturate at h
    by_cases hlt : roundBits 53 n.toInt < -2 ^ 63
    · -- the least `long` is a double
      have hn : n.toInt = -2 ^ 63 := by omega
      have := (roundBits_eq_self_iff (by decide)).mpr hmin
      rw [← hn] at this
      exact Or.inl this
    · by_cases hgt : 2 ^ 63 - 1 < roundBits 53 n.toInt
      · exact Or.inr (by omega)
      · exact Or.inl (by omega)
  · rintro (h | h)
    · rw [h]
      exact saturate_of_bounds h1 h2
    · rw [h]
      decide

/-! ## Enum constants -/

theorem getClass_constant (i : Fin E.constants.length) :
    (Value.constant i).getClass ∈ E.classes := by
  show (E.constants.get i).body.getD E.clazz ∈ _
  unfold EnumType.classes
  cases hb : (E.constants.get i).body with
  | none => exact List.mem_cons_self
  | some b =>
    exact List.mem_cons_of_mem _ (List.mem_filterMap.mpr ⟨_, List.get_mem _ _, hb⟩)

/-- The coercion of `Enum.class` converts a constant, with or without a body. -/
theorem javaToJavaScriptEntry_constant {clazz : Class} (hc : clazz ∈ E.classes)
    (o : JRef (Value E)) :
    javaToJavaScriptEntry (world E) (context r engine).JavaToJavascriptCoercions clazz o =
      enumText clazz o := by
  have hget : (context r engine).JavaToJavascriptCoercions.get clazz = none := by
    apply get_eq_none
    rw [keys_javaToJavaScript]
    intro hmem
    obtain ⟨key, -, hkey⟩ := List.mem_map.mp hmem
    exact EnumType.not_library hc key (Option.some.inj hkey)
  have hbefore : ∀ k ∈ ((numberJavaToJavaScript E (engine == .quickJS)).map node).map Prod.fst,
      ∃ key, k = some key ∧ (world E).isAssignableFrom key clazz = false := by
    have hkeys : (numberJavaToJavaScript E (engine == .quickJS)).map Prod.fst =
        (registered (engine == .quickJS)).takeWhile (· != .enum) := by
      cases engine <;> rfl
    have hnot : ∀ useQuickJS, ∀ key ∈ (registered useQuickJS).takeWhile (· != .enum),
        (key == .object || key == .enum) = false := by decide
    rw [fst_map_node, hkeys]
    intro k hk
    obtain ⟨key, hkey, rfl⟩ := List.mem_map.mp hk
    refine ⟨_, rfl, ?_⟩
    show isAssignableFrom E key.toClass clazz = false
    rw [isAssignableFrom_program key hc, hnot _ key hkey, Bool.and_false]
  have henum : (world E).isAssignableFrom LibraryClass.enum.toClass clazz = true :=
    isAssignableFrom_program .enum hc
  have hnodes : (context r engine).JavaToJavascriptCoercions.nodes =
      (numberJavaToJavaScript E (engine == .quickJS)).map node ++
        node (.enum, enumText) :: [node (.byteBuffer, r.copyBuffer)] := by
    unfold context
    rw [defaultJavaToJavaScript_nodes]
    unfold defaultJavaToJavaScript
    rw [List.map_append]
    rfl
  unfold javaToJavaScriptEntry
  rw [hget, hnodes]
  exact checkEntries_first (world E) hbefore henum

theorem coerced_constant (i : Fin E.constants.length) :
    coerceJavaToJavaScript (world E) (context r engine) (some (.constant i)) =
      match (E.constants.get i).toString with
      | .returns none => .ok (some (.constant i))
      | .returns (some s) => .ok (some (.string s))
      | .throws e => .error e := by
  have hentry := javaToJavaScriptEntry_constant r engine (getClass_constant i) (some (.constant i))
  show coerceUnwrapped _ _ (Value.constant i).getClass (unwrap (world E) (.constant i)) = _
  unfold coerceUnwrapped
  rw [unwrap_of_unwrapped (world E) (Or.inl rfl), hentry]
  unfold enumText
  dsimp only
  cases (E.constants.get i).toString with
  | throws e => rfl
  | returns s => cases s <;> rfl

/-! ## To Java -/

theorem keys_javaScriptToJava :
    (context r engine).JavaScriptToJavaCoercions.keys =
      ((defaultJavaScriptToJava r).map Prod.fst).map fun a => some a.toClass := by
  unfold HashMap.keys context
  rw [defaultJavaScriptToJava_nodes, fst_map_node]

/-- A value of the class is an instance of the type already, or a box of it. -/
def fits (type a : LibraryClass) : Bool :=
  type.assignable a || (type == .boolean && LibraryClass.boxedBoolean.assignable a ||
    NumberType.all.any fun t => type == .primitive t && (LibraryClass.boxed t).assignable a)

theorem isInstance_library {v : Value E} {a : LibraryClass} (ha : v.getClass = a.toClass)
    (key : LibraryClass) : (world E).isInstance key.toClass v = key.assignable a := by
  show isAssignableFrom E key.toClass v.getClass = _
  rw [ha, isAssignableFrom_library]

theorem fits_eq {v : Value E} {a : LibraryClass} (ha : v.getClass = a.toClass)
    (type : LibraryClass) :
    ((world E).isInstance type.toClass v || unboxes (world E) type.toClass v) = fits type a := by
  have hinstance := isInstance_library ha
  show (_ || (type.toClass == LibraryClass.boolean.toClass &&
    (world E).isInstance LibraryClass.boxedBoolean.toClass v || NumberType.all.any fun t =>
      type.toClass == (LibraryClass.primitive t).toClass &&
        (world E).isInstance (LibraryClass.boxed t).toClass v)) = _
  unfold fits
  simp only [hinstance, LibraryClass.toClass_beq]

/-- A value that fits stays as it is. -/
theorem converted_of_fits {v : Value E} {a type : LibraryClass} (hv : v.getObject = none)
    (ha : v.getClass = a.toClass) (h : fits type a = true) :
    coerceJavaScriptToJava (world E) (context r engine) (some type.toClass) (some v) =
      .ok (some v) := by
  apply coerceJavaScriptToJava_of_instance (world E) _ (unwrap_of_unwrapped (world E) (Or.inl hv))
  rw [← fits_eq ha, Bool.or_eq_true] at h
  exact h

/-- A value that does not fit, and is no `Double`, is converted by the coercion of
    the type. -/
theorem converted_of_mem {v ret : Value E} {a type : LibraryClass} {coercion : Coercion (Value E)}
    (hv : v.getObject = none) (ha : v.getClass = a.toClass)
    (h : fits type a = false ∧ (LibraryClass.boxed .double).assignable a = false)
    (hmem : (type, coercion) ∈ defaultJavaScriptToJava r)
    (hret : coercion type.toClass (some v) = .ok (some ret)) :
    coerceJavaScriptToJava (world E) (context r engine) (some type.toClass) (some v) =
      .ok (some ret) := by
  have hdouble : (world E).isInstance NumberType.double.boxed v = false :=
    (isInstance_library ha (.boxed .double)).trans h.2
  have hget : (context r engine).JavaScriptToJavaCoercions.get type.toClass = some coercion :=
    get_of_node (defaultJavaScriptToJava_nodes r _) (defaultJavaScriptToJava_nodup r) hmem
  have hentry : javaScriptToJavaEntry (world E) (context r engine).JavaScriptToJavaCoercions
      type.toClass (some v) = .ok (some ret) := by
    unfold javaScriptToJavaEntry
    rw [hget]
    exact hret
  rw [coerceJavaScriptToJava_eq, unwrap_of_unwrapped (world E) (Or.inl hv)]
  unfold convert
  rw [Option.any_some, fits_eq ha, h.1, if_neg Bool.false_ne_true]
  unfold narrowed
  rw [Option.bind_some, hdouble, if_neg Bool.false_ne_true]
  show coerceFromTable (world E) (context r engine) type.toClass (some v) = _
  unfold coerceFromTable
  rw [hentry]

theorem narrowTo_library (type : LibraryClass) :
    narrowTo type.toClass = [NumberType.byte, .short, .int, .float, .long].find? fun t =>
      type == .primitive t || type == .boxed t := by
  show [NumberType.byte, .short, .int, .float, .long].find? (fun t =>
    type.toClass == (LibraryClass.primitive t).toClass ||
      type.toClass == (LibraryClass.boxed t).toClass) = _
  simp only [LibraryClass.toClass_beq]

/-- A `Double` is narrowed to the integral types. -/
theorem converted_double (x : Floating 53) {t : NumberType} {type : LibraryClass}
    (ht : t ∈ [NumberType.byte, .short, .int, .long])
    (h : type ∈ [LibraryClass.primitive t, .boxed t]) :
    coerceJavaScriptToJava (world E) (context r engine) (some type.toClass) (some (.double x)) =
      .ok (some (convertNumber (x.value, true) t)) := by
  have hclosed : ∀ t ∈ [NumberType.byte, .short, .int, .long],
      ∀ type ∈ [LibraryClass.primitive t, .boxed t], fits type (.boxed .double) = false ∧
        ([NumberType.byte, .short, .int, .float, .long].find? fun t =>
          type == .primitive t || type == .boxed t) = some t := by decide
  obtain ⟨hfits, hnarrow⟩ := hclosed t ht type h
  have hclass : (Value.double (E := E) x).getClass = (LibraryClass.boxed .double).toClass := rfl
  have hdouble : (world E).isInstance NumberType.double.boxed (Value.double x) = true :=
    isInstance_library hclass (.boxed .double)
  rw [coerceJavaScriptToJava_eq, unwrap_of_unwrapped (world E) (Or.inl rfl)]
  unfold convert
  rw [Option.any_some, fits_eq hclass, hfits, if_neg Bool.false_ne_true]
  unfold narrowed
  rw [Option.bind_some, hdouble, if_pos rfl, narrowTo_library, hnarrow]
  rfl

/-- An `Integer` is converted to the other integral types. -/
theorem converted_int (m : BitVec 32) {t : NumberType} {type : LibraryClass}
    (ht : t ∈ [NumberType.byte, .short, .long])
    (h : type ∈ [LibraryClass.primitive t, .boxed t]) :
    coerceJavaScriptToJava (world E) (context r engine) (some type.toClass) (some (.int m)) =
      .ok (some (convertNumber (m.toInt, false) t)) := by
  have hclosed : ∀ t ∈ [NumberType.byte, .short, .long],
      ∀ type ∈ [LibraryClass.primitive t, .boxed t], fits type (.boxed .int) = false := by decide
  have hmem : (type, if type = .boxed .byte then toByte r else toNumber r t) ∈
      defaultJavaScriptToJava r := by
    revert t
    simp only [List.mem_cons, List.not_mem_nil, or_false]
    rintro t (rfl | rfl | rfl) (rfl | rfl) <;> simp [defaultJavaScriptToJava]
  refine converted_of_mem r engine rfl (a := .boxed .int) rfl ⟨hclosed t ht type h, by decide⟩ hmem ?_
  split_ifs with hbyte
  · obtain rfl : t = .byte := by
      subst hbyte
      simpa [eq_comm] using h
    rfl
  · rfl

/-- The coercion of `Enum.class` converts to the enum type. -/
theorem javaScriptToJavaEntry_enumType (o : JRef (Value E)) :
    javaScriptToJavaEntry (world E) (context r engine).JavaScriptToJavaCoercions E.clazz o =
      toEnum r E.clazz o := by
  have hlib : ∀ k ∈ (context r engine).JavaScriptToJavaCoercions.keys,
      ∃ a : LibraryClass, some a.toClass = k := by
    rw [keys_javaScriptToJava]
    intro k hk
    obtain ⟨a, -, hkey⟩ := List.mem_map.mp hk
    exact ⟨a, hkey⟩
  have hget : (context r engine).JavaScriptToJavaCoercions.get E.clazz = none := by
    apply get_eq_none
    intro hmem
    obtain ⟨a, ha⟩ := hlib _ hmem
    exact E.fresh a (Option.some.inj ha)
  have hmore : checkMoreSpecific (world E) E.clazz
      (context r engine).JavaScriptToJavaCoercions.nodes = .ok () := by
    rw [checkMoreSpecific_eq_ok_iff]
    constructor
    · intro hmem
      obtain ⟨a, ha⟩ := hlib _ hmem
      cases ha
    · intro key hk
      obtain ⟨a, ha⟩ := hlib _ hk
      obtain rfl := Option.some.inj ha
      exact isAssignableFrom_enumType a
  have hnodes : (context r engine).JavaScriptToJavaCoercions.nodes =
      [] ++ node (.enum, toEnum r) :: ((defaultJavaScriptToJava r).tail.map node) := by
    unfold context
    rw [defaultJavaScriptToJava_nodes]
    rfl
  have henum : (world E).isAssignableFrom LibraryClass.enum.toClass E.clazz = true :=
    isAssignableFrom_program .enum List.mem_cons_self
  unfold javaScriptToJavaEntry
  rw [hget]
  dsimp only
  rw [hmore]
  dsimp only
  rw [hnodes]
  exact checkEntries_first (world E) (by simp) henum

/-- A text is converted to the constant of that name. -/
theorem converted_text (s : JString) :
    coerceJavaScriptToJava (world E) (context r engine) (some E.clazz) (some (.string s)) =
      (valueOf E.clazz s).map some := by
  have hinstance : (world E).isInstance E.clazz (.string s) = false :=
    isAssignableFrom_enumType .string
  have hunboxes : unboxes (world E) E.clazz (.string s) = false := by
    show ((E.clazz == LibraryClass.boolean.toClass) && _ ||
      NumberType.all.any fun t => (E.clazz == (LibraryClass.primitive t).toClass) && _) = false
    simp only [E.beq_eq_false, Bool.false_and, Bool.false_or, List.any_eq_false]
    simp
  have hunwrap : unwrap (world E) (.string s) = some (.string s) :=
    unwrap_of_unwrapped (world E) (Or.inl rfl)
  have hentry : javaScriptToJavaEntry (world E) (context r engine).JavaScriptToJavaCoercions
      E.clazz (some (.string s)) = (valueOf E.clazz s).map some :=
    javaScriptToJavaEntry_enumType r engine _
  rw [coerceJavaScriptToJava_eq, hunwrap]
  unfold convert
  rw [if_neg (by simp [hinstance, hunboxes])]
  show coerceFromTable (world E) (context r engine) E.clazz (some (.string s)) = _
  unfold coerceFromTable
  rw [hentry]
  cases valueOf E.clazz s <;> rfl

theorem unwrap_javaObject {o : Value E} (ho : o.getObject = none) :
    unwrap (world E) (.javaObject o) = some o := by
  have hne : Value.javaObject o ≠ o := by
    rintro h
    rw [← h] at ho
    cases ho
  show (if Value.javaObject o = o then _ else unwrapLoop (world E) (o.depth + 1) o) = _
  rw [if_neg hne]
  exact unwrap_of_unwrapped (world E) (Or.inl ho)

/-- A constant that went as an object comes back. -/
theorem converted_object (i : Fin E.constants.length) :
    coerceJavaScriptToJava (world E) (context r engine) (some E.clazz)
      (some (.javaObject (.constant i))) = .ok (some (.constant i)) := by
  apply coerceJavaScriptToJava_of_instance (world E) _ (unwrap_javaObject rfl)
  left
  have hc := getClass_constant i
  have harray : (E.clazz != Class.Array) = true := by
    rw [bne_iff_ne]
    exact (E.fresh .array).symm
  show isAssignableFrom E E.clazz (Value.constant i).getClass = true
  unfold isAssignableFrom supertypes
  rw [LibraryClass.ofClass_eq_none (EnumType.not_library hc), harray]
  dsimp only
  rw [if_pos (by simpa using hc)]
  simp

/-! ## The round trip -/

theorem roundTrip_of_coerced {type : Class} {v u : Value E}
    (h : coerceJavaToJavaScript (world E) (context r engine) (some v) = .ok (some u)) :
    roundTrip r engine type v = (receive engine (send engine (some u))).map fun o =>
      coerceJavaScriptToJava (world E) (context r engine) (some type) o := by
  unfold roundTrip
  rw [h]

theorem boolean_kept (b : Bool) {type : LibraryClass}
    (h : type ∈ [LibraryClass.boolean, .boxedBoolean]) :
    roundTrip r engine type.toClass (.boolean b) = some (.ok (some (.boolean b))) := by
  have hcoerced : coerceJavaToJavaScript (world E) (context r engine) (some (.boolean b)) =
      .ok (some (.boolean b)) :=
    coerced_of_unregistered r engine rfl (a := .boxedBoolean) rfl (by cases engine <;> decide)
  have hfits : ∀ type ∈ [LibraryClass.boolean, .boxedBoolean], fits type .boxedBoolean = true := by
    decide
  rw [roundTrip_of_coerced r engine hcoerced]
  exact congrArg some (converted_of_fits r engine rfl (a := .boxedBoolean) rfl (hfits type h))

/-- An `Integer` in script comes back as any integral type that contains it. -/
theorem int_received (n : BitVec 32) {t : NumberType} {type : LibraryClass}
    (ht : t ∈ [NumberType.byte, .short, .long])
    (h : type ∈ [LibraryClass.primitive t, .boxed t]) :
    ∃ b, (receive engine (send engine (some (.int n)))).map (fun o =>
      coerceJavaScriptToJava (world E) (context r engine) (some type.toClass) o) =
        some (.ok (some (convertNumber (n.toInt, b) t))) := by
  have h1 := n.le_toInt
  have h2 := n.toInt_lt
  cases engine with
  | quickJS => exact ⟨false, congrArg some (converted_int r .quickJS n ht h)⟩
  | duktape =>
    have ht' : t ∈ [NumberType.byte, .short, .int, .long] := by
      simp only [List.mem_cons, List.not_mem_nil, or_false] at ht ⊢
      tauto
    refine ⟨true, congrArg some ?_⟩
    show coerceJavaScriptToJava _ _ (some type.toClass) (some (Value.double (toDouble n.toInt))) = _
    rw [converted_double r .duktape _ ht' h, toDouble_value (by omega)]

theorem byte_kept (n : BitVec 8) {type : LibraryClass}
    (h : type ∈ [LibraryClass.primitive .byte, .boxed .byte]) :
    roundTrip r engine type.toClass (.byte n) = some (.ok (some (.byte n))) := by
  have h1 := n.le_toInt
  have h2 := n.toInt_lt
  have hmem := mem_defaultJavaToJavaScript_intValue r (t := .byte) (by decide) (engine == .quickJS)
  have hcoerced : coerceJavaToJavaScript (world E) (context r engine) (some (.byte n)) =
      .ok (some (.int (BitVec.ofInt 32 n.toInt))) :=
    coerced_of_mem r engine rfl (a := .boxed .byte) rfl hmem rfl
  obtain ⟨b, hb⟩ := int_received r engine (BitVec.ofInt 32 n.toInt) (t := .byte) (by decide) h
  rw [roundTrip_of_coerced r engine hcoerced, hb, toInt_ofInt_int (by omega) (by omega),
    convertNumber_byte]

theorem short_kept (n : BitVec 16) {type : LibraryClass}
    (h : type ∈ [LibraryClass.primitive .short, .boxed .short]) :
    roundTrip r engine type.toClass (.short n) = some (.ok (some (.short n))) := by
  have h1 := n.le_toInt
  have h2 := n.toInt_lt
  have hmem := mem_defaultJavaToJavaScript_intValue r (t := .short) (by decide) (engine == .quickJS)
  have hcoerced : coerceJavaToJavaScript (world E) (context r engine) (some (.short n)) =
      .ok (some (.int (BitVec.ofInt 32 n.toInt))) :=
    coerced_of_mem r engine rfl (a := .boxed .short) rfl hmem rfl
  obtain ⟨b, hb⟩ := int_received r engine (BitVec.ofInt 32 n.toInt) (t := .short) (by decide) h
  rw [roundTrip_of_coerced r engine hcoerced, hb, toInt_ofInt_int (by omega) (by omega),
    convertNumber_short]

theorem int_kept (n : BitVec 32) {type : LibraryClass}
    (h : type ∈ [LibraryClass.primitive .int, .boxed .int]) :
    roundTrip r engine type.toClass (.int n) = some (.ok (some (.int n))) := by
  have h1 := n.le_toInt
  have h2 := n.toInt_lt
  have hcoerced : coerceJavaToJavaScript (world E) (context r engine) (some (.int n)) =
      .ok (some (.int n)) :=
    coerced_of_unregistered r engine rfl (a := .boxed .int) rfl (by cases engine <;> decide)
  rw [roundTrip_of_coerced r engine hcoerced]
  cases engine with
  | quickJS =>
    have hfits : ∀ type ∈ [LibraryClass.primitive .int, .boxed .int],
        fits type (.boxed .int) = true := by decide
    exact congrArg some (converted_of_fits r .quickJS rfl (a := .boxed .int) rfl (hfits type h))
  | duktape =>
    have hback := converted_double r .duktape (toDouble n.toInt) (t := .int) (by decide) h
    rw [toDouble_value (by omega), convertNumber_int] at hback
    exact congrArg some hback

/-- A text is converted to the `long` that it is read as. -/
theorem converted_long_text {s : JString} {v : Value E} {type : LibraryClass}
    (h : type ∈ [LibraryClass.primitive .long, .boxed .long]) (hv : parse r s .long = .ok v) :
    coerceJavaScriptToJava (world E) (context r engine) (some type.toClass) (some (.string s)) =
      .ok (some v) := by
  have hfits : ∀ type ∈ [LibraryClass.primitive .long, .boxed .long], fits type .string = false := by
    decide
  have hmem : (type, toNumber r .long) ∈ defaultJavaScriptToJava r := by
    rcases List.mem_pair.mp h with rfl | rfl <;> simp [defaultJavaScriptToJava]
  refine converted_of_mem r engine rfl (a := .string) rfl ⟨hfits type h, by decide⟩ hmem ?_
  show (parse r s .long).map some = _
  rw [hv]
  rfl

/-- A `long` goes to Duktape as its decimal text. -/
theorem long_kept_duktape (n : BitVec 64) {type : LibraryClass}
    (h : type ∈ [LibraryClass.primitive .long, .boxed .long]) :
    roundTrip r .duktape type.toClass (.long n) = some (.ok (some (.long n))) := by
  have hmem : (LibraryClass.boxed .long, longText) ∈ defaultJavaToJavaScript r false := by
    simp [defaultJavaToJavaScript, numberJavaToJavaScript]
  have hcoerced : coerceJavaToJavaScript (world E) (context r .duktape) (some (.long n)) =
      .ok (some (.string (decimal n.toInt))) :=
    coerced_of_mem r .duktape rfl (a := .boxed .long) rfl hmem rfl
  have hreceived : receive .duktape (send .duktape (some (Value.string (E := E) (decimal n.toInt)))) =
      some (some (.string (decimal n.toInt))) := by
    show (toJava (toScript .duktape (decimal n.toInt))).map _ = _
    rw [toJava_toScript_duktape]
    rfl
  have hparsed : parse r (decimal n.toInt) .long = .ok (.long n) := by
    show parsed (parseIntegral 64 (decimal n.toInt)) _ = _
    rw [parseIntegral_decimal n.le_toInt n.toInt_lt]
    show Except.ok (Value.long (BitVec.ofInt 64 n.toInt)) = _
    rw [BitVec.ofInt_toInt]
  rw [roundTrip_of_coerced r .duktape hcoerced, hreceived]
  exact congrArg some (converted_long_text r .duktape h hparsed)

/-- A `long` goes to QuickJS as a number. -/
theorem long_kept_quickJS (n : BitVec 64) {type : LibraryClass}
    (h : type ∈ [LibraryClass.primitive .long, .boxed .long]) :
    roundTrip r .quickJS type.toClass (.long n) = some (.ok (some (.long n))) ↔
      Representable 53 n.toInt ∨ n.toInt = 2 ^ 63 - 1 := by
  have hcoerced : coerceJavaToJavaScript (world E) (context r .quickJS) (some (.long n)) =
      .ok (some (.long n)) :=
    coerced_of_unregistered r .quickJS rfl (a := .boxed .long) rfl (by decide)
  rw [roundTrip_of_coerced r .quickJS hcoerced]
  by_cases hfits : (n.setWidth 32).signExtend 64 = n
  · have hint : (n.setWidth 32).toInt = n.toInt := by
      conv_rhs => rw [← hfits]
      rw [BitVec.toInt_signExtend_of_le (by decide)]
    have h1 := (n.setWidth 32).le_toInt
    have h2 := (n.setWidth 32).toInt_lt
    have hsend : send .quickJS (some (Value.long (E := E) n)) = .int32 (n.setWidth 32) := if_pos hfits
    have hback := converted_int r .quickJS (n.setWidth 32) (t := .long) (by decide) h
    rw [hint, convertNumber_long] at hback
    rw [hsend]
    refine iff_of_true (congrArg some hback) (Or.inl (representable_of_lt ?_))
    omega
  · have hsend : send .quickJS (some (Value.long (E := E) n)) = .float64 (toDouble n.toInt) :=
      if_neg hfits
    have hback := converted_double r .quickJS (toDouble n.toInt) (t := .long) (by decide) h
    rw [hsend, ← narrow_toDouble_long (E := E) n]
    show some (coerceJavaScriptToJava _ _ (some type.toClass)
      (some (Value.double (toDouble n.toInt)))) = _ ↔ _
    rw [hback, Option.some.injEq, Except.ok.injEq, Option.some.injEq]
    rfl

theorem constant_kept_iff (i : Fin E.constants.length) :
    roundTrip r engine E.clazz (.constant i) = some (.ok (some (.constant i))) ↔
      Recognised engine (E.constants.get i) := by
  have hvalue : ∀ s, (coerceJavaScriptToJava (world E) (context r engine) (some E.clazz)
      (some (.string s)) = .ok (some (.constant i))) ↔ s = (E.constants.get i).name := by
    intro s
    rw [converted_text, map_eq_ok]
    simp only [Option.some.injEq, exists_eq_right]
    rw [valueOf_eq_iff]
    exact eq_comm
  unfold roundTrip Recognised
  rw [coerced_constant]
  cases (E.constants.get i).toString with
  | throws e => simp
  | returns s =>
    cases s with
    | none =>
      refine iff_of_true ?_ trivial
      exact congrArg some (converted_object r engine i)
    | some s =>
      cases engine with
      | quickJS =>
        show ((toJava (toScript .quickJS s)).map fun s => some (Value.string s)).map _ = _ ↔ _
        rw [toJava_toScript_quickJS]
        by_cases hpair : PairFree s
        · rw [if_pos hpair]
          simp only [Option.map_some, Option.some.injEq, hpair, true_and]
          exact hvalue _
        · simp [hpair]
      | duktape =>
        show ((toJava (toScript .duktape s)).map fun s => some (Value.string s)).map _ = _ ↔ _
        rw [toJava_toScript_duktape]
        simp only [Option.map_some, Option.some.injEq]
        exact hvalue _

/-- The types of a scalar, as classes of the library. -/
theorem exists_library {a b : LibraryClass} {type : Class} (h : type ∈ [a.toClass, b.toClass]) :
    ∃ t ∈ [a, b], t.toClass = type := by
  obtain ⟨t, ht, htype⟩ := List.mem_map.mp (show type ∈ [a, b].map LibraryClass.toClass from h)
  exact ⟨t, ht, htype⟩

/-- **The scalars that come back equal**: all but `long`s beyond 53 significant bits
    in QuickJS, and enum constants that are not told by their text. -/
theorem scalar_kept_iff (s : Scalar E) {type : Class} (h : type ∈ s.types) :
    roundTrip r engine type s.box = some (.ok (some s.box)) ↔ s.Survives engine := by
  cases s with
  | boolean b =>
    obtain ⟨t, ht, rfl⟩ := exists_library (a := .boolean) (b := .boxedBoolean) h
    exact iff_of_true (boolean_kept r engine b ht) trivial
  | byte n =>
    obtain ⟨t, ht, rfl⟩ := exists_library (a := .primitive .byte) (b := .boxed .byte) h
    exact iff_of_true (byte_kept r engine n ht) trivial
  | short n =>
    obtain ⟨t, ht, rfl⟩ := exists_library (a := .primitive .short) (b := .boxed .short) h
    exact iff_of_true (short_kept r engine n ht) trivial
  | int n =>
    obtain ⟨t, ht, rfl⟩ := exists_library (a := .primitive .int) (b := .boxed .int) h
    exact iff_of_true (int_kept r engine n ht) trivial
  | long n =>
    obtain ⟨t, ht, rfl⟩ := exists_library (a := .primitive .long) (b := .boxed .long) h
    cases engine with
    | quickJS =>
      show _ ↔ Engine.quickJS = .duktape ∨ _
      rw [or_iff_right (by decide)]
      exact long_kept_quickJS r n ht
    | duktape => exact iff_of_true (long_kept_duktape r n ht) (Or.inl rfl)
  | constant i =>
    obtain rfl := List.mem_singleton.mp h
    exact constant_kept_iff r engine i

/-- No class of the library begins with a capital letter. -/
theorem LibraryClass.ne_of_head {clazz : Class} (h : clazz.name.head? = some 0x43#16)
    (a : LibraryClass) : a.toClass ≠ clazz := by
  have hhead : ∀ a ∈ all, a.toClass.name.head? ≠ some 0x43#16 := by decide +kernel
  rintro rfl
  exact hhead a a.mem_all h

/-- Two constants: `RED`, and `GREEN` with a body that overrides `toString()`. -/
def color : EnumType where
  clazz := named "Color"
  constants := [{ name := jstr "RED" },
    { name := jstr "GREEN", toString := .returns (some (jstr "green")), body := some (named "Color$1") }]
  nodup := by decide +kernel
  fresh := LibraryClass.ne_of_head (by decide +kernel)
  fresh_body := by
    intro c hc b hb
    apply LibraryClass.ne_of_head
    revert c b
    decide +kernel

def noText : Unreached color where
  parseFloat _ := .error classCastException
  parseDouble _ := .error classCastException
  copyBuffer _ _ := .error classCastException
  text _ := []

/-- `2⁵³ + 1` survives in Duktape, and a constant that has its name for a text in
    QuickJS. -/
theorem scalars_kept :
    roundTrip noText .duktape NumberType.long.primitive (.long 9007199254740993#64) =
        some (.ok (some (.long 9007199254740993#64))) ∧
      roundTrip noText .quickJS color.clazz (.constant ⟨0, by decide⟩) =
        some (.ok (some (.constant ⟨0, by decide⟩))) :=
  ⟨(scalar_kept_iff noText .duktape (.long 9007199254740993#64) List.mem_cons_self).mpr (Or.inl rfl),
    (scalar_kept_iff noText .quickJS (.constant ⟨0, by decide⟩) List.mem_cons_self).mpr
      (show PairFree (jstr "RED") ∧ (jstr "RED").map seen = jstr "RED" by decide +kernel)⟩

/-- `2⁵³ + 1` does not survive in QuickJS, nor does a constant that overrides
    `toString()` in either engine. -/
theorem scalars_lost :
    roundTrip noText .quickJS NumberType.long.primitive (.long 9007199254740993#64) ≠
        some (.ok (some (.long 9007199254740993#64))) ∧
      ∀ engine, roundTrip noText engine color.clazz (.constant ⟨1, by decide⟩) ≠
        some (.ok (some (.constant ⟨1, by decide⟩))) := by
  refine ⟨?_, ?_⟩
  · intro h
    have hmem : LibraryClass.primitive .long ∈ [LibraryClass.primitive .long, .boxed .long] :=
      List.mem_cons_self
    have hlong := (long_kept_quickJS noText 9007199254740993#64 hmem).mp h
    rw [← roundBits_eq_self_iff (by decide)] at hlong
    revert hlong
    decide
  · intro engine h
    have hgreen := (constant_kept_iff noText engine ⟨1, by decide⟩).mp h
    cases engine with
    | quickJS =>
      have hname : (jstr "green").map seen ≠ jstr "GREEN" := by decide +kernel
      exact hname hgreen.2
    | duktape =>
      have hname : jstr "green" ≠ jstr "GREEN" := by decide +kernel
      exact hname hgreen

end JSEngine.Scalars
