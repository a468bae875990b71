import JSEngine.Coerce.Tables
import JSEngine.Common.Rounding

/-!
# Scalars in Java

The values of the scalar types and of one enum type, as a world of the coercions.
Of the floating-point values only integers occur.

* `LibraryClass`: the classes that the library names, distinct by name;
* `isAssignableFrom_library`, `isAssignableFrom_program`, `isAssignableFrom_enumType`: the
  class hierarchy.
-/

namespace JSEngine.Scalars

open JSEngine.Java JSEngine.Members JSEngine.Common JSEngine.Coerce

export JSEngine.Members (Class)

/-! ## Classes of the library -/

/-- A class that the library names on the way of a scalar. -/
inductive LibraryClass
  | object | number | string | array | javaScriptObject | jsEngineJavaScriptObject
  | boolean | boxedBoolean | enum | byteBuffer | javaObject
  | primitive (t : NumberType)
  | boxed (t : NumberType)
  deriving DecidableEq

/-- The class itself. -/
def LibraryClass.toClass : LibraryClass → Class
  | .object => Class.Object
  | .number => Class.Number
  | .string => Class.String
  | .array => Class.Array
  | .javaScriptObject => Class.JavaScriptObject
  | .jsEngineJavaScriptObject => Class.JSEngineJavaScriptObject
  | .boolean => Class.boolean
  | .boxedBoolean => Class.Boolean
  | .enum => named "java.lang.Enum"
  | .byteBuffer => named "java.nio.ByteBuffer"
  | .javaObject => named "com.hyprmx.android.jsengine.JavaObject"
  | .primitive t => t.primitive
  | .boxed t => t.boxed

def NumberType.all : List NumberType := [.byte, .short, .int, .long, .float, .double]

def LibraryClass.all : List LibraryClass :=
  [.object, .number, .string, .array, .javaScriptObject, .jsEngineJavaScriptObject, .boolean,
    .boxedBoolean, .enum, .byteBuffer, .javaObject] ++
  NumberType.all.map primitive ++ NumberType.all.map boxed

theorem LibraryClass.mem_all (a : LibraryClass) : a ∈ all := by
  rcases a with _ | _ | _ | _ | _ | _ | _ | _ | _ | _ | _ | (_ | _ | _ | _ | _ | _) |
    (_ | _ | _ | _ | _ | _) <;> simp [all, NumberType.all]

/-- The classes have distinct names. -/
theorem LibraryClass.toClass_injective : Function.Injective toClass := by
  have hcodes : (all.map fun a => stringHash a.toClass.name).Nodup := by decide +kernel
  intro a b h
  exact List.inj_on_of_nodup_map hcodes a.mem_all b.mem_all (by rw [h])

@[simp] theorem LibraryClass.toClass_inj {a b : LibraryClass} : a.toClass = b.toClass ↔ a = b :=
  toClass_injective.eq_iff

@[simp] theorem LibraryClass.toClass_beq (a b : LibraryClass) :
    (a.toClass == b.toClass) = (a == b) := by
  rw [Bool.eq_iff_iff, beq_iff_eq, beq_iff_eq, toClass_inj]

/-- Which class of the library a class is. -/
def LibraryClass.ofClass (clazz : Class) : Option LibraryClass :=
  all.find? fun a => a.toClass == clazz

@[simp] theorem LibraryClass.ofClass_toClass (a : LibraryClass) : ofClass a.toClass = some a := by
  unfold ofClass
  simp only [toClass_beq]
  cases hf : all.find? fun b => b == a with
  | none => simpa using List.find?_eq_none.mp hf a a.mem_all
  | some b =>
    have hb := List.find?_some hf
    rw [eq_of_beq hb]

theorem LibraryClass.ofClass_eq_none {clazz : Class} (h : ∀ a : LibraryClass, a.toClass ≠ clazz) :
    ofClass clazz = none := by
  unfold ofClass
  rw [List.find?_eq_none]
  intro a _
  simpa using h a

/-! ## Enum types -/

/-- What `toString()` of an enum constant does; enum types may override it. -/
inductive ToString
  | returns (s : JRef JString)
  | throws (e : Throwable)
  deriving DecidableEq

/-- A constant of an enum type, with the class of its own that a body gives it. -/
structure EnumConstant where
  name : JString
  toString : ToString := .returns (some name)
  body : Option Class := none
  deriving DecidableEq

/-- An enum type of the program. -/
structure EnumType where
  clazz : Class
  constants : List EnumConstant
  nodup : (constants.map EnumConstant.name).Nodup
  fresh : ∀ a : LibraryClass, a.toClass ≠ clazz
  fresh_body : ∀ c ∈ constants, ∀ b ∈ c.body, ∀ a : LibraryClass, a.toClass ≠ b

/-- The classes of an enum type: its own and those of the bodies. -/
def EnumType.classes (E : EnumType) : List Class :=
  E.clazz :: E.constants.filterMap EnumConstant.body

theorem EnumType.beq_eq_false (E : EnumType) (a : LibraryClass) :
    (E.clazz == a.toClass) = false := by
  rw [beq_eq_false_iff_ne]
  exact (E.fresh a).symm

theorem EnumType.not_library {E : EnumType} {clazz : Class} (h : clazz ∈ E.classes)
    (a : LibraryClass) : a.toClass ≠ clazz := by
  rcases List.mem_cons.mp h with rfl | h
  · exact E.fresh a
  · obtain ⟨c, hc, hb⟩ := List.mem_filterMap.mp h
    exact E.fresh_body c hc clazz hb a

/-! ## Values -/

/-- An integer as a floating-point number of `p` significant bits. -/
structure Floating (p : ℕ) where
  value : ℤ
  representable : Representable p value

instance (p : ℕ) : DecidableEq (Floating p) := fun x y =>
  decidable_of_iff (x.value = y.value) (by cases x; cases y; simp)

/-- The conversion of an integer, rounding to nearest. -/
def Floating.ofInt (p : ℕ) (hp : 0 < p) (n : ℤ) : Floating p := ⟨roundBits p n, representable_roundBits hp n⟩

theorem double_precision_pos : 0 < 53 := by decide

theorem float_precision_pos : 0 < 24 := by decide

/-- `(double)n`. -/
def toDouble (n : ℤ) : Floating 53 := .ofInt 53 double_precision_pos n

/-- `(float)n`. -/
def toFloat (n : ℤ) : Floating 24 := .ofInt 24 float_precision_pos n

/-- The values: boxed scalars, strings, the constants of the enum type, and what the
    library makes. -/
inductive Value (E : EnumType)
  | boolean (b : Bool)
  | byte (n : BitVec 8)
  | short (n : BitVec 16)
  | int (n : BitVec 32)
  | long (n : BitVec 64)
  | float (x : Floating 24)
  | double (x : Floating 53)
  | string (s : JString)
  | constant (i : Fin E.constants.length)
  | javaObject (o : Value E)
  | array (componentType : Class)
  | function (target : JString) (methodsOf : Option Class)
  | functionOf (originalThis : Value E) (target : JString) (methodsOf : Option Class)
  | callback (clazz : Class) (jo : Value E)
  | invocation (clazz : Class) (jo : Value E)
  deriving DecidableEq

variable {E : EnumType}

/-- `o.getClass()`, for what is no function, proxy or array. -/
def Value.getClass : Value E → Class
  | .boolean _ => Class.Boolean
  | .byte _ => NumberType.byte.boxed
  | .short _ => NumberType.short.boxed
  | .int _ => NumberType.int.boxed
  | .long _ => NumberType.long.boxed
  | .float _ => NumberType.float.boxed
  | .double _ => NumberType.double.boxed
  | .string _ => Class.String
  | .constant i => (E.constants.get i).body.getD E.clazz
  | .javaObject _ => LibraryClass.javaObject.toClass
  | _ => Class.Object

/-- `JavaObject.getObject()`. -/
def Value.getObject : Value E → Option (JRef (Value E))
  | .javaObject o => some (some o)
  | _ => none

/-- How many `JavaObject`s are around a value. -/
def Value.depth : Value E → ℕ
  | .javaObject o => o.depth + 1
  | _ => 0

/-! ## Numbers -/

/-- A number, and whether it is floating-point. -/
def Value.number : Value E → Option (ℤ × Bool)
  | .byte n => some (n.toInt, false)
  | .short n => some (n.toInt, false)
  | .int n => some (n.toInt, false)
  | .long n => some (n.toInt, false)
  | .float x => some (x.value, true)
  | .double x => some (x.value, true)
  | _ => none

/-- A floating-point number converted to a `w`-bit integer: the nearest one. -/
def saturate (w : ℕ) (z : ℤ) : ℤ := max (-2 ^ (w - 1)) (min (2 ^ (w - 1) - 1) z)

/-- `(int)` and `(long)` of a number: integers keep their low bits. -/
def toIntegral (w : ℕ) (x : ℤ × Bool) : BitVec w :=
  BitVec.ofInt w (if x.2 then saturate w x.1 else x.1)

/-- `byteValue()` and so on; `(byte)` and `(short)` of a floating-point number go by
    `int`. -/
def convertNumber (x : ℤ × Bool) : NumberType → Value E
  | .byte => .byte (BitVec.ofInt 8 (toIntegral 32 x).toInt)
  | .short => .short (BitVec.ofInt 16 (toIntegral 32 x).toInt)
  | .int => .int (toIntegral 32 x)
  | .long => .long (toIntegral 64 x)
  | .float => .float (toFloat x.1)
  | .double => .double (toDouble x.1)

/-- `((Number)o).byteValue()` and so on. -/
def numberValue (t : NumberType) (o : Value E) : Value E :=
  match o.number with
  | none => o
  | some x => convertNumber x t

/-! ## The class hierarchy -/

/-- The supertypes of a class of the library, `Object` apart. -/
def LibraryClass.supertypes : LibraryClass → List LibraryClass
  | .boxed _ => [.number]
  | _ => []

/-- The supertypes of a class, `Object` apart. -/
def supertypes (E : EnumType) (clazz : Class) : List Class :=
  match LibraryClass.ofClass clazz with
  | some a => a.supertypes.map LibraryClass.toClass
  | none => if E.classes.contains clazz then [E.clazz, LibraryClass.enum.toClass] else []

/-- `key.isAssignableFrom(c)`. -/
def isAssignableFrom (E : EnumType) (key c : Class) : Bool :=
  key != Class.Array && (key == c || key == Class.Object || (supertypes E c).contains key)

/-- The same among the classes of the library. -/
def LibraryClass.assignable (key c : LibraryClass) : Bool :=
  key != .array && (key == c || key == .object || c.supertypes.contains key)

theorem isAssignableFrom_library (key c : LibraryClass) :
    isAssignableFrom E key.toClass c.toClass = key.assignable c := by
  have hsuper : (supertypes E c.toClass).contains key.toClass = c.supertypes.contains key := by
    unfold supertypes
    rw [LibraryClass.ofClass_toClass]
    cases c <;> simp [LibraryClass.supertypes]
  show (key.toClass != LibraryClass.array.toClass && (key.toClass == c.toClass ||
    key.toClass == LibraryClass.object.toClass || _)) = _
  rw [hsuper]
  unfold LibraryClass.assignable bne
  simp only [LibraryClass.toClass_beq]

/-- The supertypes of an enum type among the classes of the library. -/
theorem isAssignableFrom_program (key : LibraryClass) {c : Class} (hc : c ∈ E.classes) :
    isAssignableFrom E key.toClass c =
      (key != .array && (key == .object || key == .enum)) := by
  have hne : (key.toClass == c) = false := by
    rw [beq_eq_false_iff_ne]
    exact EnumType.not_library hc key
  have hne' : (key.toClass == E.clazz) = false := by
    rw [beq_eq_false_iff_ne]
    exact E.fresh key
  have hsuper : (supertypes E c).contains key.toClass = (key == .enum) := by
    unfold supertypes
    rw [LibraryClass.ofClass_eq_none (EnumType.not_library hc)]
    dsimp only
    rw [if_pos (by simpa using hc)]
    simp only [List.contains_cons, List.contains_nil, hne', LibraryClass.toClass_beq,
      Bool.false_or, Bool.or_false]
  show (key.toClass != LibraryClass.array.toClass && (key.toClass == c ||
    key.toClass == LibraryClass.object.toClass || _)) = _
  rw [hsuper, hne]
  unfold bne
  simp only [LibraryClass.toClass_beq, Bool.false_or]

/-- No class of the library is a subtype of the enum type. -/
theorem isAssignableFrom_enumType (c : LibraryClass) :
    isAssignableFrom E E.clazz c.toClass = false := by
  have hsuper : (supertypes E c.toClass).contains E.clazz = false := by
    unfold supertypes
    rw [LibraryClass.ofClass_toClass]
    cases c with
    | boxed t =>
      show List.contains [LibraryClass.number.toClass] E.clazz = false
      simp only [List.contains_cons, List.contains_nil, E.beq_eq_false, Bool.or_false]
    | _ => rfl
  show (_ && (E.clazz == c.toClass || E.clazz == LibraryClass.object.toClass || _)) = _
  rw [hsuper, E.beq_eq_false, E.beq_eq_false, Bool.or_false, Bool.or_false, Bool.and_false]

/-- The world of these values. -/
def world (E : EnumType) : World (Value E) where
  isAssignableFrom := isAssignableFrom E
  getClass := Value.getClass
  getObject := Value.getObject
  depth := Value.depth
  depth_getObject := by
    intro o t h _
    cases o <;> simp_all [Value.getObject, Value.depth]
  getComponentType := id
  dimensions_of_isArray := dimensions_of_no_array
  newArray clazz _ := .array clazz
  numberValue
  integer n := .int (BitVec.ofInt 32 n)
  string := .string
  asString
    | .string s => some s
    | _ => none
  methodObject m :=
    match m.originalThis with
    | none => .function m.target m.methodsOf
    | some thiz => .functionOf thiz m.target m.methodsOf
  asMethodObject
    | .function target methodsOf => some { originalThis := none, target, methodsOf }
    | .functionOf thiz target methodsOf => some { originalThis := some thiz, target, methodsOf }
    | _ => none
  asMethodObject_methodObject := by
    rintro ⟨_ | _, _, _⟩ <;> rfl
  methodObject_interfaces := by simp
  proxy
    | clazz, .callback jo => .callback clazz jo
    | clazz, .invocation jo => .invocation clazz jo
  asProxy
    | .callback clazz jo => some (clazz, .callback jo)
    | .invocation clazz jo => some (clazz, .invocation jo)
    | _ => none
  asProxy_proxy := by
    rintro clazz (_ | _) <;> rfl
  isInstance_Object := by
    have hne : (Class.Object != Class.Array) = true := by
      show (!(LibraryClass.object.toClass == LibraryClass.array.toClass)) = true
      rw [LibraryClass.toClass_beq]
      rfl
    simp [isAssignableFrom, hne]
  interface_Object := by simp
  eq_Object := by
    have hnil : supertypes E Class.Object = [] := by
      show supertypes E LibraryClass.object.toClass = []
      unfold supertypes
      rw [LibraryClass.ofClass_toClass]
      rfl
    simp [isAssignableFrom, hnil]
  not_Array := by simp [isAssignableFrom]

end JSEngine.Scalars
