import JSEngine.Java.HashMap
import JSEngine.Members.Reflect

/-!
# Java values as the coercions see them

What the library asks the JVM and script about a value: its class, what a
wrapper wraps, the elements of an array, the numbers a `Number` converts to, the
properties of a JavaScript object. The values themselves are a type parameter,
so that a result holds for every program.

* `unwrap`: the loop that takes a `JSEngineJavaObject` apart;
* `unwrapped_of_unwrap`, `unwrap_of_unwrapped`: where it stops.
-/

namespace JSEngine.Coerce

open JSEngine.Java JSEngine.Members

-- `Class` is the Java class throughout, also beside Mathlib's type of that name
export JSEngine.Members (Class)

/-! ## Classes the library names -/

/-- The class of that binary name. -/
def named (name : String) : Class := { name := jstr name }

/-- `Object.class`. -/
def Class.Object : Class := named "java.lang.Object"

/-- `Number.class`. -/
def Class.Number : Class := named "java.lang.Number"

/-- `String.class`. -/
def Class.String : Class := named "java.lang.String"

/-- `java.lang.reflect.Array.class`, a class of static methods. -/
def Class.Array : Class := named "java.lang.reflect.Array"

/-- `JavaScriptObject.class`. -/
def Class.JavaScriptObject : Class := named "com.hyprmx.android.jsengine.JavaScriptObject"

/-- `JSEngineJavaScriptObject.class`. -/
def Class.JSEngineJavaScriptObject : Class :=
  named "com.hyprmx.android.jsengine.JSEngineJavaScriptObject"

/-- The primitive types of numbers. -/
inductive NumberType
  | byte | short | int | long | float | double
  deriving DecidableEq, Repr

/-- `byte.class` and so on. -/
def NumberType.primitive : NumberType → Class
  | .byte => named "byte"
  | .short => named "short"
  | .int => named "int"
  | .long => named "long"
  | .float => named "float"
  | .double => named "double"

/-- `Byte.class` and so on. -/
def NumberType.boxed : NumberType → Class
  | .byte => named "java.lang.Byte"
  | .short => named "java.lang.Short"
  | .int => named "java.lang.Integer"
  | .long => named "java.lang.Long"
  | .float => named "java.lang.Float"
  | .double => named "java.lang.Double"

/-- `boolean.class`. -/
def Class.boolean : Class := named "boolean"

/-- `Boolean.class`. -/
def Class.Boolean : Class := named "java.lang.Boolean"

/-! ## Objects the library makes -/

/-- A `JavaMethodObject`; `methodsOf` is the class whose methods an overriding
    `getMethods` lists. -/
structure MethodObject (V : Type*) where
  originalThis : JRef V
  target : JString
  methodsOf : Option Class := none
  deriving DecidableEq

/-- The invocation handler of an interface proxy over a JavaScript object. -/
inductive Handler (V : Type*)
  /-- the lambda of the functional-interface branch -/
  | callback (jo : V)
  /-- `jo.createInvocationHandler()` -/
  | invocation (jo : V)
  deriving DecidableEq

/-! ## The world -/

/-- What the JVM and script answer about the values `V`. -/
structure World (V : Type*) extends Reflection where
  /-- `o.getClass()` -/
  getClass : V → Class
  /-- `((JSEngineJavaObject)o).getObject()`, where `o` is a `JSEngineJavaObject` -/
  getObject : V → Option (JRef V) := fun _ => none
  /-- how many wrappers are around the innermost object -/
  depth : V → ℕ := fun _ => 0
  depth_getObject : ∀ o t, getObject o = some (some t) → t ≠ o → depth t < depth o := by simp
  /-- the class, where `o` is a `Class` -/
  asClass : V → Option Class := fun _ => none
  /-- `System.identityHashCode(clazz)` -/
  identityHash : Class → JInt := fun _ => 0
  isVarArgs : Method → Bool := fun _ => false
  isAbstract : Method → Bool := fun _ => false
  /-- whether `Method.invoke` passes the access check -/
  isAccessible : Method → Bool := fun _ => true
  /-- `e instanceof Exception` -/
  isException : Throwable → Bool := fun _ => true
  /-- `e instanceof RuntimeException || e instanceof Error` -/
  isUnchecked : Throwable → Bool := fun _ => true
  getComponentType : Class → Class := id
  /-- the dimensions of an array class -/
  dimensions : Class → ℕ := fun _ => 0
  dimensions_of_isArray : ∀ clazz, isArray clazz = true →
    dimensions clazz = dimensions (getComponentType clazz) + 1 := by simp
  /-- the elements of an array, boxed -/
  elements : V → Option (List (JRef V)) := fun _ => none
  /-- what `Array.get` returns after `Array.set`, on an array of that component type -/
  store : Class → JRef V → Except Throwable (JRef V) := fun _ v => .ok v
  /-- the array of these elements -/
  newArray : Class → List (JRef V) → V
  /-- `varargs.toArray((T[])Array.newInstance(varargType, 0))` -/
  toArray : Class → List (JRef V) → Except Throwable V := fun _ _ => .error ⟨"", ""⟩
  /-- `((Number)o).byteValue()` and so on, boxed -/
  numberValue : NumberType → V → V := fun _ v => v
  /-- `((Number)o).intValue()` -/
  intValue : V → ℤ := fun _ => 0
  /-- `((Number)o).doubleValue() == ((Number)o).intValue()` -/
  isIntegral : V → Bool := fun _ => false
  /-- the `Integer` -/
  integer : ℤ → V
  /-- the string as a value -/
  string : JString → V
  /-- the characters, where `o` is a `String` -/
  asString : V → Option JString := fun _ => none
  /-- `JSEngineContext.getKeyString` -/
  getKeyString : V → JString → Except Throwable (JRef V) := fun _ _ => .ok none
  /-- `JSEngineContext.getKeyInteger` -/
  getKeyInteger : V → ℤ → Except Throwable (JRef V) := fun _ _ => .ok none
  methodObject : MethodObject V → V
  asMethodObject : V → Option (MethodObject V)
  asMethodObject_methodObject : ∀ m, asMethodObject (methodObject m) = some m
  /-- the interfaces of `JavaMethodObject` have default methods only -/
  methodObject_interfaces : ∀ o m clazz, asMethodObject o = some m → isInterface clazz = true →
    isAssignableFrom clazz (getClass o) = true → (getMethods clazz).filter isAbstract = []
  /-- `Proxy.newProxyInstance` of `JSEngineJavaScriptObject` and the class -/
  proxy : Class → Handler V → V
  asProxy : V → Option (Class × Handler V)
  asProxy_proxy : ∀ clazz h, asProxy (proxy clazz h) = some (clazz, h)
  /-- the `Method` that such a proxy hands its handler for a method of the class -/
  proxyMethod : Class → Method → Method := fun _ m => m
  isInstance_Object : ∀ o, isAssignableFrom Class.Object (getClass o) = true
  interface_Object : ∀ clazz, isInterface clazz = true → isAssignableFrom Class.Object clazz = true
  eq_Object : ∀ clazz, isAssignableFrom clazz Class.Object = true → clazz = Class.Object
  /-- `Array` has no instances -/
  not_Array : ∀ o, isAssignableFrom Class.Array (getClass o) = false

/-- Where no class is an array, no dimensions are asked for. -/
theorem dimensions_of_no_array : ∀ _ : Class, false = true → 0 = 0 + 1 := by simp

variable {V : Type*} (w : World V)

/-- `clazz.isInstance(o)`, for `o` not null. -/
def World.isInstance (clazz : Class) (o : V) : Bool := w.isAssignableFrom clazz (w.getClass o)

/-- `o instanceof JavaScriptObject`. -/
def World.isJavaScriptObject (o : V) : Bool := w.isInstance Class.JavaScriptObject o

/-- `o instanceof Number`. -/
def World.isNumber (o : V) : Bool := w.isInstance Class.Number o

/-! ## The unwrapping loop -/

variable [DecidableEq V]

/-- The loop, for at most `n` wrappers. -/
def unwrapLoop : ℕ → V → JRef V
  | 0, o => some o
  | n + 1, o =>
    match w.getObject o with
    | none => some o
    | some none => none
    | some (some coerced) => if o = coerced then some o else unwrapLoop n coerced

/-- `while (o instanceof JSEngineJavaObject) …` (JSEngineContext.java, lines 148–153
    and 191–196). -/
def unwrap (o : V) : JRef V := unwrapLoop w (w.depth o + 1) o

/-- The loop ends at no wrapper, or at one that wraps itself. -/
def Unwrapped (o : V) : Prop := w.getObject o = none ∨ w.getObject o = some (some o)

theorem unwrap_of_unwrapped {o : V} (h : Unwrapped w o) : unwrap w o = some o := by
  unfold unwrap unwrapLoop
  rcases h with h | h <;> simp [h]

theorem unwrapped_of_unwrapLoop {n : ℕ} {o t : V} (hn : w.depth o < n)
    (h : unwrapLoop w n o = some t) : Unwrapped w t := by
  induction n generalizing o with
  | zero => omega
  | succ n ih =>
    unfold unwrapLoop at h
    cases hg : w.getObject o with
    | none =>
      rw [hg] at h
      obtain rfl : o = t := by simpa using h
      exact Or.inl hg
    | some c =>
      cases c with
      | none => simp [hg] at h
      | some c =>
        simp only [hg] at h
        by_cases hc : o = c
        · rw [if_pos hc] at h
          obtain rfl : o = t := by simpa using h
          exact Or.inr (by rw [hg, ← hc])
        · rw [if_neg hc] at h
          have hlt := w.depth_getObject o c hg (Ne.symm hc)
          exact ih (by omega) h

/-- What the loop leaves is not taken apart again. -/
theorem unwrapped_of_unwrap {o t : V} (h : unwrap w o = some t) : Unwrapped w t :=
  unwrapped_of_unwrapLoop w (Nat.lt_succ_self _) h

/-! ## A small world -/

/-- Numbers, strings, objects of a class, and what the library makes. -/
inductive Sample
  | int (n : ℤ)
  | string (s : JString)
  | object (clazz : Class) (id : ℕ)
  | function (target : JString) (methodsOf : Option Class)
  | functionOf (originalThis : Sample) (target : JString) (methodsOf : Option Class)
  | callback (clazz : Class) (jo : Sample)
  | invocation (clazz : Class) (jo : Sample)
  deriving DecidableEq

/-- The class of a value, for boxes, strings and objects. -/
def Sample.getClass : Sample → Class
  | .int _ => NumberType.int.boxed
  | .string _ => Class.String
  | .object clazz _ => clazz
  | _ => Class.Object

/-- A program with these classes, where a class is assignable to itself, to
    `Object` and to its listed supertypes. -/
def Sample.world (getMethods : Class → List Method) (isAbstract : Method → Bool)
    (interfaces : List Class) (supertypes : Class → List Class) : World Sample where
  getMethods
  isAbstract
  isInterface clazz := clazz != Class.Object && interfaces.contains clazz
  isAssignableFrom clazz d :=
    clazz != Class.Array &&
      (clazz == d || clazz == Class.Object || clazz == Class.Number && d == NumberType.int.boxed ||
        d != Class.Object && (supertypes d).contains clazz)
  getClass := Sample.getClass
  getComponentType := id
  newArray _ _ := .string []
  intValue
    | .int n => n
    | _ => 0
  isIntegral _ := true
  integer := .int
  string := .string
  asString
    | .string s => some s
    | _ => none
  methodObject m :=
    match m.originalThis with
    | none => .function m.target m.methodsOf
    | some thiz => .functionOf thiz m.target m.methodsOf
  asMethodObject
    | .function target methodsOf => some { originalThis := none, target, methodsOf }
    | .functionOf thiz target methodsOf => some { originalThis := some thiz, target, methodsOf }
    | _ => none
  asMethodObject_methodObject := by
    rintro ⟨_ | _, _, _⟩ <;> rfl
  methodObject_interfaces := by
    have hne : (Class.Object == NumberType.int.boxed) = false := by decide
    intro o m clazz hm hi hc
    cases o <;> simp_all [Sample.getClass]
  proxy
    | clazz, .callback jo => .callback clazz jo
    | clazz, .invocation jo => .invocation clazz jo
  asProxy
    | .callback clazz jo => some (clazz, .callback jo)
    | .invocation clazz jo => some (clazz, .invocation jo)
    | _ => none
  asProxy_proxy := by
    rintro clazz (_ | _) <;> rfl
  isInstance_Object := by
    have hne : (Class.Object != Class.Array) = true := by decide
    simp [hne]
  interface_Object := by
    have hne : (Class.Object != Class.Array) = true := by decide
    simp [hne]
  eq_Object := by
    have hne : (Class.Object == NumberType.int.boxed) = false := by decide
    simp [hne]
  not_Array := by simp

end JSEngine.Coerce
