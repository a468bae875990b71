import JSEngine.Java.Basic

/-!
# Java reflection

The part of `java.lang.Class`, `Field` and `Method` that the library asks for
when it exposes a Java object to script. A class is its binary name and its
defining loader; what the loaded classes contain is a parameter (`Reflection`).

`Field.hashCode` and `Method.hashCode` are the JDK's: the hash of the declaring
class's name xored with the hash of the member's name. Neither depends on the
type, the parameter types or the loader.
-/

namespace JSEngine.Members

open JSEngine.Java

/-- A `java.lang.Class`. -/
structure Class where
  name : JString
  loader : ℕ := 0
  deriving DecidableEq

/-- A `java.lang.reflect.Field`, with the modifiers the library tests. -/
structure Field where
  declaringClass : Class
  name : JString
  type : Class
  isStatic : Bool
  isPublic : Bool
  deriving DecidableEq

/-- A `java.lang.reflect.Method`, with its modifiers and the `name` of its
    `JSEngineProperty` and `JSEngineMethodName` annotations. -/
structure Method where
  declaringClass : Class
  name : JString
  parameterTypes : List Class
  returnType : Class
  isStatic : Bool := false
  isPrivate : Bool := false
  property : Option JString := none
  methodName : Option JString := none
  deriving DecidableEq

/-- `Class.class`. -/
def Class.class : Class := { name := jstr "java.lang.Class" }

/-- `void.class`. -/
def Class.void : Class := { name := jstr "void" }

/-- `Void.class`. -/
def Class.Void : Class := { name := jstr "java.lang.Void" }

instance : HashCode Field := ⟨fun f => stringHash f.declaringClass.name ^^^ stringHash f.name⟩

instance : HashCode Method := ⟨fun m => stringHash m.declaringClass.name ^^^ stringHash m.name⟩

/-- What reflection answers about the loaded classes. -/
structure Reflection where
  getDeclaredFields : Class → List Field := fun _ => []
  /-- the public methods, inherited ones included -/
  getMethods : Class → List Method := fun _ => []
  getDeclaredMethods : Class → List Method := fun _ => []
  getInterfaces : Class → List Class := fun _ => []
  getSuperclass : Class → Option Class := fun _ => none
  isInterface : Class → Bool := fun _ => false
  isArray : Class → Bool := fun _ => false
  isProxyClass : Class → Bool := fun _ => false
  /-- `to.isAssignableFrom(c)` -/
  isAssignableFrom : Class → Class → Bool := fun c d => c == d

/-- An object a `Memoize` key is built from. -/
inductive Obj
  | string (s : JString)
  | field (f : Field)
  | method (m : Method)
  deriving DecidableEq

instance : HashCode Obj where
  hashCode
    | .string s => hashCode s
    | .field f => hashCode f
    | .method m => hashCode m

end JSEngine.Members
