import JSEngine.Members.Reflect
import JSEngine.Memo.Memoize

/-!
# Member resolution on Java objects

Model of `JavaObject.get(String)` and `JavaObject.set(String, Object)`: which
field, accessor or method a property name stands for. The four memos are static
fields of `JSEngineContext`, shared by all targets and contexts.

The memo of `findField` and that of the has-a-method answer are keyed by the
name and the members of `target.getClass()`. Both searches go on to the members
of `target` itself where `target` is a `Class`, which the key leaves out.

* `searchField`, `searchGetter`, `searchSetter`, `searchMethod`: the searches.
* `resolve`: one call, on the state of the memos.
-/

namespace JSEngine.Members

open JSEngine.Java JSEngine.Memo JSEngine.Common

/-- What a `JavaObject` stands for: `target instanceof Class` or another object. -/
inductive Referent
  | object (clazz : Class)
  | clazz (c : Class)
  deriving DecidableEq

/-- `JavaObject.target` at the time of a call. -/
structure Target (V : Type*) where
  referent : Referent
  /-- `coerceJavaToJavaScript(((Map)target).get(key))`, where the target is a
      `Map` -/
  map : Option (JString → JRef V) := none

variable {V : Type*} (w : Reflection)

/-- `target.getClass()`. -/
def Target.getClass (t : Target V) : Class :=
  match t.referent with
  | .object clazz => clazz
  | .clazz _ => Class.class

/-- `(Class)target`, where `target instanceof Class`. -/
def Target.asClass (t : Target V) : Option Class :=
  match t.referent with
  | .object _ => none
  | .clazz c => some c

/-- `getMap` (lines 172–176). -/
def Target.getMap (t : Target V) (key : JString) : JRef V := t.map.bind fun get => get key

/-! ## The searches -/

/-- The first loop of `findField` (lines 101–104). -/
def instanceField (key : JString) (clazz : Class) : JRef Field :=
  (w.getDeclaredFields clazz).find? fun field =>
    field.name == key && !field.isStatic && field.isPublic

/-- The second loop of `findField` (lines 106–111). -/
def staticField (key : JString) (t : Target V) : JRef Field :=
  t.asClass.bind fun c => (w.getDeclaredFields c).find? fun field =>
    field.name == key && field.isStatic && field.isPublic

/-- The function `findField` memoises. -/
def searchField (key : JString) (t : Target V) : JRef Field :=
  (instanceField w key t.getClass).or (staticField w key t)

/-- `hasMethod` (lines 84–96). -/
def hasMethod (clazz : Class) (key : JString) (requiresStatic : Bool) : Bool :=
  (w.getMethods clazz).any fun method =>
    !(requiresStatic && !method.isStatic) &&
      (method.name == key || method.methodName == some key)

/-- The second search for a method (lines 153–154): the static methods of the
    class that the target is. -/
def hasStaticMethod (key : JString) (t : Target V) : Bool :=
  t.asClass.any fun c => hasMethod w c key true

/-- The function `get` memoises for the has-a-method answer (lines 150–156). -/
def searchMethod (key : JString) (t : Target V) : Bool :=
  hasMethod w t.getClass key false || hasStaticMethod w key t

/-- The name under which an accessor method is a property (lines 49–54). -/
def Method.propName (method : Method) : Option JString :=
  method.property.map fun name => if name.isEmpty then method.name else name

/-- The search of `getGetterMethod` (lines 42–58). -/
def searchGetter (key : JString) (methods : List Method) : JRef Method :=
  methods.find? fun method =>
    method.parameterTypes.length == 0 &&
      !(method.returnType == Class.void || method.returnType == Class.Void) &&
      method.propName == some key

/-- The search of `getSetterMethod` (lines 64–80). -/
def searchSetter (key : JString) (methods : List Method) : JRef Method :=
  methods.find? fun method =>
    method.parameterTypes.length == 1 &&
      (method.returnType == Class.void || method.returnType == Class.Void) &&
      method.propName == some key

/-! ## The memos -/

/-- The static memos of `JSEngineContext` (lines 302–305). -/
structure Stores where
  javaObjectFields : Store Field := ⟨[]⟩
  javaObjectMethods : Store Bool := ⟨[]⟩
  javaObjectGetter : Store Method := ⟨[]⟩
  javaObjectSetter : Store Method := ⟨[]⟩

/-- The arguments `key, clazz.getDeclaredFields()`. -/
def fieldArgs (key : JString) (clazz : Class) : Args Obj :=
  .withArray (some (.string key)) ((w.getDeclaredFields clazz).map fun f => some (.field f))

/-- The arguments `key, clazz.getMethods()`. -/
def methodArgs (key : JString) (clazz : Class) : Args Obj :=
  .withArray (some (.string key)) ((w.getMethods clazz).map fun m => some (.method m))

/-- `findField` (lines 98–115). -/
def findField (s : Stores) (key : JString) (t : Target V) : JRef Field × Stores :=
  let r := memoizeHash s.javaObjectFields (searchField w key t) (fieldArgs w key t.getClass).hash
  (r.1, { s with javaObjectFields := r.2 })

/-- `getGetterMethod` (lines 40–60). -/
def getGetterMethod (s : Stores) (key : JString) (clazz : Class) : JRef Method × Stores :=
  let r := memoizeHash s.javaObjectGetter (searchGetter key (w.getMethods clazz))
    (methodArgs w key clazz).hash
  (r.1, { s with javaObjectGetter := r.2 })

/-- `getSetterMethod` (lines 62–82). -/
def getSetterMethod (s : Stores) (key : JString) (clazz : Class) : JRef Method × Stores :=
  let r := memoizeHash s.javaObjectSetter (searchSetter key (w.getMethods clazz))
    (methodArgs w key clazz).hash
  (r.1, { s with javaObjectSetter := r.2 })

/-- The memoised has-a-method answer of `get` (lines 150–156). -/
def memoHasMethod (s : Stores) (key : JString) (t : Target V) : JRef Bool × Stores :=
  let r := memoizeHash s.javaObjectMethods (some (searchMethod w key t))
    (methodArgs w key t.getClass).hash
  (r.1, { s with javaObjectMethods := r.2 })

/-! ## `get` and `set` -/

/-- What a property access comes down to. -/
inductive Access (V : Type*)
  /-- the coerced value of the map entry -/
  | value (v : V)
  /-- `Array.getLength(target)` -/
  | length
  /-- a read or a write of the field -/
  | field (f : Field)
  /-- a call of the getter or setter -/
  | accessor (m : Method)
  /-- `new JavaMethodObject(jsEngineContext, target, key)` -/
  | methodObject (key : JString)
  /-- null, undefined in script -/
  | null
  /-- `((Map)target).put(key, value)` -/
  | putMap
  /-- a Java exception -/
  | thrown (e : Throwable)

/-- An access, with the answers `findField` and the has-a-method memo gave on
    the way, where they were asked. -/
structure Resolution (V : Type*) where
  access : Access V
  field : Option (JRef Field) := none
  method : Option (JRef Bool) := none

/-- `get(String)` from the getter on (lines 140–161). -/
def getMember (s : Stores) (key : JString) (t : Target V) (field : Option (JRef Field)) :
    Resolution V × Stores :=
  let g := getGetterMethod w s key t.getClass
  match g.1 with
  | some m => ({ access := .accessor m, field }, g.2)
  | none =>
    let m := memoHasMethod w g.2 key t
    match m.1 with
    | some true => ({ access := .methodObject key, field, method := some m.1 }, m.2)
    | some false => ({ access := .null, field, method := some m.1 }, m.2)
    -- unboxing; the memoised function never returns null
    | none =>
      ({ access := .thrown ⟨"java.lang.NullPointerException", ""⟩, field, method := some m.1 }, m.2)

/-- The test for the `length` of an array (line 126). -/
def isArrayLength (key : JString) (t : Target V) : Bool :=
  w.isArray t.getClass && key == jstr "length"

/-- `get(String)` (lines 117–162). -/
def get (s : Stores) (key : JString) (t : Target V) : Resolution V × Stores :=
  match t.getMap key with
  | some v => ({ access := .value v }, s)
  | none =>
    if w.isProxyClass t.getClass then getMember w s key t none
    else if isArrayLength w key t then ({ access := .length }, s)
    else
      let f := findField w s key t
      match f.1 with
      | some field => ({ access := .field field, field := some f.1 }, f.2)
      | none => getMember w f.2 key t (some f.1)

/-- `putMap` and `noSet` (lines 210–217, 192–194). -/
def putMap (t : Target V) : Access V :=
  if t.map.isSome then .putMap
  else .thrown ⟨"java.lang.UnsupportedOperationException", "can not set value on this JavaObject"⟩

/-- `set(String, Object)` (lines 219–244). -/
def set (s : Stores) (key : JString) (t : Target V) : Resolution V × Stores :=
  let f := findField w s key t
  match f.1 with
  | some field => ({ access := .field field, field := some f.1 }, f.2)
  | none =>
    let m := getSetterMethod w f.2 key t.getClass
    match m.1 with
    | some m' => ({ access := .accessor m', field := some f.1 }, m.2)
    | none => ({ access := putMap t, field := some f.1 }, m.2)

/-- A call of `get(String)` or `set(String, Object)`. -/
inductive Call (V : Type*)
  | get (key : JString) (target : Target V)
  | set (key : JString) (target : Target V)

def Call.key : Call V → JString
  | .get key _ | .set key _ => key

def Call.target : Call V → Target V
  | .get _ t | .set _ t => t

def resolve (s : Stores) : Call V → Resolution V × Stores
  | .get key t => get w s key t
  | .set key t => set w s key t

/-- A sequence of calls, in any contexts. -/
def resolveAll : Stores → List (Call V) → List (Call V × Resolution V)
  | _, [] => []
  | s, c :: cs => (c, (resolve w s c).1) :: resolveAll (resolve w s c).2 cs

end JSEngine.Members
