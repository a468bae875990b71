import JSEngine.Common.FloatingPoint
import JSEngine.Scalars.Defaults
import JSEngine.Scalars.Strings

/-!
# Number keys of a `JavaScriptObject`

Model of `JavaScriptObject.get` and `set` with a number or an `int` as the key
(`JavaScriptObject.java` lines 74–76 and 94–130), the coercion of the key by a new
`JSEngineContext`, and the `getKeyInteger`, `getKeyObject`, `setKeyInteger` and
`setKeyObject` of both engines, down to the name of the property that is read or
written. The object is one of data properties by name.

How script and Java write a number that is no integer is a parameter, `Texts`.
A number that an engine does not take as one is boxed; the name is then what
script makes of the `JavaObject` (`QuickJS.JS_ToPrimitiveFree`, Duktape's
`duk__to_primitive_helper`).
-/

namespace JSEngine.Keys

open JSEngine.Java JSEngine.Common JSEngine.Scalars

/-! ## Numbers -/

/-- The boxed numbers. -/
inductive JavaNumber
  | byte (n : BitVec 8)
  | short (n : BitVec 16)
  | integer (n : BitVec 32)
  | long (n : BitVec 64)
  | float (x : Datum binary32)
  | double (x : Datum binary64)
  deriving DecidableEq

def minInt : ℤ := -2 ^ 31

def maxInt : ℤ := 2 ^ 31 - 1

namespace JavaNumber

/-- `Number.intValue()`. -/
def intValue : JavaNumber → BitVec 32
  | byte n => n.signExtend 32
  | short n => n.signExtend 32
  | integer n => n
  | long n => n.setWidth 32
  | float x => BitVec.ofInt 32 (x.truncate minInt maxInt)
  | double x => BitVec.ofInt 32 (x.truncate minInt maxInt)

/-- `Number.doubleValue()`; this is the number as one of script, too. -/
def doubleValue : JavaNumber → Datum binary64
  | byte n => .ofInt binary64 n.toInt
  | short n => .ofInt binary64 n.toInt
  | integer n => .ofInt binary64 n.toInt
  | long n => .ofInt binary64 n.toInt
  | float x => x.widen Format.binary32_le_binary64
  | double x => x

/-- `equals` of an `Integer` and a number: the classes have to be the same. -/
def equalsInteger (i : BitVec 32) : JavaNumber → Bool
  | integer n => i == n
  | _ => false

end JavaNumber

/-- How numbers are written: `Number::toString` of script, `Float.toString` and
    `Double.toString` of Java. Script writes the integers up to `2 ^ 53` in decimal. -/
structure Texts where
  number : Datum binary64 → JString
  float : Datum binary32 → JString
  double : Datum binary64 → JString
  number_int : ∀ x (n : ℤ), x.value? = some (n : ℚ) → n.natAbs ≤ 2 ^ 53 → number x = decimal n

variable (T : Texts)

/-- `toString()` of a boxed number. -/
def JavaNumber.toString : JavaNumber → JString
  | byte n => decimal n.toInt
  | short n => decimal n.toInt
  | integer n => decimal n.toInt
  | long n => decimal n.toInt
  | float x => T.float x
  | double x => T.double x

/-! ## Keys in the engines -/

/-- What reaches an engine as a key. -/
inductive Key
  | number (k : JavaNumber)
  | string (s : JString)
  deriving DecidableEq

/-- `coerceJavaToJavaScript` of a number (lines 469–494 of the context). -/
def coerceJavaToJavaScript (engine : Engine) : JavaNumber → Key
  | .byte n => .number (.integer (n.signExtend 32))
  | .short n => .number (.integer (n.signExtend 32))
  | .float x => .number (.double (x.widen Format.binary32_le_binary64))
  | .long n =>
    match engine with
    | .quickJS => .number (.long n)
    | .duktape => .string (decimal n.toInt)
  | k => .number k

/-- The classes that an engine turns into numbers: `toObject` of QuickJS, the type
    map of Duktape. -/
def isScalar : Engine → JavaNumber → Bool
  | _, .integer _ | _, .double _ => true
  | .quickJS, .long _ => true
  | _, _ => false

/-- The properties that script asks an object for to make it a primitive. -/
inductive Coercer
  | toPrimitive | toString | valueOf

/-- `proxyGet` of a boxed number: it is no map, and its class has methods of the two
    names. -/
def proxyGet : Coercer → Option Coercer
  | .toPrimitive => none
  | .toString => some .toString
  | .valueOf => some .valueOf

/-- `JavaMethodObject.callMethod` without arguments; the class has no `valueOf`
    without parameters. -/
def callMethod (k : JavaNumber) : Coercer → Option JString
  | .toString => some (k.toString T)
  | _ => none

/-- The primitive for a boxed number, where a string is preferred. -/
def toPrimitive (k : JavaNumber) : Option JString :=
  match proxyGet .toPrimitive with
  | some method => callMethod T k method
  | none =>
    match proxyGet .toString with
    | some method => callMethod T k method
    | none => (proxyGet .valueOf).bind (callMethod T k)

/-- `JS_ValueToAtom`, or `duk_to_property_key`, of the key as a value of script;
    `none` if that raises. -/
def propertyKey (engine : Engine) : Key → Option JString
  | .string s => some s
  | .number k => if isScalar engine k then some (T.number k.doubleValue) else toPrimitive T k

/-- The property names of an ordinary object with the values. -/
abbrev Properties (α : Type) := JString → Option α

variable {α : Type}

/-- `getKeyInteger`: the index is cast to `uint32_t`. -/
def getKeyInteger (o : Properties α) (index : BitVec 32) : Option α :=
  o (T.number (.ofInt binary64 index.toNat))

/-- `setKeyInteger`. -/
def setKeyInteger (o : Properties α) (index : BitVec 32) (v : α) : Properties α :=
  Function.update o (T.number (.ofInt binary64 index.toNat)) (some v)

/-- `getKeyObject`. -/
def getKeyObject (engine : Engine) (o : Properties α) (key : Key) : Option α :=
  (propertyKey T engine key).bind o

/-- `setKeyObject`. -/
def setKeyObject (engine : Engine) (o : Properties α) (key : Key) (v : α) : Properties α :=
  match propertyKey T engine key with
  | none => o
  | some name => Function.update o name (some v)

/-! ## `JavaScriptObject` -/

/-- `get(int)` (lines 74–76). -/
def getIndex (o : Properties α) (index : BitVec 32) : Option α := getKeyInteger T o index

/-- `set(int, Object)` (lines 112–114). -/
def setIndex (o : Properties α) (index : BitVec 32) (v : α) : Properties α :=
  setKeyInteger T o index v

/-- `get(Object)` of a number (lines 94–106). -/
def get (engine : Engine) (o : Properties α) (key : JavaNumber) : Option α :=
  if key.equalsInteger key.intValue then getIndex T o key.intValue
  else getKeyObject T engine o (coerceJavaToJavaScript engine key)

/-- `set(Object, Object)` of a number (lines 116–130); the key is not coerced. -/
def set (engine : Engine) (o : Properties α) (key : JavaNumber) (v : α) : Properties α :=
  if key.doubleValue.eq (.ofInt binary64 key.intValue.toInt) then setIndex T o key.intValue v
  else setKeyObject T engine o (.number key) v

end JSEngine.Keys
