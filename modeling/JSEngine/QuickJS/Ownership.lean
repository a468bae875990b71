import JSEngine.Common.Ownership

/-!
# What `QuickJSContext` owns

Model of the entry points and proxy traps of `QuickJSContext`
(`QuickJSContext.cpp` lines 250–364, 376–532 and 534–855, `QuickJSContext.h`
lines 23–103) by what they come to own: values, atoms, buffers of `js_malloc`
and local references of JNI. A value or atom is *counted* if it is under a
reference count: numbers, `undefined`, exceptions, small integer atoms and
predefined atoms are not, and freeing them does nothing.

The functions are written over `Own`, with the holders of the source as scopes
and an API that takes ownership as `consume`. What they ask about a value or a
result is an argument; so is whether a conversion to text succeeds, as
`toStdString` of a null pointer ends the process. Assertions are those of release
builds. C strings and the characters of Java strings are not counted.
-/

namespace JSEngine.QuickJS.Ownership

open JSEngine.Common JSEngine.Common.Own

/-- What can be owned. -/
inductive Resource
  | value
  | atom
  /-- memory of `js_malloc` -/
  | buffer
  /-- a JNI local reference -/
  | local
  deriving DecidableEq

/-- A piece of the bridge. -/
abbrev Q := Own Resource

/-- A value that is owned, or one that is not counted. -/
abbrev JSValue := Option ℕ

/-- A local reference, or null. -/
abbrev jobject := Option ℕ

/-- `JSValueHolder` (lines 62–101 of the header). -/
abbrev JSValueHolder {α : Type} (m : Q JSValue) (body : JSValue → Q α) : Q α := hold .value m body

/-- `LocalRefHolder` (lines 23–59 of the header). -/
abbrev LocalRefHolder {α : Type} (m : Q jobject) (body : jobject → Q α) : Q α := hold .local m body

/-- A call of the engine that returns a value for the caller to free. -/
abbrev newValue (counted : Bool) : Q JSValue := fresh .value counted

/-- A call of JNI that returns a local reference, or null. -/
abbrev newLocal (present : Bool) : Q jobject := fresh .local present

/-- An API call that takes the value over: `JS_SetProperty`, `JS_Throw`. -/
abbrev consume (v : JSValue) : Q Unit := free .value v

/-! ## Java values to script -/

/-- What `toObject(jobject)` asks about a Java value. `made` says that the engine
    could make the value, `found` that the object has a native pointer here. -/
inductive JavaView
  | null
  /-- `Boolean`, `Integer`, `Long`, `Double` -/
  | scalar
  | string (made : Bool)
  /-- a direct byte buffer -/
  | buffer (made : Bool)
  /-- a direct byte buffer that stands for a `JavaScriptObject` -/
  | mappedBuffer (found : Bool)
  | json (made : Bool)
  | javaScriptObject (found : Bool)
  | quackObject
  | other
  deriving DecidableEq

/-- `JS_IsException` of the result. -/
def JavaView.fails : JavaView → Bool
  | .string made | .buffer made | .json made => !made
  | _ => false

/-- The proxy for a Java object (lines 360–363). -/
def newProxy : Q JSValue := newValue true

/-- `toValueAsLocal` (lines 10–13); the twin holds a counted value. -/
def toValueAsLocal {α : Type} (body : JSValue → Q α) : Q α := JSValueHolder (newValue true) body

/-- The branch for a `JavaScriptObject` (lines 341–349). -/
def unwrapTwin (found : Bool) : Q JSValue :=
  if found then
    -- `JS_DupValue`
    toValueAsLocal fun _ => newValue true
  else newProxy

/-- `tempHolder = LocalRefHolder(env, nativeValue)` (line 315): the operator makes a
    reference of its own. -/
def assignHolder : Q jobject := LocalRefHolder (newLocal true) fun _ => newLocal true

/-- `toObject` of a Java value (lines 290–364). -/
def toObject_jobject : JavaView → Q JSValue
  | .null => return none
  | .scalar => LocalRefHolder (newLocal true) fun _ => return none
  | .string made => LocalRefHolder (newLocal true) fun _ => newValue made
  | .buffer made => LocalRefHolder (newLocal true) fun _ =>
    JSValueHolder (newValue true) fun _ => newValue made
  | .mappedBuffer found => LocalRefHolder (newLocal true) fun _ =>
    LocalRefHolder assignHolder fun _ => do
      -- `clazz = env->GetObjectClass(value)`
      let _clazz ← acquire .local
      unwrapTwin found
  | .json made => LocalRefHolder (newLocal true) fun _ => do
    let _json ← acquire .local
    newValue made
  | .javaScriptObject found => LocalRefHolder (newLocal true) fun _ => unwrapTwin found
  | .quackObject => LocalRefHolder (newLocal true) fun _ => newProxy
  | .other => LocalRefHolder (newLocal true) fun _ => do
    -- `value = env->NewObject(javaObjectClass, …)`
    let _value ← acquire .local
    newProxy

/-! ## Script values to Java -/

/-- The prototype of a value, as the branches for buffers tell it apart. -/
inductive Prototype
  | other (counted : Bool)
  | arrayBuffer
  /-- and whether its `ArrayBuffer` is a counted value -/
  | uint8Array (buffer : Bool)
  deriving DecidableEq

def Prototype.counted : Prototype → Bool
  | .other counted => counted
  | _ => true

/-- What `JS_GetProperty` finds under `atomHoldsJavaObject`. -/
inductive Unboxed
  /-- nothing, so a holder is made -/
  | absent (prototype : Prototype)
  /-- a proxy for a Java object answers with a local reference as a number -/
  | javaObject
  /-- a trap of the script answers; a number other than 0 is no reference -/
  | forged (counted zero : Bool)
  deriving DecidableEq

/-- What `toObject` finds under `customFinalizerAtom`. -/
inductive Twin
  /-- nothing, or not a property of its own -/
  | absent (counted : Bool) (unboxed : Unboxed)
  /-- `JS_GetOwnProperty` raises -/
  | failed (counted : Bool)
  /-- a value without `CustomFinalizerData`: its field is read through null -/
  | noData (counted : Bool)
  | alive (isBuffer : Bool)
  | collected (prototype : Prototype)
  | untracked (prototype : Prototype)
  deriving DecidableEq

def Twin.counted : Twin → Bool
  | .absent counted _ | .failed counted | .noData counted => counted
  | _ => true

/-- What `toObject(JSValue)` asks about a script value. -/
inductive ScriptView
  | nullish
  /-- boolean or number; a big integer is counted -/
  | scalar (counted : Bool)
  | string
  /-- `JS_EXCEPTION`, and whether the value that was thrown is counted -/
  | exception (thrown : Bool)
  | object (twin : Twin)
  deriving DecidableEq

def ScriptView.counted : ScriptView → Bool
  | .nullish | .exception _ => false
  | .scalar counted => counted
  | .string | .object _ => true

def ScriptView.isException : ScriptView → Bool
  | .exception _ => true
  | _ => false

/-- The byte buffer for an array (lines 478–505), in place of the new
    `JavaScriptObject`. -/
def mapNative (prototype : Prototype) (javaThis : ℕ) : Q ℕ :=
  match prototype with
  | .other _ => return javaThis
  | .arrayBuffer => acquire .local
  | .uint8Array buffer => JSValueHolder (newValue buffer) fun _ => acquire .local

/-- `stash[ptr] = hold(twin)` (line 518): the stash makes a reference of its own,
    the temporary gives its own up. -/
def stashTwin (twin : ℕ) : Q Unit := do
  let copy ← newValue true
  consume copy
  release .value twin

/-- `JS_SetProperty(…, JS_DupValue(ctx, value))` (line 521). -/
def setTwinValue : Q Unit := do
  let copy ← newValue true
  consume copy

/-- A new holder for a script object (lines 463–523). -/
def newHolder (prototype : Prototype) : Q jobject := do
  let twin ← acquire .value
  let javaThis ← acquire .local
  JSValueHolder (newValue prototype.counted) fun _ => do
    let javaThis ← mapNative prototype javaThis
    stashTwin twin
    setTwinValue
    return some javaThis

/-- The branch for an object without a twin (lines 439–447). -/
def unbox : Unboxed → Q jobject
  | .absent prototype => newHolder prototype
  | .javaObject => do
    -- the number that `quickjs_get` made of a new local reference
    let _javaPtr ← acquire .local
    newLocal true
  | .forged counted zero => do
    let _javaValue ← newValue counted
    if zero then return none else crash

/-- The object branch of `toObject` (lines 409–523). -/
def toObject_object (twin : Twin) : Q jobject :=
  JSValueHolder (newValue twin.counted) fun _ =>
    match twin with
    | .absent _ unboxed => unbox unboxed
    | .failed _ => return none
    | .noData _ => crash
    | .alive isBuffer => do
      let localJavaThis ← newLocal true
      LocalRefHolder (newLocal isBuffer) fun _ => return localJavaThis
    | .collected prototype | .untracked prototype => newHolder prototype

/-- `toObject` of a script value (lines 377–524). -/
def toObject_JSValue : ScriptView → Q jobject
  | .nullish => return none
  | .scalar _ | .string => newLocal true
  | .exception thrown => do
    let _exception ← newValue thrown
    return none
  | .object twin => toObject_object twin

/-! ## Errors -/

/-- The outcome of `JS_ToString`, or a value that is turned into text. -/
inductive Text
  | nullish
  | converts (counted : Bool)
  | fails (counted : Bool)
  deriving DecidableEq

def Text.counted : Text → Bool
  | .nullish => false
  | .converts counted | .fails counted => counted

/-- `toStdString` (lines 257–262). -/
def toStdString : Text → Q Unit
  | .fails _ => crash
  | _ => return ()

/-- What `rethrowQuickJSErrorToJava` asks about the thrown value. -/
inductive ErrorView
  | notError (message : Text)
  /-- an error that carries a Java exception -/
  | java (exception : ScriptView) (stack : Text)
  | plain (message stack : Text)
  deriving DecidableEq

/-- `rethrowQuickJSErrorToJava` (lines 775–818). -/
def rethrowQuickJSErrorToJava : ErrorView → Q Unit
  | .notError message => JSValueHolder (newValue message.counted) fun _ => toStdString message
  | .java exception stack =>
    JSValueHolder (newValue exception.counted) fun _ =>
      JSValueHolder (newValue stack.counted) fun _ => do
        let unwrappedException ← toObject_JSValue exception
        match unwrappedException with
        -- a method is called on null
        | none => crash
        | some _ => do
          let ex ← newLocal true
          let _text ← acquire .local
          free .local ex
  | .plain message stack =>
    JSValueHolder (newValue message.counted) fun _ =>
      JSValueHolder (newValue stack.counted) fun _ => do
        toStdString message
        toStdString stack

/-- The outcome of a call of the engine: a value or `JS_EXCEPTION`, and what the
    pending error looks like then. -/
structure Result where
  value : ScriptView
  error : ErrorView := .notError .nullish
  deriving DecidableEq

/-- `toObjectCheckQuickJSError` (lines 526–532). -/
def toObjectCheckQuickJSError (r : Result) : Q jobject :=
  match r.value with
  | .exception thrown => JSValueHolder (newValue thrown) fun _ => do
    rethrowQuickJSErrorToJava r.error
    return none
  | value => toObject_JSValue value

/-- `checkQuickJSErrorAndThrow` (lines 765–773) of a call that raised `thrown`. -/
def checkQuickJSErrorAndThrow : Option (Bool × ErrorView) → Q Unit
  | none => return ()
  | some (thrown, error) => JSValueHolder (newValue thrown) fun _ =>
    rethrowQuickJSErrorToJava error

/-! ## Entry points -/

/-- `evaluateInternal` (lines 534–551) of a script. -/
def evaluate (r : Result) : Q jobject := do
  let _mem ← acquire .buffer
  JSValueHolder (newValue r.value.counted) fun _ => toObjectCheckQuickJSError r

/-- `evaluateInternal` of a module, which compiles or does not. -/
def evaluateModule (compiles : Bool) (r : Result) : Q jobject := do
  let _mem ← acquire .buffer
  if compiles then do
    let module ← newValue true
    -- `JS_EvalFunction`
    consume module
    let _result ← newValue r.value.counted
    toObjectCheckQuickJSError r
  else toObjectCheckQuickJSError r

/-- `compile` (lines 553–560). -/
def compile (r : Result) : Q jobject :=
  JSValueHolder (newValue r.value.counted) fun _ => toObjectCheckQuickJSError r

/-- `getGlobalObject` (lines 562–564). -/
def getGlobalObject (global : ScriptView) : Q jobject :=
  JSValueHolder (newValue global.counted) fun _ => toObject_JSValue global

/-- `freeValues` (lines 566–570). -/
def freeValues (valueArgs : List JSValue) : Q Unit := valueArgs.forM (free .value)

/-- The loop of `callArgs` (lines 572–591); `none` for `false`. -/
def callArgs (valueArgs : List JSValue) : List JavaView → Q (Option (List JSValue))
  | [] => return some valueArgs
  | arg :: args => do
    let argValue ← LocalRefHolder (newLocal (arg ≠ .null)) fun _ => toObject_jobject arg
    if arg.fails then do
      -- `rethrowQuickJSErrorToJava(env, JS_EXCEPTION)`
      rethrowQuickJSErrorToJava (.notError (.fails false))
      freeValues (valueArgs ++ [argValue])
      return none
    else callArgs (valueArgs ++ [argValue]) args

/-- `callInternal` (lines 593–602). -/
def callInternal (args : List JavaView) (r : Result) : Q jobject := do
  let valueArgs ← callArgs [] args
  match valueArgs with
  | none => return none
  | some valueArgs => JSValueHolder (newValue r.value.counted) fun _ => do
    freeValues valueArgs
    toObjectCheckQuickJSError r

/-- `callConstructor` (lines 604–615), which has the body of `callInternal`. -/
def callConstructor (args : List JavaView) (r : Result) : Q jobject :=
  toValueAsLocal fun _ => callInternal args r

/-- `call` (lines 617–621). -/
def call (args : List JavaView) (r : Result) : Q jobject :=
  JSValueHolder (newValue true) fun _ => toValueAsLocal fun _ => callInternal args r

/-- `callProperty` (lines 623–631); `atom` and `func` say whether the atom of the
    key and the function are counted. -/
def callProperty (property : JavaView) (atom func : Bool) (args : List JavaView) (r : Result) :
    Q jobject :=
  toValueAsLocal fun _ => JSValueHolder (toObject_jobject property) fun _ => do
    let propertyAtom ← fresh .atom atom
    JSValueHolder (newValue func) fun _ => do
      free .atom propertyAtom
      callInternal args r

/-- `callMethod` (lines 633–637). -/
def callMethod (object : JavaView) (args : List JavaView) (r : Result) : Q jobject :=
  JSValueHolder (toObject_jobject object) fun _ => toValueAsLocal fun _ => callInternal args r

/-- `getKeyString` and `getKeyInteger` (lines 639–645). -/
def getKey (r : Result) : Q jobject :=
  toValueAsLocal fun _ => JSValueHolder (newValue r.value.counted) fun _ =>
    toObjectCheckQuickJSError r

/-- `getKeyObject` (lines 647–654). -/
def getKeyObject (key : JavaView) (atom : Bool) (r : Result) : Q jobject :=
  toValueAsLocal fun _ => JSValueHolder (toObject_jobject key) fun _ => do
    let propertyAtom ← fresh .atom atom
    let ret ← JSValueHolder (newValue r.value.counted) fun _ => toObjectCheckQuickJSError r
    free .atom propertyAtom
    return ret

/-- `setKeyString` and `setKeyInteger` (lines 656–666). -/
def setKey (value : JavaView) (outcome : Option (Bool × ErrorView)) : Q Unit :=
  toValueAsLocal fun _ => JSValueHolder (toObject_jobject value) fun set => do
    -- `JS_DupValue(ctx, set)`
    let copy ← newValue set.isSome
    consume copy
    checkQuickJSErrorAndThrow outcome

/-- `setKeyInternal` and `setKeyObject` (lines 668–677). -/
def setKeyObject (key value : JavaView) (atom : Bool) (outcome : Option (Bool × ErrorView)) :
    Q Unit :=
  toValueAsLocal fun _ => JSValueHolder (toObject_jobject value) fun set =>
    JSValueHolder (toObject_jobject key) fun _ => do
      let _propertyAtom ← fresh .atom atom
      let copy ← newValue set.isSome
      consume copy
      checkQuickJSErrorAndThrow outcome

/-- What `JS_JSONStringify` returns. -/
inductive JSONText
  | string
  | undefined
  | exception
  deriving DecidableEq

/-- `stringify` (lines 250–255 and 274–276). -/
def stringify (text : JSONText) : Q jobject :=
  toValueAsLocal fun _ => do
    let _text ← newValue (text = .string)
    newLocal (text ≠ .exception)

/-! ## Traps -/

/-- A Java exception in a trap: whether it has a text, whether an error could be
    made for it, the stack of the error, what `addJavaStack` returns, and the
    exception as a value. -/
structure JavaThrown where
  message : Bool
  error : Bool
  stack : Text
  merged : JavaView
  exception : JavaView
  deriving DecidableEq

/-- The error for a Java exception (lines 824–853). -/
def throwJavaException (t : JavaThrown) : Q Unit := do
  let _e ← acquire .local
  LocalRefHolder (newLocal t.message) fun _ => do
    let error ← newValue t.error
    JSValueHolder (newValue t.stack.counted) fun _ => do
      toStdString t.stack
      let _text ← acquire .local
      LocalRefHolder (newLocal (t.merged ≠ .null)) fun _ => do
        let newStackValue ← toObject_jobject t.merged
        -- the characters of a null string
        if t.message then do
          let newMessage ← newValue true
          consume newStackValue
          consume newMessage
          let value ← toObject_jobject t.exception
          consume value
          -- `JS_Throw`
          consume error
        else crash

/-- `rethrowJavaExceptionToQuickJS` (lines 820–855). -/
def rethrowJavaExceptionToQuickJS : Option JavaThrown → Q Bool
  | none => return false
  | some t => do
    throwJavaException t
    return true

/-- The property key of a trap. -/
inductive Key
  | customFinalizer
  | javaObject
  | other (key : ScriptView)
  deriving DecidableEq

/-- What a function hands on: a value, or a local reference; `quickjs_get` makes a
    number of one. -/
inductive Handed
  | value (v : JSValue)
  | reference (n : jobject)

/-- `quickjs_has` (lines 679–692). -/
def quickjs_has (key : Key) (thrown : Option JavaThrown) : Q Unit :=
  match key with
  | .customFinalizer | .javaObject => return ()
  | .other key => JSValueHolder (newValue key.counted) fun _ =>
    LocalRefHolder (toObject_JSValue key) fun _ => do
      let _ ← rethrowJavaExceptionToQuickJS thrown
      return ()

/-- The end of a trap that returns a value: the exception or the result. -/
def finishTrap (thrown : Option JavaThrown) (result : JavaView) : Q Handed := do
  if ← rethrowJavaExceptionToQuickJS thrown then return .value none
  else do
    let v ← toObject_jobject result
    return .value v

/-- `quickjs_get` (lines 693–709). -/
def quickjs_get (key : Key) (thrown : Option JavaThrown) (result : JavaView) : Q Handed :=
  match key with
  | .customFinalizer => return .value none
  | .javaObject => do
    let n ← newLocal true
    return .reference n
  | .other key => JSValueHolder (newValue key.counted) fun _ =>
    LocalRefHolder (toObject_JSValue key) fun _ =>
      LocalRefHolder (newLocal (thrown = none ∧ result ≠ .null)) fun _ => finishTrap thrown result

/-- `quickjs_set` (lines 710–726). -/
def quickjs_set (key : Key) (value : ScriptView) (thrown : Option JavaThrown) : Q Unit :=
  match key with
  | .customFinalizer | .javaObject => return ()
  | .other key => JSValueHolder (newValue key.counted) fun _ =>
    LocalRefHolder (toObject_JSValue key) fun _ =>
      LocalRefHolder (toObject_JSValue value) fun _ => do
        let _ ← rethrowJavaExceptionToQuickJS thrown
        return ()

/-- The loop over the arguments in `quickjs_apply` and `quickjs_construct`. -/
def unpackArguments (argv : List ScriptView) : Q Unit :=
  argv.forM fun arg => LocalRefHolder (toObject_JSValue arg) fun _ => return ()

/-- `quickjs_apply` (lines 727–744). -/
def quickjs_apply (this_val : ScriptView) (argv : List ScriptView) (thrown : Option JavaThrown)
    (result : JavaView) : Q Handed := do
  let javaArgs ← newLocal true
  unpackArguments argv
  LocalRefHolder (toObject_JSValue this_val) fun _ =>
    LocalRefHolder (newLocal (thrown = none ∧ result ≠ .null)) fun _ => do
      free .local javaArgs
      finishTrap thrown result

/-- `quickjs_construct` (lines 745–763): the new object is a `JavaObject`. -/
def quickjs_construct (func_obj : ScriptView) (argv : List ScriptView)
    (thrown : Option JavaThrown) (result : Bool) : Q Handed := do
  let javaArgs ← newLocal true
  unpackArguments argv
  LocalRefHolder (toObject_JSValue func_obj) fun _ =>
    LocalRefHolder (newLocal (thrown = none ∧ result)) fun _ => do
      free .local javaArgs
      if ← rethrowJavaExceptionToQuickJS thrown then return .value none
      else LocalRefHolder (newLocal true) fun _ => do
        let v ← toObject_jobject .quackObject
        return .value v

end JSEngine.QuickJS.Ownership
