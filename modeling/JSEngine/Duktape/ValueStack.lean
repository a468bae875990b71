import JSEngine.Common.Effect
import Mathlib.Tactic

/-!
# The value stack of Duktape

Model of the pushes and pops of the operations of `DuktapeContext` that Java
calls (`DuktapeContext.cpp` lines 268–383, 634–881 and 907–1117), with the height of the value stack for its contents. Every
`duk_*` call has the effect of its documentation; any of them may raise an error
or find too few values. Such an error is not caught in the bridge, so the
operation does not return then.

What the values are decides only which calls are made: an argument, a result or
an error is given by what the bridge asks about it.

* `effect_popObject`: `popObject` removes one value.
* `effect_pushObject`: `pushObject` adds one value, or none where `__makeProxy`
  fails.
* `effect_run`: an operation leaves the stack lower by one value for each of its
  arguments whose proxy is not built.
* `not_returns_of_height_zero`: at the bottom of a frame it does not return then.
* `stack_balance`: the operations, `pushObject` and `popObject` together.
-/

namespace JSEngine.Duktape.ValueStack

open JSEngine.Common

/-! ## The API -/

/-- The value stack of the running activation, and which of the calls to come
    raise an error. -/
structure Stack where
  height : ℕ
  raises : ℕ → Bool

/-- No call to come raises an error. -/
def Stack.Calm (s : Stack) : Prop := ∀ i, s.raises i = false

/-- A piece of the bridge; `none` where it does not return. -/
abbrev Duk := StateT Stack Option

/-- A call that needs `needs` values on the stack, takes `takes` of them off and
    puts `gives` on. -/
def api (needs takes gives : ℕ) : Duk Unit := fun s =>
  if s.raises 0 ∨ s.height < needs ∨ s.height < takes then none
  else some ((), { height := s.height - takes + gives, raises := fun i => s.raises (i + 1) })

abbrev duk_push_null : Duk Unit := api 0 0 1
abbrev duk_push_undefined : Duk Unit := api 0 0 1
abbrev duk_push_string : Duk Unit := api 0 0 1
abbrev duk_push_pointer : Duk Unit := api 0 0 1
abbrev duk_push_heapptr : Duk Unit := api 0 0 1
abbrev duk_push_fixed_buffer : Duk Unit := api 0 0 1
abbrev duk_push_object : Duk Unit := api 0 0 1
abbrev duk_push_c_function : Duk Unit := api 0 0 1
abbrev duk_push_global_stash : Duk Unit := api 0 0 1
abbrev duk_push_global_object : Duk Unit := api 0 0 1
abbrev duk_get_global_string : Duk Unit := api 0 0 1
abbrev duk_pop : Duk Unit := api 1 1 0
/-- The index is given by its distance from the top. -/
abbrev duk_dup (idx : ℕ) : Duk Unit := api idx 0 1
abbrev duk_swap (idx : ℕ) : Duk Unit := api idx 0 0
abbrev duk_require_normalize_index (idx : ℕ) : Duk Unit := api idx 0 0
abbrev duk_get_heapptr (idx : ℕ) : Duk Unit := api idx 0 0
abbrev duk_get_pointer (idx : ℕ) : Duk Unit := api idx 0 0
abbrev duk_require_pointer (idx : ℕ) : Duk Unit := api idx 0 0
abbrev duk_get_buffer_data (idx : ℕ) : Duk Unit := api idx 0 0
abbrev duk_is_error (idx : ℕ) : Duk Unit := api idx 0 0
abbrev duk_safe_to_string (idx : ℕ) : Duk Unit := api idx 0 0
abbrev duk_json_decode (idx : ℕ) : Duk Unit := api idx 1 1
abbrev duk_has_prop_string (idx : ℕ) : Duk Unit := api idx 0 0
abbrev duk_get_prop_string (idx : ℕ) : Duk Unit := api idx 0 1
abbrev duk_get_prop_index (idx : ℕ) : Duk Unit := api idx 0 1
abbrev duk_get_prop (idx : ℕ) : Duk Unit := api idx 1 1
abbrev duk_put_prop_string (idx : ℕ) : Duk Unit := api idx 1 0
abbrev duk_put_prop_index (idx : ℕ) : Duk Unit := api idx 1 0
abbrev duk_put_prop (idx : ℕ) : Duk Unit := api idx 2 0
abbrev duk_del_prop_string (idx : ℕ) : Duk Unit := api idx 0 0
abbrev duk_del_prop_index (idx : ℕ) : Duk Unit := api idx 0 0
abbrev duk_set_finalizer (idx : ℕ) : Duk Unit := api idx 1 0
abbrev duk_gc : Duk Unit := api 0 0 0
abbrev duk_eval_raw : Duk Unit := api 1 1 1
abbrev duk_pcompile_string_filename : Duk Unit := api 1 1 1
/-- The function and its arguments. -/
abbrev duk_pcall (nargs : ℕ) : Duk Unit := api (nargs + 1) (nargs + 1) 1
/-- The function, its `this` value and its arguments. -/
abbrev duk_pcall_method (nargs : ℕ) : Duk Unit := api (nargs + 2) (nargs + 2) 1
/-- The key and the arguments; the object stays. -/
abbrev duk_pcall_prop (nargs : ℕ) : Duk Unit := api (nargs + 1) (nargs + 1) 1
abbrev duk_debugger_notify (nvalues : ℕ) : Duk Unit := api nvalues nvalues 0

/-- `if (condition) { … }` -/
def whenever (condition : Bool) (body : Duk Unit) : Duk Unit :=
  if condition then body else pure ()

/-! ## `popObject` -/

/-- The pointer behind a script object: null or no pointer, a weak reference
    whose object was collected, or one whose object is alive. -/
inductive Pointer
  | null
  | collected
  | alive
  deriving DecidableEq

/-- What `popObject` asks about the value on the top of the stack. -/
inductive Popped
  /-- boolean, number or string -/
  | scalar
  | buffer
  /-- whether it has `__javascript_this`, whether it has `java_this`, and the
      pointer that is found there -/
  | object (hasJavascriptThis hasJavaThis : Bool) (pointer : Pointer)
  /-- undefined, null and unsupported types -/
  | other
  deriving DecidableEq

/-- The two places where `popObject` looks for the Java object (lines 297–307). -/
def findThis (hasJavascriptThis hasJavaThis : Bool) : Duk Bool := do
  duk_has_prop_string 1
  if hasJavascriptThis then
    duk_get_prop_string 1
    return true
  else
    duk_has_prop_string 1
    whenever hasJavaThis (duk_get_prop_string 1)
    return hasJavaThis

/-- `if (hasThis) { … }` (lines 309–319). -/
def takeThis (hasThis : Bool) (pointer : Pointer) : Duk Unit :=
  whenever hasThis do
    duk_get_pointer 1
    duk_pop
    whenever (pointer = .collected) (duk_del_prop_string 1)

/-- A new holder for a script object (lines 329–370). -/
def holdObject : Duk Unit := do
  duk_get_heapptr 1
  duk_push_global_stash
  duk_dup 2
  duk_put_prop_index 2
  duk_pop
  duk_push_c_function
  duk_set_finalizer 2
  duk_push_pointer
  duk_put_prop_string 2
  duk_pop

/-- `popObject` (lines 268–377). -/
def popObject : Popped → Duk Unit
  -- `m_objectType->pop`
  | .scalar => duk_pop
  | .buffer => do
    duk_get_buffer_data 1
    duk_pop
  | .object hasJavascriptThis hasJavaThis pointer => do
    let hasThis ← findThis hasJavascriptThis hasJavaThis
    takeThis hasThis pointer
    if hasThis ∧ pointer = .alive then duk_pop
    else holdObject
  | .other => duk_pop

/-- `popObject2` (lines 379–383). -/
def popObject2 (v : Popped) : Duk Unit := do
  popObject v
  duk_pop

/-! ## Errors -/

/-- What `queueJavaExceptionForDuktapeError` asks about the error. -/
inductive Err
  /-- not an error, or (where `isError`) one without a stack -/
  | plain (isError : Bool)
  | stack
  /-- the value of the property that holds the Java exception -/
  | java (wrapped : Popped)
  deriving DecidableEq

/-- `queueJavaExceptionForDuktapeError` (lines 1082–1117). -/
def queueJavaExceptionForDuktapeError : Err → Duk Unit
  | .plain isError => do
    duk_is_error 1
    whenever isError (duk_has_prop_string 1)
    duk_safe_to_string 1
    duk_pop
  | .stack => do
    duk_is_error 1
    duk_has_prop_string 1
    duk_get_prop_string 1
    duk_safe_to_string 1
    duk_has_prop_string 2
    duk_pop
    duk_pop
  | .java wrapped => do
    duk_is_error 1
    duk_has_prop_string 1
    duk_get_prop_string 1
    duk_safe_to_string 1
    duk_has_prop_string 2
    duk_get_prop_string 2
    popObject wrapped
    duk_pop
    duk_pop

/-! ## `pushObject` -/

/-- What `pushObject` asks about a Java value. -/
inductive Arg
  | null
  /-- an instance of a class of `JavaTypeMap` -/
  | javaType
  /-- a `JavaScriptObject` of this context -/
  | javaScriptObject
  | byteBuffer
  | json
  /-- anything else, with what the call of `__makeProxy` ends with -/
  | proxied (made : Except Err Unit)

/-- The proxy is built, where one is needed. -/
def Arg.Builds : Arg → Prop
  | .proxied (.error _) => False
  | _ => True

instance : DecidablePred Arg.Builds := fun v => by
  unfold Arg.Builds
  split <;> infer_instance

/-- The proxy for a Java object (lines 715–735). -/
def pushProxy (made : Except Err Unit) : Duk Unit := do
  duk_push_global_stash
  duk_get_prop_string 1
  duk_swap 2
  duk_pop
  duk_push_object
  duk_require_normalize_index 1
  duk_push_pointer
  duk_put_prop_string 2
  duk_push_c_function
  duk_set_finalizer 2
  duk_pcall 1
  match made with
  | .ok () => pure ()
  | .error e => queueJavaExceptionForDuktapeError e

/-- `pushObject` (lines 634–736). -/
def pushObject : Arg → Duk Unit
  | .null => duk_push_null
  -- `type->push`
  | .javaType => api 0 0 1
  | .javaScriptObject => duk_push_heapptr
  | .byteBuffer => duk_push_fixed_buffer
  | .json => do
    duk_push_string
    duk_json_decode 1
  | .proxied made => pushProxy made

/-- The loop over the arguments, of which there are none where the array is
    null; `length` of them are pushed. -/
def pushArgs (args : List Arg) : Duk ℕ := do
  args.forM pushObject
  return args.length

/-! ## The operations -/

/-- `if (duk_pcall… != DUK_EXEC_SUCCESS) { … return nullptr; } return popObject(env);`
    -/
def finish (result : Except Err Popped) : Duk Unit :=
  match result with
  | .error e => queueJavaExceptionForDuktapeError e
  | .ok v => popObject v

/-- The same with a collection before the result is read. -/
def finishCall (result : Except Err Popped) : Duk Unit :=
  match result with
  | .error e => queueJavaExceptionForDuktapeError e
  | .ok v => do
    duk_gc
    popObject v

/-- `call` (lines 738–759). -/
def call (args : List Arg) (result : Except Err Popped) : Duk Unit := do
  duk_push_heapptr
  let length ← pushArgs args
  duk_pcall length
  finishCall result

/-- `callMethod` (lines 761–786). -/
def callMethod (thiz : Arg) (args : List Arg) (result : Except Err Popped) : Duk Unit := do
  duk_push_heapptr
  pushObject thiz
  let length ← pushArgs args
  duk_pcall_method length
  finishCall result

/-- `callProperty` (lines 788–814). -/
def callProperty (property : Arg) (args : List Arg) (result : Except Err Popped) : Duk Unit := do
  duk_push_heapptr
  pushObject property
  let length ← pushArgs args
  duk_pcall_prop length
  match result with
  | .error e => do
    queueJavaExceptionForDuktapeError e
    duk_pop
  | .ok v => do
    duk_gc
    popObject2 v

/-- `getGlobalObject` (lines 816–821). -/
def getGlobalObject (v : Popped) : Duk Unit := do
  duk_push_global_object
  popObject v

/-- `getKeyInteger` (lines 823–830). -/
def getKeyInteger (v : Popped) : Duk Unit := do
  duk_push_heapptr
  duk_get_prop_index 1
  popObject2 v

/-- `getKeyObject` (lines 832–843). -/
def getKeyObject (key : Arg) (v : Popped) : Duk Unit := do
  duk_push_heapptr
  pushObject key
  duk_get_prop 2
  popObject2 v

/-- `getKeyString` (lines 845–853). -/
def getKeyString (v : Popped) : Duk Unit := do
  duk_push_heapptr
  duk_get_prop_string 1
  popObject2 v

/-- `evaluate` (lines 55–60 and 855–867). -/
def evaluate (result : Except Err Popped) : Duk Unit := do
  duk_push_string
  duk_eval_raw
  finish result

/-- `compile` (lines 869–881). -/
def compile (result : Except Err Popped) : Duk Unit := do
  duk_push_string
  duk_pcompile_string_filename
  finish result

/-- `debuggerAppNotify` (lines 907–920). -/
def debuggerAppNotify (args : List Arg) : Duk Unit := do
  let length ← pushArgs args
  duk_debugger_notify length

/-- `setKeyString` (lines 922–934). -/
def setKeyString (value : Arg) : Duk Unit := do
  duk_push_heapptr
  pushObject value
  duk_put_prop_string 2
  duk_pop

/-- `setKeyInteger` (lines 936–947). -/
def setKeyInteger (value : Arg) : Duk Unit := do
  duk_push_heapptr
  pushObject value
  duk_put_prop_index 2
  duk_pop

/-- `setKeyObject` (lines 949–964). -/
def setKeyObject (key value : Arg) : Duk Unit := do
  duk_push_heapptr
  pushObject key
  pushObject value
  duk_put_prop 3
  duk_pop

/-- `stringify` (lines 966–981). -/
def stringify (result : Except Err Popped) : Duk Unit := do
  duk_get_global_string
  duk_push_string
  duk_push_heapptr
  duk_pcall_prop 1
  match result with
  | .error e => do
    queueJavaExceptionForDuktapeError e
    duk_pop
  | .ok v => popObject2 v

/-- `javascriptObjectFinalizerInternal`; `has` says whether the object still has
    its `java_this` (lines 85–98). -/
def javascriptObjectFinalizerInternal (has : Bool) : Duk Unit := do
  duk_get_prop_string 1
  whenever has do
    duk_require_pointer 1
    duk_del_prop_string 2
  duk_pop

/-- A round of the loop of `finalizeJavaScriptObjects` (lines 983–1008). -/
def finalizeJavaScriptObject (has : Bool) : Duk Unit := do
  duk_push_heapptr
  duk_push_undefined
  duk_set_finalizer 2
  javascriptObjectFinalizerInternal has
  duk_pop
  duk_push_global_stash
  duk_del_prop_index 1
  duk_pop

/-- An operation with what it meets. -/
inductive Operation
  | evaluate (result : Except Err Popped)
  | compile (result : Except Err Popped)
  | call (args : List Arg) (result : Except Err Popped)
  | callMethod (thiz : Arg) (args : List Arg) (result : Except Err Popped)
  | callProperty (property : Arg) (args : List Arg) (result : Except Err Popped)
  | getKeyInteger (v : Popped)
  | getKeyString (v : Popped)
  | getKeyObject (key : Arg) (v : Popped)
  | setKeyInteger (value : Arg)
  | setKeyString (value : Arg)
  | setKeyObject (key value : Arg)
  | stringify (result : Except Err Popped)
  | getGlobalObject (v : Popped)
  | finalizeJavaScriptObjects (objects : List Bool)
  | debuggerAppNotify (args : List Arg)

namespace Operation

/-- The body of the operation. -/
def run : Operation → Duk Unit
  | evaluate result => ValueStack.evaluate result
  | compile result => ValueStack.compile result
  | call args result => ValueStack.call args result
  | callMethod thiz args result => ValueStack.callMethod thiz args result
  | callProperty property args result => ValueStack.callProperty property args result
  | getKeyInteger v => ValueStack.getKeyInteger v
  | getKeyString v => ValueStack.getKeyString v
  | getKeyObject key v => ValueStack.getKeyObject key v
  | setKeyInteger value => ValueStack.setKeyInteger value
  | setKeyString value => ValueStack.setKeyString value
  | setKeyObject key value => ValueStack.setKeyObject key value
  | stringify result => ValueStack.stringify result
  | getGlobalObject v => ValueStack.getGlobalObject v
  | finalizeJavaScriptObjects objects => objects.forM finalizeJavaScriptObject
  | debuggerAppNotify args => ValueStack.debuggerAppNotify args

/-- The Java values that the operation pushes. -/
def pushed : Operation → List Arg
  | call args _ => args
  | callMethod thiz args _ => thiz :: args
  | callProperty property args _ => property :: args
  | getKeyObject key _ => [key]
  | setKeyInteger value => [value]
  | setKeyString value => [value]
  | setKeyObject key value => [key, value]
  | debuggerAppNotify args => args
  | _ => []

/-- Every proxy that the operation needs is built. -/
def Builds (op : Operation) : Prop := ∀ v ∈ op.pushed, v.Builds

instance : DecidablePred Builds := fun op => inferInstanceAs (Decidable (∀ v ∈ op.pushed, v.Builds))

end Operation

/-! ## Effects -/

/-- The height as an integer, so that a call may take off more than it puts on. -/
def Stack.level (s : Stack) : ℤ := s.height

/-- Values that `pushObject` fails to push. -/
def Arg.lost (v : Arg) : ℤ := if v.Builds then 0 else 1

theorem effect_api {needs takes gives : ℕ} :
    Effect Stack.level (gives - takes : ℤ) (api needs takes gives) := by
  intro s _ s' h
  simp only [api, StateT.run] at h
  split_ifs at h with hs
  obtain ⟨-, rfl⟩ := Prod.mk.inj (Option.some.inj h)
  simp only [Stack.level]
  omega

/-- A call that only looks at the stack. -/
theorem effect_look {needs : ℕ} : Effect Stack.level 0 (api needs 0 0) :=
  effect_api.of_eq (sub_self _)

/-- A conditional has the effect of the branch that is taken. -/
theorem effect_whenever {d : ℤ} {m : Duk Unit} (b : Bool) (h : Effect Stack.level d m) :
    Effect Stack.level (if b then d else 0) (whenever b m) := by
  cases b with
  | true => exact h
  | false => exact Effect.pure _

/-- A conditional without an effect. -/
theorem effect_skip {m : Duk Unit} (b : Bool) (h : Effect Stack.level 0 m) :
    Effect Stack.level 0 (whenever b m) :=
  (effect_whenever b h).of_eq (ite_self _)

/-- What `findThis` returns is known beforehand. -/
theorem findThis_bind {α : Type} (a b : Bool) (f : Bool → Duk α) :
    (findThis a b >>= f) = (findThis a b >>= fun _ => f (a || b)) := by
  cases a <;> simp [findThis]

/-- The pointer, where there is one, is on the stack. -/
theorem effect_findThis (a b : Bool) :
    Effect Stack.level (if a || b then 1 else 0) (findThis a b) := by
  have hget : Effect Stack.level 1 (duk_get_prop_string 1) := effect_api.of_eq (by norm_num)
  cases a with
  | true => exact (effect_api.seq (hget.seq (Effect.pure _))).of_eq (by norm_num)
  | false =>
    refine (effect_api.seq (effect_api.seq ((effect_whenever b hget).seq (Effect.pure _)))).of_eq ?_
    norm_num

theorem effect_takeThis (hasThis : Bool) (pointer : Pointer) :
    Effect Stack.level (if hasThis then -1 else 0) (takeThis hasThis pointer) := by
  apply effect_whenever
  exact (effect_api.seq (effect_api.seq (effect_skip _ effect_look))).of_eq (by norm_num)

theorem effect_holdObject : Effect Stack.level (-1) holdObject := by
  apply Effect.of_eq
  · repeat' first | apply Effect.seq | apply effect_api
  · norm_num

/-- **`popObject` removes one value.** -/
theorem effect_popObject (v : Popped) : Effect Stack.level (-1) (popObject v) := by
  match v with
  | .scalar => exact effect_api.of_eq (by norm_num)
  | .buffer => exact (effect_api.seq effect_api).of_eq (by norm_num)
  | .other => exact effect_api.of_eq (by norm_num)
  | .object a b pointer =>
    have hlast (hasThis : Bool) : Effect Stack.level (-1)
        (if hasThis ∧ pointer = .alive then duk_pop else holdObject) := by
      split_ifs
      · exact effect_api.of_eq (by norm_num)
      · exact effect_holdObject
    rw [popObject, findThis_bind]
    refine ((effect_findThis a b).seq ((effect_takeThis _ pointer).seq (hlast _))).of_eq ?_
    split_ifs <;> norm_num

theorem effect_popObject2 (v : Popped) : Effect Stack.level (-2) (popObject2 v) :=
  ((effect_popObject v).seq effect_api).of_eq (by norm_num)

/-- The error is taken off the stack. -/
theorem effect_queueJavaException (e : Err) :
    Effect Stack.level (-1) (queueJavaExceptionForDuktapeError e) := by
  match e with
  | .plain isError =>
    have hhas := effect_skip isError (@effect_look 1)
    exact (effect_api.seq (hhas.seq (effect_api.seq effect_api))).of_eq (by norm_num)
  | .stack =>
    apply Effect.of_eq
    · repeat' first | apply Effect.seq | apply effect_api
    · norm_num
  | .java wrapped =>
    apply Effect.of_eq
    · repeat' first | apply effect_popObject | apply Effect.seq | apply effect_api
    · norm_num

theorem effect_pushProxy (made : Except Err Unit) :
    Effect Stack.level (1 - (Arg.proxied made).lost) (pushProxy made) := by
  have hlast : Effect Stack.level (-(Arg.proxied made).lost) (match made with
      | .ok () => pure ()
      | .error e => queueJavaExceptionForDuktapeError e) := by
    match made with
    | .ok () => exact Effect.pure _
    | .error e => exact effect_queueJavaException e
  apply Effect.of_eq
  · unfold pushProxy
    repeat' first | apply Effect.seq | apply effect_api
    exact hlast
  · push_cast
    ring

/-- **`pushObject` adds one value**, unless it fails to build the proxy. -/
theorem effect_pushObject (v : Arg) : Effect Stack.level (1 - v.lost) (pushObject v) := by
  match v with
  | .null => exact effect_api.of_eq (by norm_num [Arg.lost, Arg.Builds])
  | .javaType => exact effect_api.of_eq (by norm_num [Arg.lost, Arg.Builds])
  | .javaScriptObject => exact effect_api.of_eq (by norm_num [Arg.lost, Arg.Builds])
  | .byteBuffer => exact effect_api.of_eq (by norm_num [Arg.lost, Arg.Builds])
  | .json => exact (effect_api.seq effect_api).of_eq (by norm_num [Arg.lost, Arg.Builds])
  | .proxied made => exact effect_pushProxy made

/-- The values that are not pushed for a list of arguments. -/
def lost (args : List Arg) : ℤ := (args.map Arg.lost).sum

theorem lost_cons (v : Arg) (args : List Arg) : lost (v :: args) = v.lost + lost args := by
  simp only [lost, List.map_cons, List.sum_cons]

theorem effect_args (args : List Arg) :
    Effect Stack.level (args.length - lost args) (args.forM pushObject) := by
  apply (Effect.forM effect_pushObject args).of_eq
  induction args with
  | nil => rfl
  | cons v args ih =>
    rw [List.map_cons, List.sum_cons, ih, lost_cons, List.length_cons]
    push_cast
    ring

theorem pushArgs_bind {α : Type} (args : List Arg) (f : ℕ → Duk α) :
    (pushArgs args >>= f) = (args.forM pushObject >>= fun _ => f args.length) := by
  simp [pushArgs]

/-- The result is read, or the error queued: the value on the top is gone. -/
theorem effect_finish (result : Except Err Popped) :
    Effect Stack.level (-1) (finish result) := by
  match result with
  | .error e => exact effect_queueJavaException e
  | .ok v => exact effect_popObject v

theorem effect_finishCall (result : Except Err Popped) :
    Effect Stack.level (-1) (finishCall result) := by
  match result with
  | .error e => exact effect_queueJavaException e
  | .ok v => exact (effect_api.seq (effect_popObject v)).of_eq (by norm_num)

theorem effect_finalizeJavaScriptObject (has : Bool) :
    Effect Stack.level 0 (finalizeJavaScriptObject has) := by
  have hdel : Effect Stack.level 0 (whenever has do duk_require_pointer 1; duk_del_prop_string 2) :=
    effect_skip has ((effect_api.seq effect_api).of_eq (by norm_num))
  have hinternal : Effect Stack.level 0 (javascriptObjectFinalizerInternal has) :=
    (effect_api.seq (hdel.seq effect_api)).of_eq (by norm_num)
  apply Effect.of_eq
  · unfold finalizeJavaScriptObject
    repeat' first | exact hinternal | apply Effect.seq | apply effect_api
  · norm_num

/-- **The operations**: each leaves the stack as high as it found it, less the
    values that it failed to push. -/
theorem effect_run (op : Operation) : Effect Stack.level (-lost op.pushed) op.run := by
  have hnone : lost [] = 0 := rfl
  unfold Operation.run Operation.pushed
  match op with
  | .evaluate result | .compile result =>
    apply (effect_api.seq (effect_api.seq (effect_finish result))).of_eq
    norm_num [hnone]
  | .call args result =>
    simp only [call, pushArgs_bind]
    apply (effect_api.seq
      ((effect_args args).seq (effect_api.seq (effect_finishCall result)))).of_eq
    push_cast
    ring
  | .callMethod thiz args result =>
    simp only [callMethod, pushArgs_bind]
    apply (effect_api.seq ((effect_pushObject thiz).seq
      ((effect_args args).seq (effect_api.seq (effect_finishCall result))))).of_eq
    rw [lost_cons]
    push_cast
    ring
  | .callProperty property args result =>
    have hresult : Effect Stack.level (-2) (match result with
        | .error e => do
          queueJavaExceptionForDuktapeError e
          duk_pop
        | .ok v => do
          duk_gc
          popObject2 v) := by
      match result with
      | .error e => exact ((effect_queueJavaException e).seq effect_api).of_eq (by norm_num)
      | .ok v => exact (effect_api.seq (effect_popObject2 v)).of_eq (by norm_num)
    simp only [callProperty, pushArgs_bind]
    apply (effect_api.seq ((effect_pushObject property).seq
      ((effect_args args).seq (effect_api.seq hresult)))).of_eq
    rw [lost_cons]
    push_cast
    ring
  | .getKeyInteger v | .getKeyString v =>
    apply (effect_api.seq (effect_api.seq (effect_popObject2 v))).of_eq
    norm_num [hnone]
  | .getKeyObject key v =>
    apply (effect_api.seq ((effect_pushObject key).seq
      (effect_api.seq (effect_popObject2 v)))).of_eq
    rw [lost_cons, hnone]
    push_cast
    ring
  | .setKeyInteger value | .setKeyString value =>
    apply (effect_api.seq ((effect_pushObject value).seq (effect_api.seq effect_api))).of_eq
    rw [lost_cons, hnone]
    push_cast
    ring
  | .setKeyObject key value =>
    apply (effect_api.seq ((effect_pushObject key).seq
      ((effect_pushObject value).seq (effect_api.seq effect_api)))).of_eq
    rw [lost_cons, lost_cons, hnone]
    push_cast
    ring
  | .stringify result =>
    have hresult : Effect Stack.level (-2) (match result with
        | .error e => do
          queueJavaExceptionForDuktapeError e
          duk_pop
        | .ok v => popObject2 v) := by
      match result with
      | .error e => exact ((effect_queueJavaException e).seq effect_api).of_eq (by norm_num)
      | .ok v => exact effect_popObject2 v
    apply (effect_api.seq (effect_api.seq (effect_api.seq (effect_api.seq hresult)))).of_eq
    norm_num [hnone]
  | .getGlobalObject v =>
    apply (effect_api.seq (effect_popObject v)).of_eq
    norm_num [hnone]
  | .finalizeJavaScriptObjects objects =>
    apply (Effect.forM effect_finalizeJavaScriptObject objects).of_eq
    simp [hnone]
  | .debuggerAppNotify args =>
    simp only [debuggerAppNotify, pushArgs_bind]
    apply ((effect_args args).seq effect_api).of_eq
    push_cast
    ring

/-! ## Returning -/

/-- No call will raise an error, and the height is `n`. -/
def At (n : ℕ) (s : Stack) : Prop := s.height = n ∧ s.Calm

theorem total_api {n k needs takes gives : ℕ} (hneeds : needs ≤ n) (htakes : takes ≤ n)
    (hk : n - takes + gives = k) : Total (At n) (api needs takes gives) (At k) := by
  intro s ⟨hn, hcalm⟩
  have hok : ¬(s.raises 0 ∨ s.height < needs ∨ s.height < takes) := by
    simp only [hcalm 0, Bool.false_eq_true, false_or]
    omega
  refine ⟨(), _, if_neg hok, ?_, fun i => hcalm (i + 1)⟩
  show s.height - takes + gives = k
  omega

theorem total_whenever {n k : ℕ} {m : Duk Unit} (b : Bool) (hm : b → Total (At n) m (At k))
    (hk : b = false → n = k) : Total (At n) (whenever b m) (At k) := by
  cases b with
  | true => exact hm rfl
  | false => exact hk rfl ▸ Total.pure ()

theorem total_findThis (n : ℕ) (a b : Bool) :
    Total (At (n + 1)) (findThis a b) (At (n + 1 + (a || b).toNat)) := by
  cases a with
  | true =>
    have hget : Total (At (n + 1)) (duk_get_prop_string 1) (At (n + 2)) :=
      total_api (by omega) (by omega) rfl
    exact (total_api (by omega) (by omega) rfl).seq (hget.seq (Total.pure true))
  | false =>
    have hget : Total (At (n + 1)) (whenever b (duk_get_prop_string 1)) (At (n + 1 + b.toNat)) :=
      total_whenever b (fun hb => total_api (by omega) (by omega) (by rw [hb]; rfl))
        (fun hb => by rw [hb]; rfl)
    have hhas : Total (At (n + 1)) (duk_has_prop_string 1) (At (n + 1)) :=
      total_api (by omega) (by omega) rfl
    exact hhas.seq (hhas.seq (hget.seq (Total.pure b)))

theorem total_takeThis (n : ℕ) (hasThis : Bool) (pointer : Pointer) :
    Total (At (n + 1 + hasThis.toNat)) (takeThis hasThis pointer) (At (n + 1)) := by
  apply total_whenever
  · rintro rfl
    have hdel : Total (At (n + 1)) (whenever (pointer = .collected) (duk_del_prop_string 1))
        (At (n + 1)) :=
      total_whenever _ (fun _ => total_api (by omega) (by omega) rfl) (fun _ => rfl)
    exact (total_api (by omega) (by omega) rfl).seq ((total_api (by omega) (by omega) rfl).seq hdel)
  · rintro rfl
    rfl

theorem total_holdObject (n : ℕ) : Total (At (n + 1)) holdObject (At n) := by
  unfold holdObject
  repeat' first
    | exact total_api (by omega) (by omega) rfl
    | apply Total.seq

theorem total_popObject (n : ℕ) (v : Popped) : Total (At (n + 1)) (popObject v) (At n) := by
  have hpop : Total (At (n + 1)) duk_pop (At n) := total_api (by omega) (by omega) rfl
  match v with
  | .scalar | .other => exact hpop
  | .buffer => exact (total_api (by omega) (by omega) rfl).seq hpop
  | .object a b pointer =>
    rw [popObject, findThis_bind]
    refine (total_findThis n a b).seq ((total_takeThis n _ pointer).seq ?_)
    split_ifs
    · exact hpop
    · exact total_holdObject n

theorem total_popObject2 (n : ℕ) (v : Popped) : Total (At (n + 2)) (popObject2 v) (At n) :=
  (total_popObject (n + 1) v).seq (total_api (by omega) (by omega) rfl)

theorem total_queueJavaException (n : ℕ) (e : Err) :
    Total (At (n + 1)) (queueJavaExceptionForDuktapeError e) (At n) := by
  match e with
  | .plain isError =>
    have hhas : Total (At (n + 1)) (whenever isError (duk_has_prop_string 1)) (At (n + 1)) :=
      total_whenever _ (fun _ => total_api (by omega) (by omega) rfl) (fun _ => rfl)
    have hlook : Total (At (n + 1)) (api 1 0 0) (At (n + 1)) :=
      total_api (by omega) (by omega) rfl
    exact hlook.seq (hhas.seq (hlook.seq (total_api (by omega) (by omega) rfl)))
  | .stack =>
    unfold queueJavaExceptionForDuktapeError
    repeat' first
      | exact total_api (by omega) (by omega) rfl
      | apply Total.seq
  | .java wrapped =>
    unfold queueJavaExceptionForDuktapeError
    repeat' first
      | exact total_api (by omega) (by omega) rfl
      | exact total_popObject _ _
      | apply Total.seq

theorem total_pushObject (n : ℕ) (v : Arg) (hv : v.Builds) :
    Total (At n) (pushObject v) (At (n + 1)) := by
  have hpush : Total (At n) (api 0 0 1) (At (n + 1)) := total_api (by omega) (by omega) rfl
  match v, hv with
  | .null, _ | .javaType, _ | .javaScriptObject, _ | .byteBuffer, _ => exact hpush
  | .json, _ => exact hpush.seq (total_api (by omega) (by omega) rfl)
  | .proxied (.ok ()), _ =>
    show Total _ (pushProxy (.ok ())) _
    unfold pushProxy
    repeat' first
      | exact total_api (by omega) (by omega) rfl
      | apply Total.seq
      | exact Total.pure ()

theorem total_args (n : ℕ) (args : List Arg) (h : ∀ v ∈ args, v.Builds) :
    Total (At n) (args.forM pushObject) (At (n + args.length)) :=
  Total.forM args (fun v hv n => total_pushObject n v (h v hv)) n

theorem total_finish (n : ℕ) (result : Except Err Popped) :
    Total (At (n + 1)) (finish result) (At n) := by
  match result with
  | .error e => exact total_queueJavaException n e
  | .ok v => exact total_popObject n v

theorem total_finishCall (n : ℕ) (result : Except Err Popped) :
    Total (At (n + 1)) (finishCall result) (At n) := by
  match result with
  | .error e => exact total_queueJavaException n e
  | .ok v => exact (total_api (by omega) (by omega) rfl).seq (total_popObject n v)

theorem total_finalize (n : ℕ) (objects : List Bool) :
    Total (At n) (objects.forM finalizeJavaScriptObject) (At n) := by
  have hround (has : Bool) : Total (At n) (finalizeJavaScriptObject has) (At n) := by
    have hdel : Total (At (n + 2))
        (whenever has do duk_require_pointer 1; duk_del_prop_string 2) (At (n + 2)) :=
      total_whenever has
        (fun _ => (total_api (by omega) (by omega) rfl).seq (total_api (by omega) (by omega) rfl))
        (fun _ => rfl)
    have hinternal : Total (At (n + 1)) (javascriptObjectFinalizerInternal has) (At (n + 1)) :=
      (total_api (by omega) (by omega) rfl).seq
        (hdel.seq (total_api (by omega) (by omega) rfl))
    unfold finalizeJavaScriptObject
    repeat' first
      | exact hinternal
      | exact total_api (by omega) (by omega) rfl
      | apply Total.seq
  exact Total.forM_inv objects hround

/-- **The operations return**, with the stack as high as before, where no call
    raises an error and every proxy is built. -/
theorem total_run (n : ℕ) (op : Operation) (h : op.Builds) : Total (At n) op.run (At n) := by
  have hpush : Total (At n) (api 0 0 1) (At (n + 1)) := total_api (by omega) (by omega) rfl
  have hpop (k : ℕ) : Total (At (k + 1)) duk_pop (At k) := total_api (by omega) (by omega) rfl
  unfold Operation.run
  match op, h with
  | .evaluate result, _ | .compile result, _ =>
    exact hpush.seq ((total_api (by omega) (by omega) rfl).seq (total_finish n result))
  | .call args result, h =>
    simp only [call, pushArgs_bind]
    refine hpush.seq ((total_args _ args h).seq (Total.seq ?_ (total_finishCall n result)))
    exact total_api (by omega) (by omega) (by omega)
  | .callMethod thiz args result, h =>
    obtain ⟨hthiz, hargs⟩ := List.forall_mem_cons.mp h
    simp only [callMethod, pushArgs_bind]
    refine hpush.seq ((total_pushObject _ thiz hthiz).seq
      ((total_args _ args hargs).seq (Total.seq ?_ (total_finishCall n result))))
    exact total_api (by omega) (by omega) (by omega)
  | .callProperty property args result, h =>
    obtain ⟨hproperty, hargs⟩ := List.forall_mem_cons.mp h
    simp only [callProperty, pushArgs_bind]
    refine hpush.seq ((total_pushObject _ property hproperty).seq
      ((total_args _ args hargs).seq (@Total.seq _ _ _ _ (At (n + 2)) _ _ _ ?_ ?_)))
    · exact total_api (by omega) (by omega) (by omega)
    · match result with
      | .error e => exact (total_queueJavaException (n + 1) e).seq (hpop n)
      | .ok v => exact (total_api (by omega) (by omega) rfl).seq (total_popObject2 n v)
  | .getKeyInteger v, _ | .getKeyString v, _ =>
    exact hpush.seq ((total_api (by omega) (by omega) rfl).seq (total_popObject2 n v))
  | .getKeyObject key v, h =>
    refine hpush.seq ((total_pushObject _ key (h key (by simp [Operation.pushed]))).seq ?_)
    exact (total_api (by omega) (by omega) rfl).seq (total_popObject2 n v)
  | .setKeyInteger value, h | .setKeyString value, h =>
    refine hpush.seq ((total_pushObject _ value (h value (by simp [Operation.pushed]))).seq ?_)
    exact (total_api (by omega) (by omega) rfl).seq (hpop n)
  | .setKeyObject key value, h =>
    refine hpush.seq ((total_pushObject _ key (h key (by simp [Operation.pushed]))).seq
      ((total_pushObject _ value (h value (by simp [Operation.pushed]))).seq ?_))
    exact (total_api (by omega) (by omega) rfl).seq (hpop n)
  | .stringify result, _ =>
    refine hpush.seq ((total_api (by omega) (by omega) rfl).seq
      ((total_api (by omega) (by omega) rfl).seq (@Total.seq _ _ _ _ (At (n + 2)) _ _ _ ?_ ?_)))
    · exact total_api (by omega) (by omega) (by omega)
    · match result with
      | .error e => exact (total_queueJavaException (n + 1) e).seq (hpop n)
      | .ok v => exact total_popObject2 n v
  | .getGlobalObject v, _ => exact hpush.seq (total_popObject n v)
  | .finalizeJavaScriptObjects objects, _ => exact total_finalize n objects
  | .debuggerAppNotify args, h =>
    simp only [debuggerAppNotify, pushArgs_bind]
    exact (total_args _ args h).seq (total_api (by omega) (by omega) (by omega))

/-! ## Balance -/

theorem Arg.lost_nonneg (v : Arg) : 0 ≤ v.lost := by
  unfold Arg.lost
  split_ifs <;> omega

theorem Arg.lost_eq_zero_iff (v : Arg) : v.lost = 0 ↔ v.Builds := by
  unfold Arg.lost
  split_ifs with h <;> simp [h]

theorem lost_nonneg (args : List Arg) : 0 ≤ lost args := by
  induction args with
  | nil => exact le_rfl
  | cons v args ih =>
    have hv := v.lost_nonneg
    rw [lost_cons]
    omega

/-- No value is lost exactly where every proxy is built. -/
theorem lost_eq_zero_iff (args : List Arg) : lost args = 0 ↔ ∀ v ∈ args, v.Builds := by
  induction args with
  | nil => simp [lost]
  | cons v args ih =>
    have hv := v.lost_nonneg
    have hargs := lost_nonneg args
    rw [List.forall_mem_cons, lost_cons]
    constructor
    · intro h
      exact ⟨v.lost_eq_zero_iff.mp (by omega), ih.mp (by omega)⟩
    · intro ⟨hb, hbs⟩
      rw [v.lost_eq_zero_iff.mpr hb, ih.mpr hbs, add_zero]

/-- At the bottom of a frame an operation that fails to build a proxy does not
    return: it takes values off that are not there. -/
theorem not_returns_of_height_zero {op : Operation} {s s' : Stack} (hs : s.height = 0)
    (hop : ¬ op.Builds) : op.run.run s ≠ some ((), s') := by
  intro h
  have hrun : (s'.height : ℤ) = s.height + -lost op.pushed := effect_run op s () s' h
  have hnonneg := lost_nonneg op.pushed
  have hne : lost op.pushed ≠ 0 := fun h0 => hop ((lost_eq_zero_iff _).mp h0)
  omega

end JSEngine.Duktape.ValueStack
