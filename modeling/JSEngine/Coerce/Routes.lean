import JSEngine.Common.Pass
import JSEngine.Coerce.Tables
import JSEngine.Members.Coercions

/-!
# Values on their way into JavaScript

Model of the methods of `JavaScriptObject` that hand Java values to the native
layer, and of the invocation handlers of its interface proxies: which operation
the native layer is asked for, with which values, and what is left in the
argument array of the caller.

* `coercedOnce_iff`: exactly when the native layer receives every value coerced
  once and the caller's array is left as it was;
* `argumentSettles_of_instance`: what the condition asks of a variadic argument;
* `routes_disagree`: one number sent in three ways arrives as three numbers.
-/

namespace JSEngine.Coerce

open JSEngine.Java JSEngine.Memo JSEngine.Members JSEngine.Common

/-! ## Model -/

/-- What the native layer is asked to do with a JavaScript object. -/
inductive Operation (V : Type*)
  | callConstructor (args : JRef (List (JRef V)))
  | call (args : JRef (List (JRef V)))
  | callMethod (thiz : JRef V) (args : JRef (List (JRef V)))
  | callProperty (property : JRef V) (args : JRef (List (JRef V)))
  | getKeyString (key : JString)
  | setKeyString (key : JString) (value : JRef V)
  | setKeyInteger (index : ℤ) (value : JRef V)
  | setKeyObject (key value : JRef V)
  deriving DecidableEq

/-- What a method of `JavaScriptObject` comes to: the operation the native layer
    is asked for, or the exception before it, and the argument array of the
    caller after the call. -/
structure Delivery (V : Type*) where
  native : Except Throwable (Operation V)
  args : JRef (List (JRef V)) := none

variable {V κ : Type*} [DecidableEq V] (w : World V) (c : JSEngineContext V)

/-- `coerceJavaArgsToJavaScript(args)` (JSEngineContext.java, lines 117–124),
    which overwrites the array. -/
def coerceJavaArgsToJavaScript (args : JRef (List (JRef V))) :
    JRef (List (JRef V)) × Except Throwable Unit :=
  match args with
  | none => (none, .ok ())
  | some args =>
    let r := inPlace (coerceJavaToJavaScript w c) args
    (some r.1, r.2)

/-- `constructCoerced` (lines 57–60). -/
def JavaScriptObject.construct (args : JRef (List (JRef V))) : Delivery V :=
  let r := coerceJavaArgsToJavaScript w c args
  { native := r.2.map fun _ => .callConstructor r.1, args := r.1 }

/-- `call` (lines 78–81). -/
def JavaScriptObject.call (args : JRef (List (JRef V))) : Delivery V :=
  let r := coerceJavaArgsToJavaScript w c args
  { native := r.2.map fun _ => .call r.1, args := r.1 }

/-- `callMethod` (lines 83–87). -/
def JavaScriptObject.callMethod (thiz : JRef V) (args : JRef (List (JRef V))) : Delivery V :=
  let r := coerceJavaArgsToJavaScript w c args
  { native := r.2.bind fun _ => (coerceJavaToJavaScript w c thiz).map fun thiz => .callMethod thiz r.1
    args := r.1 }

/-- `callProperty` (lines 89–92). -/
def JavaScriptObject.callProperty (property : JRef V) (args : JRef (List (JRef V))) : Delivery V :=
  let r := coerceJavaArgsToJavaScript w c args
  { native := r.2.map fun _ => .callProperty property r.1, args := r.1 }

/-- `set(Object, Object)` and the overloads it calls (lines 108–130). -/
def JavaScriptObject.set (key value : JRef V) : Operation V :=
  match key.bind w.asString with
  | some key => .setKeyString key value
  | none =>
    match key.filter fun key => w.isNumber key && w.isIntegral key with
    | some number => .setKeyInteger (w.intValue number) value
    | none => .setKeyObject key value

/-- The parameters before a variadic one (lines 147–149). -/
def numParameters (method : Method) : ℕ :=
  if w.isVarArgs method then method.parameterTypes.length - 1 else method.parameterTypes.length

/-- `Array.getLength(varargArg)` and `Array.get(varargArg, i)` (lines 158–159). -/
def variadicElements (varargArg : JRef V) : Except Throwable (List (JRef V)) :=
  match varargArg with
  | none => .error nullPointerException
  | some varargArg =>
    match w.elements varargArg with
    | none => .error ⟨"java.lang.IllegalArgumentException", "Argument is not an array"⟩
    | some elements => .ok elements

/-- `coerceArgs` (lines 140–166). -/
def coerceArgs (method : Method) (args : JRef (List (JRef V))) :
    Except Throwable (JRef (List (JRef V))) :=
  match args with
  | none => .ok none
  | some [] => .ok (some [])
  | some args =>
    let types := method.parameterTypes
    let n := numParameters w method
    if args.length ≠ types.length then
      .error ⟨"java.lang.AssertionError", "JavaScript.createInvocationHandler different args count?"⟩
    else
      (pass (fun p => coerceJavaToJavaScriptAs w c p.1 p.2) ((types.zip args).take n)).bind
        fun fixed =>
        if w.isVarArgs method then
          match types[n]?, args[n]? with
          | some type, some varargArg =>
            (variadicElements w varargArg).bind fun elements =>
            (pass (coerceJavaScriptToJava w c (some (w.getComponentType type))) elements).bind
              fun varargs => .ok (some (fixed ++ varargs))
          | _, _ => .error ⟨"java.lang.ArrayIndexOutOfBoundsException", ""⟩
        else .ok (some fixed)

/-- The handler's write of an `@JSEngineProperty` (lines 186–189). -/
def setProperty (name : JString) (method : Method) (arg : JRef V) : Except Throwable (Operation V) :=
  match method.parameterTypes with
  | [] => .error ⟨"java.lang.ArrayIndexOutOfBoundsException", ""⟩
  | type :: _ => (coerceJavaScriptToJava w c (some type) arg).map fun value => .setKeyString name value

/-- The name an interface method has in script (lines 192–195). -/
def scriptName (method : Method) : JString := method.methodName.getD method.name

/-- What an invocation handler does with a call. -/
inductive Handled (V κ : Type*)
  /-- a method coercion is registered, and takes over -/
  | methodCoercion (coercion : κ)
  | native (operation : Except Throwable (Operation V))

/-- The handler of `createInvocationHandler` (lines 180–198), from the method
    coercions of the context and the memo `getInterfaceMethod` asks. -/
def invocationHandler (coercions : MethodCoercions κ) (interfaceMethods : Store Method)
    (method : Method) (args : JRef (List (JRef V))) : Handled V κ :=
  match coercions.get (getInterfaceMethod w.toReflection interfaceMethods method).1 with
  | some coercion => .methodCoercion coercion
  | none =>
    match method.property with
    | some name =>
      match args with
      | none | some [] => .native (.ok (.getKeyString name))
      | some (arg :: _) => .native (setProperty w c name method arg)
    | none =>
      .native ((coerceArgs w c method args).bind fun args =>
        (JavaScriptObject.callProperty w c (some (w.string (scriptName method))) args).native)

/-- The handler of the functional-interface branch (JSEngineContext.java,
    lines 254–256). -/
def callbackHandler (method : Method) (args : JRef (List (JRef V))) :
    Except Throwable (Operation V) :=
  (coerceArgs w c method args).bind fun args => (JavaScriptObject.call w c args).native

/-- A way to send values into JavaScript. -/
inductive Sending (V : Type*)
  | construct (args : JRef (List (JRef V)))
  | call (args : JRef (List (JRef V)))
  | callMethod (thiz : JRef V) (args : JRef (List (JRef V)))
  | callProperty (property : JRef V) (args : JRef (List (JRef V)))
  | set (key value : JRef V)
  /-- a call of an interface proxy of `createInvocationHandler` -/
  | invocation (method : Method) (args : JRef (List (JRef V)))
  /-- a call of a proxy of the functional-interface branch -/
  | callback (method : Method) (args : JRef (List (JRef V)))

/-- What the native layer is asked for. -/
def Sending.delivered (coercions : MethodCoercions κ) (interfaceMethods : Store Method) :
    Sending V → Handled V κ
  | .construct args => .native (JavaScriptObject.construct w c args).native
  | .call args => .native (JavaScriptObject.call w c args).native
  | .callMethod thiz args => .native (JavaScriptObject.callMethod w c thiz args).native
  | .callProperty property args => .native (JavaScriptObject.callProperty w c property args).native
  | .set key value => .native (.ok (JavaScriptObject.set w key value))
  | .invocation method args => invocationHandler w c coercions interfaceMethods method args
  | .callback method args => .native (callbackHandler w c method args)

/-- The argument array that the caller made. The array of a proxy call is made by
    the JVM; a variadic array in it is not written. -/
def Sending.callerArgs : Sending V → JRef (List (JRef V))
  | .construct args | .call args | .callMethod _ args | .callProperty _ args => args
  | .set _ _ | .invocation _ _ | .callback _ _ => none

/-- The caller's array after the call. -/
def Sending.argsAfter : Sending V → JRef (List (JRef V))
  | .construct args => (JavaScriptObject.construct w c args).args
  | .call args => (JavaScriptObject.call w c args).args
  | .callMethod thiz args => (JavaScriptObject.callMethod w c thiz args).args
  | .callProperty property args => (JavaScriptObject.callProperty w c property args).args
  | .set _ _ | .invocation _ _ | .callback _ _ => none

/-! ## Specification -/

/-- A value an interface method is called with, and its declared type; of a
    variadic value, the component type. -/
structure Argument (V : Type*) where
  type : Class
  value : JRef V
  variadic : Bool

/-- The coercion the declared type asks for. -/
def Argument.once (a : Argument V) : Except Throwable (JRef V) :=
  coerceJavaToJavaScriptAs w c a.type a.value

/-- The arguments of a call, the variadic ones taken out of their array. -/
def arguments (method : Method) (args : JRef (List (JRef V))) :
    Except Throwable (JRef (List (Argument V))) :=
  match args with
  | none => .ok none
  | some [] => .ok (some [])
  | some args =>
    let types := method.parameterTypes
    let n := numParameters w method
    let fixed := ((types.zip args).take n).map fun p => ⟨p.1, p.2, false⟩
    if args.length ≠ types.length then
      .error ⟨"java.lang.AssertionError", "JavaScript.createInvocationHandler different args count?"⟩
    else if w.isVarArgs method then
      match types[n]?, args[n]? with
      | some type, some varargArg =>
        (variadicElements w varargArg).map fun elements =>
          some (fixed ++ elements.map fun value => ⟨w.getComponentType type, value, true⟩)
      | _, _ => .error ⟨"java.lang.ArrayIndexOutOfBoundsException", ""⟩
    else .ok (some fixed)

/-- Every value of the list coerced once. -/
def onceEach {α : Type*} (f : α → Except Throwable (JRef V)) (args : JRef (List α)) :
    Except Throwable (JRef (List (JRef V))) :=
  match args with
  | none => .ok none
  | some args => (pass f args).map some

/-- The operation with every value coerced once. -/
def Sending.once : Sending V → Except Throwable (Operation V)
  | .construct args => (onceEach (coerceJavaToJavaScript w c) args).map .callConstructor
  | .call args => (onceEach (coerceJavaToJavaScript w c) args).map .call
  | .callMethod thiz args =>
    (onceEach (coerceJavaToJavaScript w c) args).bind fun args =>
      (coerceJavaToJavaScript w c thiz).map fun thiz => .callMethod thiz args
  | .callProperty property args =>
    (onceEach (coerceJavaToJavaScript w c) args).map (.callProperty property)
  | .set key value => (coerceJavaToJavaScript w c value).map (JavaScriptObject.set w key)
  | .invocation method args =>
    match method.property, args with
    | some name, none | some name, some [] => .ok (.getKeyString name)
    | some name, some (arg :: _) =>
      match method.parameterTypes with
      | [] => .error ⟨"java.lang.ArrayIndexOutOfBoundsException", ""⟩
      | type :: _ => (coerceJavaToJavaScriptAs w c type arg).map (.setKeyString name)
    | none, args =>
      ((arguments w method args).bind (onceEach (Argument.once w c))).map
        (.callProperty (some (w.string (scriptName method))))
  | .callback method args =>
    ((arguments w method args).bind (onceEach (Argument.once w c))).map .call

/-- The native layer receives every value coerced once, and the caller's array
    is left as it was. -/
structure CoercedOnce (coercions : MethodCoercions κ) (interfaceMethods : Store Method)
    (s : Sending V) : Prop where
  received : ∀ op, s.once w c = .ok op →
    s.delivered w c coercions interfaceMethods = .native (.ok op)
  args_kept : s.argsAfter w c = s.callerArgs

/-! ## The condition -/

/-- The further coercions on the argument's way leave it as its declared type's
    coercion made it. -/
def Argument.Settles (a : Argument V) : Prop :=
  if a.variadic then
    (coerceJavaScriptToJava w c (some a.type) a.value).bind (coerceJavaToJavaScript w c) =
      a.once w c
  else ∀ v, a.once w c = .ok v → Settled w c v

/-- What the way of a value asks of it, where the single coercions return. -/
def Sending.Settles (coercions : MethodCoercions κ) (interfaceMethods : Store Method) :
    Sending V → Prop
  | .construct _ | .call _ | .callMethod _ _ | .callProperty _ _ => True
  | .set _ value => Settled w c value
  | .invocation method args =>
    coercions.get (getInterfaceMethod w.toReflection interfaceMethods method).1 = none ∧
    match method.property, args with
    | some _, some (arg :: _) => ∀ type ∈ method.parameterTypes.head?,
      coerceJavaScriptToJava w c (some type) arg = coerceJavaToJavaScriptAs w c type arg
    | some _, _ => True
    | none, args => ∀ as, arguments w method args = .ok (some as) → ∀ a ∈ as, a.Settles w c
  | .callback method args =>
    ∀ as, arguments w method args = .ok (some as) → ∀ a ∈ as, a.Settles w c

/-- Every argument up to the first whose coercion throws is its own coercion. -/
def Sending.ArgsSettled (s : Sending V) : Prop :=
  ∀ args, s.callerArgs = some args →
    ∀ x ∈ args.takeWhile fun x => (coerceJavaToJavaScript w c x).isOk, Settled w c x

/-! ## One coercion on the direct ways -/

/-- An operation on the array that the loop leaves has each element coerced once. -/
theorem coerceJavaArgsToJavaScript_map {β : Type*} (args : JRef (List (JRef V)))
    (f : JRef (List (JRef V)) → β) :
    ((coerceJavaArgsToJavaScript w c args).2.map fun _ => f (coerceJavaArgsToJavaScript w c args).1) =
      (onceEach (coerceJavaToJavaScript w c) args).map f := by
  cases args with
  | none => rfl
  | some args =>
    simp only [onceEach, coerceJavaArgsToJavaScript, pass_eq_inPlace]
    cases (inPlace (coerceJavaToJavaScript w c) args).2 <;> rfl

theorem call_native (args : JRef (List (JRef V))) :
    (JavaScriptObject.call w c args).native =
      (onceEach (coerceJavaToJavaScript w c) args).map .call :=
  coerceJavaArgsToJavaScript_map w c args _

theorem callProperty_native (property : JRef V) (args : JRef (List (JRef V))) :
    (JavaScriptObject.callProperty w c property args).native =
      (onceEach (coerceJavaToJavaScript w c) args).map (.callProperty property) :=
  coerceJavaArgsToJavaScript_map w c args _

theorem callMethod_native (thiz : JRef V) (args : JRef (List (JRef V))) :
    (JavaScriptObject.callMethod w c thiz args).native =
      (onceEach (coerceJavaToJavaScript w c) args).bind fun args =>
        (coerceJavaToJavaScript w c thiz).map fun thiz => .callMethod thiz args := by
  have h := coerceJavaArgsToJavaScript_map w c args fun args =>
    (coerceJavaToJavaScript w c thiz).map fun thiz => Operation.callMethod thiz args
  show Except.bind _ _ = _
  cases hr : (coerceJavaArgsToJavaScript w c args).2 <;>
    cases ho : onceEach (coerceJavaToJavaScript w c) args <;>
    simp_all [Except.bind, Except.map]

/-- An array that is overwritten in place is left as it was exactly where the
    arguments up to the first failure are settled. -/
theorem coerceJavaArgsToJavaScript_keeps_iff (args : JRef (List (JRef V))) :
    (coerceJavaArgsToJavaScript w c args).1 = args ↔
      ∀ as, args = some as →
        ∀ x ∈ as.takeWhile fun x => (coerceJavaToJavaScript w c x).isOk, Settled w c x := by
  cases args with
  | none => simp [coerceJavaArgsToJavaScript]
  | some args =>
    simp only [coerceJavaArgsToJavaScript, Option.some.injEq, forall_eq']
    exact inPlace_eq_self_iff

theorem args_kept_iff (s : Sending V) : s.argsAfter w c = s.callerArgs ↔ s.ArgsSettled w c := by
  cases s with
  | construct args => exact coerceJavaArgsToJavaScript_keeps_iff w c args
  | call args => exact coerceJavaArgsToJavaScript_keeps_iff w c args
  | callMethod thiz args => exact coerceJavaArgsToJavaScript_keeps_iff w c args
  | callProperty property args => exact coerceJavaArgsToJavaScript_keeps_iff w c args
  | set key value => simp [Sending.argsAfter, Sending.ArgsSettled, Sending.callerArgs]
  | invocation method args => simp [Sending.argsAfter, Sending.ArgsSettled, Sending.callerArgs]
  | callback method args => simp [Sending.argsAfter, Sending.ArgsSettled, Sending.callerArgs]

/-! ## The two coercions of a proxy call -/

/-- What an argument of a proxy call goes through: `coerceArgs`, and the coercion
    by its class. -/
def Argument.twice (a : Argument V) : Except Throwable (JRef V) :=
  (if a.variadic then coerceJavaScriptToJava w c (some a.type) a.value else a.once w c).bind
    (coerceJavaToJavaScript w c)

theorem Argument.settles_iff (a : Argument V) : a.Settles w c ↔ a.twice w c = a.once w c := by
  unfold Argument.Settles Argument.twice
  by_cases hv : a.variadic = true
  · rw [if_pos hv, if_pos hv]
  · rw [if_neg hv, if_neg hv]
    cases ho : a.once w c with
    | error e => simp [Except.bind]
    | ok v => simp [Except.bind, Settled]

omit [DecidableEq V] in
theorem onceEach_some_eq_ok {α : Type*} {f : α → Except Throwable (JRef V)} {xs : List α}
    {vs : JRef (List (JRef V))} :
    onceEach f (some xs) = .ok vs ↔ ∃ us, pass f xs = .ok us ∧ vs = some us := by
  unfold onceEach
  rw [map_eq_ok]
  exact exists_congr fun us => and_congr_right fun _ => eq_comm

theorem pass_fixed (pairs : List (Class × JRef V)) (us : List (JRef V)) :
    (pass (fun p => coerceJavaToJavaScriptAs w c p.1 p.2) pairs).bind
        (pass (coerceJavaToJavaScript w c)) = .ok us ↔
      pass (Argument.twice w c) (pairs.map fun p => ⟨p.1, p.2, false⟩) = .ok us := by
  rw [pass_bind, pass_map]
  rfl

theorem pass_variadic (type : Class) (elements us : List (JRef V)) :
    (pass (coerceJavaScriptToJava w c (some type)) elements).bind
        (pass (coerceJavaToJavaScript w c)) = .ok us ↔
      pass (Argument.twice w c) (elements.map fun value => ⟨type, value, true⟩) = .ok us := by
  rw [pass_bind, pass_map]
  rfl

/-- A proxy call passes every argument through both coercions. -/
theorem coerceArgs_twice (method : Method) (args vs : JRef (List (JRef V))) :
    (coerceArgs w c method args).bind (onceEach (coerceJavaToJavaScript w c)) = .ok vs ↔
      (arguments w method args).bind (onceEach (Argument.twice w c)) = .ok vs := by
  rcases args with _ | _ | ⟨arg, args⟩
  · rfl
  · rfl
  · simp only [coerceArgs, arguments]
    generalize arg :: args = args
    generalize hpairs : (method.parameterTypes.zip args).take (numParameters w method) = pairs
    split_ifs with hlen hvar
    · simp [Except.bind]
    · rcases method.parameterTypes[numParameters w method]? with _ | type
      · simp [bind_eq_ok]
      rcases args[numParameters w method]? with _ | varargArg
      · simp [bind_eq_ok]
      dsimp only
      rcases variadicElements w varargArg with e | elements
      · simp [bind_eq_ok, map_eq_ok]
      · show Except.bind _ _ = _ ↔ onceEach _ (some _) = _
        simp only [ok_bind]
        rw [onceEach_some_eq_ok, bind_eq_ok]
        simp only [pass_append, ← pass_fixed, ← pass_variadic]
        constructor
        · rintro ⟨ws, hws, hvs⟩
          obtain ⟨fs, hfs, hws⟩ := bind_eq_ok.mp hws
          obtain ⟨us, hus, hws⟩ := bind_eq_ok.mp hws
          obtain rfl := Except.ok.inj hws
          obtain ⟨zs, hzs, rfl⟩ := onceEach_some_eq_ok.mp hvs
          obtain ⟨ys, ys', hys, hys', rfl⟩ := pass_append.mp hzs
          exact ⟨_, ⟨ys, ys', bind_eq_ok.mpr ⟨fs, hfs, hys⟩, bind_eq_ok.mpr ⟨us, hus, hys'⟩, rfl⟩, rfl⟩
        · rintro ⟨zs, ⟨ys, ys', hys, hys', rfl⟩, rfl⟩
          obtain ⟨fs, hfs, hys⟩ := bind_eq_ok.mp hys
          obtain ⟨us, hus, hys'⟩ := bind_eq_ok.mp hys'
          refine ⟨some (fs ++ us), ?_, onceEach_some_eq_ok.mpr
            ⟨ys ++ ys', pass_append.mpr ⟨ys, ys', hys, hys', rfl⟩, rfl⟩⟩
          simp only [hfs, hus, ok_bind]
    · show _ ↔ onceEach _ (some _) = _
      rw [onceEach_some_eq_ok]
      simp only [← pass_fixed, bind_eq_ok]
      constructor
      · rintro ⟨_, ⟨fs, hfs, h⟩, hvs⟩
        obtain rfl := Except.ok.inj h
        obtain ⟨us, hus, rfl⟩ := onceEach_some_eq_ok.mp hvs
        exact ⟨us, ⟨fs, hfs, hus⟩, rfl⟩
      · rintro ⟨us, ⟨fs, hfs, hus⟩, rfl⟩
        exact ⟨some fs, ⟨fs, hfs, rfl⟩, onceEach_some_eq_ok.mpr ⟨us, hus, rfl⟩⟩

/-- Where the single coercions of a proxy call return, both coercions come to the
    same exactly where every argument settles. -/
theorem proxy_received_iff {method : Method} {args vs : JRef (List (JRef V))}
    (h : (arguments w method args).bind (onceEach (Argument.once w c)) = .ok vs) :
    (coerceArgs w c method args).bind (onceEach (coerceJavaToJavaScript w c)) = .ok vs ↔
      ∀ as, arguments w method args = .ok (some as) → ∀ a ∈ as, a.Settles w c := by
  rw [coerceArgs_twice]
  obtain ⟨as, has, hvs⟩ := bind_eq_ok.mp h
  rw [has]
  cases as with
  | none =>
    obtain rfl := Except.ok.inj hvs
    simp [Except.bind, onceEach]
  | some as =>
    obtain ⟨us, hus, rfl⟩ := onceEach_some_eq_ok.mp hvs
    show onceEach _ (some as) = _ ↔ _
    simp only [onceEach_some_eq_ok, Option.some.injEq, exists_eq_right', Except.ok.injEq, forall_eq',
      Argument.settles_iff]
    exact pass_congr_iff hus

/-! ## Every way -/

omit [DecidableEq V] in
/-- The value is part of the operation. -/
theorem JavaScriptObject.set_inj {key value value' : JRef V} :
    JavaScriptObject.set w key value = JavaScriptObject.set w key value' ↔ value = value' := by
  unfold JavaScriptObject.set
  cases key.bind w.asString with
  | some key => simp
  | none => cases key.filter fun key => w.isNumber key && w.isIntegral key <;> simp

theorem setProperty_received_iff {name : JString} {method : Method} {arg : JRef V}
    {op : Operation V} {args : List (JRef V)} (hp : method.property = some name)
    (h : (Sending.invocation method (some (arg :: args))).once w c = .ok op) :
    setProperty w c name method arg = .ok op ↔
      ∀ type ∈ method.parameterTypes.head?,
        coerceJavaScriptToJava w c (some type) arg = coerceJavaToJavaScriptAs w c type arg := by
  simp only [Sending.once, hp] at h
  unfold setProperty
  cases ht : method.parameterTypes with
  | nil => simp [ht] at h
  | cons type types =>
    simp only [ht] at h
    obtain ⟨v, hv, rfl⟩ := map_eq_ok.mp h
    simp only [map_eq_ok, List.head?_cons, Option.mem_def, Option.some.injEq, forall_eq', hv,
      Operation.setKeyString.injEq, true_and, exists_eq_right]

/-- **One sending.** Where the single coercions return, the native layer receives
    their values exactly where the way of the values settles them. -/
theorem received_iff {coercions : MethodCoercions κ} {interfaceMethods : Store Method}
    {s : Sending V} {op : Operation V} (h : s.once w c = .ok op) :
    s.delivered w c coercions interfaceMethods = .native (.ok op) ↔
      s.Settles w c coercions interfaceMethods := by
  cases s with
  | construct args =>
    refine iff_of_true ?_ trivial
    rw [← h]
    exact congrArg Handled.native (coerceJavaArgsToJavaScript_map w c args _)
  | call args =>
    refine iff_of_true ?_ trivial
    rw [← h]
    exact congrArg Handled.native (call_native w c args)
  | callMethod thiz args =>
    refine iff_of_true ?_ trivial
    rw [← h]
    exact congrArg Handled.native (callMethod_native w c thiz args)
  | callProperty property args =>
    refine iff_of_true ?_ trivial
    rw [← h]
    exact congrArg Handled.native (callProperty_native w c property args)
  | set key value =>
    obtain ⟨v, hv, rfl⟩ := map_eq_ok.mp h
    simp only [Sending.delivered, Sending.Settles, Settled, Handled.native.injEq, Except.ok.injEq,
      JavaScriptObject.set_inj, hv]
    exact eq_comm
  | invocation method args =>
    simp only [Sending.delivered, Sending.Settles, invocationHandler]
    cases hk : coercions.get (getInterfaceMethod w.toReflection interfaceMethods method).1 with
    | some k => simp
    | none =>
      simp only [true_and]
      cases hp : method.property with
      | some name =>
        rcases args with _ | _ | ⟨arg, args⟩
        · refine iff_of_true ?_ trivial
          rw [← h]
          simp only [Sending.once, hp]
        · refine iff_of_true ?_ trivial
          rw [← h]
          simp only [Sending.once, hp]
        · simp only [Handled.native.injEq]
          exact setProperty_received_iff w c hp h
      | none =>
        simp only [Sending.once, hp] at h
        obtain ⟨vs, hvs, rfl⟩ := map_eq_ok.mp h
        dsimp only
        rw [← proxy_received_iff w c hvs]
        simp only [Handled.native.injEq, callProperty_native, bind_eq_ok, map_eq_ok,
          Operation.callProperty.injEq, true_and, exists_eq_right]
  | callback method args =>
    obtain ⟨vs, hvs, rfl⟩ := map_eq_ok.mp h
    simp only [Sending.delivered, Sending.Settles]
    rw [← proxy_received_iff w c hvs]
    simp only [Handled.native.injEq, callbackHandler, call_native, bind_eq_ok, map_eq_ok,
      Operation.call.injEq, exists_eq_right]

/-- **Values are coerced once exactly where a further coercion does not change
    them.** For all registered coercions and every way values are sent in: the
    native layer receives each value coerced once and the caller's array stays as
    it was, if and only if the way settles the values wherever the single
    coercions return, and the arguments in the caller's array are settled up to
    the first whose coercion throws. -/
theorem coercedOnce_iff (coercions : MethodCoercions κ) (interfaceMethods : Store Method)
    (s : Sending V) :
    CoercedOnce w c coercions interfaceMethods s ↔
      ((∃ op, s.once w c = .ok op) → s.Settles w c coercions interfaceMethods) ∧
        s.ArgsSettled w c := by
  constructor
  · intro h
    refine ⟨?_, (args_kept_iff w c s).mp h.args_kept⟩
    rintro ⟨op, hop⟩
    exact (received_iff w c hop).mp (h.received op hop)
  · rintro ⟨hs, hargs⟩
    refine ⟨?_, (args_kept_iff w c s).mpr hargs⟩
    intro op hop
    exact (received_iff w c hop).mpr (hs ⟨op, hop⟩)

/-- A variadic argument that is an instance of the component type settles exactly
    where its class's coercion gives what the component type's does. -/
theorem argumentSettles_of_instance {type : Class} {v : V} (hv : Unwrapped w v)
    (h : w.isInstance type v = true ∨ unboxes w type v = true) :
    Argument.Settles w c ⟨type, some v, true⟩ ↔
      coerceJavaToJavaScript w c (some v) = coerceJavaToJavaScriptAs w c type (some v) := by
  have hinst := coerceJavaScriptToJava_of_instance w c (unwrap_of_unwrapped w hv) h
  simp only [Argument.Settles, if_true, Argument.once, hinst, ok_bind]

/-! ## A coercion that is not idempotent -/

/-- A world of numbers and strings. -/
def sampleWorld : World Sample := Sample.world (fun _ => []) (fun _ => false) [] (fun _ => [])

/-- A coercion of `Integer` that adds one. -/
def addingOne : JSEngineContext Sample :=
  ({} : JSEngineContext Sample).putJavaToJavaScriptCoercion (some NumberType.int.boxed) <| some
    fun _ o => .ok (o.map fun
      | .int n => .int (n + 1)
      | v => v)

/-- `void f(Integer n)`. -/
def takesInteger : Method where
  declaringClass := named "Callback"
  name := jstr "f"
  parameterTypes := [NumberType.int.boxed]
  returnType := Class.void

/-- The number 1 arrives as 1, as 2 and as 3, and the caller's array holds 2 after
    the call. -/
theorem routes_disagree :
    let x : JRef Sample := some (.int 1)
    let coercions : MethodCoercions ℕ := {}
    (coerceJavaToJavaScript sampleWorld addingOne x = .ok (some (.int 2))) ∧
      (Sending.set (some (.string (jstr "p"))) x).delivered sampleWorld addingOne coercions {} =
        .native (.ok (.setKeyString (jstr "p") (some (.int 1)))) ∧
      (Sending.call (some [x])).delivered sampleWorld addingOne coercions {} =
        .native (.ok (.call (some [some (.int 2)]))) ∧
      (Sending.call (some [x])).argsAfter sampleWorld addingOne = some [some (.int 2)] ∧
      (Sending.callback takesInteger (some [x])).delivered sampleWorld addingOne coercions {} =
        .native (.ok (.call (some [some (.int 3)]))) ∧
      ¬∀ s : Sending Sample, CoercedOnce sampleWorld addingOne coercions {} s := by
  refine ⟨rfl, rfl, rfl, rfl, rfl, ?_⟩
  intro h
  have hargs := (h (.call (some [some (.int 1)]))).args_kept
  have hafter : (Sending.call (some [some (Sample.int 1)])).argsAfter sampleWorld addingOne =
      some [some (.int 2)] := rfl
  rw [hafter] at hargs
  cases hargs

end JSEngine.Coerce
