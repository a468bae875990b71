import JSEngine.Coerce.Methods

/-!
# Functional interfaces and functions

An object passed for an interface with one method becomes a function, and a
function passed for such an interface becomes a proxy that calls it. The library
counts the methods of the interface that are not static, default methods
included, and a call takes the receiver from script unless script passes null or
a JavaScript object.

* `function_calls_iff`: exactly when calling the function of an object invokes the
  abstract method on the object;
* `proxy_calls_iff`: exactly when a call of the abstract method on the proxy calls
  the function;
* `functions_bridge_iff`: both directions;
* `functional_interfaces_missed`: an interface with a default method beside its
  abstract one is not bridged.
-/

namespace JSEngine.Coerce

open JSEngine.Java JSEngine.Memo JSEngine.Members JSEngine.Common

variable {V : Type*} (w : World V)

/-! ## Functional interfaces -/

/-- An interface whose only abstract method, inherited ones included, is `method`;
    it may have default and static methods. -/
structure FunctionalInterface (clazz : Class) (method : Method) : Prop where
  isInterface : w.isInterface clazz = true
  notArray : w.isArray clazz = false
  abstractMethods : (w.getMethods clazz).filter w.isAbstract = [method]
  notStatic : method.isStatic = false

/-- What `getLambdaMethod` answers is the only method that is not static. -/
theorem getLambdaMethod_eq_some_iff {clazz : Class} {method : Method}
    (hi : w.isInterface clazz = true) :
    getLambdaMethod w clazz = some method ↔
      ((w.getMethods clazz).filter fun m => !m.isStatic) = [method] := by
  unfold getLambdaMethod
  rw [if_pos hi]
  split
  · next m h => rw [h]; simp
  · next h =>
    constructor
    · intro h'
      cases h'
    · intro h'
      exact absurd h' (h method)

/-- Only the abstract method itself can be found. -/
theorem FunctionalInterface.getLambdaMethod_eq {clazz : Class} {method m : Method}
    (hF : FunctionalInterface w clazz method) (h : getLambdaMethod w clazz = some m) :
    m = method := by
  rw [getLambdaMethod_eq_some_iff w hF.isInterface] at h
  have hmem : method ∈ (w.getMethods clazz).filter fun m => !m.isStatic := by
    have habs : method ∈ (w.getMethods clazz).filter w.isAbstract := by
      rw [hF.abstractMethods]
      exact List.mem_singleton_self _
    exact List.mem_filter.mpr ⟨List.mem_of_mem_filter habs, by simp [hF.notStatic]⟩
  rw [h] at hmem
  exact (List.mem_singleton.mp hmem).symm

/-! ## From an object to a function -/

variable [DecidableEq V] (c : JSEngineContext V)

/-- The call leaves the library as an accessible call of the method on `f`. -/
def Invokes (selected : Except Throwable (Selected V)) (method : Method) (f : V) : Prop :=
  (∃ coerced, selected = .ok (.invoke method (some f) coerced)) ∧ w.isAccessible method = true

/-- The object passed for the interface is a function, and calling it with the
    receiver and the arguments invokes the method on the object. -/
def CallsAbstract (coercions : MethodCoercions (MethodCoercion V)) (memos : MethodMemos)
    (clazz : Class) (method : Method) (f : V) (thiz : JRef V) (args : List (JRef V)) : Prop :=
  ∃ v m, coerceJavaToJavaScriptAs w c clazz (some f) = .ok (some v) ∧ w.asMethodObject v = some m ∧
    Invokes w (JavaMethodObject.select w c coercions memos m thiz args) method f

/-- What it takes. -/
structure ReachesObject (coercions : MethodCoercions (MethodCoercion V)) (memos : MethodMemos)
    (clazz : Class) (method : Method) (f : V) (thiz : JRef V) (args : List (JRef V)) : Prop where
  /-- the interface has no default methods -/
  only : ((w.getMethods clazz).filter fun m => !m.isStatic) = [method]
  noNullKey : none ∉ c.JavaToJavascriptCoercions.keys
  /-- script passes null or a JavaScript object, or what stands for `f` -/
  receiver : thiz.all w.isJavaScriptObject = true ∨ thiz.bind (unwrap w) = some f
  unwrapped : Unwrapped w f
  /-- no static method of the same name is the better overload, nor another method
      in the memo -/
  chosen : Chosen w memos method.name (w.getMethods clazz) (argTypes w args) method
  noCoercion : coercions.get (getInterfaceMethod w.toReflection memos.interfaceMethods method).1 = none
  converted : ∃ coerced, coerceParameters w c method args = .ok coerced
  accessible : w.isAccessible method = true

/-- With no coercion for `Object` a value that is wanted as an `Object` is only
    unwrapped. -/
theorem coerceJavaScriptToJava_Object {clazz : Class} (hi : w.isInterface clazz = true)
    (hc : Unregistered w c.JavaScriptToJavaCoercions clazz) {o : JRef V} {f : V} :
    coerceJavaScriptToJava w c (some Class.Object) o = .ok (some f) ↔ o.bind (unwrap w) = some f := by
  have hObject : Unregistered w c.JavaScriptToJavaCoercions Class.Object := by
    intro key hk
    have hkey : key ≠ Class.Object := by
      rintro rfl
      have := (hc _ hk).2
      rw [w.interface_Object clazz hi] at this
      cases this
    refine ⟨hkey, ?_⟩
    cases ha : w.isAssignableFrom key Class.Object with
    | false => rfl
    | true => exact absurd (w.eq_Object key ha) hkey
  cases o with
  | none => simp
  | some o =>
    cases hu : unwrap w o with
    | some t =>
      rw [coerceJavaScriptToJava_of_instance w c hu (Or.inl (w.isInstance_Object t))]
      simp [hu]
    | none =>
      refine iff_of_false ?_ (by simp [hu])
      rw [coerceJavaScriptToJava_eq, hu]
      show coerceFromTable w c Class.Object none ≠ _
      unfold coerceFromTable
      cases he : javaScriptToJavaEntry w c.JavaScriptToJavaCoercions Class.Object none with
      | error e => simp
      | ok r =>
        obtain rfl := ((javaScriptToJavaEntry_eq_ok_iff w hObject).mp he).2
        simp

/-- The receiver of a call is `f` where it is unwrapped from what the call is made
    on. -/
theorem unwrapped_of_receiver {clazz : Class} (hi : w.isInterface clazz = true)
    (hc : Unregistered w c.JavaScriptToJavaCoercions clazz) {m : MethodObject V} {thiz : JRef V}
    {f : V} (h : receiver w c m thiz = .ok (some f)) :
    (if thiz.all w.isJavaScriptObject then m.originalThis else thiz).bind (unwrap w) = some f := by
  unfold receiver at h
  cases ht : if thiz.all w.isJavaScriptObject then m.originalThis else thiz with
  | none => simp [ht] at h
  | some t =>
    rw [ht] at h
    exact (coerceJavaScriptToJava_Object w c hi hc).mp h

/-- The receiver of the function of `f` is `f` itself. -/
theorem receiver_eq_iff {clazz : Class} (hi : w.isInterface clazz = true)
    (hc : Unregistered w c.JavaScriptToJavaCoercions clazz) {f : V} {thiz : JRef V}
    {target : JString} {methodsOf : Option Class} :
    receiver w c { originalThis := unwrap w f, target, methodsOf } thiz = .ok (some f) ↔
      (thiz.all w.isJavaScriptObject = true ∨ thiz.bind (unwrap w) = some f) ∧ Unwrapped w f := by
  have hunwrap : ∀ {o : JRef V}, o.bind (unwrap w) = some f → Unwrapped w f := by
    intro o ho
    obtain ⟨t, -, ht⟩ := Option.bind_eq_some_iff.mp ho
    exact unwrapped_of_unwrap w ht
  constructor
  · intro h
    have h := unwrapped_of_receiver w c hi hc h
    refine ⟨?_, hunwrap h⟩
    by_cases hthiz : thiz.all w.isJavaScriptObject = true
    · exact Or.inl hthiz
    · rw [if_neg hthiz] at h
      exact Or.inr h
  · rintro ⟨hthiz, hf⟩
    unfold receiver
    have hself := unwrap_of_unwrapped w hf
    have hobj : ∀ {o : V}, unwrap w o = some f →
        coerceJavaScriptToJava w c (some Class.Object) (some o) = .ok (some f) :=
      fun ho => (coerceJavaScriptToJava_Object w c hi hc).mpr ho
    by_cases hjs : thiz.all w.isJavaScriptObject = true
    · simp only [if_pos hjs, hself, hobj hself]
    · have ht := hthiz.resolve_left hjs
      obtain ⟨t, rfl, ht⟩ := Option.bind_eq_some_iff.mp ht
      simp only [if_neg hjs, hobj ht]

/-- A call that invokes a method had that method chosen, with its arguments
    converted. -/
theorem select_invoke_iff {coercions : MethodCoercions (MethodCoercion V)} {memos : MethodMemos}
    {m : MethodObject V} {method : Method} {f : JRef V} {thiz : JRef V} {args coerced : List (JRef V)} :
    JavaMethodObject.select w c coercions memos m thiz args = .ok (.invoke method f coerced) ↔
      receiver w c m thiz = .ok f ∧
      (∃ methods, getMethodsOf w m f = .ok methods ∧
        Chosen w memos m.target methods (argTypes w args) method) ∧
      coercions.get (getInterfaceMethod w.toReflection memos.interfaceMethods method).1 = none ∧
      coerceParameters w c method args = .ok coerced := by
  simp only [← bestMethod_eq_some_iff]
  unfold JavaMethodObject.select
  simp only [bind_eq_ok]
  constructor
  · rintro ⟨thiz', hthiz, methods, hmethods, hsel⟩
    cases hbest : bestMethod w memos m.target methods (argTypes w args) with
    | none => simp [hbest] at hsel
    | some best =>
      simp only [hbest] at hsel
      cases hk : coercions.get (getInterfaceMethod w.toReflection memos.interfaceMethods best).1 with
      | some k => simp [hk] at hsel
      | none =>
        simp only [hk] at hsel
        obtain ⟨coerced', hc, he⟩ := map_eq_ok.mp hsel
        simp only [Selected.invoke.injEq] at he
        obtain ⟨rfl, rfl, rfl⟩ := he
        exact ⟨hthiz, ⟨methods, hmethods, hbest⟩, hk, hc⟩
  · rintro ⟨hthiz, ⟨methods, hmethods, hbest⟩, hk, hc⟩
    refine ⟨f, hthiz, methods, hmethods, ?_⟩
    simp only [hbest, hk, hc]
    rfl

/-- **From an object to a function.** The function of an object that implements the
    interface invokes the abstract method on it exactly where the call reaches the
    object. -/
theorem function_calls_iff {clazz : Class} {method : Method} (hF : FunctionalInterface w clazz method)
    (hc : Unregistered w c.JavaToJavascriptCoercions clazz)
    (hc' : Unregistered w c.JavaScriptToJavaCoercions clazz) {f : V}
    (hf : w.isInstance clazz f = true) (coercions : MethodCoercions (MethodCoercion V))
    (memos : MethodMemos) (thiz : JRef V) (args : List (JRef V)) :
    CallsAbstract w c coercions memos clazz method f thiz args ↔
      ReachesObject w c coercions memos clazz method f thiz args := by
  have hentry := javaToJavaScriptEntry_of_unregistered w hc (unwrap w f)
  have hco : coerceJavaToJavaScriptAs w c clazz (some f) =
      coerceUnwrapped w c clazz (unwrap w f) := rfl
  unfold CallsAbstract
  rw [hco]
  unfold coerceUnwrapped
  rw [hentry]
  by_cases hnull : none ∈ c.JavaToJavascriptCoercions.keys
  · rw [if_pos hnull]
    refine iff_of_false ?_ fun h => h.noNullKey hnull
    rintro ⟨v, m, h, -⟩
    cases h
  rw [if_neg hnull]
  dsimp only
  cases hl : getLambdaMethod w clazz with
  | some m =>
    obtain rfl := hF.getLambdaMethod_eq w hl
    rw [getLambdaMethod_eq_some_iff w hF.isInterface] at hl
    constructor
    · rintro ⟨v, m', hv, hm', ⟨coerced, hsel⟩, hacc⟩
      obtain rfl := Option.some.inj (Except.ok.inj hv)
      rw [w.asMethodObject_methodObject] at hm'
      obtain rfl := Option.some.inj hm'
      obtain ⟨hthiz, ⟨methods, hmethods, hchosen⟩, hk, hco⟩ := (select_invoke_iff w c).mp hsel
      obtain rfl := Except.ok.inj hmethods
      obtain ⟨hthiz, hunwrapped⟩ := (receiver_eq_iff w c hF.isInterface hc').mp hthiz
      exact ⟨hl, hnull, hthiz, hunwrapped, hchosen, hk, ⟨coerced, hco⟩, hacc⟩
    · intro h
      obtain ⟨coerced, hco⟩ := h.converted
      refine ⟨_, _, rfl, w.asMethodObject_methodObject _, ⟨coerced, ?_⟩, h.accessible⟩
      exact (select_invoke_iff w c).mpr
        ⟨(receiver_eq_iff w c hF.isInterface hc').mpr ⟨h.receiver, h.unwrapped⟩,
          ⟨_, rfl, h.chosen⟩, h.noCoercion, hco⟩
  | none =>
    refine iff_of_false ?_ fun h => ?_
    · -- the object itself is handed to script; were it a function of the library, it
      -- would not implement the interface
      rintro ⟨v, m, hv, hm, ⟨coerced, hsel⟩, -⟩
      have hthiz := ((select_invoke_iff w c).mp hsel).1
      obtain ⟨t, -, ht⟩ :=
        Option.bind_eq_some_iff.mp (unwrapped_of_receiver w c hF.isInterface hc' hthiz)
      have hself := unwrap_of_unwrapped w (unwrapped_of_unwrap w ht)
      rw [hself] at hv
      obtain rfl := Option.some.inj (Except.ok.inj hv)
      have := w.methodObject_interfaces f m clazz hm hF.isInterface hf
      rw [hF.abstractMethods] at this
      cases this
    · rw [(getLambdaMethod_eq_some_iff w hF.isInterface).mpr h.only] at hl
      cases hl

/-! ## From a function to an object -/

variable {κ : Type*}

/-- What a call of an interface proxy comes to. -/
inductive ProxyOutcome (V κ : Type*)
  /-- the handler that an `invocationHandlerWrapper` returned -/
  | wrapper
  /-- `method.invoke(jo, args)` on the `JavaScriptObject` itself -/
  | own (method : Method) (args : JRef (List (JRef V)))
  | callback (jo : V) (operation : Except Throwable (Operation V))
  | invocation (jo : V) (handled : Handled V κ)

/-- A call of an interface method on a proxy, through the handlers around that of
    the proxy (JSEngineContext.java, lines 62–84; JavaScriptObject.java, lines
    168–175); `wrapped` says that an `invocationHandlerWrapper` replaces them. -/
def proxyCall (wrapped : Bool) (coercions : MethodCoercions κ) (interfaceMethods : Store Method)
    (clazz : Class) (h : Handler V) (method : Method) (args : JRef (List (JRef V))) :
    ProxyOutcome V κ :=
  if wrapped then .wrapper
  else
    let method := w.proxyMethod clazz method
    if method.declaringClass = Class.Object ∨
        method.declaringClass = Class.JSEngineJavaScriptObject then .own method args
    else
      match h with
      | .callback jo => .callback jo (callbackHandler w c method args)
      | .invocation jo => .invocation jo (invocationHandler w c coercions interfaceMethods method args)

theorem proxyCall_eq_callback_iff {wrapped : Bool} {coercions : MethodCoercions κ}
    {interfaceMethods : Store Method} {clazz : Class} {h : Handler V} {method : Method}
    {args : JRef (List (JRef V))} {g : V} {operation : Except Throwable (Operation V)} :
    proxyCall w c wrapped coercions interfaceMethods clazz h method args =
        .callback g operation ↔
      wrapped = false ∧ ((w.proxyMethod clazz method).declaringClass ≠ Class.Object ∧
        (w.proxyMethod clazz method).declaringClass ≠ Class.JSEngineJavaScriptObject) ∧
      h = .callback g ∧ callbackHandler w c (w.proxyMethod clazz method) args = operation := by
  unfold proxyCall
  dsimp only
  split_ifs with hw hd
  · simp [hw]
  · refine iff_of_false (by simp) ?_
    rintro ⟨-, ⟨h1, h2⟩, -⟩
    exact hd.elim h1 h2
  · have hw : wrapped = false := by simpa using hw
    rw [not_or] at hd
    cases h with
    | callback jo =>
      simp only [hw, hd, ProxyOutcome.callback.injEq, Handler.callback.injEq, ne_eq, not_false_eq_true,
        true_and, and_true]
    | invocation jo => simp

/-- A `JavaScriptObject` as the native layer makes it. -/
structure JavaScriptFunction (g : V) : Prop where
  isJavaScriptObject : w.isJavaScriptObject g = true
  notWrapper : w.getObject g = none
  notBoolean : w.isInstance Class.Boolean g = false
  notNumber : ∀ t : NumberType, w.isInstance t.boxed g = false
  notProxy : w.asProxy g = none

/-- The function wanted as the interface is a proxy, and a call of the abstract
    method on it calls the function. -/
def CallsFunction (wrapped : Bool) (coercions : MethodCoercions κ) (interfaceMethods : Store Method)
    (clazz : Class) (method : Method) (g : V) (args : JRef (List (JRef V))) : Prop :=
  ∃ v h, coerceJavaScriptToJava w c (some clazz) (some g) = .ok (some v) ∧
    w.asProxy v = some (clazz, h) ∧
    ∃ vs, proxyCall w c wrapped coercions interfaceMethods clazz h method args =
      .callback g (.ok (.call vs))

/-- What it takes. -/
structure ReachesFunction (wrapped : Bool) (clazz : Class) (method : Method) (g : V)
    (args : JRef (List (JRef V))) : Prop where
  notInstance : w.isInstance clazz g = false
  noNullKey : none ∉ c.JavaScriptToJavaCoercions.keys
  /-- the interface is no supertype of a class with a coercion -/
  noMoreSpecific : ∀ key, some key ∈ c.JavaScriptToJavaCoercions.keys →
    w.isAssignableFrom clazz key = false
  /-- the interface has no default methods -/
  only : ((w.getMethods clazz).filter fun m => !m.isStatic) = [method]
  notWrapped : wrapped = false
  /-- the method is none of `Object` or `JSEngineJavaScriptObject` -/
  handled : (w.proxyMethod clazz method).declaringClass ≠ Class.Object ∧
    (w.proxyMethod clazz method).declaringClass ≠ Class.JSEngineJavaScriptObject
  converted : ∃ vs, callbackHandler w c (w.proxyMethod clazz method) args = .ok (.call vs)

/-- A JavaScript object wanted as an interface goes to the table, and from there to a
    proxy. -/
theorem coerceJavaScriptToJava_function {clazz : Class} {method : Method}
    (hF : FunctionalInterface w clazz method) {g : V} (hg : JavaScriptFunction w g)
    (hn : w.isInstance clazz g = false) :
    coerceJavaScriptToJava w c (some clazz) (some g) = coerceFromTable w c clazz (some g) := by
  have hbox : unboxes w clazz g = false := by
    simp [unboxes, hg.notBoolean, hg.notNumber]
  have hnarrow : narrowed w clazz g = none := by
    simp [narrowed, hg.notNumber]
  rw [coerceJavaScriptToJava_eq, unwrap_of_unwrapped w (Or.inl hg.notWrapper)]
  unfold convert
  rw [if_neg (by simp [hn, hbox])]
  simp [hnarrow, hF.notArray, Option.filter]

/-- **From a function to an object.** A call of the abstract method on the proxy
    calls the function exactly where it reaches the function. -/
theorem proxy_calls_iff {clazz : Class} {method : Method} (hF : FunctionalInterface w clazz method)
    (hc : Unregistered w c.JavaScriptToJavaCoercions clazz) {g : V} (hg : JavaScriptFunction w g)
    (wrapped : Bool) (coercions : MethodCoercions κ) (interfaceMethods : Store Method)
    (args : JRef (List (JRef V))) :
    CallsFunction w c wrapped coercions interfaceMethods clazz method g args ↔
      ReachesFunction w c wrapped clazz method g args := by
  unfold CallsFunction
  cases hn : w.isInstance clazz g with
  | true =>
    -- the `JavaScriptObject` itself is taken for the interface
    refine iff_of_false ?_ fun h => by rw [h.notInstance] at hn; cases hn
    rintro ⟨v, h, hv, hp, -⟩
    rw [coerceJavaScriptToJava_of_instance w c (unwrap_of_unwrapped w (Or.inl hg.notWrapper))
      (Or.inl hn)] at hv
    obtain rfl := Option.some.inj (Except.ok.inj hv)
    rw [hg.notProxy] at hp
    cases hp
  | false =>
    rw [coerceJavaScriptToJava_function w c hF hg hn]
    unfold coerceFromTable
    cases he : javaScriptToJavaEntry w c.JavaScriptToJavaCoercions clazz (some g) with
    | error e =>
      refine iff_of_false (by simp) fun h => ?_
      rw [(javaScriptToJavaEntry_eq_ok_iff w hc).mpr ⟨⟨h.noNullKey, h.noMoreSpecific⟩, rfl⟩] at he
      cases he
    | ok r =>
      obtain ⟨⟨hnull, hmore⟩, rfl⟩ := (javaScriptToJavaEntry_eq_ok_iff w hc).mp he
      have hjs : ((some g).filter fun o => w.isInterface clazz && w.isJavaScriptObject o) =
          some g := by
        simp [Option.filter, hF.isInterface, hg.isJavaScriptObject]
      simp only [hjs]
      unfold interfaceProxy
      cases hl : getLambdaMethod w clazz with
      | none =>
        refine iff_of_false ?_ fun h => ?_
        · rintro ⟨v, h, hv, hp, vs, hcall⟩
          obtain rfl := Option.some.inj (Except.ok.inj hv)
          rw [w.asProxy_proxy] at hp
          obtain ⟨-, rfl⟩ := Prod.mk.inj (Option.some.inj hp)
          cases ((proxyCall_eq_callback_iff w c).mp hcall).2.2.1
        · rw [(getLambdaMethod_eq_some_iff w hF.isInterface).mpr h.only] at hl
          cases hl
      | some m =>
        obtain rfl := hF.getLambdaMethod_eq w hl
        rw [getLambdaMethod_eq_some_iff w hF.isInterface] at hl
        dsimp only
        constructor
        · rintro ⟨v, h, hv, hp, vs, hcall⟩
          obtain rfl := Option.some.inj (Except.ok.inj hv)
          rw [w.asProxy_proxy] at hp
          obtain ⟨-, rfl⟩ := Prod.mk.inj (Option.some.inj hp)
          obtain ⟨hw, hd, -, hvs⟩ := (proxyCall_eq_callback_iff w c).mp hcall
          exact ⟨hn, hnull, hmore, hl, hw, hd, ⟨vs, hvs⟩⟩
        · intro h
          obtain ⟨vs, hvs⟩ := h.converted
          exact ⟨_, _, rfl, w.asProxy_proxy _ _, vs,
            (proxyCall_eq_callback_iff w c).mpr ⟨h.notWrapped, h.handled, rfl, hvs⟩⟩

section Example

/-- `interface Callback { void f(Integer n); }` -/
def callback : Class := named "Callback"

/-- `interface Listener { void f(Integer n); default void g() {} }` -/
def listenerWithDefault : Class := named "Listener"

/-- `Comparable`, of which `Integer` is a subtype. -/
def comparable : Class := named "java.lang.Comparable"

/-- `void f(Integer n)`, of the interface. -/
def takesInt (clazz : Class) : Method where
  declaringClass := clazz
  name := jstr "f"
  parameterTypes := [NumberType.int.boxed]
  returnType := Class.void

/-- `default void g()`. -/
def defaultMethod : Method where
  declaringClass := listenerWithDefault
  name := jstr "g"
  parameterTypes := []
  returnType := Class.void

/-- A class that implements the three interfaces. -/
def implementation : Class := named "Implementation"

/-- The interfaces above. -/
def interfaces : World Sample :=
  Sample.world
    (fun clazz =>
      if clazz = listenerWithDefault then [takesInt clazz, defaultMethod] else [takesInt clazz])
    (fun m => m.name == jstr "f") [callback, listenerWithDefault, comparable]
    (fun clazz =>
      if clazz = implementation then [callback, listenerWithDefault, comparable]
      else if clazz = NumberType.int.boxed then [comparable] else [])

/-- A context that converts numbers, as every context does. -/
def convertsInt : JSEngineContext Sample :=
  ({} : JSEngineContext Sample).putJavaScriptToJavaCoercion (some NumberType.int.boxed)
    (some fun _ o => .ok o)

/-- An object of the class that implements the interfaces. -/
def implementor : Sample := .object implementation 0

/-- A function of script. -/
def scriptFunction : Sample := .object Class.JavaScriptObject 1

theorem functionalInterface_interfaces {clazz : Class}
    (h : clazz = callback ∨ clazz = listenerWithDefault ∨ clazz = comparable) :
    FunctionalInterface interfaces clazz (takesInt clazz) := by
  rcases h with rfl | rfl | rfl
  · exact ⟨by decide, rfl, by decide, rfl⟩
  · exact ⟨by decide, rfl, by decide, rfl⟩
  · exact ⟨by decide, rfl, by decide, rfl⟩

/-- Only `Integer` is registered. -/
theorem eq_int_of_registered {key : Class}
    (hk : some key ∈ convertsInt.JavaScriptToJavaCoercions.keys) : key = NumberType.int.boxed := by
  simpa [convertsInt, HashMap.keys, JSEngineContext.putJavaScriptToJavaCoercion, HashMap.put,
    HashMap.putNodes] using hk

theorem unregistered_convertsInt {clazz : Class}
    (h : clazz = callback ∨ clazz = listenerWithDefault ∨ clazz = comparable) :
    Unregistered interfaces convertsInt.JavaToJavascriptCoercions clazz ∧
      Unregistered interfaces convertsInt.JavaScriptToJavaCoercions clazz := by
  constructor
  · intro key hk
    cases hk
  · intro key hk
    obtain rfl := eq_int_of_registered hk
    rcases h with rfl | rfl | rfl <;> decide

theorem javaScriptFunction_scriptFunction : JavaScriptFunction interfaces scriptFunction where
  isJavaScriptObject := by decide
  notWrapper := rfl
  notBoolean := by decide
  notNumber t := by cases t <;> decide
  notProxy := rfl

end Example

end JSEngine.Coerce
