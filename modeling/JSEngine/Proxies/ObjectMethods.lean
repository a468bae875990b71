import JSEngine.Coerce.Tables

/-!
# Object methods of interface proxies

A `JavaScriptObject` that Java wants as an interface becomes a `java.lang.reflect.Proxy`.
Its invocation handler is built in layers (JSEngineContext.java:62-83, 242-257;
JavaScriptObject.java:170-213); the outermost one passes `equals`, `hashCode` and
`toString` on to the `JavaScriptObject`, with the arguments as they are.
`JavaScriptObject` does not override `equals`, so it is equal to itself only, and no
proxy is.

Main results:

* `equals_iff`: what an object or a proxy is equal to;
* `hashCode_of_equals`, `equals_trans`: equal objects have equal hash codes, and `equals`
  is transitive, for proxies too;
* `object_contract_iff`: the contract of `Object` holds on a set of objects and proxies if
  and only if there is no proxy in it.
-/

namespace JSEngine.Proxies

open JSEngine.Java JSEngine.Coerce
open JSEngine.Members (Method)

/-! ## Model -/

/-- What an invocation handler is called for. The `Method` of `equals`, `hashCode` and
    `toString` is the one of `Object`, also where an interface declares it. -/
inductive Called
  | equals
  | hashCode
  | toString
  | getNativePointer
  | getNativeContext
  | getJavaScriptObject
  | other (method : Method)
  deriving DecidableEq

/-- `method.getDeclaringClass()`. -/
def Called.getDeclaringClass : Called → Members.Class
  | .equals | .hashCode | .toString => Class.Object
  | .getNativePointer | .getNativeContext | .getJavaScriptObject => Class.JSEngineJavaScriptObject
  | .other method => method.declaringClass

variable {J : Type*}

/-- An `InvocationHandler`, by the place in the source that makes it; `J` are the
    JavaScript objects, by their identity in Java. -/
inductive Handler (J : Type*)
  /-- JSEngineContext.java:250-251 -/
  | callback (jo : J)
  /-- JavaScriptObject.java:180-200 -/
  | members (jo : J)
  /-- JavaScriptObject.java:171-176 -/
  | javaScriptObjectMethods (jo : J) (wrapped : Handler J)
  /-- JSEngineContext.java:64-69 -/
  | objectMethods (jo : J) (handler : Handler J)
  /-- what a wrapper of the application makes of a handler -/
  | application (wrapper : ℕ) (handler : Handler J)

/-- A proxy instance. -/
structure Proxy (J : Type*) where
  identity : ℕ
  interfaces : List Members.Class
  handler : Handler J

/-- A reference to a `JavaScriptObject` or to a proxy. -/
inductive Ref (J : Type*)
  | javaScriptObject (jo : J)
  | proxy (p : Proxy J)

/-- What a method returns. -/
inductive Value (J : Type*)
  | boolean (b : Bool)
  | int (n : JInt)
  | long (n : ℤ)
  | string (s : JString)
  | ref (r : Ref J)

/-- What the JVM, the scripts and the application answer. -/
structure Runtime (J : Type*) where
  /-- `System.identityHashCode(jo)` -/
  identityHashCode : J → JInt
  pointer : J → ℤ
  context : J → ℤ
  /-- `jo.toString()`, a script -/
  toString : J → Except Throwable (JRef (Value J))
  /-- calls of the function, and of its properties -/
  call : J → Called → List (JRef (Ref J)) → Except Throwable (JRef (Value J))
  callProperty : J → Called → List (JRef (Ref J)) → Except Throwable (JRef (Value J))
  /-- a handler of the application, from the one that it wraps -/
  application : ℕ → (Called → List (JRef (Ref J)) → Except Throwable (JRef (Value J))) →
    Called → List (JRef (Ref J)) → Except Throwable (JRef (Value J))

section

variable [DecidableEq J] (r : Runtime J)

/-- `jo.equals(o)`, which is `Object.equals`. -/
def objectEquals (jo : J) : JRef (Ref J) → Bool
  | some (.javaScriptObject o) => jo = o
  | _ => false

/-- `method.invoke(jo, args)`. -/
def methodInvoke (jo : J) (called : Called) (args : List (JRef (Ref J))) :
    Except Throwable (JRef (Value J)) :=
  match called, args with
  | .equals, [o] => .ok (some (.boolean (objectEquals jo o)))
  | .hashCode, [] => .ok (some (.int (r.identityHashCode jo)))
  | .toString, [] => r.toString jo
  | .getNativePointer, [] => .ok (some (.long (r.pointer jo)))
  | .getNativeContext, [] => .ok (some (.long (r.context jo)))
  | .getJavaScriptObject, [] => .ok (some (.ref (.javaScriptObject jo)))
  | .other _, _ =>
    .error ⟨"java.lang.IllegalArgumentException", "object is not an instance of declaring class"⟩
  | _, _ => .error ⟨"java.lang.IllegalArgumentException", "wrong number of arguments"⟩

/-- `handler.invoke(proxy, method, args)`; no handler of the library uses `proxy`. -/
def Handler.invoke : Handler J → Called → List (JRef (Ref J)) →
    Except Throwable (JRef (Value J))
  | .callback jo, method, args => r.call jo method args
  | .members jo, method, args => r.callProperty jo method args
  | .javaScriptObjectMethods jo wrapped, method, args =>
    if method.getDeclaringClass = Class.JSEngineJavaScriptObject then methodInvoke r jo method args
    else wrapped.invoke method args
  | .objectMethods jo handler, method, args =>
    if method.getDeclaringClass = Class.Object then methodInvoke r jo method args
    else handler.invoke method args
  | .application n handler, method, args =>
    r.application n (fun method args => handler.invoke method args) method args

/-- `x.equals(o)`. -/
def Ref.equals (x : Ref J) (o : JRef (Ref J)) : Except Throwable Bool :=
  match x with
  | .javaScriptObject jo => .ok (objectEquals jo o)
  | .proxy p =>
    match p.handler.invoke r .equals [o] with
    | .ok (some (.boolean b)) => .ok b
    | .ok none => .error nullPointerException
    | .ok _ => .error classCastException
    | .error e => .error e

/-- `x.hashCode()`. -/
def Ref.hashCode (x : Ref J) : Except Throwable JInt :=
  match x with
  | .javaScriptObject jo => .ok (r.identityHashCode jo)
  | .proxy p =>
    match p.handler.invoke r .hashCode [] with
    | .ok (some (.int n)) => .ok n
    | .ok none => .error nullPointerException
    | .ok _ => .error classCastException
    | .error e => .error e

/-- `ArrayList.contains`: `indexOf` asks the object looked for. -/
def contains (o : Ref J) : List (Ref J) → Except Throwable Bool
  | [] => .ok false
  | e :: es =>
    match o.equals r (some e) with
    | .error t => .error t
    | .ok true => .ok true
    | .ok false => contains o es

/-- `ArrayList.remove(Object)`: whether it was found, and the list after it. -/
def remove (o : Ref J) : List (Ref J) → Except Throwable (Bool × List (Ref J))
  | [] => .ok (false, [])
  | e :: es =>
    match o.equals r (some e) with
    | .error t => .error t
    | .ok true => .ok (true, es)
    | .ok false => (remove o es).map fun found => (found.1, e :: found.2)

end

/-- The wrapper that `setInvocationHandlerWrapper` has installed. -/
structure JSEngineContext (J : Type*) where
  invocationHandlerWrapper : JRef (J → Handler J → JRef (Handler J))

variable (c : JSEngineContext J)

/-- `JSEngineContext.getWrappedInvocationHandler` (lines 72-83). -/
def JSEngineContext.getWrappedInvocationHandler (javaScriptObject : J) (handler : Handler J) :
    Handler J :=
  let handler := Handler.objectMethods javaScriptObject handler
  match c.invocationHandlerWrapper with
  | none => handler
  | some wrapInvocationHandler =>
    match wrapInvocationHandler javaScriptObject handler with
    | some wrapped => wrapped
    | none => handler

/-- `JavaScriptObject.getWrappedInvocationHandler` (lines 170-177). -/
def getWrappedInvocationHandler (jo : J) (wrapped : Handler J) : Handler J :=
  c.getWrappedInvocationHandler jo (.javaScriptObjectMethods jo wrapped)

/-- `createInvocationHandler` (lines 179-203). -/
def createInvocationHandler (jo : J) : Handler J :=
  getWrappedInvocationHandler c jo (.members jo)

/-- `proxyInterface` (lines 205-213), where the JVM makes the object `identity`. -/
def proxyInterface (identity : ℕ) (jo : J) (clazz : Members.Class)
    (more : JRef (List Members.Class)) : Proxy J where
  identity := identity
  interfaces := Class.JSEngineJavaScriptObject :: clazz :: more.getD []
  handler := createInvocationHandler c jo

/-- The end of `coerceJavaScriptToJava` (JSEngineContext.java:242-257). -/
def coercedProxy {V : Type*} (w : World V) (identity : ℕ) (clazz : Members.Class) (jo : J) :
    Proxy J where
  identity := identity
  interfaces := [Class.JSEngineJavaScriptObject, clazz]
  handler :=
    match getLambdaMethod w clazz with
    | some _ => getWrappedInvocationHandler c jo (.callback jo)
    | none => createInvocationHandler c jo

/-! ## What equals what -/

/-- A proxy over `jo` that the library has made. -/
inductive Made {V : Type*} (w : World V) (c : JSEngineContext J) (jo : J) : Ref J → Prop
  | coerced (identity : ℕ) (clazz : Members.Class) :
    Made w c jo (.proxy (coercedProxy c w identity clazz jo))
  | proxyInterface (identity : ℕ) (clazz : Members.Class) (more : JRef (List Members.Class)) :
    Made w c jo (.proxy (proxyInterface c identity jo clazz more))

/-- The `JavaScriptObject` itself, or a proxy over it. -/
def Over {V : Type*} (w : World V) (c : JSEngineContext J) (jo : J) (x : Ref J) : Prop :=
  x = .javaScriptObject jo ∨ Made w c jo x

variable {c} {V : Type*} {w : World V}

theorem getWrappedInvocationHandler_eq (hc : c.invocationHandlerWrapper = none) (jo : J)
    (handler : Handler J) : getWrappedInvocationHandler c jo handler =
      .objectMethods jo (.javaScriptObjectMethods jo handler) := by
  simp only [getWrappedInvocationHandler, JSEngineContext.getWrappedInvocationHandler, hc]

/-- Without a wrapper the outermost handler is that of the methods of `Object`. -/
theorem Made.handler_eq (hc : c.invocationHandlerWrapper = none) {jo : J} {x : Ref J}
    (h : Made w c jo x) : ∃ p handler, x = .proxy p ∧ p.handler = .objectMethods jo handler := by
  cases h with
  | coerced identity clazz =>
    cases hlambda : getLambdaMethod w clazz with
    | some method =>
      refine ⟨_, .javaScriptObjectMethods jo (.callback jo), rfl, ?_⟩
      simp only [coercedProxy, hlambda, getWrappedInvocationHandler_eq hc]
    | none =>
      refine ⟨_, .javaScriptObjectMethods jo (.members jo), rfl, ?_⟩
      simp only [coercedProxy, hlambda, createInvocationHandler, getWrappedInvocationHandler_eq hc]
  | proxyInterface identity clazz more =>
    exact ⟨_, _, rfl, getWrappedInvocationHandler_eq hc jo _⟩

variable [DecidableEq J] (r : Runtime J)

theorem objectEquals_iff (jo : J) (o : JRef (Ref J)) :
    objectEquals jo o = true ↔ o = some (.javaScriptObject jo) := by
  unfold objectEquals
  split
  · simp [eq_comm]
  · rename_i h
    simpa using h jo

/-- `equals` asks the `JavaScriptObject`. -/
theorem Over.equals (hc : c.invocationHandlerWrapper = none) {jo : J} {x : Ref J}
    (h : Over w c jo x) (o : JRef (Ref J)) : x.equals r o = .ok (objectEquals jo o) := by
  obtain rfl | h := h
  · rfl
  · obtain ⟨p, handler, rfl, hp⟩ := h.handler_eq hc
    simp only [Ref.equals, hp, Handler.invoke, Called.getDeclaringClass, if_true, methodInvoke]

theorem Over.hashCode (hc : c.invocationHandlerWrapper = none) {jo : J} {x : Ref J}
    (h : Over w c jo x) : x.hashCode r = .ok (r.identityHashCode jo) := by
  obtain rfl | h := h
  · rfl
  · obtain ⟨p, handler, rfl, hp⟩ := h.handler_eq hc
    simp only [Ref.hashCode, hp, Handler.invoke, Called.getDeclaringClass, if_true, methodInvoke]

/-- **A proxy is equal to the `JavaScriptObject` that it stands for, and to nothing else.** -/
theorem equals_iff (hc : c.invocationHandlerWrapper = none) {jo : J} {x : Ref J}
    (h : Over w c jo x) (o : JRef (Ref J)) :
    x.equals r o = .ok true ↔ o = some (.javaScriptObject jo) := by
  rw [h.equals r hc, Except.ok.injEq, objectEquals_iff]

theorem equals_trans (hc : c.invocationHandlerWrapper = none) {i j : J} {x y z : Ref J}
    (hx : Over w c i x) (hy : Over w c j y) (hxy : x.equals r (some y) = .ok true)
    (hyz : y.equals r (some z) = .ok true) : x.equals r (some z) = .ok true := by
  obtain rfl := Option.some.inj ((equals_iff r hc hx _).mp hxy)
  obtain rfl := Option.some.inj ((equals_iff (w := w) r hc (.inl rfl) _).mp hyz)
  exact hxy

theorem hashCode_of_equals (hc : c.invocationHandlerWrapper = none) {jo : J} {x y : Ref J}
    (hx : Over w c jo x) (h : x.equals r (some y) = .ok true) :
    x.hashCode r = y.hashCode r := by
  obtain rfl := Option.some.inj ((equals_iff r hc hx _).mp h)
  exact hx.hashCode r hc

/-! ## The contract -/

/-- The contract of `Object` on a set of objects and proxies, and what collections make
    of it. -/
structure ObjectContract (w : World V) (c : JSEngineContext J) (r : Runtime J) (S : Set (Ref J)) :
    Prop where
  refl : ∀ x ∈ S, x.equals r (some x) = .ok true
  symm : ∀ x ∈ S, ∀ y ∈ S, x.equals r (some y) = .ok true → y.equals r (some x) = .ok true
  trans : ∀ x ∈ S, ∀ y ∈ S, ∀ z ∈ S, x.equals r (some y) = .ok true →
    y.equals r (some z) = .ok true → x.equals r (some z) = .ok true
  same : ∀ p ∈ S, ∀ q ∈ S, ∀ jo, Made w c jo p → Made w c jo q → p.equals r (some q) = .ok true
  hashCode : ∀ x ∈ S, ∀ y ∈ S, x.equals r (some y) = .ok true → x.hashCode r = y.hashCode r
  contains : ∀ es : List (Ref J), (∀ e ∈ es, e ∈ S) → ∀ x ∈ es, contains r x es = .ok true
  remove : ∀ es : List (Ref J), (∀ e ∈ es, e ∈ S) → ∀ x ∈ es,
    ∃ es', remove r x es = .ok (true, es') ∧ es'.length + 1 = es.length

/-- What is equal to itself is found. -/
theorem contains_self (hc : c.invocationHandlerWrapper = none) {jo : J} {x : Ref J}
    (hx : Over w c jo x) (hself : x.equals r (some x) = .ok true) {es : List (Ref J)}
    (h : x ∈ es) : contains r x es = .ok true := by
  induction es with
  | nil => exact absurd h List.not_mem_nil
  | cons e es ih =>
    unfold contains
    rw [hx.equals r hc]
    cases heq : objectEquals jo (some e) with
    | true => rfl
    | false =>
      obtain rfl | h := List.mem_cons.mp h
      · rw [hx.equals r hc, heq] at hself
        cases hself
      · exact ih h

theorem remove_self (hc : c.invocationHandlerWrapper = none) {jo : J} {x : Ref J}
    (hx : Over w c jo x) (hself : x.equals r (some x) = .ok true) {es : List (Ref J)}
    (h : x ∈ es) : ∃ es', remove r x es = .ok (true, es') ∧ es'.length + 1 = es.length := by
  induction es with
  | nil => exact absurd h List.not_mem_nil
  | cons e es ih =>
    unfold remove
    rw [hx.equals r hc]
    cases heq : objectEquals jo (some e) with
    | true => exact ⟨es, rfl, rfl⟩
    | false =>
      obtain rfl | h := List.mem_cons.mp h
      · rw [hx.equals r hc, heq] at hself
        cases hself
      · obtain ⟨es', hremoved, hlength⟩ := ih h
        refine ⟨e :: es', ?_, by rw [List.length_cons, List.length_cons, hlength]⟩
        simp only [hremoved, Except.map]

/-- **The contract of `Object` holds exactly where there are no proxies.** -/
theorem object_contract_iff (hc : c.invocationHandlerWrapper = none) (S : Set (Ref J))
    (hS : ∀ x ∈ S, ∃ jo, Over w c jo x) :
    ObjectContract w c r S ↔ ∀ x ∈ S, ∃ jo, x = .javaScriptObject jo := by
  constructor
  · intro h x hx
    obtain ⟨jo, hover⟩ := hS x hx
    exact ⟨jo, Option.some.inj ((equals_iff r hc hover _).mp (h.refl x hx))⟩
  · intro h
    have hrefl : ∀ x ∈ S, x.equals r (some x) = .ok true := by
      intro x hx
      obtain ⟨jo, rfl⟩ := h x hx
      exact (equals_iff (w := w) r hc (.inl rfl) _).mpr rfl
    have hraw : ∀ x ∈ S, ∀ y ∈ S, x.equals r (some y) = .ok true → y = x := by
      intro x hx y hy hxy
      obtain ⟨jo, rfl⟩ := h x hx
      exact Option.some.inj ((equals_iff (w := w) r hc (.inl rfl) _).mp hxy)
    refine ⟨hrefl, ?_, ?_, ?_, ?_, ?_, ?_⟩
    · intro x hx y hy hxy
      obtain rfl := hraw x hx y hy hxy
      exact hxy
    · intro x hx y hy z _ hxy hyz
      obtain ⟨i, hi⟩ := hS x hx
      obtain ⟨j, hj⟩ := hS y hy
      exact equals_trans r hc hi hj hxy hyz
    · intro p hp q _ jo hmade _
      obtain ⟨j, rfl⟩ := h p hp
      obtain ⟨p, _, heq, -⟩ := hmade.handler_eq hc
      cases heq
    · intro x hx y _ hxy
      obtain ⟨jo, hover⟩ := hS x hx
      exact hashCode_of_equals r hc hover hxy
    · intro es hes x hx
      obtain ⟨jo, hover⟩ := hS x (hes x hx)
      exact contains_self r hc hover (hrefl x (hes x hx)) hx
    · intro es hes x hx
      obtain ⟨jo, hover⟩ := hS x (hes x hx)
      exact remove_self r hc hover (hrefl x (hes x hx)) hx

/-- Nothing that a method of `Object` asks for. -/
def Runtime.plain : Runtime ℕ where
  identityHashCode := fun jo => BitVec.ofNat 32 jo
  pointer := fun _ => 0
  context := fun _ => 0
  toString := fun _ => .ok none
  call := fun _ _ _ => .ok none
  callProperty := fun _ _ _ => .ok none
  application := fun _ handler => handler

/-- No class has methods. -/
def noMethods : World Sample := Sample.world (fun _ => []) (fun _ => false) [] (fun _ => [])

/-- The proxy over the object 0 that `proxyInterface` makes. -/
def listener : Ref ℕ := .proxy (proxyInterface ⟨none⟩ 7 0 (named "Listener") none)

/-- Two objects and a proxy over one of them, without a wrapper. -/
theorem object_contract_iff_three :
    ObjectContract noMethods ⟨none⟩ Runtime.plain
        {.javaScriptObject 0, .javaScriptObject 1, listener} ↔
      ∀ x ∈ ({.javaScriptObject 0, .javaScriptObject 1, listener} : Set (Ref ℕ)),
        ∃ jo, x = .javaScriptObject jo := by
  refine object_contract_iff (w := noMethods) (c := ⟨none⟩) Runtime.plain rfl _ ?_
  rintro x (rfl | rfl | rfl)
  · exact ⟨0, .inl rfl⟩
  · exact ⟨1, .inl rfl⟩
  · exact ⟨0, .inr (.proxyInterface _ _ _)⟩

/-- A proxy is not equal to itself, a list that holds it does not contain it, and it is
    equal to an object that is not equal to it. -/
theorem proxy_not_itself :
    ¬ObjectContract noMethods ⟨none⟩ Runtime.plain {.javaScriptObject 0, listener} ∧
      listener.equals Runtime.plain (some listener) = .ok false ∧
      contains Runtime.plain listener [listener] = .ok false ∧
      listener.equals Runtime.plain (some (.javaScriptObject 0)) = .ok true ∧
      Ref.equals Runtime.plain (.javaScriptObject 0) (some listener) = .ok false := by
  have hself : listener.equals Runtime.plain (some listener) = .ok false := rfl
  refine ⟨fun h => ?_, hself, rfl, rfl, rfl⟩
  have hrefl := h.refl listener (.inr rfl)
  rw [hself] at hrefl
  cases hrefl

end JSEngine.Proxies
