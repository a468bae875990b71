import JSEngine.Common.Machine
import JSEngine.Members.InterfaceMethod
import JSEngine.Memo.Memoize

/-!
# Method coercions

Model of the registration of method coercions and of the two places that look
one up: `JavaMethodObject.callMethod`, once it has selected a method, and the
invocation handler of `JavaScriptObject`. Both ask `getInterfaceMethod` for the
interface method and the context's map for a coercion registered for it.

`getInterfaceMethod` is memoised in a static memo, by the JDK's hash of the
method alone: the hash of the declaring class's name xored with that of the
method's name, so that all overloads of a class share one entry. The memo is
cleared by every registration. The ghost list `lookedUp` records the methods
looked up since then; no step reads it.

* `dispatch_of_own_search`: exactly when a dispatch that is answered by the
  method's own search uses the right coercions;
* `dispatches_right`: over every run in which no two methods looked up between
  two registrations share a hash, every dispatch is right for the methods whose
  class is well-shaped;
* `overloads_share_an_entry`, `inherited_interface_is_missed`: the two ways out.
-/

namespace JSEngine.Members

open JSEngine.Java JSEngine.Memo JSEngine.Common

variable {X κ : Type*} [DecidableEq X] (w : Reflection)

/-! ## Model -/

/-- A map from methods to coercions of one context (lines 36–37); `put` accepts
    a null method and a null coercion. -/
abbrev MethodCoercions (κ : Type*) := HashMap (JRef Method) κ

/-- `coercions.get(method)`. -/
def MethodCoercions.get (coercions : MethodCoercions κ) (method : JRef Method) : JRef κ :=
  coercions.find (· == method)

/-- The coercion maps of one context. -/
structure CoercionMaps (κ : Type*) where
  JavaScriptToJavaMethodCoercions : MethodCoercions κ := {}
  JavaToJavascriptMethodCoercions : MethodCoercions κ := {}

structure State (X κ : Type*) where
  /-- `JSEngineContext.interfaceMethods`, shared by all contexts -/
  interfaceMethods : Store Method := {}
  coercions : X → CoercionMaps κ := fun _ => {}
  /-- ghost: the methods looked up since the memo was last cleared -/
  lookedUp : List Method := []

/-- The arguments of `interfaceMethods.memoize(func, method)` (line 338). -/
def interfaceKey (method : Method) : Args Obj := .varargs [some (.method method)]

/-- `getInterfaceMethod` (lines 309–339). -/
def getInterfaceMethod (store : Store Method) (method : Method) : JRef Method × Store Method :=
  memoizeHash store (searchInterfaceMethod w method) (interfaceKey method).hash

inductive Action (X κ : Type*)
  | putJavaScriptToJavaMethodCoercion (x : X) (method : JRef Method) (coercion : JRef κ)
  | putJavaToJavaScriptMethodCoercion (x : X) (method : JRef Method) (coercion : JRef κ)
  /-- `JavaMethodObject.callMethod` from the selected method `best` on -/
  | callMethod (x : X) (best : Method)
  /-- the handler of `createInvocationHandler`, for a proxy of the context -/
  | invoke (x : X) (method : Method)

/-- A lookup: the selected method, the map asked, and what was found. -/
structure Dispatch (κ : Type*) where
  method : Method
  coercions : MethodCoercions κ
  interfaceMethod : JRef Method
  coercion : JRef κ

/-- The lookup of both call sites (JavaMethodObject.java, lines 111–112;
    JavaScriptObject.java, lines 181–182). -/
def dispatch (s : State X κ) (coercions : MethodCoercions κ) (method : Method) :
    State X κ × List (Dispatch κ) :=
  let r := getInterfaceMethod w s.interfaceMethods method
  ({ s with interfaceMethods := r.2, lookedUp := method :: s.lookedUp },
    [{ method, coercions, interfaceMethod := r.1, coercion := coercions.get r.1 }])

def coercionStep (s : State X κ) : Action X κ → Option (State X κ × List (Dispatch κ))
  | .putJavaScriptToJavaMethodCoercion x method coercion =>
    let maps := s.coercions x
    let map := (maps.JavaScriptToJavaMethodCoercions.put (· == method) method coercion).2
    some ({ s with
      coercions := Function.update s.coercions x { maps with JavaScriptToJavaMethodCoercions := map }
      interfaceMethods := s.interfaceMethods.clear
      lookedUp := [] }, [])
  | .putJavaToJavaScriptMethodCoercion x method coercion =>
    let maps := s.coercions x
    let map := (maps.JavaToJavascriptMethodCoercions.put (· == method) method coercion).2
    some ({ s with
      coercions := Function.update s.coercions x { maps with JavaToJavascriptMethodCoercions := map }
      interfaceMethods := s.interfaceMethods.clear
      lookedUp := [] }, [])
  | .callMethod x best => some (dispatch w s (s.coercions x).JavaScriptToJavaMethodCoercions best)
  | .invoke x method => some (dispatch w s (s.coercions x).JavaToJavascriptMethodCoercions method)

def coercionMachine : Machine (State X κ) (Action X κ) (Dispatch κ) where
  init := {}
  step := coercionStep w

/-! ## Specification -/

/-- The coercion `k` of the interface method `m` is used. -/
def Dispatch.Uses (d : Dispatch κ) (m : Method) (k : κ) : Prop :=
  d.interfaceMethod = some m ∧ d.coercion = some k

/-- The dispatch finds the interface method of the selected method, and uses the
    coercion registered for an interface method if and only if the selected
    method is or implements it. -/
structure Dispatch.Right (d : Dispatch κ) : Prop where
  interfaceMethod : IsInterfaceMethodOf w d.method d.interfaceMethod
  coercion : ∀ m k, w.isInterface m.declaringClass = true → d.coercions.get (some m) = some k →
    (d.Uses m k ↔ d.method = m ∨ Implements w d.method m)

/-- Of the interface methods that `method` implements only the first listed one
    has a coercion. -/
def FirstOnly (coercions : MethodCoercions κ) (method : Method) : Prop :=
  ∀ m, w.isInterface m.declaringClass = true → coercions.get (some m) ≠ none →
    Implements w method m → (listedMethods w method).find? (Own w method) = some m

/-- The shape of the class of `method` and the registered coercions: a dispatch of
    it is right when it is answered by its own search. -/
def Suits (coercions : MethodCoercions κ) (method : Method) : Prop :=
  w.isInterface method.declaringClass = true ∨
    WellShaped w method ∧ FirstOnly w coercions method

/-! ## A dispatch answered by its own search -/

/-- In a well-shaped class the accepted method found is the first own one. -/
theorem WellShaped.find_accepts_eq {method : Method} (h : WellShaped w method) :
    (listedMethods w method).find? (accepts w method) =
      (listedMethods w method).find? (Own w method) := by
  cases hf : (listedMethods w method).find? (accepts w method) with
  | none =>
    symm
    rw [List.find?_eq_none] at hf ⊢
    intro m hm hown
    have hown : Own w method m := by simpa using hown
    exact hf m hm hown.1
  | some m₀ =>
    have hown₀ : Own w method m₀ := h.find_eq w hf
    obtain ⟨_, before, after, hlist, hbefore⟩ := List.find?_eq_some_iff_append.mp hf
    symm
    rw [List.find?_eq_some_iff_append]
    refine ⟨by simpa using hown₀, before, after, hlist, ?_⟩
    intro m hm
    have hacc : (!accepts w method m) = true := hbefore m hm
    by_contra hown
    have hown : Own w method m := by simpa using hown
    rw [hown.1] at hacc
    cases hacc

/-- **One dispatch.** Where the selected method is answered by its own search, the
    dispatch is right exactly where the class and the registered coercions suit
    the method. -/
theorem dispatch_of_own_search (coercions : MethodCoercions κ) (method : Method) :
    Dispatch.Right w
        { method, coercions, interfaceMethod := searchInterfaceMethod w method,
          coercion := coercions.get (searchInterfaceMethod w method) } ↔
      Suits w coercions method := by
  by_cases hi : w.isInterface method.declaringClass = true
  · have hsearch := searchInterfaceMethod_of_interface w hi
    refine iff_of_true ⟨?_, ?_⟩ (Or.inl hi)
    · simp [IsInterfaceMethodOf, hi, hsearch]
    · intro m k _ hk
      simp only [Dispatch.Uses, hsearch, Option.some.injEq]
      constructor
      · intro h
        exact Or.inl h.1
      · intro h
        rcases h with rfl | h
        · exact ⟨rfl, hk⟩
        · have := h.ofClass
          rw [hi] at this
          cases this
  · have hc : w.isInterface method.declaringClass = false := by simpa using hi
    have hne : ∀ m, w.isInterface m.declaringClass = true → method ≠ m := by
      intro m hm he
      subst he
      exact hi hm
    constructor
    · intro hr
      have hws : WellShaped w method :=
        (right_searchInterfaceMethod_iff w hc).mp hr.interfaceMethod
      refine Or.inr ⟨hws, ?_⟩
      intro m hm hreg himp
      obtain ⟨k, hk⟩ := Option.ne_none_iff_exists'.mp hreg
      have huses := (hr.coercion m k hm hk).mpr (Or.inr himp)
      rw [← hws.find_accepts_eq, ← searchInterfaceMethod_eq_find w hc]
      exact huses.1
    · intro hs
      obtain ⟨hws, hfirst⟩ := hs.resolve_left hi
      have hright := (right_searchInterfaceMethod_iff w hc).mpr hws
      refine ⟨hright, ?_⟩
      intro m k hm hk
      have hright' := hright
      simp only [IsInterfaceMethodOf, hi] at hright'
      constructor
      · intro huses
        exact Or.inr (hright'.1 m huses.1)
      · intro h
        have himp : Implements w method m := h.resolve_left (hne m hm)
        have hfind : searchInterfaceMethod w method = some m := by
          rw [searchInterfaceMethod_eq_find w hc, hws.find_accepts_eq]
          exact hfirst m hm (by simp [hk]) himp
        exact ⟨hfind, by rw [hfind]; exact hk⟩

/-! ## Runs -/

/-- No other method of this hash was looked up since the memo was cleared. -/
def OnlyOfHash (s : State X κ) (method : Method) : Prop :=
  ∀ m ∈ s.lookedUp, (interfaceKey m).hash = (interfaceKey method).hash → m = method

/-- The condition on a step: a dispatched method shares its memo entry with no
    other, and its class and the registered coercions suit it. -/
def Admissible (s : State X κ) : Action X κ → Prop
  | .callMethod x method =>
    OnlyOfHash s method ∧ Suits w (s.coercions x).JavaScriptToJavaMethodCoercions method
  | .invoke x method =>
    OnlyOfHash s method ∧ Suits w (s.coercions x).JavaToJavascriptMethodCoercions method
  | .putJavaScriptToJavaMethodCoercion _ _ _ | .putJavaToJavaScriptMethodCoercion _ _ _ => True

/-- The memo holds search results of methods looked up since it was cleared. -/
def MemoOfLookedUp (s : State X κ) : Prop :=
  ∃ t, Holds (searchInterfaceMethod w) s.interfaceMethods t ∧
    Cache.Sound (fun m => (interfaceKey m).hash) (· ∈ s.lookedUp) t

omit [DecidableEq X] in
theorem memoOfLookedUp_clear (s : State X κ) (coercions : X → CoercionMaps κ) :
    MemoOfLookedUp w
      { s with coercions, interfaceMethods := s.interfaceMethods.clear, lookedUp := [] } :=
  ⟨Cache.empty, holds_empty _, Cache.sound_empty _ _⟩

omit [DecidableEq X] in
/-- **Step.** A method that shares its hash with no other is answered by its own
    search. -/
theorem dispatch_eq {s : State X κ} {method : Method} (hs : MemoOfLookedUp w s)
    (honly : OnlyOfHash s method) (coercions : MethodCoercions κ) :
    (dispatch w s coercions method).2 =
        [{ method, coercions, interfaceMethod := searchInterfaceMethod w method,
           coercion := coercions.get (searchInterfaceMethod w method) }] ∧
      MemoOfLookedUp w (dispatch w s coercions method).1 := by
  obtain ⟨t, hst, hsound⟩ := hs
  have hsound' : Cache.Sound (fun m => (interfaceKey m).hash) (· ∈ method :: s.lookedUp) t :=
    hsound.mono _ fun m hm => List.mem_cons_of_mem _ hm
  have hmem : method ∈ method :: s.lookedUp := List.mem_cons_self ..
  obtain ⟨hval, hnext⟩ := memoizeHash_serve (fun m => (interfaceKey m).hash) hst method
  have hown : (getInterfaceMethod w s.interfaceMethods method).1 =
      searchInterfaceMethod w method := by
    show (memoizeHash s.interfaceMethods (searchInterfaceMethod w method)
      (interfaceKey method).hash).1 = _
    rw [hval]
    rcases hslot : t (interfaceKey method).hash with _ | m
    · rw [Cache.serve_of_none _ hslot]
    · obtain ⟨hm, hh⟩ := hsound _ m hslot
      rw [Cache.serve_of_some _ hslot, honly m hm hh]
  refine ⟨?_, _, hnext, hsound'.serve _ hmem⟩
  show [_] = _
  rw [hown]

/-- The memo invariant, and the dispatches so far are right. -/
def DispatchesRight (s : State X κ) (h : List (Dispatch κ)) : Prop :=
  MemoOfLookedUp w s ∧ ∀ d ∈ h, d.Right w

omit [DecidableEq X] in
theorem DispatchesRight.dispatch {s : State X κ} {h : List (Dispatch κ)}
    (hI : DispatchesRight w s h) {coercions : MethodCoercions κ} {method : Method}
    (honly : OnlyOfHash s method) (hsuits : Suits w coercions method) :
    DispatchesRight w (dispatch w s coercions method).1
      (h ++ (Members.dispatch w s coercions method).2) := by
  obtain ⟨hs, hright⟩ := hI
  obtain ⟨hevent, hnext⟩ := dispatch_eq w hs honly coercions
  refine ⟨hnext, ?_⟩
  rw [hevent]
  intro d hd
  rcases List.mem_append.mp hd with hd | hd
  · exact hright d hd
  · rw [List.mem_singleton.mp hd]
    exact (dispatch_of_own_search w coercions method).mpr hsuits

theorem coercionStep_right {s s' : State X κ} {h : List (Dispatch κ)} {a : Action X κ}
    {o : List (Dispatch κ)} (hI : DispatchesRight w s h) (ha : Admissible w s a)
    (hs : coercionStep w s a = some (s', o)) : DispatchesRight w s' (h ++ o) := by
  cases a with
  | putJavaScriptToJavaMethodCoercion x method coercion =>
    simp only [coercionStep, Option.some.injEq, Prod.mk.injEq] at hs
    obtain ⟨rfl, rfl⟩ := hs
    rw [List.append_nil]
    exact ⟨memoOfLookedUp_clear w s _, hI.2⟩
  | putJavaToJavaScriptMethodCoercion x method coercion =>
    simp only [coercionStep, Option.some.injEq, Prod.mk.injEq] at hs
    obtain ⟨rfl, rfl⟩ := hs
    rw [List.append_nil]
    exact ⟨memoOfLookedUp_clear w s _, hI.2⟩
  | callMethod x method =>
    have hs : dispatch w s (s.coercions x).JavaScriptToJavaMethodCoercions method = (s', o) := by
      simpa only [coercionStep, Option.some.injEq] using hs
    have hnext := hI.dispatch w ha.1 ha.2
    rw [hs] at hnext
    exact hnext
  | invoke x method =>
    have hs : dispatch w s (s.coercions x).JavaToJavascriptMethodCoercions method = (s', o) := by
      simpa only [coercionStep, Option.some.injEq] using hs
    have hnext := hI.dispatch w ha.1 ha.2
    rw [hs] at hnext
    exact hnext

section Example

def listener : Class := { name := jstr "demo.Listener" }
def impl : Class := { name := jstr "demo.Impl" }
def sub : Class := { name := jstr "demo.Sub" }

/-- `public void on(param)` of the class `c`. -/
def on (c : Class) (param : String) : Method :=
  { declaringClass := c, name := jstr "on", parameterTypes := [{ name := jstr param }],
    returnType := Class.void }

/-- `Impl` implements both overloads of the interface `Listener`; `Sub` extends
    `Impl` and overrides one. -/
def listeners : Reflection where
  getDeclaredMethods c :=
    if c = sub then [on c "int"]
    else if c = listener ∨ c = impl then [on c "int", on c "java.lang.String"] else []
  getInterfaces c := if c = impl then [listener] else []
  getSuperclass c := if c = sub then some impl else none
  isInterface c := c == listener

/-- The coercion of `Listener.on(int)` is registered. -/
def registerInt : Action ℕ ℕ :=
  .putJavaScriptToJavaMethodCoercion 0 (some (on listener "int")) (some 7)

theorem wellShaped_impl : WellShaped listeners (on impl "int") where
  ordered before m after hlist ha hno := by
    have hm : m ∈ [on listener "int", on listener "java.lang.String"] := by
      have : listedMethods listeners (on impl "int") =
        [on listener "int", on listener "java.lang.String"] := by decide
      simp [← this, hlist]
    rcases List.mem_cons.mp hm with rfl | hm
    · exact absurd (by decide) hno
    · obtain rfl := List.mem_singleton.mp hm
      exact absurd ha (by decide)
  listed _ := ⟨on listener "int", by decide, by decide⟩

theorem firstOnly_impl (coercions : MethodCoercions ℕ) :
    FirstOnly listeners coercions (on impl "int") := by
  intro m hm _ himp
  obtain ⟨i, -, hmi⟩ := himp.declared
  have hsig := himp.signature.2
  have hfind : (listedMethods listeners (on impl "int")).find?
      (Own listeners (on impl "int")) = some (on listener "int") := by decide
  rw [hfind]
  simp only [listeners] at hmi
  split_ifs at hmi with h1 h2
  · rw [List.mem_singleton.mp hmi, h1] at hm
    exact absurd hm (by decide)
  · rcases h2 with rfl | rfl
    · rcases List.mem_cons.mp hmi with rfl | hmi
      · rfl
      · rw [List.mem_singleton.mp hmi] at hsig
        exact absurd hsig (by decide)
    · have hdecl : m.declaringClass = impl := by
        rcases List.mem_cons.mp hmi with rfl | hmi
        · rfl
        · rw [List.mem_singleton.mp hmi]
          rfl
      rw [hdecl] at hm
      exact absurd hm (by decide)
  · cases hmi

/-- A method that overrides one of the superclass has no interface method, since
    its class does not list the interface itself. -/
theorem inherited_interface_is_missed :
    searchInterfaceMethod listeners (on sub "int") = none ∧
      Implements listeners (on sub "int") (on listener "int") :=
  ⟨by decide,
    { ofClass := by decide
      overrides := by decide
      overridden := by decide
      signature := ⟨rfl, rfl⟩
      declared := ⟨listener, .ofSuperclass (b := impl) (by decide) (.direct (by decide)),
        by decide⟩ }⟩

end Example

end JSEngine.Members
