import JSEngine.Coerce.Tables

/-!
# `call` and `apply` of a `JSEngineMethodObject`

A Java function in script has the members `call` and `apply`, two method objects that the
default `get` makes (JSEngineMethodObject.java). Both take the `this` value off the
arguments; `call` passes the rest on, and `apply` the elements of an array-like object. The
array-like is cast to `JavaScriptObject`, and its elements are read with
`JavaScriptObject.get`, which takes wrapped Java objects out of their wrappers.

Main results:

* `call_callMethod`: `call` passes on what it is given;
* `apply_array`: `apply` with a JavaScript array passes on its elements, unwrapped;
* `call_apply_iff`: `apply` does what JavaScript's does, and what `call` does with the
  elements, if and only if the array is missing or is a JavaScript array without a wrapped
  Java object.
-/

namespace JSEngine.Coerce

open JSEngine.Java

variable {V : Type*} [DecidableEq V] (w : World V)

/-! ## Model -/

/-- What a method object that `get` makes does when it is called. -/
inductive Performed (V : Type*)
  /-- `return self.callMethod(thisArg, args)` -/
  | callMethod (thisArg : JRef V) (args : List (JRef V))
  | returned (s : JString)
  | thrown (t : Throwable)
  deriving DecidableEq

/-- `if (!a.isEmpty()) thisArg = a.remove(0);`, and what is left of `a`. -/
def takeThis : List (JRef V) → JRef V × List (JRef V)
  | [] => (none, [])
  | thisArg :: a => (thisArg, a)

/-- The loop that fills `newArgs` from the index on (lines 39-41). -/
def readArgs (jarray : V) : ℕ → ℤ → Except Throwable (List (JRef V))
  | 0, _ => .ok []
  | n + 1, i =>
    match getInteger w jarray i with
    | .error t => .error t
    | .ok arg => (readArgs jarray n (i + 1)).map fun newArgs => arg :: newArgs

/-- `newArgs` (lines 32-43), from what follows the `this` value. -/
def newArgs : List (JRef V) → Except Throwable (List (JRef V))
  | [] => .ok []
  | none :: _ => .error nullPointerException
  | some jarray :: _ =>
    if w.isJavaScriptObject jarray then
      match arrayLength w jarray with
      | .error t => .error t
      | .ok length =>
        if length < 0 then .error ⟨"java.lang.NegativeArraySizeException", ""⟩
        else readArgs w jarray length.toNat 0
    else .error classCastException

/-- `callMethod` of `get("call")` (lines 12-19). -/
def callCallMethod (_ : JRef V) (args : List (JRef V)) : Performed V :=
  let (thisArg, a) := takeThis args
  .callMethod thisArg a

/-- `callMethod` of `get("apply")` (lines 25-44). -/
def applyCallMethod (_ : JRef V) (args : List (JRef V)) : Performed V :=
  let (thisArg, a) := takeThis args
  match newArgs w a with
  | .error t => .thrown t
  | .ok newArgs => .callMethod thisArg newArgs

/-- `JSEngineMethodObject.get`: the `callMethod` of the method object, or null. -/
def methodObjectGet (key : V) : JRef (JRef V → List (JRef V) → Performed V) :=
  if w.asString key = some (jstr "call") then some callCallMethod
  else if w.asString key = some (jstr "apply") then some (applyCallMethod w)
  else if w.asString key = some (jstr "toString") then some fun _ _ => .returned (jstr "function")
  else none

/-! ## Specification -/

/-- What a script gives `apply` for its arguments, with the elements as Java finds them. -/
inductive ArrayLike (V : Type*)
  | missing
  /-- `null` or `undefined`: both are null in Java -/
  | null
  | array (jo : V) (elements : List (JRef V))
  | uint8Array (buffer : V) (elements : List (JRef V))
  | javaArray (o : V) (elements : List (JRef V))

/-- The arguments of `apply` after the `this` value. -/
def ArrayLike.args : ArrayLike V → List (JRef V)
  | .missing => []
  | .null => [none]
  | .array o _ | .uint8Array o _ | .javaArray o _ => [some o]

/-- What JavaScript's `Function.prototype.apply` calls the function with. -/
def ArrayLike.elements : ArrayLike V → List (JRef V)
  | .missing | .null => []
  | .array _ elements | .uint8Array _ elements | .javaArray _ elements => elements

/-- `java.nio.ByteBuffer`, which a `Uint8Array` becomes. -/
def Class.ByteBuffer : Class := named "java.nio.ByteBuffer"

/-- What Java finds where a script gives this. A JavaScript array answers `length` and its
    indices, a `Uint8Array` is a `ByteBuffer`, and a Java array comes in a wrapper or as it
    is. -/
def ArrayLike.Holds : ArrayLike V → Prop
  | .missing | .null => True
  | .array jo elements =>
    w.isJavaScriptObject jo = true ∧
      (∃ n, getString w jo (jstr "length") = .ok (some n) ∧ w.isNumber n = true ∧
        w.intValue n = elements.length) ∧
      ∀ i (h : i < elements.length), w.getKeyInteger jo i = .ok elements[i]
  | .uint8Array buffer _ =>
    w.isInstance Class.ByteBuffer buffer = true ∧ w.isJavaScriptObject buffer = false
  | .javaArray o elements =>
    (∃ a, unwrap w o = some a ∧ w.elements a = some elements) ∧ w.isJavaScriptObject o = false

/-- The array is missing, or it is a JavaScript array of values that no wrapper is around. -/
def ArrayLike.Settled : ArrayLike V → Prop
  | .missing => True
  | .array _ elements => ∀ e ∈ elements, e.bind (unwrap w) = e
  | .null | .uint8Array _ _ | .javaArray _ _ => False

/-! ## Results -/

omit [DecidableEq V] in
/-- `call` passes on what it is given. -/
theorem call_callMethod (thiz thisArg : JRef V) (args : List (JRef V)) :
    callCallMethod thiz (thisArg :: args) = .callMethod thisArg args := rfl

/-- The loop reads the elements in their order. -/
theorem readArgs_eq {jo : V} {elements : List (JRef V)} (i : ℕ)
    (h : ∀ j (hj : j < elements.length), w.getKeyInteger jo ((i + j : ℕ) : ℤ) = .ok elements[j]) :
    readArgs w jo elements.length i = .ok (elements.map fun e => e.bind (unwrap w)) := by
  induction elements generalizing i with
  | nil => rfl
  | cons e es ih =>
    have hfirst : getInteger w jo i = .ok (e.bind (unwrap w)) := by
      have h0 := h 0 (Nat.zero_lt_succ _)
      rw [Nat.add_zero] at h0
      rw [getInteger, h0]
      rfl
    have hrest := ih (i + 1) fun j hj => by
      have hj' := h (j + 1) (Nat.succ_lt_succ hj)
      rwa [← Nat.add_assoc, Nat.add_right_comm] at hj'
    rw [List.length_cons, readArgs, hfirst]
    rw [Nat.cast_succ] at hrest
    simp only [hrest, Except.map, List.map_cons]

/-- `apply` with a JavaScript array. -/
theorem apply_array (thiz thisArg : JRef V) {jo : V} {elements : List (JRef V)}
    (h : (ArrayLike.array jo elements).Holds w) :
    applyCallMethod w thiz [thisArg, some jo] =
      .callMethod thisArg (elements.map fun e => e.bind (unwrap w)) := by
  obtain ⟨hjo, ⟨n, hget, hnumber, hint⟩, helements⟩ := h
  have hlength : arrayLength w jo = .ok elements.length := by
    simp only [arrayLength, hget, hnumber, hint, if_true]
  have hread : readArgs w jo elements.length 0 = .ok (elements.map fun e => e.bind (unwrap w)) :=
    readArgs_eq w 0 fun j hj => by
      rw [Nat.zero_add]
      exact helements j hj
  have hneg : ¬(elements.length : ℤ) < 0 := by omega
  simp only [applyCallMethod, takeThis, newArgs, hjo, hlength, if_true, if_neg hneg,
    Int.toNat_natCast, hread]

/-- The function that `f.get(key)` is, called. -/
def performed (key : V) (thiz : JRef V) (args : List (JRef V)) : JRef (Performed V) :=
  (methodObjectGet w key).map fun callMethod => callMethod thiz args

theorem performed_call {key : V} (h : w.asString key = some (jstr "call")) (thiz : JRef V)
    (args : List (JRef V)) : performed w key thiz args = some (callCallMethod thiz args) := by
  rw [performed, methodObjectGet, if_pos h, Option.map_some]

theorem performed_apply {key : V} (h : w.asString key = some (jstr "apply")) (thiz : JRef V)
    (args : List (JRef V)) : performed w key thiz args = some (applyCallMethod w thiz args) := by
  have hne : some (jstr "apply") ≠ some (jstr "call") := by decide
  rw [performed, methodObjectGet, if_neg (h ▸ hne), if_pos h, Option.map_some]

/-- **`call` and `apply` agree.** -/
theorem call_apply_iff {call apply : V} (hcall : w.asString call = some (jstr "call"))
    (happly : w.asString apply = some (jstr "apply")) (thiz thisArg : JRef V) (a : ArrayLike V)
    (h : a.Holds w) :
    performed w apply thiz (thisArg :: a.args) = some (.callMethod thisArg a.elements) ∧
        performed w call thiz (thisArg :: a.elements) = some (.callMethod thisArg a.elements) ↔
      a.Settled w := by
  rw [performed_call w hcall, call_callMethod, and_iff_left rfl, performed_apply w happly,
    Option.some.injEq]
  cases a with
  | missing => exact iff_of_true rfl trivial
  | null => exact iff_of_false (by simp [applyCallMethod, takeThis, newArgs, ArrayLike.args]) id
  | array jo elements =>
    have hmap := List.map_inj_left (l := elements) (f := fun e => e.bind (unwrap w)) (g := id)
    rw [List.map_id] at hmap
    rw [ArrayLike.args, apply_array w thiz thisArg h, Performed.callMethod.injEq,
      and_iff_right rfl]
    exact hmap
  | uint8Array buffer elements =>
    refine iff_of_false ?_ id
    simp [applyCallMethod, takeThis, newArgs, ArrayLike.args, h.2]
  | javaArray o elements =>
    refine iff_of_false ?_ id
    simp [applyCallMethod, takeThis, newArgs, ArrayLike.args, h.2]

/-- Every object is the JavaScript array of the strings `a` and `b`. -/
def twoStrings : World Sample :=
  let world := Sample.world (fun _ => []) (fun _ => false) [] fun _ => []
  { world with
    getKeyString := fun _ _ => .ok (some (.int 2))
    getKeyInteger := fun _ i => .ok (some (.string (jstr (if i = 0 then "a" else "b")))) }

/-- `f.apply(1, ["a", "b"])` and `f.call(1, "a", "b")`. -/
theorem call_apply_two :
    performed twoStrings (.string (jstr "apply")) none
          [some (.int 1), some (.object Class.JavaScriptObject 0)] =
        some (.callMethod (some (.int 1)) [some (.string (jstr "a")), some (.string (jstr "b"))]) ∧
      performed twoStrings (.string (jstr "call")) none
          [some (.int 1), some (.string (jstr "a")), some (.string (jstr "b"))] =
        some (.callMethod (some (.int 1)) [some (.string (jstr "a")), some (.string (jstr "b"))]) := by
  let elements : List (JRef Sample) := [some (.string (jstr "a")), some (.string (jstr "b"))]
  have hholds : (ArrayLike.array (.object Class.JavaScriptObject 0) elements).Holds twoStrings := by
    refine ⟨by decide, ⟨.int 2, rfl, by decide, rfl⟩, ?_⟩
    rintro (_ | _ | i) hi
    · rfl
    · rfl
    · exact absurd hi (by simp [elements])
  have hsettled : (ArrayLike.array (.object Class.JavaScriptObject 0) elements).Settled twoStrings :=
    List.forall_mem_cons.mpr ⟨rfl, List.forall_mem_singleton.mpr rfl⟩
  exact (call_apply_iff twoStrings rfl rfl none (some (.int 1)) _ hholds).mpr hsettled

/-- `f.apply(1, null)` throws, where `f.call(1)` calls the function, and so does `apply` with
    a `Uint8Array`. -/
theorem apply_null_throws :
    performed twoStrings (.string (jstr "apply")) none [some (.int 1), none] =
        some (.thrown nullPointerException) ∧
      performed twoStrings (.string (jstr "call")) none [some (.int 1)] =
        some (.callMethod (some (.int 1)) []) ∧
      performed twoStrings (.string (jstr "apply")) none
          [some (.int 1), some (.object Class.ByteBuffer 0)] =
        some (.thrown classCastException) :=
  ⟨rfl, rfl, rfl⟩

end JSEngine.Coerce
