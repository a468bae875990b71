import JSEngine.Common.Lookup
import Mathlib.Logic.Function.Basic

/-!
# Script objects as `QuickJSContext` reads them

The bridge finds its own objects by reading properties under private atoms.
Such a read is an ordinary property read: `JS_GetPropertyInternal`
(quickjs.c:7018–7165) looks at the object's own properties, asks an exotic
class for its `get_property`, and goes on at the prototype. A `Proxy` asks the
script's `get` trap, with the private atom as the key (`js_proxy_get`,
quickjs.c:44015–44060), or goes on at its target.

Modelled is what these reads see at one moment. What a getter or a trap of the
script returns is part of the object; it may differ from one read to the next,
so every read has a heap of its own.

* `Heap`: script objects, with the references that the bridge's classes hold.
* `Heap.write`: what the script does to it.
* `Heap.newProxy`, `Heap.finalizeProxy`: the bridge's side of a proxy's life.
* `JS_GetProperty`, `JS_GetOwnProperty`, `JS_GetPrototype`, `JS_GetOpaque`.
-/

namespace JSEngine.QuickJS

open JSEngine.Common

/-- The private atoms that the bridge reads on values of the script
    (QuickJSContext.cpp:157–160). `javaScriptObject` is read on twins only. -/
inductive Atom where
  | customFinalizer
  | javaObject
  | javaException
  deriving DecidableEq, Repr

/-- The primitive values that are boxed. -/
inductive Scalar where
  | int
  | float64
  | bool
  | string
  deriving DecidableEq, Repr

/-- `JSValue`. -/
inductive Val (O : Type*) where
  | undefined
  | null
  | scalar (s : Scalar)
  | symbol
  | exception
  | object (o : O)
  deriving DecidableEq, Repr

/-- `JS_IsUndefinedOrNull` (line 8). -/
def Val.isUndefinedOrNull {O : Type*} : Val O → Bool
  | .undefined => true
  | .null => true
  | _ => false

/-- What a script's proxy handler answers now, where it has the trap. A
    `getOwnPropertyDescriptor` trap finds the property, does not, or throws. -/
structure Handler (O : Type*) where
  get : Option (Atom → Val O) := none
  getOwnPropertyDescriptor : Option (Atom → Option Bool) := none
  getPrototypeOf : Option (Val O) := none

/-- The class of an object, with its opaque field for the two classes of the
    bridge: `QuackObjectProxy` has a reference, `CustomFinalizer` (a twin) may
    have one. -/
inductive Kind (O R : Type*) where
  | ordinary
  | error
  | arrayBuffer
  | typedArray
  | proxy (target : O) (handler : Handler O)
  | revoked
  | quackObjectProxy (udata : R)
  | customFinalizer (udata : Option R)

/-- `data->udata` of the two classes of the bridge. -/
def Kind.udata {O R : Type*} : Kind O R → Option R
  | .quackObjectProxy r => some r
  | .customFinalizer r => r
  | _ => none

/-- The classes of the bridge. -/
def Kind.isBridge {O R : Type*} : Kind O R → Bool
  | .quackObjectProxy _ => true
  | .customFinalizer _ => true
  | _ => false

theorem Kind.udata_of_script {O R : Type*} {k : Kind O R} (hk : k.isBridge = false) :
    k.udata = none := by
  cases k with
  | quackObjectProxy r => cases hk
  | customFinalizer r => cases hk
  | _ => rfl

/-- An object. `own` is what a read of an own property answers: the value of a
    data property, or what the getter returns. -/
structure Obj (O R : Type*) where
  kind : Kind O R := .ordinary
  own : Atom → Option (Val O) := fun _ => none
  prototype : Option O := none

/-- The script's heap and the global references of the bridge. A reference is
    `live` until it is deleted; a weak one is `cleared` once its object is dead. -/
structure Heap (O R : Type*) where
  obj : O → Obj O R
  pointer : O → ℕ
  symbolPrototype : O
  arrayBufferPrototype : O
  uint8ArrayPrototype : O
  proxyGet : R → Val O
  live : R → Bool
  cleared : R → Bool
  /-- A reference in an opaque field has not been deleted. -/
  held : ∀ o r, (obj o).kind.udata = some r → live r = true
  /-- No two objects of the bridge share a reference. -/
  owned : ∀ o o' r, (obj o).kind.udata = some r → (obj o').kind.udata = some r → o = o'
  /-- `trackJavaScriptObjectInstance` is false: every twin has a null `udata`
      (lines 468, 508–511). -/
  untracked : ∀ o d, (obj o).kind = .customFinalizer d → d = none

namespace Heap

/-- The heap in which every object is a plain one with the prototype 0, itself
    without a prototype; 1 and 2 are the prototypes of the buffer classes. -/
def plain : Heap ℕ ℕ where
  obj o := { prototype := if o = 0 then none else some 0 }
  pointer := id
  symbolPrototype := 3
  arrayBufferPrototype := 1
  uint8ArrayPrototype := 2
  proxyGet _ := .undefined
  live _ := false
  cleared _ := true
  held _ _ h := nomatch h
  owned _ _ _ h := nomatch h
  untracked _ _ h := nomatch h

variable {O R : Type*} [DecidableEq O] [DecidableEq R]

omit [DecidableEq R] in
/-- An object without a reference replaces another. -/
theorem udata_update {obj : O → Obj O R} {o y : O} {x : Obj O R} {r : R}
    (hx : x.kind.udata = none) (hy : (Function.update obj o x y).kind.udata = some r) :
    y ≠ o ∧ (obj y).kind.udata = some r := by
  by_cases hyo : y = o
  · rw [hyo, Function.update_self, hx] at hy
    cases hy
  · rw [Function.update_of_ne hyo] at hy
    exact ⟨hyo, hy⟩

omit [DecidableEq R] in
/-- No twin is among the objects after one that is not a twin replaces another. -/
theorem untracked_update {h : Heap O R} {o y : O} {x : Obj O R} {d : Option R}
    (hx : ∀ d, x.kind ≠ .customFinalizer d)
    (hy : (Function.update h.obj o x y).kind = .customFinalizer d) : d = none := by
  by_cases hyo : y = o
  · rw [hyo, Function.update_self] at hy
    exact absurd hy (hx d)
  · rw [Function.update_of_ne hyo] at hy
    exact h.untracked y d hy

/-- The script makes an object or changes one. -/
def write (h : Heap O R) (o : O) (x : Obj O R) (hx : x.kind.isBridge = false) : Heap O R :=
  { h with
    obj := Function.update h.obj o x
    held := fun y r hy => h.held y r (udata_update (Kind.udata_of_script hx) hy).2
    owned := fun y y' r hy hy' =>
      h.owned y y' r (udata_update (Kind.udata_of_script hx) hy).2
        (udata_update (Kind.udata_of_script hx) hy').2
    untracked := fun _ _ hy => untracked_update (fun d hd => by rw [hd] at hx; cases hx) hy }

/-- The last lines of `toObject(jobject)` (359–363): a new object of class
    `QuackObjectProxy` with a new global reference. -/
def newProxy (h : Heap O R) (o : O) (r : R) (hr : h.live r = false) : Heap O R :=
  { h with
    obj := Function.update h.obj o { kind := .quackObjectProxy r }
    live := Function.update h.live r true
    held := by
      intro y s hs
      by_cases hsr : s = r
      · rw [hsr, Function.update_self]
      · rw [Function.update_of_ne hsr]
        by_cases hy : y = o
        · rw [hy, Function.update_self] at hs
          exact absurd (Option.some.inj hs).symm hsr
        · rw [Function.update_of_ne hy] at hs
          exact h.held y s hs
    owned := by
      -- the new reference is not live before, so no other object has it
      have hnew : ∀ y, (h.obj y).kind.udata ≠ some r := by
        intro y hy
        rw [h.held y r hy] at hr
        cases hr
      intro x y s hx hy
      by_cases hxo : x = o <;> by_cases hyo : y = o
      · rw [hxo, hyo]
      · rw [hxo, Function.update_self] at hx
        rw [Function.update_of_ne hyo] at hy
        obtain rfl : r = s := Option.some.inj hx
        exact absurd hy (hnew y)
      · rw [Function.update_of_ne hxo] at hx
        rw [hyo, Function.update_self] at hy
        obtain rfl : r = s := Option.some.inj hy
        exact absurd hx (hnew x)
      · rw [Function.update_of_ne hxo] at hx
        rw [Function.update_of_ne hyo] at hy
        exact h.owned x y s hx hy
    untracked := fun _ _ hy => untracked_update (by simp) hy }

/-- `quackObjectFinalizer` and `javaRefFinalizer` (lines 27–33, 45–51): the
    collector frees a proxy, and its global reference is deleted. -/
def finalizeProxy (h : Heap O R) (o : O) (r : R)
    (ho : (h.obj o).kind = .quackObjectProxy r) : Heap O R :=
  { h with
    obj := Function.update h.obj o {}
    live := Function.update h.live r false
    held := by
      intro y s hs
      obtain ⟨hy, hs⟩ := udata_update rfl hs
      have hsr : s ≠ r := by
        rintro rfl
        exact hy (h.owned y o s hs (by rw [ho]; rfl))
      rw [Function.update_of_ne hsr]
      exact h.held y s hs
    owned := fun _ _ r hy hy' => h.owned _ _ r (udata_update rfl hy).2 (udata_update rfl hy').2
    untracked := fun _ _ hy => untracked_update (by simp) hy }

end Heap

/-! ## Reading properties -/

/-- Who answers a read: nobody, a `QuackObjectProxy` on the chain, a property
    or trap of the script, or the engine with an exception. -/
inductive Answer (O R : Type*) where
  | absent
  | hook (r : R)
  | found (v : Val O)
  | thrown
  deriving DecidableEq

variable {O R : Type*}

/-- The value of an answer. `quickjs_get` (lines 692–709) answers `undefined`
    for `customFinalizer` and the number of a new local reference for
    `javaObject`, and asks the Java object for every other key. -/
def Answer.value (h : Heap O R) (a : Atom) : Answer O R → Val O
  | .absent => .undefined
  | .hook r =>
    match a with
    | .customFinalizer => .undefined
    | .javaObject => .scalar .float64
    | .javaException => h.proxyGet r
  | .found v => v
  | .thrown => .exception

/-- One object of a property read. -/
def getHop (h : Heap O R) (a : Atom) (o : O) : Hop O (Answer O R) :=
  match (h.obj o).own a with
  | some v => .stop (.found v)
  | none =>
    match (h.obj o).kind with
    | .proxy target handler =>
      match handler.get with
      | some trap => .stop (.found (trap a))
      | none => .next target
    | .revoked => .stop .thrown
    | .quackObjectProxy r => .stop (.hook r)
    | _ =>
      match (h.obj o).prototype with
      | some p => .next p
      | none => .stop .absent

/-- `JS_GetProperty` from an object on, with room for `n` objects on the stack. -/
def JS_GetProperty (h : Heap O R) (n : ℕ) (o : O) (a : Atom) : Answer O R :=
  Hop.follow (getHop h a) .thrown n o

/-- One object of `JS_GetOwnPropertyInternal`; `none` is the exception. -/
def ownHop (h : Heap O R) (a : Atom) (o : O) : Hop O (Option Bool) :=
  match (h.obj o).kind with
  | .proxy target handler =>
    match handler.getOwnPropertyDescriptor with
    | some trap => .stop (trap a)
    | none => .next target
  | .revoked => .stop none
  | _ => .stop (some ((h.obj o).own a).isSome)

/-- `JS_GetOwnProperty` without a descriptor (quickjs.c:7688–7696). -/
def JS_GetOwnProperty (h : Heap O R) (n : ℕ) (v : Val O) (a : Atom) : Option Bool :=
  match v with
  | .object o => Hop.follow (ownHop h a) none n o
  | _ => none

/-- One object of `JS_GetPrototype` (quickjs.c:6869–6888). -/
def prototypeHop (h : Heap O R) (o : O) : Hop O (Val O) :=
  match (h.obj o).kind with
  | .proxy target handler =>
    match handler.getPrototypeOf with
    | some v => .stop v
    | none => .next target
  | .revoked => .stop .exception
  | _ =>
    match (h.obj o).prototype with
    | some p => .stop (.object p)
    | none => .stop .null

def JS_GetPrototype (h : Heap O R) (n : ℕ) (v : Val O) : Val O :=
  match v with
  | .object o => Hop.follow (prototypeHop h) .exception n o
  | .symbol => .object h.symbolPrototype
  | _ => .null

/-- `JS_GetOpaque(v, customFinalizerClassId)`: the data of a twin, null for
    every other value. -/
def JS_GetOpaque (h : Heap O R) (v : Val O) : Option (Option R) :=
  match v with
  | .object o =>
    match (h.obj o).kind with
    | .customFinalizer udata => some udata
    | _ => none
  | _ => none

/-- The value is itself a proxy of the bridge. -/
def Val.isQuackObjectProxy (h : Heap O R) : Val O → Bool
  | .object o => match (h.obj o).kind with | .quackObjectProxy _ => true | _ => false
  | _ => false

/-- The comparison of the prototype with those of `ArrayBuffer` and `Uint8Array`
    (lines 475, 484). -/
def Val.isBuffer [DecidableEq O] (h : Heap O R) (n : ℕ) (v : Val O) : Bool :=
  JS_GetPrototype h n v = .object h.arrayBufferPrototype ∨
    JS_GetPrototype h n v = .object h.uint8ArrayPrototype

/-- Every twin the bridge can find has a null `udata`. -/
theorem JS_GetOpaque_eq_some {h : Heap O R} {v : Val O} {udata : Option R}
    (hv : JS_GetOpaque h v = some udata) : udata = none := by
  unfold JS_GetOpaque at hv
  cases v with
  | object o =>
    simp only at hv
    split at hv
    next d hd =>
      obtain rfl := Option.some.inj hv
      exact h.untracked o _ hd
    next => cases hv
  | _ => cases hv

end JSEngine.QuickJS
