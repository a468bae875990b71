import JSEngine.Common.Machine
import Mathlib.Tactic

/-!
# Which context a JavaScriptObject's pointer is used in

Model of creating and closing any number of contexts of either engine, of making
`JavaScriptObject`s, and of passing them back into native code. A
`JavaScriptObject` records the address of the native context that made it; the
engines take it for their own by comparing that address.

The allocator may return the address of a closed context. An event records into
which context an object was passed and whether its pointer was taken for a heap
pointer of that context. The ghost field `creator` is the context instance that
made the object; no step reads it.

* `Owned.home_iff`: what one pass does, in terms of the creator;
* `pointers_stay_home_iff`: the pointers of a run are all used in the context
  that made them exactly where no object of a closed context is passed into one
  that has its address;
* `reused_address_takes_foreign_pointer`.
-/

namespace JSEngine.Isolation

open JSEngine.Common

variable {X : Type*} [DecidableEq X]

/-! ## Model -/

/-- The fields of a `JavaScriptObject` (JavaScriptObject.java, lines 27–34). -/
structure JavaScriptObject (X : Type*) where
  jsEngineContext : X
  context : ℕ
  pointer : ℕ
  /-- ghost: the instance whose engine made the object -/
  creator : X
  deriving DecidableEq

/-- A native context: its Java instance (`javaQuack`, in Duktape `m_javaDuktape`)
    and its engine. -/
structure NativeContext (X : Type*) where
  javaQuack : X
  quickJS : Bool

structure State (X : Type*) where
  created : X → Bool := fun _ => false
  /-- `JSEngineContext.context`: the native address, 0 once closed -/
  context : X → ℕ := fun _ => 0
  /-- the native heap -/
  native : ℕ → Option (NativeContext X) := fun _ => none
  /-- the objects made so far; the application may keep any of them -/
  objects : List (JavaScriptObject X) := []

/-- `JSEngineContext.getNativePointer` (lines 899–903), of the instance `x`. -/
def getNativePointer (s : State X) (x : X) (object : JavaScriptObject X) : ℕ :=
  if object.context ≠ s.context x then 0 else object.pointer

/-- The branch of `QuickJSContext::toObject(jobject)` for a `JavaScriptObject`
    (lines 341–350): its pointer, or `none` to go on and wrap it. -/
def quickJSToObject (s : State X) (n : NativeContext X) (object : JavaScriptObject X) :
    Option ℕ :=
  let ptr := getNativePointer s n.javaQuack object
  if ptr ≠ 0 then some ptr else none

/-- The branch of `DuktapeContext::pushObject` (lines 657–670), in the native
    context at the address `this`. -/
def duktapePushObject (this : ℕ) (object : JavaScriptObject X) : Option ℕ :=
  if object.context = this then some object.pointer else none

/-- The use of an object passed into the native context at `address`. -/
def passInto (s : State X) (address : ℕ) (n : NativeContext X) (object : JavaScriptObject X) :
    Option ℕ :=
  if n.quickJS then quickJSToObject s n object else duktapePushObject address object

/-- An object reached the engine of `into`: as the heap pointer `pointer`, or
    (`none`) wrapped as a foreign object. -/
structure Pass (X : Type*) where
  into : X
  object : JavaScriptObject X
  pointer : Option ℕ
  deriving DecidableEq

inductive Action (X : Type*)
  | create (x : X) (useQuickJS : Bool) (address : ℕ)
  | close (x : X)
  /-- a JavaScript object of `x` is marshalled: `new JavaScriptObject(javaQuack, this, ptr)` -/
  | marshal (x : X) (pointer : ℕ)
  /-- as an argument, a key, a value or a `this` into `x` -/
  | pass (x : X) (object : JavaScriptObject X)
  /-- as the receiver of one of its methods -/
  | receive (object : JavaScriptObject X)

def isolationStep (s : State X) : Action X → Option (State X × List (Pass X))
  | .create x useQuickJS address =>
    if s.created x ∨ address = 0 ∨ (s.native address).isSome then none
    else some ({ s with
      created := Function.update s.created x true
      context := Function.update s.context x address
      native := Function.update s.native address (some ⟨x, useQuickJS⟩) }, [])
  | .close x =>
    if s.context x = 0 then some (s, [])
    else some ({ s with
      context := Function.update s.context x 0
      native := Function.update s.native (s.context x) none }, [])
  | .marshal x pointer =>
    match s.native (s.context x) with
    | none => none
    | some n =>
      if pointer = 0 then none
      else
        let object := { jsEngineContext := n.javaQuack, context := s.context x, pointer, creator := x }
        some ({ s with objects := object :: s.objects }, [])
  | .pass x object =>
    match s.native (s.context x) with
    | none => none
    | some n =>
      if object ∈ s.objects then some (s, [⟨x, object, passInto s (s.context x) n object⟩])
      else none
  -- `jsEngineContext.call(pointer, args)` and its siblings test `context == 0`
  | .receive object =>
    if object ∈ s.objects then
      if s.context object.jsEngineContext = 0 then some (s, [])
      else some (s, [⟨object.jsEngineContext, object, some object.pointer⟩])
    else none

def isolationMachine : Machine (State X) (Action X) (Pass X) where
  init := {}
  step := isolationStep

/-! ## Specification -/

/-- The pointer is used as one of the context only if the context made it. -/
def Pass.Home (e : Pass X) : Prop := e.pointer.isSome = true → e.object.creator = e.into

instance (e : Pass X) : Decidable e.Home :=
  inferInstanceAs (Decidable (e.pointer.isSome = true → e.object.creator = e.into))

/-- An object is not passed into another context than its creator, if that is
    closed and the other one has its address. -/
def NotReused (s : State X) : Action X → Prop
  | .pass x object =>
    ¬(object.creator ≠ x ∧ s.context object.creator = 0 ∧ object.context = s.context x)
  | _ => True

instance (s : State X) : (a : Action X) → Decidable (NotReused s a)
  | .pass x object => inferInstanceAs (Decidable (¬(object.creator ≠ x ∧
      s.context object.creator = 0 ∧ object.context = s.context x)))
  | .create _ _ _ | .close _ | .marshal _ _ | .receive _ => isTrue trivial

/-! ## The invariant -/

/-- An open instance has its own native context, and an object its creator's
    address, for as long as the creator is open. -/
structure Owned (s : State X) : Prop where
  created : ∀ x, s.context x ≠ 0 → s.created x = true
  native : ∀ x, s.context x ≠ 0 → ∃ q, s.native (s.context x) = some ⟨x, q⟩
  null : s.native 0 = none
  fields : ∀ o ∈ s.objects, o.jsEngineContext = o.creator ∧ o.pointer ≠ 0 ∧ o.context ≠ 0
  known : ∀ o ∈ s.objects, s.created o.creator = true
  address : ∀ o ∈ s.objects, s.context o.creator ≠ 0 → s.context o.creator = o.context

omit [DecidableEq X] in
/-- Open contexts have different addresses. -/
theorem Owned.injective {s : State X} (h : Owned s) {x y : X} (hx : s.context x ≠ 0)
    (hxy : s.context x = s.context y) : x = y := by
  obtain ⟨q, hq⟩ := h.native x hx
  obtain ⟨q', hq'⟩ := h.native y (by rw [← hxy]; exact hx)
  rw [hxy, hq'] at hq
  exact (congrArg NativeContext.javaQuack (Option.some.inj hq)).symm

omit [DecidableEq X] in
/-- Both engines compare the recorded address with that of the native context. -/
theorem Owned.passInto_isSome {s : State X} (h : Owned s) {x : X} {n : NativeContext X}
    (hn : s.native (s.context x) = some n) {o : JavaScriptObject X} (ho : o ∈ s.objects) :
    (passInto s (s.context x) n o).isSome = true ↔ o.context = s.context x := by
  have hx : s.context x ≠ 0 := by
    intro hx
    rw [hx, h.null] at hn
    cases hn
  obtain ⟨q, hq⟩ := h.native x hx
  obtain rfl : n = ⟨x, q⟩ := by
    rw [hn] at hq
    exact Option.some.inj hq
  have hp := (h.fields o ho).2.1
  unfold passInto
  by_cases hc : o.context = s.context x
  · split_ifs <;> simp [quickJSToObject, getNativePointer, duktapePushObject, hc, hp]
  · split_ifs <;> simp [quickJSToObject, getNativePointer, duktapePushObject, hc]

omit [DecidableEq X] in
/-- **A pass.** The pointer is used away from home exactly where the creator is
    closed and its address reused. -/
theorem Owned.home_iff {s : State X} (h : Owned s) {x : X} {n : NativeContext X}
    (hn : s.native (s.context x) = some n) {o : JavaScriptObject X} (ho : o ∈ s.objects) :
    Pass.Home ⟨x, o, passInto s (s.context x) n o⟩ ↔
      ¬(o.creator ≠ x ∧ s.context o.creator = 0 ∧ o.context = s.context x) := by
  show ((passInto s (s.context x) n o).isSome = true → o.creator = x) ↔ _
  rw [h.passInto_isSome hn ho]
  constructor
  · intro hhome hreused
    exact hreused.1 (hhome hreused.2.2)
  · intro hno hc
    by_contra hne
    by_cases hclosed : s.context o.creator = 0
    · exact hno ⟨hne, hclosed, hc⟩
    · have haddr : s.context o.creator = s.context x := by
        rw [h.address o ho hclosed, hc]
      exact hne (h.injective hclosed haddr)

/-! ## Steps -/

theorem Owned.create {s : State X} (h : Owned s) {x : X} {q : Bool} {address : ℕ}
    (hx : s.created x = false) (ha : address ≠ 0) (hfree : s.native address = none) :
    Owned { s with
      created := Function.update s.created x true
      context := Function.update s.context x address
      native := Function.update s.native address (some ⟨x, q⟩) } := by
  have hunused : ∀ y, s.context y ≠ 0 → s.context y ≠ address := by
    intro y hy he
    obtain ⟨q', hq'⟩ := h.native y hy
    rw [he, hfree] at hq'
    cases hq'
  have hcreator : ∀ o ∈ s.objects, o.creator ≠ x := by
    intro o ho he
    have hk := h.known o ho
    rw [he, hx] at hk
    cases hk
  refine ⟨?_, ?_, ?_, h.fields, ?_, ?_⟩
  · intro y hy
    dsimp only at hy ⊢
    by_cases hyx : y = x
    · rw [hyx, Function.update_self]
    · rw [Function.update_of_ne hyx] at hy ⊢
      exact h.created y hy
  · intro y hy
    dsimp only at hy ⊢
    by_cases hyx : y = x
    · rw [hyx, Function.update_self, Function.update_self]
      exact ⟨q, rfl⟩
    · rw [Function.update_of_ne hyx] at hy ⊢
      rw [Function.update_of_ne (hunused y hy)]
      exact h.native y hy
  · dsimp only
    rw [Function.update_of_ne ha.symm]
    exact h.null
  · intro o ho
    dsimp only
    rw [Function.update_of_ne (hcreator o ho)]
    exact h.known o ho
  · intro o ho hopen
    dsimp only at hopen ⊢
    rw [Function.update_of_ne (hcreator o ho)] at hopen ⊢
    exact h.address o ho hopen

theorem Owned.close {s : State X} (h : Owned s) {x : X} (hx : s.context x ≠ 0) :
    Owned { s with
      context := Function.update s.context x 0
      native := Function.update s.native (s.context x) none } := by
  have hother : ∀ y, Function.update s.context x 0 y ≠ 0 → y ≠ x := by
    intro y hy hyx
    rw [hyx, Function.update_self] at hy
    exact hy rfl
  refine ⟨?_, ?_, ?_, h.fields, h.known, ?_⟩
  · intro y hy
    have hyx := hother y hy
    dsimp only at hy
    rw [Function.update_of_ne hyx] at hy
    exact h.created y hy
  · intro y hy
    have hyx := hother y hy
    dsimp only at hy ⊢
    rw [Function.update_of_ne hyx] at hy ⊢
    rw [Function.update_of_ne fun he => hyx (h.injective hy he)]
    exact h.native y hy
  · dsimp only
    rw [Function.update_of_ne hx.symm]
    exact h.null
  · intro o ho hopen
    have hyx := hother o.creator hopen
    dsimp only at hopen ⊢
    rw [Function.update_of_ne hyx] at hopen ⊢
    exact h.address o ho hopen

/-- The invariant, and the passes so far are all at home. -/
def Isolated (s : State X) (h : List (Pass X)) : Prop := Owned s ∧ ∀ e ∈ h, e.Home

/-- **Step.** The passes of a step are at home exactly where no address is
    reused. -/
theorem isolationStep_home {s s' : State X} {h : List (Pass X)} {a : Action X}
    {o : List (Pass X)} (hI : Isolated s h) (hs : isolationStep s a = some (s', o)) :
    ((∀ e ∈ h ++ o, e.Home) ↔ NotReused s a) ∧ (NotReused s a → Isolated s' (h ++ o)) := by
  obtain ⟨hown, hhome⟩ := hI
  have hquiet : o = [] → Owned s' → NotReused s a →
      ((∀ e ∈ h ++ o, e.Home) ↔ NotReused s a) ∧ (NotReused s a → Isolated s' (h ++ o)) := by
    intro ho hown' hr
    rw [ho, List.append_nil]
    exact ⟨iff_of_true hhome hr, fun _ => ⟨hown', hhome⟩⟩
  have happ : ∀ e : Pass X, (∀ e' ∈ h ++ [e], e'.Home) ↔ e.Home := by
    intro e
    constructor
    · intro hall
      exact hall e (by simp)
    · intro he e' he'
      rcases List.mem_append.mp he' with he' | he'
      · exact hhome e' he'
      · rw [List.mem_singleton.mp he']
        exact he
  cases a with
  | create x q address =>
    simp only [isolationStep] at hs
    split_ifs at hs with hno
    obtain ⟨rfl, rfl⟩ := Prod.mk.inj (Option.some.inj hs)
    simp only [not_or, Bool.not_eq_true, Option.isSome_eq_false_iff, Option.isNone_iff_eq_none] at hno
    exact hquiet rfl (hown.create hno.1 hno.2.1 hno.2.2) trivial
  | close x =>
    simp only [isolationStep] at hs
    split_ifs at hs with hx
    · obtain ⟨rfl, rfl⟩ := Prod.mk.inj (Option.some.inj hs)
      exact hquiet rfl hown trivial
    · obtain ⟨rfl, rfl⟩ := Prod.mk.inj (Option.some.inj hs)
      exact hquiet rfl (hown.close hx) trivial
  | marshal x pointer =>
    simp only [isolationStep] at hs
    cases hn : s.native (s.context x) with
    | none =>
      rw [hn] at hs
      cases hs
    | some n =>
      rw [hn] at hs
      dsimp only at hs
      split_ifs at hs with hp
      obtain ⟨rfl, rfl⟩ := Prod.mk.inj (Option.some.inj hs)
      have hx : s.context x ≠ 0 := by
        intro hx
        rw [hx, hown.null] at hn
        cases hn
      obtain ⟨q, hq⟩ := hown.native x hx
      have hinst : n.javaQuack = x := by
        rw [hn] at hq
        rw [Option.some.inj hq]
      refine hquiet rfl ⟨hown.created, hown.native, hown.null, ?_, ?_, ?_⟩ trivial
      · intro o ho
        rcases List.mem_cons.mp ho with rfl | ho
        · exact ⟨hinst, hp, hx⟩
        · exact hown.fields o ho
      · intro o ho
        rcases List.mem_cons.mp ho with rfl | ho
        · exact hown.created x hx
        · exact hown.known o ho
      · intro o ho
        rcases List.mem_cons.mp ho with rfl | ho
        · intro _
          rfl
        · exact hown.address o ho
  | pass x object =>
    simp only [isolationStep] at hs
    cases hn : s.native (s.context x) with
    | none =>
      rw [hn] at hs
      cases hs
    | some n =>
      rw [hn] at hs
      dsimp only at hs
      split_ifs at hs with ho
      obtain ⟨rfl, rfl⟩ := Prod.mk.inj (Option.some.inj hs)
      have hiff := hown.home_iff hn ho
      rw [happ, hiff]
      exact ⟨Iff.rfl, fun hr => ⟨hown, (happ _).mpr (hiff.mpr hr)⟩⟩
  | receive object =>
    simp only [isolationStep] at hs
    split_ifs at hs with ho hx
    · obtain ⟨rfl, rfl⟩ := Prod.mk.inj (Option.some.inj hs)
      exact hquiet rfl hown trivial
    · obtain ⟨rfl, rfl⟩ := Prod.mk.inj (Option.some.inj hs)
      -- the receiver's own context made it
      have he : Pass.Home ⟨object.jsEngineContext, object, some object.pointer⟩ :=
        fun _ => (hown.fields object ho).1.symm
      rw [happ]
      exact ⟨iff_of_true he trivial, fun _ => ⟨hown, (happ _).mpr he⟩⟩

omit [DecidableEq X] in
theorem owned_init : Owned ({} : State X) :=
  ⟨fun _ h => absurd rfl h, fun _ h => absurd rfl h, rfl, by simp, by simp, by simp⟩

/-- **Exactly when contexts are isolated.** In every run, each `JavaScriptObject`
    that reaches an engine is used as a heap pointer only in the context instance
    that made it, if and only if no object of a closed context is passed into a
    context that was given its address. -/
theorem pointers_stay_home_iff (as : List (Action X)) (r : State X × List (Pass X))
    (hr : isolationMachine.run {} as = some r) :
    (∀ e ∈ r.2, e.Home) ↔ isolationMachine.Meets NotReused {} as := by
  have h := isolationMachine.run_accepts_iff (A := fun es => ∀ e ∈ es, e.Home) (I := Isolated)
    (P := NotReused) (fun _ _ hall e he => hall e (List.mem_append_left _ he))
    (fun _ _ hI => hI.2) (fun _ _ _ _ _ hI hs => isolationStep_home hI hs) as {} [] r
    ⟨owned_init, by simp⟩ hr
  rw [List.nil_append] at h
  exact h

/-- An object made by the instance 0 at the address 64. -/
def strayObject : JavaScriptObject ℕ :=
  { jsEngineContext := 0, context := 64, pointer := 7, creator := 0 }

/-- Objects of an open and of a closed context, passed into a context of the other
    engine and one that has another address. -/
theorem pointers_stay_home_two :
    (isolationMachine : Machine (State ℕ) _ _).Meets NotReused {}
      [.create 0 true 64, .marshal 0 7, .create 1 false 128, .pass 1 strayObject,
        .pass 0 strayObject, .receive strayObject, .close 0, .receive strayObject,
        .pass 1 strayObject] :=
  (pointers_stay_home_iff _ (_, _) rfl).mp (by decide)

/-- After its context was closed, an object's pointer is used in the heap of the
    next context at that address, by either engine. -/
theorem reused_address_takes_foreign_pointer :
    [true, false].map (fun useQuickJS => (isolationMachine.run {} [.create 0 useQuickJS 64,
        .marshal 0 7, .close 0, .create 1 useQuickJS 64, .pass 1 strayObject]).map Prod.snd) =
      [some [⟨1, strayObject, some 7⟩], some [⟨1, strayObject, some 7⟩]] ∧
      ¬Pass.Home ⟨1, strayObject, some 7⟩ := by
  decide

end JSEngine.Isolation
