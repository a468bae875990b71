import JSEngine.Common.Machine
import JSEngine.Duktape.PopObject
import Mathlib.Logic.Function.Basic

/-!
# The stash of a `DuktapeContext`

For an object that is not recognised `popObject` makes a `JavaScriptObject` with
the heap pointer of the object, puts the object into the global stash at the
index `(duk_uarridx_t) ptr`, the low 32 bits of the pointer, and stores a weak
reference to the `JavaScriptObject` under the hidden key of the object (lines
333–371). When the `JavaScriptObject` becomes unreachable, the weak reference
reads as null; later its finalizer queues the pointer, and later still a drain
removes the hidden property with its weak reference, and the stash entry (lines
983–1008). Duktape frees an object that the stash does not hold as soon as the
script has no reference to it, and its address may be used again.

* `State`, `Action`, `step`: one open context, with one function per operation.
* `Retained`, `Event.Undisturbed`: what Java relies on.
-/

namespace JSEngine.Duktape

open JSEngine.Common

/-- `void *` of the 64-bit heap. -/
abbrev HeapPtr := BitVec 64

/-- `(duk_uarridx_t) reinterpret_cast<long>(ptr)` (lines 351, 1003). -/
def heapIndex (p : HeapPtr) : BitVec 32 := p.setWidth 32

/-- How far the end of a `JavaScriptObject` is: weak references to it read as
    null, its finalizer has queued its pointer, the pointer has been drained. -/
inductive Status where
  | alive
  | cleared
  | enqueued
  | drained
  deriving DecidableEq, Repr

/-- A `JavaScriptObject` of this context. `createdFor` is a ghost: the object
    that the pointer was taken of. -/
structure JavaScriptObject (O : Type*) where
  pointer : HeapPtr
  createdFor : O
  status : Status

/-- A value of the stash: the object at an address. `owner` is a ghost: the Java
    object for which it was last put there. -/
structure Entry (J : Type*) where
  pointer : HeapPtr
  owner : J
  deriving DecidableEq

/-- What Java gets for an object: a `JavaScriptObject` or another Java object. -/
inductive Handle (J : Type*) where
  | javaScriptObject (j : J)
  | other
  deriving DecidableEq

/-- One open context. An object keeps its identity in `O` when its address is
    used again. `hidden` and `finalizer` are own properties under hidden keys; a
    finalizer is the one of the bridge or another. `made` is a ghost: all
    `JavaScriptObject`s so far. -/
structure State (O W J : Type*) where
  objects : HeapPtr → Option O := fun _ => none
  born : O → Bool := fun _ => false
  hidden : O → Option W := fun _ => none
  finalizer : O → Option Bool := fun _ => none
  stash : BitVec 32 → Option (Entry J) := fun _ => none
  weakRefs : W → Option J := fun _ => none
  javaObjects : J → Option (JavaScriptObject O) := fun _ => none
  made : List J := []
  finalizationQueue : List J := []
  batches : List (List J) := []

inductive Event (O J : Type*) where
  | received (o : O) (x : Handle J)
  | passed (j : J) (o : O)
  /-- The heap pointer of `j` is pushed, but no object lives there. -/
  | dangling (j : J)
  /-- `popObject` put the object at `p` into its slot, which held `old`. -/
  | stored (p : HeapPtr) (old : Option HeapPtr)
  /-- A drain of the pointer of `j` removed a stash entry, made for `owner`. -/
  | erased (j : J) (owner : Option J)
  /-- A drain of the pointer of `j` deleted a weak reference, to `target`. -/
  | released (j : J) (target : Option J)
  deriving DecidableEq

/-- The steps. What the script, the allocators and JNI decide is part of the
    action. -/
inductive Action (O R W J : Type*) where
  /-- The script makes the object `o` at `p`. -/
  | alloc (p : HeapPtr) (o : O)
  /-- `popObject` of the object at `p`. `jni` is what `IsSameObject(·, nullptr)`
      answers for pointers that are no reference; `j` and `w` are the
      `JavaScriptObject` and the weak reference it makes, if it does. -/
  | pop (rd : Reads O R) (n : ℕ) (jni : Pointer R W → Bool) (p : HeapPtr) (j : J) (w : W)
  /-- The collector of Java clears the weak references to `j`. -/
  | clear (j : J)
  /-- `JavaScriptObject.finalize()`. -/
  | finalize (j : J)
  /-- `finalizeJavaScriptObjects()`: copy and clear the queue. -/
  | drain
  /-- One round of the native loop over the innermost copy. -/
  | erase (script : Script O R) (n : ℕ)
  /-- Duktape collects the object at `p`. -/
  | collect (script : Script O R) (n : ℕ) (p : HeapPtr)
  /-- The script sets another finalizer on `o`. -/
  | setFinalizer (o : O)
  /-- `pushObject` of a `JavaScriptObject` that Java holds. -/
  | passBack (j : J)

namespace State

variable {O R W J : Type*}

/-- The `JavaScriptObject`s the pointers of which are queued or copied and not
    yet drained. -/
def pending (s : State O W J) : List J := s.finalizationQueue ++ s.batches.flatten

/-- `IsSameObject(p, nullptr)`: false for a global reference. -/
def isNull (s : State O W J) (jni : Pointer R W → Bool) : Pointer R W → Bool
  | .global _ => false
  | .raw a => jni (.raw a)
  | .weak w =>
    match (s.weakRefs w).bind s.javaObjects with
    | some o => o.status ≠ .alive
    | none => jni (.weak w)

variable [DecidableEq O] [DecidableEq W] [DecidableEq J]

/-- Lines 314–319: the dead reference is deleted, and the hidden property, which
    is stored on `home`. -/
def deleteDead (s : State O W J) (home : O) : Option (Pointer R W) → State O W J
  | none => s
  | some (.weak w) =>
    { s with
      weakRefs := Function.update s.weakRefs w none,
      hidden := Function.update s.hidden home none }
  | some _ => { s with hidden := Function.update s.hidden home none }

/-- Lines 333–371. -/
def newObject (s : State O W J) (o home : O) (p : HeapPtr) (j : J) (w : W) :
    Option (State O W J × List (Event O J)) :=
  if (s.javaObjects j).isNone ∧ (s.weakRefs w).isNone then
    some ({ s with
      stash := Function.update s.stash (heapIndex p) (some ⟨p, j⟩),
      javaObjects := Function.update s.javaObjects j (some ⟨p, o, .alive⟩),
      made := j :: s.made,
      weakRefs := Function.update s.weakRefs w (some j),
      finalizer := Function.update s.finalizer home (some true),
      hidden := Function.update s.hidden home (some w) },
      [.stored p ((s.stash (heapIndex p)).map Entry.pointer), .received o (.javaScriptObject j)])
  else none

/-- A proxy for a Java object; it arrives as that object, which is not recorded. -/
def isJavaProxy (script : Script O R) (o : O) : Bool :=
  match script.kind o with
  | .javaProxy _ _ => true
  | _ => false

/-- `popObject` of the object `o` at `p`. A copy of a buffer is not recorded, and
    an exception leaves everything as it is. -/
def popObject (s : State O W J) (rd : Reads O R) (n : ℕ) (jni : Pointer R W → Bool) (o : O)
    (p : HeapPtr) (j : J) (w : W) : Option (State O W J × List (Event O J)) :=
  match (recognise rd s.hidden (s.isNull jni) n o).1 with
  | .copied => some (s, [])
  | .thrown => some (s, [])
  | .existing (.weak w') =>
    match s.weakRefs w' with
    | some j' => some (s, [.received o (.javaScriptObject j')])
    | none => some (s, [.received o .other])
  | .existing _ => some (s, if isJavaProxy rd.has o then [] else [.received o .other])
  | .create dead => (s.deleteDead (rd.hidden.home o) dead).newObject o (rd.hidden.home o) p j w

/-- `javascriptObjectFinalizerInternal` (lines 84–97) for `o`: the weak reference
    that the hidden key leads to is deleted, and the property of `o` itself. -/
def releaseHidden (s : State O W J) (script : Script O R) (n : ℕ) (o : O) :
    Option (State O W J × Option (Option J)) :=
  match Hop.follow (hiddenHop script s.hidden) none n o with
  | none => none
  | some none => some (s, none)
  | some (some w) =>
    some ({ s with
      hidden := Function.update s.hidden (script.home o) none,
      weakRefs := Function.update s.weakRefs w none }, some (s.weakRefs w))

/-- Lines 1001–1005: the stash entry is deleted. -/
def stashDelete (s : State O W J) (p : HeapPtr) : State O W J :=
  { s with stash := Function.update s.stash (heapIndex p) none }

/-- One round of the loop of `finalizeJavaScriptObjects` (lines 988–1006), for
    `j` with the object `o` at its pointer. -/
def drainObject (s : State O W J) (script : Script O R) (n : ℕ) (j : J)
    (r : JavaScriptObject O) (o : O) : Option (State O W J × List (Event O J)) :=
  match ({ s with
      finalizer := Function.update s.finalizer (script.home o) (some false) } :
      State O W J).releaseHidden script n o with
  | none => none
  | some (s', target) =>
    some ({ s'.stashDelete r.pointer with
        javaObjects := Function.update s'.javaObjects j (some { r with status := .drained }) },
      (target.toList.map (.released j)) ++
        [.erased j ((s'.stash (heapIndex r.pointer)).map Entry.owner)])

/-- The next round of the innermost drain; nothing more happens where a freed
    pointer is pushed. -/
def erase (s : State O W J) (home : O → O) (script : Script O R) (n : ℕ) :
    Option (State O W J × List (Event O J)) :=
  match s.batches with
  | [] => none
  | [] :: batches => some ({ s with batches := batches }, [])
  | (j :: js) :: batches =>
    match s.javaObjects j with
    | none => none
    | some r =>
      match s.objects r.pointer with
      | none => some ({ s with batches := js :: batches }, [.dangling j])
      | some o =>
        if script.home o = home o then
          ({ s with batches := js :: batches } : State O W J).drainObject script n j r o
        else none

/-- The collector of Duktape frees the object at `p`, which no stash entry holds,
    nor is it the target of a proxy that one holds. The finalizer that is visible
    on it runs first, if it is that of the bridge. -/
def collect (s : State O W J) (script : Script O R) (n : ℕ) (p : HeapPtr) :
    Option (State O W J × List (Event O J)) :=
  match s.objects p with
  | none => none
  | some o =>
    let held := (s.stash (heapIndex p)).any fun e => e.pointer = p
    let target := ((s.hidden o).bind s.weakRefs).any fun j => (s.javaObjects j).any fun r =>
      (s.stash (heapIndex r.pointer)).any fun e => e.pointer = r.pointer
    if held ∨ target then none
    else
      let free := fun s : State O W J =>
        { s with
          objects := Function.update s.objects p none,
          hidden := Function.update s.hidden o none }
      if Hop.follow (hiddenHop script s.finalizer) none n o = some (some true) then
        match s.releaseHidden script n o with
        | none => some (free s, [])
        | some (s', _) => some (free s', [])
      else some (free s, [])

/-- A change of the status of a Java object. -/
def setStatus (s : State O W J) (j : J) (r : JavaScriptObject O) (status : Status) :
    State O W J :=
  { s with javaObjects := Function.update s.javaObjects j (some { r with status := status }) }

def finalize (s : State O W J) (j : J) : Option (State O W J × List (Event O J)) :=
  match s.javaObjects j with
  | some r =>
    if r.status = .cleared then
      some ({ s.setStatus j r .enqueued with
        finalizationQueue := s.finalizationQueue ++ [j] }, [])
    else none
  | none => none

/-- `pushObject` (lines 659–669): the object at the pointer is pushed. -/
def passBack (s : State O W J) (j : J) : Option (State O W J × List (Event O J)) :=
  match s.javaObjects j with
  | some r =>
    if r.status = .alive then
      match s.objects r.pointer with
      | some o => some (s, [.passed j o])
      | none => some (s, [.dangling j])
    else none
  | none => none

/-- One step. The target of a `Proxy` never changes, so `home`, the object that
    stores the hidden properties of an object, is fixed. -/
def step (home : O → O) (s : State O W J) :
    Action O R W J → Option (State O W J × List (Event O J))
  | .alloc p o =>
    if (s.objects p).isNone ∧ s.born o = false then
      some ({ s with
        objects := Function.update s.objects p (some o),
        born := Function.update s.born o true }, [])
    else none
  | .pop rd n jni p j w =>
    match s.objects p with
    | none => none
    | some o => if rd.hidden.home o = home o then s.popObject rd n jni o p j w else none
  | .clear j =>
    match s.javaObjects j with
    | some r => if r.status = .alive then some (s.setStatus j r .cleared, []) else none
    | none => none
  | .finalize j => s.finalize j
  | .drain =>
    if s.finalizationQueue = [] then some (s, [])
    else some ({ s with finalizationQueue := [], batches := s.finalizationQueue :: s.batches }, [])
  | .erase script n => s.erase home script n
  | .collect script n p => s.collect script n p
  | .setFinalizer o =>
    some ({ s with finalizer := Function.update s.finalizer o (some false) }, [])
  | .passBack j => s.passBack j

end State

/-- An empty heap. -/
def machine {O W J : Type*} (R : Type*) [DecidableEq O] [DecidableEq W] [DecidableEq J]
    (home : O → O) : Machine (State O W J) (Action O R W J) (Event O J) where
  init := {}
  step := State.step home

/-! ## What Java relies on -/

variable {O R W J : Type*}

/-- As long as a `JavaScriptObject` is not finalized, the stash holds its object,
    which is still at the pointer. -/
def Retained (s : State O W J) : Prop :=
  ∀ j r, s.javaObjects j = some r → r.status = .alive ∨ r.status = .cleared →
    s.objects r.pointer = some r.createdFor ∧
      ∃ e, s.stash (heapIndex r.pointer) = some e ∧ e.pointer = r.pointer

/-- Marshalling an object overwrites no entry of another, and the drain of the
    pointer of `j` removes no stash entry and no weak reference that was made for
    another `JavaScriptObject`. -/
def Event.Undisturbed : Event O J → Prop
  | .stored p old => ∀ q, old = some q → q = p
  | .erased j owner => ∀ j', owner = some j' → j' = j
  | .released j target => ∀ j', target = some j' → j' = j
  | _ => True

end JSEngine.Duktape
