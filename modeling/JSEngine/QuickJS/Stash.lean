import JSEngine.Common.Machine
import JSEngine.QuickJS.ToObject
import JSEngine.WeakMap.Model

/-!
# The stash of a `QuickJSContext`

`toObject(JSValue)` makes a twin for every `JavaScriptObject`, keeps it in the
`stash` under its address and gives the address to the object. The value is a
property of the twin, so the address leads back to it (`toValueAsLocal`). When
the Java object is finalized its pointer is queued; a later drain copies and
clears the queue, and the native side erases every pointer of the copy, which
frees the twin and its address (QuickJSContext.cpp:377–524, 10–13, 58–63;
JSEngineContext.java:812–845).

The script can run inside `toObject`, where the prototype of a `Proxy` is read,
so a call is two steps and the calls in progress are a stack of frames; drains
nest in the same way. The finalizer thread may act between any two steps.

* `State`, `Action`, `step`: one open context, with one function per operation.
* `machine`: the runs, from an empty context.
-/

namespace JSEngine.QuickJS

open JSEngine.Common JSEngine.Java JSEngine.WeakMap

/-- How far the finalization of a `JavaScriptObject` is. -/
inductive Status where
  | alive
  | enqueued
  | drained
  deriving DecidableEq, Repr

/-- A `JavaScriptObject` of this context. `createdFor` is a ghost: the value it
    was created for. -/
structure JavaScriptObject (O : Type*) where
  pointer : ℕ
  createdFor : Val O
  status : Status

/-- A twin, with the value of its property `javaScriptObject`, undefined until
    it is set. `owner` is a ghost: the object it was made for. -/
structure Twin (O J : Type*) where
  owner : J
  value : Val O

/-- A call of `toObject` that has made a twin and a Java object and not yet
    returned. -/
structure Frame (O J : Type*) where
  object : J
  pointer : ℕ
  value : Val O

/-- An element of the finalization queue: a pointer, with the object whose
    finalizer queued it as a ghost. -/
structure Queued (J : Type*) where
  object : J
  pointer : ℕ
  deriving DecidableEq

/-- What Java gets for a value: a `JavaScriptObject`, a direct `ByteBuffer`, or
    something else (null, a boxed value, an unwrapped Java object). -/
inductive Handle (J B : Type*) where
  | javaScriptObject (j : J)
  | byteBuffer (b : B)
  | other
  deriving DecidableEq

/-- One open context. `stash p` tells that the stash has a twin under the key
    `p`, which is the twin at `p`. -/
structure State (O J B : Type*) where
  twins : ℕ → Option (Twin O J) := fun _ => none
  stash : ℕ → Bool := fun _ => false
  objects : J → Option (JavaScriptObject O) := fun _ => none
  frames : List (Frame O J) := []
  finalizationQueue : List (Queued J) := []
  batches : List (List (Queued J)) := []
  nativeMappings : WeakExactHashMap B J := {}
  known : B → Bool := fun _ => false
  buffers : WeakMap.Heap B

inductive Event (O J B : Type*) where
  | received (v : Val O) (x : Handle J B)
  | passed (x : Handle J B) (v : Val O)
  /-- A pointer to a twin that has been freed is used. -/
  | dangling (x : Handle J B)
  | enqueued (q : Queued J)
  /-- The stash erased the pointer, and with it the twin made for `owner`. -/
  | erased (q : Queued J) (owner : Option J)
  deriving DecidableEq

/-- The steps. What the script, the allocator, JNI and the collector decide is
    part of the action. -/
inductive Action (O R J B : Type*) where
  /-- `toObject(JSValue)` up to the new twin at `p` and the object `j`. -/
  | toObject (rd : Reads O R) (n : ℕ) (v : Val O) (j : J) (p : ℕ)
  /-- The rest of it; `byteBuffer` is what `NewDirectByteBuffer` returns. -/
  | finishToObject (h : QuickJS.Heap O R) (n : ℕ) (byteBuffer : Option B)
  /-- `JavaScriptObject.finalize()`. -/
  | finalize (j : J)
  /-- `finalizeJavaScriptObjects()`: copy and clear the queue. -/
  | drain
  /-- One round of the native loop over the innermost copy. -/
  | erase
  /-- `toObject(jobject)`; `fresh` is the object it makes where it makes one. -/
  | passBack (x : Handle J B) (fresh : Val O)
  /-- Java writes to a buffer or moves its position or limit. -/
  | mutate (b : B) (hash : JInt)
  /-- The collector clears the weak references to a buffer. -/
  | collect (b : B)

namespace State

variable {O R J B : Type*} [DecidableEq O] [DecidableEq J] [DecidableEq B]

/-- The pointers queued or copied and not yet erased. -/
def pending (s : State O J B) : List (Queued J) := s.finalizationQueue ++ s.batches.flatten

/-- `toValueAsLocal` (lines 10–13); `none` where no twin lives at the address. -/
def toValueAsLocal (s : State O J B) (p : ℕ) : Option (Val O) := (s.twins p).map Twin.value

/-- `stash.erase(p)`: the twin is freed with its entry. -/
def stashErase (s : State O J B) (p : ℕ) : State O J B :=
  if s.stash p then
    { s with stash := Function.update s.stash p false, twins := Function.update s.twins p none }
  else s

/-- Lines 451–462: a new twin at a free address and a new Java object. -/
def newTwin (s : State O J B) (v : Val O) (j : J) (p : ℕ) :
    Option (State O J B × List (Event O J B)) :=
  if p ≠ 0 ∧ (s.twins p).isNone ∧ (s.objects j).isNone ∧ j ∉ s.frames.map Frame.object then
    some ({ s with
      twins := Function.update s.twins p (some ⟨j, .undefined⟩),
      frames := ⟨j, p, v⟩ :: s.frames }, [])
  else none

/-- `toObject(JSValue)`, lines 377–462. A value that is one of the bridge's own
    proxies is not recorded; after a crash there is no next state. -/
def toObject (s : State O J B) (rd : Reads O R) (n : ℕ) (v : Val O) (j : J) (p : ℕ) :
    Option (State O J B × List (Event O J B)) :=
  match (recognise rd n v).1 with
  | .crash => none
  | .create dead => (dead.elim s s.stashErase).newTwin v j p
  | _ => some (s, if v.isQuackObjectProxy rd.finalizer then [] else [.received v .other])

/-- `toObject(JSValue)`, lines 464–523, for the innermost call. -/
def finishToObject (s : State O J B) (h : QuickJS.Heap O R) (n : ℕ) (byteBuffer : Option B) :
    Option (State O J B × List (Event O J B)) :=
  match s.frames with
  | [] => none
  | f :: frames =>
    let s := { s with
      frames := frames,
      objects := Function.update s.objects f.object (some ⟨f.pointer, f.value, .alive⟩),
      stash := Function.update s.stash f.pointer true,
      twins := Function.update s.twins f.pointer (some ⟨f.object, f.value⟩) }
    if f.value.isBuffer h n then
      match byteBuffer with
      | none => some ({ s with
          nativeMappings := (s.nativeMappings.put s.buffers none (some f.object)).2 },
          [.received f.value .other])
      | some b =>
        if s.known b ∨ s.buffers.cleared b then none
        else some ({ s with
          known := Function.update s.known b true,
          nativeMappings := (s.nativeMappings.put s.buffers (some b) (some f.object)).2 },
          [.received f.value (.byteBuffer b)])
    else some (s, [.received f.value (.javaScriptObject f.object)])

/-- `JavaScriptObject.finalize` and `finalizeJavaScriptObject`, for an object
    that is not reachable, so not a value of `nativeMappings`. -/
def finalize (s : State O J B) (j : J) : Option (State O J B × List (Event O J B)) :=
  match s.objects j with
  | none => none
  | some o =>
    if o.status = .alive ∧ some j ∉ s.nativeMappings.map.nodes.map Prod.snd then
      some ({ s with
        objects := Function.update s.objects j (some { o with status := .enqueued }),
        finalizationQueue := s.finalizationQueue ++ [⟨j, o.pointer⟩] },
        [.enqueued ⟨j, o.pointer⟩])
    else none

/-- `finalizeJavaScriptObjects()` of Java up to the native call. -/
def drain (s : State O J B) : State O J B :=
  if s.finalizationQueue = [] then s
  else { s with finalizationQueue := [], batches := s.finalizationQueue :: s.batches }

/-- The loop of the native `finalizeJavaScriptObjects` (lines 58–63). -/
def erase (s : State O J B) : Option (State O J B × List (Event O J B)) :=
  match s.batches with
  | [] => none
  | [] :: batches => some ({ s with batches := batches }, [])
  | (q :: qs) :: batches =>
    let owner := if s.stash q.pointer then (s.twins q.pointer).map Twin.owner else none
    let s := s.stashErase q.pointer
    some ({ s with
      batches := qs :: batches,
      objects := Function.update s.objects q.object
        ((s.objects q.object).map fun o => { o with status := .drained }) },
      [.erased q owner])

/-- `toObject(jobject)`, lines 338–346, for a `JavaScriptObject`. -/
def pushTwin (s : State O J B) (x : Handle J B) (j : J) (fresh : Val O) :
    Option (List (Event O J B)) :=
  match s.objects j with
  | none => none
  | some o =>
    if o.pointer ≠ 0 then
      match s.toValueAsLocal o.pointer with
      | some v => some [.passed x v]
      | none => some [.dangling x]
    else some [.passed x fresh]

/-- `toObject(jobject)` for what Java received and still holds. A buffer is
    looked up in `nativeMappings`; without a mapping a new `Uint8Array` is made
    (lines 312–336). -/
def passBack (s : State O J B) (x : Handle J B) (fresh : Val O) :
    Option (State O J B × List (Event O J B)) :=
  match x with
  | .other => some (s, [.passed x fresh])
  | .javaScriptObject j =>
    if (s.objects j).any fun o => o.status = .alive then
      (s.pushTwin x j fresh).map fun e => (s, e)
    else none
  | .byteBuffer b =>
    if s.known b ∧ s.buffers.cleared b = false then
      match s.nativeMappings.get s.buffers (some b) with
      | (.ok (some j), m) => (s.pushTwin x j fresh).map fun e => ({ s with nativeMappings := m }, e)
      | (_, m) => some ({ s with nativeMappings := m }, [.passed x fresh])
    else none

/-- One step. -/
def step (s : State O J B) : Action O R J B → Option (State O J B × List (Event O J B))
  | .toObject rd n v j p => s.toObject rd n v j p
  | .finishToObject h n byteBuffer => s.finishToObject h n byteBuffer
  | .finalize j => s.finalize j
  | .drain => some (s.drain, [])
  | .erase => s.erase
  | .passBack x fresh => s.passBack x fresh
  | .mutate b hash =>
    some ({ s with
      buffers := { s.buffers with hashCode := Function.update s.buffers.hashCode b hash } }, [])
  | .collect b =>
    some ({ s with
      buffers := { s.buffers with cleared := Function.update s.buffers.cleared b true } }, [])

end State

/-- A context with an empty stash, on which Java has made no buffer yet. -/
def machine {O J B : Type*} (R : Type*) [DecidableEq O] [DecidableEq J] [DecidableEq B]
    (buffers : WeakMap.Heap B) : Machine (State O J B) (Action O R J B) (Event O J B) where
  init := { buffers := buffers }
  step := State.step

end JSEngine.QuickJS
