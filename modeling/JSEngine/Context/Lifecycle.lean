import JSEngine.Common.Machine
import Mathlib.Tactic

/-!
# Entry points and native handles of `JSEngineContext`

Model of the calls of one thread on any number of contexts. Every public or
package method of `JSEngineContext` that reaches a native method is an
`EntryPoint`; its `body` lists, in the order of the source, the tests of the
`context` field, the native calls, and the places where code of the application
runs. The methods of `JavaScriptObject` and `JSValue`, and `newError` and
`throwObject`, are sequences of these.

A native call and a call into the application both put a frame on the stack.
While such a frame is open the application may call any entry point again (the
monitor is re-entrant); when it ends, by returning or by throwing, the rest of
the body is run. So a native call may be interrupted by calls at any depth.

The native side sees a list of events. `Handles.step` is its contract: a method
may be called with a handle that `createContext` returned and that has not been
passed to `destroyContext`, and `destroyContext` only while no native call with
the handle is open.
-/

namespace JSEngine.Context

open JSEngine.Common

/-! ## Entry points -/

/-- The native methods that take a handle (lines 916–942). -/
inductive Native
  | getHeapSize
  | destroyContext
  | evaluate
  | evaluateModule
  | compileFunction
  | cooperateDebugger
  | waitForDebugger
  | isDebugging
  | debuggerAppNotify
  | getKeyObject
  | getKeyString
  | getKeyInteger
  | setKeyObject
  | setKeyString
  | setKeyInteger
  | call
  | callConstructor
  | callMethod
  | callProperty
  | getGlobalObject
  | stringify
  | finalizeJavaScriptObjects
  | hasPendingJobs
  | runJobs
  deriving DecidableEq

/-- A step of a method body. -/
inductive Op
  /-- `if (context == 0) return` -/
  | guard
  /-- the native method with `context` as its handle -/
  | invoke (m : Native)
  /-- `coerceJavaScriptToJava`, which runs coercions of the application -/
  | coerce
  /-- the `finally` block starts -/
  | finally
  /-- `if (!hasPostInvocationTasks()) return` -/
  | check
  /-- `if (jobExecutor != null) { jobExecutor.execute(this::runPostInvocation); return; }` -/
  | execute
  /-- `finalizeJavaScriptObjects()` -/
  | drain
  /-- the body of `close()` -/
  | close
  deriving DecidableEq

/-- The methods of `JSEngineContext` that reach a native method. -/
inductive EntryPoint
  | evaluate
  | evaluateModule
  | compileFunction
  | close
  | getGlobalObject
  | cooperateDebugger
  | waitForDebugger
  | isDebugging
  | debuggerAppNotify
  | getKeyObject
  | getKeyString
  | getKeyInteger
  | setKeyObject
  | setKeyString
  | setKeyInteger
  | call
  | callConstructor
  | callMethod
  | callProperty
  | stringify
  | getHeapSize
  | finalizeJavaScriptObjects
  | runPostInvocation
  deriving DecidableEq

/-- `runPostInvocation` (lines 856–861). -/
def runPostInvocation : List Op := [.guard, .drain, .invoke .runJobs]

/-- `handlePostInvocation` (lines 846–855). -/
def handlePostInvocation : List Op := [.check, .execute] ++ runPostInvocation

/-- A native call behind the test of `context`. -/
def guarded (m : Native) : List Op := [.guard, .invoke m]

/-- A guarded native call in a `try` block whose `finally` calls
    `handlePostInvocation`. -/
def timed (m : Native) : List Op := [.guard, .invoke m, .finally] ++ handlePostInvocation

/-- The same where the result is coerced inside the `try` block. -/
def coerced (m : Native) : List Op := [.guard, .invoke m, .coerce, .finally] ++ handlePostInvocation

/-- The bodies (lines 539–861). `compileFunction` and `getGlobalObject` do not
    test `context`. -/
def EntryPoint.body : EntryPoint → List Op
  | .evaluate => coerced .evaluate
  | .evaluateModule => coerced .evaluateModule
  | .compileFunction => [.invoke .compileFunction]
  | .close => [.close]
  | .getGlobalObject => [.invoke .getGlobalObject]
  | .cooperateDebugger => guarded .cooperateDebugger
  | .waitForDebugger => guarded .waitForDebugger
  | .isDebugging => guarded .isDebugging
  | .debuggerAppNotify => guarded .debuggerAppNotify
  | .getKeyObject => guarded .getKeyObject
  | .getKeyString => guarded .getKeyString
  | .getKeyInteger => guarded .getKeyInteger
  | .setKeyObject => guarded .setKeyObject
  | .setKeyString => guarded .setKeyString
  | .setKeyInteger => guarded .setKeyInteger
  | .call => timed .call
  | .callConstructor => timed .callConstructor
  | .callMethod => timed .callMethod
  | .callProperty => timed .callProperty
  | .stringify => guarded .stringify
  | .getHeapSize => guarded .getHeapSize
  | .finalizeJavaScriptObjects => [.drain]
  | .runPostInvocation => Context.runPostInvocation

/-! ## The machine -/

variable {X : Type*} [DecidableEq X]

/-- An open call of `owner`: a native call, with its handle, or (`none`) a call
    into the application; `rest` is run when it returns. -/
structure Frame (X : Type*) where
  owner : X
  call : Option (Native × ℕ)
  rest : List Op

/-- The handle of an open native call. -/
def Frame.handle (f : Frame X) : Option ℕ := f.call.map Prod.snd

/-- How a call ends; the `Bool` is the result of `hasPendingJobs`. -/
inductive Outcome
  | returns (b : Bool)
  | throws

/-- What is left to run after the call: an exception goes to the `finally` block,
    if there is one ahead. -/
def Frame.resume (f : Frame X) : Outcome → List Op
  | .throws => f.rest.dropWhile fun op => op != .finally
  | .returns b => if (f.call.map Prod.fst) = some .hasPendingJobs ∧ b = false then [] else f.rest

/-- What the native side sees. -/
inductive Event
  /-- `createContext` returned the handle -/
  | created (h : ℕ)
  | invoked (m : Native) (h : ℕ)
  | returned (h : ℕ)
  deriving DecidableEq

structure State (X : Type*) where
  /-- the context objects that `create` returned -/
  created : X → Bool := fun _ => false
  /-- `JSEngineContext.context` -/
  context : X → ℕ := fun _ => 0
  finalizationQueue : X → List ℕ := fun _ => []
  /-- `jobExecutor != null` -/
  jobExecutor : X → Bool := fun _ => false
  /-- the open calls, innermost first -/
  stack : List (Frame X) := []
  /-- the handles that were created and not passed to `destroyContext` -/
  live : ℕ → Bool := fun _ => false

/-- Call a native method with `context` as its handle. -/
def State.invoke (s : State X) (x : X) (m : Native) (rest : List Op) : State X × List Event :=
  ({ s with stack := ⟨x, some (m, s.context x), rest⟩ :: s.stack }, [.invoked m (s.context x)])

/-- Call into the application. -/
def State.callback (s : State X) (x : X) (rest : List Op) : State X × List Event :=
  ({ s with stack := ⟨x, none, rest⟩ :: s.stack }, [])

/-- Run a body of `x` up to its first native call or call into the application. -/
def exec (s : State X) (x : X) : List Op → State X × List Event
  | [] => (s, [])
  | .guard :: ops => if s.context x = 0 then (s, []) else exec s x ops
  | .invoke m :: ops => s.invoke x m ops
  | .coerce :: ops => s.callback x ops
  | .finally :: ops => exec s x ops
  -- `hasPostInvocationTasks` (lines 838–845)
  | .check :: ops =>
    if s.finalizationQueue x = [] then s.invoke x .hasPendingJobs ops else exec s x ops
  | .execute :: ops => if s.jobExecutor x then s.callback x [] else exec s x ops
  -- `finalizeJavaScriptObjects` (lines 823–837): the queue is emptied in any case
  | .drain :: ops =>
    if s.finalizationQueue x = [] then exec s x ops
    else
      let s' := { s with finalizationQueue := Function.update s.finalizationQueue x [] }
      if s.context x = 0 then exec s' x ops else s'.invoke x .finalizeJavaScriptObjects ops
  -- `close` (lines 633–640): the field is reset before the native call
  | .close :: ops =>
    if s.context x = 0 then exec s x ops
    else
      ({ s with
        context := Function.update s.context x 0
        live := Function.update s.live (s.context x) false
        stack := ⟨x, some (.destroyContext, s.context x), ops⟩ :: s.stack },
        [.invoked .destroyContext (s.context x)])

inductive Action (X : Type*)
  /-- `create`: the new object `x`, for which `createContext` returned `handle` -/
  | create (x : X) (handle : ℕ)
  | call (x : X) (m : EntryPoint)
  /-- the innermost open call ends -/
  | leave (outcome : Outcome)
  | setJobExecutor (x : X) (executor : Bool)
  /-- `finalizeJavaScriptObject(object)`, of the finalizer thread -/
  | finalizeJavaScriptObject (x : X) (object : ℕ)

/-- The allocator does not return an address in use: that of a context not yet
    destroyed, or being destroyed. -/
def State.allocatable (s : State X) (handle : ℕ) : Bool :=
  !s.live handle && s.stack.all fun f => f.call != some (.destroyContext, handle)

def contextStep (s : State X) : Action X → Option (State X × List Event)
  | .create x handle =>
    if handle = 0 then some (s, []) -- an OutOfMemoryError
    else if s.created x ∨ s.allocatable handle = false then none
    else some ({ s with
      created := Function.update s.created x true
      context := Function.update s.context x handle
      finalizationQueue := Function.update s.finalizationQueue x []
      jobExecutor := Function.update s.jobExecutor x false
      live := Function.update s.live handle true }, [.created handle])
  | .call x m => if s.created x then some (exec s x m.body) else none
  | .leave outcome =>
    match s.stack with
    | [] => none
    | f :: fs =>
      let r := exec { s with stack := fs } f.owner (f.resume outcome)
      some (r.1, (f.handle.map Event.returned).toList ++ r.2)
  | .setJobExecutor x executor =>
    if s.created x then
      some ({ s with jobExecutor := Function.update s.jobExecutor x executor }, [])
    else none
  | .finalizeJavaScriptObject x object =>
    if s.context x = 0 then some (s, [])
    else some ({ s with
      finalizationQueue :=
        Function.update s.finalizationQueue x (s.finalizationQueue x ++ [object]) }, [])

def contextMachine : Machine (State X) (Action X) Event where
  init := {}
  step := contextStep

/-! ## The contract of the native side -/

/-- The handles that may be used, and those of the open native calls. -/
structure Handles where
  live : ℕ → Bool := fun _ => false
  active : List ℕ := []

/-- One event, where the contract allows it. -/
def Handles.step (t : Handles) : Event → Option Handles
  | .created h => some { t with live := Function.update t.live h true }
  | .invoked m h =>
    if t.live h = false then none
    else if m = .destroyContext then
      if h ∈ t.active then none
      else some { live := Function.update t.live h false, active := h :: t.active }
    else some { t with active := h :: t.active }
  | .returned h => some { t with active := t.active.erase h }

/-- The state after the events, if all of them are allowed. -/
def Handles.check : Handles → List Event → Option Handles
  | t, [] => some t
  | t, e :: es => (t.step e).bind fun t' => t'.check es

/-- Every native call is made with a valid handle. -/
def ValidCalls (es : List Event) : Prop := (Handles.check {} es).isSome = true

instance (es : List Event) : Decidable (ValidCalls es) :=
  inferInstanceAs (Decidable ((Handles.check {} es).isSome = true))

theorem Handles.check_append (t : Handles) (es es' : List Event) :
    t.check (es ++ es') = (t.check es).bind fun t' => t'.check es' := by
  induction es generalizing t with
  | nil => rfl
  | cons e es ih =>
    simp only [List.cons_append, Handles.check]
    cases t.step e with
    | none => rfl
    | some t' => exact ih t'

theorem validCalls_prefix (es es' : List Event) (h : ValidCalls (es ++ es')) : ValidCalls es := by
  unfold ValidCalls at h ⊢
  rw [Handles.check_append] at h
  cases hc : Handles.check {} es with
  | none =>
    rw [hc] at h
    cases h
  | some t => rfl

end JSEngine.Context
