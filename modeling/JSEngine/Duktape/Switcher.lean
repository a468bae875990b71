import JSEngine.Common.Machine
import Mathlib.Tactic

/-!
# `ContextSwitcher`: the current Duktape thread

Model of the proxy traps of `DuktapeContext` (`DuktapeContext.cpp` lines
156–168 and 385–628). A trap is entered on the thread that runs the script; its
trampoline opens a `ContextSwitcher`, which keeps the old `m_context` and sets
the thread, and whose destructor sets `m_context` back. After a Java exception
the body returns `DUK_RET_ERROR`, the destructor runs, and `duk_throw` is called
outside the guard. An error that an engine call raises inside the body leaves by
`longjmp`, past the destructor.

Traps nest: while an engine call or a call into Java is open, the script may
enter another one. What the script and Java do in between is up to the
environment: an action enters a trap, lets the open call of the innermost trap
return or raise, or ends its body.

* `restores_iff`: over runs, every trap leaves `m_context` as it was exactly
  where no engine call raises in a trap on a thread other than the one that was
  current.
* `stuck_on_coroutine`: any engine call that raises in a trap of a coroutine
  leaves the context on it.
-/

namespace JSEngine.Duktape.Switcher

open JSEngine.Common

/-! ## The traps -/

/-- The calls of the bodies. Assertions and JNI calls that run no Java code are
    left out. -/
inductive Op
  | getJNIEnv
  | duk_pop
  | duk_pop_2
  | duk_get_type
  | duk_get_string
  | duk_get_length
  | duk_get_prop_index
  | duk_get_prop_string
  | duk_require_pointer
  | duk_push_undefined
  | duk_push_boolean
  | duk_push_pointer
  | popObject
  | pushObject
  /-- `env->Call…Method` on the `JSEngineContext` -/
  | callJava
  /-- `if (!checkRethrowDuktapeErrorException(env, m_context)) return DUK_RET_ERROR;` -/
  | checkRethrow
  deriving DecidableEq

/-- Calls that only move values on the stack: they run no script and raise no
    error. -/
def Op.plain : Op → Bool
  | .duk_pop | .duk_pop_2 | .duk_get_type | .duk_get_string => true
  | .duk_push_undefined | .duk_push_boolean | .duk_push_pointer => true
  | _ => false

/-- Calls that may raise an error; JNI has none to raise. -/
def Op.mayRaise (op : Op) : Bool := !op.plain && op ≠ .callJava

/-- The property key, as the traps tell keys apart: hidden strings, the plain
    string `__javascript_this`, other strings, other keys. -/
inductive Key
  | hidden
  | javascriptThis
  | string
  | other
  deriving DecidableEq

/-- Getting the Java object of the target (lines 397–400 and its copies). -/
def javaTarget : List Op := [.duk_get_prop_string, .duk_require_pointer, .duk_pop_2]

/-- `duktapeSet` (lines 385–423). -/
def duktapeSet : List Op :=
  [.getJNIEnv, .duk_pop, .popObject, .popObject] ++ javaTarget ++
    [.callJava, .checkRethrow, .duk_push_boolean]

/-- `duktapeGet` (lines 437–502). -/
def duktapeGet (key : Key) : List Op :=
  [.getJNIEnv, .duk_pop, .duk_get_type] ++
    match key with
    | .hidden => [.duk_get_string, .duk_pop_2, .duk_push_undefined]
    | .javascriptThis => [.duk_get_string, .duk_pop] ++ javaTarget ++ [.duk_push_pointer]
    | .string =>
      [.duk_get_string, .duk_pop] ++ javaTarget ++ [.callJava, .checkRethrow, .pushObject]
    | .other => [.popObject] ++ javaTarget ++ [.callJava, .checkRethrow, .pushObject]

/-- `duktapeHas` (lines 516–564). -/
def duktapeHas (key : Key) : List Op :=
  [.getJNIEnv, .duk_get_type] ++
    match key with
    | .hidden | .javascriptThis => [.duk_get_string, .duk_pop_2, .duk_push_boolean]
    | .string =>
      [.duk_get_string, .popObject] ++ javaTarget ++ [.callJava, .checkRethrow, .duk_push_boolean]
    | .other => [.popObject] ++ javaTarget ++ [.callJava, .checkRethrow, .duk_push_boolean]

/-- The loop of `duktapeApply` over the argument list. -/
def unpackArguments (argLen : ℕ) : List Op :=
  (List.replicate argLen [.duk_get_prop_index, .popObject]).flatten

/-- `duktapeApply` (lines 578–616). -/
def duktapeApply (argLen : ℕ) : List Op :=
  [.getJNIEnv, .duk_get_length] ++ unpackArguments argLen ++ [.duk_pop, .popObject] ++
    javaTarget ++ [.callJava, .checkRethrow, .pushObject]

/-- A trap with what decides its path. -/
inductive Trap
  | set
  | get (key : Key)
  | has (key : Key)
  | apply (argLen : ℕ)
  deriving DecidableEq

/-- The body of a trap. -/
def Trap.body : Trap → List Op
  | .set => duktapeSet
  | .get key => duktapeGet key
  | .has key => duktapeHas key
  | .apply argLen => duktapeApply argLen

/-! ## The machine -/

section

variable {T : Type}

/-- A trap that was entered: the fields of its `ContextSwitcher`, the rest of its
    body, and whether a Java exception is pending. -/
structure Frame (T : Type) where
  originalContext : T
  thread : T
  rest : List Op
  pending : Bool
  deriving DecidableEq

/-- The current thread and the open traps, the innermost first. -/
structure State (T : Type) where
  m_context : T
  frames : List (Frame T)
  deriving DecidableEq

inductive Action (T : Type)
  /-- the engine calls a trap on a thread -/
  | enter (trap : Trap) (thread : T)
  /-- the open call returns, a call into Java with an exception or without -/
  | returns (exception : Bool)
  /-- the open call raises a JavaScript error -/
  | raises
  /-- the end of the body: the destructor runs, then `return` or `duk_throw` -/
  | leaves
  deriving DecidableEq

/-- A trap has ended: `m_context` when it was entered, and afterwards. -/
structure Ended (T : Type) where
  before : T
  after : T
  deriving DecidableEq

/-- The script may run: no trap is open, or its open call is one that may call
    back. -/
def State.runsScript (s : State T) : Bool :=
  match s.frames with
  | [] => true
  | f :: _ => f.rest.head?.any fun op => !op.plain

/-- The open call returns: `callJava` may leave an exception, on which
    `checkRethrow` ends the body. -/
def Frame.return (f : Frame T) (exception : Bool) : Option (Frame T) :=
  match f.rest with
  | [] => none
  | .callJava :: rest => some { f with rest := rest, pending := exception }
  | .checkRethrow :: rest => some { f with rest := if f.pending then [] else rest }
  | _ :: rest => some { f with rest := rest }

/-- One action. -/
def step (s : State T) : Action T → Option (State T × List (Ended T))
  | .enter trap thread =>
    if s.runsScript then
      some ({ m_context := thread,
              frames := ⟨s.m_context, thread, trap.body, false⟩ :: s.frames }, [])
    else none
  | .returns exception =>
    match s.frames with
    | [] => none
    | f :: fs => (f.return exception).map fun f' => ({ s with frames := f' :: fs }, [])
  | .raises =>
    match s.frames with
    | [] => none
    | f :: fs =>
      -- `longjmp`: the destructor does not run
      if f.rest.head?.any Op.mayRaise then
        some ({ s with frames := fs }, [⟨f.originalContext, s.m_context⟩])
      else none
  | .leaves =>
    match s.frames with
    | [] => none
    | f :: fs =>
      if f.rest = [] then
        some ({ m_context := f.originalContext, frames := fs },
          [⟨f.originalContext, f.originalContext⟩])
      else none

/-- The runs from the main thread, where no trap is open. -/
def machine (main : T) : Machine (State T) (Action T) (Ended T) where
  init := { m_context := main, frames := [] }
  step := step

/-- The trap left the current thread as it was. -/
def Ended.Restored (e : Ended T) : Prop := e.before = e.after

/-- No engine call raises in a trap on a thread other than the one that was
    current when it was entered. -/
def RaisesAtHome (s : State T) (a : Action T) : Prop :=
  a = .raises → ∀ f ∈ s.frames.head?, f.thread = f.originalContext

instance [DecidableEq T] (s : State T) (a : Action T) : Decidable (RaisesAtHome s a) :=
  inferInstanceAs (Decidable (_ → _))

instance [DecidableEq T] (e : Ended T) : Decidable e.Restored :=
  inferInstanceAs (Decidable (_ = _))

/-! ## Runs -/

/-- Each open trap set the current thread over that of the trap around it. -/
def Chained (main : T) : T → List (Frame T) → Prop
  | current, [] => current = main
  | current, f :: fs => current = f.thread ∧ Chained main f.originalContext fs

theorem Frame.return_contexts {f f' : Frame T} {exception : Bool}
    (h : f.return exception = some f') :
    f'.originalContext = f.originalContext ∧ f'.thread = f.thread := by
  unfold Frame.return at h
  split at h
  · exact absurd h (by simp)
  all_goals
    obtain rfl := Option.some.inj h
    exact ⟨rfl, rfl⟩

/-- **One step** from a chained state: the traps that end in it are restored
    exactly where it meets the condition, and then the next state is chained. -/
theorem Chained.step {main : T} {s s' : State T} {a : Action T} {o : List (Ended T)}
    (h : Chained main s.m_context s.frames) (hs : Switcher.step s a = some (s', o)) :
    ((∀ e ∈ o, e.Restored) ↔ RaisesAtHome s a) ∧
      (RaisesAtHome s a → Chained main s'.m_context s'.frames) := by
  obtain ⟨current, frames⟩ := s
  match a, frames with
  | .enter trap thread, frames =>
    simp only [Switcher.step] at hs
    split_ifs at hs
    obtain ⟨rfl, rfl⟩ := Prod.mk.inj (Option.some.inj hs)
    refine ⟨?_, fun _ => ⟨rfl, h⟩⟩
    simp [RaisesAtHome]
  | .returns exception, [] | .raises, [] | .leaves, [] => simp [Switcher.step] at hs
  | .returns exception, f :: fs =>
    simp only [Switcher.step, Option.map_eq_some_iff, Prod.mk.injEq] at hs
    obtain ⟨f', hf', rfl, rfl⟩ := hs
    obtain ⟨horiginal, hthread⟩ := Frame.return_contexts hf'
    refine ⟨?_, fun _ => ?_⟩
    · simp [RaisesAtHome]
    · show current = f'.thread ∧ Chained main f'.originalContext fs
      rw [horiginal, hthread]
      exact h
  | .raises, f :: fs =>
    simp only [Switcher.step] at hs
    split_ifs at hs
    obtain ⟨rfl, rfl⟩ := Prod.mk.inj (Option.some.inj hs)
    obtain ⟨hcurrent, hrest⟩ : current = f.thread ∧ Chained main f.originalContext fs := h
    have hhome : RaisesAtHome ⟨current, f :: fs⟩ .raises ↔ f.thread = f.originalContext := by
      simp [RaisesAtHome]
    rw [hhome]
    constructor
    · rw [List.forall_mem_singleton, Ended.Restored, hcurrent]
      exact eq_comm
    · intro hf
      show Chained main current fs
      rw [hcurrent, hf]
      exact hrest
  | .leaves, f :: fs =>
    simp only [Switcher.step] at hs
    split_ifs at hs
    obtain ⟨rfl, rfl⟩ := Prod.mk.inj (Option.some.inj hs)
    refine ⟨?_, fun _ => h.2⟩
    simp [RaisesAtHome, Ended.Restored]

/-- Where no engine call raises away from home, a chained state leads to chained
    states. -/
theorem Chained.run {main start : T} {s : State T} {actions : List (Action T)}
    {r : State T × List (Ended T)} (h : Chained main s.m_context s.frames)
    (hmeets : (machine start).Meets RaisesAtHome s actions)
    (hrun : (machine start).run s actions = some r) : Chained main r.1.m_context r.1.frames :=
  (machine start).run_history (I := fun s _ => Chained main s.m_context s.frames)
    (fun _ _ _ _ _ hI hP hs => (Chained.step hI hs).2 hP) actions s [] r h hmeets hrun

/-- **The current thread over runs**: every trap that ends leaves it as it was
    exactly where no engine call raises in a trap on another thread; then it is
    the main thread again whenever no trap is open. -/
theorem restores_iff (main : T) (actions : List (Action T)) (r : State T × List (Ended T))
    (hrun : (machine main).run (machine main).init actions = some r) :
    ((∀ e ∈ r.2, e.Restored) ↔ (machine main).Meets RaisesAtHome (machine main).init actions) ∧
      ((machine main).Meets RaisesAtHome (machine main).init actions →
        r.1.frames = [] → r.1.m_context = main) := by
  constructor
  · have := (machine main).run_accepts_iff
      (P := RaisesAtHome)
      (I := fun s h => Chained main s.m_context s.frames ∧ ∀ e ∈ h, e.Restored)
      (A := fun h => ∀ e ∈ h, e.Restored) ?_ ?_ ?_ actions (machine main).init [] r
      ⟨rfl, by simp⟩ hrun
    · simpa using this
    · intro h o hacc e he
      exact hacc e (List.mem_append_left _ he)
    · intro s h hI
      exact hI.2
    · intro s h a s' o ⟨hchained, hseen⟩ hs
      obtain ⟨hiff, hnext⟩ := hchained.step hs
      have happ : (∀ e ∈ h ++ o, e.Restored) ↔ RaisesAtHome s a := by
        rw [List.forall_mem_append, hiff]
        exact and_iff_right hseen
      exact ⟨happ, fun hp => ⟨hnext hp, happ.mpr hp⟩⟩
  · intro hmeets hframes
    have hinit : Chained main (machine main).init.m_context (machine main).init.frames := rfl
    have hchained := hinit.run hmeets hrun
    rw [hframes] at hchained
    exact hchained

/-- On the main thread 0 an argument of a call raises while it is unpacked; on the
    coroutine 1 a setter is entered, calls a getter of the main thread through
    Java, and ends with a Java exception. -/
def nestedTraps : List (Action ℕ) :=
  [.enter (.apply 2) 0, .returns false, .raises,
    .enter .set 1, .returns false, .returns false, .returns false, .returns false,
    .returns false, .returns false, .returns false,
    .enter (.get .hidden) 0, .returns false, .returns false, .returns false,
    .returns false, .returns false, .returns false, .leaves,
    .returns true, .returns false, .leaves]

theorem restores_nested :
    ∃ r, (machine 0).run (machine 0).init nestedTraps = some r ∧
      (∀ e ∈ r.2, e.Restored) ∧ r.1.m_context = 0 := by
  have hmeets : (machine 0).Meets RaisesAtHome (machine 0).init nestedTraps := by decide +kernel
  have hrun : (((machine 0).run (machine 0).init nestedTraps).map fun r => r.1.frames.isEmpty) =
      some true := by decide +kernel
  obtain ⟨r, hr, hempty⟩ := Option.map_eq_some_iff.mp hrun
  obtain ⟨hiff, hclosed⟩ := restores_iff 0 nestedTraps r hr
  exact ⟨r, hr, hiff.mpr hmeets, hclosed hmeets (List.isEmpty_iff.mp hempty)⟩

/-- A coroutine sets a property of a Java object to a `Proxy` whose `has` trap
    throws: `popObject` raises, and the current thread stays the coroutine. -/
theorem coroutine_raise_is_not_restored :
    ¬ ∀ (actions : List (Action ℕ)) (r : State ℕ × List (Ended ℕ)),
        (machine 0).run (machine 0).init actions = some r → ∀ e ∈ r.2, e.before = e.after := by
  intro h
  have := h [.enter .set 1, .returns false, .returns false, .raises] _ rfl ⟨0, 1⟩ (by decide)
  exact absurd this (by decide)

/-- **A raise on a coroutine**: once control is back in Java the current thread is
    the coroutine, and it stays so in every later run whose traps are restored. -/
theorem stuck_on_coroutine {main start : T} {s s' : State T} {f : Frame T} {o : List (Ended T)}
    (hchained : Chained main s.m_context s.frames) (hframes : s.frames = [f])
    (hraise : step s .raises = some (s', o)) {actions : List (Action T)}
    {r : State T × List (Ended T)} (hmeets : (machine start).Meets RaisesAtHome s' actions)
    (hrun : (machine start).run s' actions = some r) (hclosed : r.1.frames = []) :
    r.1.m_context = f.thread := by
  obtain ⟨current, frames⟩ := s
  subst hframes
  obtain ⟨rfl, -⟩ : current = f.thread ∧ _ := hchained
  simp only [step] at hraise
  split_ifs at hraise
  obtain ⟨rfl, rfl⟩ := Prod.mk.inj (Option.some.inj hraise)
  have hlast := Chained.run (s := ⟨f.thread, []⟩) (rfl : Chained f.thread f.thread []) hmeets hrun
  rw [hclosed] at hlast
  exact hlast

end

end JSEngine.Duktape.Switcher
