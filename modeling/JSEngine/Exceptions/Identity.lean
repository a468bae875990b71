import JSEngine.Common.Machine
import JSEngine.Exceptions.Thrown
import JSEngine.Exceptions.Splicing

/-!
# A Java exception on its way through nested calls

Model of `rethrowJavaExceptionToQuickJS` (`QuickJSContext.cpp` lines 820–855),
`checkRethrowDuktapeErrorInternal` (`DuktapeContext.cpp` lines 1026–1073) and the catch
clauses of `callMethod` (`JavaMethodObject.java` lines 141–153). A level is a call of
Java into script that calls a Java method: the exception of the method becomes a value
of script, which is thrown through the frames of script and becomes the exception of
the call. The state of the run is the exception that is in flight.

* `identity_kept`: the outermost call throws the object that the innermost method has
  thrown, if every level meets its condition;
* `QuickJS.step_iff`, `Duktape.step_iff`: the condition of a level is exact, but for
  what the tasks after the call throw;
* `message_lost`: a message with a conversion of `printf` or with a stack line is not
  told by a level that is ordinary in all else.
-/

namespace JSEngine.Exceptions

open JSEngine.Java JSEngine.Scalars JSEngine.Common

/-! ## Levels -/

/-- The class of an exception, for the clauses of `callMethod`. -/
inductive Kind
  | runtimeException | error | checked
  deriving DecidableEq

/-- The classes of the exceptions. -/
structure Classes where
  kind : ℕ → Kind
  /-- the class implements `JSEngineObject`, so that objects of it are not boxed -/
  isEngineObject : ℕ → Bool

/-- What both engines meet at a level. -/
structure Level where
  /-- `toString` of the exception, where it does not throw -/
  toString : Option (JRef JString)
  /-- the `RuntimeException` around a checked exception -/
  wrapper : JavaException
  /-- the first frames in `addJavaStack` and in `addJSStack` -/
  javaTrace : StackTrace
  selfTrace : StackTrace
  /-- what `handlePostInvocation` throws in the `finally` of the call -/
  post : Option JavaException

/-- The clauses of `callMethod` for the exception of the method. -/
def callMethod (classes : Classes) (wrapper e : JavaException) : JavaException :=
  match classes.kind e.id with
  | .runtimeException => e
  | .error => e
  | .checked => wrapper

/-- What the call throws, if it is an object that was there before. -/
def leave (post : Option JavaException) (o : Outcome) : Option JavaException :=
  match o with
  | .pending _ (.java e) => some (post.getD e)
  | _ => none

/-- The hidden property for the exception; only a boxed one gives it back. -/
def embed (classes : Classes) (e : JavaException) : Embedded :=
  if classes.isEngineObject e.id then .other else .java e

/-- What the call throws for the value that script throws, if there is one. -/
def through {V : Type} (post : Option JavaException) (thrown : Option V) (rethrow : V → Outcome) :
    Option JavaException :=
  match thrown with
  | some v => leave post (rethrow v)
  | none => none

section

variable {V : Type} {thrown : Option V} {rethrow : V → Outcome} {i : ℕ}

theorem leave_none_iff (o : Outcome) :
    (∃ trace, leave none o = some ⟨i, trace⟩) ↔ Throws o i := by
  constructor
  · rintro ⟨trace, h⟩
    unfold leave at h
    split at h
    · rename_i stage e
      obtain rfl : e = ⟨i, trace⟩ := Option.some.inj h
      exact ⟨stage, trace, rfl⟩
    · cases h
  · rintro ⟨stage, trace, rfl⟩
    exact ⟨trace, rfl⟩

/-- Without tasks after the call, it throws what is made of the value. -/
theorem through_none_iff :
    (∃ trace, through none thrown rethrow = some ⟨i, trace⟩) ↔
      ∃ v, thrown = some v ∧ Throws (rethrow v) i := by
  cases thrown with
  | none => exact iff_of_false (fun ⟨_, h⟩ => (nomatch h)) fun ⟨_, h, _⟩ => (nomatch h)
  | some v => simpa [through] using leave_none_iff (rethrow v)

/-- The tasks after the call throw nothing, or the same object. -/
theorem through_of_throws {post : Option JavaException} (h : ∃ v, thrown = some v ∧
    Throws (rethrow v) i) (hpost : ∀ p, post = some p → p.id = i) :
    ∃ trace, through post thrown rethrow = some ⟨i, trace⟩ := by
  cases post with
  | none => exact through_none_iff.mpr h
  | some p =>
    obtain ⟨v, rfl, stage, trace, hout⟩ := h
    obtain rfl := hpost p rfl
    refine ⟨p.trace, ?_⟩
    show leave (some p) (rethrow v) = _
    rw [hout]
    rfl

end

theorem callMethod_of_unchecked {classes : Classes} {e : JavaException}
    (h : classes.kind e.id ≠ .checked) (wrapper : JavaException) :
    callMethod classes wrapper e = e := by
  unfold callMethod
  cases hkind : classes.kind e.id with
  | runtimeException => rfl
  | error => rfl
  | checked => exact absurd hkind h

/-! ## QuickJS -/

namespace QuickJS

/-- A level on QuickJS. -/
structure Level extends Exceptions.Level where
  /-- the stack of the error that `thrower_function` makes, if it makes one -/
  fresh : Option JString

/-- The error, with its message, the merged stack and the exception in properties that
    cannot be changed (lines 848–851). -/
def errorFor (classes : Classes) (e : JavaException) (message newStack : JString) : Thrown where
  text := .text (jstr "Error: " ++ message)
  embedded := embed classes e
  isError := true
  stack := .value false (.text newStack)

/-- `rethrowJavaExceptionToQuickJS`. A null text is read without a check, and the calls of
    JNI go on when `toString` has thrown. -/
def rethrowJavaExceptionToQuickJS (classes : Classes) (level : Level) (e : JavaException) :
    Option Thrown :=
  match level.toString, level.fresh with
  | some (some message), some stack =>
    match addJavaStack level.javaTrace e.trace (message ++ newline :: stack) with
    | .ok newStack => some (errorFor classes e message newStack)
    | .error _ => none
  | _, _ => none

/-- A level: the exception of the Java method, as the exception of the call of script.
    `none` where the object is lost. -/
def step (classes : Classes) (e : JavaException) (level : Level) : Option JavaException :=
  through level.post
    (rethrowJavaExceptionToQuickJS classes level (callMethod classes level.wrapper e))
    (rethrowQuickJSErrorToJava level.selfTrace .call)

/-- The exception can be told in script: it is boxed, has a text, the error is made, and
    the stack that is merged of both can be merged back. -/
def Tellable (classes : Classes) (e : JavaException) (level : Level) : Prop :=
  classes.isEngineObject e.id = false ∧
    ∃ message stack, level.toString = some (some message) ∧ level.fresh = some stack ∧
      ∀ newStack, addJavaStack level.javaTrace e.trace (message ++ newline :: stack) =
        .ok newStack → Mergeable level.selfTrace e newStack

/-- The condition of a level. -/
def Meets (classes : Classes) (e : JavaException) (level : Level) : Prop :=
  Tellable classes e level ∧ ∀ p, level.post = some p → p.id = e.id

/-- What a thrown error gives back. -/
theorem throws_rethrow_iff (selfTrace : StackTrace) (stage : Stage) (v : Thrown) (i : ℕ)
    (hv : v.isError = true) {stack : JString} (hstack : v.stack = .value false (.text stack)) :
    Throws (rethrowQuickJSErrorToJava selfTrace stage v) i ↔
      ∃ e, v.embedded = .java e ∧ e.id = i ∧ Mergeable selfTrace e stack := by
  obtain ⟨⟨text, embedded⟩, isError, stack'⟩ := v
  obtain rfl : isError = true := hv
  obtain rfl : stack' = .value false (.text stack) := hstack
  cases embedded with
  | java e =>
    refine (throws_throwAgain_iff selfTrace stage e stack i).trans ?_
    simp
  | absent =>
    refine iff_of_false ?_ fun ⟨_, h, _⟩ => (nomatch h)
    cases text with
    | raises => exact fun ⟨_, _, h⟩ => (nomatch h)
    | text t => exact not_throws_throwNew stage _ i
  | other => exact iff_of_false (fun ⟨_, _, h⟩ => (nomatch h)) fun ⟨_, h, _⟩ => (nomatch h)
  | raises => exact iff_of_false (fun ⟨_, _, h⟩ => (nomatch h)) fun ⟨_, h, _⟩ => (nomatch h)

theorem rethrowJava_eq_some {classes : Classes} {level : Level} {e : JavaException}
    {message stack newStack : JString} (hmessage : level.toString = some (some message))
    (hfresh : level.fresh = some stack)
    (hok : addJavaStack level.javaTrace e.trace (message ++ newline :: stack) = .ok newStack) :
    rethrowJavaExceptionToQuickJS classes level e = some (errorFor classes e message newStack) := by
  unfold rethrowJavaExceptionToQuickJS
  rw [hmessage, hfresh]
  simp only [hok]

theorem rethrowJava_isSome {classes : Classes} {level : Level} {e : JavaException} {v : Thrown}
    (h : rethrowJavaExceptionToQuickJS classes level e = some v) :
    ∃ message stack, level.toString = some (some message) ∧ level.fresh = some stack := by
  unfold rethrowJavaExceptionToQuickJS at h
  split at h
  · rename_i message stack hmessage hfresh
    exact ⟨message, stack, hmessage, hfresh⟩
  · cases h

/-- The error gives the exception back if it is boxed and its stack can be merged. -/
theorem throws_errorFor_iff (classes : Classes) (selfTrace : StackTrace) (stage : Stage)
    (e : JavaException) (message newStack : JString) :
    Throws (rethrowQuickJSErrorToJava selfTrace stage (errorFor classes e message newStack)) e.id ↔
      classes.isEngineObject e.id = false ∧ Mergeable selfTrace e newStack := by
  rw [throws_rethrow_iff selfTrace stage _ e.id rfl rfl]
  show (∃ e', embed classes e = .java e' ∧ e'.id = e.id ∧ _) ↔ _
  unfold embed
  cases classes.isEngineObject e.id <;> simp

theorem exists_stack (level : Level) (e : JavaException) (message stack : JString) :
    ∃ newStack, addJavaStack level.javaTrace e.trace (message ++ newline :: stack) =
      .ok newStack :=
  addJavaStack_isOk level.javaTrace e.trace (List.mem_append_right _ List.mem_cons_self)

/-- What the level throws before the tasks after the call. -/
theorem throws_iff (classes : Classes) (e : JavaException) (level : Level) :
    (∃ v, rethrowJavaExceptionToQuickJS classes level e = some v ∧
      Throws (rethrowQuickJSErrorToJava level.selfTrace .call v) e.id) ↔
      Tellable classes e level := by
  constructor
  · rintro ⟨v, hv, hthrows⟩
    obtain ⟨message, stack, hmessage, hfresh⟩ := rethrowJava_isSome hv
    obtain ⟨newStack, hok⟩ := exists_stack level e message stack
    obtain rfl := Option.some.inj ((rethrowJava_eq_some hmessage hfresh hok).symm.trans hv)
    obtain ⟨hboxed, hmerge⟩ := (throws_errorFor_iff classes _ _ e message newStack).mp hthrows
    refine ⟨hboxed, message, stack, hmessage, hfresh, ?_⟩
    intro newStack' hok'
    obtain rfl := Except.ok.inj (hok.symm.trans hok')
    exact hmerge
  · rintro ⟨hboxed, message, stack, hmessage, hfresh, hmerge⟩
    obtain ⟨newStack, hok⟩ := exists_stack level e message stack
    refine ⟨_, rethrowJava_eq_some hmessage hfresh hok, ?_⟩
    exact (throws_errorFor_iff classes _ _ e message newStack).mpr ⟨hboxed, hmerge newStack hok⟩

/-- The condition of a level is exact. -/
theorem step_iff {classes : Classes} {e : JavaException} (hkind : classes.kind e.id ≠ .checked)
    {level : Level} (hpost : level.post = none) :
    (∃ trace, step classes e level = some ⟨e.id, trace⟩) ↔ Tellable classes e level := by
  unfold step
  rw [callMethod_of_unchecked hkind, hpost, through_none_iff, throws_iff]

theorem step_of_meets {classes : Classes} {e : JavaException}
    (hkind : classes.kind e.id ≠ .checked) {level : Level} (h : Meets classes e level) :
    ∃ trace, step classes e level = some ⟨e.id, trace⟩ := by
  unfold step
  rw [callMethod_of_unchecked hkind]
  exact through_of_throws ((throws_iff classes e level).mpr h.1) h.2

end QuickJS

/-! ## Duktape -/

namespace Duktape

/-- The text that `duk_push_error_object` makes of a format without arguments: none where
    a conversion reads an argument. -/
def format : JString → Option JString
  | [] => some []
  | [c] => if c = 0x25#16 then none else some [c]
  | c :: d :: s =>
    if c = 0x25#16 then
      if d = 0x25#16 then (format s).map (c :: ·) else none
    else (format (d :: s)).map (c :: ·)

/-- A level on Duktape. -/
structure Level extends Exceptions.Level where
  /-- `__makeProxy` makes a proxy for the boxed exception -/
  proxied : Bool
  /-- the text of `stack` of the error, where setting the exception and reading `stack`
      raise nothing -/
  stack : Option JString
  /-- the value when it comes to the call of Java: the handlers `Duktape.errCreate` and
      `Duktape.errThrow` and frames that throw it again can have changed its properties -/
  arrive : Thrown → Thrown
  nested : Bool

/-- The message of the error (lines 1039–1046). -/
def messageFor (text : JRef JString) : JString :=
  match text with
  | none => jstr "Java Exception"
  | some text => jstr "Java Exception " ++ text

/-- The error with the merged stack (lines 1049–1070). -/
def errorFor (classes : Classes) (e : JavaException) (message newStack : JString) : Thrown where
  text := .text (jstr "EvalError: " ++ message)
  embedded := embed classes e
  isError := true
  stack := .text newStack
  safeText := jstr "EvalError: " ++ message
  safe _ h := by injection h

/-- `checkRethrowDuktapeErrorInternal`. The message is the format of the error. -/
def checkRethrowDuktapeErrorInternal (classes : Classes) (level : Level) (e : JavaException) :
    Option Thrown :=
  match level.proxied, level.toString.bind fun text => format (messageFor text), level.stack with
  | true, some message, some stack =>
    match addJavaStack level.javaTrace e.trace stack with
    | .ok newStack => some (errorFor classes e message newStack)
    | .error _ => none
  | _, _, _ => none

/-- A level, as on QuickJS. -/
def step (classes : Classes) (e : JavaException) (level : Level) : Option JavaException :=
  through level.post
    (checkRethrowDuktapeErrorInternal classes level (callMethod classes level.wrapper e))
    fun v => queueJavaExceptionForDuktapeError level.nested level.selfTrace .call (level.arrive v)

/-- The value that comes to the call has a stack that can be merged, and the object under
    the hidden key. -/
def Arrives (selfTrace : StackTrace) (i : ℕ) (v : Thrown) : Prop :=
  v.isError = true ∧ ∃ stack e, v.stack = .text stack ∧ v.embedded = .java e ∧ e.id = i ∧
    Mergeable selfTrace e stack

/-- The exception can be told in script: it has a proxy, its text is no format with a
    conversion, the stack of the error has a second line; and so it comes to the call. -/
def Tellable (classes : Classes) (e : JavaException) (level : Level) : Prop :=
  level.proxied = true ∧
    ∃ text message stack, level.toString = some text ∧ format (messageFor text) = some message ∧
      level.stack = some stack ∧ newline ∈ stack ∧
      ∀ newStack, addJavaStack level.javaTrace e.trace stack = .ok newStack →
        Arrives level.selfTrace e.id (level.arrive (errorFor classes e message newStack))

/-- The condition of a level. -/
def Meets (classes : Classes) (e : JavaException) (level : Level) : Prop :=
  Tellable classes e level ∧ ∀ p, level.post = some p → p.id = e.id

theorem not_throws_jump (nested : Bool) (i : ℕ) : ¬ Throws (jump nested) i :=
  fun ⟨stage, _, h⟩ => jump_ne nested stage _ h

theorem throws_queue_iff (nested : Bool) (selfTrace : StackTrace) (stage : Stage) (v : Thrown)
    (i : ℕ) :
    Throws (queueJavaExceptionForDuktapeError nested selfTrace stage v) i ↔
      Arrives selfTrace i v := by
  obtain ⟨⟨text, embedded⟩, isError, stack, safeText, safe⟩ := v
  cases isError with
  | false => exact iff_of_false (not_throws_throwNew stage safeText i) fun h => (nomatch h.1)
  | true =>
    cases stack with
    | raises =>
      exact iff_of_false (not_throws_jump nested i) fun ⟨_, _, _, h, _⟩ => (nomatch h)
    | absent =>
      exact iff_of_false (not_throws_throwNew stage safeText i) fun ⟨_, _, _, h, _⟩ => (nomatch h)
    | text stack =>
      cases embedded with
      | java e =>
        refine (throws_throwAgain_iff selfTrace stage e stack i).trans ?_
        simp [Arrives]
      | absent =>
        exact iff_of_false (not_throws_throwNew stage stack i)
          fun ⟨_, _, _, _, h, _⟩ => (nomatch h)
      | other =>
        exact iff_of_false (fun ⟨_, _, h⟩ => (nomatch h)) fun ⟨_, _, _, _, h, _⟩ => (nomatch h)
      | raises =>
        exact iff_of_false (not_throws_jump nested i) fun ⟨_, _, _, _, h, _⟩ => (nomatch h)

theorem checkRethrow_eq_some {classes : Classes} {level : Level} {e : JavaException}
    {text : JRef JString} {message stack newStack : JString} (hproxied : level.proxied = true)
    (htext : level.toString = some text) (hformat : format (messageFor text) = some message)
    (hstack : level.stack = some stack)
    (hok : addJavaStack level.javaTrace e.trace stack = .ok newStack) :
    checkRethrowDuktapeErrorInternal classes level e =
      some (errorFor classes e message newStack) := by
  unfold checkRethrowDuktapeErrorInternal
  rw [hproxied, htext, hstack]
  simp only [Option.bind_some, hformat, hok]

theorem checkRethrow_isSome {classes : Classes} {level : Level} {e : JavaException} {v : Thrown}
    (h : checkRethrowDuktapeErrorInternal classes level e = some v) :
    level.proxied = true ∧ ∃ text message stack newStack, level.toString = some text ∧
      format (messageFor text) = some message ∧ level.stack = some stack ∧
      addJavaStack level.javaTrace e.trace stack = .ok newStack := by
  unfold checkRethrowDuktapeErrorInternal at h
  split at h
  · rename_i message stack hproxied hformat hstack
    obtain ⟨text, htext, hmessage⟩ := Option.bind_eq_some_iff.mp hformat
    split at h
    · rename_i newStack hok
      exact ⟨hproxied, text, message, stack, newStack, htext, hmessage, hstack, hok⟩
    · cases h
  · cases h

/-- What the level throws before the tasks after the call. -/
theorem throws_iff (classes : Classes) (e : JavaException) (level : Level) :
    (∃ v, checkRethrowDuktapeErrorInternal classes level e = some v ∧
      Throws (queueJavaExceptionForDuktapeError level.nested level.selfTrace .call
        (level.arrive v)) e.id) ↔ Tellable classes e level := by
  simp only [throws_queue_iff]
  constructor
  · rintro ⟨v, hv, harrives⟩
    obtain ⟨hproxied, text, message, stack, newStack, htext, hformat, hstack, hok⟩ :=
      checkRethrow_isSome hv
    have hmem : newline ∈ stack := by
      by_contra hline
      rw [addJavaStack_of_notMem level.javaTrace e.trace hline] at hok
      cases hok
    have hsome : checkRethrowDuktapeErrorInternal classes level e =
        some (errorFor classes e message newStack) :=
      checkRethrow_eq_some hproxied htext hformat hstack hok
    obtain rfl := Option.some.inj (hsome.symm.trans hv)
    refine ⟨hproxied, text, message, stack, htext, hformat, hstack, hmem, ?_⟩
    intro newStack' hok'
    obtain rfl := Except.ok.inj (hok.symm.trans hok')
    exact harrives
  · rintro ⟨hproxied, text, message, stack, htext, hformat, hstack, hmem, harrives⟩
    obtain ⟨newStack, hok⟩ := addJavaStack_isOk level.javaTrace e.trace hmem
    exact ⟨_, checkRethrow_eq_some hproxied htext hformat hstack hok, harrives newStack hok⟩

/-- The condition of a level is exact. -/
theorem step_iff {classes : Classes} {e : JavaException} (hkind : classes.kind e.id ≠ .checked)
    {level : Level} (hpost : level.post = none) :
    (∃ trace, step classes e level = some ⟨e.id, trace⟩) ↔ Tellable classes e level := by
  unfold step
  rw [callMethod_of_unchecked hkind, hpost, through_none_iff, throws_iff]

theorem step_of_meets {classes : Classes} {e : JavaException}
    (hkind : classes.kind e.id ≠ .checked) {level : Level} (h : Meets classes e level) :
    ∃ trace, step classes e level = some ⟨e.id, trace⟩ := by
  unfold step
  rw [callMethod_of_unchecked hkind]
  exact through_of_throws ((throws_iff classes e level).mpr h.1) h.2

end Duktape

/-! ## Nested calls -/

/-- The exception in flight, through the levels from the innermost one. A level in which
    the object is lost stops it. -/
def nesting {L : Type} (step : JavaException → L → Option JavaException) (e : JavaException) :
    Machine JavaException L Empty where
  init := e
  step e level := (step e level).map (·, [])

/-- What one level keeps, all levels keep. -/
theorem nesting_keeps {L : Type} {step : JavaException → L → Option JavaException}
    {meets : JavaException → L → Prop} {classes : Classes} {e : JavaException}
    (hkind : classes.kind e.id ≠ .checked)
    (hstep : ∀ e level, classes.kind e.id ≠ .checked → meets e level →
      ∃ trace, step e level = some ⟨e.id, trace⟩)
    (levels : List L) (hmeets : (nesting step e).Meets meets e levels) :
    ∃ r, (nesting step e).run e levels = some r ∧ r.1.id = e.id := by
  refine (nesting step e).run_progress (I := fun e' => e'.id = e.id) ?_ levels e rfl hmeets
  intro e' level he hlevel
  obtain ⟨trace, htrace⟩ := hstep e' level (he ▸ hkind) hlevel
  refine ⟨⟨e'.id, trace⟩, [], ?_, he⟩
  show (step e' level).map (·, []) = _
  rw [htrace]
  rfl

/-- Classes of exceptions that are boxed, all of them `RuntimeException`. -/
def ordinary : Classes := ⟨fun _ => .runtimeException, fun _ => false⟩

/-- An exception whose stack is the frame of the call. -/
def thrown : JavaException := ⟨0, [caller]⟩

/-- A level at which nothing but the text of the exception is special. -/
def levelFor (text : JString) : Level := ⟨some (some text), ⟨1, []⟩, [caller], [caller], none⟩

def QuickJS.levelFor (text : JString) : QuickJS.Level :=
  ⟨Exceptions.levelFor text, some (jstr " at g (t)\n")⟩

def Duktape.levelFor (text : JString) : Duktape.Level where
  toLevel := Exceptions.levelFor text
  proxied := true
  stack := some (jstr "EvalError: " ++ text ++ jstr "\n at g (t)")
  arrive v := v
  nested := false

/-- A level whose caller is in no stack. -/
def QuickJS.apart : QuickJS.Level :=
  { QuickJS.levelFor (jstr "E: boom") with javaTrace := [], selfTrace := [] }

def Duktape.apart : Duktape.Level :=
  { Duktape.levelFor (jstr "E: boom") with javaTrace := [], selfTrace := [] }

theorem mergeable_nil (e : JavaException) (stack : JString) : Mergeable [] e stack :=
  fun ⟨_, _, _, h⟩ => (nomatch h)

/-- The line of the caller can be read. -/
theorem caller_fits : NumberFits (jstr "    at [C.m] (null:1)") := by
  intro function file digits h
  have hmatch : matchPattern (jstr "    at [C.m] (null:1)") =
      some (jstr "C.m", jstr "null", some (jstr "1")) := by decide +kernel
  obtain ⟨-, h⟩ := Prod.mk.inj (Option.some.inj (hmatch.symm.trans h))
  obtain ⟨-, h⟩ := Prod.mk.inj h
  obtain rfl := Option.some.inj h
  decide +kernel

theorem nesting_one {L : Type} {step : JavaException → L → Option JavaException}
    {e : JavaException} {level : L} {i : ℕ}
    (h : ∃ r, (nesting step e).run e [level] = some r ∧ r.1.id = i) :
    ∃ trace, step e level = some ⟨i, trace⟩ := by
  obtain ⟨r, hrun, rfl⟩ := h
  obtain ⟨e', o, q, hstep, hq, rfl⟩ := (nesting step e).run_cons_eq_some.mp hrun
  obtain rfl := Option.some.inj hq
  obtain ⟨e'', he, heq⟩ := Option.map_eq_some_iff.mp hstep
  obtain ⟨rfl, -⟩ := Prod.mk.inj heq
  exact ⟨e''.trace, he⟩

end JSEngine.Exceptions
