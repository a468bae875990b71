import JSEngine.Exceptions.StackTrace

/-!
# From a thrown value of script to a Java exception

Model of `QuickJSContext::rethrowQuickJSErrorToJava` (lines 775–818) and
`queueJavaExceptionForDuktapeError` (`DuktapeContext.cpp` lines 1081–1117). What they
ask about the value is a record for each engine; texts are as `NewStringUTF` hands
them to Java. A `JSEngineException` begins with a frame of its caller, so the text is
always spliced into a new one.

* `QuickJS.carries_iff`, `Duktape.carries_iff`: the Java exception carries the value
  exactly where it is `Readable`.
-/

namespace JSEngine.Exceptions

open JSEngine.Java JSEngine.Scalars

/-- A Java exception: an object, by its identity, and the stack it has now. -/
structure JavaException where
  id : ℕ
  trace : StackTrace
  deriving DecidableEq

/-- The conversion of a value to a string. -/
inductive Text
  | raises
  | text (s : JString)
  deriving DecidableEq

/-- The value under the hidden key for Java exceptions. -/
inductive Embedded
  | absent
  | java (e : JavaException)
  /-- something that is no Java object -/
  | other
  | raises
  deriving DecidableEq

/-- What both bridges ask about a thrown value. -/
structure Thrown where
  text : Text
  embedded : Embedded
  deriving DecidableEq

/-- Where the engine raises: at the conversion of the key, at that of an argument or
    of the value that is set, at the property itself, in a function that is called, or
    because what is called is no function. -/
inductive Stage
  | key | argument | access | call | notAFunction
  deriving DecidableEq

/-- A pending Java exception. -/
inductive Pending
  | java (e : JavaException)
  /-- a `JSEngineException` -/
  | script (message : JString)
  /-- what its constructor throws -/
  | failure (f : Failure)
  deriving DecidableEq

/-- How a JNI call ends. -/
inductive Outcome
  | returned
  /-- with an exception, made from what was raised at the stage -/
  | pending (stage : Stage) (p : Pending)
  | assertionFailed
  | fatalError
  /-- a jump to a protected call further out, over the frames of Java -/
  | unwound
  /-- a null pointer for a text or an object, or a call of JNI that must not be made
      while an exception is pending -/
  | undefined
  deriving DecidableEq

/-- The Java exception is the embedded one, or one with the text as its message. -/
def Carries (stage : Stage) (v : Thrown) (o : Outcome) : Prop :=
  (∃ e trace, v.embedded = .java e ∧ o = .pending stage (.java ⟨e.id, trace⟩)) ∨
    ∃ m, o = .pending stage (.script m) ∧ ∀ t, v.text = .text t → m = t

/-- `ThrowNew` of a `JSEngineException` (`JSEngineException.java` lines 39–42). -/
def throwNew (stage : Stage) (detailMessage : JString) : Outcome :=
  match jsElements (lines detailMessage).tail with
  | .error f => .pending stage (.failure f)
  | .ok _ => .pending stage (.script (getErrorMessage detailMessage))

/-- `addJSStack`, then `Throw` of the exception, also where the former has thrown. -/
def throwAgain (selfTrace : StackTrace) (stage : Stage) (e : JavaException)
    (stack : JRef JString) : Outcome :=
  match addJSStack selfTrace e.trace stack with
  | .error _ => .undefined
  | .ok trace => .pending stage (.java ⟨e.id, trace⟩)

/-- The text does not make the splicing throw. -/
def Mergeable (selfTrace : StackTrace) (e : JavaException) (stack : JString) : Prop :=
  Spliced selfTrace e.trace stack → Parses stack

/-- The embedded exception is thrown again if its stack can be merged. -/
theorem throwAgain_of_mergeable {selfTrace : StackTrace} {e : JavaException} {stack : JString}
    (h : Mergeable selfTrace e stack) (stage : Stage) :
    ∃ trace, throwAgain selfTrace stage e (some stack) = .pending stage (.java ⟨e.id, trace⟩) := by
  obtain ⟨trace, htrace⟩ := (addJSStack_isOk_iff selfTrace e.trace stack).mpr h
  refine ⟨trace, ?_⟩
  unfold throwAgain
  rw [htrace]

theorem throwAgain_of_not_mergeable {selfTrace : StackTrace} {e : JavaException}
    {stack : JString} (h : ¬ Mergeable selfTrace e stack) (stage : Stage) :
    throwAgain selfTrace stage e (some stack) = .undefined := by
  unfold throwAgain
  cases htrace : addJSStack selfTrace e.trace (some stack) with
  | error f => rfl
  | ok trace =>
    exact absurd ((addJSStack_isOk_iff selfTrace e.trace stack).mp ⟨trace, htrace⟩) h

/-- The pending exception is the object `i`. -/
def Throws (o : Outcome) (i : ℕ) : Prop :=
  ∃ stage trace, o = .pending stage (.java ⟨i, trace⟩)

theorem throws_throwAgain_iff (selfTrace : StackTrace) (stage : Stage) (e : JavaException)
    (stack : JString) (i : ℕ) :
    Throws (throwAgain selfTrace stage e (some stack)) i ↔
      e.id = i ∧ Mergeable selfTrace e stack := by
  by_cases hm : Mergeable selfTrace e stack
  · obtain ⟨trace, htrace⟩ := throwAgain_of_mergeable hm stage
    rw [htrace, and_iff_left hm]
    constructor
    · rintro ⟨_, _, hout⟩
      cases hout
      rfl
    · rintro rfl
      exact ⟨stage, trace, rfl⟩
  · rw [throwAgain_of_not_mergeable hm]
    exact iff_of_false (fun ⟨_, _, hout⟩ => (nomatch hout)) fun h => hm h.2

theorem not_throws_throwNew (stage : Stage) (detailMessage : JString) (i : ℕ) :
    ¬ Throws (throwNew stage detailMessage) i := by
  unfold throwNew
  rintro ⟨_, _, h⟩
  split at h <;> cases h

theorem not_carries_of_ne {stage : Stage} {v : Thrown} {o : Outcome}
    (h : ∀ p, o ≠ .pending stage p) : ¬ Carries stage v o := by
  rintro (⟨_, _, -, ho⟩ | ⟨_, ho, -⟩) <;> exact h _ ho

theorem carries_throwAgain_iff (selfTrace : StackTrace) (stage : Stage) {v : Thrown}
    {e : JavaException} (h : v.embedded = .java e) (stack : JString) :
    Carries stage v (throwAgain selfTrace stage e (some stack)) ↔
      Mergeable selfTrace e stack := by
  constructor
  · intro hcarries
    by_contra hm
    have hne : ∀ p, Outcome.undefined ≠ .pending stage p := fun p ho => (nomatch ho)
    rw [throwAgain_of_not_mergeable hm] at hcarries
    exact not_carries_of_ne hne hcarries
  · intro hm
    obtain ⟨trace, htrace⟩ := throwAgain_of_mergeable hm stage
    exact Or.inl ⟨e, trace, h, htrace⟩

/-- A new exception carries the value if the lines parse and the message is its text. -/
theorem carries_throwNew_iff (stage : Stage) (v : Thrown) (detailMessage : JString) :
    Carries stage v (throwNew stage detailMessage) ↔
      Parses detailMessage ∧ ∀ t, v.text = .text t → getErrorMessage detailMessage = t := by
  unfold Parses
  rw [← jsElements_isOk_iff]
  unfold throwNew
  cases jsElements (lines detailMessage).tail with
  | error f =>
    refine iff_of_false ?_ fun ⟨⟨_, hok⟩, _⟩ => (nomatch hok)
    rintro (⟨_, _, -, hout⟩ | ⟨_, hout, -⟩) <;> cases hout
  | ok elements =>
    rw [and_iff_right ⟨elements, rfl⟩]
    constructor
    · rintro (⟨_, _, -, hout⟩ | ⟨m, hout, htext⟩)
      · cases hout
      · cases hout
        exact htext
    · exact fun htext => Or.inr ⟨_, rfl, htext⟩

/-! ## QuickJS -/

namespace QuickJS

/-- A property of a value: reading it raises, or gives a value. -/
inductive Property
  | raises
  | value (nullish : Bool) (text : Text)
  deriving DecidableEq

/-- What `rethrowQuickJSErrorToJava` asks about the thrown value. -/
structure Thrown extends Exceptions.Thrown where
  isError : Bool
  stack : Property
  deriving DecidableEq

/-- `toString(env, stack)`; null where there is no text. -/
def Property.toString : Property → JRef JString
  | .value _ (.text s) => some s
  | _ => none

/-- The stack in the text of the Java exception (lines 803–807). -/
def Property.detail : Property → Option JString
  | .value true _ => some (jstr "    at unknown (unknown)\n")
  | .value false (.text s) => some s
  | _ => none

/-- `rethrowQuickJSErrorToJava` (lines 775–818). An exception in place of a value has no
    text. -/
def rethrowQuickJSErrorToJava (selfTrace : StackTrace) (stage : Stage) (v : Thrown) : Outcome :=
  if v.isError then
    match v.embedded with
    | .java e => throwAgain selfTrace stage e v.stack.toString
    | .other => .undefined
    | .raises => .undefined
    | .absent =>
      match v.text, v.stack.detail with
      | .text t, some s => throwNew stage (t ++ newline :: s)
      | _, _ => .undefined
  else
    match v.text with
    | .text t => throwNew stage t
    | .raises => .undefined

/-- The value can be told in Java: the stack that goes into an embedded exception is a
    text that can be merged; the text of an error is one line, in front of stack lines
    that parse; that of another value has one line, or an empty first one. -/
def Readable (selfTrace : StackTrace) (v : Thrown) : Prop :=
  if v.isError then
    match v.embedded with
    | .java e => ∃ s, v.stack.toString = some s ∧ Mergeable selfTrace e s
    | .other => False
    | .raises => False
    | .absent => ∃ t s, v.text = .text t ∧ v.stack.detail = some s ∧
        Parses (t ++ newline :: s) ∧ t ≠ [] ∧ newline ∉ t
  else ∃ t, v.text = .text t ∧ Parses t ∧ (newline ∈ t → t.head? = some newline)

theorem carries_throwAgain_toString_iff (selfTrace : StackTrace) (stage : Stage)
    {v : Exceptions.Thrown} {e : JavaException} (h : v.embedded = .java e)
    (stack : JRef JString) :
    Carries stage v (throwAgain selfTrace stage e stack) ↔
      ∃ s, stack = some s ∧ Mergeable selfTrace e s := by
  cases stack with
  | none =>
    exact iff_of_false (not_carries_of_ne fun p ho => (nomatch ho)) fun ⟨_, hs, _⟩ => (nomatch hs)
  | some s =>
    rw [carries_throwAgain_iff selfTrace stage h]
    simp

/-- The message of a new exception is the text that it is made from. -/
theorem carries_text_iff (stage : Stage) {v : Exceptions.Thrown} {t : JString}
    (h : v.text = .text t) (detailMessage : JString) :
    Carries stage v (throwNew stage detailMessage) ↔
      Parses detailMessage ∧ getErrorMessage detailMessage = t := by
  rw [carries_throwNew_iff, h]
  simp

/-- The exception carries the value exactly where it can be told. -/
theorem carries_iff (selfTrace : StackTrace) (stage : Stage) (v : Thrown) :
    Carries stage v.toThrown (rethrowQuickJSErrorToJava selfTrace stage v) ↔
      Readable selfTrace v := by
  obtain ⟨⟨text, embedded⟩, isError, stack⟩ := v
  cases isError with
  | true =>
    cases embedded with
    | java e => exact carries_throwAgain_toString_iff selfTrace stage rfl stack.toString
    | other => exact iff_of_false (not_carries_of_ne fun p h => (nomatch h)) id
    | raises => exact iff_of_false (not_carries_of_ne fun p h => (nomatch h)) id
    | absent =>
      cases text with
      | raises =>
        exact iff_of_false (not_carries_of_ne fun p h => (nomatch h)) fun ⟨_, _, h, _⟩ => (nomatch h)
      | text t =>
        simp only [rethrowQuickJSErrorToJava, Readable, if_true]
        cases stack.detail with
        | none =>
          refine iff_of_false (not_carries_of_ne fun p h => (nomatch h)) ?_
          exact fun ⟨_, _, _, h, _⟩ => (nomatch h)
        | some s =>
          rw [carries_text_iff stage rfl, getErrorMessage_append_iff]
          simp
  | false =>
    cases text with
    | raises =>
      exact iff_of_false (not_carries_of_ne fun p h => (nomatch h)) fun ⟨_, h, _⟩ => (nomatch h)
    | text t =>
      show Carries stage ⟨.text t, embedded⟩ (throwNew stage t) ↔ ∃ t', Text.text t = .text t' ∧ _
      rw [carries_text_iff stage rfl, getErrorMessage_eq_self_iff]
      simp

end QuickJS

/-! ## Duktape -/

namespace Duktape

/-- The property `stack` of a value: asking for it raises, there is none, or it has a
    text (`duk_safe_to_string` gives one to every value). -/
inductive Property
  | raises
  | absent
  | text (s : JString)
  deriving DecidableEq

/-- What `queueJavaExceptionForDuktapeError` asks about the thrown value. -/
structure Thrown extends Exceptions.Thrown where
  isError : Bool
  stack : Property
  /-- `duk_safe_to_string` of the value -/
  safeText : JString
  safe : ∀ t, text = .text t → safeText = t

/-- A raise that nothing here catches: a jump, or the end. -/
def jump (nested : Bool) : Outcome := if nested then .unwound else .fatalError

/-- `queueJavaExceptionForDuktapeError` (lines 1081–1117). The properties are read without
    protection. -/
def queueJavaExceptionForDuktapeError (nested : Bool) (selfTrace : StackTrace) (stage : Stage)
    (v : Thrown) : Outcome :=
  if v.isError then
    match v.stack with
    | .raises => jump nested
    | .absent => throwNew stage v.safeText
    | .text stack =>
      match v.embedded with
      | .absent => throwNew stage stack
      | .java e => throwAgain selfTrace stage e (some stack)
      | .other => .undefined
      | .raises => jump nested
  else throwNew stage v.safeText

/-- The text parses, and has the value's own text as its message. -/
def Tells (v : Exceptions.Thrown) (detailMessage : JString) : Prop :=
  Parses detailMessage ∧ ∀ t, v.text = .text t → IsMessage t detailMessage

/-- The value can be told in Java: an error has a stack that can be merged into the
    embedded exception, or tells its text; the text of another value tells itself. -/
def Readable (selfTrace : StackTrace) (v : Thrown) : Prop :=
  if v.isError then
    match v.stack with
    | .raises => False
    | .absent => Tells v.toThrown v.safeText
    | .text stack =>
      match v.embedded with
      | .absent => Tells v.toThrown stack
      | .java e => Mergeable selfTrace e stack
      | .other => False
      | .raises => False
  else Tells v.toThrown v.safeText

theorem carries_tells_iff (stage : Stage) (v : Exceptions.Thrown) (detailMessage : JString) :
    Carries stage v (throwNew stage detailMessage) ↔ Tells v detailMessage := by
  simp only [carries_throwNew_iff, getErrorMessage_eq_iff, Tells]

theorem jump_ne (nested : Bool) (stage : Stage) (p : Pending) :
    jump nested ≠ .pending stage p := by
  cases nested <;> exact fun h => (nomatch h)

/-- The exception carries the value exactly where it can be told. -/
theorem carries_iff (nested : Bool) (selfTrace : StackTrace) (stage : Stage) (v : Thrown) :
    Carries stage v.toThrown (queueJavaExceptionForDuktapeError nested selfTrace stage v) ↔
      Readable selfTrace v := by
  obtain ⟨⟨text, embedded⟩, isError, stack, safeText, safe⟩ := v
  cases isError with
  | false => exact carries_tells_iff stage ⟨text, embedded⟩ safeText
  | true =>
    cases stack with
    | raises => exact iff_of_false (not_carries_of_ne (jump_ne nested stage)) id
    | absent => exact carries_tells_iff stage ⟨text, embedded⟩ safeText
    | text stack =>
      cases embedded with
      | absent => exact carries_tells_iff stage ⟨text, .absent⟩ stack
      | java e => exact carries_throwAgain_iff selfTrace stage rfl stack
      | other => exact iff_of_false (not_carries_of_ne fun p h => (nomatch h)) id
      | raises => exact iff_of_false (not_carries_of_ne (jump_ne nested stage)) id

end Duktape

end JSEngine.Exceptions
