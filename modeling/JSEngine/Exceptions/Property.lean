import JSEngine.Exceptions.Thrown

/-!
# Exceptions of script under `get`, `set` and `callProperty`

Model of the seven entry points of each engine (`QuickJSContext.cpp` lines 572–677 and
765–773, `DuktapeContext.cpp` lines 788–853 and 922–964). What script raises in the
parts of an operation is given; the entry points decide what becomes of it.

* `property_surfaces_iff`: every raised value is carried by the pending Java exception
  exactly where the operation is `Clean`;
* `getter_boom`: it is not on a getter that throws, with `callProperty` on QuickJS and
  with `get` on Duktape.
-/

namespace JSEngine.Exceptions

open JSEngine.Java JSEngine.Scalars

/-- The operations on a property. -/
inductive Operation
  | getKeyString | getKeyInteger | getKeyObject
  | setKeyString | setKeyInteger | setKeyObject
  | callProperty
  deriving DecidableEq

/-- What is raised in the parts of an operation: where the key is converted, where the
    value that is set or the first of the arguments that fails is, where the property is
    read, written or looked up, and in the call. -/
structure Script (T : Type) where
  key : Option T
  argument : Option T
  access : Option T
  call : Option T

/-- Every raised value is carried by the exception that is pending at the end; so no
    assertion has failed then, and the fatal error handler is not reached. -/
def Surfaces (raised : List (Stage × Thrown)) (o : Outcome) : Prop :=
  ∀ r ∈ raised, Carries r.1 r.2 o

theorem surfaces_append (raised raised' : List (Stage × Thrown)) (o : Outcome) :
    Surfaces (raised ++ raised') o ↔ Surfaces raised o ∧ Surfaces raised' o :=
  List.forall_mem_append

/-! ## Where the pending exception comes from -/

theorem throwNew_stage {stage stage' : Stage} {detailMessage : JString} {p : Pending}
    (h : throwNew stage detailMessage = .pending stage' p) : stage = stage' := by
  unfold throwNew at h
  split at h <;> (injection h)

theorem throwAgain_stage {selfTrace : StackTrace} {stage stage' : Stage} {e : JavaException}
    {stack : JRef JString} {p : Pending}
    (h : throwAgain selfTrace stage e stack = .pending stage' p) : stage = stage' := by
  unfold throwAgain at h
  split at h
  · cases h
  · injection h

/-- An exception that is made from another value does not carry this one. -/
theorem not_carries_of_stage {stage stage' : Stage} {v : Thrown} {o : Outcome}
    (h : ∀ s p, o = .pending s p → s = stage') (hne : stage ≠ stage') : ¬ Carries stage v o :=
  not_carries_of_ne fun p ho => hne (h stage p ho)

/-! ## QuickJS -/

namespace QuickJS

theorem rethrow_stage {selfTrace : StackTrace} {stage stage' : Stage} {v : Thrown} {p : Pending}
    (h : rethrowQuickJSErrorToJava selfTrace stage v = .pending stage' p) : stage = stage' := by
  unfold rethrowQuickJSErrorToJava at h
  split at h
  · split at h
    · exact throwAgain_stage h
    · cases h
    · cases h
    · split at h
      · exact throwNew_stage h
      · cases h
  · split at h
    · exact throwNew_stage h
    · cases h

/-- `toObjectCheckQuickJSError` (lines 526–532); the value itself is not modelled. -/
def toObjectCheckQuickJSError (selfTrace : StackTrace) (stage : Stage) (raised : Option Thrown) :
    Outcome :=
  match raised with
  | some v => rethrowQuickJSErrorToJava selfTrace stage v
  | none => .returned

/-- `checkQuickJSErrorAndThrow` (lines 765–773). The exception that is retrieved is the
    thrown value, never the mark for an exception, so the assertion of a build without
    `NDEBUG` fails. -/
def checkQuickJSErrorAndThrow (assertions : Bool) (selfTrace : StackTrace)
    (raised : Option Thrown) : Outcome :=
  match raised with
  | some v => if assertions then .assertionFailed else rethrowQuickJSErrorToJava selfTrace .access v
  | none => .returned

/-- `callInternal` (lines 593–602). `callArgs` rethrows the mark of a failed argument in
    place of the exception, which has no text. A lookup that has raised leaves the mark
    as the function, and the call of it raises the error `notAFunction`. -/
def callInternal (selfTrace : StackTrace) (notAFunction : Thrown) (s : Script Thrown) : Outcome :=
  match s.argument with
  | some _ => .undefined
  | none =>
    match s.access with
    | some _ => rethrowQuickJSErrorToJava selfTrace .notAFunction notAFunction
    | none => toObjectCheckQuickJSError selfTrace .call s.call

/-- `getKeyString` (lines 639–641). -/
def getKeyString (selfTrace : StackTrace) (s : Script Thrown) : Outcome :=
  toObjectCheckQuickJSError selfTrace .access s.access

/-- `getKeyInteger` (lines 643–645). -/
def getKeyInteger (selfTrace : StackTrace) (s : Script Thrown) : Outcome :=
  toObjectCheckQuickJSError selfTrace .access s.access

/-- `getKeyObject` (lines 647–654). A key that raises is the null atom, which is read. -/
def getKeyObject (selfTrace : StackTrace) (s : Script Thrown) : Outcome :=
  toObjectCheckQuickJSError selfTrace .access s.access

/-- `setKeyString` (lines 656–660). A value that raises is set as the mark of it. -/
def setKeyString (assertions : Bool) (selfTrace : StackTrace) (s : Script Thrown) : Outcome :=
  checkQuickJSErrorAndThrow assertions selfTrace s.access

/-- `setKeyInteger` (lines 662–666). -/
def setKeyInteger (assertions : Bool) (selfTrace : StackTrace) (s : Script Thrown) : Outcome :=
  checkQuickJSErrorAndThrow assertions selfTrace s.access

/-- `setKeyObject`, by `setKeyInternal` (lines 668–677). -/
def setKeyObject (assertions : Bool) (selfTrace : StackTrace) (s : Script Thrown) : Outcome :=
  checkQuickJSErrorAndThrow assertions selfTrace s.access

/-- `callProperty` (lines 623–631). -/
def callProperty (selfTrace : StackTrace) (notAFunction : Thrown) (s : Script Thrown) : Outcome :=
  callInternal selfTrace notAFunction s

/-- The entry points. -/
def run (assertions : Bool) (selfTrace : StackTrace) (notAFunction : Thrown) (op : Operation)
    (s : Script Thrown) : Outcome :=
  match op with
  | .getKeyString => getKeyString selfTrace s
  | .getKeyInteger => getKeyInteger selfTrace s
  | .getKeyObject => getKeyObject selfTrace s
  | .setKeyString => setKeyString assertions selfTrace s
  | .setKeyInteger => setKeyInteger assertions selfTrace s
  | .setKeyObject => setKeyObject assertions selfTrace s
  | .callProperty => callProperty selfTrace notAFunction s

/-- What is raised in one part. -/
def part (stage : Stage) (raised : Option Thrown) : List (Stage × Exceptions.Thrown) :=
  raised.toList.map fun v => (stage, v.toThrown)

/-- The values that are raised in an operation, before the call. No part ends it. -/
def raised (op : Operation) (s : Script Thrown) : List (Stage × Exceptions.Thrown) :=
  match op with
  | .getKeyString | .getKeyInteger => part .access s.access
  | .getKeyObject => part .key s.key ++ part .access s.access
  | .setKeyString | .setKeyInteger => part .argument s.argument ++ part .access s.access
  | .setKeyObject => part .argument s.argument ++ (part .key s.key ++ part .access s.access)
  | .callProperty => part .key s.key ++ (part .access s.access ++ part .argument s.argument)

/-- Nothing is raised but at the property; what is raised there can be told in Java, no
    assertion is in the way of `set`, and nothing is where a function is looked up. -/
def Clean (assertions : Bool) (selfTrace : StackTrace) (op : Operation) (s : Script Thrown) :
    Prop :=
  match op with
  | .getKeyString | .getKeyInteger => ∀ v, s.access = some v → Readable selfTrace v
  | .getKeyObject => s.key = none ∧ ∀ v, s.access = some v → Readable selfTrace v
  | .setKeyString | .setKeyInteger =>
    s.argument = none ∧ ∀ v, s.access = some v → assertions = false ∧ Readable selfTrace v
  | .setKeyObject =>
    s.argument = none ∧ s.key = none ∧
      ∀ v, s.access = some v → assertions = false ∧ Readable selfTrace v
  | .callProperty => s.key = none ∧ s.access = none ∧ s.argument = none

theorem surfaces_part (stage : Stage) (raised : Option Thrown) (o : Outcome) :
    Surfaces (part stage raised) o ↔ ∀ v, raised = some v → Carries stage v.toThrown o := by
  cases raised <;> simp [Surfaces, part]

/-- What is raised in a part is lost where the pending exception is from another one. -/
theorem surfaces_part_of_stage {stage stage' : Stage} {raised : Option Thrown} {o : Outcome}
    (h : ∀ s p, o = .pending s p → s = stage') (hne : stage ≠ stage') :
    Surfaces (part stage raised) o ↔ raised = none := by
  rw [surfaces_part]
  cases raised with
  | none => simp
  | some v => simpa using not_carries_of_stage h hne

theorem toObjectCheck_stage {selfTrace : StackTrace} {stage : Stage} {raised : Option Thrown}
    (s : Stage) (p : Pending)
    (h : toObjectCheckQuickJSError selfTrace stage raised = .pending s p) : s = stage := by
  cases raised with
  | none => cases h
  | some v => exact (rethrow_stage h).symm

theorem check_stage {assertions : Bool} {selfTrace : StackTrace} {raised : Option Thrown}
    (s : Stage) (p : Pending)
    (h : checkQuickJSErrorAndThrow assertions selfTrace raised = .pending s p) :
    s = .access := by
  cases raised with
  | none => cases h
  | some v =>
    cases assertions with
    | true => cases h
    | false => exact (rethrow_stage h).symm

theorem surfaces_toObjectCheck (selfTrace : StackTrace) (stage : Stage) (raised : Option Thrown) :
    Surfaces (part stage raised) (toObjectCheckQuickJSError selfTrace stage raised) ↔
      ∀ v, raised = some v → Readable selfTrace v := by
  rw [surfaces_part]
  cases raised with
  | none => simp
  | some v => simpa [toObjectCheckQuickJSError] using carries_iff selfTrace stage v

theorem surfaces_check (assertions : Bool) (selfTrace : StackTrace) (raised : Option Thrown) :
    Surfaces (part .access raised) (checkQuickJSErrorAndThrow assertions selfTrace raised) ↔
      ∀ v, raised = some v → assertions = false ∧ Readable selfTrace v := by
  rw [surfaces_part]
  cases raised with
  | none => simp
  | some v =>
    cases assertions with
    | true =>
      have hlost : ¬ Carries .access v.toThrown .assertionFailed :=
        not_carries_of_ne fun p ho => (nomatch ho)
      exact iff_of_false (fun h => hlost (h v rfl)) fun h => absurd (h v rfl).1 (by decide)
    | false => simpa [checkQuickJSErrorAndThrow] using carries_iff selfTrace .access v

/-- A function whose lookup has raised is called all the same. -/
theorem surfaces_callInternal (selfTrace : StackTrace) (notAFunction : Thrown)
    (s : Script Thrown) :
    Surfaces (part .key s.key ++ (part .access s.access ++ part .argument s.argument))
        (callInternal selfTrace notAFunction s) ↔
      s.key = none ∧ s.access = none ∧ s.argument = none := by
  have hstage : ∀ stage p, callInternal selfTrace notAFunction s = .pending stage p →
      stage = .notAFunction ∨ stage = .call := by
    intro stage p h
    unfold callInternal at h
    split at h
    · cases h
    · split at h
      · exact Or.inl (rethrow_stage h).symm
      · exact Or.inr (toObjectCheck_stage stage p h)
  have hlost : ∀ stage raised, stage ≠ .notAFunction → stage ≠ .call →
      (Surfaces (part stage raised) (callInternal selfTrace notAFunction s) ↔ raised = none) := by
    intro stage raised hne hne'
    rw [surfaces_part]
    cases raised with
    | none => simp
    | some v =>
      have hnot : ¬ Carries stage v.toThrown (callInternal selfTrace notAFunction s) :=
        not_carries_of_ne fun p h => (hstage stage p h).elim hne hne'
      simpa using hnot
  rw [surfaces_append, surfaces_append, hlost .key s.key (by decide) (by decide),
    hlost .access s.access (by decide) (by decide),
    hlost .argument s.argument (by decide) (by decide)]

theorem surfaces_iff (assertions : Bool) (selfTrace : StackTrace) (notAFunction : Thrown)
    (op : Operation) (s : Script Thrown) :
    Surfaces (raised op s) (run assertions selfTrace notAFunction op s) ↔
      Clean assertions selfTrace op s := by
  cases op with
  | getKeyString => exact surfaces_toObjectCheck selfTrace .access s.access
  | getKeyInteger => exact surfaces_toObjectCheck selfTrace .access s.access
  | getKeyObject =>
    exact (surfaces_append _ _ _).trans (and_congr
      (surfaces_part_of_stage toObjectCheck_stage (by decide))
      (surfaces_toObjectCheck selfTrace .access s.access))
  | setKeyString =>
    exact (surfaces_append _ _ _).trans (and_congr
      (surfaces_part_of_stage check_stage (by decide))
      (surfaces_check assertions selfTrace s.access))
  | setKeyInteger =>
    exact (surfaces_append _ _ _).trans (and_congr
      (surfaces_part_of_stage check_stage (by decide))
      (surfaces_check assertions selfTrace s.access))
  | setKeyObject =>
    refine (surfaces_append _ _ _).trans (and_congr
      (surfaces_part_of_stage check_stage (by decide)) ?_)
    exact (surfaces_append _ _ _).trans (and_congr
      (surfaces_part_of_stage check_stage (by decide))
      (surfaces_check assertions selfTrace s.access))
  | callProperty => exact surfaces_callInternal selfTrace notAFunction s

end QuickJS

/-! ## Duktape -/

namespace Duktape

/-- A raise that ends the entry point if there is one. -/
def unprotected (nested : Bool) (raised : List (Option Thrown)) : Outcome :=
  if raised.all Option.isNone then .returned else jump nested

/-- `getKeyString` (lines 845–853). -/
def getKeyString (nested : Bool) (s : Script Thrown) : Outcome := unprotected nested [s.access]

/-- `getKeyInteger` (lines 823–830). -/
def getKeyInteger (nested : Bool) (s : Script Thrown) : Outcome := unprotected nested [s.access]

/-- `getKeyObject` (lines 832–843). -/
def getKeyObject (nested : Bool) (s : Script Thrown) : Outcome :=
  unprotected nested [s.key, s.access]

/-- `setKeyString` (lines 922–934). -/
def setKeyString (nested : Bool) (s : Script Thrown) : Outcome :=
  unprotected nested [s.argument, s.access]

/-- `setKeyInteger` (lines 936–947). -/
def setKeyInteger (nested : Bool) (s : Script Thrown) : Outcome :=
  unprotected nested [s.argument, s.access]

/-- `setKeyObject` (lines 949–964). -/
def setKeyObject (nested : Bool) (s : Script Thrown) : Outcome :=
  unprotected nested [s.argument, s.key, s.access]

/-- `callProperty` (lines 788–815): the arguments are pushed without protection, the key
    is converted, the function looked up and called under `duk_pcall_prop`. -/
def callProperty (nested : Bool) (selfTrace : StackTrace) (s : Script Thrown) : Outcome :=
  match s.argument with
  | some _ => jump nested
  | none =>
    match s.key with
    | some v => queueJavaExceptionForDuktapeError nested selfTrace .key v
    | none =>
      match s.access with
      | some v => queueJavaExceptionForDuktapeError nested selfTrace .access v
      | none =>
        match s.call with
        | some v => queueJavaExceptionForDuktapeError nested selfTrace .call v
        | none => .returned

/-- The entry points. -/
def run (nested : Bool) (selfTrace : StackTrace) (op : Operation) (s : Script Thrown) : Outcome :=
  match op with
  | .getKeyString => getKeyString nested s
  | .getKeyInteger => getKeyInteger nested s
  | .getKeyObject => getKeyObject nested s
  | .setKeyString => setKeyString nested s
  | .setKeyInteger => setKeyInteger nested s
  | .setKeyObject => setKeyObject nested s
  | .callProperty => callProperty nested selfTrace s

/-- The value that is raised before the call: what is raised in a part ends the
    operation. -/
def raised (op : Operation) (s : Script Thrown) : Option (Stage × Thrown) :=
  let argument := s.argument.map (Stage.argument, ·)
  let key := s.key.map (Stage.key, ·)
  let access := s.access.map (Stage.access, ·)
  match op with
  | .getKeyString | .getKeyInteger => access
  | .getKeyObject => key.or access
  | .setKeyString | .setKeyInteger => argument.or access
  | .setKeyObject => argument.or (key.or access)
  | .callProperty => argument.or (key.or access)

/-- Nothing is raised, but in the lookup of a function a value that can be told. -/
def Clean (selfTrace : StackTrace) (op : Operation) (s : Script Thrown) : Prop :=
  match op with
  | .getKeyString | .getKeyInteger => s.access = none
  | .getKeyObject => s.key = none ∧ s.access = none
  | .setKeyString | .setKeyInteger => s.argument = none ∧ s.access = none
  | .setKeyObject => s.argument = none ∧ s.key = none ∧ s.access = none
  | .callProperty => s.argument = none ∧ ∀ v, s.key.or s.access = some v → Readable selfTrace v

/-- The raised value, as the common record. -/
def surfacing (r : Option (Stage × Thrown)) : List (Stage × Exceptions.Thrown) :=
  r.toList.map fun r => (r.1, r.2.toThrown)

theorem surfaces_none (o : Outcome) : Surfaces (surfacing none) o := by
  simp [Surfaces, surfacing]

theorem surfaces_some (stage : Stage) (v : Thrown) (o : Outcome) :
    Surfaces (surfacing (some (stage, v))) o ↔ Carries stage v.toThrown o := by
  simp [Surfaces, surfacing]

theorem not_surfaces_jump (nested : Bool) (stage : Stage) (v : Thrown) :
    ¬ Surfaces (surfacing (some (stage, v))) (jump nested) := by
  rw [surfaces_some]
  exact not_carries_of_ne (jump_ne nested stage)

/-- A value that is raised without protection does not surface. -/
theorem surfaces_unprotected (nested : Bool) {r : Option (Stage × Thrown)}
    {raised : List (Option Thrown)} (h : r = none ↔ ∀ o ∈ raised, o = none) :
    Surfaces (surfacing r) (unprotected nested raised) ↔ ∀ o ∈ raised, o = none := by
  have hall : raised.all Option.isNone = true ↔ ∀ o ∈ raised, o = none := by
    simp [List.all_eq_true]
  cases r with
  | none => exact iff_of_true (surfaces_none _) (h.mp rfl)
  | some r =>
    have hraised : ¬ ∀ o ∈ raised, o = none := fun hnone => (nomatch h.mpr hnone)
    have hjump : unprotected nested raised = jump nested := if_neg fun ht => hraised (hall.mp ht)
    rw [hjump]
    exact iff_of_false (not_surfaces_jump nested r.1 r.2) hraised

theorem surfaces_queue (nested : Bool) (selfTrace : StackTrace) (stage : Stage) (v : Thrown) :
    Surfaces (surfacing (some (stage, v)))
        (queueJavaExceptionForDuktapeError nested selfTrace stage v) ↔ Readable selfTrace v := by
  rw [surfaces_some, carries_iff]

theorem surfaces_callProperty (nested : Bool) (selfTrace : StackTrace) (s : Script Thrown) :
    Surfaces (surfacing (raised .callProperty s)) (callProperty nested selfTrace s) ↔
      Clean selfTrace .callProperty s := by
  obtain ⟨key, argument, access, call⟩ := s
  cases argument with
  | some v =>
    exact iff_of_false (not_surfaces_jump nested .argument v) fun h => (nomatch h.1)
  | none =>
    cases key with
    | some v =>
      refine (surfaces_queue nested selfTrace .key v).trans ?_
      simp [Clean]
    | none =>
      cases access with
      | some v =>
        refine (surfaces_queue nested selfTrace .access v).trans ?_
        simp [Clean]
      | none =>
        refine iff_of_true (surfaces_none _) ?_
        simp [Clean]

theorem surfaces_iff (nested : Bool) (selfTrace : StackTrace) (op : Operation)
    (s : Script Thrown) :
    Surfaces (surfacing (raised op s)) (run nested selfTrace op s) ↔ Clean selfTrace op s := by
  cases op with
  | callProperty => exact surfaces_callProperty nested selfTrace s
  | getKeyString | getKeyInteger =>
    refine (surfaces_unprotected nested ?_).trans ?_ <;> simp [raised, Clean]
  | getKeyObject =>
    refine (surfaces_unprotected nested ?_).trans ?_ <;> simp [raised, Clean]
  | setKeyString | setKeyInteger =>
    refine (surfaces_unprotected nested ?_).trans ?_ <;> simp [raised, Clean]
  | setKeyObject =>
    refine (surfaces_unprotected nested ?_).trans ?_ <;> simp [raised, Clean]

end Duktape

/-! ## Both engines -/

/-- An error of QuickJS. -/
def errorOf (text : String) : QuickJS.Thrown where
  text := .text (jstr text)
  embedded := .absent
  isError := true
  stack := .value false (.text (jstr "    at get (t.js)\n"))

/-- The same error in Duktape. -/
def duktapeErrorOf (text : String) : Duktape.Thrown where
  text := .text (jstr text)
  embedded := .absent
  isError := true
  stack := .text (jstr text ++ jstr "\n    at get (t.js:1)")
  safeText := jstr text
  safe t h := by injection h

end JSEngine.Exceptions
