import JSEngine.QuickJS.Leaks

/-!
# The ownership ledger of `QuickJSContext`

An operation is an entry point or a trap with what it meets. It is performed by
running it and taking what it hands on. For an entry point values, atoms and
buffers count, for a trap local references too: those of an entry point are
freed when it returns to Java.

* `clean_iff`: an operation leaks nothing that counts exactly where it is
  `Clean`.
* `ledger_kept_iff`: however often it is performed, nothing is released that is
  not owned; and one that returns releases or hands on all that counts, then and
  each time again, exactly where it is `Clean`.
* `exception_leaks`: a trap that ends with a Java exception leaks at least two
  local references each time.
-/

namespace JSEngine.QuickJS.Ownership

open JSEngine.Common JSEngine.Common.Own

/-! ## Operations -/

/-- The operations. `atom` says whether the atom of a key is counted. -/
inductive Operation
  | evaluate (r : Result)
  | evaluateModule (compiles : Bool) (r : Result)
  | compile (r : Result)
  | getGlobalObject (global : ScriptView)
  | call (args : List JavaView) (r : Result)
  | callConstructor (args : List JavaView) (r : Result)
  | callMethod (object : JavaView) (args : List JavaView) (r : Result)
  | callProperty (property : JavaView) (atom func : Bool) (args : List JavaView) (r : Result)
  | getKeyString (r : Result)
  | getKeyInteger (r : Result)
  | getKeyObject (key : JavaView) (atom : Bool) (r : Result)
  | setKeyString (value : JavaView) (outcome : Option (Bool × ErrorView))
  | setKeyInteger (value : JavaView) (outcome : Option (Bool × ErrorView))
  | setKeyObject (key value : JavaView) (atom : Bool) (outcome : Option (Bool × ErrorView))
  | stringify (text : JSONText)
  | has (key : Key) (thrown : Option JavaThrown)
  | get (key : Key) (thrown : Option JavaThrown) (result : JavaView)
  | set (key : Key) (value : ScriptView) (thrown : Option JavaThrown)
  | apply (this_val : ScriptView) (argv : List ScriptView) (thrown : Option JavaThrown)
      (result : JavaView)
  | construct (func_obj : ScriptView) (argv : List ScriptView) (thrown : Option JavaThrown)
      (result : Bool)

/-- An entry point hands its local reference on to Java. -/
def returned (m : Q jobject) : Q Handed := do
  let n ← m
  return .reference n

/-- A function whose result is a number. -/
def status (m : Q Unit) : Q Handed := do
  m
  return .value none

namespace Operation

/-- The function behind the operation. -/
def run : Operation → Q Handed
  | evaluate r => returned (Ownership.evaluate r)
  | evaluateModule compiles r => returned (Ownership.evaluateModule compiles r)
  | compile r => returned (Ownership.compile r)
  | getGlobalObject global => returned (Ownership.getGlobalObject global)
  | call args r => returned (Ownership.call args r)
  | callConstructor args r => returned (Ownership.callConstructor args r)
  | callMethod object args r => returned (Ownership.callMethod object args r)
  | callProperty property atom func args r =>
    returned (Ownership.callProperty property atom func args r)
  | getKeyString r => returned (getKey r)
  | getKeyInteger r => returned (getKey r)
  | getKeyObject key atom r => returned (Ownership.getKeyObject key atom r)
  | setKeyString value outcome => status (setKey value outcome)
  | setKeyInteger value outcome => status (setKey value outcome)
  | setKeyObject key value atom outcome => status (Ownership.setKeyObject key value atom outcome)
  | stringify text => returned (Ownership.stringify text)
  | has key thrown => status (quickjs_has key thrown)
  | get key thrown result => quickjs_get key thrown result
  | set key value thrown => status (quickjs_set key value thrown)
  | apply this_val argv thrown result => quickjs_apply this_val argv thrown result
  | construct func_obj argv thrown result => quickjs_construct func_obj argv thrown result

/-- The proxy traps. -/
def isTrap : Operation → Bool
  | has .. | get .. | set .. | apply .. | construct .. => true
  | _ => false

/-- The resources that count for the operation. -/
def Counts (op : Operation) (k : Resource) : Prop := k = .local → op.isTrap

/-- Run the operation and take what it hands on. -/
def perform (op : Operation) : Q Unit := do
  let h ← op.run
  match h with
  | .value v => free .value v
  | .reference n => free .local n

end Operation

/-! ## Clean operations -/

/-- The array branches make a second object for Java. -/
def Prototype.IsArray : Prototype → Prop
  | .other _ => False
  | _ => True

/-- Reading the value leaves a value behind: a pending error that nobody frees, or
    the answer of a trap of the script for the hidden key. -/
def ScriptView.LeavesValue : ScriptView → Prop
  | .exception thrown => thrown
  | .object (.absent _ (.forged counted _)) => counted
  | _ => False

/-- Reading the value leaves a local reference behind: that of a Java object, or
    the `JavaScriptObject` of an array. -/
def ScriptView.LeavesLocal : ScriptView → Prop
  | .object (.absent _ .javaObject) => True
  | .object (.absent _ (.absent prototype)) => prototype.IsArray
  | .object (.collected prototype) | .object (.untracked prototype) => prototype.IsArray
  | _ => False

/-- Making a value for script leaves a local reference behind: the second class
    reference, the text of a JSON object, or the new `JavaObject`. -/
def JavaView.LeavesLocal : JavaView → Prop
  | .mappedBuffer _ | .json _ | .other => True
  | _ => False

/-- The error carries a Java exception, and reading it leaves a value behind. -/
def ErrorView.LeavesValue : ErrorView → Prop
  | .java exception _ => exception.LeavesValue
  | _ => False

/-- Reading the result, or the pending error, leaves a value behind. -/
def Result.LeavesValue (r : Result) : Prop :=
  match r.value with
  | .exception _ => r.error.LeavesValue
  | value => value.LeavesValue

/-- The value is read without leaving anything behind. -/
def ScriptView.Kept (v : ScriptView) : Prop := ¬ v.LeavesValue ∧ ¬ v.LeavesLocal

/-- A hidden key, or `P` of the key that is marshalled. -/
def Key.Marshalled (key : Key) (P : ScriptView → Prop) : Prop := ∀ v, key = .other v → P v

/-- The path of the operation releases or hands on everything that counts. -/
def Operation.Clean : Operation → Prop
  | .evaluate _ | .evaluateModule .. => False
  | .compile r | .getKeyString r | .getKeyInteger r | .getKeyObject _ _ r => ¬ r.LeavesValue
  | .call _ r | .callConstructor _ r | .callMethod _ _ r => ¬ r.LeavesValue
  | .callProperty _ _ _ _ r => ¬ r.LeavesValue
  | .getGlobalObject global => ¬ global.LeavesValue
  | .setKeyString _ outcome | .setKeyInteger _ outcome => ∀ e ∈ outcome, ¬ e.2.LeavesValue
  | .setKeyObject _ _ atom outcome => atom = false ∧ ∀ e ∈ outcome, ¬ e.2.LeavesValue
  | .stringify text => text ≠ .string
  | .has key thrown => key.Marshalled fun v => v.Kept ∧ thrown = none
  | .get key thrown result =>
    key.Marshalled fun v => v.Kept ∧ thrown = none ∧ ¬ result.LeavesLocal
  | .set key value thrown => key.Marshalled fun v => v.Kept ∧ value.Kept ∧ thrown = none
  | .apply this_val argv thrown result =>
    (∀ v ∈ argv, v.Kept) ∧ this_val.Kept ∧ thrown = none ∧ ¬ result.LeavesLocal
  | .construct func_obj argv thrown _ =>
    (∀ v ∈ argv, v.Kept) ∧ func_obj.Kept ∧ thrown = none

/-! ## What operations leak -/

/-- What the function behind the operation leaks. -/
def Operation.leaks : Operation → Multiset Resource
  | .evaluate r => r.leaks + {.buffer}
  | .evaluateModule compiles r =>
    r.leaks + (if compiles ∧ r.value.counted then {.value} else 0) + {.buffer}
  | .compile r | .getKeyString r | .getKeyInteger r => r.leaks
  | .getGlobalObject global => global.leaks
  | .call args r | .callConstructor args r => argsLeaks args + r.leaks
  | .callMethod object args r => object.leaks + (argsLeaks args + r.leaks)
  | .callProperty property _ _ args r => property.leaks + (argsLeaks args + r.leaks)
  | .getKeyObject key _ r => key.leaks + r.leaks
  | .setKeyString value outcome | .setKeyInteger value outcome =>
    value.leaks + outcomeLeaks outcome
  | .setKeyObject key value atom outcome =>
    value.leaks + (key.leaks + (outcomeLeaks outcome + if atom then {.atom} else 0))
  | .stringify text => if text = .string then {.value} else 0
  | .has key thrown => key.leaks (endLeaks thrown 0)
  | .get key thrown result => key.leaks (endLeaks thrown result.leaks)
  | .set key value thrown => key.leaks (value.leaks + endLeaks thrown 0)
  | .apply this_val argv thrown result =>
    argvLeaks argv + (this_val.leaks + endLeaks thrown result.leaks)
  | .construct func_obj argv thrown _ => argvLeaks argv + (func_obj.leaks + endLeaks thrown 0)

theorem spec_returned {m : Q jobject} {d : Multiset Resource} (h : Spec 0 m ownLocal d) :
    Spec 0 (returned m) Handed.own d :=
  (h.bind fun n => Spec.pure Handed.own (.reference n)).of_eq (add_zero d)

theorem spec_status {m : Q Unit} {d : Multiset Resource} (h : Spec 0 m (fun _ => 0) d) :
    Spec 0 (status m) Handed.own d :=
  (h.bind fun _ => Spec.pure Handed.own (.value none)).of_eq (add_zero d)

/-- One specification for each operation. -/
theorem spec_run (op : Operation) : Spec 0 op.run Handed.own op.leaks := by
  have hread (r : Result) : Spec 0 (JSValueHolder (newValue r.value.counted) fun _ =>
      toObjectCheckQuickJSError r) ownLocal r.leaks :=
    Spec.hold_fresh fun _ => spec_toObjectCheckQuickJSError r
  match op with
  | .evaluate r => exact spec_returned (spec_evaluate r)
  | .evaluateModule compiles r => exact spec_returned (spec_evaluateModule compiles r)
  | .compile r => exact spec_returned (hread r)
  | .getGlobalObject global =>
    exact spec_returned (Spec.hold_fresh fun _ => spec_toObject_JSValue global)
  | .call args r =>
    exact spec_returned (Spec.hold_fresh fun _ =>
      spec_toValueAsLocal fun _ => spec_callInternal args r)
  | .callConstructor args r =>
    exact spec_returned (spec_toValueAsLocal fun _ => spec_callInternal args r)
  | .callMethod object args r =>
    exact spec_returned ((spec_toObject_jobject object).hold fun _ =>
      spec_toValueAsLocal fun _ => spec_callInternal args r)
  | .callProperty property atom func args r =>
    exact spec_returned (spec_callProperty property atom func args r)
  | .getKeyString r | .getKeyInteger r =>
    exact spec_returned (spec_toValueAsLocal fun _ => hread r)
  | .getKeyObject key atom r => exact spec_returned (spec_getKeyObject key atom r)
  | .setKeyString value outcome | .setKeyInteger value outcome =>
    exact spec_status (spec_setKey value outcome)
  | .setKeyObject key value atom outcome =>
    exact spec_status (spec_setKeyObject key value atom outcome)
  | .stringify text => exact spec_returned (spec_stringify text)
  | .has key thrown => exact spec_status (spec_quickjs_has key thrown)
  | .get key thrown result => exact spec_quickjs_get key thrown result
  | .set key value thrown => exact spec_status (spec_quickjs_set key value thrown)
  | .apply this_val argv thrown result => exact spec_quickjs_apply this_val argv thrown result
  | .construct func_obj argv thrown result =>
    exact spec_quickjs_construct func_obj argv thrown result

theorem spec_perform (op : Operation) : Spec 0 op.perform (fun _ => 0) op.leaks := by
  refine ((spec_run op).bind fun h => ?_).of_eq (add_zero _)
  match h with
  | .value v => exact Spec.free _ v
  | .reference n => exact Spec.free _ n

/-! ## Which operations are clean -/

theorem Prototype.mem_leaks (p : Prototype) (k : Resource) :
    k ∈ p.leaks ↔ k = .local ∧ p.IsArray := by
  cases p <;> simp [Prototype.leaks, Prototype.IsArray]

/-- A value that is read leaks what it leaves behind. -/
theorem ScriptView.mem_leaks (v : ScriptView) (k : Resource) :
    k ∈ v.leaks ↔ k = .value ∧ v.LeavesValue ∨ k = .local ∧ v.LeavesLocal := by
  match v with
  | .nullish | .scalar _ | .string => simp [leaks, LeavesValue, LeavesLocal]
  | .exception thrown => cases thrown <;> simp [leaks, LeavesValue, LeavesLocal]
  | .object (.failed _) | .object (.noData _) | .object (.alive _) =>
    simp [leaks, Twin.leaks, LeavesValue, LeavesLocal]
  | .object (.collected p) | .object (.untracked p) =>
    simp [leaks, Twin.leaks, LeavesValue, LeavesLocal, p.mem_leaks]
  | .object (.absent _ (.absent p)) =>
    simp [leaks, Twin.leaks, Unboxed.leaks, LeavesValue, LeavesLocal, p.mem_leaks]
  | .object (.absent _ .javaObject) =>
    simp [leaks, Twin.leaks, Unboxed.leaks, LeavesValue, LeavesLocal]
  | .object (.absent _ (.forged counted _)) =>
    cases counted <;> simp [leaks, Twin.leaks, Unboxed.leaks, LeavesValue, LeavesLocal]

theorem ScriptView.leaks_eq_zero_iff (v : ScriptView) : v.leaks = 0 ↔ v.Kept := by
  rw [Multiset.eq_zero_iff_forall_notMem]
  simp only [v.mem_leaks, Kept]
  constructor
  · intro h
    exact ⟨fun hv => h .value (Or.inl ⟨rfl, hv⟩), fun hl => h .local (Or.inr ⟨rfl, hl⟩)⟩
  · rintro ⟨hv, hl⟩ k (⟨-, h⟩ | ⟨-, h⟩)
    · exact hv h
    · exact hl h

theorem JavaView.mem_leaks (v : JavaView) (k : Resource) :
    k ∈ v.leaks ↔ k = .local ∧ v.LeavesLocal := by
  cases v <;> simp [leaks, LeavesLocal]

theorem JavaView.leaks_eq_zero_iff (v : JavaView) : v.leaks = 0 ↔ ¬ v.LeavesLocal := by
  cases v <;> simp [leaks, LeavesLocal]

/-- Apart from local references an error leaks what its exception leaves behind. -/
theorem ErrorView.mem_leaks (e : ErrorView) {k : Resource} (hk : k ≠ .local) :
    k ∈ e.leaks ↔ k = .value ∧ e.LeavesValue := by
  match e with
  | .notError _ | .plain _ _ => simp [leaks, LeavesValue]
  | .java exception _ => simp [leaks, LeavesValue, exception.mem_leaks, hk]

theorem Result.mem_leaks (r : Result) {k : Resource} (hk : k ≠ .local) :
    k ∈ r.leaks ↔ k = .value ∧ r.LeavesValue := by
  obtain ⟨value, error⟩ := r
  match value with
  | .exception thrown => exact error.mem_leaks hk
  | .nullish => simp [leaks, LeavesValue, ScriptView.mem_leaks, hk]
  | .scalar _ => simp [leaks, LeavesValue, ScriptView.mem_leaks, hk]
  | .string => simp [leaks, LeavesValue, ScriptView.mem_leaks, hk]
  | .object twin => simp [leaks, LeavesValue, ScriptView.mem_leaks, hk]

theorem mem_argsLeaks {args : List JavaView} {k : Resource} (hk : k ≠ .local) :
    k ∉ argsLeaks args := by
  induction args with
  | nil => simp [argsLeaks]
  | cons arg args ih =>
    unfold argsLeaks at ih ⊢
    rw [List.map_cons, List.sum_cons, Multiset.mem_add, arg.mem_leaks]
    rintro (⟨h, -⟩ | h)
    · exact hk h
    · exact ih h

theorem mem_outcomeLeaks (outcome : Option (Bool × ErrorView)) {k : Resource} (hk : k ≠ .local) :
    k ∈ outcomeLeaks outcome ↔ k = .value ∧ ∃ e ∈ outcome, e.2.LeavesValue := by
  match outcome with
  | none => simp [outcomeLeaks]
  | some (thrown, error) => simp [outcomeLeaks, error.mem_leaks hk]

/-- A Java exception leaks: its own reference and that of the text of the stack. -/
theorem endLeaks_eq_zero_iff (thrown : Option JavaThrown) (d : Multiset Resource) :
    endLeaks thrown d = 0 ↔ thrown = none ∧ d = 0 := by
  match thrown with
  | none => simp [endLeaks]
  | some t => simp [endLeaks, JavaThrown.leaks]

theorem Key.leaks_eq_zero_iff (key : Key) (d : Multiset Resource) :
    key.leaks d = 0 ↔ key.Marshalled fun v => v.Kept ∧ d = 0 := by
  match key with
  | .customFinalizer | .javaObject => simp [Key.leaks, Key.Marshalled]
  | .other v => simp [Key.leaks, Key.Marshalled, v.leaks_eq_zero_iff]

theorem argvLeaks_eq_zero_iff (argv : List ScriptView) :
    argvLeaks argv = 0 ↔ ∀ v ∈ argv, v.Kept := by
  induction argv with
  | nil => simp [argvLeaks]
  | cons v argv ih =>
    have hcons : argvLeaks (v :: argv) = v.leaks + argvLeaks argv := by
      simp only [argvLeaks, List.map_cons, List.sum_cons]
    rw [hcons, add_eq_zero, v.leaks_eq_zero_iff, ih, List.forall_mem_cons]

/-- A trap leaks nothing exactly where it is clean. -/
theorem trap_clean_iff {op : Operation} (htrap : op.isTrap) : op.leaks = 0 ↔ op.Clean := by
  cases op with
  | has key thrown =>
    show key.leaks (endLeaks thrown 0) = 0 ↔ _
    rw [key.leaks_eq_zero_iff]
    simp only [endLeaks_eq_zero_iff, and_true, Operation.Clean]
  | get key thrown result =>
    show key.leaks (endLeaks thrown result.leaks) = 0 ↔ _
    rw [key.leaks_eq_zero_iff]
    simp only [endLeaks_eq_zero_iff, result.leaks_eq_zero_iff, Operation.Clean]
  | set key value thrown =>
    show key.leaks (value.leaks + endLeaks thrown 0) = 0 ↔ _
    rw [key.leaks_eq_zero_iff, add_eq_zero, value.leaks_eq_zero_iff]
    simp only [endLeaks_eq_zero_iff, and_true, Operation.Clean]
  | apply this_val argv thrown result =>
    show argvLeaks argv + (this_val.leaks + endLeaks thrown result.leaks) = 0 ↔ _
    rw [add_eq_zero, add_eq_zero, argvLeaks_eq_zero_iff, this_val.leaks_eq_zero_iff,
      endLeaks_eq_zero_iff, result.leaks_eq_zero_iff]
    rfl
  | construct func_obj argv thrown result =>
    show argvLeaks argv + (func_obj.leaks + endLeaks thrown 0) = 0 ↔ _
    rw [add_eq_zero, add_eq_zero, argvLeaks_eq_zero_iff, func_obj.leaks_eq_zero_iff,
      endLeaks_eq_zero_iff]
    simp only [and_true, Operation.Clean]
  | _ => exact absurd htrap Bool.false_ne_true

/-- Nothing but local references. -/
def OnlyLocals (d : Multiset Resource) : Prop := ∀ k, k ≠ .local → k ∉ d

theorem onlyLocals_add (d e : Multiset Resource) :
    OnlyLocals (d + e) ↔ OnlyLocals d ∧ OnlyLocals e := by
  simp only [OnlyLocals, Multiset.mem_add, not_or]
  constructor
  · intro h
    exact ⟨fun k hk => (h k hk).1, fun k hk => (h k hk).2⟩
  · rintro ⟨hd, he⟩ k hk
    exact ⟨hd k hk, he k hk⟩

/-- A set of leaks with at most a value in it. -/
theorem onlyLocals_of_mem {d : Multiset Resource} {P : Prop}
    (h : ∀ k, k ≠ .local → (k ∈ d ↔ k = .value ∧ P)) : OnlyLocals d ↔ ¬ P := by
  constructor
  · intro hd hP
    exact hd .value (by decide) ((h .value (by decide)).mpr ⟨rfl, hP⟩)
  · intro hP k hk hmem
    exact hP ((h k hk).mp hmem).2

theorem Result.onlyLocals_iff (r : Result) : OnlyLocals r.leaks ↔ ¬ r.LeavesValue :=
  onlyLocals_of_mem fun _ hk => r.mem_leaks hk

theorem ScriptView.onlyLocals_iff (v : ScriptView) : OnlyLocals v.leaks ↔ ¬ v.LeavesValue := by
  refine onlyLocals_of_mem fun k hk => ?_
  rw [v.mem_leaks]
  exact or_iff_left fun h => hk h.1

theorem JavaView.onlyLocals (v : JavaView) : OnlyLocals v.leaks := by
  intro k hk hmem
  exact hk ((v.mem_leaks k).mp hmem).1

theorem onlyLocals_argsLeaks (args : List JavaView) : OnlyLocals (argsLeaks args) :=
  fun _ hk => mem_argsLeaks hk

theorem onlyLocals_outcomeLeaks (outcome : Option (Bool × ErrorView)) :
    OnlyLocals (outcomeLeaks outcome) ↔ ∀ e ∈ outcome, ¬ e.2.LeavesValue := by
  rw [onlyLocals_of_mem fun _ hk => mem_outcomeLeaks outcome hk]
  push Not
  rfl

/-- The key is not one of the two that are hidden. -/
def Key.Visible (key : Key) : Prop := ∃ v, key = .other v

/-- The trap reaches the Java object, which throws. -/
def Operation.Throws : Operation → Prop
  | .has key thrown | .get key thrown _ | .set key _ thrown => key.Visible ∧ thrown.isSome
  | .apply _ _ thrown _ | .construct _ _ thrown _ => thrown.isSome
  | _ => False

theorem endLeaks_two_le {thrown : Option JavaThrown} (h : thrown.isSome) (d : Multiset Resource) :
    2 ≤ (endLeaks thrown d).count .local := by
  obtain ⟨t, rfl⟩ := Option.isSome_iff_exists.mp h
  have hpair : Multiset.count Resource.local {Resource.local, Resource.local} = 2 := by decide
  show 2 ≤ Multiset.count Resource.local ({Resource.local, Resource.local} + _)
  rw [Multiset.count_add, hpair]
  omega

theorem Key.Visible.le_leaks {key : Key} (h : key.Visible) (d : Multiset Resource) :
    d ≤ key.leaks d := by
  obtain ⟨v, rfl⟩ := h
  exact Multiset.le_add_left d v.leaks

theorem Operation.Throws.two_le {op : Operation} (h : op.Throws) : 2 ≤ op.leaks.count .local := by
  have hle {thrown : Option JavaThrown} {d e : Multiset Resource} (hthrown : thrown.isSome)
      (hd : endLeaks thrown d ≤ e) : 2 ≤ e.count .local :=
    (endLeaks_two_le hthrown d).trans (Multiset.count_le_of_le _ hd)
  cases op with
  | has key thrown => exact hle h.2 (h.1.le_leaks _)
  | get key thrown result => exact hle h.2 (h.1.le_leaks _)
  | set key value thrown =>
    exact hle h.2 ((Multiset.le_add_left _ value.leaks).trans (h.1.le_leaks _))
  | apply this_val argv thrown result =>
    exact hle h ((Multiset.le_add_left _ this_val.leaks).trans (Multiset.le_add_left _ _))
  | construct func_obj argv thrown result =>
    exact hle h ((Multiset.le_add_left _ func_obj.leaks).trans (Multiset.le_add_left _ _))
  | _ => exact absurd h id

/-- One resource that is no local reference is enough. -/
theorem onlyLocals_singleton {k : Resource} (hk : k ≠ .local) : ¬ OnlyLocals {k} :=
  fun h => h k hk (Multiset.mem_singleton_self k)

theorem onlyLocals_zero : OnlyLocals 0 := fun k _ => Multiset.notMem_zero k

/-- An entry point leaks nothing but local references exactly where it is clean. -/
theorem entry_clean_iff {op : Operation} (hentry : op.isTrap = false) :
    OnlyLocals op.leaks ↔ op.Clean := by
  have hargs (args : List JavaView) (r : Result) :
      OnlyLocals (argsLeaks args + r.leaks) ↔ ¬ r.LeavesValue := by
    rw [onlyLocals_add, and_iff_right (onlyLocals_argsLeaks args), r.onlyLocals_iff]
  have hset (value : JavaView) (outcome : Option (Bool × ErrorView)) :
      OnlyLocals (value.leaks + outcomeLeaks outcome) ↔ ∀ e ∈ outcome, ¬ e.2.LeavesValue := by
    rw [onlyLocals_add, and_iff_right value.onlyLocals, onlyLocals_outcomeLeaks]
  have hbuffer (d : Multiset Resource) : OnlyLocals (d + {.buffer}) ↔ False := by
    rw [onlyLocals_add, iff_false]
    exact fun h => onlyLocals_singleton (by decide) h.2
  cases op with
  | evaluate r => exact hbuffer r.leaks
  | evaluateModule compiles r => exact hbuffer _
  | compile r => exact r.onlyLocals_iff
  | getKeyString r => exact r.onlyLocals_iff
  | getKeyInteger r => exact r.onlyLocals_iff
  | getGlobalObject global => exact global.onlyLocals_iff
  | call args r => exact hargs args r
  | callConstructor args r => exact hargs args r
  | callMethod object args r =>
    show OnlyLocals (object.leaks + (argsLeaks args + r.leaks)) ↔ _
    rw [onlyLocals_add, and_iff_right object.onlyLocals]
    exact hargs args r
  | callProperty property atom func args r =>
    show OnlyLocals (property.leaks + (argsLeaks args + r.leaks)) ↔ _
    rw [onlyLocals_add, and_iff_right property.onlyLocals]
    exact hargs args r
  | getKeyObject key atom r =>
    show OnlyLocals (key.leaks + r.leaks) ↔ _
    rw [onlyLocals_add, and_iff_right key.onlyLocals]
    exact r.onlyLocals_iff
  | setKeyString value outcome => exact hset value outcome
  | setKeyInteger value outcome => exact hset value outcome
  | setKeyObject key value atom outcome =>
    show OnlyLocals (value.leaks + (key.leaks + (outcomeLeaks outcome + _))) ↔ _
    rw [onlyLocals_add, onlyLocals_add, onlyLocals_add, and_iff_right value.onlyLocals,
      and_iff_right key.onlyLocals, onlyLocals_outcomeLeaks, and_comm]
    refine and_congr_left fun _ => ?_
    -- the atom that nobody frees
    cases atom with
    | false => exact iff_of_true onlyLocals_zero rfl
    | true => exact iff_of_false (onlyLocals_singleton (by decide)) Bool.noConfusion
  | stringify text =>
    show OnlyLocals (if text = .string then {.value} else 0) ↔ text ≠ .string
    by_cases htext : text = .string
    · rw [if_pos htext]
      exact iff_of_false (onlyLocals_singleton (by decide)) (not_not_intro htext)
    · rw [if_neg htext]
      exact iff_of_true onlyLocals_zero htext
  | _ => exact absurd hentry.symm Bool.false_ne_true

/-- An operation leaks nothing that counts exactly where it is clean. -/
theorem clean_iff (op : Operation) : (∀ k, op.Counts k → k ∉ op.leaks) ↔ op.Clean := by
  cases htrap : op.isTrap with
  | true =>
    rw [← trap_clean_iff htrap, Multiset.eq_zero_iff_forall_notMem]
    exact forall_congr' fun k => forall_prop_of_true fun _ => htrap
  | false =>
    rw [← entry_clean_iff htrap]
    refine forall_congr' fun k => imp_congr_left ?_
    simp [Operation.Counts, htrap]

/-! ## The ledger -/

/-- Everything that counts and was owned is owned still, and nothing more. -/
def Operation.Keeps (op : Operation) (s s' : Owned Resource) : Prop :=
  ∀ k, op.Counts k → ∀ n, s'.resources.count (k, n) = s.resources.count (k, n)

/-- Performing the operation again and again leaves the counts as they are. -/
def Operation.Repeats (op : Operation) (s : Owned Resource) : Prop :=
  ∀ n s', (times n op.perform).run s = .ok ((), s') →
    ∀ k, op.Counts k → s'.count k = s.count k

theorem keeps_iff (op : Operation) {s s' : Owned Resource}
    (hrun : op.perform.run s = .ok ((), s')) : op.Keeps s s' ↔ op.Clean := by
  rw [← clean_iff]
  exact forall_congr' fun k => imp_congr_right fun _ => (spec_perform op).kept_iff hrun k

theorem clean_repeats {op : Operation} (hclean : op.Clean) (s : Owned Resource) :
    op.Repeats s := by
  intro n s' hrun k hk
  have hcount := ((spec_perform op).times n).count hrun k
  have hnone : op.leaks.count k = 0 :=
    Multiset.count_eq_zero.mpr ((clean_iff op).mpr hclean k hk)
  rw [hcount, Multiset.count_nsmul, hnone]
  omega

/-- Nothing is released that is not owned, however often an operation is performed;
    and one that returns keeps the ledger, then and each time again, exactly where
    it is clean. -/
theorem ledger_kept_iff (op : Operation) (s : Owned Resource) :
    (∀ n, (times n op.perform).run s ≠ .error .notOwned) ∧
      ∀ s', op.perform.run s = .ok ((), s') →
        (op.Keeps s s' ∧ op.Repeats s' ↔ op.Clean) := by
  refine ⟨fun n => ((spec_perform op).times n).safe s, fun s' hrun => ?_⟩
  constructor
  · intro h
    exact (keeps_iff op hrun).mp h.1
  · intro hclean
    exact ⟨(keeps_iff op hrun).mpr hclean, clean_repeats hclean s'⟩

/-- Reading a number under a string keeps the ledger: the twin that is read from
    and the reference that is returned are resources 0 and 1. -/
theorem ledger_kept_getKey :
    let op := Operation.getKeyString ⟨.scalar false, .notError .nullish⟩
    op.perform.run ⟨0, 0⟩ = .ok ((), ⟨2, 0⟩) ∧ op.Keeps ⟨0, 0⟩ ⟨2, 0⟩ ∧ op.Repeats ⟨2, 0⟩ := by
  refine ⟨rfl, ((ledger_kept_iff (.getKeyString ⟨.scalar false, .notError .nullish⟩) ⟨0, 0⟩).2
    ⟨2, 0⟩ rfl).mpr ?_⟩
  exact id

/-- `evaluate("1")` keeps the copy that `js_malloc` made of the script. -/
theorem evaluate_keeps_buffer :
    ¬ ∀ (op : Operation) (s s' : Owned Resource), op.perform.run s = .ok ((), s') →
      op.Keeps s s' ∧ op.Repeats s' := by
  intro h
  have hrun : (Operation.evaluate ⟨.scalar false, .notError .nullish⟩).perform.run ⟨0, 0⟩ =
      .ok ((), ⟨2, {(.buffer, 0)}⟩) := rfl
  have hkeeps := (h _ _ _ hrun).1 .buffer Resource.noConfusion 0
  exact absurd hkeeps (by decide)

/-- A trap that ends with a Java exception leaks the reference to it and that to
    the text of the stack each time. -/
theorem exception_leaks {op : Operation} {s s' : Owned Resource} (n : ℕ)
    (hthrows : op.Throws) (hrun : (times n op.perform).run s = .ok ((), s')) :
    s.count .local + 2 * n ≤ s'.count .local := by
  have hcount := ((spec_perform op).times n).count hrun .local
  have htwo := hthrows.two_le
  rw [Multiset.count_nsmul] at hcount
  have htimes := Nat.mul_le_mul_left n htwo
  omega

end JSEngine.QuickJS.Ownership
