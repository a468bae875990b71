import JSEngine.QuickJS.Ownership
import Mathlib.Tactic

/-!
# What `QuickJSContext` leaks

One specification for each function of `QuickJS.Ownership`: it releases only what
it owns, and what it leaks is a sum of `leaks` of what it meets. An operation is
`Clean` where its own path leaks nothing that counts for it: values, atoms and
buffers for an entry point, local references too for a trap.
-/

namespace JSEngine.QuickJS.Ownership

open JSEngine.Common JSEngine.Common.Own

/-! ## Leaks -/

def Prototype.leaks : Prototype → Multiset Resource
  | .other _ => 0
  | _ => {.local}

def Unboxed.leaks : Unboxed → Multiset Resource
  | .absent prototype => prototype.leaks
  | .javaObject => {.local}
  | .forged counted _ => if counted then {.value} else 0

def Twin.leaks : Twin → Multiset Resource
  | .absent _ unboxed => unboxed.leaks
  | .collected prototype | .untracked prototype => prototype.leaks
  | _ => 0

def ScriptView.leaks : ScriptView → Multiset Resource
  | .exception thrown => if thrown then {.value} else 0
  | .object twin => twin.leaks
  | _ => 0

def JavaView.leaks : JavaView → Multiset Resource
  | .mappedBuffer _ | .json _ | .other => {.local}
  | _ => 0

def ErrorView.leaks : ErrorView → Multiset Resource
  | .java exception _ => exception.leaks + {.local, .local}
  | _ => 0

def Result.leaks (r : Result) : Multiset Resource :=
  match r.value with
  | .exception _ => r.error.leaks
  | value => value.leaks

def JavaThrown.leaks (t : JavaThrown) : Multiset Resource :=
  {.local, .local} + (t.merged.leaks + t.exception.leaks)

/-! ## Specifications -/

/-- The number of the resources of a holder. -/
abbrev ownValue (v : JSValue) : Multiset (Resource × ℕ) := handle .value v

abbrev ownLocal (v : jobject) : Multiset (Resource × ℕ) := handle .local v

theorem spec_toValueAsLocal {α : Type} {own : α → Multiset (Resource × ℕ)} {d : Multiset Resource}
    {body : JSValue → Q α} (h : ∀ v, Spec 0 (body v) own d) : Spec 0 (toValueAsLocal body) own d :=
  Spec.hold_fresh h

theorem spec_unwrapTwin (found : Bool) : Spec 0 (unwrapTwin found) ownValue 0 := by
  cases found with
  | true => exact spec_toValueAsLocal fun _ => Spec.fresh _ _
  | false =>
    show Spec 0 newProxy ownValue 0
    exact Spec.fresh _ _

theorem spec_toObject_jobject (v : JavaView) : Spec 0 (toObject_jobject v) ownValue v.leaks := by
  have hnull : Spec 0 (return none : Q JSValue) ownValue 0 := Spec.pure ownValue none
  match v with
  | .null => exact hnull
  | .scalar => exact Spec.hold_fresh fun _ => hnull
  | .string made => exact Spec.hold_fresh fun _ => Spec.fresh _ _
  | .buffer made => exact Spec.hold_fresh fun _ => Spec.hold_fresh fun _ => Spec.fresh _ _
  | .mappedBuffer found =>
    refine Spec.hold_fresh fun _ => ?_
    have hassign : Spec 0 assignHolder (handle .local) 0 := Spec.hold_fresh fun _ => Spec.fresh _ _
    refine (hassign.hold fun _ => (Spec.acquire _).drop fun _ => spec_unwrapTwin found).of_eq ?_
    rfl
  | .json made =>
    exact Spec.hold_fresh fun _ => ((Spec.acquire _).drop fun _ => Spec.fresh _ _).of_eq rfl
  | .javaScriptObject found => exact Spec.hold_fresh fun _ => spec_unwrapTwin found
  | .quackObject => exact Spec.hold_fresh fun _ => Spec.fresh _ _
  | .other =>
    exact Spec.hold_fresh fun _ => ((Spec.acquire _).drop fun _ => Spec.fresh _ _).of_eq rfl

theorem spec_mapNative (prototype : Prototype) (javaThis : ℕ) :
    Spec {(.local, javaThis)} (mapNative prototype javaThis) (fun n => {(.local, n)})
      prototype.leaks := by
  -- the reference that is replaced by the byte buffer is dropped
  have hdropped {m : Q ℕ} (hm : Spec 0 m (fun n => {(.local, n)}) 0) :
      Spec {(Resource.local, javaThis)} m (fun n => {(.local, n)}) {Resource.local} := by
    have hframe := hm.frame {(Resource.local, javaThis)}
    exact ((hframe.congr (zero_add _) (fun _ => rfl) rfl).leak).of_eq (by simp)
  match prototype with
  | .other _ => exact Spec.pure (fun n => {(Resource.local, n)}) javaThis
  | .arrayBuffer => exact hdropped (Spec.acquire _)
  | .uint8Array buffer => exact hdropped (Spec.hold_fresh fun _ => Spec.acquire _)

/-- A value that an API takes over. -/
theorem spec_consume {α : Type} {own : α → Multiset (Resource × ℕ)} {d : Multiset Resource}
    {pre : Multiset (Resource × ℕ)} {m : Q α} (v : JSValue) (hm : Spec pre m own d) :
    Spec (ownValue v + pre) (do consume v; m) own d :=
  ((Spec.free _ v).bind_frame fun _ => hm.congr (zero_add _).symm (fun _ => rfl) rfl).of_eq
    (zero_add d)

/-- A value that is made and taken over at once. -/
theorem spec_consumed {α : Type} {own : α → Multiset (Resource × ℕ)} {d : Multiset Resource}
    {pre : Multiset (Resource × ℕ)} {counted : Bool} {m : Q α} (hm : Spec pre m own d) :
    Spec pre (do let copy ← newValue counted; consume copy; m) own d :=
  ((Spec.fresh _ counted).bind_frame fun copy => spec_consume copy hm).congr
    (zero_add _) (fun _ => rfl) (zero_add d)

theorem spec_stashTwin (twin : ℕ) :
    Spec {(.value, twin)} (stashTwin twin) (fun _ => 0) 0 :=
  spec_consumed (Spec.release _ _)

theorem spec_setTwinValue : Spec 0 setTwinValue (fun _ => 0) 0 := by
  have hfree (copy : JSValue) : Spec (ownValue copy) (consume copy) (fun _ => 0) 0 :=
    Spec.free _ copy
  exact ((Spec.fresh _ true).bind hfree).of_eq (zero_add 0)

theorem spec_newHolder (prototype : Prototype) :
    Spec 0 (newHolder prototype) ownLocal prototype.leaks := by
  -- the body of the holder, which is given the twin and the new object
  have hreturn (n : ℕ) : Spec {(Resource.local, n)} (return some n : Q jobject) ownLocal 0 :=
    Spec.pure ownLocal (some n)
  have hset (n : ℕ) : Spec {(Resource.local, n)} (do setTwinValue; return some n) ownLocal 0 :=
    (spec_setTwinValue.bind_frame fun _ =>
      (hreturn n).congr (zero_add _).symm (fun _ => rfl) rfl).congr
        (zero_add _) (fun _ => rfl) (zero_add 0)
  have hstash (twin n : ℕ) : Spec ({(Resource.value, twin)} + {(Resource.local, n)})
      (do stashTwin twin; setTwinValue; return some n) ownLocal 0 :=
    ((spec_stashTwin twin).bind_frame fun _ =>
      (hset n).congr (zero_add _).symm (fun _ => rfl) rfl).of_eq (zero_add 0)
  have hbody (twin javaThis : ℕ) : Spec ({(Resource.local, javaThis)} + {(Resource.value, twin)})
      (JSValueHolder (newValue prototype.counted) fun _ => do
        let javaThis ← mapNative prototype javaThis
        stashTwin twin
        setTwinValue
        return some javaThis) ownLocal prototype.leaks := by
    refine Spec.hold_fresh fun _ => ?_
    exact ((spec_mapNative prototype javaThis).bind_frame fun n =>
      (hstash twin n).congr (add_comm _ _) (fun _ => rfl) rfl).of_eq (add_zero _)
  refine ((Spec.acquire _).bind fun twin => ?_).of_eq (zero_add _)
  exact ((Spec.acquire _).bind_frame fun javaThis => hbody twin javaThis).congr
    (zero_add _) (fun _ => rfl) (zero_add _)

theorem spec_unbox (unboxed : Unboxed) : Spec 0 (unbox unboxed) ownLocal unboxed.leaks := by
  match unboxed with
  | .absent prototype => exact spec_newHolder prototype
  | .javaObject => exact ((Spec.acquire _).drop fun _ => Spec.fresh _ _).of_eq rfl
  | .forged counted zero =>
    refine (Spec.drop_fresh (e := 0) fun _ => ?_).of_eq (zero_add _)
    split_ifs
    · exact Spec.pure ownLocal none
    · exact Spec.crash

theorem spec_toObject_object (twin : Twin) :
    Spec 0 (toObject_object twin) ownLocal twin.leaks := by
  refine Spec.hold_fresh fun _ => ?_
  match twin with
  | .absent _ unboxed => exact spec_unbox unboxed
  | .failed _ => exact Spec.pure ownLocal none
  | .noData _ => exact Spec.crash
  | .alive isBuffer =>
    refine ((Spec.fresh _ true).bind fun localJavaThis => ?_).of_eq (zero_add 0)
    exact Spec.hold_fresh fun _ => Spec.pure ownLocal localJavaThis
  | .collected prototype | .untracked prototype => exact spec_newHolder prototype

theorem spec_toObject_JSValue (v : ScriptView) :
    Spec 0 (toObject_JSValue v) ownLocal v.leaks := by
  match v with
  | .nullish => exact Spec.pure ownLocal none
  | .scalar _ | .string => exact Spec.fresh _ _
  | .exception thrown =>
    have hnull : Spec 0 (return none : Q jobject) ownLocal 0 := Spec.pure ownLocal none
    exact (Spec.drop_fresh fun _ => hnull).of_eq (zero_add _)
  | .object twin => exact spec_toObject_object twin

/-! ## Errors -/

theorem spec_toStdString (text : Text) : Spec 0 (toStdString text) (fun _ => 0) 0 := by
  match text with
  | .nullish | .converts _ => exact Spec.pure (fun _ => 0) ()
  | .fails _ => exact Spec.crash

theorem spec_rethrowQuickJSErrorToJava (e : ErrorView) :
    Spec 0 (rethrowQuickJSErrorToJava e) (fun _ => 0) e.leaks := by
  match e with
  | .notError message => exact Spec.hold_fresh fun _ => spec_toStdString message
  | .plain message stack =>
    refine Spec.hold_fresh fun _ => Spec.hold_fresh fun _ => ?_
    exact ((spec_toStdString message).bind fun _ => spec_toStdString stack).of_eq (zero_add 0)
  | .java exception stack =>
    refine Spec.hold_fresh fun _ => Spec.hold_fresh fun _ => ?_
    have hthrow : Spec 0 (do
        let ex ← newLocal true
        let _text ← acquire .local
        free .local ex) (fun _ => 0) {Resource.local} :=
      ((Spec.fresh _ true).bind fun ex =>
        (Spec.acquire _).drop fun _ => Spec.free _ ex).of_eq (by simp)
    refine ((spec_toObject_JSValue exception).bind fun u => ?_)
    match u with
    | none => exact Spec.crash
    | some n => exact (hthrow.abandon {(Resource.local, n)}).congr (add_zero _) (fun _ => rfl) rfl

theorem spec_toObjectCheckQuickJSError (r : Result) :
    Spec 0 (toObjectCheckQuickJSError r) ownLocal r.leaks := by
  obtain ⟨value, error⟩ := r
  match value with
  | .exception thrown =>
    refine Spec.hold_fresh fun _ => ?_
    exact ((spec_rethrowQuickJSErrorToJava error).bind fun _ =>
      Spec.pure ownLocal none).of_eq (add_zero _)
  | .nullish => exact spec_toObject_JSValue .nullish
  | .scalar counted => exact spec_toObject_JSValue (.scalar counted)
  | .string => exact spec_toObject_JSValue .string
  | .object twin => exact spec_toObject_JSValue (.object twin)

/-- What a call that may have raised leaks. -/
def outcomeLeaks (outcome : Option (Bool × ErrorView)) : Multiset Resource :=
  match outcome with
  | none => 0
  | some (_, error) => error.leaks

theorem spec_checkQuickJSErrorAndThrow (outcome : Option (Bool × ErrorView)) :
    Spec 0 (checkQuickJSErrorAndThrow outcome) (fun _ => 0) (outcomeLeaks outcome) := by
  match outcome with
  | none => exact Spec.pure (fun _ => 0) ()
  | some (thrown, error) => exact Spec.hold_fresh fun _ => spec_rethrowQuickJSErrorToJava error

theorem spec_throwJavaException (t : JavaThrown) :
    Spec 0 (throwJavaException t) (fun _ => 0) t.leaks := by
  have hlast (error : JSValue) : Spec (ownValue error) (do
      let value ← toObject_jobject t.exception
      consume value
      consume error) (fun _ => 0) t.exception.leaks := by
    have herror : Spec (ownValue error) (consume error) (fun _ => 0) 0 := Spec.free _ error
    exact ((spec_toObject_jobject t.exception).bind_frame fun value =>
      spec_consume value herror).congr (zero_add _) (fun _ => rfl) (add_zero _)
  have hthrow (error newStackValue : JSValue) :
      Spec (ownValue newStackValue + ownValue error) (if t.message then do
        let newMessage ← newValue true
        consume newStackValue
        consume newMessage
        let value ← toObject_jobject t.exception
        consume value
        consume error
      else crash) (fun _ => 0) t.exception.leaks := by
    split_ifs
    · refine ((Spec.fresh _ true).bind_frame fun newMessage => ?_).congr
        (zero_add _) (fun _ => rfl) (zero_add _)
      have hmessage := spec_consume newMessage (hlast error)
      exact (spec_consume newStackValue hmessage).congr (by abel) (fun _ => rfl) rfl
    · exact Spec.crash
  refine ((Spec.acquire _).drop fun _ => Spec.hold_fresh fun _ =>
    (Spec.fresh _ t.error).bind fun error => Spec.hold_fresh fun _ =>
      ((spec_toStdString t.stack).bind_frame fun _ =>
        ((Spec.acquire _).drop fun _ => Spec.hold_fresh fun _ =>
          ((spec_toObject_jobject t.merged).bind_frame fun newStackValue =>
            hthrow error newStackValue).congr (zero_add _) (fun _ => rfl) rfl).congr
          (zero_add _).symm (fun _ => rfl) rfl).congr (zero_add _) (fun _ => rfl) rfl).of_eq ?_
  simp only [JavaThrown.leaks, Multiset.insert_eq_cons, ← Multiset.singleton_add]
  abel

/-! ## Entry points -/

/-- What a list of values owns. -/
def ownValues (valueArgs : List JSValue) : Multiset (Resource × ℕ) := (valueArgs.map ownValue).sum

/-- What the marshalling of arguments leaks. -/
def argsLeaks (args : List JavaView) : Multiset Resource := (args.map JavaView.leaks).sum

theorem ownValues_concat (valueArgs : List JSValue) (v : JSValue) :
    ownValues (valueArgs ++ [v]) = ownValue v + ownValues valueArgs := by
  unfold ownValues
  rw [List.map_append, List.sum_append, List.map_singleton, List.sum_singleton, add_comm]

theorem spec_freeValues (valueArgs : List JSValue) :
    Spec (ownValues valueArgs) (freeValues valueArgs) (fun _ => 0) 0 := by
  induction valueArgs with
  | nil => exact Spec.pure (fun _ => 0) ()
  | cons v valueArgs ih =>
    show Spec (ownValues (v :: valueArgs)) (do free .value v; freeValues valueArgs) _ _
    have hcons : ownValue v + ownValues valueArgs = ownValues (v :: valueArgs) := by
      simp only [ownValues, List.map_cons, List.sum_cons]
    exact (spec_consume v ih).congr hcons (fun _ => rfl) rfl

/-- An argument that cannot be marshalled ends the process, as its exception value
    has no text; so what is owned after `false` is for the caller to choose. -/
theorem spec_callArgs (args : List JavaView) (refused : Multiset (Resource × ℕ)) :
    ∀ valueArgs, Spec (ownValues valueArgs) (callArgs valueArgs args)
      (fun values => values.elim refused ownValues) (argsLeaks args) := by
  induction args with
  | nil =>
    exact fun valueArgs => Spec.pure (fun v => v.elim refused ownValues) (some valueArgs)
  | cons arg args ih =>
    intro valueArgs
    have harg : Spec 0 (LocalRefHolder (newLocal (arg ≠ .null)) fun _ => toObject_jobject arg)
        ownValue arg.leaks := Spec.hold_fresh fun _ => spec_toObject_jobject arg
    refine (harg.bind_frame (r := ownValues valueArgs) fun argValue => ?_).congr
      (zero_add _) (fun _ => rfl) (List.sum_cons (l := args.map JavaView.leaks)).symm
    rw [← ownValues_concat]
    split_ifs
    · have hcrash : Spec (ownValues (valueArgs ++ [argValue]))
          (rethrowQuickJSErrorToJava (.notError (.fails false)))
          (fun _ => ownValues (valueArgs ++ [argValue]) + refused) (argsLeaks args) :=
        Spec.hold_fresh fun _ => Spec.crash
      have hnone : Spec (0 + refused) (return none : Q (Option (List JSValue)))
          (fun values => values.elim refused ownValues) 0 :=
        (Spec.pure (fun v => v.elim refused ownValues) none).congr
          (zero_add _).symm (fun _ => rfl) rfl
      have hfree := (spec_freeValues (valueArgs ++ [argValue])).bind_frame fun _ => hnone
      exact (hcrash.bind fun _ => hfree).of_eq (add_zero _)
    · exact ih _

theorem spec_callInternal (args : List JavaView) (r : Result) :
    Spec 0 (callInternal args r) ownLocal (argsLeaks args + r.leaks) := by
  refine (spec_callArgs args (r.leaks.map fun k => (k, 0)) []).bind fun values => ?_
  match values with
  | none =>
    have hnone := (Spec.pure ownLocal none).abandon (r.leaks.map fun k => (k, 0))
    exact hnone.congr (add_zero _) (fun _ => rfl) (by simp)
  | some valueArgs =>
    refine Spec.hold_fresh fun _ => ?_
    exact ((spec_freeValues valueArgs).bind fun _ =>
      spec_toObjectCheckQuickJSError r).of_eq (zero_add _)

theorem spec_getKeyObject (key : JavaView) (atom : Bool) (r : Result) :
    Spec 0 (getKeyObject key atom r) ownLocal (key.leaks + r.leaks) := by
  refine spec_toValueAsLocal fun _ => Spec.hold (spec_toObject_jobject key) fun _ => ?_
  refine ((Spec.fresh _ atom).bind fun propertyAtom => ?_).of_eq (zero_add _)
  have hread : Spec 0 (JSValueHolder (newValue r.value.counted) fun _ =>
      toObjectCheckQuickJSError r) ownLocal r.leaks :=
    Spec.hold_fresh fun _ => spec_toObjectCheckQuickJSError r
  refine (hread.bind_frame (r := handle .atom propertyAtom) fun ret => ?_).congr
    (zero_add _) (fun _ => rfl) (add_zero _)
  exact ((Spec.free _ propertyAtom).bind_frame fun _ =>
    (Spec.pure ownLocal ret).congr (zero_add _).symm (fun _ => rfl) rfl).congr
      (add_comm _ _) (fun _ => rfl) (zero_add 0)

theorem spec_callProperty (property : JavaView) (atom func : Bool) (args : List JavaView)
    (r : Result) : Spec 0 (callProperty property atom func args r) ownLocal
      (property.leaks + (argsLeaks args + r.leaks)) := by
  refine spec_toValueAsLocal fun _ => Spec.hold (spec_toObject_jobject property) fun _ => ?_
  refine ((Spec.fresh _ atom).bind fun propertyAtom => Spec.hold_fresh fun _ => ?_).of_eq (zero_add _)
  exact ((Spec.free _ propertyAtom).bind fun _ => spec_callInternal args r).of_eq (zero_add _)

theorem spec_setKey (value : JavaView) (outcome : Option (Bool × ErrorView)) :
    Spec 0 (setKey value outcome) (fun _ => 0) (value.leaks + outcomeLeaks outcome) := by
  refine spec_toValueAsLocal fun _ => Spec.hold (spec_toObject_jobject value) fun set => ?_
  exact spec_consumed (spec_checkQuickJSErrorAndThrow outcome)

/-- The atom of the key is never freed. -/
theorem spec_setKeyObject (key value : JavaView) (atom : Bool)
    (outcome : Option (Bool × ErrorView)) :
    Spec 0 (setKeyObject key value atom outcome) (fun _ => 0)
      (value.leaks + (key.leaks + (outcomeLeaks outcome + if atom then {.atom} else 0))) := by
  refine spec_toValueAsLocal fun _ => Spec.hold (spec_toObject_jobject value) fun set =>
    Spec.hold (spec_toObject_jobject key) fun _ => ?_
  exact Spec.drop_fresh fun _ => spec_consumed (spec_checkQuickJSErrorAndThrow outcome)

/-- The memory of the source is never freed. -/
theorem spec_evaluate (r : Result) :
    Spec 0 (evaluate r) ownLocal (r.leaks + {.buffer}) :=
  ((Spec.acquire _).drop fun _ =>
    Spec.hold_fresh fun _ => spec_toObjectCheckQuickJSError r).of_eq (zero_add _)

/-- Nor is the result of a module. -/
theorem spec_evaluateModule (compiles : Bool) (r : Result) :
    Spec 0 (evaluateModule compiles r) ownLocal
      (r.leaks + (if compiles ∧ r.value.counted then {.value} else 0) + {.buffer}) := by
  refine ((Spec.acquire _).drop (e := r.leaks + if compiles ∧ r.value.counted then {.value} else 0)
    fun _ => ?_).of_eq (zero_add _)
  cases compiles with
  | true =>
    have hresult : Spec 0 (do let _result ← newValue r.value.counted; toObjectCheckQuickJSError r)
        ownLocal (r.leaks + if r.value.counted then {Resource.value} else 0) :=
      Spec.drop_fresh fun _ => spec_toObjectCheckQuickJSError r
    exact (spec_consumed hresult).of_eq (by simp)
  | false => exact (spec_toObjectCheckQuickJSError r).of_eq (by simp)

/-- The text is never freed. -/
theorem spec_stringify (text : JSONText) :
    Spec 0 (stringify text) ownLocal (if text = .string then {.value} else 0) := by
  refine spec_toValueAsLocal fun _ => ?_
  exact (Spec.drop_fresh fun _ => Spec.fresh _ _).of_eq (by simp)

/-! ## Traps -/

/-- What is handed on. -/
def Handed.own : Handed → Multiset (Resource × ℕ)
  | .value v => ownValue v
  | .reference n => ownLocal n

/-- What the end of a trap leaks: the exception, or the result. -/
def endLeaks (thrown : Option JavaThrown) (result : Multiset Resource) : Multiset Resource :=
  thrown.elim result JavaThrown.leaks

/-- A trap ends with the exception, or goes on. -/
theorem spec_rethrow {α : Type} {own : α → Multiset (Resource × ℕ)} {d : Multiset Resource}
    {thrown : Option JavaThrown} {f : Bool → Q α} (hthrown : Spec 0 (f true) own 0)
    (hgoes : Spec 0 (f false) own d) :
    Spec 0 (rethrowJavaExceptionToQuickJS thrown >>= f) own (endLeaks thrown d) := by
  match thrown with
  | none => exact hgoes
  | some t =>
    show Spec 0 ((throwJavaException t >>= fun _ => pure true) >>= f) own t.leaks
    rw [bind_assoc]
    exact ((spec_throwJavaException t).bind fun _ => hthrown).of_eq (add_zero _)

theorem spec_finishTrap (thrown : Option JavaThrown) (result : JavaView) :
    Spec 0 (finishTrap thrown result) Handed.own (endLeaks thrown result.leaks) := by
  refine spec_rethrow (Spec.pure Handed.own (.value none)) ?_
  exact ((spec_toObject_jobject result).bind fun v =>
    Spec.pure Handed.own (.value v)).of_eq (add_zero _)

/-- What a key leaks; the hidden keys are not marshalled. -/
def Key.leaks (key : Key) (rest : Multiset Resource) : Multiset Resource :=
  match key with
  | .other key => key.leaks + rest
  | _ => 0

theorem spec_quickjs_has (key : Key) (thrown : Option JavaThrown) :
    Spec 0 (quickjs_has key thrown) (fun _ => 0) (key.leaks (endLeaks thrown 0)) := by
  have hreturn : Spec 0 (return () : Q Unit) (fun _ => 0) 0 := Spec.pure (fun _ => 0) ()
  match key with
  | .customFinalizer | .javaObject => exact hreturn
  | .other key =>
    exact Spec.hold_fresh fun _ => (spec_toObject_JSValue key).hold fun _ =>
      spec_rethrow hreturn hreturn

theorem spec_quickjs_get (key : Key) (thrown : Option JavaThrown) (result : JavaView) :
    Spec 0 (quickjs_get key thrown result) Handed.own
      (key.leaks (endLeaks thrown result.leaks)) := by
  match key with
  | .customFinalizer => exact Spec.pure Handed.own (.value none)
  | .javaObject =>
    exact ((Spec.fresh _ true).bind fun n =>
      Spec.pure Handed.own (.reference n)).of_eq (add_zero 0)
  | .other key =>
    exact Spec.hold_fresh fun _ => (spec_toObject_JSValue key).hold fun _ =>
      Spec.hold_fresh fun _ => spec_finishTrap thrown result

theorem spec_quickjs_set (key : Key) (value : ScriptView) (thrown : Option JavaThrown) :
    Spec 0 (quickjs_set key value thrown) (fun _ => 0)
      (key.leaks (value.leaks + endLeaks thrown 0)) := by
  have hreturn : Spec 0 (return () : Q Unit) (fun _ => 0) 0 := Spec.pure (fun _ => 0) ()
  match key with
  | .customFinalizer | .javaObject => exact hreturn
  | .other key =>
    exact Spec.hold_fresh fun _ => (spec_toObject_JSValue key).hold fun _ =>
      (spec_toObject_JSValue value).hold fun _ => spec_rethrow hreturn hreturn

/-- What the unpacking of arguments leaks. -/
def argvLeaks (argv : List ScriptView) : Multiset Resource := (argv.map ScriptView.leaks).sum

theorem spec_unpackArguments (argv : List ScriptView) :
    Spec 0 (unpackArguments argv) (fun _ => 0) (argvLeaks argv) := by
  have hreturn : Spec 0 (return () : Q Unit) (fun _ => 0) 0 := Spec.pure (fun _ => 0) ()
  induction argv with
  | nil => exact hreturn
  | cons arg argv ih =>
    show Spec 0 (do
      LocalRefHolder (toObject_JSValue arg) fun _ => return ()
      unpackArguments argv) _ _
    have harg := (spec_toObject_JSValue arg).hold fun _ => hreturn
    refine (harg.bind fun _ => ih).of_eq ?_
    simp only [argvLeaks, List.map_cons, List.sum_cons, add_zero]

/-- The traps that call: the arguments, the receiver, then the call. -/
theorem spec_callTrap {argv : List ScriptView} {this_val : ScriptView} {present : Bool}
    {d : Multiset Resource} {last : Q Handed} (hlast : Spec 0 last Handed.own d) :
    Spec 0 (do
      let javaArgs ← newLocal true
      unpackArguments argv
      LocalRefHolder (toObject_JSValue this_val) fun _ =>
        LocalRefHolder (newLocal present) fun _ => do
          free .local javaArgs
          last) Handed.own (argvLeaks argv + (this_val.leaks + d)) := by
  refine ((Spec.fresh _ true).bind fun javaArgs => ?_).of_eq (zero_add _)
  refine ((spec_unpackArguments argv).bind_frame (r := ownLocal javaArgs) fun _ => ?_).congr
    (zero_add _) (fun _ => rfl) rfl
  refine (spec_toObject_JSValue this_val).hold fun _ => Spec.hold_fresh fun _ => ?_
  exact ((Spec.free _ javaArgs).bind_frame (r := 0) fun _ =>
    hlast.congr (zero_add _).symm (fun _ => rfl) rfl).congr
      (by rw [add_zero, zero_add]) (fun _ => rfl) (zero_add d)

theorem spec_quickjs_apply (this_val : ScriptView) (argv : List ScriptView)
    (thrown : Option JavaThrown) (result : JavaView) :
    Spec 0 (quickjs_apply this_val argv thrown result) Handed.own
      (argvLeaks argv + (this_val.leaks + endLeaks thrown result.leaks)) :=
  spec_callTrap (spec_finishTrap thrown result)

theorem spec_quickjs_construct (func_obj : ScriptView) (argv : List ScriptView)
    (thrown : Option JavaThrown) (result : Bool) :
    Spec 0 (quickjs_construct func_obj argv thrown result) Handed.own
      (argvLeaks argv + (func_obj.leaks + endLeaks thrown 0)) := by
  refine spec_callTrap (spec_rethrow (Spec.pure Handed.own (.value none)) ?_)
  refine Spec.hold_fresh fun _ => ?_
  exact ((spec_toObject_jobject .quackObject).bind fun v =>
    Spec.pure Handed.own (.value v)).of_eq (add_zero _)

end JSEngine.QuickJS.Ownership
