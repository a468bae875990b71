import JSEngine.QuickJS.Objects

/-!
# `QuickJSContext::toObject(JSValue)` and `rethrowQuickJSErrorToJava`

Before it makes a new `JavaScriptObject`, `toObject` tries to recognise the
value as one of the bridge's own: it reads `customFinalizer` and takes an own
one for a twin, and it reads `javaObject` and takes the answer for the address
of a local reference (lines 409–447). `rethrowQuickJSErrorToJava` reads
`javaException` and gives the answer to `toObject` (lines 775–792).

Every pointer or number that is taken for a Java reference or for a
`CustomFinalizerData` is recorded as a `Use`, with who supplied it.

* `recognise_genuine_iff`: all uses of `toObject` are genuine exactly for the
  values that are `Unforged`.
* `rethrow_genuine_iff`: the same for the error path.
* `recognise_create_iff`: where nothing is recognised in an object.
-/

namespace JSEngine.QuickJS

open JSEngine.Common

/-- A number, pointer or opaque field taken for something of the bridge. -/
inductive Use (O R : Type*) where
  /-- `reinterpret_cast<CustomFinalizerData *>`, then `data->udata`. -/
  | finalizerData (data : Option (Option R))
  /-- `reinterpret_cast<jobject>(data->udata)`. -/
  | weakReference (udata : R)
  /-- `NewLocalRef(reinterpret_cast<jobject>(javaPtr))`. -/
  | reference (source : Answer O R)
  deriving DecidableEq

/-- What `toObject` finds a value to be. -/
inductive Recognised (O R : Type*) where
  | null
  | boxed (s : Scalar)
  | existing (r : R)
  | unwrapped (source : Answer O R)
  | crash
  /-- A new `JavaScriptObject` is made; first a twin whose object is dead is
      removed from the value and from the stash. -/
  | create (dead : Option ℕ)
  deriving DecidableEq

/-- The heaps that the reads of one call see. -/
structure Reads (O R : Type*) where
  finalizer : Heap O R
  ownProperty : Heap O R
  javaObject : Heap O R

variable {O R : Type*}

/-- A call during which the heap does not change. -/
def Reads.of (h : Heap O R) : Reads O R := ⟨h, h, h⟩

/-- The `else` branch, lines 439–447. -/
def unbox (h : Heap O R) (n : ℕ) (start : O) : Recognised O R × List (Use O R) :=
  let javaValue := JS_GetProperty h n start .javaObject
  if !(javaValue.value h .javaObject).isUndefinedOrNull then
    (.unwrapped javaValue, [.reference javaValue])
  else
    (.create none, [])

/-- Lines 416–437, with `twinFound` the answer for `customFinalizer`. -/
def findTwin (h : Heap O R) (twinFound : Val O) : Recognised O R × List (Use O R) :=
  match JS_GetOpaque h twinFound with
  | none => (.crash, [.finalizerData none])
  | some none => (.create none, [.finalizerData (some none)])
  | some (some javaThis) =>
    if !h.cleared javaThis then
      (.existing javaThis, [.finalizerData (some (some javaThis)), .weakReference javaThis])
    else
      (.create (match twinFound with | .object t => some (h.pointer t) | _ => none),
        [.finalizerData (some (some javaThis)), .weakReference javaThis])

/-- Lines 409–447, for a value on which reads start at `start`. -/
def probe (rd : Reads O R) (n : ℕ) (v : Val O) (start : O) :
    Recognised O R × List (Use O R) :=
  let twinFound := (JS_GetProperty rd.finalizer n start .customFinalizer).value
    rd.finalizer .customFinalizer
  if twinFound.isUndefinedOrNull then
    unbox rd.javaObject n start
  else
    match JS_GetOwnProperty rd.ownProperty n v .customFinalizer with
    | none => (.null, [])
    | some true => findTwin rd.ownProperty twinFound
    | some false => unbox rd.javaObject n start

/-- `toObject(JSValue)` up to line 447. -/
def recognise (rd : Reads O R) (n : ℕ) (v : Val O) : Recognised O R × List (Use O R) :=
  match v with
  | .undefined => (.null, [])
  | .null => (.null, [])
  | .scalar s => (.boxed s, [])
  | .exception => (.null, [])
  | .symbol => probe rd n v rd.finalizer.symbolPrototype
  | .object o => probe rd n v o

/-! ## The error path -/

/-- What `rethrowQuickJSErrorToJava` throws in Java. -/
inductive Rethrown (O R : Type*) where
  /-- A new `JSEngineException` with the message of the error or the value. -/
  | newException
  /-- `getObject()` of what `toObject` made of the `javaException` property. -/
  | unwrapped (wrapped : Recognised O R)
  deriving DecidableEq

/-- `JS_IsError`. -/
def JS_IsError (h : Heap O R) : Val O → Bool
  | .object o => match (h.obj o).kind with | .error => true | _ => false
  | _ => false

/-- `rethrowQuickJSErrorToJava` (lines 775–792). `h` is the heap at the read of
    `javaException`, `rd` are the heaps of the call of `toObject`. -/
def rethrowQuickJSErrorToJava (h : Heap O R) (rd : Reads O R) (n : ℕ) (error : Val O) :
    Rethrown O R × List (Use O R) :=
  match error with
  | .object o =>
    if JS_IsError h error then
      let javaException := (JS_GetProperty h n o .javaException).value h .javaException
      if javaException.isUndefinedOrNull then
        (.newException, [])
      else
        let r := recognise rd n javaException
        (.unwrapped r.1, r.2)
    else
      (.newException, [])
  | _ => (.newException, [])

/-! ## Genuine uses -/

/-- The use takes what the bridge itself supplied, for a live Java object: the
    data of one of its twins, or the number of a local reference that the read
    hook of one of its proxies has just made. -/
def Genuine (rd : Reads O R) : Use O R → Prop
  | .finalizerData data => data.isSome
  | .weakReference r => rd.ownProperty.live r = true
  | .reference source => ∃ r, source = .hook r ∧ rd.javaObject.live r = true

/-- A read of `a` that finds nothing: no answer, or an answer of the script
    that is undefined or null. -/
def Nullish (h : Heap O R) (a : Atom) (x : Answer O R) : Prop :=
  (x.value h a).isUndefinedOrNull = true

instance (h : Heap O R) (a : Atom) (x : Answer O R) : Decidable (Nullish h a x) :=
  inferInstanceAs (Decidable (_ = true))

/-- A read that finds nothing, or that a proxy of the bridge answers. -/
def NullishOrHook (h : Heap O R) (a : Atom) (x : Answer O R) : Prop :=
  Nullish h a x ∨ ∃ r, x = .hook r

/-- A read that finds nothing, or a twin. -/
def NullishOrTwin (h h' : Heap O R) (a : Atom) (x : Answer O R) : Prop :=
  Nullish h a x ∨ (JS_GetOpaque h' (x.value h a)).isSome = true

/-- What the reads on a value have to end in: nothing or a twin under
    `customFinalizer` where the key is the value's own, and nothing or a proxy
    of the bridge under `javaObject` where that key is read. -/
structure UnforgedAt (rd : Reads O R) (n : ℕ) (v : Val O) (start : O) : Prop where
  finalizer : JS_GetOwnProperty rd.ownProperty n v .customFinalizer = some true →
    Hop.EndsIn (getHop rd.finalizer .customFinalizer)
      (NullishOrTwin rd.finalizer rd.ownProperty .customFinalizer) n start
  javaObject :
    (Hop.EndsIn (getHop rd.finalizer .customFinalizer)
        (Nullish rd.finalizer .customFinalizer) n start ∨
      JS_GetOwnProperty rd.ownProperty n v .customFinalizer = some false) →
    Hop.EndsIn (getHop rd.javaObject .javaObject)
      (NullishOrHook rd.javaObject .javaObject) n start

/-- The values of which `toObject` reads nothing forged. -/
def Unforged (rd : Reads O R) (n : ℕ) (v : Val O) : Prop :=
  match v with
  | .symbol => UnforgedAt rd n v rd.finalizer.symbolPrototype
  | .object o => UnforgedAt rd n v o
  | _ => True

theorem getHop_hook {h : Heap O R} {a : Atom} {o : O} {r : R}
    (ho : getHop h a o = .stop (.hook r)) : (h.obj o).kind = .quackObjectProxy r := by
  unfold getHop at ho
  split at ho
  next => simp at ho
  next =>
    split at ho
    next => split at ho <;> simp at ho
    next => simp at ho
    next s hs =>
      obtain rfl : s = r := by simpa using ho
      exact hs
    next => split at ho <;> simp at ho

/-- A proxy of the bridge that answers a read holds a live reference. -/
theorem live_of_hook {h : Heap O R} {n : ℕ} {start : O} {a : Atom} {r : R}
    (hx : JS_GetProperty h n start a = .hook r) : h.live r = true := by
  rcases Hop.follow_cases (getHop h a) .thrown n start with ⟨k, -, hk⟩ | hk
  · obtain ⟨o, -, ho⟩ := Hop.exists_trail_of_stopsAfter hk
    rw [show Hop.follow (getHop h a) .thrown n start = .hook r from hx] at ho
    exact h.held o r (by rw [getHop_hook ho]; rfl)
  · rw [JS_GetProperty, hk] at hx
    cases hx

/-- A property that an exception lacks holds of a read exactly where the chain
    ends so. -/
theorem endsIn_iff {h : Heap O R} {a : Atom} {P : Answer O R → Prop} (hP : ¬ P .thrown)
    {n : ℕ} {start : O} :
    Hop.EndsIn (getHop h a) P n start ↔ P (JS_GetProperty h n start a) :=
  (Hop.follow_iff hP n start).symm

theorem not_nullish_thrown (h : Heap O R) (a : Atom) : ¬ Nullish h a .thrown := by
  simp [Nullish, Answer.value, Val.isUndefinedOrNull]

theorem unbox_genuine_iff {rd : Reads O R} {n : ℕ} {start : O} :
    (∀ u ∈ (unbox rd.javaObject n start).2, Genuine rd u) ↔
      Hop.EndsIn (getHop rd.javaObject .javaObject)
        (NullishOrHook rd.javaObject .javaObject) n start := by
  rw [endsIn_iff (by simp [NullishOrHook, not_nullish_thrown])]
  cases hx : JS_GetProperty rd.javaObject n start .javaObject with
  | absent => simp [unbox, hx, NullishOrHook, Nullish, Answer.value, Val.isUndefinedOrNull]
  | thrown =>
    simp [unbox, hx, NullishOrHook, Nullish, Answer.value, Val.isUndefinedOrNull, Genuine]
  | hook r =>
    have hr : rd.javaObject.live r = true := live_of_hook hx
    simp [unbox, hx, NullishOrHook, Answer.value, Val.isUndefinedOrNull, Genuine, hr]
  | found v =>
    by_cases hv : v.isUndefinedOrNull
    · simp [unbox, hx, NullishOrHook, Nullish, Answer.value, hv]
    · simp [unbox, hx, NullishOrHook, Nullish, Answer.value, hv, Genuine]

theorem findTwin_genuine_iff {rd : Reads O R} {v : Val O} :
    (∀ u ∈ (findTwin rd.ownProperty v).2, Genuine rd u) ↔
      (JS_GetOpaque rd.ownProperty v).isSome = true := by
  unfold findTwin
  cases hv : JS_GetOpaque rd.ownProperty v with
  | none => simp [Genuine]
  | some udata =>
    -- the bridge keeps no weak reference in its twins
    obtain rfl := JS_GetOpaque_eq_some hv
    simp [Genuine]

/-- The recognition of one value, for either start of the reads. -/
theorem probe_genuine_iff {rd : Reads O R} {n : ℕ} {v : Val O} {start : O} :
    (∀ u ∈ (probe rd n v start).2, Genuine rd u) ↔ UnforgedAt rd n v start := by
  have hnull : Hop.EndsIn (getHop rd.finalizer .customFinalizer)
      (Nullish rd.finalizer .customFinalizer) n start ↔ _ := endsIn_iff (not_nullish_thrown _ _)
  have htwin : Hop.EndsIn (getHop rd.finalizer .customFinalizer)
      (NullishOrTwin rd.finalizer rd.ownProperty .customFinalizer) n start ↔ _ :=
    endsIn_iff (by simp [NullishOrTwin, not_nullish_thrown, Answer.value, JS_GetOpaque])
  unfold probe
  by_cases hn : Nullish rd.finalizer .customFinalizer
      (JS_GetProperty rd.finalizer n start .customFinalizer)
  · have hn' : ((JS_GetProperty rd.finalizer n start .customFinalizer).value rd.finalizer
        .customFinalizer).isUndefinedOrNull = true := hn
    rw [if_pos hn', unbox_genuine_iff]
    constructor
    · intro h
      exact ⟨fun _ => htwin.mpr (.inl hn), fun _ => h⟩
    · intro h
      exact h.javaObject (.inl (hnull.mpr hn))
  · have hn' : ¬ ((JS_GetProperty rd.finalizer n start .customFinalizer).value rd.finalizer
        .customFinalizer).isUndefinedOrNull = true := hn
    rw [if_neg hn']
    have hends : ¬ Hop.EndsIn (getHop rd.finalizer .customFinalizer)
        (Nullish rd.finalizer .customFinalizer) n start := fun h => hn (hnull.mp h)
    cases hown : JS_GetOwnProperty rd.ownProperty n v .customFinalizer with
    | none =>
      simp only [List.not_mem_nil, false_implies, implies_true, true_iff]
      constructor
      · rw [hown]
        intro h
        cases h
      · rw [hown]
        rintro (h | h)
        · exact absurd h hends
        · cases h
    | some b =>
      cases b with
      | true =>
        rw [findTwin_genuine_iff]
        constructor
        · intro h
          refine ⟨fun _ => htwin.mpr (.inr h), ?_⟩
          rw [hown]
          rintro (h' | h')
          · exact absurd h' hends
          · cases h'
        · intro h
          rcases htwin.mp (h.finalizer hown) with h' | h'
          · exact absurd h' hn
          · exact h'
      | false =>
        rw [unbox_genuine_iff]
        constructor
        · intro h
          refine ⟨?_, fun _ => h⟩
          rw [hown]
          intro h'
          cases h'
        · intro h
          exact h.javaObject (.inr hown)

/-- **What `toObject` reinterprets is genuine exactly for unforged values.** -/
theorem recognise_genuine_iff {rd : Reads O R} {n : ℕ} {v : Val O} :
    (∀ u ∈ (recognise rd n v).2, Genuine rd u) ↔ Unforged rd n v := by
  cases v with
  | symbol => exact probe_genuine_iff
  | object o => exact probe_genuine_iff
  | _ => simp [recognise, Unforged]

/-- The errors of which `rethrowQuickJSErrorToJava` reads nothing forged: not
    one whose `javaException` chain ends in a forged value. -/
def UnforgedError (h : Heap O R) (rd : Reads O R) (n : ℕ) (error : Val O) : Prop :=
  ∀ o, error = .object o → JS_IsError h error = true →
    ¬ Hop.EndsIn (getHop h .javaException)
      (fun x => ¬ Unforged rd n (x.value h .javaException)) n o

/-- **What `rethrowQuickJSErrorToJava` reinterprets is genuine exactly for
    unforged errors.** -/
theorem rethrow_genuine_iff {h : Heap O R} {rd : Reads O R} {n : ℕ} {error : Val O} :
    (∀ u ∈ (rethrowQuickJSErrorToJava h rd n error).2, Genuine rd u) ↔
      UnforgedError h rd n error := by
  cases error with
  | object o =>
    simp only [UnforgedError, Val.object.injEq, forall_eq', rethrowQuickJSErrorToJava]
    rw [endsIn_iff (by simp [Answer.value, Unforged]), not_not]
    by_cases he : JS_IsError h (.object o) = true
    · simp only [he, if_true, true_implies]
      by_cases hn : ((JS_GetProperty h n o .javaException).value h
          .javaException).isUndefinedOrNull = true
      · rw [if_pos hn]
        simp only [List.not_mem_nil, false_implies, implies_true, true_iff]
        cases hv : (JS_GetProperty h n o .javaException).value h .javaException with
        | undefined => trivial
        | null => trivial
        | _ =>
          rw [hv] at hn
          cases hn
      · rw [if_neg hn]
        exact recognise_genuine_iff
    · simp [he]
  | _ => simp [UnforgedError, rethrowQuickJSErrorToJava]

/-! ## Objects without the bridge's keys -/

/-- A read that finds a twin. -/
def IsTwin (h h' : Heap O R) (a : Atom) (x : Answer O R) : Prop :=
  (JS_GetOpaque h' (x.value h a)).isSome = true

instance (h h' : Heap O R) (a : Atom) (x : Answer O R) : Decidable (IsTwin h h' a x) :=
  inferInstanceAs (Decidable (_ = true))

/-- The bridge's keys are not visible on the object: the read of `javaObject` ends
    in nothing, and so does that of `customFinalizer`, or it finds what is not the
    object's own; or the object has a twin. -/
def BareAt (rd : Reads O R) (n : ℕ) (o : O) : Prop :=
  (Hop.EndsIn (getHop rd.finalizer .customFinalizer)
        (Nullish rd.finalizer .customFinalizer) n o ∨
      JS_GetOwnProperty rd.ownProperty n (.object o) .customFinalizer = some false) ∧
    Hop.EndsIn (getHop rd.javaObject .javaObject) (Nullish rd.javaObject .javaObject) n o ∨
  JS_GetOwnProperty rd.ownProperty n (.object o) .customFinalizer = some true ∧
    Hop.EndsIn (getHop rd.finalizer .customFinalizer)
      (IsTwin rd.finalizer rd.ownProperty .customFinalizer) n o

instance (rd : Reads O R) (n : ℕ) (o : O) : Decidable (BareAt rd n o) :=
  inferInstanceAs (Decidable ((_ ∨ _) ∧ _ ∨ _ ∧ _))

theorem unbox_create_iff {h : Heap O R} {n : ℕ} {o : O} :
    (unbox h n o).1 = .create none ↔
      Hop.EndsIn (getHop h .javaObject) (Nullish h .javaObject) n o := by
  rw [endsIn_iff (not_nullish_thrown _ _)]
  unfold unbox Nullish
  dsimp only
  split_ifs with hx
  · simpa using hx
  · simpa using hx

/-- An object gets a new `JavaScriptObject` exactly where the keys are not
    visible. -/
theorem recognise_create_iff {rd : Reads O R} {n : ℕ} {o : O} :
    (recognise rd n (.object o)).1 = .create none ↔ BareAt rd n o := by
  unfold BareAt recognise probe
  rw [← unbox_create_iff, endsIn_iff (not_nullish_thrown _ _),
    endsIn_iff (P := IsTwin rd.finalizer rd.ownProperty .customFinalizer)
      (by simp [IsTwin, Answer.value, JS_GetOpaque])]
  unfold Nullish IsTwin
  dsimp only
  generalize (JS_GetProperty rd.finalizer n o .customFinalizer).value rd.finalizer
    .customFinalizer = twinFound
  split_ifs with hn
  · have hno : (JS_GetOpaque rd.ownProperty twinFound).isSome = false := by
      cases twinFound with
      | object o => cases hn
      | _ => rfl
    simp [hn, hno]
  · cases JS_GetOwnProperty rd.ownProperty n (.object o) .customFinalizer with
    | none => simp [hn]
    | some own =>
      cases own with
      | false => simp
      | true =>
        unfold findTwin
        cases ht : JS_GetOpaque rd.ownProperty twinFound with
        | none => simp [hn]
        | some udata =>
          obtain rfl := JS_GetOpaque_eq_some ht
          simp [hn]

/-- A new `JavaScriptObject` never takes a twin out of the stash: no twin has a
    weak reference. -/
theorem recognise_create {rd : Reads O R} {n : ℕ} {v : Val O} {dead : Option ℕ}
    (h : (recognise rd n v).1 = .create dead) : dead = none := by
  have hunbox : ∀ start, (unbox rd.javaObject n start).1 = .create dead → dead = none := by
    intro start h
    unfold unbox at h
    dsimp only at h
    split_ifs at h
    exact (Recognised.create.inj h).symm
  have htwin : ∀ x, (findTwin rd.ownProperty x).1 = .create dead → dead = none := by
    intro x h
    unfold findTwin at h
    cases hx : JS_GetOpaque rd.ownProperty x with
    | none => simp [hx] at h
    | some udata =>
      obtain rfl := JS_GetOpaque_eq_some hx
      simpa [hx, eq_comm] using h
  have hprobe : ∀ start, (probe rd n v start).1 = .create dead → dead = none := by
    intro start h
    unfold probe at h
    dsimp only at h
    split_ifs at h
    · exact hunbox _ h
    · split at h
      next => cases h
      next => exact htwin _ h
      next => exact hunbox _ h
  cases v with
  | symbol => exact hprobe _ h
  | object o => exact hprobe _ h
  | _ => cases h

end JSEngine.QuickJS
