import JSEngine.Coerce.Methods
import JSEngine.Members.Lookups

/-!
# Values on their way out of Java objects

Model of the reads script makes of Java objects: `JavaObject.get` by a string, by
an index and by any other key, and the call of a method. Which member a string
names is the business of `Members.Resolve`.

* `handed_iff`: exactly when a read hands script the coercion of the value it has
  read;
* `element_is_not_coerced`: an element of a list.
-/

namespace JSEngine.Coerce

open JSEngine.Java JSEngine.Memo JSEngine.Members JSEngine.Common

variable {V : Type*} [DecidableEq V] (w : World V) (c : JSEngineContext V)

/-! ## Model -/

/-- What the object behind a `JavaObject` answers to reads. -/
structure Reads (V : Type*) where
  /-- `((Map)target).get(key)`, where the target is a `Map` -/
  mapGet : Option (JRef V → Except Throwable (JRef V)) := none
  /-- `((List)target).get(index)`, where the target is a `List` -/
  listGet : Option (ℤ → Except Throwable (JRef V)) := none
  /-- `Array.get(target, index)` -/
  arrayGet : ℤ → Except Throwable (JRef V) := fun _ => .error nullPointerException
  /-- `Array.getLength(target)` -/
  arrayLength : ℤ := 0
  /-- `f.get(target)` -/
  getField : Field → Except InvokeFailure (JRef V) := fun _ => .ok none
  /-- `g.invoke(target)` -/
  invokeGetter : Method → Except InvokeFailure (JRef V) := fun _ => .ok none

/-- The exceptions of `f.get` and `f.set` (JavaObject.java, lines 134–136 and
    227–229). -/
def fieldFailure : InvokeFailure → Throwable
  | .illegalAccess e => causedBy "java.lang.IllegalArgumentException" e
  | .runtime e | .target e => e

/-- The exceptions of an accessor (lines 145–147 and 237–239). -/
def accessorFailure : InvokeFailure → Throwable
  | .illegalAccess e | .runtime e => causedBy "java.lang.IllegalArgumentException" e
  | .target _ =>
    causedBy "java.lang.IllegalArgumentException" ⟨"java.lang.reflect.InvocationTargetException", ""⟩

/-- The same `catch` clause around the coercion of the value. -/
def wrapException (e : Throwable) : Throwable :=
  if w.isException e then causedBy "java.lang.IllegalArgumentException" e else e

/-- `getMap(key)` (lines 172–176). -/
def getMap (rd : Reads V) (key : JRef V) : Except Throwable (JRef V) :=
  match rd.mapGet with
  | none => .ok none
  | some lookup => (lookup key).bind (coerceJavaToJavaScript w c)

/-- The result of `getMap` as a reference, null or not. -/
def asEntry (r : Except Throwable (JRef V)) : JRef (Except Throwable V) :=
  match r with
  | .error e => some (.error e)
  | .ok none => none
  | .ok (some v) => some (.ok v)

/-- The target as the search for a member sees it. -/
def memberTarget (rd : Reads V) (o : V) : Target (Except Throwable V) where
  referent :=
    match w.asClass o with
    | some clazz => .clazz clazz
    | none => .object (w.getClass o)
  map := rd.mapGet.map fun _ key => asEntry (getMap w c rd (some (w.string key)))

/-- What `get(String)` returns for the member it has come to (lines 117–162). -/
def readAccess (rd : Reads V) (o : V) : Access (Except Throwable V) → Except Throwable (JRef V)
  | .value v => v.map some
  | .length => .ok (some (w.integer rd.arrayLength))
  | .field f => ((rd.getField f).mapError fieldFailure).bind (coerceJavaToJavaScript w c)
  | .accessor g =>
    ((rd.invokeGetter g).mapError accessorFailure).bind fun v =>
      (coerceJavaToJavaScript w c v).mapError (wrapException w)
  | .methodObject key => .ok (some (w.methodObject { originalThis := some o, target := key }))
  | .null | .putMap => .ok none
  | .thrown e => .error e

/-- `get(String)` (lines 117–162). -/
def JavaObject.getString (s : Stores) (rd : Reads V) (o : V) (key : JString) :
    Except Throwable (JRef V) :=
  readAccess w c rd o (Members.get w.toReflection s key (memberTarget w c rd o)).1.access

/-- `get(int)` (lines 164–170). -/
def JavaObject.getInt (rd : Reads V) (o : V) (index : ℤ) : Except Throwable (JRef V) :=
  if w.isArray (w.getClass o) then rd.arrayGet index
  else
    match rd.listGet with
    | some lookup => lookup index
    | none => .ok none

/-- A key of `get(Object)` and `set(Object, Object)`. -/
inductive Key (V : Type*)
  | string (key : JString)
  /-- a `Number` whose `doubleValue()` is its `intValue()` -/
  | index (index : ℤ)
  | other (key : JRef V)

/-- The tests of the key (lines 178–190 and 246–260); no key is both a string and a
    number. -/
def keyOf (key : JRef V) : Key V :=
  match key.bind w.asString with
  | some s => .string s
  | none =>
    match key.filter fun key => w.isNumber key && w.isIntegral key with
    | some number => .index (w.intValue number)
    | none => .other key

/-- `get(Object)` (lines 178–190). -/
def JavaObject.get (s : Stores) (rd : Reads V) (o : V) (key : JRef V) : Except Throwable (JRef V) :=
  match keyOf w key with
  | .string key => JavaObject.getString w c s rd o key
  | .index index => JavaObject.getInt w rd o index
  | .other key => getMap w c rd key

/-- A read that script makes. -/
inductive Read (V : Type*)
  /-- of a property of the object, with the memos at the time -/
  | property (stores : Stores) (rd : Reads V) (o : V) (key : JRef V)
  /-- of the result of a method; `invoke` is what the program's methods do -/
  | call (invoke : Method → JRef V → List (JRef V) → Except InvokeFailure (JRef V))
    (coercions : MethodCoercions (MethodCoercion V)) (memos : MethodMemos) (m : MethodObject V)
    (thiz : JRef V) (args : List (JRef V))

/-- What the native layer is handed. -/
def Read.handed : Read V → Except Throwable (JRef V)
  | .property s rd o key => JavaObject.get w c s rd o key
  | .call invoke coercions memos m thiz args =>
    JavaMethodObject.callMethod w c invoke coercions memos m thiz args

/-! ## Specification -/

/-- The Java value that a member read obtains: a map entry, the value of a field, the
    result of a getter. -/
def memberValue (rd : Reads V) (key : JString) :
    Access (Except Throwable V) → Option (JRef V)
  | .value _ => rd.mapGet.bind fun lookup => (lookup (some (w.string key))).toOption
  | .field f => (rd.getField f).toOption
  | .accessor g => (rd.invokeGetter g).toOption
  | .length | .methodObject _ | .null | .putMap | .thrown _ => none

/-- The element at an index, of an array or a list. -/
def elementValue (rd : Reads V) (o : V) (index : ℤ) : Option (JRef V) :=
  if w.isArray (w.getClass o) then (rd.arrayGet index).toOption
  else rd.listGet.bind fun lookup => (lookup index).toOption

/-- The Java value the read obtains, where it obtains one. -/
def Read.obtained : Read V → Option (JRef V)
  | .property s rd o key =>
    match keyOf w key with
    | .string key =>
      memberValue w rd key (Members.get w.toReflection s key (memberTarget w c rd o)).1.access
    | .index index => elementValue w rd o index
    | .other key => rd.mapGet.bind fun lookup => (lookup key).toOption
  | .call invoke coercions memos m thiz args =>
    match JavaMethodObject.select w c coercions memos m thiz args with
    | .ok (.invoke best thiz coerced) => (invoke best thiz coerced).toOption
    | _ => none

/-- The value obtained is coerced once. -/
def Read.Coerced (r : Read V) : Prop :=
  ∀ v u, r.obtained w c = some v → coerceJavaToJavaScript w c v = .ok u → r.handed w c = .ok u

/-- The read is of an element by an index. -/
def Read.ofElement : Read V → Option (JRef V)
  | .property _ rd o key =>
    match keyOf w key with
    | .index index => elementValue w rd o index
    | .string _ | .other _ => none
  | .call _ _ _ _ _ _ => none

/-! ## Every read -/

theorem toOption_eq_some_iff {ε α : Type*} {x : Except ε α} {a : α} :
    x.toOption = some a ↔ x = .ok a := by
  cases x <;> simp [Except.toOption]

theorem mapError_ok {ε ε' α : Type*} {x : Except ε α} {a : α} (f : ε → ε') (h : x = .ok a) :
    x.mapError f = .ok a := by
  rw [h]
  rfl

omit [DecidableEq V] in
theorem asEntry_eq_some {r : Except Throwable (JRef V)} {v : Except Throwable V}
    (h : asEntry r = some v) : r = v.map some := by
  rcases r with e | _ | x
  · obtain rfl := Option.some.inj h
    rfl
  · cases h
  · obtain rfl := Option.some.inj h
    rfl

omit [DecidableEq V] in
/-- `get(String)` returns a map entry only where the map has one. -/
theorem get_value_iff {r : Reflection} {s : Stores} {t : Target (Except Throwable V)}
    {key : JString} {v : Except Throwable V} :
    (Members.get r s key t).1.access = .value v ↔ t.getMap key = some v := by
  cases hm : t.getMap key with
  | some v' =>
    rw [get_of_entry r s key t hm]
    simp only [Access.value.injEq, Option.some.injEq]
  | none =>
    have hmember : ∀ s field, (getMember r s key t field).1.access ≠ .value v := by
      intro s field
      unfold getMember
      dsimp only
      split
      · simp
      · split <;> simp
    refine iff_of_false ?_ (by simp)
    rw [get_of_noEntry r s key t hm]
    split_ifs
    · exact hmember _ _
    · simp
    · cases (findField r s key t).1 with
      | some f => simp
      | none => exact hmember _ _

/-- The map entry that `get(String)` returns is the coercion of what the map holds. -/
theorem getMap_of_value {s : Stores} {rd : Reads V} {o : V} {key : JString}
    {v : Except Throwable V}
    (h : (Members.get w.toReflection s key (memberTarget w c rd o)).1.access = .value v) :
    getMap w c rd (some (w.string key)) = v.map some := by
  obtain ⟨entry, hentry, hv⟩ := Option.bind_eq_some_iff.mp (get_value_iff.mp h)
  obtain ⟨lookup, -, rfl⟩ := Option.map_eq_some_iff.mp hentry
  exact asEntry_eq_some hv

/-- A string names a member whose value is coerced. -/
theorem getString_coerced (s : Stores) (rd : Reads V) (o : V) (key : JString) {v u : JRef V}
    (hv : memberValue w rd key
      (Members.get w.toReflection s key (memberTarget w c rd o)).1.access = some v)
    (hu : coerceJavaToJavaScript w c v = .ok u) :
    JavaObject.getString w c s rd o key = .ok u := by
  unfold JavaObject.getString
  cases ha : (Members.get w.toReflection s key (memberTarget w c rd o)).1.access with
  | value x =>
    rw [ha] at hv
    obtain ⟨lookup, hlookup, hv⟩ := Option.bind_eq_some_iff.mp hv
    have hmap := getMap_of_value w c ha
    unfold getMap at hmap
    simp only [hlookup, toOption_eq_some_iff.mp hv, ok_bind, hu] at hmap
    exact hmap.symm
  | field f =>
    rw [ha] at hv
    have hf : rd.getField f = .ok v := toOption_eq_some_iff.mp hv
    show (Except.mapError _ _).bind _ = _
    rw [mapError_ok _ hf]
    exact hu
  | accessor g =>
    rw [ha] at hv
    have hg : rd.invokeGetter g = .ok v := toOption_eq_some_iff.mp hv
    show (Except.mapError _ _).bind _ = _
    rw [mapError_ok _ hg]
    exact mapError_ok _ hu
  | length | methodObject | null | putMap | thrown =>
    rw [ha] at hv
    cases hv

/-- **Reads coerce all values but elements.** For all registered coercions and every
    read, what script is handed is the coercion of the value the read obtained, if
    and only if the read is not of an array or list element, or the element is left
    as it is by its coercion wherever that returns. -/
theorem handed_iff (r : Read V) :
    r.Coerced w c ↔ ∀ v, r.ofElement w = some v →
      ∀ u, coerceJavaToJavaScript w c v = .ok u → u = v := by
  cases r with
  | property s rd o key =>
    simp only [Read.Coerced, Read.obtained, Read.handed, Read.ofElement, JavaObject.get]
    cases keyOf w key with
    | string name =>
      refine iff_of_true ?_ (by simp)
      intro v u hv hu
      exact getString_coerced w c s rd o name hv hu
    | index index =>
      have hget : ∀ v, elementValue w rd o index = some v →
          JavaObject.getInt w rd o index = .ok v := by
        intro v hv
        unfold elementValue at hv
        unfold JavaObject.getInt
        split_ifs at hv ⊢ with ha
        · exact toOption_eq_some_iff.mp hv
        · obtain ⟨lookup, hlookup, hv⟩ := Option.bind_eq_some_iff.mp hv
          rw [hlookup]
          exact toOption_eq_some_iff.mp hv
      constructor
      · intro h v hv u hu
        have hu' : JavaObject.getInt w rd o index = .ok u := h v u hv hu
        rw [hget v hv] at hu'
        exact (Except.ok.inj hu').symm
      · intro h v u hv hu
        rw [h v hv u hu]
        exact hget v hv
    | other name =>
      refine iff_of_true ?_ (by simp)
      intro v u hv hu
      obtain ⟨lookup, hlookup, hv⟩ := Option.bind_eq_some_iff.mp hv
      simp only [getMap, hlookup, toOption_eq_some_iff.mp hv, ok_bind, hu]
  | call invoke coercions memos m thiz args =>
    refine iff_of_true ?_ (by simp [Read.ofElement])
    intro v u hv hu
    unfold Read.obtained at hv
    show (JavaMethodObject.select w c coercions memos m thiz args).bind _ = _
    cases hsel : JavaMethodObject.select w c coercions memos m thiz args with
    | error e => simp [hsel] at hv
    | ok sel =>
      cases sel with
      | coercion k m thiz args => simp [hsel] at hv
      | invoke best thiz coerced =>
        simp only [hsel, toOption_eq_some_iff] at hv
        rw [ok_bind]
        dsimp only
        rw [mapError_ok _ hv, ok_bind, hu]

/-- A coercion of `Integer` that adds one, and the list `[1]`: script reads 1 by the
    index, and 2 from a field of that value. -/
theorem element_is_not_coerced :
    let one : JRef Sample := some (.int 1)
    let list : Reads Sample := { listGet := some fun _ => .ok one }
    let read : Read Sample := .property {} list (.object (named "List") 0) (some (.int 0))
    read.obtained sampleWorld addingOne = some one ∧
      coerceJavaToJavaScript sampleWorld addingOne one = .ok (some (.int 2)) ∧
      read.handed sampleWorld addingOne = .ok one ∧
      readAccess sampleWorld addingOne { getField := fun _ => .ok one } (.object (named "List") 0)
        (.field ⟨named "List", jstr "f", NumberType.int.boxed, false, true⟩) =
          .ok (some (.int 2)) ∧
      ¬∀ r : Read Sample, r.Coerced sampleWorld addingOne := by
  refine ⟨rfl, rfl, rfl, rfl, ?_⟩
  intro h
  have h := h (.property {} { listGet := some fun _ => .ok (some (.int 1)) }
    (.object (named "List") 0) (some (.int 0))) (some (.int 1)) (some (.int 2)) rfl rfl
  have hread : (Read.property {} { listGet := some fun _ => .ok (some (Sample.int 1)) }
    (.object (named "List") 0) (some (.int 0))).handed sampleWorld addingOne =
      .ok (some (.int 1)) := rfl
  rw [hread] at h
  cases h

end JSEngine.Coerce
