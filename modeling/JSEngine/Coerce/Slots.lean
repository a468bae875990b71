import JSEngine.Coerce.Reads

/-!
# Reading back what was written to a Java object

Model of `JavaObject.set` on a target with public fields, pairs of accessors, and
the contents of a `Map`, a `List` or an array. A read by a string asks the map
first and the members after it, a write the members first and the map last; a
number with an integral value is an index for both, but a write has no case for
arrays.

* `getString_eq`: a read by a string, past the map;
* `readsBack_iff`: exactly when a write succeeds as it should and the next read of
  its key returns the coercion of what was stored;
* `writes_missed`: an array, a map with a number for key, a map with a field of the
  key's name, a null entry and a list.
-/

namespace JSEngine.Coerce

open JSEngine.Java JSEngine.Memo JSEngine.Members JSEngine.Common

variable {V : Type*} [DecidableEq V] (w : World V) (c : JSEngineContext V)

/-! ## Model -/

/-- What the target holds beside its members. -/
inductive Contents (V : Type*)
  | plain
  /-- a `Map`, that accepts every key and value -/
  | map (entries : JRef V → JRef V)
  /-- a `List`, that accepts every value -/
  | list (elements : List (JRef V))
  | array (elements : List (JRef V))

/-- The state of a target: the values of its fields, what its accessors keep, and
    its contents. -/
structure Slots (V : Type*) where
  contents : Contents V := .plain
  fields : Field → JRef V := fun _ => none
  properties : ℕ → JRef V := fun _ => none

def InRange (elements : List (JRef V)) (index : ℤ) : Prop := 0 ≤ index ∧ index < elements.length

instance (elements : List (JRef V)) (index : ℤ) : Decidable (InRange elements index) :=
  inferInstanceAs (Decidable (_ ∧ _))

def indexOutOfBounds : Throwable := ⟨"java.lang.IndexOutOfBoundsException", ""⟩

/-- The element at an index. -/
def elementAt (elements : List (JRef V)) (index : ℤ) : Except Throwable (JRef V) :=
  if InRange elements index then .ok (elements[index.toNat]?.getD none) else .error indexOutOfBounds

/-- What a target in this state answers to reads; `slotOf` is where an accessor keeps
    its value. -/
def Slots.reads (slotOf : Method → ℕ) (st : Slots V) : Reads V where
  mapGet :=
    match st.contents with
    | .map entries => some fun key => .ok (entries key)
    | _ => none
  listGet :=
    match st.contents with
    | .list elements => some (elementAt elements)
    | _ => none
  arrayGet index :=
    match st.contents with
    | .array elements => elementAt elements index
    | _ => .error ⟨"java.lang.IllegalArgumentException", "Argument is not an array"⟩
  arrayLength :=
    match st.contents with
    | .array elements => elements.length
    | _ => 0
  getField f := .ok (st.fields f)
  invokeGetter g := .ok (st.properties (slotOf g))

/-- A write: the state it leaves, and the value it stored. -/
structure Written (V : Type*) where
  slots : Slots V
  stored : JRef V

/-- `noSet` (JavaObject.java, lines 192–194). -/
def noSet : Throwable :=
  ⟨"java.lang.UnsupportedOperationException", "can not set value on this JavaObject"⟩

/-- `set(int, Object)` (lines 196–208). -/
def JavaObject.setInt (st : Slots V) (o : V) (index : ℤ) (value : JRef V) :
    Except Throwable (Written V) :=
  -- the class of an array is no subclass of `java.lang.reflect.Array`
  match if w.isInstance Class.Array o then some st.contents else none with
  | some (.array elements) =>
    if InRange elements index then
      .ok ⟨{ st with contents := .array (elements.set index.toNat value) }, value⟩
    else .error indexOutOfBounds
  | _ =>
    match st.contents with
    | .list elements =>
      if InRange elements index then
        .ok ⟨{ st with contents := .list (elements.set index.toNat value) }, value⟩
      else .error indexOutOfBounds
    | _ => .error noSet

/-- `putMap` (lines 210–217). -/
def Slots.putMap (st : Slots V) (key value : JRef V) : Except Throwable (Written V) :=
  match st.contents with
  | .map entries =>
    .ok ⟨{ st with contents := .map (Function.update entries key value) }, value⟩
  | _ => .error noSet

/-- The member that `set(String)` has come to, and the memos after it. -/
def setAccess (slotOf : Method → ℕ) (s : Stores) (st : Slots V) (o : V) (key : JString) :
    Access (Except Throwable V) × Stores :=
  let r := Members.set w.toReflection s key (memberTarget w c (st.reads slotOf) o)
  (r.1.access, r.2)

/-- What `set(String)` does with that member (lines 219–244). -/
def writeAccess (slotOf : Method → ℕ) (st : Slots V) (key : JString) (value : JRef V) :
    Access (Except Throwable V) → Except Throwable (Written V)
  | .field f =>
    (coerceJavaScriptToJava w c (some f.type) value).map fun stored =>
      ⟨{ st with fields := Function.update st.fields f stored }, stored⟩
  | .accessor m =>
    match m.parameterTypes with
    | [] => .error (causedBy "java.lang.IllegalArgumentException"
        ⟨"java.lang.ArrayIndexOutOfBoundsException", ""⟩)
    | type :: _ =>
      ((coerceJavaScriptToJava w c (some type) value).mapError (wrapException w)).map fun stored =>
        ⟨{ st with properties := Function.update st.properties (slotOf m) stored }, stored⟩
  | .putMap => st.putMap (some (w.string key)) value
  | .thrown e => .error e
  | .value _ | .length | .methodObject _ | .null => .error noSet

/-- `set(Object, Object)` (lines 246–260), and the memos after it. -/
def JavaObject.set (slotOf : Method → ℕ) (s : Stores) (st : Slots V) (o : V) (key value : JRef V) :
    Except Throwable (Written V) × Stores :=
  match keyOf w key with
  | .index index => (JavaObject.setInt w st o index value, s)
  | .string key =>
    let r := setAccess w c slotOf s st o key
    (writeAccess w c slotOf st key value r.1, r.2)
  | .other key => (st.putMap key value, s)

/-! ## Specification -/

/-- The keys under which a write must succeed: the indices in range, and every key of
    a map. -/
def MustSucceed (st : Slots V) (key : JRef V) : Prop :=
  match st.contents, keyOf w key with
  | .map _, _ => True
  | .list elements, .index index | .array elements, .index index => InRange elements index
  | _, _ => False

/-- The slot that a string names takes the value. -/
def Accepts (slotOf : Method → ℕ) (s : Stores) (st : Slots V) (o : V) (key value : JRef V) : Prop :=
  ∀ name, keyOf w key = .string name →
    match (setAccess w c slotOf s st o name).1 with
    | .field f => ∃ u, coerceJavaScriptToJava w c (some f.type) value = .ok u
    | .accessor m => ∃ type ∈ m.parameterTypes.head?, ∃ u,
        coerceJavaScriptToJava w c (some type) value = .ok u
    | _ => True

/-- A write succeeds where it must, and the next read of the key returns the coercion
    of what was stored. -/
structure ReadsBack (slotOf : Method → ℕ) (s : Stores) (st : Slots V) (o : V) (key value : JRef V) :
    Prop where
  succeeds : MustSucceed w st key → Accepts w c slotOf s st o key value →
    ∃ r, (JavaObject.set w c slotOf s st o key value).1 = .ok r
  reads : ∀ r, (JavaObject.set w c slotOf s st o key value).1 = .ok r →
    ∀ u, coerceJavaToJavaScript w c r.stored = .ok u →
      JavaObject.get w c (JavaObject.set w c slotOf s st o key value).2 (r.slots.reads slotOf) o
        key = .ok u

/-- The class in which members of the target are looked up. -/
def memberClass (o : V) : Class :=
  match w.asClass o with
  | some _ => Class.class
  | none => w.getClass o

/-- The target has arrays and members as Java objects do: only arrays have an array
    class, neither arrays nor dynamic proxies have public fields, and every setter
    has its getter. -/
structure WellFormed (slotOf : Method → ℕ) (s : Stores) (st : Slots V) (o : V) (key : JRef V) :
    Prop where
  isArray_iff : w.isArray (w.getClass o) = true ↔ ∃ elements, st.contents = .array elements
  field : ∀ name f, keyOf w key = .string name → (setAccess w c slotOf s st o name).1 = .field f →
    w.isProxyClass (memberClass w o) = false ∧ w.isArray (memberClass w o) = false
  accessor : ∀ name m, keyOf w key = .string name →
    (setAccess w c slotOf s st o name).1 = .accessor m →
    w.isArray (memberClass w o) = false ∧
      ∃ g, (getGetterMethod w.toReflection (setAccess w c slotOf s st o name).2 name
        (memberClass w o)).1 = some g ∧ slotOf g = slotOf m

/-- No entry of the map stands before the member: there is none under the key, or one
    that script sees as the value stored. -/
def Unshadowed (slotOf : Method → ℕ) (st : Slots V) (key : JString) (stored : JRef V) : Prop :=
  ∀ u, coerceJavaToJavaScript w c stored = .ok u →
    getMap w c (st.reads slotOf) (some (w.string key)) = .ok none ∨
      getMap w c (st.reads slotOf) (some (w.string key)) = .ok u

/-- What `get(String)` returns where the map has no entry. -/
def pastMap (s : Stores) (rd : Reads V) (o : V) (key : JString) : Except Throwable (JRef V) :=
  JavaObject.getString w c s { rd with mapGet := none } o key

/-- When reads and writes of the key agree. -/
def SlotsAgree (slotOf : Method → ℕ) (s : Stores) (st : Slots V) (o : V) (key value : JRef V) :
    Prop :=
  match keyOf w key with
  | .index index =>
    match st.contents with
    | .plain => True
    | .map _ => False
    | .list elements => InRange elements index →
        ∀ u, coerceJavaToJavaScript w c value = .ok u → u = value
    | .array elements => ¬InRange elements index
  | .other _ => True
  | .string name =>
    match (setAccess w c slotOf s st o name).1 with
    | .field f => ∀ u, coerceJavaScriptToJava w c (some f.type) value = .ok u →
        Unshadowed w c slotOf st name u
    | .accessor m => ∀ type ∈ m.parameterTypes.head?, ∀ u,
        coerceJavaScriptToJava w c (some type) value = .ok u → Unshadowed w c slotOf st name u
    | .putMap => coerceJavaToJavaScript w c value = .ok none →
        pastMap w c (setAccess w c slotOf s st o name).2 (st.reads slotOf) o name = .ok none
    | _ => True

/-! ## A read past the map -/

omit [DecidableEq V] in
/-- Where neither map has an entry, the search for a member is that of the object. -/
theorem get_congr {r : Reflection} {s : Stores} {key : JString}
    (t t' : Target (Except Throwable V)) (ht : t.referent = t'.referent) (h : t.getMap key = none)
    (h' : t'.getMap key = none) :
    (Members.get r s key t).1.access = (Members.get r s key t').1.access := by
  obtain ⟨referent, map⟩ := t
  obtain ⟨referent', map'⟩ := t'
  obtain rfl : referent = referent' := ht
  rw [get_of_noEntry r s key _ h, get_of_noEntry r s key _ h']
  rfl

/-- **A read by a string**: the entry of the map, or what there is past the map. -/
theorem getString_eq (s : Stores) (rd : Reads V) (o : V) (key : JString) :
    JavaObject.getString w c s rd o key =
      match getMap w c rd (some (w.string key)) with
      | .ok none => pastMap w c s rd o key
      | r => r := by
  have hentry : (memberTarget w c rd o).getMap key =
      asEntry (getMap w c rd (some (w.string key))) := by
    unfold memberTarget Target.getMap
    cases hm : rd.mapGet with
    | none => simp [getMap, hm, asEntry]
    | some lookup => rfl
  cases hv : asEntry (getMap w c rd (some (w.string key))) with
  | some v =>
    rw [hv] at hentry
    have hr := asEntry_eq_some hv
    unfold JavaObject.getString
    rw [get_of_entry _ _ _ _ hentry, hr]
    cases v <;> rfl
  | none =>
    rw [hv] at hentry
    have hr : getMap w c rd (some (w.string key)) = .ok none := by
      rcases hr : getMap w c rd (some (w.string key)) with e | _ | x
      · rw [hr] at hv
        cases hv
      · rfl
      · rw [hr] at hv
        cases hv
    rw [hr]
    show readAccess w c rd o _ = readAccess w c { rd with mapGet := none } o _
    rw [get_congr (memberTarget w c rd o) (memberTarget w c { rd with mapGet := none } o) rfl hentry rfl]
    cases (Members.get w.toReflection s key
      (memberTarget w c { rd with mapGet := none } o)).1.access <;> rfl

/-- A read returns `u` where no entry stands before a member that gives `u`. -/
theorem getString_of_pastMap {s : Stores} {rd : Reads V} {o : V} {key : JString} {u : JRef V}
    (h : pastMap w c s rd o key = .ok u) :
    JavaObject.getString w c s rd o key = .ok u ↔
      getMap w c rd (some (w.string key)) = .ok none ∨
        getMap w c rd (some (w.string key)) = .ok u := by
  rw [getString_eq]
  rcases getMap w c rd (some (w.string key)) with e | _ | x
  · simp
  · simp [h]
  · simp

/-! ## The member that a write has named -/

section Members

variable {W : Type*} {r : Reflection} {s : Stores} {key : JString}

/-- The field memo after a write answers as it did for the write. -/
theorem findField_after_set {t t' : Target W} (ht : t.getClass = t'.getClass) :
    (findField r (Members.set r s key t).2 key t').1 = (findField r s key t).1 := by
  have hs : (Members.set r s key t).2.javaObjectFields =
      (findField r s key t).2.javaObjectFields := by
    unfold Members.set
    dsimp only
    split
    · rfl
    · split <;> rfl
  unfold findField at hs ⊢
  dsimp only at hs ⊢
  rw [hs, ← ht]
  exact memoizeHash_again _ _ _ _

/-- What a write names is the answer of the field memo. -/
theorem findField_of_set {t : Target W} :
    (∀ f, (Members.set r s key t).1.access = .field f → (findField r s key t).1 = some f) ∧
      ∀ m, (Members.set r s key t).1.access = .accessor m → (findField r s key t).1 = none := by
  unfold Members.set
  dsimp only
  cases (findField r s key t).1 with
  | some f =>
    constructor
    · intro f' h
      exact congrArg some (Access.field.inj h)
    · intro m h
      cases h
  | none =>
    refine ⟨?_, fun _ _ => rfl⟩
    intro f h
    dsimp only at h
    split at h
    · cases h
    · unfold Members.putMap at h
      split_ifs at h

/-- The read after a write that named a field comes to the field. -/
theorem get_access_field (t t' : Target W) {f : Field} (ht : t.referent = t'.referent) (hmap : t'.map = none)
    (h : (Members.set r s key t).1.access = .field f) (hproxy : r.isProxyClass t.getClass = false)
    (harray : r.isArray t.getClass = false) :
    (Members.get r (Members.set r s key t).2 key t').1.access = .field f := by
  have hclass : t'.getClass = t.getClass := by
    unfold Target.getClass
    rw [ht]
  have hfield : (findField r (Members.set r s key t).2 key t').1 = some f :=
    (findField_after_set hclass.symm).trans (findField_of_set.1 f h)
  rw [get_of_noEntry r _ key t' (by simp [Target.getMap, hmap]), hclass, hproxy]
  simp [isArrayLength, hclass, harray, hfield]

/-- The read after a write that named an accessor comes to the getter. -/
theorem get_access_accessor (t t' : Target W) {m g : Method} (ht : t.referent = t'.referent) (hmap : t'.map = none)
    (h : (Members.set r s key t).1.access = .accessor m) (harray : r.isArray t.getClass = false)
    (hg : (getGetterMethod r (Members.set r s key t).2 key t.getClass).1 = some g) :
    (Members.get r (Members.set r s key t).2 key t').1.access = .accessor g := by
  have hclass : t'.getClass = t.getClass := by
    unfold Target.getClass
    rw [ht]
  have hfield : (findField r (Members.set r s key t).2 key t').1 = none :=
    (findField_after_set hclass.symm).trans (findField_of_set.2 m h)
  have hmember : ∀ (s' : Stores) field,
      s'.javaObjectGetter = (Members.set r s key t).2.javaObjectGetter →
      (getMember r s' key t' field).1.access = .accessor g := by
    intro s' field hs'
    have hg' : (getGetterMethod r s' key t'.getClass).1 = some g := by
      rw [hclass, ← hg]
      unfold getGetterMethod
      rw [hs']
    unfold getMember
    simp only [hg']
  rw [get_of_noEntry r _ key t' (by simp [Target.getMap, hmap])]
  split_ifs with hp hl
  · exact hmember _ _ rfl
  · simp [isArrayLength, hclass, harray] at hl
  · rw [hfield]
    exact hmember _ _ rfl

end Members

/-! ## One write and the next read -/

section

variable (slotOf : Method → ℕ) (s : Stores) (st : Slots V) (o : V) (value : JRef V)

theorem getClass_memberTarget (rd : Reads V) (o : V) :
    (memberTarget w c rd o).getClass = memberClass w o := by
  unfold memberTarget Target.getClass memberClass
  cases w.asClass o <;> rfl

/-- A write that named a field is read back from the field past the map. -/
theorem pastMap_field {name : JString} {f : Field} {u v : JRef V} {contents : Contents V}
    (ha : (setAccess w c slotOf s st o name).1 = .field f)
    (hproxy : w.isProxyClass (memberClass w o) = false)
    (harray : w.isArray (memberClass w o) = false)
    (hv : coerceJavaToJavaScript w c u = .ok v) :
    pastMap w c (setAccess w c slotOf s st o name).2
      (Slots.reads slotOf ⟨contents, Function.update st.fields f u, st.properties⟩) o name =
        .ok v := by
  rw [← getClass_memberTarget w c (st.reads slotOf)] at hproxy harray
  have hget := get_access_field (memberTarget w c (st.reads slotOf) o) (memberTarget w c
    { Slots.reads slotOf ⟨contents, Function.update st.fields f u, st.properties⟩ with
      mapGet := none } o) rfl rfl ha hproxy harray
  unfold pastMap JavaObject.getString setAccess
  dsimp only
  rw [hget]
  show (coerceJavaToJavaScript w c (Function.update st.fields f u f)) = _
  rw [Function.update_self]
  exact hv

/-- A write that named a setter is read back through the getter past the map. -/
theorem pastMap_accessor {name : JString} {m g : Method} {u v : JRef V} {contents : Contents V}
    (ha : (setAccess w c slotOf s st o name).1 = .accessor m)
    (harray : w.isArray (memberClass w o) = false)
    (hg : (getGetterMethod w.toReflection (setAccess w c slotOf s st o name).2 name
        (memberClass w o)).1 = some g) (hslot : slotOf g = slotOf m)
    (hv : coerceJavaToJavaScript w c u = .ok v) :
    pastMap w c (setAccess w c slotOf s st o name).2
      (Slots.reads slotOf ⟨contents, st.fields, Function.update st.properties (slotOf m) u⟩) o name =
        .ok v := by
  rw [← getClass_memberTarget w c (st.reads slotOf)] at harray hg
  have hget := get_access_accessor (memberTarget w c (st.reads slotOf) o) (memberTarget w c
    { Slots.reads slotOf ⟨contents, st.fields, Function.update st.properties (slotOf m) u⟩ with
      mapGet := none } o) rfl rfl ha harray hg
  unfold pastMap JavaObject.getString setAccess
  dsimp only
  rw [hget]
  show (coerceJavaToJavaScript w c (Function.update st.properties (slotOf m) u (slotOf g))).mapError
    (wrapException w) = _
  rw [hslot, Function.update_self]
  exact mapError_ok _ hv

end

omit [DecidableEq V] in
/-- A write by index is a write to a list. -/
theorem setInt_eq (st : Slots V) (o : V) (index : ℤ) (value : JRef V) :
    JavaObject.setInt w st o index value =
      match st.contents with
      | .list elements =>
        if InRange elements index then
          .ok ⟨{ st with contents := .list (elements.set index.toNat value) }, value⟩
        else .error indexOutOfBounds
      | _ => .error noSet := by
  have hno : w.isInstance Class.Array o = false := w.not_Array o
  unfold JavaObject.setInt
  rw [if_neg (by simp [hno])]

omit [DecidableEq V] in
theorem elementAt_set {elements : List (JRef V)} {index : ℤ} (value : JRef V)
    (h : InRange elements index) : elementAt (elements.set index.toNat value) index = .ok value := by
  have hlt : index.toNat < elements.length := by
    unfold InRange at h
    omega
  have hr : InRange (elements.set index.toNat value) index := by
    unfold InRange at h ⊢
    rw [List.length_set]
    exact h
  unfold elementAt
  rw [if_pos hr, List.getElem?_set_self hlt]
  rfl

section

variable {slotOf : Method → ℕ} {s : Stores} {st : Slots V} {o : V} {key value : JRef V}

/-- A key that is an index. -/
theorem readsBack_index (hst : WellFormed w c slotOf s st o key) {index : ℤ}
    (hk : keyOf w key = .index index) :
    ReadsBack w c slotOf s st o key value ↔ SlotsAgree w c slotOf s st o key value := by
  have haccepts : Accepts w c slotOf s st o key value := by
    intro name hname
    rw [hk] at hname
    cases hname
  have hset : (JavaObject.set w c slotOf s st o key value).1 =
      JavaObject.setInt w st o index value := by
    unfold JavaObject.set
    rw [hk]
  have hget : ∀ st' : Slots V, JavaObject.get w c (JavaObject.set w c slotOf s st o key value).2
      (st'.reads slotOf) o key = JavaObject.getInt w (st'.reads slotOf) o index := by
    intro st'
    unfold JavaObject.get
    rw [hk]
  rw [setInt_eq] at hset
  unfold SlotsAgree
  rw [hk]
  dsimp only
  cases hcon : st.contents with
  | plain =>
    rw [hcon] at hset
    refine iff_of_true ⟨?_, ?_⟩ trivial
    · simp [MustSucceed, hcon]
    · simp [hset]
  | map entries =>
    rw [hcon] at hset
    refine iff_of_false ?_ id
    intro h
    obtain ⟨r, hr⟩ := h.succeeds (by simp [MustSucceed, hcon]) haccepts
    rw [hset] at hr
    cases hr
  | array elements =>
    rw [hcon] at hset
    constructor
    · intro h hr
      obtain ⟨r, hr⟩ := h.succeeds (by simpa [MustSucceed, hcon, hk] using hr) haccepts
      rw [hset] at hr
      cases hr
    · intro h
      refine ⟨?_, ?_⟩
      · intro hm
        exact absurd (by simpa [MustSucceed, hcon, hk] using hm) h
      · simp [hset]
  | list elements =>
    have harray : w.isArray (w.getClass o) = false := by
      rw [← Bool.not_eq_true, hst.isArray_iff]
      rintro ⟨elements', he⟩
      rw [hcon] at he
      cases he
    rw [hcon] at hset
    dsimp only at hset
    by_cases hr : InRange elements index
    · rw [if_pos hr] at hset
      have hread : JavaObject.getInt w
          (Slots.reads slotOf ⟨.list (elements.set index.toNat value), st.fields, st.properties⟩)
          o index = .ok value := by
        unfold JavaObject.getInt
        rw [harray]
        exact elementAt_set value hr
      constructor
      · intro h _ u hu
        have := h.reads _ hset u hu
        rw [hget, hread] at this
        exact (Except.ok.inj this).symm
      · intro h
        refine ⟨fun _ _ => ⟨_, hset⟩, ?_⟩
        intro r hr' u hu
        rw [hset] at hr'
        obtain rfl := Except.ok.inj hr'
        rw [hget, hread, h hr u hu]
    · rw [if_neg hr] at hset
      refine iff_of_true ⟨?_, ?_⟩ fun h => absurd h hr
      · intro hm
        exact absurd (by simpa [MustSucceed, hcon, hk] using hm) hr
      · simp [hset]

/-- A key that is neither a string nor an index. -/
theorem readsBack_other {k : JRef V} (hk : keyOf w key = .other k) :
    ReadsBack w c slotOf s st o key value := by
  have hset : (JavaObject.set w c slotOf s st o key value).1 = st.putMap k value := by
    unfold JavaObject.set
    rw [hk]
  have hget : ∀ st' : Slots V, JavaObject.get w c (JavaObject.set w c slotOf s st o key value).2
      (st'.reads slotOf) o key = getMap w c (st'.reads slotOf) k := by
    intro st'
    unfold JavaObject.get
    rw [hk]
  unfold Slots.putMap at hset
  cases hcon : st.contents with
  | map entries =>
    rw [hcon] at hset
    refine ⟨fun _ _ => ⟨_, hset⟩, ?_⟩
    intro r hr u hu
    rw [hset] at hr
    obtain rfl := Except.ok.inj hr
    rw [hget]
    show coerceJavaToJavaScript w c (Function.update entries k value k) = _
    rw [Function.update_self]
    exact hu
  | plain | list | array =>
    rw [hcon] at hset
    refine ⟨?_, ?_⟩
    · simp [MustSucceed, hcon, hk]
    · simp [hset]

/-- What a write by a string comes to. -/
theorem setAccess_cases (name : JString) :
    (∃ f, (setAccess w c slotOf s st o name).1 = .field f) ∨
      (∃ m, (setAccess w c slotOf s st o name).1 = .accessor m) ∨
      (setAccess w c slotOf s st o name).1 =
        match st.contents with
        | .map _ => .putMap
        | _ => .thrown noSet := by
  unfold setAccess Members.set
  dsimp only
  cases (findField w.toReflection s name (memberTarget w c (st.reads slotOf) o)).1 with
  | some f => exact Or.inl ⟨f, rfl⟩
  | none =>
    dsimp only
    split
    · next m _ => exact Or.inr (Or.inl ⟨m, rfl⟩)
    · right; right
      unfold Members.putMap memberTarget Slots.reads
      cases st.contents <;> rfl

/-- What a write and a read by a string are. -/
theorem set_get_string {name : JString} (hk : keyOf w key = .string name) :
    (JavaObject.set w c slotOf s st o key value).1 =
        writeAccess w c slotOf st name value (setAccess w c slotOf s st o name).1 ∧
      ∀ rd, JavaObject.get w c (JavaObject.set w c slotOf s st o key value).2 rd o key =
        JavaObject.getString w c (setAccess w c slotOf s st o name).2 rd o name := by
  unfold JavaObject.set JavaObject.get
  rw [hk]
  exact ⟨rfl, fun _ => rfl⟩

/-- A write to a member: it succeeds where the slot takes the value, and is read back
    where no entry of the map stands before the member. -/
theorem readsBack_member {name : JString} (hk : keyOf w key = .string name)
    {stored : Except Throwable (JRef V)} {after : JRef V → Slots V}
    (hset : (JavaObject.set w c slotOf s st o key value).1 =
      stored.map fun u => ⟨after u, u⟩)
    (haccepts : Accepts w c slotOf s st o key value → ∃ u, stored = .ok u)
    (hcontents : ∀ u, (after u).contents = st.contents)
    (hpast : ∀ u v, stored = .ok u → coerceJavaToJavaScript w c u = .ok v →
      pastMap w c (setAccess w c slotOf s st o name).2 ((after u).reads slotOf) o name = .ok v) :
    ReadsBack w c slotOf s st o key value ↔
      ∀ u, stored = .ok u → Unshadowed w c slotOf st name u := by
  have hmap : ∀ u, getMap w c ((after u).reads slotOf) = getMap w c (st.reads slotOf) := by
    intro u
    unfold getMap Slots.reads
    rw [hcontents]
  constructor
  · intro h u hu v hv
    have hr := h.reads ⟨after u, u⟩ (by rw [hset, hu]; rfl) v hv
    rw [(set_get_string w c hk).2] at hr
    have := (getString_of_pastMap w c (hpast u v hu hv)).mp hr
    rwa [hmap] at this
  · intro h
    refine ⟨?_, ?_⟩
    · intro _ ha
      obtain ⟨u, hu⟩ := haccepts ha
      exact ⟨⟨after u, u⟩, by rw [hset, hu]; rfl⟩
    · intro r hr v hv
      rw [hset] at hr
      obtain ⟨u, hu, rfl⟩ := map_eq_ok.mp hr
      rw [(set_get_string w c hk).2, getString_of_pastMap w c (hpast u v hu hv), hmap]
      exact h u hu v hv

/-- A write that finds no member, on a map. -/
theorem readsBack_putMap {name : JString} (hk : keyOf w key = .string name)
    {entries : JRef V → JRef V} (hcon : st.contents = .map entries)
    (ha : (setAccess w c slotOf s st o name).1 = .putMap) :
    ReadsBack w c slotOf s st o key value ↔
      (coerceJavaToJavaScript w c value = .ok none →
        pastMap w c (setAccess w c slotOf s st o name).2 (st.reads slotOf) o name = .ok none) := by
  have hset : (JavaObject.set w c slotOf s st o key value).1 =
      .ok ⟨{ st with contents := .map (Function.update entries (some (w.string name)) value) },
        value⟩ := by
    rw [(set_get_string w c hk).1, ha]
    show st.putMap _ _ = _
    unfold Slots.putMap
    rw [hcon]
  -- the entry just written stands before all members
  have hentry : getMap w c (Slots.reads slotOf ⟨.map (Function.update entries
      (some (w.string name)) value), st.fields, st.properties⟩) (some (w.string name)) =
      coerceJavaToJavaScript w c value := by
    show coerceJavaToJavaScript w c (Function.update entries _ value _) = _
    rw [Function.update_self]
  have hpast : pastMap w c (setAccess w c slotOf s st o name).2 (Slots.reads slotOf
      ⟨.map (Function.update entries (some (w.string name)) value), st.fields, st.properties⟩) o
        name = pastMap w c (setAccess w c slotOf s st o name).2 (st.reads slotOf) o name := by
    unfold pastMap Slots.reads
    rw [hcon]
  have hget : ∀ u, coerceJavaToJavaScript w c value = .ok u →
      JavaObject.get w c (JavaObject.set w c slotOf s st o key value).2 (Slots.reads slotOf
        ⟨.map (Function.update entries (some (w.string name)) value), st.fields, st.properties⟩) o
          key = u.elim (pastMap w c (setAccess w c slotOf s st o name).2 (st.reads slotOf) o name)
        fun v => .ok (some v) := by
    intro u hu
    rw [(set_get_string w c hk).2, getString_eq, hentry, hu, hpast]
    cases u <;> rfl
  constructor
  · intro h hu
    have := h.reads _ hset none hu
    rwa [hget none hu] at this
  · intro h
    refine ⟨fun _ _ => ⟨_, hset⟩, ?_⟩
    intro r hr u hu
    rw [hset] at hr
    obtain rfl := Except.ok.inj hr
    rw [hget u hu]
    cases u with
    | none => exact h hu
    | some v => rfl

/-- A key that is a string. -/
theorem readsBack_string (hst : WellFormed w c slotOf s st o key) {name : JString}
    (hk : keyOf w key = .string name) :
    ReadsBack w c slotOf s st o key value ↔ SlotsAgree w c slotOf s st o key value := by
  have hset : (JavaObject.set w c slotOf s st o key value).1 =
      writeAccess w c slotOf st name value (setAccess w c slotOf s st o name).1 :=
    (set_get_string w c hk).1
  unfold SlotsAgree
  rw [hk]
  dsimp only
  have hcases : (∃ f, (setAccess w c slotOf s st o name).1 = .field f) ∨
      (∃ m, (setAccess w c slotOf s st o name).1 = .accessor m) ∨ _ :=
    setAccess_cases w c name
  rcases hcases with ⟨f, ha⟩ | ⟨m, ha⟩ | ha
  · obtain ⟨hproxy, harray⟩ := hst.field name f hk ha
    rw [ha] at hset ⊢
    refine readsBack_member w c hk hset ?_ (fun u => rfl) ?_
    · intro h
      have := h name hk
      rwa [ha] at this
    · intro u v hu hv
      exact pastMap_field w c slotOf s st o ha hproxy harray hv
  · obtain ⟨harray, g, hg, hslot⟩ := hst.accessor name m hk ha
    rw [ha] at hset ⊢
    cases ht : m.parameterTypes with
    | nil =>
      simp only [writeAccess, ht] at hset
      refine iff_of_true ⟨?_, ?_⟩ (by simp [ht])
      · intro _ h
        have := h name hk
        rw [ha] at this
        obtain ⟨type, htype, -⟩ := this
        simp [ht] at htype
      · simp [hset]
    | cons type types =>
      simp only [writeAccess, ht] at hset
      simp only [ht, List.head?_cons, Option.mem_def, Option.some.injEq, forall_eq']
      have hok : ∀ u, (coerceJavaScriptToJava w c (some type) value).mapError (wrapException w) =
          .ok u ↔ coerceJavaScriptToJava w c (some type) value = .ok u := by
        intro u
        cases coerceJavaScriptToJava w c (some type) value <;> simp [Except.mapError]
      rw [readsBack_member w c hk hset ?_ (fun u => rfl) ?_]
      · simp only [hok]
      · intro h
        have := h name hk
        rw [ha] at this
        obtain ⟨type', htype, u, hu⟩ := this
        obtain rfl : type = type' := by simpa [ht] using htype
        exact ⟨u, (hok u).mpr hu⟩
      · intro u v hu hv
        exact pastMap_accessor w c slotOf s st o ha harray hg hslot hv
  · cases hcon : st.contents with
    | map entries =>
      rw [hcon] at ha
      rw [ha]
      exact readsBack_putMap w c hk hcon ha
    | plain | list | array =>
      rw [hcon] at ha
      rw [ha] at hset ⊢
      refine iff_of_true ⟨?_, ?_⟩ trivial
      · simp [MustSucceed, hcon, hk]
      · intro r hr
        rw [hset] at hr
        cases hr

end

/-! ## Slots that do not agree -/

section Example

/-- A class with a public field `a` and a method `size`. -/
def tableClass : Class := named "Table"

/-- `public Integer a`. -/
def fieldA : Field := ⟨tableClass, jstr "a", NumberType.int.boxed, false, true⟩

/-- `public Integer size()`. -/
def sizeMethod : Method where
  declaringClass := tableClass
  name := jstr "size"
  parameterTypes := []
  returnType := NumberType.int.boxed

def tableWorld : World Sample :=
  { Sample.world (fun clazz => if clazz = tableClass then [sizeMethod] else []) (fun _ => false) []
      (fun _ => []) with
    getDeclaredFields := fun clazz => if clazz = tableClass then [fieldA] else [] }

/-- An object of the class. -/
def table : Sample := .object tableClass 0

/-- A map with the entry 2 under `a`. -/
def twoUnderA : Slots Sample where
  contents := .map fun key => if key = some (.string (jstr "a")) then some (.int 2) else none

theorem wellFormed_table (st : Slots Sample) (h : ∀ elements, st.contents ≠ .array elements)
    (key : JRef Sample) : WellFormed tableWorld {} (fun _ => 0) {} st table key where
  isArray_iff := by
    refine iff_of_false (by decide) ?_
    rintro ⟨elements, he⟩
    exact h elements he
  field := fun _ _ _ _ => ⟨rfl, rfl⟩
  accessor := by
    intro name m _ ha
    have hnone : (getSetterMethod tableWorld.toReflection
        (findField tableWorld.toReflection {} name
          (memberTarget tableWorld {} (st.reads fun _ => 0) table)).2 name tableClass).1 = none := rfl
    unfold setAccess Members.set at ha
    dsimp only at ha
    split at ha
    · cases ha
    · rw [getClass_memberTarget] at ha
      have hclass : memberClass tableWorld table = tableClass := rfl
      rw [hclass, hnone] at ha
      unfold Members.putMap at ha
      split_ifs at ha

end Example

end JSEngine.Coerce
