import JSEngine.Coerce.World

/-!
# Coercions

Model of `JSEngineContext.coerceJavaToJavaScript` and `coerceJavaScriptToJava`:
the two tables of registered coercions, the automatic bridge for functional
interfaces, and the conversions that no table holds. The tables are
`LinkedHashMap`s; a class without an entry of its own takes the first entry, in
the order of registration, whose key is a supertype.

* `coerceJavaScriptToJava_eq`: the array conversion calls the whole function on
  the elements;
* `coerceJavaScriptToJava_of_instance`: an instance of the wanted class stays.
-/

namespace JSEngine.Coerce

open JSEngine.Java JSEngine.Members

/-- `JSEngineCoercion.coerce(clazz, o)`. -/
abbrev Coercion (V : Type*) := Class → JRef V → Except Throwable (JRef V)

/-- A `LinkedHashMap<Class, JSEngineCoercion>`; `put` accepts null. -/
abbrev Coercions (V : Type*) := HashMap (JRef Class) (Coercion V)

/-- The coercion tables of a context (lines 34–35). -/
structure JSEngineContext (V : Type*) where
  JavaScriptToJavaCoercions : Coercions V := {}
  JavaToJavascriptCoercions : Coercions V := {}

/-- `putJavaToJavaScriptCoercion` (lines 99–101). -/
def JSEngineContext.putJavaToJavaScriptCoercion {V : Type*} (c : JSEngineContext V)
    (clazz : JRef Class) (coercion : JRef (Coercion V)) : JSEngineContext V :=
  { c with JavaToJavascriptCoercions :=
      (c.JavaToJavascriptCoercions.put (· == clazz) clazz coercion).2 }

/-- `putJavaScriptToJavaCoercion` (lines 89–91). -/
def JSEngineContext.putJavaScriptToJavaCoercion {V : Type*} (c : JSEngineContext V)
    (clazz : JRef Class) (coercion : JRef (Coercion V)) : JSEngineContext V :=
  { c with JavaScriptToJavaCoercions :=
      (c.JavaScriptToJavaCoercions.put (· == clazz) clazz coercion).2 }

def nullPointerException : Throwable := ⟨"java.lang.NullPointerException", ""⟩

def classCastException : Throwable := ⟨"java.lang.ClassCastException", ""⟩

variable {V : Type*} (w : World V)

/-! ## The tables -/

/-- `coerce.get(clazz)`. -/
def Coercions.get (coerce : Coercions V) (clazz : Class) : JRef (Coercion V) :=
  coerce.find (· == some clazz)

/-- The loop for a superclass converter (lines 405–408 and 427–430). -/
def checkEntries (clazz : Class) (o : JRef V) :
    List (JRef Class × JRef (Coercion V)) → Except Throwable (JRef V)
  | [] => .ok none
  | (none, _) :: _ => .error nullPointerException
  | (some key, coercion) :: entries =>
    if w.isAssignableFrom key clazz then
      match coercion with
      | none => .error nullPointerException
      | some coercion => coercion clazz o
    else checkEntries clazz o entries

/-- The loop for a more specific converter, which is an error
    (lines 420–424). -/
def checkMoreSpecific (clazz : Class) : List (JRef Class × JRef (Coercion V)) → Except Throwable Unit
  | [] => .ok ()
  | (none, _) :: _ => .error nullPointerException
  | (some key, _) :: entries =>
    if w.isAssignableFrom clazz key then
      .error ⟨"java.lang.AssertionError", "Superclass converter not implemented."⟩
    else checkMoreSpecific clazz entries

/-- The private `coerceJavaToJavaScript` (lines 398–411). -/
def javaToJavaScriptEntry (coerce : Coercions V) (clazz : Class) (o : JRef V) :
    Except Throwable (JRef V) :=
  match coerce.get clazz with
  | some coercion => coercion clazz o
  | none => checkEntries w clazz o coerce.nodes

/-- The private `coerceJavaScriptToJava` (lines 413–433). -/
def javaScriptToJavaEntry (coerce : Coercions V) (clazz : Class) (o : JRef V) :
    Except Throwable (JRef V) :=
  match coerce.get clazz with
  | some coercion => coercion clazz o
  | none =>
    match checkMoreSpecific w clazz coerce.nodes with
    | .error e => .error e
    | .ok () => checkEntries w clazz o coerce.nodes

/-! ## Classes without a coercion -/

/-- No coercion is registered for the class or for a supertype of it. -/
def Unregistered (coerce : Coercions V) (clazz : Class) : Prop :=
  ∀ key, some key ∈ coerce.keys → key ≠ clazz ∧ w.isAssignableFrom key clazz = false

theorem get_eq_none {coerce : Coercions V} {clazz : Class} (h : some clazz ∉ coerce.keys) :
    coerce.get clazz = none := by
  unfold Coercions.get
  cases hf : coerce.find (· == some clazz) with
  | none => rfl
  | some k =>
    obtain ⟨n, hn, -⟩ := Option.bind_eq_some_iff.mp hf
    have hkey : n.1 = some clazz := by simpa using List.find?_some hn
    refine absurd ?_ h
    rw [← hkey]
    exact List.mem_map_of_mem (List.mem_of_find?_eq_some hn)

/-- In a table of distinct classes every entry is found. -/
theorem get_of_mem {coerce : Coercions V} {clazz : Class} {coercion : Coercion V}
    (hkeys : coerce.keys.Nodup) (h : (some clazz, some coercion) ∈ coerce.nodes) :
    coerce.get clazz = some coercion := by
  obtain ⟨nodes⟩ := coerce
  unfold Coercions.get
  induction nodes with
  | nil => cases h
  | cons n nodes ih =>
    obtain ⟨hn, hkeys⟩ := List.nodup_cons.mp hkeys
    rw [HashMap.find_cons]
    rcases List.mem_cons.mp h with rfl | h
    · rw [if_pos (by simp)]
    · have hne : n.1 ≠ some clazz := fun heq => hn (heq ▸ List.mem_map_of_mem h)
      rw [if_neg (by simpa using hne)]
      exact ih hkeys h

/-- In a table without an entry for the class the lookups find none, unless they
    come to a null key. -/
theorem Unregistered.get_eq_none {coerce : Coercions V} {clazz : Class}
    (h : Unregistered w coerce clazz) : coerce.get clazz = none :=
  JSEngine.Coerce.get_eq_none fun hmem => (h clazz hmem).1 rfl

theorem checkEntries_of_unassignable {clazz : Class} {o : JRef V}
    {entries : List (JRef Class × JRef (Coercion V))}
    (h : ∀ key, some key ∈ entries.map Prod.fst → w.isAssignableFrom key clazz = false) :
    checkEntries w clazz o entries =
      if none ∈ entries.map Prod.fst then .error nullPointerException else .ok none := by
  induction entries with
  | nil => rfl
  | cons entry entries ih =>
    obtain ⟨_ | key, coercion⟩ := entry
    · simp [checkEntries]
    · have hkey : w.isAssignableFrom key clazz = false := h key (by simp)
      have ih := ih fun key' hk => h key' (List.mem_cons_of_mem _ hk)
      simp only [checkEntries, hkey, ih, List.map_cons, List.mem_cons, reduceCtorEq, false_or]
      rfl

/-- The first entry whose key is a supertype converts. -/
theorem checkEntries_first {clazz key : Class} {o : JRef V} {coercion : Coercion V}
    {entries rest : List (JRef Class × JRef (Coercion V))}
    (h : ∀ k ∈ entries.map Prod.fst, ∃ key', k = some key' ∧ w.isAssignableFrom key' clazz = false)
    (hkey : w.isAssignableFrom key clazz = true) :
    checkEntries w clazz o (entries ++ (some key, some coercion) :: rest) = coercion clazz o := by
  induction entries with
  | nil => simp [checkEntries, hkey]
  | cons entry entries ih =>
    obtain ⟨k, c⟩ := entry
    obtain ⟨key', rfl, hkey'⟩ := h k List.mem_cons_self
    have ih := ih fun k hk => h k (List.mem_cons_of_mem _ hk)
    simp only [List.cons_append, checkEntries, hkey', ih]
    rfl

theorem checkMoreSpecific_eq_ok_iff {clazz : Class}
    {entries : List (JRef Class × JRef (Coercion V))} :
    checkMoreSpecific w clazz entries = .ok () ↔
      none ∉ entries.map Prod.fst ∧
        ∀ key, some key ∈ entries.map Prod.fst → w.isAssignableFrom clazz key = false := by
  induction entries with
  | nil => simp [checkMoreSpecific]
  | cons entry entries ih =>
    obtain ⟨_ | key, coercion⟩ := entry
    · simp [checkMoreSpecific]
    · cases hkey : w.isAssignableFrom clazz key with
      | true => simp [checkMoreSpecific, hkey]
      | false => simp [checkMoreSpecific, hkey, ih]

/-- The Java-to-JavaScript lookup of an unregistered class. -/
theorem javaToJavaScriptEntry_of_unregistered {coerce : Coercions V} {clazz : Class}
    (h : Unregistered w coerce clazz) (o : JRef V) :
    javaToJavaScriptEntry w coerce clazz o =
      if none ∈ coerce.keys then .error nullPointerException else .ok none := by
  unfold javaToJavaScriptEntry
  rw [h.get_eq_none]
  exact checkEntries_of_unassignable w fun key hk => (h key hk).2

/-- The JavaScript-to-Java lookup of an unregistered class. -/
theorem javaScriptToJavaEntry_eq_ok_iff {coerce : Coercions V} {clazz : Class}
    (h : Unregistered w coerce clazz) {o r : JRef V} :
    javaScriptToJavaEntry w coerce clazz o = .ok r ↔
      (none ∉ coerce.keys ∧ ∀ key, some key ∈ coerce.keys → w.isAssignableFrom clazz key = false) ∧
        r = none := by
  have hentries := checkEntries_of_unassignable w (o := o) fun key hk => (h key hk).2
  unfold javaScriptToJavaEntry
  rw [h.get_eq_none]
  dsimp only
  cases hm : checkMoreSpecific w clazz coerce.nodes with
  | error e =>
    have hne : ¬(none ∉ coerce.keys ∧
        ∀ key, some key ∈ coerce.keys → w.isAssignableFrom clazz key = false) := by
      intro hall
      rw [(checkMoreSpecific_eq_ok_iff w).mpr hall] at hm
      cases hm
    simp [hne]
  | ok u =>
    have hall : none ∉ coerce.keys ∧
        ∀ key, some key ∈ coerce.keys → w.isAssignableFrom clazz key = false :=
      (checkMoreSpecific_eq_ok_iff w).mp hm
    have hnull : none ∉ coerce.nodes.map Prod.fst := hall.1
    dsimp only
    rw [hentries, if_neg hnull, and_iff_right hall, Except.ok.injEq]
    exact eq_comm

/-! ## Functional interfaces -/

/-- `getLambdaMethod` (lines 176–190): the only method of the interface that is
    not static. -/
def getLambdaMethod (clazz : Class) : JRef Method :=
  if w.isInterface clazz then
    match (w.getMethods clazz).filter fun method => !method.isStatic with
    | [method] => some method
    | _ => none
  else none

/-! ## Java to JavaScript -/

variable [DecidableEq V] (c : JSEngineContext V)

/-- `coerceJavaToJavaScript` from the table on, where no wrapper is left
    (lines 155–174). -/
def coerceUnwrapped (clazz : Class) (o : JRef V) : Except Throwable (JRef V) :=
  match javaToJavaScriptEntry w c.JavaToJavascriptCoercions clazz o with
  | .error e => .error e
  | .ok (some ret) => .ok (some ret)
  | .ok none =>
    match getLambdaMethod w clazz with
    | some method =>
      .ok (some (w.methodObject { originalThis := o, target := method.name, methodsOf := some clazz }))
    | none => .ok o

/-- `coerceJavaToJavaScript(clazz, o)` (lines 144–174). -/
def coerceJavaToJavaScriptAs (clazz : Class) (o : JRef V) : Except Throwable (JRef V) :=
  match o with
  | none => .ok none
  | some o => coerceUnwrapped w c clazz (unwrap w o)

/-- `coerceJavaToJavaScript(o)` (lines 106–110). -/
def coerceJavaToJavaScript (o : JRef V) : Except Throwable (JRef V) :=
  match o with
  | none => .ok none
  | some v => coerceJavaToJavaScriptAs w c (w.getClass v) o

/-- The value is its own coercion. -/
def Settled (o : JRef V) : Prop := coerceJavaToJavaScript w c o = .ok o

@[simp] theorem coerceJavaToJavaScript_null : coerceJavaToJavaScript w c none = .ok none := rfl

/-! ## JavaScript to Java -/

/-- `o instanceof Boolean` for `boolean.class`, and so on (lines 203–217). -/
def unboxes (clazz : Class) (o : V) : Bool :=
  clazz == Class.boolean && w.isInstance Class.Boolean o ||
    [NumberType.byte, .short, .int, .long, .float, .double].any fun t =>
      clazz == t.primitive && w.isInstance t.boxed o

/-- The number types that a `Double` is narrowed to (lines 220–229). -/
def narrowTo (clazz : Class) : Option NumberType :=
  [NumberType.byte, .short, .int, .float, .long].find? fun t =>
    clazz == t.primitive || clazz == t.boxed

/-- The narrowed number, where `o` is a `Double` (lines 220–229). -/
def narrowed (clazz : Class) (o : V) : Option V :=
  if w.isInstance NumberType.double.boxed o then (narrowTo clazz).map fun t => w.numberValue t o
  else none

/-- `JavaScriptObject.get(String)`: the value read, with no class wanted. -/
def getString (jo : V) (key : JString) : Except Throwable (JRef V) :=
  (w.getKeyString jo key).map fun o => o.bind (unwrap w)

/-- `JavaScriptObject.get(int)`. -/
def getInteger (jo : V) (index : ℤ) : Except Throwable (JRef V) :=
  (w.getKeyInteger jo index).map fun o => o.bind (unwrap w)

/-- `((Number)jo.get("length")).intValue()` (line 233). -/
def arrayLength (jo : V) : Except Throwable ℤ :=
  match getString w jo (jstr "length") with
  | .error e => .error e
  | .ok none => .error nullPointerException
  | .ok (some n) => if w.isNumber n then .ok (w.intValue n) else .error classCastException

/-- The elements of the new array from the index on (lines 236–238). -/
def arrayElements (coerce : Class → JRef V → Except Throwable (JRef V)) (componentType : Class)
    (jo : V) : ℕ → ℤ → Except Throwable (List (JRef V))
  | 0, _ => .ok []
  | n + 1, i =>
    match getInteger w jo i with
    | .error e => .error e
    | .ok o =>
      match coerce componentType o with
      | .error e => .error e
      | .ok v =>
        match w.store componentType v with
        | .error e => .error e
        | .ok v =>
          match arrayElements coerce componentType jo n (i + 1) with
          | .error e => .error e
          | .ok vs => .ok (v :: vs)

/-- The array conversion (lines 231–240), with the conversion of the elements. -/
def toJavaArray (coerce : Class → JRef V → Except Throwable (JRef V)) (clazz : Class) (jo : V) :
    Except Throwable (JRef V) :=
  match arrayLength w jo with
  | .error e => .error e
  | .ok length =>
    if length < 0 then .error ⟨"java.lang.NegativeArraySizeException", ""⟩
    else
      match arrayElements w coerce (w.getComponentType clazz) jo length.toNat 0 with
      | .error e => .error e
      | .ok vs => .ok (some (w.newArray (w.getComponentType clazz) vs))

/-- The interface proxy over a JavaScript object (lines 248–261). -/
def interfaceProxy (clazz : Class) (jo : V) : V :=
  match getLambdaMethod w clazz with
  | some _ => w.proxy clazz (.callback jo)
  | none => w.proxy clazz (.invocation jo)

/-- `coerceJavaScriptToJava` from the table on (lines 242–266). -/
def coerceFromTable (clazz : Class) (o : JRef V) : Except Throwable (JRef V) :=
  match javaScriptToJavaEntry w c.JavaScriptToJavaCoercions clazz o with
  | .error e => .error e
  | .ok (some ret) => .ok (some ret)
  | .ok none =>
    match o.filter fun o => w.isInterface clazz && w.isJavaScriptObject o with
    | some jo => .ok (some (interfaceProxy w clazz jo))
    | none => .ok o

/-- `coerceJavaScriptToJava` where no wrapper is left (lines 199–266), with the
    conversion of array elements. -/
def convert (coerce : Class → JRef V → Except Throwable (JRef V)) (clazz : Class) (o : JRef V) :
    Except Throwable (JRef V) :=
  if o.any (fun o => w.isInstance clazz o || unboxes w clazz o) then .ok o
  else
    match o.bind (narrowed w clazz) with
    | some ret => .ok (some ret)
    | none =>
      match o.filter fun o => w.isArray clazz && w.isJavaScriptObject o with
      | some jo => toJavaArray w coerce clazz jo
      | none => coerceFromTable w c clazz o

/-- `coerceJavaScriptToJava` for a class of at most `n` array dimensions. -/
def coerceJavaScriptToJavaLoop : ℕ → Class → JRef V → Except Throwable (JRef V)
  | 0, _, none => .ok none
  | 0, clazz, some o => convert w c (fun _ o => .ok o) clazz (unwrap w o)
  | _ + 1, _, none => .ok none
  | n + 1, clazz, some o => convert w c (coerceJavaScriptToJavaLoop n) clazz (unwrap w o)

/-- `coerceJavaScriptToJava(clazz, o)` (lines 195–266); the class may be null. -/
def coerceJavaScriptToJava (clazz : JRef Class) (o : JRef V) : Except Throwable (JRef V) :=
  match clazz with
  | none => .ok (o.bind (unwrap w))
  | some clazz => coerceJavaScriptToJavaLoop w c (w.dimensions clazz) clazz o

@[simp] theorem coerceJavaScriptToJava_null (clazz : JRef Class) :
    coerceJavaScriptToJava w c clazz none = .ok none := by
  cases clazz with
  | none => rfl
  | some clazz =>
    show coerceJavaScriptToJavaLoop w c (w.dimensions clazz) clazz none = _
    cases w.dimensions clazz <;> rfl

/-- The array conversion calls the conversion of elements for the component type
    only. -/
theorem convert_congr {coerce coerce' : Class → JRef V → Except Throwable (JRef V)} {clazz : Class}
    (h : w.isArray clazz = true →
      coerce (w.getComponentType clazz) = coerce' (w.getComponentType clazz)) (o : JRef V) :
    convert w c coerce clazz o = convert w c coerce' clazz o := by
  have helements : ∀ jo n i, w.isArray clazz = true →
      arrayElements w coerce (w.getComponentType clazz) jo n i =
        arrayElements w coerce' (w.getComponentType clazz) jo n i := by
    intro jo n
    induction n with
    | zero => intro i _; rfl
    | succ n ih =>
      intro i ha
      simp only [arrayElements, h ha, ih (i + 1) ha]
  unfold convert
  split_ifs
  · rfl
  · cases o.bind (narrowed w clazz) with
    | some ret => rfl
    | none =>
      cases hjo : o.filter fun o => w.isArray clazz && w.isJavaScriptObject o with
      | none => rfl
      | some jo =>
        obtain ⟨-, hjo⟩ := Option.filter_eq_some_iff.mp hjo
        rw [Bool.and_eq_true] at hjo
        simp only [toJavaArray, helements jo _ _ hjo.1]

/-- The conversion of a value converts the elements of an array by itself. -/
theorem coerceJavaScriptToJava_eq (clazz : Class) (o : V) :
    coerceJavaScriptToJava w c (some clazz) (some o) =
      convert w c (fun clazz o => coerceJavaScriptToJava w c (some clazz) o) clazz (unwrap w o) := by
  show coerceJavaScriptToJavaLoop w c (w.dimensions clazz) clazz (some o) = _
  cases hd : w.dimensions clazz with
  | zero =>
    apply convert_congr
    intro ha
    have := w.dimensions_of_isArray clazz ha
    omega
  | succ n =>
    apply convert_congr
    intro ha
    have hn : w.dimensions (w.getComponentType clazz) = n := by
      have := w.dimensions_of_isArray clazz ha
      omega
    funext o'
    show _ = coerceJavaScriptToJavaLoop w c (w.dimensions (w.getComponentType clazz)) _ o'
    rw [hn]

/-- An instance of the wanted class stays as it is, a boxed number or `Boolean`
    also for the primitive type. -/
theorem coerceJavaScriptToJava_of_instance {clazz : Class} {o v : V} (hv : unwrap w o = some v)
    (h : w.isInstance clazz v = true ∨ unboxes w clazz v = true) :
    coerceJavaScriptToJava w c (some clazz) (some o) = .ok (some v) := by
  rw [coerceJavaScriptToJava_eq, hv]
  unfold convert
  rw [if_pos]
  simpa using h

end JSEngine.Coerce
