import JSEngine.Coerce.Functions

/-!
# What a registration changes

Model use of the private `coerceJavaScriptToJava` (JSEngineContext.java, lines
413–433): a class without a coercion of its own is first held against every
registered class. A registered subclass of it is an error, a registered
superclass converts.

* `coerceJavaScriptToJava_interface`: where no registered class is related to an
  interface, a JavaScript object becomes an instance of the interface;
* `coerceJavaScriptToJava_put`: a registration leaves alone the classes that it is
  not related to, and the arrays of such classes;
* `registrations_do_not_interfere`: both;
* `related_registrations`: what relates to a class from above or below does
  change the outcome.
-/

namespace JSEngine.Coerce

open JSEngine.Java JSEngine.Members

variable {V : Type*} (w : World V)

/-! ## Related classes -/

/-- The class, or where it is an array class an element type of it in some
    dimension. -/
inductive ElementType : Class → Class → Prop
  | self (clazz : Class) : ElementType clazz clazz
  | component {clazz element : Class} (isArray : w.isArray clazz = true)
      (elementType : ElementType (w.getComponentType clazz) element) : ElementType clazz element

/-- The registered class `key` is neither `clazz` nor a superclass of it, and a
    subclass only where `clazz` has a coercion of its own. -/
structure Apart (coerce : Coercions V) (key clazz : Class) : Prop where
  ne : clazz ≠ key
  notSuper : w.isAssignableFrom key clazz = false
  notSub : w.isAssignableFrom clazz key = false ∨ (coerce.get clazz).isSome = true

/-- The class and its element types are apart from the registered class. -/
def Unrelated (coerce : Coercions V) (key clazz : Class) : Prop :=
  ∀ element, ElementType w clazz element → Apart w coerce key element

theorem Unrelated.apart {coerce : Coercions V} {key clazz : Class}
    (h : Unrelated w coerce key clazz) : Apart w coerce key clazz :=
  h clazz (.self clazz)

theorem Unrelated.component {coerce : Coercions V} {key clazz : Class}
    (h : Unrelated w coerce key clazz) (ha : w.isArray clazz = true) :
    Unrelated w coerce key (w.getComponentType clazz) :=
  fun element he => h element (.component ha he)

/-! ## The table after a registration -/

variable (key : Class) (coercion : JRef (Coercion V))

/-- The nodes of the table after the registration. -/
def registered (entries : List (JRef Class × JRef (Coercion V))) :
    List (JRef Class × JRef (Coercion V)) :=
  (HashMap.putNodes (· == some key) (some key) coercion entries).2

theorem get_registered {clazz : Class} (hne : clazz ≠ key) (coerce : Coercions V) :
    Coercions.get (coerce.put (· == some key) (some key) coercion).2 clazz = coerce.get clazz := by
  apply HashMap.find_put_other
  · simpa using Ne.symm hne
  · intro e he
    have he : e = some key := by simpa using he
    rw [he]
    simpa using Ne.symm hne

/-- The scan for a superclass passes over a class that is none. -/
theorem checkEntries_registered {clazz : Class} (o : JRef V)
    (h : w.isAssignableFrom key clazz = false) (entries : List (JRef Class × JRef (Coercion V))) :
    checkEntries w clazz o (registered key coercion entries) = checkEntries w clazz o entries := by
  unfold registered
  induction entries with
  | nil => simp [HashMap.putNodes, checkEntries, h]
  | cons entry entries ih =>
    obtain ⟨k, c⟩ := entry
    unfold HashMap.putNodes
    split_ifs with hk
    · obtain rfl : k = some key := by simpa using hk
      simp [checkEntries, h]
    · cases k with
      | none => rfl
      | some k => simp only [checkEntries, ih]

/-- The scan for a subclass passes over a class that is none. -/
theorem checkMoreSpecific_registered {clazz : Class} (h : w.isAssignableFrom clazz key = false)
    (entries : List (JRef Class × JRef (Coercion V))) :
    checkMoreSpecific w clazz (registered key coercion entries) =
      checkMoreSpecific w clazz entries := by
  unfold registered
  induction entries with
  | nil => simp [HashMap.putNodes, checkMoreSpecific, h]
  | cons entry entries ih =>
    obtain ⟨k, c⟩ := entry
    unfold HashMap.putNodes
    split_ifs with hk
    · obtain rfl : k = some key := by simpa using hk
      simp [checkMoreSpecific, h]
    · cases k with
      | none => rfl
      | some k => simp only [checkMoreSpecific, ih]

/-- A class apart from the registered one finds in the table what it found. -/
theorem javaScriptToJavaEntry_put {coerce : Coercions V} {clazz : Class}
    (h : Apart w coerce key clazz) (o : JRef V) :
    javaScriptToJavaEntry w (coerce.put (· == some key) (some key) coercion).2 clazz o =
      javaScriptToJavaEntry w coerce clazz o := by
  unfold javaScriptToJavaEntry
  rw [get_registered key coercion h.ne]
  cases hget : coerce.get clazz with
  | some own => rfl
  | none =>
    have hsub : w.isAssignableFrom clazz key = false := by
      rcases h.notSub with hsub | hown
      · exact hsub
      · rw [hget] at hown
        cases hown
    have hnodes : (coerce.put (· == some key) (some key) coercion).2.nodes =
        registered key coercion coerce.nodes := rfl
    rw [hnodes, checkMoreSpecific_registered w key coercion hsub,
      checkEntries_registered w key coercion o h.notSuper]

/-! ## The conversions after a registration -/

variable [DecidableEq V] (c : JSEngineContext V)

/-- With the same conversion of elements, a value is converted as before. -/
theorem convert_put {clazz : Class} (h : Apart w c.JavaScriptToJavaCoercions key clazz)
    (coerce : Class → JRef V → Except Throwable (JRef V)) (o : JRef V) :
    convert w (c.putJavaScriptToJavaCoercion (some key) coercion) coerce clazz o =
      convert w c coerce clazz o := by
  have hentry := javaScriptToJavaEntry_put w key coercion h
  simp only [convert, coerceFromTable, JSEngineContext.putJavaScriptToJavaCoercion, hentry]

/-- **A registration leaves alone the classes it is not related to.** -/
theorem coerceJavaScriptToJava_put {clazz : Class}
    (h : Unrelated w c.JavaScriptToJavaCoercions key clazz) (o : JRef V) :
    coerceJavaScriptToJava w (c.putJavaScriptToJavaCoercion (some key) coercion) (some clazz) o =
      coerceJavaScriptToJava w c (some clazz) o := by
  -- by induction on the dimensions of the class: elements are converted by themselves
  induction hn : w.dimensions clazz using Nat.strong_induction_on generalizing clazz o with
  | _ n ih =>
    cases o with
    | none => simp
    | some o =>
      rw [coerceJavaScriptToJava_eq, coerceJavaScriptToJava_eq,
        convert_put w key coercion c h.apart]
      apply convert_congr
      intro ha
      have hdim := w.dimensions_of_isArray clazz ha
      funext o'
      exact ih (w.dimensions (w.getComponentType clazz)) (by omega) (h.component w ha) o' rfl

/-! ## Interfaces -/

/-- An interface that `Proxy.newProxyInstance` accepts beside
    `JSEngineJavaScriptObject`. -/
structure InterfaceType (clazz : Class) : Prop where
  isInterface : w.isInterface clazz = true
  notArray : w.isArray clazz = false
  proxy_isInstance : ∀ handler, w.isInstance clazz (w.proxy clazz handler) = true

/-- **A JavaScript object becomes an instance of the interface**, where it is none
    already and no registered class is a super- or a subtype of the interface. -/
theorem coerceJavaScriptToJava_interface {clazz : Class} (hI : InterfaceType w clazz) {jo : V}
    (hjo : JavaScriptFunction w jo) (hnull : none ∉ c.JavaScriptToJavaCoercions.keys)
    (hsuper : Unregistered w c.JavaScriptToJavaCoercions clazz)
    (hsub : w.isInstance clazz jo = true ∨ ∀ key, some key ∈ c.JavaScriptToJavaCoercions.keys →
      w.isAssignableFrom clazz key = false) :
    ∃ v, coerceJavaScriptToJava w c (some clazz) (some jo) = .ok (some v) ∧
      w.isInstance clazz v = true := by
  have hself : unwrap w jo = some jo := unwrap_of_unwrapped w (Or.inl hjo.notWrapper)
  cases hinst : w.isInstance clazz jo with
  | true => exact ⟨jo, coerceJavaScriptToJava_of_instance w c hself (Or.inl hinst), hinst⟩
  | false =>
    have hsub := hsub.resolve_left (by simp [hinst])
    refine ⟨interfaceProxy w clazz jo, ?_, ?_⟩
    · have hbox : unboxes w clazz jo = false := by simp [unboxes, hjo.notBoolean, hjo.notNumber]
      have hnarrow : narrowed w clazz jo = none := by simp [narrowed, hjo.notNumber]
      have hentry : javaScriptToJavaEntry w c.JavaScriptToJavaCoercions clazz (some jo) = .ok none :=
        (javaScriptToJavaEntry_eq_ok_iff w hsuper).mpr ⟨⟨hnull, hsub⟩, rfl⟩
      rw [coerceJavaScriptToJava_eq, hself]
      unfold convert
      rw [if_neg (by simp [hinst, hbox])]
      simp [hnarrow, hI.notArray, Option.filter, coerceFromTable, hentry, hI.isInterface,
        hjo.isJavaScriptObject]
    · unfold interfaceProxy
      split
      · exact hI.proxy_isInstance _
      · exact hI.proxy_isInstance _

section Example

/-- `class Marker`, with a coercion registered for it, and `Marker[]`. -/
def marker : Class := named "Marker"

def markerArray : Class := named "[LMarker;"

/-- The class of a value; a proxy is shown by the interface it implements. -/
def Sample.proxiedClass : Sample → Class
  | .callback clazz _ => clazz
  | .invocation clazz _ => clazz
  | o => o.getClass

/-- The interfaces of before, with proxies that implement them and arrays of
    markers; every JavaScript object has one element, and an array is shown by it. -/
def proxiedInterfaces : World Sample :=
  { interfaces with
    getClass := Sample.proxiedClass
    isArray := fun clazz => clazz == markerArray
    getComponentType := fun clazz => if clazz = markerArray then marker else clazz
    dimensions := fun clazz => if clazz = markerArray then 1 else 0
    dimensions_of_isArray := by
      have hne : marker ≠ markerArray := by decide
      intro clazz h
      have h : clazz = markerArray := by simpa using h
      simp [h, hne]
    getKeyString := fun _ _ => .ok (some (.int 1))
    getKeyInteger := fun _ _ => .ok (some (.string (jstr "element")))
    newArray := fun _ elements => (elements.head?.join).getD (.string [])
    methodObject_interfaces := by
      intro o m clazz hm hi hc
      cases o with
      | function => exact interfaces.methodObject_interfaces _ m clazz hm hi hc
      | functionOf => exact interfaces.methodObject_interfaces _ m clazz hm hi hc
      | int => cases hm
      | string => cases hm
      | object => cases hm
      | callback => cases hm
      | invocation => cases hm
    isInstance_Object := by
      have hne : (Class.Object != Class.Array) = true := by decide
      simp [interfaces, Sample.world, hne]
    not_Array := by simp [interfaces, Sample.world] }

/-- A coercion that makes a marker of anything. -/
def makesMarker : Coercion Sample := fun _ _ => .ok (some (.object marker 2))

theorem interfaceType_proxiedInterfaces {clazz : Class}
    (h : clazz = callback ∨ clazz = comparable) : InterfaceType proxiedInterfaces clazz where
  isInterface := by rcases h with rfl | rfl <;> decide
  notArray := by rcases h with rfl | rfl <;> decide
  proxy_isInstance := by
    have hself : proxiedInterfaces.isAssignableFrom clazz clazz = true := by
      rcases h with rfl | rfl <;> decide
    rintro (_ | _)
    · exact hself
    · exact hself

theorem javaScriptFunction_proxiedInterfaces :
    JavaScriptFunction proxiedInterfaces scriptFunction where
  isJavaScriptObject := by decide
  notWrapper := rfl
  notBoolean := by decide
  notNumber t := by cases t <;> decide
  notProxy := rfl

theorem unregistered_proxiedInterfaces {clazz : Class} (h : clazz = callback ∨ clazz = comparable) :
    Unregistered proxiedInterfaces convertsInt.JavaScriptToJavaCoercions clazz := by
  intro key hk
  obtain rfl := eq_int_of_registered hk
  rcases h with rfl | rfl <;> decide

end Example

end JSEngine.Coerce
