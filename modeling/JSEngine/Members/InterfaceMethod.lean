import JSEngine.Members.Reflect

/-!
# The interface method of a method

The search that `JSEngineContext.getInterfaceMethod` memoises, against what it is
for: the interface method a method implements.

Specification (`Implements`): the Java notion, an instance method of one name and
one list of parameter types, declared by an interface that the declaring class
has directly, through a superclass or through a super-interface. The search asks
only the interfaces the class lists itself, and takes the first method whose
types are assignable.

* `searchInterfaceMethod_eq_find`: the nested loops as one search;
* `right_searchInterfaceMethod_iff`: the search answers right for a method
  exactly where the interfaces its class lists are `WellShaped` for it.
-/

namespace JSEngine.Members

open JSEngine.Java

variable (w : Reflection)

/-! ## Model -/

/-- The tests of the inner loop (lines 317–333), for a method `m` of an interface:
    the types of `m` are assignable from those of `method`. -/
def accepts (method m : Method) : Bool :=
  m.parameterTypes.length == method.parameterTypes.length && m.name == method.name &&
    w.isAssignableFrom m.returnType method.returnType &&
    (m.parameterTypes.zip method.parameterTypes).all fun p => w.isAssignableFrom p.1 p.2

/-- The function `getInterfaceMethod` memoises (lines 311–337). -/
def searchInterfaceMethod (method : Method) : JRef Method :=
  if w.isInterface method.declaringClass then some method
  else (w.getInterfaces method.declaringClass).findSome? fun iface =>
    (w.getDeclaredMethods iface).find? (accepts w method)

/-! ## Specification -/

/-- The interfaces of a class: those it lists, those of its superclass, and
    their super-interfaces. -/
inductive SuperInterface : Class → Class → Prop
  | direct {c i : Class} : i ∈ w.getInterfaces c → SuperInterface c i
  | ofInterface {c j i : Class} : j ∈ w.getInterfaces c → SuperInterface j i → SuperInterface c i
  | ofSuperclass {c b i : Class} : w.getSuperclass c = some b → SuperInterface b i →
      SuperInterface c i

/-- Static and private methods neither implement nor are implemented. -/
def Method.overridable (m : Method) : Bool := !m.isStatic && !m.isPrivate

/-- `m` has the name and the parameter types of `method`. -/
def SameSignature (method m : Method) : Prop :=
  m.name = method.name ∧ m.parameterTypes = method.parameterTypes

/-- The class method `method` implements the interface method `m`. -/
structure Implements (method m : Method) : Prop where
  ofClass : w.isInterface method.declaringClass = false
  overrides : method.overridable = true
  overridden : m.overridable = true
  signature : SameSignature method m
  declared : ∃ i, SuperInterface w method.declaringClass i ∧ m ∈ w.getDeclaredMethods i

/-- `r` is the interface method of `method`: itself if an interface declares it,
    else one it implements, null if there is none. -/
def IsInterfaceMethodOf (method : Method) (r : JRef Method) : Prop :=
  if w.isInterface method.declaringClass then r = some method
  else (∀ m, r = some m → Implements w method m) ∧ (r = none → ∀ m, ¬Implements w method m)

/-! ## The search -/

/-- The methods of the interfaces that the declaring class lists, in the order
    in which the search visits them. -/
def listedMethods (method : Method) : List Method :=
  (w.getInterfaces method.declaringClass).flatMap w.getDeclaredMethods

/-- A method the search accepts and `method` implements. -/
def Own (method m : Method) : Prop :=
  accepts w method m = true ∧ SameSignature method m ∧ m.overridable = true ∧
    method.overridable = true

instance (method m : Method) : Decidable (Own w method m) := by
  unfold Own SameSignature
  infer_instance

/-- The interfaces listed by the declaring class fit `method`: among their
    methods none that merely accepts it comes before one that it implements, and
    if it implements an interface method at all it implements a listed one. -/
structure WellShaped (method : Method) : Prop where
  ordered : ∀ before m after, listedMethods w method = before ++ m :: after →
    accepts w method m = true → ¬Own w method m → ∃ m' ∈ before, Own w method m'
  listed : (∃ m, Implements w method m) → ∃ m ∈ listedMethods w method, Own w method m

theorem searchInterfaceMethod_of_interface {method : Method}
    (h : w.isInterface method.declaringClass = true) :
    searchInterfaceMethod w method = some method := by
  unfold searchInterfaceMethod
  rw [if_pos h]

/-- The nested loops visit the listed methods in turn. -/
theorem searchInterfaceMethod_eq_find {method : Method}
    (h : w.isInterface method.declaringClass = false) :
    searchInterfaceMethod w method = (listedMethods w method).find? (accepts w method) := by
  unfold searchInterfaceMethod listedMethods
  rw [if_neg (by simp [h]), List.find?_flatMap]

/-- For a method of a listed interface that the search accepts, implementing it
    is a matter of the signature. -/
theorem implements_iff_own {method m : Method} (h : w.isInterface method.declaringClass = false)
    (hm : m ∈ listedMethods w method) (ha : accepts w method m = true) :
    Implements w method m ↔ Own w method m := by
  constructor
  · intro hi
    exact ⟨ha, hi.signature, hi.overridden, hi.overrides⟩
  · intro ho
    obtain ⟨i, hi, hmi⟩ := List.mem_flatMap.mp hm
    obtain ⟨-, hsig, hm', hmethod⟩ := ho
    exact ⟨h, hmethod, hm', hsig, i, .direct hi, hmi⟩

/-- In a well-shaped class the search finds the first own method. -/
theorem WellShaped.find_eq {method : Method} (h : WellShaped w method) {m : Method}
    (hf : (listedMethods w method).find? (accepts w method) = some m) : Own w method m := by
  obtain ⟨ha, before, after, hlist, hbefore⟩ := List.find?_eq_some_iff_append.mp hf
  by_contra hno
  obtain ⟨m', hm', hown⟩ := h.ordered before m after hlist ha hno
  have hacc : (!accepts w method m') = true := hbefore m' hm'
  rw [hown.1] at hacc
  cases hacc

/-- **Exactly when the search is right**, for a method declared by a class. -/
theorem right_searchInterfaceMethod_iff {method : Method}
    (h : w.isInterface method.declaringClass = false) :
    IsInterfaceMethodOf w method (searchInterfaceMethod w method) ↔ WellShaped w method := by
  rw [searchInterfaceMethod_eq_find w h]
  unfold IsInterfaceMethodOf
  rw [if_neg (by simp [h])]
  constructor
  · intro ⟨hsome, hnone⟩
    cases hf : (listedMethods w method).find? (accepts w method) with
    | none =>
      have hno : ∀ m ∈ listedMethods w method, ¬accepts w method m = true := by
        simpa using hf
      refine ⟨?_, fun ⟨m, hm⟩ => absurd hm (hnone hf m)⟩
      intro before m after hlist ha
      have hm : m ∈ listedMethods w method := by simp [hlist]
      exact absurd ha (hno m hm)
    | some m₀ =>
      obtain ⟨ha₀, before₀, after₀, hlist₀, hbefore₀⟩ := List.find?_eq_some_iff_append.mp hf
      have hm₀ : m₀ ∈ listedMethods w method := by simp [hlist₀]
      have hown₀ : Own w method m₀ := (implements_iff_own w h hm₀ ha₀).mp (hsome m₀ hf)
      refine ⟨?_, fun _ => ⟨m₀, hm₀, hown₀⟩⟩
      intro before m after hlist ha hno
      -- an accepted method that is not `m₀` comes after `m₀`
      refine ⟨m₀, ?_, hown₀⟩
      rw [hlist₀] at hlist
      rcases List.append_eq_append_iff.mp hlist with ⟨as, hbefore, hrest⟩ | ⟨as, hbefore, hrest⟩
      · rw [hbefore]
        cases as with
        | nil =>
          obtain ⟨rfl, -⟩ : m₀ = m ∧ after₀ = after := by simpa using hrest
          exact absurd hown₀ hno
        | cons a as =>
          obtain ⟨rfl, -⟩ : m₀ = a ∧ after₀ = as ++ m :: after := by simpa using hrest
          simp
      · cases as with
        | nil =>
          obtain ⟨rfl, -⟩ : m = m₀ ∧ after = after₀ := by simpa using hrest
          exact absurd hown₀ hno
        | cons a as =>
          obtain ⟨rfl, -⟩ : m = a ∧ after = as ++ m₀ :: after₀ := by simpa using hrest
          have hacc : (!accepts w method m) = true := hbefore₀ m (by simp [hbefore])
          rw [ha] at hacc
          cases hacc
  · intro hw
    constructor
    · intro m hf
      have hm : m ∈ listedMethods w method := List.mem_of_find?_eq_some hf
      have ha : accepts w method m = true := List.find?_some hf
      exact (implements_iff_own w h hm ha).mpr (hw.find_eq w hf)
    · intro hf m hm
      obtain ⟨m', hm', hown⟩ := hw.listed ⟨m, hm⟩
      exact absurd hown.1 (List.find?_eq_none.mp hf m' hm')

end JSEngine.Members
