import JSEngine.Coerce.Functions

/-!
# The choice between overloads

`callMethod` and `construct` score a candidate by a thousand for each parameter that
there are arguments too many or too few, less up to seven for each position whose
types fit (JavaMethodObject.java, lines 86–103; JavaObject.java, lines 304–322).

* `searchConstructor_eq_argmin`: the loop over the constructors;
* `typeScore_le`: how much the types of a position count;
* `overloads_lexicographic_iff`: exactly when the parameter count decides first and
  the types break ties;
* `lexicographic_of_short`: it does with up to 142 positions;
* `types_outweigh_count`: and not with 143.
-/

namespace JSEngine.Coerce

open JSEngine.Java JSEngine.Memo JSEngine.Members JSEngine.Common

variable {V : Type*} (w : World V)

/-! ## The two criteria -/

/-- `|argument count − parameter count|`. -/
def countDistance (argTypes : List (JRef Class)) (parameterTypes : List Class) : ℕ :=
  ((argTypes.length : ℤ) - parameterTypes.length).natAbs

/-- What the types of all positions count. -/
def typeScore (argTypes : List (JRef Class)) (parameterTypes : List Class) : ℤ :=
  ((parameterTypes.zip argTypes).map fun p => argumentScore w p.1 p.2).sum

/-- `Math.abs(…) * 1000`, an `int`. -/
def countWeight (distance : ℕ) : ℤ := toInt (distance * 1000)

/-- The score of a parameter list. -/
def parameterScore (argTypes : List (JRef Class)) (parameterTypes : List Class) : ℤ :=
  countWeight (countDistance argTypes parameterTypes) - typeScore w argTypes parameterTypes

theorem score_eq_parameterScore (argTypes : List (JRef Class)) (method : Method) :
    score w argTypes method = parameterScore w argTypes method.parameterTypes := by
  unfold score parameterScore countWeight countDistance typeScore
  rw [Int.natCast_natAbs]

/-- A position counts between 0 and 7. -/
theorem argumentScore_mem (paramType : Class) (argType : JRef Class) :
    0 ≤ argumentScore w paramType argType ∧ argumentScore w paramType argType ≤ 7 := by
  unfold argumentScore
  split_ifs <;> omega

/-- The types count at most seven for each position that has both a parameter and
    an argument. -/
theorem typeScore_le (argTypes : List (JRef Class)) (parameterTypes : List Class) :
    0 ≤ typeScore w argTypes parameterTypes ∧
      typeScore w argTypes parameterTypes ≤ 7 * min parameterTypes.length argTypes.length := by
  unfold typeScore
  induction parameterTypes generalizing argTypes with
  | nil => simp
  | cons paramType parameterTypes ih =>
    cases argTypes with
    | nil => simp
    | cons argType argTypes =>
      obtain ⟨h1, h2⟩ := ih argTypes
      obtain ⟨h3, h4⟩ := argumentScore_mem w paramType argType
      simp only [List.zip_cons_cons, List.map_cons, List.sum_cons, List.length_cons]
      refine ⟨by omega, ?_⟩
      push_cast
      omega

/-! ## Constructors -/

/-- A `java.lang.reflect.Constructor`. -/
structure Constructor where
  declaringClass : Class
  parameterTypes : List Class
  isVarArgs : Bool := false
  deriving DecidableEq

instance : HashCode Constructor := ⟨fun constructor => stringHash constructor.declaringClass.name⟩

/-- An object in the key of `javaObjectConstructorCandidates`. -/
inductive ConstructorKey
  | constructor (constructor : Constructor)
  | clazz (clazz : Class) (identityHash : JInt)
  deriving DecidableEq

instance : HashCode ConstructorKey where
  hashCode
    | .constructor constructor => hashCode constructor
    | .clazz _ identityHash => identityHash

/-- The score of a constructor (JavaObject.java, lines 304–322). -/
def constructorScore (argTypes : List (JRef Class)) (constructor : Constructor) : ℤ :=
  parameterScore w argTypes constructor.parameterTypes

/-- The function the memo is filled from (JavaObject.java, lines 299–329). -/
def searchConstructor (constructors : List Constructor) (argTypes : List (JRef Class)) :
    JRef Constructor :=
  (constructors.foldl (keepBest (fun _ => true) (constructorScore w argTypes))
    (none, 2 ^ 31 - 1)).1

/-- The arguments `target, constructors, argTypes.toArray()`. -/
def constructorArgs (target : Class) (constructors : List Constructor)
    (argTypes : List (JRef Class)) : Args ConstructorKey :=
  .arrayFunc₂ (some (.clazz target (w.identityHash target)))
    (constructors.map fun constructor => some (.constructor constructor))
    (argTypes.map fun t => t.map fun clazz => .clazz clazz (w.identityHash clazz))

/-- `best` in `construct` (JavaObject.java, lines 299–330). -/
def bestConstructor (javaObjectConstructorCandidates : Store Constructor) (target : Class)
    (constructors : List Constructor) (argTypes : List (JRef Class)) : JRef Constructor :=
  (memoizeHash javaObjectConstructorCandidates (searchConstructor w constructors argTypes)
    (constructorArgs w target constructors argTypes).hash).1

/-- Every score is below the start value `Integer.MAX_VALUE`. -/
theorem parameterScore_lt (argTypes : List (JRef Class)) (parameterTypes : List Class) :
    parameterScore w argTypes parameterTypes < 2 ^ 31 - 1 := by
  have h := score_lt w argTypes
    { declaringClass := Class.Object, name := [], parameterTypes, returnType := Class.void }
  rw [score_eq_parameterScore] at h
  exact h

/-- The constructor chosen is the first of least score. -/
theorem searchConstructor_eq_argmin (constructors : List Constructor)
    (argTypes : List (JRef Class)) :
    searchConstructor w constructors argTypes =
      constructors.argmin (constructorScore w argTypes) := by
  have hlt : ∀ constructor, constructorScore w argTypes constructor < 2 ^ 31 - 1 :=
    fun constructor => parameterScore_lt w argTypes constructor.parameterTypes
  unfold searchConstructor
  rw [foldl_keepBest_eq_argmin hlt, List.filter_true]

/-! ## Specification -/

variable {α : Type*} [DecidableEq α]

omit [DecidableEq α] in
/-- The first of the candidates whose parameter count is closest to the argument
    count, and among these of greatest type score. -/
noncomputable def lexicographicBest (parameterTypes : α → List Class)
    (argTypes : List (JRef Class)) (candidates : List α) : JRef α :=
  lexFirst (fun a => countDistance argTypes (parameterTypes a))
    (fun a => typeScore w argTypes (parameterTypes a)) candidates

/-- No candidate with a parameter count further from the argument count than that of
    the lexicographic best makes up for it by its types. -/
def CountsDecide (parameterTypes : α → List Class) (argTypes : List (JRef Class))
    (candidates : List α) : Prop :=
  ∀ best ∈ lexicographicBest w parameterTypes argTypes candidates, ∀ a ∈ candidates,
    countDistance argTypes (parameterTypes best) < countDistance argTypes (parameterTypes a) →
      NotOutweighed (fun a => countDistance argTypes (parameterTypes a))
        (fun a => typeScore w argTypes (parameterTypes a)) countWeight candidates best a

/-- What the memo holds for the key is the lexicographic best; where it holds
    nothing, the counts decide. -/
def DecidesOrRemembers (parameterTypes : α → List Class) (argTypes : List (JRef Class))
    (candidates : List α) (entry : Option (JInt × JRef α)) : Prop :=
  match entry with
  | some entry => entry.2 = lexicographicBest w parameterTypes argTypes candidates
  | none => CountsDecide w parameterTypes argTypes candidates

/-! ## The choice is lexicographic -/

theorem argmin_eq_lexicographicBest_iff {parameterTypes : α → List Class}
    {argTypes : List (JRef Class)} {candidates : List α} :
    candidates.argmin (fun a => parameterScore w argTypes (parameterTypes a)) =
        lexicographicBest w parameterTypes argTypes candidates ↔
      CountsDecide w parameterTypes argTypes candidates :=
  argmin_packed_iff

omit [DecidableEq α] in
/-- The answer of a memo: what it holds for the hash, else what is computed. -/
theorem memoizeHash_fst (store : Store α) (value : JRef α) (hash : JInt) :
    (memoizeHash store value hash).1 = match store.node (· == hash) with
      | some entry => entry.2
      | none => value := by
  unfold memoizeHash HashMap.containsKey HashMap.find
  cases store.node (· == hash) with
  | some entry => rfl
  | none => rfl

/-- A memoised choice is the lexicographic best exactly where the memo remembers it
    or the counts decide. -/
theorem memoised_choice_iff {parameterTypes : α → List Class} {argTypes : List (JRef Class)}
    {candidates : List α} (store : Store α) (hash : JInt) :
    (memoizeHash store (candidates.argmin fun a => parameterScore w argTypes (parameterTypes a))
        hash).1 = lexicographicBest w parameterTypes argTypes candidates ↔
      DecidesOrRemembers w parameterTypes argTypes candidates (store.node (· == hash)) := by
  rw [memoizeHash_fst]
  unfold DecidesOrRemembers
  cases store.node (· == hash) with
  | some entry => rfl
  | none => exact argmin_eq_lexicographicBest_iff w

/-- **The overload is chosen lexicographically, exactly where counts decide.** For
    every list of methods or constructors, every name and all argument classes. -/
theorem overloads_lexicographic_iff :
    (∀ (memos : MethodMemos) (target : JString) (methods : List Method)
      (argTypes : List (JRef Class)),
      bestMethod w memos target methods argTypes =
          lexicographicBest w Method.parameterTypes argTypes
            (methods.filter (isCandidate target)) ↔
        DecidesOrRemembers w Method.parameterTypes argTypes
          (methods.filter (isCandidate target))
          (memos.javaObjectMethodCandidates.node
            (· == (candidateArgs w target methods argTypes).hash))) ∧
    ∀ (memo : Store Constructor) (target : Class) (constructors : List Constructor)
      (argTypes : List (JRef Class)),
      bestConstructor w memo target constructors argTypes =
          lexicographicBest w Constructor.parameterTypes argTypes constructors ↔
        DecidesOrRemembers w Constructor.parameterTypes argTypes constructors
          (memo.node (· == (constructorArgs w target constructors argTypes).hash)) := by
  constructor
  · intro memos target methods argTypes
    have hscore : score w argTypes = fun method => parameterScore w argTypes method.parameterTypes :=
      funext fun method => score_eq_parameterScore w argTypes method
    unfold bestMethod
    rw [searchBest_eq_argmin, hscore]
    exact memoised_choice_iff w _ _
  · intro memo target constructors argTypes
    unfold bestConstructor
    rw [searchConstructor_eq_argmin]
    exact memoised_choice_iff w _ _

/-- With up to 142 arguments the counts decide: the types of all positions count
    less than one parameter. -/
theorem lexicographic_of_short {parameterTypes : α → List Class} {argTypes : List (JRef Class)}
    {candidates : List α} (hargs : argTypes.length ≤ 142)
    (hparams : ∀ a ∈ candidates, (parameterTypes a).length ≤ 255) :
    CountsDecide w parameterTypes argTypes candidates := by
  rw [← argmin_eq_lexicographicBest_iff]
  refine @argmin_packed_of_bounded _ _ _ _ _ _ 994 ?_ ?_
  · intro a _
    have h := typeScore_le w argTypes (parameterTypes a)
    have hmin : min (parameterTypes a).length argTypes.length ≤ 142 := by omega
    exact ⟨h.1, by omega⟩
  · intro a ha b hb hlt
    have hweight : ∀ x ∈ candidates, countWeight (countDistance argTypes (parameterTypes x)) =
        countDistance argTypes (parameterTypes x) * 1000 := by
      intro x hx
      have hx := hparams x hx
      have hd : countDistance argTypes (parameterTypes x) ≤ 255 := by
        unfold countDistance
        omega
      unfold countWeight toInt
      exact Int.bmod_eq_of_le_mul_two (by omega) (by omega)
    rw [hweight a ha, hweight b hb]
    omega

/-! ## Many parameters -/

/-- On equal types and arguments every position counts the same. -/
theorem typeScore_replicate (n m : ℕ) (paramType : Class) (argType : JRef Class) :
    typeScore w (List.replicate n argType) (List.replicate m paramType) =
      min m n * argumentScore w paramType argType := by
  unfold typeScore
  rw [List.zip_replicate, List.map_replicate, List.sum_replicate]
  simp

section Example

/-- `void f(Marker, …)` with 143 parameters. -/
def takesMarkers : Method where
  declaringClass := implementation
  name := jstr "f"
  parameterTypes := List.replicate 143 callback
  returnType := Class.void

/-- `void f(Integer, …)` with 144 parameters. -/
def takesInts : Method where
  declaringClass := implementation
  name := jstr "f"
  parameterTypes := List.replicate 144 NumberType.int.boxed
  returnType := Class.void

/-- Called with 143 integers, the method of 144 integers is preferred to that of 143
    parameters: 143 positions that count seven outweigh the missing argument. -/
theorem types_outweigh_count :
    let argTypes := List.replicate 143 (some NumberType.int.boxed)
    bestMethod interfaces {} (jstr "f") [takesMarkers, takesInts] argTypes = some takesInts ∧
      lexicographicBest interfaces Method.parameterTypes argTypes
        ([takesMarkers, takesInts].filter (isCandidate (jstr "f"))) = some takesMarkers := by
  intro argTypes
  have hmarkers : typeScore interfaces argTypes takesMarkers.parameterTypes = 0 := by
    have h := typeScore_replicate interfaces 143 143 callback (some NumberType.int.boxed)
    have hpos : argumentScore interfaces callback (some NumberType.int.boxed) = 0 := by decide
    rw [hpos] at h
    exact h
  have hints : typeScore interfaces argTypes takesInts.parameterTypes = 1001 := by
    have h := typeScore_replicate interfaces 143 144 NumberType.int.boxed
      (some NumberType.int.boxed)
    have hpos : argumentScore interfaces NumberType.int.boxed (some NumberType.int.boxed) = 7 := by
      decide
    rw [hpos] at h
    exact h
  have hnear : countDistance argTypes takesMarkers.parameterTypes = 0 := by
    simp [argTypes, countDistance, takesMarkers]
  have hfar : countDistance argTypes takesInts.parameterTypes = 1 := by
    simp [argTypes, countDistance, takesInts]
  have hcandidates : [takesMarkers, takesInts].filter (isCandidate (jstr "f")) =
      [takesMarkers, takesInts] := by rfl
  constructor
  · have h1 : score interfaces argTypes takesMarkers = 0 := by
      rw [score_eq_parameterScore, parameterScore, hnear, hmarkers]
      decide
    have h2 : score interfaces argTypes takesInts = -1 := by
      rw [score_eq_parameterScore, parameterScore, hfar, hints]
      decide
    unfold bestMethod
    rw [memoizeHash_fst]
    show searchBest interfaces (jstr "f") [takesMarkers, takesInts] argTypes = some takesInts
    rw [searchBest_eq_argmin, hcandidates, List.argmin_cons, List.argmin_singleton]
    simp [h1, h2]
  · rw [hcandidates]
    refine mem_lexFirst_iff.mpr ⟨List.mem_cons_self, fun a ha => ?_⟩
    rcases List.mem_pair.mp ha with rfl | rfl
    · exact Or.inr ⟨rfl, Or.inr ⟨rfl, le_rfl⟩⟩
    · exact Or.inl (by rw [hnear, hfar]; decide)

end Example

end JSEngine.Coerce
