import JSEngine.Common.Selection
import JSEngine.Coerce.Routes

/-!
# Calls of Java methods from script

Model of `JavaMethodObject.callMethod`: the receiver that stands in for null and
for JavaScript objects, the choice of an overload by score, the memo of that
choice, the lookup of a method coercion, and the conversion of the arguments.

* `searchBest_eq_argmin`: the loop over the methods finds the first candidate of
  least score;
* `bestMethod_eq_some_iff`: what the memo makes of it.
-/

namespace JSEngine.Coerce

open JSEngine.Java JSEngine.Memo JSEngine.Members JSEngine.Common

variable {V : Type*} (w : World V)

/-! ## The choice of an overload -/

/-- `isNumberClass` (JSEngineContext.java, lines 51–54). -/
def isNumberClass (clazz : Class) : Bool :=
  [NumberType.byte, .short, .int, .long, .float, .double].any fun t =>
    clazz == t.primitive || clazz == t.boxed

/-- What an argument of class `argType`, null for null, takes off the score
    (lines 89–103). -/
def argumentScore (paramType : Class) (argType : JRef Class) : ℤ :=
  (if argType = some paramType then 4 else 0) +
    if isNumberClass paramType && argType.any isNumberClass then 3
    else if (paramType == NumberType.long.boxed || paramType == NumberType.long.primitive) &&
        argType == some Class.String then 2
    else if argType.all (w.isAssignableFrom paramType) then 1
    else 0

/-- The score of a method (lines 85–103). -/
def score (argTypes : List (JRef Class)) (method : Method) : ℤ :=
  toInt (|(argTypes.length : ℤ) - method.parameterTypes.length| * 1000) -
    ((method.parameterTypes.zip argTypes).map fun p => argumentScore w p.1 p.2).sum

/-- The method is called `target` in script (lines 79–83). -/
def isCandidate (target : JString) (method : Method) : Bool :=
  method.name == target || method.methodName == some target

/-- One turn of the loop, on `ret` and `bestScore` (lines 77–107). -/
def bestStep (target : JString) (argTypes : List (JRef Class)) (best : JRef Method × ℤ)
    (method : Method) : JRef Method × ℤ :=
  if isCandidate target method then
    if score w argTypes method < best.2 then (some method, score w argTypes method) else best
  else best

/-- The function the memo is filled from (lines 74–109). -/
def searchBest (target : JString) (methods : List Method) (argTypes : List (JRef Class)) :
    JRef Method :=
  (methods.foldl (bestStep w target argTypes) (none, 2 ^ 31 - 1)).1

/-- Every score is below the start value `Integer.MAX_VALUE`. -/
theorem score_lt (argTypes : List (JRef Class)) (method : Method) :
    score w argTypes method < 2 ^ 31 - 1 := by
  have hsum : 0 ≤ ((method.parameterTypes.zip argTypes).map fun p =>
      argumentScore w p.1 p.2).sum := by
    apply List.sum_nonneg
    intro x hx
    obtain ⟨p, -, rfl⟩ := List.mem_map.mp hx
    unfold argumentScore
    split_ifs <;> norm_num
  have hle : toInt (|(argTypes.length : ℤ) - method.parameterTypes.length| * 1000) ≤ 2 ^ 31 - 2 := by
    unfold toInt
    generalize |(argTypes.length : ℤ) - method.parameterTypes.length| = d
    have hlt := Int.bmod_lt (x := d * 1000) (m := 2 ^ 32) (by norm_num)
    have heven : 2 ∣ Int.bmod (d * 1000) (2 ^ 32) := by
      simp only [Int.bmod]
      split_ifs <;> omega
    omega
  unfold score
  omega

/-- **The overload chosen is the first candidate of least score.** -/
theorem searchBest_eq_argmin (target : JString) (methods : List Method)
    (argTypes : List (JRef Class)) :
    searchBest w target methods argTypes =
      (methods.filter (isCandidate target)).argmin (score w argTypes) := by
  have hstep : bestStep w target argTypes = keepBest (isCandidate target) (score w argTypes) := rfl
  unfold searchBest
  rw [hstep]
  exact foldl_keepBest_eq_argmin (score_lt w argTypes) methods

/-! ## The memo of the choice -/

/-- An object in the key of `javaObjectMethodCandidates`. -/
inductive CandidateKey
  | name (s : JString)
  | method (m : Method)
  | clazz (clazz : Class) (identityHash : JInt)
  deriving DecidableEq

instance : HashCode CandidateKey where
  hashCode
    | .name s => hashCode s
    | .method m => hashCode m
    | .clazz _ identityHash => identityHash

/-- The arguments `target, thisMethods, argTypes.toArray()`. -/
def candidateArgs (target : JString) (methods : List Method) (argTypes : List (JRef Class)) :
    Args CandidateKey :=
  .arrayFunc₂ (some (.name target)) (methods.map fun m => some (.method m))
    (argTypes.map fun t => t.map fun clazz => .clazz clazz (w.identityHash clazz))

/-- The memos a call of a method asks; both are static. -/
structure MethodMemos where
  javaObjectMethodCandidates : Store Method := {}
  interfaceMethods : Store Method := {}

/-- `best` (lines 74–109). -/
def bestMethod (memos : MethodMemos) (target : JString) (methods : List Method)
    (argTypes : List (JRef Class)) : JRef Method :=
  (memoizeHash memos.javaObjectMethodCandidates (searchBest w target methods argTypes)
    (candidateArgs w target methods argTypes).hash).1

/-- The memo holds the method for this hash, or holds none and the method is the
    first candidate of least score. -/
def Chosen (memos : MethodMemos) (target : JString) (methods : List Method)
    (argTypes : List (JRef Class)) (method : Method) : Prop :=
  match memos.javaObjectMethodCandidates.node
      (· == (candidateArgs w target methods argTypes).hash) with
  | some entry => entry.2 = some method
  | none => method ∈ (methods.filter (isCandidate target)).argmin (score w argTypes)

theorem bestMethod_eq_some_iff {memos : MethodMemos} {target : JString} {methods : List Method}
    {argTypes : List (JRef Class)} {method : Method} :
    bestMethod w memos target methods argTypes = some method ↔
      Chosen w memos target methods argTypes method := by
  unfold bestMethod Chosen memoizeHash HashMap.containsKey HashMap.find
  cases memos.javaObjectMethodCandidates.node
      (· == (candidateArgs w target methods argTypes).hash) with
  | some entry => rfl
  | none =>
    rw [if_neg (by simp), searchBest_eq_argmin]
    rfl

/-! ## `callMethod` -/

/-- Why a reflective call does not return. -/
inductive InvokeFailure
  | illegalAccess (e : Throwable)
  /-- the reflection itself throws -/
  | runtime (e : Throwable)
  /-- the method throws -/
  | target (e : Throwable)

/-- `methodCoercion.invoke(interfaceMethod, thiz, args)`. -/
abbrev MethodCoercion (V : Type*) :=
  JRef Method → JRef V → List (JRef V) → Except InvokeFailure (JRef V)

/-- What a call has come to when it leaves the library. -/
inductive Selected (V : Type*)
  | coercion (coercion : MethodCoercion V) (interfaceMethod : JRef Method) (thiz : JRef V)
      (args : List (JRef V))
  /-- `best.invoke(thiz, coerced)` -/
  | invoke (best : Method) (thiz : JRef V) (coerced : List (JRef V))

/-- A string of characters of the basic multilingual plane. -/
def text (s : JString) : String := String.ofList (s.map fun c => Char.ofNat c.toNat)

def canNotCall (target : JString) : Throwable :=
  ⟨"java.lang.UnsupportedOperationException", "can not call " ++ text target⟩

/-- `new RuntimeException(e)`, or another exception with that cause: the message is
    `e.toString()`. -/
def causedBy (className : String) (e : Throwable) : Throwable :=
  ⟨className, if e.message = "" then e.className else e.className ++ ": " ++ e.message⟩

variable [DecidableEq V] (c : JSEngineContext V)

/-- The receiver: null and JavaScript objects stand for the object the method was
    read from (lines 61–65). -/
def receiver (m : MethodObject V) (thiz : JRef V) : Except Throwable (JRef V) :=
  match if thiz.all w.isJavaScriptObject then m.originalThis else thiz with
  | none => .error (canNotCall m.target)
  | some thiz => coerceJavaScriptToJava w c (some Class.Object) (some thiz)

/-- `getMethods`, also where it is overridden (lines 38–48; JSEngineContext.java,
    lines 167–170). -/
def getMethodsOf (m : MethodObject V) (thiz : JRef V) : Except Throwable (List Method) :=
  match m.methodsOf, thiz with
  | some clazz, _ => .ok (w.getMethods clazz)
  | none, none => .error nullPointerException
  | none, some thiz =>
    .ok (w.getMethods (w.getClass thiz) ++ ((w.asClass thiz).map w.getMethods).getD [])

/-- The classes of the arguments (lines 68–73). -/
def argTypes (args : List (JRef V)) : List (JRef Class) := args.map fun o => o.map w.getClass

/-- The argument list of the reflective call (lines 116–133). -/
def coerceParameters (best : Method) (args : List (JRef V)) : Except Throwable (List (JRef V)) :=
  let n := numParameters w best
  (pass (fun p => coerceJavaScriptToJava w c (some p.1) p.2)
    (best.parameterTypes.take n |>.zip (args ++ List.replicate n none))).bind fun coerced =>
  if w.isVarArgs best then
    match best.parameterTypes[n]? with
    | none => .error ⟨"java.lang.ArrayIndexOutOfBoundsException", ""⟩
    | some type =>
      let varargType := w.getComponentType type
      (pass (coerceJavaScriptToJava w c (some varargType)) (args.drop n)).bind fun varargs =>
      (w.toArray varargType varargs).map fun array => coerced ++ [some array]
  else .ok coerced

/-- `callMethod` up to the call that leaves the library (lines 59–135). -/
def JavaMethodObject.select (coercions : MethodCoercions (MethodCoercion V)) (memos : MethodMemos)
    (m : MethodObject V) (thiz : JRef V) (args : List (JRef V)) : Except Throwable (Selected V) :=
  (receiver w c m thiz).bind fun thiz =>
  (getMethodsOf w m thiz).bind fun thisMethods =>
  match bestMethod w memos m.target thisMethods (argTypes w args) with
  | none => .error (canNotCall m.target)
  | some best =>
    let interfaceMethod := (getInterfaceMethod w.toReflection memos.interfaceMethods best).1
    match coercions.get interfaceMethod with
    | some coercion => .ok (.coercion coercion interfaceMethod thiz args)
    | none => (coerceParameters w c best args).map fun coerced => .invoke best thiz coerced

/-- The exceptions as the `catch` clauses rethrow them (lines 139–151). -/
def rethrown : InvokeFailure → Throwable
  | .runtime e => e
  | .illegalAccess e => causedBy "java.lang.RuntimeException" e
  | .target e => if w.isUnchecked e then e else causedBy "java.lang.RuntimeException" e

/-- `callMethod` (lines 59–152), where `invoke` is what the program's methods do. -/
def JavaMethodObject.callMethod
    (invoke : Method → JRef V → List (JRef V) → Except InvokeFailure (JRef V))
    (coercions : MethodCoercions (MethodCoercion V)) (memos : MethodMemos) (m : MethodObject V)
    (thiz : JRef V) (args : List (JRef V)) : Except Throwable (JRef V) :=
  (JavaMethodObject.select w c coercions memos m thiz args).bind fun
    | .coercion coercion interfaceMethod thiz args =>
      (coercion interfaceMethod thiz args).mapError (rethrown w)
    | .invoke best thiz coerced =>
      ((invoke best thiz coerced).mapError (rethrown w)).bind (coerceJavaToJavaScript w c)

end JSEngine.Coerce
