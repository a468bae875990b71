import JSEngine.Common.Cache
import JSEngine.Java.HashMap

/-!
# `Memoize`

Model of `Memoize.java`. The store is a map from `Integer` to results; a call
computes one `int` from its arguments and asks the store for it. The arguments
themselves are not kept.

* `memoizeHash_serve`: the store is the cache of `Common.Cache`, with the
  arguments that filled each slot forgotten.
* `memoize_transparent_iff`: over a sequence of calls from an empty store, every
  call returns its own value, and no call is answered by the computation of a
  call with other arguments, exactly where no two different argument tuples of
  the sequence have one hash.
* `hash_withArray_same`: the hash of `(o, {o})` is 1 for every `o`, since the
  hash of `arg0` and that of the first array element are xored unrotated.
-/

namespace JSEngine.Memo

open JSEngine.Java JSEngine.Common

variable {O V : Type*} [HashCode O]

/-- The loop of `Memoize.hashCode` (lines 28–34): the accumulator and the index. -/
def hashLoop (ret : JInt) (i : ℕ) : List (JRef O) → JInt
  | [] => ret
  | o :: os => hashLoop (ret ^^^ rotateLeft (nullableHash o) i) (i + 1) os

/-- `Memoize.hashCode(Object... objects)` (lines 28–36). -/
def hashObjects (objects : List (JRef O)) : JInt :=
  hashLoop 0 0 objects ^^^ BitVec.ofNat 32 objects.length

/-- The argument tuples of the public overloads of `memoize`. -/
inductive Args (O : Type*)
  /-- `memoize(func, Object... args)` (lines 39–42) -/
  | varargs (args : List (JRef O))
  /-- `memoize(func, arg0, args)` (lines 48–52) -/
  | withArray (arg0 : JRef O) (args : List (JRef O))
  /-- `memoize(func, arg0, args0, args1)` (lines 54–59) -/
  | withArrays (arg0 : JRef O) (args0 args1 : List (JRef O))
  /-- `memoize(MemoizeArrayFunc, arg0, args)` (lines 73–77) -/
  | arrayFunc (arg0 : JRef O) (args : List (JRef O))
  /-- `memoize(MemoizeArrayFunc, arg0, args0, args1)` (lines 79–84) -/
  | arrayFunc₂ (arg0 : JRef O) (args0 args1 : List (JRef O))
  deriving DecidableEq

/-- The `int` each overload computes. -/
def Args.hash : Args O → JInt
  | .varargs args => hashObjects args
  | .withArray arg0 args | .arrayFunc arg0 args => hashObjects args ^^^ nullableHash arg0
  | .withArrays arg0 args0 args1 | .arrayFunc₂ arg0 args0 args1 =>
    hashObjects args0 ^^^ hashObjects args1 ^^^ nullableHash arg0

/-- `Memoize.store`. -/
abbrev Store (V : Type*) := HashMap JInt V

/-- The private `memoize(func, hash)` (lines 61–69, and 86–93 for a
    `MemoizeArrayFunc`); `value` is what `func.process` yields. -/
def memoizeHash (store : Store V) (value : JRef V) (hash : JInt) : JRef V × Store V :=
  if store.containsKey (· == hash) then (store.find (· == hash), store)
  else (value, (store.put (· == hash) hash value).2)

/-- The public overloads of `memoize`, for a `func` that computes `f` of the
    call's arguments. -/
def memoize (f : Args O → JRef V) (store : Store V) (args : Args O) : JRef V × Store V :=
  memoizeHash store (f args) args.hash

/-- The results of a sequence of calls. -/
def memoizeAll (f : Args O → JRef V) : Store V → List (Args O) → List (JRef V)
  | _, [] => []
  | store, args :: calls =>
    let r := memoize f store args
    r.1 :: memoizeAll f r.2 calls

/-! ## The store is a cache -/

/-- The store holds, under each hash, the value of the call that filled it. -/
def Holds {C : Type*} (f : C → JRef V) (store : Store V) (t : Cache JInt C) : Prop :=
  ∀ k, (store.containsKey (· == k) = true ↔ (t k).isSome = true) ∧
    store.find (· == k) = (t k).bind f

theorem holds_empty {C : Type*} (f : C → JRef V) : Holds f ⟨[]⟩ (Cache.empty : Cache JInt C) :=
  fun _ => ⟨by simp [HashMap.containsKey, HashMap.node, Cache.empty], rfl⟩

/-- **One call.** `memoize(func, hash)` answers as the cache does and leaves the
    store of the new cache. -/
theorem memoizeHash_serve {C : Type*} {f : C → JRef V} {store : Store V} {t : Cache JInt C}
    (h : C → JInt) (hst : Holds f store t) (c : C) :
    (memoizeHash store (f c) (h c)).1 = f (Cache.serve h t c).1 ∧
      Holds f (memoizeHash store (f c) (h c)).2 (Cache.serve h t c).2 := by
  obtain ⟨hcontains, hfind⟩ := hst (h c)
  unfold memoizeHash
  cases ht : t (h c) with
  | some d =>
    rw [ht] at hcontains hfind
    rw [Cache.serve_of_some h ht, if_pos (hcontains.mpr rfl)]
    exact ⟨hfind, hst⟩
  | none =>
    rw [ht] at hcontains
    rw [Cache.serve_of_none h ht, if_neg (by simp [hcontains])]
    refine ⟨rfl, fun k => ?_⟩
    dsimp only
    rw [HashMap.containsKey_put]
    by_cases hk : k = h c
    · subst hk
      refine ⟨by simp [hcontains], ?_⟩
      rw [HashMap.find_put_self (by simp), Function.update_self]
      rfl
    · have hk' : (h c == k) = false := by simpa using fun e => hk e.symm
      have hpq : ∀ e : JInt, (e == h c) = true → (e == k) = false := by
        intro e he
        simpa [eq_of_beq he] using hk'
      rw [Function.update_of_ne hk, HashMap.find_put_other (q := (· == k)) hk' hpq]
      exact ⟨by simp [hk', (hst k).1], (hst k).2⟩

/-- A second call of one hash is answered as the first was. -/
theorem memoizeHash_again (store : Store V) (value value' : JRef V) (hash : JInt) :
    (memoizeHash (memoizeHash store value hash).2 value' hash).1 =
      (memoizeHash store value hash).1 := by
  unfold memoizeHash
  by_cases hc : store.containsKey (· == hash) = true
  · rw [if_pos hc]
    exact congrArg Prod.fst (if_pos hc)
  · rw [if_neg hc]
    dsimp only
    rw [if_pos (by rw [HashMap.containsKey_put]; simp)]
    exact HashMap.find_put_self (by simp) ..

theorem memoizeAll_serveAll (f : Args O → JRef V) (calls : List (Args O)) (store : Store V)
    (t : Cache JInt (Args O)) (hst : Holds f store t) :
    memoizeAll f store calls = (Cache.serveAll Args.hash t calls).map f := by
  induction calls generalizing store t with
  | nil => rfl
  | cons args calls ih =>
    obtain ⟨h1, h2⟩ := memoizeHash_serve Args.hash hst args
    simp only [memoizeAll, memoize, Cache.serveAll, List.map_cons]
    rw [h1, ih _ _ h2]

/-- A sequence of calls on a new store returns the calls' own values exactly
    where calls of one hash have one value. -/
theorem memoizeAll_eq_map_iff (f : Args O → JRef V) (calls : List (Args O)) :
    memoizeAll f ⟨[]⟩ calls = calls.map f ↔
      ∀ a ∈ calls, ∀ b ∈ calls, a.hash = b.hash → f a = f b := by
  rw [memoizeAll_serveAll f calls _ _ (holds_empty f)]
  exact Cache.serveAll_map_eq_iff Args.hash f calls

/-- Which call's computation each call of the sequence is answered by: the
    results where every `func` returns its own argument tuple. -/
def computedFor (calls : List (Args O)) : List (JRef (Args O)) := memoizeAll some ⟨[]⟩ calls

/-- **Exactly when `Memoize` is transparent.** Every call of a sequence returns
    the value `func` yields for its own arguments, and is answered by its own
    computation or one with equal arguments, if and only if different argument
    tuples of the sequence have different hashes. -/
theorem memoize_transparent_iff (f : Args O → JRef V) (calls : List (Args O)) :
    (memoizeAll f ⟨[]⟩ calls = calls.map f ∧ computedFor calls = calls.map some) ↔
      ∀ a ∈ calls, ∀ b ∈ calls, a ≠ b → a.hash ≠ b.hash := by
  unfold computedFor
  rw [memoizeAll_eq_map_iff, memoizeAll_eq_map_iff]
  constructor
  · rintro ⟨-, h⟩ a ha b hb hne hab
    exact hne (Option.some.inj (h a ha b hb hab))
  · intro h
    have heq : ∀ a ∈ calls, ∀ b ∈ calls, a.hash = b.hash → a = b :=
      fun a ha b hb hab => by_contra fun hne => h a ha b hb hne hab
    exact ⟨fun a ha b hb hab => by rw [heq a ha b hb hab],
      fun a ha b hb hab => by rw [heq a ha b hb hab]⟩

/-- `arg0` cancels against an equal first element of the array. -/
theorem hash_withArray_same (o : JRef O) : (Args.withArray o [o]).hash = 1 := by
  have hrot : rotateLeft (nullableHash o) 0 = nullableHash o := by
    simp [rotateLeft, BitVec.rotateLeft, BitVec.rotateLeftAux, BitVec.ushiftRight_eq_zero]
  have hloop : hashObjects [o] = nullableHash o ^^^ 1#32 := by
    simp [hashObjects, hashLoop, hrot]
  calc hashObjects [o] ^^^ nullableHash o
      = 1#32 ^^^ nullableHash o ^^^ nullableHash o := by rw [hloop, BitVec.xor_comm _ 1#32]
    _ = 1#32 := by rw [BitVec.xor_assoc, BitVec.xor_self, BitVec.xor_zero]

/-- Two calls whose `func` returns its first argument: `"BB"` is answered with
    the value computed for `"Aa"`. -/
theorem memoize_shares_colliding_strings :
    let f : Args JString → JRef JString := fun
      | .varargs (o :: _) => o
      | _ => none
    let calls : List (Args JString) := [.varargs [some (jstr "Aa")], .varargs [some (jstr "BB")]]
    calls.map f = [some (jstr "Aa"), some (jstr "BB")] ∧
      memoizeAll f ⟨[]⟩ calls = [some (jstr "Aa"), some (jstr "Aa")] ∧
      computedFor calls =
        [some (.varargs [some (jstr "Aa")]), some (.varargs [some (jstr "Aa")])] := by
  decide

end JSEngine.Memo
