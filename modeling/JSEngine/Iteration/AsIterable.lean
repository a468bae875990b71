import JSEngine.Coerce.Tables
import JSEngine.Common.Machine

/-!
# `JSValue.asIterable`

`asIterable` (JSValue.java:63-92) takes the iterator of a JavaScript object and its `next`
function once; each Java `Iterator` that the `Iterable` gives asks that one iterator, and
keeps the last result object until `next` has returned its value. `done` is cast to
`Boolean`.

`forOfMachine` is what the calls should answer: each `Iterator` is a `for-of` loop of its
own over the object.

Main results:

* `elements_of_loop`: the elements that an `Iterator` of `forOfMachine` yields are the values
  that the loop sees, in order, coerced;
* `iteration_refines`: in every run in which the first `Iterator` only is asked, and each
  result object that it finds has a Boolean `done`, the answers are those of `forOfMachine`.
-/

namespace JSEngine.Iteration

open JSEngine.Java JSEngine.Common JSEngine.Coerce

/-! ## Model -/

/-- A result object of the iteration protocol, as Java reads it; what it omits is null. -/
structure Result (V : Type*) where
  done : JRef V := none
  value : JRef V := none
  deriving DecidableEq

/-- The script and the coercion. -/
structure Script (V : Type*) where
  /-- what the `i`-th iterator of the object answers the `k`-th call of its `next` -/
  answers : ℕ → ℕ → Except Throwable (Result V)
  /-- the value of a `Boolean` -/
  asBoolean : V → Option Bool
  /-- the truth value in JavaScript -/
  toBoolean : V → Bool
  toBoolean_eq : ∀ v b, asBoolean v = some b → toBoolean v = b
  /-- `coerceJavaScriptToJava(clazz, value)` -/
  coerce : JRef V → Except Throwable (JRef V)

inductive Action
  /-- `iterable.iterator()` -/
  | iterator
  /-- `hasNext()` of the `i`-th `Iterator` -/
  | hasNext (i : ℕ)
  /-- `next()` of it -/
  | next (i : ℕ)
  deriving DecidableEq

inductive Answer (V : Type*)
  | iterator
  | hasNext (b : Bool)
  | element (t : JRef V)
  | thrown (e : Throwable)
  deriving DecidableEq

variable {V : Type*}

/-- How often the captured `next` has been called, whether it has thrown, how many
    `Iterator`s there are, and the `current` of each. -/
structure State (V : Type*) where
  calls : ℕ
  failed : Bool
  iterators : ℕ
  current : ℕ → JRef (Result V)

/-- The exception at the end of the iteration. -/
def noSuchElement : Throwable := ⟨"java.util.NoSuchElementException", "end of iterator"⟩

section

variable (script : Script V)

/-- `maybeNext` (lines 71-75): `current` after it. -/
def maybeNext (s : State V) (i : ℕ) : Except Throwable (Result V) × State V :=
  match s.current i with
  | some current => (.ok current, s)
  | none =>
    match script.answers 0 s.calls with
    | .error e => (.error e, { s with calls := s.calls + 1, failed := true })
    | .ok current =>
      (.ok current, { s with
        calls := s.calls + 1
        current := Function.update s.current i (some current) })

/-- `(Boolean)current.get("done").getObject()`, unboxed. -/
def doneOf (current : Result V) : Except Throwable Bool :=
  match current.done with
  | none => .error nullPointerException
  | some v =>
    match script.asBoolean v with
    | some b => .ok b
    | none => .error classCastException

/-- `hasNext` (lines 77-81). -/
def hasNext (s : State V) (i : ℕ) : State V × Answer V :=
  match maybeNext script s i with
  | (.error e, s) => (s, .thrown e)
  | (.ok current, s) =>
    match doneOf script current with
    | .error e => (s, .thrown e)
    | .ok done => (s, .hasNext !done)

/-- `next` (lines 83-91). -/
def next (s : State V) (i : ℕ) : State V × Answer V :=
  match maybeNext script s i with
  | (.error e, s) => (s, .thrown e)
  | (.ok current, s) =>
    match doneOf script current with
    | .error e => (s, .thrown e)
    | .ok true => (s, .thrown noSuchElement)
    | .ok false =>
      match script.coerce current.value with
      | .error e => (s, .thrown e)
      | .ok ret => ({ s with current := Function.update s.current i none }, .element ret)

def step (s : State V) : Action → Option (State V × List (ℕ × Answer V))
  | .iterator => some ({ s with iterators := s.iterators + 1 }, [(s.iterators, .iterator)])
  | .hasNext i =>
    if i < s.iterators then
      let r := hasNext script s i
      some (r.1, [(i, r.2)])
    else none
  | .next i =>
    if i < s.iterators then
      let r := next script s i
      some (r.1, [(i, r.2)])
    else none

/-- The `Iterable` of `asIterable`. The answers come with the `Iterator` they are of. -/
def iterableMachine : Machine (State V) Action (ℕ × Answer V) where
  init := ⟨0, false, 0, fun _ => none⟩
  step := step script

/-! ## Specification -/

/-- Where the loop of each `Iterator` is: the number of values it has seen, or none after an
    exception of the script, which ends the loop. -/
structure Loops where
  iterators : ℕ
  position : ℕ → Option ℕ

/-- The truth value of `done`, also where it is omitted. -/
def isDone (r : Result V) : Bool := r.done.any script.toBoolean

/-- No element is consumed. -/
def Loops.hasNext (s : Loops) (i : ℕ) : Loops × Answer V :=
  match s.position i with
  | none => (s, .hasNext false)
  | some p =>
    match script.answers i p with
    | .error e => ({ s with position := Function.update s.position i none }, .thrown e)
    | .ok r => (s, .hasNext !isDone script r)

/-- A value that cannot be coerced is not consumed. -/
def Loops.next (s : Loops) (i : ℕ) : Loops × Answer V :=
  match s.position i with
  | none => (s, .thrown noSuchElement)
  | some p =>
    match script.answers i p with
    | .error e => ({ s with position := Function.update s.position i none }, .thrown e)
    | .ok r =>
      if isDone script r then (s, .thrown noSuchElement)
      else
        match script.coerce r.value with
        | .error e => (s, .thrown e)
        | .ok ret =>
          ({ s with position := Function.update s.position i (some (p + 1)) }, .element ret)

/-- Each `Iterator` is a loop over an iterator of its own. -/
def forOfMachine : Machine Loops Action (ℕ × Answer V) where
  init := ⟨0, fun _ => some 0⟩
  step s
    | .iterator => some ({ s with iterators := s.iterators + 1 }, [(s.iterators, .iterator)])
    | .hasNext i =>
      if i < s.iterators then
        let r := s.hasNext script i
        some (r.1, [(i, r.2)])
      else none
    | .next i =>
      if i < s.iterators then
        let r := s.next script i
        some (r.1, [(i, r.2)])
      else none

end

/-! ## What a loop yields -/

variable (script : Script V)

/-- The elements that the `i`-th `Iterator` has yielded. -/
def elementsOf (i : ℕ) (h : List (ℕ × Answer V)) : List (JRef V) :=
  h.filterMap fun e =>
    match e with
    | (j, .element t) => if j = i then some t else none
    | _ => none

/-- These are the first values that a loop over the `i`-th iterator sees, coerced. -/
def Seen (i : ℕ) (ts : List (JRef V)) : Prop :=
  ∀ k (h : k < ts.length), ∃ r, script.answers i k = .ok r ∧ isDone script r = false ∧
    script.coerce r.value = .ok ts[k]

theorem Seen.append {script : Script V} {i : ℕ} {ts : List (JRef V)} {t : JRef V} {r : Result V}
    (h : Seen script i ts) (hr : script.answers i ts.length = .ok r)
    (hdone : isDone script r = false) (ht : script.coerce r.value = .ok t) :
    Seen script i (ts ++ [t]) := by
  intro k hk
  rw [List.length_append, List.length_singleton] at hk
  obtain hlt | rfl := Nat.lt_succ_iff_lt_or_eq.mp hk
  · rw [List.getElem_append_left hlt]
    exact h k hlt
  · exact ⟨r, hr, hdone, by rw [List.getElem_concat_length rfl]; exact ht⟩

/-- What each loop has seen, and how many values that are. -/
structure Looped (s : Loops) (h : List (ℕ × Answer V)) : Prop where
  seen : ∀ i, Seen script i (elementsOf i h)
  length : ∀ i p, s.position i = some p → (elementsOf i h).length = p

variable {script}

/-- An answer that is no element. -/
theorem elementsOf_append_of_not {h : List (ℕ × Answer V)} {j : ℕ} {a : Answer V}
    (ha : ∀ t, a ≠ .element t) (i : ℕ) : elementsOf i (h ++ [(j, a)]) = elementsOf i h := by
  cases a with
  | element t => exact absurd rfl (ha t)
  | iterator | hasNext b | thrown e => simp [elementsOf]

theorem elementsOf_append_element (h : List (ℕ × Answer V)) (i j : ℕ) (t : JRef V) :
    elementsOf i (h ++ [(j, .element t)]) =
      if j = i then elementsOf i h ++ [t] else elementsOf i h := by
  simp only [elementsOf, List.filterMap_append, List.filterMap_cons, List.filterMap_nil]
  split_ifs <;> simp

theorem Looped.quiet {s s' : Loops} {h : List (ℕ × Answer V)} (hl : Looped script s h)
    (hpos : ∀ i p, s'.position i = some p → s.position i = some p) {j : ℕ} {a : Answer V}
    (ha : ∀ t, a ≠ .element t) : Looped script s' (h ++ [(j, a)]) where
  seen i := by
    rw [elementsOf_append_of_not ha]
    exact hl.seen i
  length i p hp := by
    rw [elementsOf_append_of_not ha]
    exact hl.length i p (hpos i p hp)

/-- Ending a loop keeps the others where they are. -/
theorem position_of_update_none {f : ℕ → Option ℕ} {j i p : ℕ}
    (h : Function.update f j none i = some p) : f i = some p := by
  by_cases hij : i = j
  · rw [hij, Function.update_self] at h
    cases h
  · rwa [Function.update_of_ne hij] at h

theorem Looped.hasNext {s : Loops} {h : List (ℕ × Answer V)} (hl : Looped script s h) (i : ℕ) :
    Looped script (s.hasNext script i).1 (h ++ [(i, (s.hasNext script i).2)]) := by
  unfold Loops.hasNext
  split
  · exact hl.quiet (fun _ _ => id) (fun t => nofun)
  · split
    · exact hl.quiet (fun _ _ => position_of_update_none) (fun t => nofun)
    · exact hl.quiet (fun _ _ => id) (fun t => nofun)

theorem Looped.next {s : Loops} {h : List (ℕ × Answer V)} (hl : Looped script s h) (i : ℕ) :
    Looped script (s.next script i).1 (h ++ [(i, (s.next script i).2)]) := by
  unfold Loops.next
  cases hp : s.position i with
  | none => exact hl.quiet (fun _ _ => id) (fun t => nofun)
  | some p =>
    dsimp only
    cases hr : script.answers i p with
    | error e => exact hl.quiet (fun _ _ => position_of_update_none) (fun t => nofun)
    | ok r =>
      dsimp only
      split_ifs with hdone
      · exact hl.quiet (fun _ _ => id) (fun t => nofun)
      · cases ht : script.coerce r.value with
        | error e => exact hl.quiet (fun _ _ => id) (fun t => nofun)
        | ok t =>
          obtain rfl := hl.length i p hp
          dsimp only
          constructor
          · intro j
            rw [elementsOf_append_element]
            split_ifs with hij
            · subst hij
              exact (hl.seen i).append hr (by simpa using hdone) ht
            · exact hl.seen j
          · intro j q hq
            dsimp only at hq
            rw [elementsOf_append_element]
            split_ifs with hij
            · subst hij
              rw [Function.update_self, Option.some.injEq] at hq
              rw [List.length_append, List.length_singleton, hq]
            · rw [Function.update_of_ne (Ne.symm hij)] at hq
              exact hl.length j q hq

/-- **What an `Iterator` yields are the values that a loop sees.** -/
theorem elements_of_loop (as : List Action) (r : Loops × List (ℕ × Answer V))
    (hr : (forOfMachine script).run (forOfMachine script).init as = some r) (i : ℕ) :
    Seen script i (elementsOf i r.2) := by
  have hstep : ∀ s h a s' o, Looped script s h → True →
      (forOfMachine script).step s a = some (s', o) → Looped script s' (h ++ o) := by
    intro s h a s' o hl _ hs
    cases a with
    | iterator =>
      obtain ⟨rfl, rfl⟩ := Prod.mk.inj (Option.some.inj hs)
      have hquiet : ∀ t : JRef V, Answer.iterator ≠ .element t := fun t => nofun
      have hpos : ∀ i p, s.position i = some p → s.position i = some p := fun _ _ => id
      exact ⟨(hl.quiet hpos hquiet).seen, (hl.quiet hpos hquiet).length⟩
    | hasNext j =>
      obtain ⟨-, hs⟩ := Option.ite_none_right_eq_some.mp hs
      obtain ⟨rfl, rfl⟩ := Prod.mk.inj (Option.some.inj hs)
      exact hl.hasNext j
    | next j =>
      obtain ⟨-, hs⟩ := Option.ite_none_right_eq_some.mp hs
      obtain ⟨rfl, rfl⟩ := Prod.mk.inj (Option.some.inj hs)
      exact hl.next j
  have hinit : Looped script (forOfMachine script).init [] :=
    ⟨fun i k hk => absurd hk (Nat.not_lt_zero k), fun i p hp => Option.some.inj hp⟩
  exact ((forOfMachine script).run_history hstep as _ [] r hinit
    ((forOfMachine script).meets_true _ _) hr).seen i

/-! ## Where the answers are right -/

variable (script)

/-- The first `Iterator` is asked, and the result object that it looks at has a Boolean
    `done`; after an exception of the script, one that ends the iteration. -/
def Careful (s : State V) : Action → Prop
  | .iterator => True
  | .hasNext i | .next i =>
    i = 0 ∧
      match s.current 0 with
      | some r => ∃ b, doneOf script r = .ok b
      | none =>
        match script.answers 0 s.calls with
        | .error _ => s.failed = false
        | .ok r => ∃ b, doneOf script r = .ok b ∧ (s.failed = true → b = true)

/-- The first `Iterator` and its loop: `current` is what the loop looks at next. -/
structure Follows (s : State V) (t : Loops) : Prop where
  iterators : t.iterators = s.iterators
  running : s.failed = false → ∃ p, t.position 0 = some p ∧
    s.calls = p + (if (s.current 0).isSome then 1 else 0) ∧
    ∀ r, s.current 0 = some r → script.answers 0 p = .ok r
  ended : s.failed = true → t.position 0 = none ∧
    ∀ r, s.current 0 = some r → doneOf script r = .ok true

variable {script}

theorem isDone_of_doneOf {r : Result V} {b : Bool} (h : doneOf script r = .ok b) :
    isDone script r = b := by
  unfold doneOf at h
  unfold isDone
  cases hd : r.done with
  | none => simp [hd] at h
  | some v =>
    cases hv : script.asBoolean v with
    | none => simp [hd, hv] at h
    | some c =>
      simp only [hd, hv, Except.ok.injEq] at h
      subst h
      exact script.toBoolean_eq v c hv

/-- What `maybeNext` leaves: the script has thrown and so does the loop, or `current` is
    the result that the loop looks at, or the loop is over and `current` ends the iteration. -/
inductive Asked (script : Script V) (s : State V) (t : Loops) :
    Except Throwable (Result V) × State V → Prop
  | thrown (p : ℕ) (e : Throwable) (s' : State V) (hp : t.position 0 = some p)
    (he : script.answers 0 p = .error e)
    (h : Follows script s' { t with position := Function.update t.position 0 none }) :
    Asked script s t (.error e, s')
  | running (p : ℕ) (r : Result V) (b : Bool) (s' : State V) (hp : t.position 0 = some p)
    (hr : script.answers 0 p = .ok r) (hb : doneOf script r = .ok b) (hfailed : s'.failed = false)
    (hcurrent : s'.current 0 = some r) (h : Follows script s' t) : Asked script s t (.ok r, s')
  | ended (r : Result V) (s' : State V) (hp : t.position 0 = none) (hb : doneOf script r = .ok true)
    (h : Follows script s' t) : Asked script s t (.ok r, s')

theorem Follows.maybeNext {s : State V} {t : Loops} (h : Follows script s t)
    (hc : Careful script s (.hasNext 0)) : Asked script s t (maybeNext script s 0) := by
  obtain ⟨-, hc⟩ := hc
  unfold Iteration.maybeNext
  cases hcurrent : s.current 0 with
  | some r =>
    rw [hcurrent] at hc
    obtain ⟨b, hb⟩ := hc
    cases hfailed : s.failed with
    | true =>
      obtain ⟨hp, hdone⟩ := h.ended hfailed
      exact .ended r s hp (hdone r hcurrent) h
    | false =>
      obtain ⟨p, hp, -, hr⟩ := h.running hfailed
      exact .running p r b s hp (hr r hcurrent) hb hfailed hcurrent h
  | none =>
    rw [hcurrent] at hc
    dsimp only at hc ⊢
    cases hanswer : script.answers 0 s.calls with
    | error e =>
      rw [hanswer] at hc
      obtain ⟨p, hp, hcalls, -⟩ := h.running hc
      rw [hcurrent, Option.isSome_none, if_neg Bool.false_ne_true, Nat.add_zero] at hcalls
      refine .thrown p e _ hp (hcalls ▸ hanswer) ⟨h.iterators, nofun, fun _ => ⟨?_, ?_⟩⟩
      · show Function.update t.position 0 none 0 = none
        rw [Function.update_self]
      · intro r hr
        dsimp only at hr
        rw [hcurrent] at hr
        cases hr
    | ok r =>
      rw [hanswer] at hc
      obtain ⟨b, hb, hend⟩ := hc
      cases hfailed : s.failed with
      | true =>
        obtain ⟨hp, -⟩ := h.ended hfailed
        obtain rfl := hend hfailed
        refine .ended r _ hp hb ⟨h.iterators, nofun, fun _ => ⟨hp, fun r' hr' => ?_⟩⟩
        dsimp only at hr'
        rw [Function.update_self, Option.some.injEq] at hr'
        rwa [← hr']
      | false =>
        obtain ⟨p, hp, hcalls, -⟩ := h.running hfailed
        rw [hcurrent, Option.isSome_none, if_neg Bool.false_ne_true, Nat.add_zero] at hcalls
        have hr : script.answers 0 p = .ok r := hcalls ▸ hanswer
        have hcurrent' : Function.update s.current 0 (some r) 0 = some r := Function.update_self ..
        refine .running p r b _ hp hr hb rfl hcurrent' ⟨h.iterators, ?_, nofun⟩
        refine fun _ => ⟨p, hp, ?_, fun r' hr' => ?_⟩
        · simp only [hcurrent', Option.isSome_some, if_true, hcalls]
        · dsimp only at hr'
          rw [hcurrent', Option.some.injEq] at hr'
          rwa [← hr']

theorem Follows.hasNext {s : State V} {t : Loops} (h : Follows script s t)
    (hc : Careful script s (.hasNext 0)) :
    (hasNext script s 0).2 = (t.hasNext script 0).2 ∧
      Follows script (hasNext script s 0).1 (t.hasNext script 0).1 := by
  have hasked := h.maybeNext hc
  unfold Iteration.hasNext
  generalize Iteration.maybeNext script s 0 = m at hasked ⊢
  cases hasked with
  | thrown p e s' hp he h' =>
    simp only [Loops.hasNext, hp, he]
    exact ⟨trivial, h'⟩
  | running p r b s' hp hr hb hfailed hcurrent h' =>
    simp only [Loops.hasNext, hp, hr, hb, isDone_of_doneOf hb]
    exact ⟨trivial, h'⟩
  | ended r s' hp hb h' =>
    simp only [Loops.hasNext, hp, hb]
    exact ⟨rfl, h'⟩

/-- `current` is given up, and the loop goes on. -/
theorem Follows.yielded {s : State V} {t : Loops} {p : ℕ} {r : Result V} (h : Follows script s t)
    (hp : t.position 0 = some p) (hfailed : s.failed = false) (hcurrent : s.current 0 = some r) :
    Follows script { s with current := Function.update s.current 0 none }
      { t with position := Function.update t.position 0 (some (p + 1)) } := by
  have hnone : Function.update s.current 0 none 0 = none := Function.update_self ..
  obtain ⟨p', hp', hcalls, -⟩ := h.running hfailed
  obtain rfl := Option.some.inj (hp'.symm.trans hp)
  have hnext : Function.update t.position 0 (some (p' + 1)) 0 = some (p' + 1) :=
    Function.update_self ..
  refine ⟨h.iterators, fun _ => ⟨p' + 1, hnext, ?_, ?_⟩, fun hended => ?_⟩
  · simpa only [hnone, hcurrent, Option.isSome_some, if_true, Option.isSome_none,
      if_neg Bool.false_ne_true] using hcalls
  · intro r' hr'
    dsimp only at hr'
    rw [hnone] at hr'
    cases hr'
  · exact absurd (hfailed.symm.trans hended) Bool.false_ne_true

theorem Follows.next {s : State V} {t : Loops} (h : Follows script s t)
    (hc : Careful script s (.next 0)) :
    (next script s 0).2 = (t.next script 0).2 ∧
      Follows script (next script s 0).1 (t.next script 0).1 := by
  have hasked := h.maybeNext hc
  unfold Iteration.next
  generalize Iteration.maybeNext script s 0 = m at hasked ⊢
  cases hasked with
  | thrown p e s' hp he h' =>
    simp only [Loops.next, hp, he]
    exact ⟨trivial, h'⟩
  | running p r b s' hp hr hb hfailed hcurrent h' =>
    simp only [Loops.next, hp, hr, hb, isDone_of_doneOf hb]
    cases b with
    | true => exact ⟨rfl, h'⟩
    | false =>
      simp only [if_neg Bool.false_ne_true]
      cases script.coerce r.value with
      | error e => exact ⟨rfl, h'⟩
      | ok ret => exact ⟨rfl, h'.yielded hp hfailed hcurrent⟩
  | ended r s' hp hb h' =>
    simp only [Loops.next, hp, hb]
    exact ⟨trivial, h'⟩

/-- Each careful step is a step of the loops. -/
theorem Follows.step {s s' : State V} {t : Loops} {a : Action} {o : List (ℕ × Answer V)}
    (h : Follows script s t) (hc : Careful script s a)
    (hs : (iterableMachine script).step s a = some (s', o)) :
    ∃ t', (forOfMachine script).step t a = some (t', o) ∧ Follows script s' t' := by
  cases a with
  | iterator =>
    obtain ⟨rfl, rfl⟩ := Prod.mk.inj (Option.some.inj hs)
    refine ⟨{ t with iterators := t.iterators + 1 }, ?_, ?_⟩
    · rw [← h.iterators]
      rfl
    · exact ⟨congrArg (· + 1) h.iterators, h.running, h.ended⟩
  | hasNext i =>
    obtain ⟨hlt, hs⟩ := Option.ite_none_right_eq_some.mp hs
    obtain ⟨rfl, rfl⟩ := Prod.mk.inj (Option.some.inj hs)
    obtain rfl := hc.1
    obtain ⟨hanswer, hfollows⟩ := h.hasNext hc
    refine ⟨_, ?_, hfollows⟩
    rw [hanswer]
    exact if_pos (h.iterators ▸ hlt)
  | next i =>
    obtain ⟨hlt, hs⟩ := Option.ite_none_right_eq_some.mp hs
    obtain ⟨rfl, rfl⟩ := Prod.mk.inj (Option.some.inj hs)
    obtain rfl := hc.1
    obtain ⟨hanswer, hfollows⟩ := h.next hc
    refine ⟨_, ?_, hfollows⟩
    rw [hanswer]
    exact if_pos (h.iterators ▸ hlt)

/-- **Iteration follows the protocol**, where the first `Iterator` is asked and `done` is a
    Boolean: the answers are those of loops, and what an `Iterator` yields are the values that
    its loop sees. -/
theorem iteration_refines (script : Script V) (as : List Action)
    (r : State V × List (ℕ × Answer V))
    (hc : (iterableMachine script).Meets (Careful script) (iterableMachine script).init as)
    (hr : (iterableMachine script).run (iterableMachine script).init as = some r) :
    (∃ t, (forOfMachine script).run (forOfMachine script).init as = some (t, r.2)) ∧
      ∀ i, Seen script i (elementsOf i r.2) := by
  have hinit : Follows script (iterableMachine script).init (forOfMachine script).init :=
    ⟨rfl, fun _ => ⟨0, rfl, rfl, nofun⟩, nofun⟩
  obtain ⟨t, ht, -⟩ := (iterableMachine script).run_simulation (forOfMachine script)
    (fun s t a s' o h hc hs => h.step hc hs) as _ _ r hinit hc hr
  exact ⟨⟨t, ht⟩, fun i => elements_of_loop as (t, r.2) ht i⟩

/-- Values are numbers; 0 and 1 are the `Boolean`s. Each iterator answers the list. -/
def Script.listing (results : List (Result ℕ)) : Script ℕ where
  answers _ k := .ok (results.getD k { done := some 1 })
  asBoolean v := if v < 2 then some (v == 1) else none
  toBoolean v := v != 0
  toBoolean_eq v b h := by
    obtain ⟨hlt, hb⟩ := Option.ite_none_right_eq_some.mp h
    have hv : v = 0 ∨ v = 1 := by omega
    obtain rfl | rfl := hv <;> exact Option.some.inj h.symm ▸ rfl
  coerce := .ok

/-- Two elements, asked for in several ways, and the end. -/
theorem iteration_refines_two :
    ∃ r, (iterableMachine (.listing [⟨some 0, some 7⟩, ⟨some 0, some 8⟩])).run
          (iterableMachine (.listing [⟨some 0, some 7⟩, ⟨some 0, some 8⟩])).init
          [.iterator, .hasNext 0, .hasNext 0, .next 0, .next 0, .hasNext 0, .next 0] = some r ∧
      (∃ t, (forOfMachine (.listing [⟨some 0, some 7⟩, ⟨some 0, some 8⟩])).run
          (forOfMachine (.listing [⟨some 0, some 7⟩, ⟨some 0, some 8⟩])).init
          [.iterator, .hasNext 0, .hasNext 0, .next 0, .next 0, .hasNext 0, .next 0] =
            some (t, r.2)) ∧
      ∀ i, Seen (.listing [⟨some 0, some 7⟩, ⟨some 0, some 8⟩]) i (elementsOf i r.2) := by
  refine ⟨_, rfl, iteration_refines _ _ _ ?_ rfl⟩
  refine Machine.meets_cons_of _ trivial rfl ?_
  refine Machine.meets_cons_of _ ⟨rfl, false, rfl, nofun⟩ rfl ?_
  refine Machine.meets_cons_of _ ⟨rfl, false, rfl⟩ rfl ?_
  refine Machine.meets_cons_of _ ⟨rfl, false, rfl⟩ rfl ?_
  refine Machine.meets_cons_of _ ⟨rfl, false, rfl, nofun⟩ rfl ?_
  refine Machine.meets_cons_of _ ⟨rfl, true, rfl, fun _ => rfl⟩ rfl ?_
  exact Machine.meets_cons_of _ ⟨rfl, true, rfl⟩ rfl trivial

/-- A result object without `done`, and the second `Iterator` of an `Iterable`. -/
theorem iteration_fails :
    (∃ r, (iterableMachine (.listing [{ value := some 7 }])).run
          (iterableMachine (.listing [{ value := some 7 }])).init [.iterator, .hasNext 0] = some r ∧
        r.2 = [(0, .iterator), (0, .thrown nullPointerException)]) ∧
      (∃ t, (forOfMachine (.listing [{ value := some 7 }])).run
          (forOfMachine (.listing [{ value := some 7 }])).init [.iterator, .hasNext 0] =
        some (t, [(0, .iterator), (0, .hasNext true)])) ∧
      (∃ r, (iterableMachine (.listing [⟨some 0, some 7⟩])).run
          (iterableMachine (.listing [⟨some 0, some 7⟩])).init
          [.iterator, .next 0, .iterator, .hasNext 1] = some r ∧
        r.2 = [(0, .iterator), (0, .element (some 7)), (1, .iterator), (1, .hasNext false)]) ∧
      ∃ t, (forOfMachine (.listing [⟨some 0, some 7⟩])).run
          (forOfMachine (.listing [⟨some 0, some 7⟩])).init
          [.iterator, .next 0, .iterator, .hasNext 1] =
        some (t, [(0, .iterator), (0, .element (some 7)), (1, .iterator), (1, .hasNext true)]) :=
  ⟨⟨_, rfl, rfl⟩, ⟨_, rfl⟩, ⟨_, rfl, rfl⟩, ⟨_, rfl⟩⟩

end JSEngine.Iteration
