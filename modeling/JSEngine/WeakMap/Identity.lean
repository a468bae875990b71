import JSEngine.Common.Machine
import JSEngine.WeakMap.Model

/-!
# `WeakExactHashMap` as an identity map

`weakMachine` runs `get`, `put`, `purge`, `clear` and `setPurgeThreshold` in any
order with two steps of the environment: a key changes its hash code, and the
collector clears an unreachable key (from then on the program cannot pass it).
`exactMachine` is the purpose of the class: a function from key objects to
values, which `put` updates and `clear` empties.

* `weak_refines_exact`: over every run in which each `get(k)` and `put(k, ·)`
  finds the entry for `k`, if there is one, with the hash code `k` has now, both
  machines answer the same and no two entries have one key object.
* `weak_loses_mutated_key`: after the key's hash code changed the entry is lost
  and a second one is made.
-/

namespace JSEngine.WeakMap

open JSEngine.Java JSEngine.Common

variable {K V : Type*} [DecidableEq K]

/-- The calls on the map and the steps of the environment. -/
inductive Action (K V : Type*)
  | get (key : JRef K)
  | put (key : JRef K) (value : JRef V)
  | purge
  | clear
  | setPurgeThreshold (n : ℤ)
  /-- the key is written to, so that its hash code becomes `hash` -/
  | mutate (k : K) (hash : JInt)
  /-- the collector clears the weak references to an unreachable key -/
  | collect (k : K)

/-- What a `get` or a `put` returns or throws. -/
abbrev Answer (V : Type*) := Except Throwable (JRef V)

/-- The program can only pass a key that has not been collected. -/
def passable (cleared : K → Bool) (key : JRef K) : Bool :=
  match key with
  | none => true
  | some k => !cleared k

/-! ## The two machines -/

structure State (K V : Type*) where
  heap : Heap K
  map : WeakExactHashMap K V

def weakStep (s : State K V) : Action K V → Option (State K V × List (Answer V))
  | .get key =>
    if passable s.heap.cleared key then
      let r := s.map.get s.heap key
      some ({ s with map := r.2 }, [r.1])
    else none
  | .put key value =>
    if passable s.heap.cleared key then
      let r := s.map.put s.heap key value
      some ({ s with map := r.2 }, [r.1])
    else none
  | .purge => some ({ s with map := (s.map.purge s.heap).2 }, [])
  | .clear => some ({ s with map := s.map.clear }, [])
  | .setPurgeThreshold n => some ({ s with map := s.map.setPurgeThreshold n }, [])
  | .mutate k hash =>
    some ({ s with heap := { s.heap with hashCode := Function.update s.heap.hashCode k hash } }, [])
  | .collect k =>
    some ({ s with heap := { s.heap with cleared := Function.update s.heap.cleared k true } }, [])

/-- A new map, over keys with the given hash codes. -/
def weakMachine (hashCode : K → JInt) : Machine (State K V) (Action K V) (Answer V) where
  init := { heap := { hashCode := hashCode, cleared := fun _ => false }, map := {} }
  step := weakStep

/-- An identity map from objects to values. -/
structure Exact (K V : Type*) where
  value : K → JRef V
  cleared : K → Bool

def exactStep (t : Exact K V) : Action K V → Option (Exact K V × List (Answer V))
  | .get none | .put none _ =>
    some (t, [.error ⟨"java.lang.IllegalArgumentException", "key can not be null"⟩])
  | .get (some k) => if t.cleared k then none else some (t, [.ok (t.value k)])
  | .put (some k) value =>
    if t.cleared k then none
    else some ({ t with value := Function.update t.value k value }, [.ok (t.value k)])
  | .clear => some ({ t with value := fun _ => none }, [])
  | .collect k => some ({ t with cleared := Function.update t.cleared k true }, [])
  | .purge | .setPurgeThreshold _ | .mutate _ _ => some (t, [])

def exactMachine : Machine (Exact K V) (Action K V) (Answer V) where
  init := { value := fun _ => none, cleared := fun _ => false }
  step := exactStep

/-! ## Refinement -/

/-- A `get(k)` or `put(k, ·)` is called while `k` has the hash code it had when
    its entry was made. -/
def Stable (s : State K V) : Action K V → Prop
  | .get (some k) | .put (some k) _ => Fresh s.heap s.map k
  | _ => True

instance (s : State K V) : (a : Action K V) → Decidable (Stable s a)
  | .get (some k) | .put (some k) _ => inferInstanceAs (Decidable (Fresh s.heap s.map k))
  | .get none | .put none _ | .purge | .clear | .setPurgeThreshold _ | .mutate _ _ | .collect _ =>
    isTrue trivial

/-- The map holds, for every live key, the value of the identity map. -/
structure Refines (s : State K V) (t : Exact K V) : Prop where
  cleared : s.heap.cleared = t.cleared
  distinct : DistinctKeys s.map
  value : ∀ k, t.cleared k = false → valueOf s.map k = t.value k

theorem Refines.purge {s : State K V} {t : Exact K V} (h : Refines s t) :
    Refines { s with map := (s.map.purge s.heap).2 } t := by
  refine ⟨h.cleared, h.distinct.purge, fun k hk => ?_⟩
  have hk' : s.heap.cleared k = false := by rw [h.cleared]; exact hk
  rw [← h.value k hk]
  exact valueOf_purge hk'

theorem Refines.maybePurge {s : State K V} {t : Exact K V} (h : Refines s t) :
    Refines { s with map := s.map.maybePurge s.heap } t := by
  unfold WeakExactHashMap.maybePurge
  split_ifs
  · exact h
  · exact h.purge

theorem Refines.put {s : State K V} {t : Exact K V} (h : Refines s t) {k : K}
    (hk : s.heap.cleared k = false) (hf : Fresh s.heap s.map k) (value : JRef V) :
    Refines { s with map := (s.map.put s.heap (some k) value).2 }
      { t with value := Function.update t.value k value } := by
  refine ⟨h.cleared, h.distinct.put hk hf value, fun k' hk' => ?_⟩
  have hk'' : s.heap.cleared k' = false := by rw [h.cleared]; exact hk'
  by_cases hne : k' = k
  · subst hne
    simp only [Function.update_self]
    exact valueOf_put_self hk hf value
  · simp only [Function.update_of_ne hne]
    rw [← h.value k' hk']
    exact valueOf_put_other hk hk'' hne hf value

/-- **Step.** Under `Stable` a step of the map is a step of the identity map with
    the same answer. -/
theorem weakStep_refines {s s' : State K V} {t : Exact K V} {a : Action K V}
    {o : List (Answer V)} (h : Refines s t) (hst : Stable s a)
    (hs : weakStep s a = some (s', o)) :
    ∃ t', exactStep t a = some (t', o) ∧ Refines s' t' := by
  cases a with
  | get key =>
    simp only [weakStep, Option.ite_none_right_eq_some, Option.some.injEq, Prod.mk.injEq] at hs
    obtain ⟨hp, rfl, rfl⟩ := hs
    cases key with
    | none => exact ⟨t, rfl, h.maybePurge⟩
    | some k =>
      have hk : s.heap.cleared k = false := by simpa [passable] using hp
      have hk' : t.cleared k = false := by rw [← h.cleared]; exact hk
      rw [get_of_fresh hk hst]
      refine ⟨t, ?_, h.maybePurge⟩
      simp [exactStep, hk', h.value k hk']
  | put key value =>
    simp only [weakStep, Option.ite_none_right_eq_some, Option.some.injEq, Prod.mk.injEq] at hs
    obtain ⟨hp, rfl, rfl⟩ := hs
    cases key with
    | none => exact ⟨t, rfl, h.maybePurge⟩
    | some k =>
      have hk : s.heap.cleared k = false := by simpa [passable] using hp
      have hk' : t.cleared k = false := by rw [← h.cleared]; exact hk
      refine ⟨_, ?_, h.put hk hst value⟩
      rw [put_of_fresh hk hst, h.value k hk']
      simp [exactStep, hk']
  | purge =>
    obtain ⟨rfl, rfl⟩ : { s with map := (s.map.purge s.heap).2 } = s' ∧ [] = o := by
      simpa [weakStep] using hs
    exact ⟨t, rfl, h.purge⟩
  | clear =>
    obtain ⟨rfl, rfl⟩ : { s with map := s.map.clear } = s' ∧ [] = o := by simpa [weakStep] using hs
    exact ⟨_, rfl, h.cleared, List.nodup_nil, fun _ _ => rfl⟩
  | setPurgeThreshold n =>
    obtain ⟨rfl, rfl⟩ : { s with map := s.map.setPurgeThreshold n } = s' ∧ [] = o := by
      simpa [weakStep] using hs
    exact ⟨t, rfl, h.cleared, h.distinct, h.value⟩
  | mutate k hash =>
    simp only [weakStep, Option.some.injEq, Prod.mk.injEq] at hs
    obtain ⟨rfl, rfl⟩ := hs
    exact ⟨t, rfl, h.cleared, h.distinct, h.value⟩
  | collect k =>
    simp only [weakStep, Option.some.injEq, Prod.mk.injEq] at hs
    obtain ⟨rfl, rfl⟩ := hs
    refine ⟨_, rfl, by simp [h.cleared], h.distinct, fun k' hk' => ?_⟩
    -- a key that is still live was live before
    by_cases hne : k' = k
    · subst hne
      simp at hk'
    · have hlive : t.cleared k' = false := by simpa [Function.update_of_ne hne] using hk'
      exact h.value k' hlive

theorem refines_init (hashCode : K → JInt) :
    Refines (weakMachine hashCode : Machine (State K V) _ _).init exactMachine.init :=
  ⟨rfl, List.nodup_nil, fun _ _ => rfl⟩

/-- **The map is an identity map over stable runs.** In every run from a new map
    whose lookups all find the key's entry, if any, with the key's present hash
    code, every `get` and `put` answers as the identity map does, and in the state
    reached no two entries have the same key object. -/
theorem weak_refines_exact (hashCode : K → JInt) (as : List (Action K V))
    (r : State K V × List (Answer V))
    (hst : (weakMachine hashCode).Meets Stable (weakMachine hashCode).init as)
    (hr : (weakMachine hashCode).run (weakMachine hashCode).init as = some r) :
    DistinctKeys r.1.map ∧
      ∃ t, exactMachine.run exactMachine.init as = some (t, r.2) := by
  obtain ⟨t, ht, hR⟩ := (weakMachine hashCode).run_simulation exactMachine
    (fun s t a s' o hR hP hs => weakStep_refines hR hP hs) as _ _ r
    (refines_init hashCode) hst hr
  exact ⟨hR.distinct, t, ht⟩

/-- A key whose hash code changes between two lookups, purges and collections
    of other keys in between, and changes back. -/
theorem weak_refines_exact_mutation :
    ∃ t, (exactMachine : Machine (Exact ℕ ℕ) _ _).run exactMachine.init
      [.put (some 0) (some 7), .mutate 0 1, .put (some 1) none, .collect 1, .mutate 0 5, .purge,
        .get (some 0), .clear, .get (some 0)] =
      some (t, [.ok none, .ok none, .ok (some 7), .ok none]) :=
  (weak_refines_exact (fun _ => 5) _ (_, _) (by decide) rfl).2

/-- After a live key's hash code changed, `get` does not find its value, and the
    next `put` makes a second entry for it. -/
theorem weak_loses_mutated_key :
    ∃ s : State ℕ ℕ, ∃ t,
      (weakMachine fun _ => 0).run (weakMachine fun _ => 0).init
        [.put (some 0) (some 7), .mutate 0 1, .get (some 0), .put (some 0) (some 8)] =
        some (s, [.ok none, .ok none, .ok none]) ∧
      exactMachine.run exactMachine.init
        [.put (some 0) (some 7), .mutate 0 1, .get (some 0), .put (some 0) (some 8)] =
        some (t, [.ok none, .ok (some 7), .ok (some 7)]) ∧
      s.heap.cleared 0 = false ∧ ¬DistinctKeys s.map :=
  ⟨_, _, rfl, rfl, rfl, by decide⟩

end JSEngine.WeakMap
