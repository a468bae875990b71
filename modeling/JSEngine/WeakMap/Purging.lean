import JSEngine.WeakMap.Identity

/-!
# Purging of a `WeakExactHashMap`

`purgeMachine` runs the actions of `weakMachine` and remembers how many entries the most
recent purge has kept, also a purge at the start of a `get` or a `put`.

* `purge_exact`: a purge removes the entries of collected keys and no others;
* `purge_exact_and_bounds`: in every run in which only `purge` sets the threshold, this
  holds in the state that is reached, and the map is at most twice as large as the last
  purge has left it, or has one entry.
-/

namespace JSEngine.WeakMap

open JSEngine.Java JSEngine.Common

variable {K V : Type*} [DecidableEq K]

/-! ## One purge -/

/-- The purge removes what has been collected, keeps the other entries with their values,
    in their order, and returns the number of what it has removed. -/
def Exactly (heap : Heap K) (m : WeakExactHashMap K V) : Prop :=
  (m.purge heap).2.map.nodes.Sublist m.map.nodes ∧
    (∀ n ∈ m.map.nodes, n ∈ (m.purge heap).2.map.nodes ↔ heap.cleared n.1.key = false) ∧
    (m.purge heap).1 = m.map.nodes.countP fun n => heap.cleared n.1.key

omit [DecidableEq K] in
theorem Entry.isNone_get (heap : Heap K) (e : Entry K) :
    (e.get heap).isNone = heap.cleared e.key := by
  unfold Entry.get
  cases heap.cleared e.key <;> rfl

omit [DecidableEq K] in
theorem nodes_purge (heap : Heap K) (m : WeakExactHashMap K V) :
    (m.purge heap).2.map.nodes = m.map.nodes.filter fun n => !heap.cleared n.1.key := by
  simp only [WeakExactHashMap.purge, WeakExactHashMap.setPurgeThreshold, HashMap.removeKeys,
    Entry.isNone_get]

omit [DecidableEq K] in
theorem purge_exact (heap : Heap K) (m : WeakExactHashMap K V) : Exactly heap m := by
  refine ⟨?_, ?_, ?_⟩
  · rw [nodes_purge]
    exact List.filter_sublist
  · intro n hn
    rw [nodes_purge, List.mem_filter, and_iff_right hn, Bool.not_eq_true']
  · have hcount := List.length_eq_countP_add_countP (fun n : Entry K × JRef V =>
      heap.cleared n.1.key) (l := m.map.nodes)
    have hsize : (m.purge heap).2.map.size =
        m.map.nodes.countP fun n => !heap.cleared n.1.key := by
      rw [HashMap.size, nodes_purge, List.countP_eq_length_filter]
    have hreturned : (m.purge heap).1 = (m.map.size : ℤ) - (m.purge heap).2.map.size := rfl
    simp only [Bool.not_eq_true, Bool.decide_eq_false] at hcount
    rw [hreturned, hsize, HashMap.size, hcount]
    omega

/-! ## Runs -/

/-- A state of the map, with the number of entries that the most recent purge has kept. -/
structure Purged (K V : Type*) where
  state : State K V
  kept : ℕ

/-- What the most recent purge has kept after an action. -/
def keptBy (s : Purged K V) : Action K V → ℕ
  | .get _ | .put _ _ =>
    if (s.state.map.map.size : ℤ) < s.state.map.purgeThreshold then s.kept
    else (s.state.map.purge s.state.heap).2.map.size
  | .purge => (s.state.map.purge s.state.heap).2.map.size
  | .clear | .setPurgeThreshold _ | .mutate _ _ | .collect _ => s.kept

/-- The map, from a new one, with the number of entries kept. -/
def purgeMachine (hashCode : K → JInt) :
    Machine (Purged K V) (Action K V) (Answer V) where
  init := ⟨(weakMachine hashCode).init, 0⟩
  step s a := (weakStep s.state a).map fun r => (⟨r.1, keptBy s a⟩, r.2)

/-- The threshold is set by `purge` only. -/
def PurgeOnly (_ : Purged K V) (a : Action K V) : Prop := ∀ n, a ≠ .setPurgeThreshold n

/-- The size and the threshold, by what the most recent purge has kept. -/
structure Bounded (m : WeakExactHashMap K V) (kept : ℕ) : Prop where
  threshold : m.purgeThreshold ≤ 2 * kept
  size : m.size ≤ max 1 (2 * kept)

/-- Also a threshold that overflows is not too large. -/
theorem toInt_double_le (n : ℕ) : toInt (n * 2) ≤ 2 * n := by
  have hmod : ((n : ℤ) * 2) % ((2 ^ 32 : ℕ) : ℤ) ≤ n * 2 := by
    have hdiv := Int.emod_add_mul_ediv ((n : ℤ) * 2) ((2 ^ 32 : ℕ) : ℤ)
    have hpos : 0 ≤ ((2 ^ 32 : ℕ) : ℤ) * ((n : ℤ) * 2 / ((2 ^ 32 : ℕ) : ℤ)) := by positivity
    linarith
  unfold toInt
  rw [Int.bmod_eq_emod, mul_comm (2 : ℤ)]
  exact (Int.sub_le_self _ (Int.natCast_nonneg _)).trans hmod

namespace Bounded

variable {heap : Heap K} {m : WeakExactHashMap K V} {kept : ℕ}

omit [DecidableEq K] in
theorem purge : Bounded (m.purge heap).2 (m.purge heap).2.map.size where
  threshold := by
    have hthreshold : (m.purge heap).2.purgeThreshold =
        toInt ((m.purge heap).2.map.size * 2) := by
      simp only [WeakExactHashMap.purge, WeakExactHashMap.setPurgeThreshold]
    rw [hthreshold]
    exact toInt_double_le _
  size := by
    show (m.purge heap).2.map.size ≤ _
    omega

omit [DecidableEq K] in
theorem clear (h : Bounded m kept) : Bounded m.clear kept where
  threshold := h.threshold
  size := Nat.zero_le _

/-- What `get` and `put` begin with. -/
def keptFirst (heap : Heap K) (m : WeakExactHashMap K V) (kept : ℕ) : ℕ :=
  if (m.map.size : ℤ) < m.purgeThreshold then kept else (m.purge heap).2.map.size

omit [DecidableEq K] in
theorem maybePurge (h : Bounded m kept) :
    Bounded (m.maybePurge heap) (keptFirst heap m kept) := by
  unfold WeakExactHashMap.maybePurge keptFirst
  split_ifs with hlt
  · exact h
  · exact purge

omit [DecidableEq K] in
/-- There is room for one more entry after it. -/
theorem size_maybePurge (h : Bounded m kept) :
    (m.maybePurge heap).map.size + 1 ≤ max 1 (2 * keptFirst heap m kept) := by
  unfold WeakExactHashMap.maybePurge keptFirst
  split_ifs with hlt
  · have hthreshold := h.threshold
    omega
  · omega

end Bounded

omit [DecidableEq K] in
/-- `put` adds at most one entry. -/
theorem size_put_le (p : Entry K → Bool) (e : Entry K) (value : JRef V)
    (m : HashMap (Entry K) V) : (m.put p e value).2.size ≤ m.size + 1 := by
  have hkeys : ∀ m : HashMap (Entry K) V, m.size = m.keys.length :=
    fun m => (List.length_map _).symm
  rw [hkeys, hkeys]
  obtain ⟨h, -⟩ | ⟨h, -⟩ := HashMap.keys_put p e value m
  · rw [h]
    omega
  · rw [h, List.length_append]
    rfl

theorem Bounded.get {heap : Heap K} {m : WeakExactHashMap K V} {kept : ℕ} (h : Bounded m kept)
    (key : JRef K) : Bounded (m.get heap key).2 (Bounded.keptFirst heap m kept) := by
  unfold WeakExactHashMap.get
  cases key <;> exact h.maybePurge

theorem Bounded.put {heap : Heap K} {m : WeakExactHashMap K V} {kept : ℕ} (h : Bounded m kept)
    (key : JRef K) (value : JRef V) :
    Bounded (m.put heap key value).2 (Bounded.keptFirst heap m kept) := by
  unfold WeakExactHashMap.put
  cases key with
  | none => exact h.maybePurge
  | some k =>
    refine ⟨h.maybePurge.threshold, ?_⟩
    exact (size_put_le _ _ _ _).trans h.size_maybePurge

/-- Each action keeps the bounds. -/
theorem purgeMachine_step {hashCode : K → JInt} {s : Purged K V} {a : Action K V}
    {s' : Purged K V} {o : List (Answer V)} (h : Bounded s.state.map s.kept)
    (ha : PurgeOnly s a) (hs : (purgeMachine hashCode).step s a = some (s', o)) :
    Bounded s'.state.map s'.kept := by
  obtain ⟨r, hr, heq⟩ := Option.map_eq_some_iff.mp hs
  obtain ⟨rfl, -⟩ := Prod.mk.inj heq
  cases a with
  | get key =>
    simp only [weakStep, Option.ite_none_right_eq_some] at hr
    obtain ⟨-, hr⟩ := hr
    obtain rfl := Option.some.inj hr
    exact h.get key
  | put key value =>
    simp only [weakStep, Option.ite_none_right_eq_some] at hr
    obtain ⟨-, hr⟩ := hr
    obtain rfl := Option.some.inj hr
    exact h.put key value
  | purge =>
    obtain rfl := Option.some.inj hr
    exact Bounded.purge
  | clear =>
    obtain rfl := Option.some.inj hr
    exact h.clear
  | setPurgeThreshold n => exact absurd rfl (ha n)
  | mutate k hash =>
    obtain rfl := Option.some.inj hr
    exact h
  | collect k =>
    obtain rfl := Option.some.inj hr
    exact h

theorem bounded_init (hashCode : K → JInt) :
    Bounded (purgeMachine hashCode : Machine (Purged K V) _ _).init.state.map
      (purgeMachine hashCode : Machine (Purged K V) _ _).init.kept :=
  ⟨le_refl _, Nat.zero_le _⟩

/-- **Purging is exact and bounds stale entries.** -/
theorem purge_exact_and_bounds (hashCode : K → JInt) (as : List (Action K V))
    (r : Purged K V × List (Answer V))
    (hown : (purgeMachine hashCode).Meets PurgeOnly (purgeMachine hashCode).init as)
    (hr : (purgeMachine hashCode).run (purgeMachine hashCode).init as = some r) :
    Exactly r.1.state.heap r.1.state.map ∧ r.1.state.map.size ≤ max 1 (2 * r.1.kept) := by
  have hbounded : Bounded r.1.state.map r.1.kept :=
    (purgeMachine hashCode).run_history (I := fun s _ => Bounded s.state.map s.kept)
      (fun s _ a s' o hI hP hs => purgeMachine_step hI hP hs) as _ [] r (bounded_init hashCode)
      hown hr
  exact ⟨purge_exact _ _, hbounded.size⟩

/-- Two keys, one of them collected, a purge at the start of a `put`, and a clear. -/
theorem purge_exact_and_bounds_two :
    ∃ r : Purged ℕ ℕ × List (Answer ℕ),
      (purgeMachine fun _ => 0).run (purgeMachine fun _ => 0).init
        [.put (some 0) (some 7), .put (some 1) (some 8), .collect 0, .put (some 2) none, .purge,
          .clear] = some r ∧
      (Exactly r.1.state.heap r.1.state.map ∧ r.1.state.map.size ≤ max 1 (2 * r.1.kept)) := by
  have hown : (purgeMachine (K := ℕ) (V := ℕ) fun _ => 0).Meets PurgeOnly
      (purgeMachine fun _ => 0).init
      [.put (some 0) (some 7), .put (some 1) (some 8), .collect 0, .put (some 2) none, .purge,
        .clear] := by
    simp [Machine.Meets, PurgeOnly]
  obtain ⟨r, hr⟩ : ∃ r, (purgeMachine (K := ℕ) (V := ℕ) fun _ => 0).run
      (purgeMachine fun _ => 0).init
      [.put (some 0) (some 7), .put (some 1) (some 8), .collect 0, .put (some 2) none, .purge,
        .clear] = some r :=
    Option.isSome_iff_exists.mp (by decide +kernel)
  exact ⟨r, hr, purge_exact_and_bounds (fun _ => 0) _ r hown hr⟩

end JSEngine.WeakMap
