import JSEngine.Java.HashMap

/-!
# `WeakExactHashMap`

Model of `WeakExactHashMap.java`. A key is an object; `Heap` is what the
virtual machine knows of the keys at one moment: the value `key.hashCode()`
returns now (a `ByteBuffer` changes it with its content, position and limit)
and whether weak references to the key have been cleared.

A stored `Entry` keeps the hash code its key had when the entry was made. A
lookup makes a new `Entry`, with the hash code of now, and compares referents
by identity.
-/

namespace JSEngine.WeakMap

open JSEngine.Java

variable {K V : Type*} [DecidableEq K]

/-- The state of the key objects. -/
structure Heap (K : Type*) where
  hashCode : K → JInt
  cleared : K → Bool

/-- `WeakExactHashMap.Entry` (lines 15–36): a weak reference and a hash code. -/
structure Entry (K : Type*) where
  key : K
  hash : JInt
  deriving DecidableEq, Repr

/-- `key.get()` of the weak reference: null once the collector cleared it. -/
def Entry.get (heap : Heap K) (e : Entry K) : JRef K :=
  if heap.cleared e.key then none else some e.key

/-- The constructor of `Entry` (lines 18–23). -/
def Entry.new (heap : Heap K) (key : JRef K) : Except Throwable (Entry K) :=
  match key with
  | none => .error ⟨"java.lang.IllegalArgumentException", "key can not be null"⟩
  | some key => .ok { key := key, hash := heap.hashCode key }

/-- `Entry.equals` (lines 26–30): `key != null && other.key.get() == key`. -/
def Entry.equals (heap : Heap K) (this other : Entry K) : Bool :=
  match this.get heap with
  | none => false
  | some key => other.get heap == some key

/-- The node test for a lookup of `entry`. -/
def Entry.holds (heap : Heap K) (entry : Entry K) : Entry K → Bool :=
  HashMap.holds Entry.hash (Entry.equals heap) entry

/-- The fields of `WeakExactHashMap`. -/
structure WeakExactHashMap (K V : Type*) where
  map : HashMap (Entry K) V := {}
  purgeThreshold : ℤ := 0

namespace WeakExactHashMap

/-- `setPurgeThreshold` (lines 11–13). -/
def setPurgeThreshold (m : WeakExactHashMap K V) (n : ℤ) : WeakExactHashMap K V :=
  { m with purgeThreshold := n }

/-- `purge` (lines 45–57): the number of removed entries and the new map. -/
def purge (heap : Heap K) (m : WeakExactHashMap K V) : ℤ × WeakExactHashMap K V :=
  let before := m.map.size
  let map := m.map.removeKeys fun entry => (entry.get heap).isNone
  let after := map.size
  ((before : ℤ) - after, { m with map := map }.setPurgeThreshold (toInt (after * 2)))

/-- `maybePurge` (lines 38–43). -/
def maybePurge (heap : Heap K) (m : WeakExactHashMap K V) : WeakExactHashMap K V :=
  if (m.map.size : ℤ) < m.purgeThreshold then m else (m.purge heap).2

/-- `get` (lines 59–62). -/
def get (heap : Heap K) (m : WeakExactHashMap K V) (key : JRef K) :
    Except Throwable (JRef V) × WeakExactHashMap K V :=
  let m := m.maybePurge heap
  match Entry.new heap key with
  | .error e => (.error e, m)
  | .ok entry => (.ok (m.map.find (entry.holds heap)), m)

/-- `put` (lines 64–67). -/
def put (heap : Heap K) (m : WeakExactHashMap K V) (key : JRef K) (value : JRef V) :
    Except Throwable (JRef V) × WeakExactHashMap K V :=
  let m := m.maybePurge heap
  match Entry.new heap key with
  | .error e => (.error e, m)
  | .ok entry =>
    let r := m.map.put (entry.holds heap) entry value
    (.ok r.1, { m with map := r.2 })

/-- `size` (lines 69–71). -/
def size (m : WeakExactHashMap K V) : ℕ := m.map.size

/-- `clear` (lines 73–75); the purge threshold stays. -/
def clear (m : WeakExactHashMap K V) : WeakExactHashMap K V := { m with map := m.map.clear }

end WeakExactHashMap

/-! ## Lookups by identity -/

/-- The stored entries whose referent is the object `k`. -/
def Entry.isFor (k : K) (e : Entry K) : Bool := e.key == k

/-- The hash code of every entry for `k` is the one `k` has now. -/
def Fresh (heap : Heap K) (m : WeakExactHashMap K V) (k : K) : Prop :=
  ∀ e ∈ m.map.keys, e.key = k → e.hash = heap.hashCode k

instance (heap : Heap K) (m : WeakExactHashMap K V) (k : K) : Decidable (Fresh heap m k) :=
  inferInstanceAs (Decidable (∀ e ∈ m.map.keys, e.key = k → e.hash = heap.hashCode k))

/-- No two entries have the same object as referent. -/
def DistinctKeys (m : WeakExactHashMap K V) : Prop := (m.map.keys.map Entry.key).Nodup

instance (m : WeakExactHashMap K V) : Decidable (DistinctKeys m) :=
  inferInstanceAs (Decidable (m.map.keys.map Entry.key).Nodup)

/-- What an exact map answers for `k`: the value of the entry for `k`. -/
def valueOf (m : WeakExactHashMap K V) (k : K) : JRef V := m.map.find (Entry.isFor k)

omit [DecidableEq K] in
theorem Entry.get_eq_some {heap : Heap K} {e : Entry K} {k : K} (hk : heap.cleared k = false) :
    e.get heap = some k ↔ e.key = k := by
  unfold Entry.get
  constructor
  · intro h
    split_ifs at h
    exact Option.some.inj h
  · rintro rfl
    simp [hk]

/-- The node test of a lookup of a live key. -/
theorem Entry.holds_iff {heap : Heap K} {k : K} (hk : heap.cleared k = false) (h : JInt)
    (e : Entry K) :
    (Entry.mk k h).holds heap e = true ↔ e.hash = h ∧ e.key = k := by
  have hthis : (Entry.mk k h).get heap = some k := (Entry.get_eq_some hk).mpr rfl
  simp only [Entry.holds, HashMap.holds, Entry.equals, hthis, Bool.and_eq_true, beq_iff_eq,
    Entry.get_eq_some hk]

/-- On fresh entries the hash code of the lookup makes no difference. -/
theorem Entry.holds_of_fresh {heap : Heap K} {m : WeakExactHashMap K V} {k : K}
    (hk : heap.cleared k = false) (hf : Fresh heap m k) :
    ∀ e ∈ m.map.keys, (Entry.mk k (heap.hashCode k)).holds heap e = Entry.isFor k e := by
  intro e he
  rw [Bool.eq_iff_iff, Entry.holds_iff hk, Entry.isFor, beq_iff_eq]
  exact ⟨And.right, fun h => ⟨hf e he h, h⟩⟩

/-- An entry whose hash code is not the one of now is never found. -/
theorem Entry.holds_of_stale {heap : Heap K} {m : WeakExactHashMap K V} {k : K}
    (hk : heap.cleared k = false)
    (hs : ∀ e ∈ m.map.keys, e.key = k → e.hash ≠ heap.hashCode k) :
    ∀ e ∈ m.map.keys, (Entry.mk k (heap.hashCode k)).holds heap e = false := by
  intro e he
  rw [Bool.eq_false_iff, ne_eq, Entry.holds_iff hk]
  rintro ⟨h1, h2⟩
  exact hs e he h2 h1

/-! ## Purging -/

omit [DecidableEq K] in
theorem mem_keys_maybePurge {heap : Heap K} {m : WeakExactHashMap K V} {e : Entry K}
    (h : e ∈ (m.maybePurge heap).map.keys) : e ∈ m.map.keys := by
  unfold WeakExactHashMap.maybePurge at h
  split_ifs at h
  · exact h
  · simp only [WeakExactHashMap.purge, WeakExactHashMap.setPurgeThreshold,
      HashMap.keys_removeKeys] at h
    exact List.mem_of_mem_filter h

omit [DecidableEq K] in
theorem Fresh.maybePurge {heap : Heap K} {m : WeakExactHashMap K V} {k : K}
    (h : Fresh heap m k) : Fresh heap (m.maybePurge heap) k :=
  fun e he => h e (mem_keys_maybePurge he)

omit [DecidableEq K] in
theorem DistinctKeys.purge {heap : Heap K} {m : WeakExactHashMap K V} (h : DistinctKeys m) :
    DistinctKeys (m.purge heap).2 := by
  simp only [DistinctKeys, WeakExactHashMap.purge, WeakExactHashMap.setPurgeThreshold,
    HashMap.keys_removeKeys] at h ⊢
  exact h.sublist (List.Sublist.map _ List.filter_sublist)

omit [DecidableEq K] in
theorem DistinctKeys.maybePurge {heap : Heap K} {m : WeakExactHashMap K V}
    (h : DistinctKeys m) : DistinctKeys (m.maybePurge heap) := by
  unfold WeakExactHashMap.maybePurge
  split_ifs
  · exact h
  · exact h.purge

/-- A purge keeps the value of every live key. -/
theorem valueOf_purge {heap : Heap K} {m : WeakExactHashMap K V} {k : K}
    (hk : heap.cleared k = false) : valueOf (m.purge heap).2 k = valueOf m k := by
  apply HashMap.find_removeKeys
  intro e he
  have he : e.key = k := by simpa [Entry.isFor] using he
  simp [(Entry.get_eq_some hk).mpr he]

theorem valueOf_maybePurge {heap : Heap K} {m : WeakExactHashMap K V} {k : K}
    (hk : heap.cleared k = false) : valueOf (m.maybePurge heap) k = valueOf m k := by
  unfold WeakExactHashMap.maybePurge
  split_ifs
  · rfl
  · exact valueOf_purge hk

/-! ## `get` and `put` of a live key -/

/-- `get` on a fresh key is the exact lookup. -/
theorem get_of_fresh {heap : Heap K} {m : WeakExactHashMap K V} {k : K}
    (hk : heap.cleared k = false) (hf : Fresh heap m k) :
    m.get heap (some k) = (.ok (valueOf m k), m.maybePurge heap) := by
  rw [← valueOf_maybePurge hk]
  simp only [WeakExactHashMap.get, Entry.new]
  rw [HashMap.find_congr (Entry.holds_of_fresh hk hf.maybePurge)]
  rfl

/-- `get` on a key whose hash code changed since its entry was made answers
    null, whatever the entry holds. -/
theorem get_of_stale {heap : Heap K} {m : WeakExactHashMap K V} {k : K}
    (hk : heap.cleared k = false)
    (hs : ∀ e ∈ m.map.keys, e.key = k → e.hash ≠ heap.hashCode k) :
    (m.get heap (some k)).1 = .ok none := by
  have hnone : ∀ e ∈ (m.maybePurge heap).map.keys,
      (Entry.mk k (heap.hashCode k)).holds heap e = false :=
    Entry.holds_of_stale hk fun e he => hs e (mem_keys_maybePurge he)
  simp only [WeakExactHashMap.get, Entry.new, HashMap.find, HashMap.node]
  rw [List.find?_eq_none.mpr]
  · rfl
  · intro n hn
    simp [hnone n.1 (List.mem_map_of_mem hn)]

/-- `put` on a fresh key returns the value of the key's entry. -/
theorem put_of_fresh {heap : Heap K} {m : WeakExactHashMap K V} {k : K}
    (hk : heap.cleared k = false) (hf : Fresh heap m k) (value : JRef V) :
    (m.put heap (some k) value).1 = .ok (valueOf m k) := by
  rw [← valueOf_maybePurge hk]
  simp only [WeakExactHashMap.put, Entry.new]
  rw [HashMap.put_fst, HashMap.find_congr (Entry.holds_of_fresh hk hf.maybePurge)]
  rfl

/-- The map after `put` on a fresh key, as a `put` by identity. -/
theorem put_map_of_fresh {heap : Heap K} {m : WeakExactHashMap K V} {k : K}
    (hk : heap.cleared k = false) (hf : Fresh heap m k) (value : JRef V) :
    (m.put heap (some k) value).2.map =
      ((m.maybePurge heap).map.put (Entry.isFor k) ⟨k, heap.hashCode k⟩ value).2 := by
  simp only [WeakExactHashMap.put, Entry.new]
  rw [HashMap.put_congr (Entry.holds_of_fresh hk hf.maybePurge)]

theorem DistinctKeys.put {heap : Heap K} {m : WeakExactHashMap K V} {k : K}
    (hk : heap.cleared k = false) (hf : Fresh heap m k) (hd : DistinctKeys m)
    (value : JRef V) : DistinctKeys (m.put heap (some k) value).2 := by
  have hd' : DistinctKeys (m.maybePurge heap) := hd.maybePurge
  unfold DistinctKeys at hd' ⊢
  rw [put_map_of_fresh hk hf]
  rcases HashMap.keys_put (Entry.isFor k) ⟨k, heap.hashCode k⟩ value (m.maybePurge heap).map with
    ⟨h, -⟩ | ⟨h, hno⟩
  · rw [h]
    exact hd'
  · rw [h, List.map_append, List.nodup_append]
    refine ⟨hd', by simp, ?_⟩
    intro a ha b hb
    obtain ⟨e, he, rfl⟩ := List.mem_map.mp ha
    obtain rfl : b = k := by simpa using hb
    simpa [Entry.isFor] using hno e he

/-- After `put(k, value)` the entry for `k` holds `value`. -/
theorem valueOf_put_self {heap : Heap K} {m : WeakExactHashMap K V} {k : K}
    (hk : heap.cleared k = false) (hf : Fresh heap m k) (value : JRef V) :
    valueOf (m.put heap (some k) value).2 k = value := by
  unfold valueOf
  rw [put_map_of_fresh hk hf]
  exact HashMap.find_put_self (by simp [Entry.isFor]) value _

/-- `put(k, value)` keeps the value of every other live key. -/
theorem valueOf_put_other {heap : Heap K} {m : WeakExactHashMap K V} {k k' : K}
    (hk : heap.cleared k = false) (hk' : heap.cleared k' = false) (hne : k' ≠ k)
    (hf : Fresh heap m k) (value : JRef V) :
    valueOf (m.put heap (some k) value).2 k' = valueOf m k' := by
  rw [← valueOf_maybePurge (m := m) hk']
  unfold valueOf
  rw [put_map_of_fresh hk hf]
  apply HashMap.find_put_other
  · simpa [Entry.isFor] using hne.symm
  · intro e he
    have he : e.key = k := by simpa [Entry.isFor] using he
    simpa [Entry.isFor, he] using hne.symm

end JSEngine.WeakMap
