import JSEngine.Java.Basic

/-!
# `java.util.HashMap`

The map is the list of its nodes. `HashMap` compares the stored hash of a node
first and calls `equals` only where it agrees, so a lookup is a search for the
first node that `holds` the key; with keys whose hash code changed after
insertion this is where the class leaves the contract of `Map`.

Lookups are stated for any predicate `p` on keys (`find p`), so that a lookup
by hash and `equals` can be compared with a lookup by identity:
* `put_fst`: `put` returns what the lookup found;
* `find_put_self`, `find_put_other`: what a later lookup finds;
* `find_removeKeys`: removing other keys does not change a lookup;
* `keys_put`, `containsKey_put`: a new node is added only where the lookup found
  none.
-/

namespace JSEngine.Java

/-- The mappings of a `HashMap<E, V>`, one node each. -/
structure HashMap (E V : Type*) where
  nodes : List (E × JRef V) := []

namespace HashMap

variable {E V : Type*}

/-- The node test of `HashMap.getNode`: `n.hash == hash(key) && key.equals(n.key)`. -/
def holds (hash : E → JInt) (equals : E → E → Bool) (key : E) (e : E) : Bool :=
  hash e == hash key && equals key e

/-- The first node whose key satisfies `p`. -/
def node (p : E → Bool) (m : HashMap E V) : Option (E × JRef V) := m.nodes.find? fun n => p n.1

/-- `map.get`: null both for no mapping and for a mapping to null. -/
def find (p : E → Bool) (m : HashMap E V) : JRef V := (m.node p).bind Prod.snd

/-- `map.containsKey`. -/
def containsKey (p : E → Bool) (m : HashMap E V) : Bool := (m.node p).isSome

/-- The nodes after `map.put(key, value)`, and the value it returns: the value
    of the node that satisfies `p` is replaced and its key kept, else a node is
    added. -/
def putNodes (p : E → Bool) (key : E) (value : JRef V) :
    List (E × JRef V) → JRef V × List (E × JRef V)
  | [] => (none, [(key, value)])
  | n :: ns =>
    if p n.1 then (n.2, (n.1, value) :: ns)
    else
      let r := putNodes p key value ns
      (r.1, n :: r.2)

/-- `map.put(key, value)`. -/
def put (p : E → Bool) (key : E) (value : JRef V) (m : HashMap E V) : JRef V × HashMap E V :=
  let r := putNodes p key value m.nodes
  (r.1, ⟨r.2⟩)

/-- Iterating over `map.keySet()` and calling `iter.remove()` on every key that
    satisfies `p`. -/
def removeKeys (p : E → Bool) (m : HashMap E V) : HashMap E V :=
  ⟨m.nodes.filter fun n => !p n.1⟩

/-- `map.size()`. -/
def size (m : HashMap E V) : ℕ := m.nodes.length

/-- `map.clear()`. -/
def clear (_ : HashMap E V) : HashMap E V := ⟨[]⟩

/-- The keys, in the order of insertion. -/
def keys (m : HashMap E V) : List E := m.nodes.map Prod.fst

@[simp] theorem find_nil (p : E → Bool) : (⟨[]⟩ : HashMap E V).find p = none := rfl

@[simp] theorem keys_nil : (⟨[]⟩ : HashMap E V).keys = [] := rfl

theorem find_cons (p : E → Bool) (n : E × JRef V) (ns : List (E × JRef V)) :
    (⟨n :: ns⟩ : HashMap E V).find p = if p n.1 then n.2 else (⟨ns⟩ : HashMap E V).find p := by
  unfold find node
  rw [List.find?_cons]
  cases p n.1 <;> rfl

/-- A value that a lookup finds is the value of some node. -/
theorem mem_values_of_find {p : E → Bool} {m : HashMap E V} {v : V} (h : m.find p = some v) :
    some v ∈ m.nodes.map Prod.snd := by
  obtain ⟨n, hn, hv⟩ := Option.bind_eq_some_iff.mp h
  rw [← hv]
  exact List.mem_map_of_mem (List.mem_of_find?_eq_some hn)

/-- Two predicates that agree on the stored keys find the same value. -/
theorem find_congr {p q : E → Bool} {m : HashMap E V} (h : ∀ e ∈ m.keys, p e = q e) :
    m.find p = m.find q := by
  obtain ⟨ns⟩ := m
  induction ns with
  | nil => rfl
  | cons n ns ih =>
    rw [find_cons, find_cons, h n.1 (by simp [keys]), ih fun e he => h e (by simp [keys] at he ⊢; tauto)]

/-- A key that the map does not have is added at the end. -/
theorem put_nodes_of_new {p : E → Bool} {m : HashMap E V} (h : ∀ e ∈ m.keys, p e = false) (key : E)
    (value : JRef V) : (m.put p key value).2.nodes = m.nodes ++ [(key, value)] := by
  obtain ⟨ns⟩ := m
  show (putNodes p key value ns).2 = ns ++ [(key, value)]
  induction ns with
  | nil => rfl
  | cons n ns ih =>
    have hn : p n.1 = false := h n.1 (by simp [keys])
    have ih := ih fun e he => h e (List.mem_cons_of_mem _ he)
    simp only [putNodes, hn, List.cons_append, ← ih]
    rfl

/-- Putting distinct keys in turn lists them in that order. -/
theorem foldl_put_nodes [BEq E] [LawfulBEq E] {entries : List (E × JRef V)} {m : HashMap E V}
    (h : (m.keys ++ entries.map Prod.fst).Nodup) :
    (entries.foldl (fun m e => (m.put (· == e.1) e.1 e.2).2) m).nodes = m.nodes ++ entries := by
  induction entries generalizing m with
  | nil => exact (List.append_nil _).symm
  | cons e entries ih =>
    have hnew : ∀ e' ∈ m.keys, (e' == e.1) = false := by
      intro e' he'
      rw [beq_eq_false_iff_ne]
      rintro rfl
      exact (List.nodup_append.mp h).2.2 e.1 he' e.1 List.mem_cons_self rfl
    have hnodes := put_nodes_of_new hnew e.1 e.2
    rw [List.foldl_cons, ih, hnodes, List.append_assoc]
    · rfl
    · show ((m.put (· == e.1) e.1 e.2).2.nodes.map Prod.fst ++ entries.map Prod.fst).Nodup
      rw [hnodes, List.map_append, List.append_assoc]
      exact h

theorem put_congr {p q : E → Bool} {m : HashMap E V} (h : ∀ e ∈ m.keys, p e = q e) (key : E)
    (value : JRef V) : m.put p key value = m.put q key value := by
  obtain ⟨ns⟩ := m
  have hns : putNodes p key value ns = putNodes q key value ns := by
    induction ns with
    | nil => rfl
    | cons n ns ih =>
      rw [putNodes, putNodes, h n.1 (by simp [keys]),
        ih fun e he => h e (by simp [keys] at he ⊢; tauto)]
  simp only [put, hns]

/-- `put` returns the value the lookup finds before it. -/
theorem put_fst (p : E → Bool) (key : E) (value : JRef V) (m : HashMap E V) :
    (m.put p key value).1 = m.find p := by
  obtain ⟨ns⟩ := m
  induction ns with
  | nil => rfl
  | cons n ns ih =>
    rw [find_cons, ← ih]
    simp only [put, putNodes]
    split_ifs <;> rfl

theorem find_put_self {p : E → Bool} {key : E} (hkey : p key = true) (value : JRef V)
    (m : HashMap E V) : (m.put p key value).2.find p = value := by
  obtain ⟨ns⟩ := m
  induction ns with
  | nil => simp [put, putNodes, find_cons, hkey]
  | cons n ns ih =>
    simp only [put, putNodes] at ih ⊢
    split_ifs with hn
    · rw [find_cons, if_pos hn]
    · rw [find_cons, if_neg hn]
      exact ih

/-- A key that satisfies `q` is not touched by a `put` under `p`. -/
theorem find_put_other {p q : E → Bool} {key : E} (hkey : q key = false)
    (hpq : ∀ e, p e = true → q e = false) (value : JRef V) (m : HashMap E V) :
    (m.put p key value).2.find q = m.find q := by
  obtain ⟨ns⟩ := m
  induction ns with
  | nil => simp [put, putNodes, find_cons, hkey]
  | cons n ns ih =>
    simp only [put, putNodes] at ih ⊢
    split_ifs with hn
    · rw [find_cons, find_cons, hpq _ hn]
      rfl
    · rw [find_cons, find_cons, ih]

/-- The keys after `put`: unchanged where the lookup found a node, else `key`
    is added. -/
theorem keys_put (p : E → Bool) (key : E) (value : JRef V) (m : HashMap E V) :
    (m.put p key value).2.keys = m.keys ∧ (∃ e ∈ m.keys, p e = true) ∨
      (m.put p key value).2.keys = m.keys ++ [key] ∧ ∀ e ∈ m.keys, p e = false := by
  obtain ⟨ns⟩ := m
  induction ns with
  | nil => right; simp [put, putNodes, keys]
  | cons n ns ih =>
    simp only [put, putNodes, keys] at ih ⊢
    by_cases hn : p n.1 = true
    · left; simp [hn]
    · rcases ih with ⟨h1, e, he, hpe⟩ | ⟨h1, h2⟩
      · left
        refine ⟨by simp [hn, h1], e, by simp at he ⊢; tauto, hpe⟩
      · right
        refine ⟨by simp [hn, h1], ?_⟩
        intro e he
        rcases List.mem_cons.mp he with rfl | he
        · simpa using hn
        · exact h2 e he

theorem containsKey_iff (p : E → Bool) (m : HashMap E V) :
    m.containsKey p = true ↔ ∃ e ∈ m.keys, p e = true := by
  simp [containsKey, node, keys, List.find?_isSome]

/-- `put` under `p` adds the key and no other. -/
theorem containsKey_put (p : E → Bool) (key : E) (q : E → Bool)
    (value : JRef V) (m : HashMap E V) :
    (m.put p key value).2.containsKey q = true ↔
      m.containsKey q = true ∨ (¬m.containsKey p = true ∧ q key = true) := by
  simp only [containsKey_iff]
  rcases keys_put p key value m with ⟨hk, hp⟩ | ⟨hk, hp⟩
  · rw [hk]
    constructor
    · exact Or.inl
    · rintro (h | ⟨hno, -⟩)
      · exact h
      · exact absurd hp hno
  · have hno : ¬∃ e ∈ m.keys, p e = true := by
      rintro ⟨e, he, hpe⟩
      rw [hp e he] at hpe
      cases hpe
    rw [hk]
    simp only [List.mem_append, List.mem_singleton]
    constructor
    · rintro ⟨e, he | rfl, hq⟩
      · exact Or.inl ⟨e, he, hq⟩
      · exact Or.inr ⟨hno, hq⟩
    · rintro (⟨e, he, hq⟩ | ⟨-, hq⟩)
      · exact ⟨e, Or.inl he, hq⟩
      · exact ⟨key, Or.inr rfl, hq⟩

theorem keys_removeKeys (p : E → Bool) (m : HashMap E V) :
    (m.removeKeys p).keys = m.keys.filter fun e => !p e := by
  obtain ⟨ns⟩ := m
  simp [removeKeys, keys, Function.comp_def, List.filter_map]

/-- Removing keys that `q` does not look for does not change its lookup. -/
theorem find_removeKeys {p q : E → Bool} (hpq : ∀ e, q e = true → p e = false)
    (m : HashMap E V) : (m.removeKeys p).find q = m.find q := by
  obtain ⟨ns⟩ := m
  induction ns with
  | nil => rfl
  | cons n ns ih =>
    rw [find_cons, ← ih]
    simp only [removeKeys, List.filter_cons]
    by_cases hq : q n.1 = true
    · simp [hq, hpq _ hq, find_cons]
    · by_cases hp : p n.1 = true <;> simp [hp, hq, find_cons]

end HashMap

end JSEngine.Java
