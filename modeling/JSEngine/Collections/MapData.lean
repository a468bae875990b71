import JSEngine.Collections.Maps
import JSEngine.Common.Machine

/-!
# Maps as the language defines them

ECMAScript gives a map or set a list of entries, `[[MapData]]`, to which entries are only added at
the end. A deleted entry becomes empty and stays. An iterator has an index into the list, and so
has a call of `forEach`; both go on with the first entry from there on that is not empty.

* `MapData.find_eq_some`: the entry with a key;
* `MapData.Unique.act`: no two entries have equal keys.
-/

namespace JSEngine.Collections

open JSEngine.Common.Cursors

variable {V : Type*}

/-- An iterator, with the index of the entry it goes on with; `none` where it has ended. -/
structure MapIterator where
  kind : JSIteratorKindEnum
  index : Option ℕ

/-- A map: its entries, `none` for an empty one, the iterators that have been made, and the entries
    that the calls of `forEach` are at. -/
structure MapData (V : Type*) where
  entries : List (Option (Key × Option V))
  iterators : List (Option MapIterator)
  frames : List ℕ

namespace MapData

/-- The entry at an index. -/
def entry (t : MapData V) (i : ℕ) : Option (Key × Option V) := t.entries[i]?.join

/-- The entry at `i` has the key. -/
def hasKey (t : MapData V) (key : Key) (i : ℕ) : Bool :=
  (t.entry i).any fun e => js_same_value_zero e.1 key

/-- The first entry with a key. -/
def find (t : MapData V) (key : Key) : Option ℕ :=
  (List.range t.entries.length).find? (t.hasKey key)

/-- The first entry from an index on that is not empty. -/
def nextFrom (t : MapData V) (index : ℕ) : Option ℕ :=
  (List.range t.entries.length).find? fun i => decide (index ≤ i) && (t.entry i).isSome

/-- An entry is set to a value. -/
def setValue (t : MapData V) (i : ℕ) (value : Option V) : MapData V :=
  { t with entries := t.entries.modify i (Option.map fun e => (e.1, value)) }

/-- An entry is added at the end. -/
def add (t : MapData V) (key : Key) (value : Option V) : MapData V :=
  { t with entries := t.entries ++ [some (key, value)] }

/-- An entry becomes empty. -/
def erase (t : MapData V) (i : ℕ) : MapData V := { t with entries := t.entries.set i none }

/-- An iterator becomes another one. -/
def setIterator (t : MapData V) (it : ℕ) (data : Option MapIterator) : MapData V :=
  { t with iterators := t.iterators.set it data }

/-- The iterators are there no more. -/
def drop (t : MapData V) (dead : List ℕ) : MapData V :=
  dead.foldl (fun t it => t.setIterator it none) t

/-- The iterators that end when the entries in front of an index become empty. -/
def deadBefore (t : MapData V) (dead : ℕ → List ℕ) (index : ℕ) : List ℕ :=
  ((List.range index).filter fun i => (t.entry i).isSome).flatMap dead

/-- All entries become empty. -/
def clear (t : MapData V) (dead : ℕ → List ℕ) : MapData V :=
  { t.drop (t.deadBefore dead t.entries.length) with
    entries := t.entries.map fun _ => none }

/-- An iterator goes on to the entry `r`, or ends. -/
def advance (is_set : Bool) (t : MapData V) (it : ℕ) (kind : JSIteratorKindEnum) :
    Option ℕ → MapData V × Answer V
  | none => (t.setIterator it (some ⟨kind, none⟩), .done)
  | some i =>
    match t.entry i with
    | none => (t, .undefined)
    | some e => (t.setIterator it (some ⟨kind, some (i + 1)⟩), .item (kind.shows is_set e.1 e.2))

/-- `forEach` goes on to the entry `r`, or returns. -/
def forEachFrom (is_set : Bool) (t : MapData V) : Option ℕ → MapData V × Answer V
  | none => (t, .undefined)
  | some i =>
    match t.entry i with
    | none => (t, .undefined)
    | some e => ({ t with frames := i :: t.frames }, .call (shownValue is_set e.1 e.2) e.1)

/-- An action, where `r` is the entry with its key. -/
def act (is_set : Bool) (t : MapData V) (r : Option ℕ) : Action V → MapData V × Answer V
  | .set key value memory _ dead =>
    let value := if is_set then none else value
    match r with
    | some i => ((t.drop dead).setValue i value, .map)
    | none => if memory then (t.add (map_normalize_key key) value, .map) else (t, .exception)
  | .get _ => (t, .value ((r.bind t.entry).bind Prod.snd))
  | .has _ => (t, .bool r.isSome)
  | .delete _ dead =>
    match r with
    | some i => ((t.drop dead).erase i, .bool true)
    | none => (t, .bool false)
  | .clear dead => (t.clear dead, .undefined)
  | .size => (t, .size (t.entries.countP Option.isSome))
  | .iterator kind =>
    ({ t with iterators := t.iterators ++ [some ⟨kind, some 0⟩] }, .iterator t.iterators.length)
  | .next it =>
    match t.iterators[it]? with
    | some (some ⟨kind, some index⟩) => t.advance is_set it kind (t.nextFrom index)
    | _ => (t, .done)
  | .forEach => t.forEachFrom is_set (t.nextFrom 0)
  | .ret dead ret =>
    match t.frames with
    | [] => (t, .undefined)
    | i :: frames =>
      let t := { t.drop dead with frames := frames }
      match ret with
      | none => (t, .exception)
      | some ret => (t.drop ret).forEachFrom is_set (t.nextFrom (i + 1))
  | .finalize it => (t.setIterator it none, .undefined)

end MapData

/-- The key that an action looks up. -/
def Action.key? : Action V → Option Key
  | .set key _ _ _ _ | .get key | .has key | .delete key _ => some (map_normalize_key key)
  | _ => none

namespace MapData

/-! ## What can happen -/

/-- The iterator has been made and is still there. -/
def hasIterator (t : MapData V) (it : ℕ) : Bool := t.iterators[it]?.join.isSome

/-- The iterators are there, and each is given once. -/
def Ends (t : MapData V) (dead : List ℕ) : Prop := dead.Nodup ∧ ∀ it ∈ dead, t.hasIterator it

instance (t : MapData V) (dead : List ℕ) : Decidable (t.Ends dead) :=
  inferInstanceAs (Decidable (_ ∧ _))

/-- Only iterators that are there go on or end, and a callback returns only from a call. -/
def Allowed (t : MapData V) : Action V → Prop
  | .set _ _ _ _ dead | .delete _ dead => t.Ends dead
  | .clear dead => t.Ends (t.deadBefore dead t.entries.length)
  | .next it | .finalize it => t.hasIterator it
  | .ret dead ret => t.frames ≠ [] ∧ t.Ends (dead ++ ret.getD [])
  | _ => True

instance (t : MapData V) : ∀ a, Decidable (t.Allowed a)
  | .set .. | .delete .. | .clear _ => inferInstanceAs (Decidable (t.Ends _))
  | .next it | .finalize it => inferInstanceAs (Decidable (t.hasIterator it = true))
  | .ret .. => inferInstanceAs (Decidable (_ ∧ _))
  | .get _ | .has _ | .size | .iterator _ | .forEach => inferInstanceAs (Decidable True)

/-- A map of the language takes the actions that are possible. -/
def step (is_set : Bool) (t : MapData V) (a : Action V) : Option (MapData V × List (Answer V)) :=
  if t.Allowed a then
    let r := t.act is_set (a.key?.bind t.find) a
    some (r.1, [r.2])
  else none

end MapData

/-- The maps of the language, from a new one. -/
def languageMap (is_set : Bool) : JSEngine.Common.Machine (MapData V) (Action V) (Answer V) where
  init := ⟨[], [], []⟩
  step := MapData.step is_set

namespace MapData

variable {t : MapData V}

/-! ## Entries -/

theorem entry_lt {i : ℕ} {e : Key × Option V} (h : t.entry i = some e) : i < t.entries.length := by
  by_contra hi
  rw [entry, List.getElem?_eq_none (not_lt.mp hi)] at h
  cases h

theorem entry_setValue (i : ℕ) (value : Option V) (j : ℕ) : (t.setValue i value).entry j =
    if i = j then (t.entry j).map fun e => (e.1, value) else t.entry j := by
  rw [entry, setValue, List.getElem?_modify]
  split_ifs
  · rw [entry]
    cases t.entries[j]? <;> rfl
  · rw [entry]
    cases t.entries[j]? <;> rfl

theorem entry_add (key : Key) (value : Option V) (j : ℕ) : (t.add key value).entry j =
    if j = t.entries.length then some (key, value) else t.entry j := by
  rw [entry, add, entry]
  obtain hj | rfl | hj := lt_trichotomy j t.entries.length
  · rw [List.getElem?_append_left hj, if_neg hj.ne]
  · rw [List.getElem?_concat_length, if_pos rfl]
    rfl
  · rw [List.getElem?_eq_none (by simpa using hj), if_neg hj.ne', List.getElem?_eq_none hj.le]

theorem entry_erase (i j : ℕ) : (t.erase i).entry j = if i = j then none else t.entry j := by
  rw [entry, erase, entry, List.getElem?_set]
  split_ifs <;> rfl

theorem length_erase (i : ℕ) : (t.erase i).entries.length = t.entries.length :=
  List.length_set

theorem drop_entries (t : MapData V) (dead : List ℕ) : (t.drop dead).entries = t.entries := by
  induction dead generalizing t with
  | nil => rfl
  | cons it dead ih => exact ih _

theorem drop_frames (t : MapData V) (dead : List ℕ) : (t.drop dead).frames = t.frames := by
  induction dead generalizing t with
  | nil => rfl
  | cons it dead ih => exact ih _

theorem entry_drop (t : MapData V) (dead : List ℕ) : (t.drop dead).entry = t.entry := by
  funext i
  rw [entry, drop_entries, entry]

theorem drop_append (t : MapData V) (dead dead' : List ℕ) :
    t.drop (dead ++ dead') = (t.drop dead).drop dead' := List.foldl_append ..

theorem entry_clear (dead : ℕ → List ℕ) (i : ℕ) : (t.clear dead).entry i = none := by
  rw [entry, clear, List.getElem?_map]
  cases t.entries[i]? <;> rfl

/-! ## Keys -/

theorem hasKey_iff {key : Key} {i : ℕ} : t.hasKey key i = true ↔
    ∃ e, t.entry i = some e ∧ js_same_value_zero e.1 key = true := by
  rw [hasKey, Option.any_eq_true]

/-- No two entries have equal keys. -/
def Unique (t : MapData V) : Prop :=
  ∀ i j key, t.hasKey key i → t.hasKey key j → i = j

theorem find_eq_none {key : Key} : t.find key = none ↔ ∀ i, t.hasKey key i = false := by
  rw [find, List.find?_eq_none]
  constructor
  · intro h i
    by_contra hi
    rw [Bool.not_eq_false] at hi
    obtain ⟨e, he, -⟩ := hasKey_iff.mp hi
    exact h i (List.mem_range.mpr (entry_lt he)) hi
  · exact fun h i _ => by simp [h i]

/-- **The entry with a key** is the one that is found. -/
theorem Unique.find_eq_some (h : t.Unique) {key : Key} {i : ℕ} :
    t.find key = some i ↔ t.hasKey key i = true := by
  constructor
  · exact fun hi => List.find?_some hi
  · intro hi
    cases hr : t.find key with
    | none => rw [find_eq_none.mp hr i] at hi; cases hi
    | some j => rw [h j i key (List.find?_some hr) hi]

/-- Entries that keep their keys or become empty stay different. -/
theorem Unique.of_keys {t' : MapData V} (h : t.Unique)
    (hkeys : ∀ i e, t'.entry i = some e → ∃ e', t.entry i = some e' ∧ e'.1 = e.1) : t'.Unique := by
  have hback : ∀ {key i}, t'.hasKey key i → t.hasKey key i := by
    intro key i hi
    obtain ⟨e, he, hsame⟩ := hasKey_iff.mp hi
    obtain ⟨e', he', hkey⟩ := hkeys i e he
    exact hasKey_iff.mpr ⟨e', he', hkey ▸ hsame⟩
  exact fun i j key hi hj => h i j key (hback hi) (hback hj)

theorem Unique.add (h : t.Unique) {key : Key} (hkey : ∀ i, t.hasKey key i = false)
    (value : Option V) : (t.add key value).Unique := by
  -- an entry that is like the new one is the new one
  have hnew : ∀ {i key'}, (t.add key value).hasKey key' i → js_same_value_zero key key' = true →
      i = t.entries.length := by
    intro i key' hi hsame
    obtain ⟨e, he, hsame'⟩ := hasKey_iff.mp hi
    by_contra hne
    rw [entry_add, if_neg hne] at he
    refine absurd (hasKey_iff.mpr ⟨e, he, ?_⟩) (by rw [hkey i]; exact Bool.false_ne_true)
    rw [same_iff] at hsame hsame' ⊢
    exact hsame'.trans hsame.symm
  intro i j key' hi hj
  by_cases hsame : js_same_value_zero key key' = true
  · rw [hnew hi hsame, hnew hj hsame]
  · have hback : ∀ {i}, (t.add key value).hasKey key' i → t.hasKey key' i := by
      intro i hi
      obtain ⟨e, he, hsame'⟩ := hasKey_iff.mp hi
      rw [entry_add] at he
      split_ifs at he with hlast
      · obtain rfl := Option.some.inj he
        exact absurd hsame' hsame
      · exact hasKey_iff.mpr ⟨e, he, hsame'⟩
    exact h i j key' (hback hi) (hback hj)

theorem Unique.of_entries {t' : MapData V} (h : t.Unique) (heq : t'.entries = t.entries) :
    t'.Unique :=
  h.of_keys fun i e he => ⟨e, by rwa [entry, ← heq], rfl⟩

theorem advance_entries (is_set : Bool) (t : MapData V) (it : ℕ) (kind : JSIteratorKindEnum)
    (r : Option ℕ) : (t.advance is_set it kind r).1.entries = t.entries := by
  cases r with
  | none => rfl
  | some i =>
    rw [advance]
    cases t.entry i <;> rfl

theorem forEachFrom_entries (is_set : Bool) (t : MapData V) (r : Option ℕ) :
    (t.forEachFrom is_set r).1.entries = t.entries := by
  cases r with
  | none => rfl
  | some i =>
    rw [forEachFrom]
    cases t.entry i <;> rfl

/-- **An action keeps the keys different.** -/
theorem Unique.act (h : t.Unique) (is_set : Bool) (a : Action V) :
    (t.act is_set (a.key?.bind t.find) a).1.Unique := by
  cases a with
  | get | has | size | iterator | finalize => exact h.of_entries rfl
  | set key value memory slack dead =>
    cases hr : t.find (map_normalize_key key) with
    | none =>
      simp only [MapData.act, Action.key?, Option.bind_some, hr]
      cases memory with
      | true => exact h.add (find_eq_none.mp hr) _
      | false => exact h
    | some i =>
      simp only [MapData.act, Action.key?, Option.bind_some, hr]
      refine h.of_keys fun j e he => ?_
      rw [entry_setValue, entry_drop] at he
      by_cases hj : i = j
      · rw [if_pos hj] at he
        obtain ⟨e', he', rfl⟩ := Option.map_eq_some_iff.mp he
        exact ⟨e', he', rfl⟩
      · rw [if_neg hj] at he
        exact ⟨e, he, rfl⟩
  | delete key dead =>
    cases hr : t.find (map_normalize_key key) with
    | none =>
      simp only [MapData.act, Action.key?, Option.bind_some, hr]
      exact h
    | some i =>
      simp only [MapData.act, Action.key?, Option.bind_some, hr]
      refine h.of_keys fun j e he => ⟨e, ?_, rfl⟩
      rw [entry_erase, entry_drop] at he
      split_ifs at he
      exact he
  | clear dead =>
    refine h.of_keys fun j e he => ?_
    rw [MapData.act, entry_clear] at he
    cases he
  | next it =>
    rw [MapData.act]
    split
    · exact h.of_entries (advance_entries ..)
    · exact h
  | forEach => exact h.of_entries (forEachFrom_entries ..)
  | ret dead ret =>
    rw [MapData.act]
    cases t.frames with
    | nil => exact h
    | cons i frames =>
      have hdrop : ({ t.drop dead with frames := frames } : MapData V).entries = t.entries :=
        drop_entries t dead
      cases ret with
      | none => exact h.of_entries hdrop
      | some ret =>
        exact h.of_entries ((forEachFrom_entries ..).trans ((drop_entries _ _).trans hdrop))

/-! ## Locks -/

/-- The iterators whose last entry was the one at `i`, and the calls of `forEach` that are at it. -/
def locks (t : MapData V) (i : ℕ) : ℕ :=
  t.frames.count i + t.iterators.countP fun data => data.any fun data => data.index = some (i + 1)

/-- What an iterator adds to the locks of an entry. -/
def locked (data : Option MapIterator) (i : ℕ) : ℕ :=
  if data.any fun data => data.index = some (i + 1) then 1 else 0

theorem locks_setIterator {it : ℕ} {data : Option MapIterator} (h : t.iterators[it]? = some data)
    (data' : Option MapIterator) (i : ℕ) :
    (t.setIterator it data').locks i + locked data i = t.locks i + locked data' i := by
  obtain ⟨hlt, hget⟩ := List.getElem?_eq_some_iff.mp h
  have hle : locked data i ≤ t.iterators.countP fun data =>
      data.any fun data => data.index = some (i + 1) := by
    rw [locked]
    split_ifs with hany
    · exact List.countP_pos_iff.mpr ⟨data, hget ▸ List.getElem_mem hlt, hany⟩
    · exact Nat.zero_le _
  have hset := List.countP_set (p := fun data : Option MapIterator =>
    data.any fun data => data.index = some (i + 1)) (a := data') hlt
  rw [hget] at hset
  rw [locks, locks, setIterator, hset]
  simp only [locked] at *
  omega

/-- The entry is not empty, or there is a lock on it. -/
def alive (t : MapData V) (i : ℕ) : Bool := (t.entry i).isSome || decide (t.locks i ≠ 0)

/-- The first entry from an index on that is not empty or has a lock on it. -/
def nextAlive (t : MapData V) (index : ℕ) : Option ℕ :=
  (List.range t.entries.length).find? fun i => decide (index ≤ i) && t.alive i

/-- What is empty and has no lock on it is passed over. -/
theorem nextFrom_eq (t : MapData V) (index : ℕ) :
    t.nextFrom index = (t.nextAlive index).bind t.nextFrom :=
  find?_of_find? List.pairwise_lt_range (fun i hi => by rw [alive, hi, Bool.true_or]) index

/-- What is behind the entry stays when the iterators end. -/
def Outlives (t : MapData V) (dead : List ℕ) (i : ℕ) : Prop :=
  ∀ j ∈ t.nextAlive (i + 1), (t.drop dead).alive j

instance (t : MapData V) (dead : List ℕ) (i : ℕ) : Decidable (t.Outlives dead i) :=
  inferInstanceAs (Decidable (∀ j ∈ t.nextAlive (i + 1), (t.drop dead).alive j = true))

/-- No lock on the next record ends while a record is deleted by `clear`, or while the value that a
    callback of `forEach` returns is freed, if that record is empty and the lock is its last. -/
def Careful (t : MapData V) : Action V → Prop
  | .clear dead => ∀ i < t.entries.length, (t.entry i).isSome →
      (t.drop (t.deadBefore dead i)).Outlives (dead i) i
  | .ret dead (some ret) => ∀ i ∈ t.frames.head?, (t.drop dead).Outlives ret i
  | _ => True

instance (t : MapData V) : ∀ a, Decidable (t.Careful a)
  | .clear dead => inferInstanceAs (Decidable (∀ i < t.entries.length, (t.entry i).isSome = true →
      (t.drop (t.deadBefore dead i)).Outlives (dead i) i))
  | .ret dead (some ret) =>
    inferInstanceAs (Decidable (∀ i ∈ t.frames.head?, (t.drop dead).Outlives ret i))
  | .ret _ none | .set .. | .get _ | .has _ | .delete .. | .size | .iterator _ | .next _ |
    .forEach | .finalize _ => inferInstanceAs (Decidable True)

end MapData

end JSEngine.Collections
