import JSEngine.Collections.Keys
import JSEngine.Common.Cursors

/-!
# The records of a map

A `Map` or `Set` keeps a `JSMapRecord` for each key, in a list in the order of insertion and in the
chain of its hash (quickjs.c:44830-44863). Iterators and calls of `forEach` lock the record they are
at by its reference count; a record that is deleted then stays in the list, empty, until the last
lock on it is released.

A record is known by the number of records that have been made before it. What has been freed is no
record any more, and a step that reads it fails, as it does where an `assert` fails. The freeing of a
key or a value is the freeing of the iterators that nothing else refers to: they are given.
-/

namespace JSEngine.Collections

open JSEngine.Atoms (bucketOf)
open JSEngine.Common.Cursors

variable {V : Type*}

/-! ## Records -/

/-- `JSMapRecord`; the value `none` is `JS_UNDEFINED`. -/
structure JSMapRecord (V : Type*) where
  ref_count : ℕ
  empty : Bool
  key : Key
  value : Option V

/-- `JSMapState`, with the records that are in memory, and how many have been made. -/
structure JSMapState (V : Type*) where
  records : List ℕ
  record_count : ℕ
  hash_table : ℕ → List ℕ
  hash_size : ℕ
  record_count_threshold : ℕ
  record : ℕ → Option (JSMapRecord V)
  made : ℕ

namespace JSMapState

/-- A new map (lines 44884-44894). -/
def new : JSMapState V where
  records := []
  record_count := 0
  hash_table _ := []
  hash_size := 1
  record_count_threshold := 4
  record _ := none
  made := 0

/-- A record is written. -/
def set (s : JSMapState V) (i : ℕ) (mr : JSMapRecord V) : JSMapState V :=
  { s with record := Function.update s.record i (some mr) }

/-- `list_del(&mr->link); js_free_rt(rt, mr);` -/
def free (s : JSMapState V) (i : ℕ) : JSMapState V :=
  { s with records := s.records.erase i, record := Function.update s.record i none }

/-- The first record of a chain with the key. -/
def findIn (s : JSMapState V) (key : Key) : List ℕ → Option (Option ℕ)
  | [] => some none
  | i :: chain =>
    match s.record i with
    | none => none
    | some mr => if js_same_value_zero mr.key key then some (some i) else s.findIn key chain

/-- `map_find_record` (lines 45023-45036). -/
def map_find_record (s : JSMapState V) (key : Key) : Option (Option ℕ) :=
  s.findIn key (s.hash_table (bucketOf s.hash_size (map_hash_key key)))

/-- The records that are not empty are put into the chains of a new table (lines 45059-45065). -/
def rehash (s : JSMapState V) (new_hash_size : ℕ) : List ℕ → (ℕ → List ℕ) → Option (ℕ → List ℕ)
  | [], table => some table
  | i :: l, table =>
    match s.record i with
    | none => none
    | some mr =>
      if mr.empty then s.rehash new_hash_size l table
      else
        let h := bucketOf new_hash_size (map_hash_key mr.key)
        s.rehash new_hash_size l (Function.update table h (table h ++ [i]))

/-- `map_hash_resize` (lines 45038-45069); `slack` is the room for further chains that
    `js_realloc2` reports, if it finds memory. -/
def map_hash_resize (s : JSMapState V) (slack : Option ℕ) : Option (JSMapState V) :=
  match slack with
  | none => some s
  | some slack =>
    let new_hash_size := (if s.hash_size = 1 then 4 else s.hash_size * 2) + slack
    (s.rehash new_hash_size s.records fun _ => []).map fun table =>
      { s with
        hash_table := table
        hash_size := new_hash_size
        record_count_threshold := new_hash_size * 2 }

/-- `map_add_record` (lines 45071-45101), where there is memory for the record. The value comes
    later. -/
def map_add_record (s : JSMapState V) (key : Key) (slack : Option ℕ) :
    Option (JSMapState V × ℕ) :=
  let i := s.made
  let h := bucketOf s.hash_size (map_hash_key key)
  let s : JSMapState V :=
    { s.set i ⟨1, false, key, none⟩ with
      records := s.records ++ [i]
      hash_table := Function.update s.hash_table h (s.hash_table h ++ [i])
      record_count := s.record_count + 1
      made := s.made + 1 }
  (if s.record_count_threshold ≤ s.record_count then s.map_hash_resize slack else some s).map
    fun s => (s, i)

/-- `map_decref_record` (lines 45150-45158). -/
def map_decref_record (s : JSMapState V) (i : ℕ) : Option (JSMapState V) :=
  match s.record i with
  | none => none
  | some mr =>
    if mr.ref_count - 1 = 0 then if mr.empty then some (s.free i) else none
    else some (s.set i { mr with ref_count := mr.ref_count - 1 })

/-- `mr->ref_count++`. -/
def lock (s : JSMapState V) (i : ℕ) : Option (JSMapState V) :=
  (s.record i).map fun mr => s.set i { mr with ref_count := mr.ref_count + 1 }

/-- The first record of a part of the list that is not empty. -/
def firstIn (s : JSMapState V) : List ℕ → Option (Option (ℕ × JSMapRecord V))
  | [] => some none
  | i :: l =>
    match s.record i with
    | none => none
    | some mr => if mr.empty then s.firstIn l else some (some (i, mr))

end JSMapState

/-! ## Iterators -/

/-- `JSIteratorKindEnum`. -/
inductive JSIteratorKindEnum
  | KEY
  | VALUE
  | KEY_AND_VALUE

/-- `JSMapIteratorData`; `obj` says whether the iterator still has its map. -/
structure JSMapIteratorData where
  obj : Bool
  kind : JSIteratorKindEnum
  cur_record : Option ℕ

/-- A map with its iterators, by the order in which they were made, and the records at which the
    calls of `forEach` in progress are, the innermost first. -/
structure State (V : Type*) where
  map_state : JSMapState V
  iterators : List (Option JSMapIteratorData)
  frames : List ℕ

namespace State

/-- `js_map_iterator_finalizer` (lines 45411-45426); the map lives. -/
def js_map_iterator_finalizer (s : State V) (it : ℕ) : Option (State V) :=
  match s.iterators[it]? with
  | some (some data) =>
    let map_state :=
      match data.cur_record with
      | some i => s.map_state.map_decref_record i
      | none => some s.map_state
    map_state.map fun map_state =>
      { s with map_state := map_state, iterators := s.iterators.set it none }
  | _ => none

/-- The iterators are finalized in turn. -/
def finalize (s : State V) (dead : List ℕ) : Option (State V) :=
  dead.foldlM js_map_iterator_finalizer s

/-- The end of `map_delete_record` (lines 45138-45147). -/
def releaseRecord (s : State V) (i : ℕ) : Option (State V) :=
  match s.map_state.record i with
  | none => none
  | some mr =>
    let map_state : JSMapState V :=
      if mr.ref_count - 1 = 0 then s.map_state.free i
      else s.map_state.set i ⟨mr.ref_count - 1, true, .undefined, none⟩
    some { s with map_state :=
      { map_state with record_count := map_state.record_count - 1 } }

/-- `map_delete_record` (lines 45126-45148); freeing the key and the value finalizes the iterators
    `dead`. -/
def map_delete_record (s : State V) (i : ℕ) (dead : List ℕ) : Option (State V) :=
  match s.map_state.record i with
  | none => none
  | some mr =>
    if mr.empty then some s
    else
      let s : State V := { s with map_state :=
        { s.map_state with hash_table := fun h => (s.map_state.hash_table h).erase i } }
      (s.finalize dead).bind fun s => s.releaseRecord i

/-- The loop of `js_map_clear` at `el`; `el1` is read before its body. -/
def clearLoop (dead : ℕ → List ℕ) : ℕ → State V → Option ℕ → Option (State V)
  | _, s, none => some s
  | 0, _, some _ => none
  | n + 1, s, some el =>
    match s.map_state.record el with
    | none => none
    | some _ =>
      let el1 := (after s.map_state.records el).head?
      (s.map_delete_record el (dead el)).bind fun s => s.clearLoop dead n el1

end State

end JSEngine.Collections
