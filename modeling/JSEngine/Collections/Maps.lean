import JSEngine.Collections.Records

/-!
# Maps and sets

The methods of `Map` and `Set` (`js_map_set` to `js_map_iterator_next`, quickjs.c:45188-45514), one
definition for both: `is_set` is `magic`. Memory may be missing for a record or for a larger table;
everything else finds memory. The callback of `forEach` runs between two actions: the call begins
or goes on with `forEach` or `ret`, and comes to its next callback or returns.
-/

namespace JSEngine.Collections

open JSEngine.Common.Cursors

variable {V : Type*}

/-- A value that script is shown: a key or a value of the map. -/
inductive Shown (V : Type*)
  | key (key : Key)
  | value (value : Option V)

/-- What an action leads to. An item of an iterator is a value, or an array of two; `call` is a
    callback with the value and the key. -/
inductive Answer (V : Type*)
  | undefined
  | map
  | exception
  | bool (b : Bool)
  | size (n : ℕ)
  | value (value : Option V)
  | iterator (it : ℕ)
  | item (values : List (Shown V))
  | done
  | call (value : Shown V) (key : Key)

/-- The second value of an entry: a set shows the key again. -/
def shownValue (is_set : Bool) (key : Key) (value : Option V) : Shown V :=
  if is_set then .key key else .value value

/-- What an iterator of a kind shows of an entry (lines 45498-45512). -/
def JSIteratorKindEnum.shows (is_set : Bool) (key : Key) (value : Option V) :
    JSIteratorKindEnum → List (Shown V)
  | .KEY => [.key key]
  | .VALUE => [shownValue is_set key value]
  | .KEY_AND_VALUE => [.key key, shownValue is_set key value]

namespace JSMapState

/-- The first record that is not empty from `el` on, `none` at the end of the list. -/
def firstFrom (s : JSMapState V) (el : Option ℕ) : Option (Option (ℕ × JSMapRecord V)) :=
  match el with
  | none => some none
  | some el =>
    match s.record el with
    | none => none
    | some _ => s.firstIn (since s.records el)

/-- `mr->link.next`. -/
def linkNext (s : JSMapState V) (i : ℕ) : Option (Option ℕ) :=
  (s.record i).map fun _ => (after s.records i).head?

end JSMapState

namespace State

/-- `mr->value = JS_DupValue(ctx, value)`. -/
def setValue (s : State V) (i : ℕ) (value : Option V) : Option (State V) :=
  (s.map_state.record i).map fun mr =>
    { s with map_state := s.map_state.set i { mr with value := value } }

/-- `js_map_set` (lines 45188-45213); freeing the old value finalizes `dead`. -/
def js_map_set (is_set : Bool) (s : State V) (key : Key) (value : Option V) (memory : Bool)
    (slack : Option ℕ) (dead : List ℕ) : Option (State V × Answer V) :=
  let key := map_normalize_key key
  let value := if is_set then none else value
  match s.map_state.map_find_record key with
  | none => none
  | some (some i) => ((s.finalize dead).bind fun s => s.setValue i value).map fun s => (s, .map)
  | some none =>
    if memory then
      (s.map_state.map_add_record key slack).bind fun r =>
        (({ s with map_state := r.1 } : State V).setValue r.2 value).map fun s => (s, .map)
    else some (s, .exception)

/-- `js_map_get` (lines 45215-45230). -/
def js_map_get (s : State V) (key : Key) : Option (State V × Answer V) :=
  match s.map_state.map_find_record (map_normalize_key key) with
  | none => none
  | some none => some (s, .value none)
  | some (some i) => (s.map_state.record i).map fun mr => (s, .value mr.value)

/-- `js_map_has` (lines 45232-45245). -/
def js_map_has (s : State V) (key : Key) : Option (State V × Answer V) :=
  (s.map_state.map_find_record (map_normalize_key key)).map fun mr => (s, .bool mr.isSome)

/-- `js_map_delete` (lines 45247-45263). -/
def js_map_delete (s : State V) (key : Key) (dead : List ℕ) : Option (State V × Answer V) :=
  match s.map_state.map_find_record (map_normalize_key key) with
  | none => none
  | some none => some (s, .bool false)
  | some (some i) => (s.map_delete_record i dead).map fun s => (s, .bool true)

/-- `js_map_clear` (lines 45265-45280); freeing what is in the record `i` finalizes `dead i`. -/
def js_map_clear (s : State V) (dead : ℕ → List ℕ) : Option (State V × Answer V) :=
  (s.clearLoop dead s.map_state.records.length s.map_state.records.head?).map fun s =>
    (s, .undefined)

/-- `js_map_get_size` (lines 45282-45288). -/
def js_map_get_size (s : State V) : State V × Answer V := (s, .size s.map_state.record_count)

/-- `js_create_map_iterator` (lines 45440-45470). -/
def js_create_map_iterator (s : State V) (kind : JSIteratorKindEnum) : State V × Answer V :=
  ({ s with iterators := s.iterators ++ [some ⟨true, kind, none⟩] }, .iterator s.iterators.length)

/-- `js_map_iterator_next` (lines 45472-45514). -/
def js_map_iterator_next (is_set : Bool) (s : State V) (it : ℕ) : Option (State V × Answer V) :=
  match s.iterators[it]? with
  | some (some data) =>
    if data.obj = false then some (s, .done)
    else
      let start : Option (JSMapState V × Option ℕ) :=
        match data.cur_record with
        | none => some (s.map_state, s.map_state.records.head?)
        | some i =>
          (s.map_state.linkNext i).bind fun el =>
            (s.map_state.map_decref_record i).map fun map_state => (map_state, el)
      start.bind fun r =>
        match r.1.firstFrom r.2 with
        | none => none
        | some none =>
          some ({ s with
            map_state := r.1
            iterators := s.iterators.set it (some ⟨false, data.kind, none⟩) }, .done)
        | some (some (i, mr)) =>
          (r.1.lock i).map fun map_state =>
            ({ s with
              map_state := map_state
              iterators := s.iterators.set it (some ⟨true, data.kind, some i⟩) },
              .item (data.kind.shows is_set mr.key mr.value))
  | _ => none

/-- `js_map_forEach` from `el` on (lines 45310-45338), up to the next callback. -/
def forEachFrom (is_set : Bool) (s : State V) (el : Option ℕ) : Option (State V × Answer V) :=
  match s.map_state.firstFrom el with
  | none => none
  | some none => some (s, .undefined)
  | some (some (i, mr)) =>
    (s.map_state.lock i).map fun map_state =>
      ({ s with map_state := map_state, frames := i :: s.frames },
        .call (shownValue is_set mr.key mr.value) mr.key)

/-- `js_map_forEach` up to its first callback (lines 45290-45309). -/
def js_map_forEach (is_set : Bool) (s : State V) : Option (State V × Answer V) :=
  s.forEachFrom is_set s.map_state.records.head?

/-- A callback returns (lines 45323-45334): freeing the arguments finalizes `dead`, and freeing what
    the callback returns finalizes `ret`; `none` is an exception. -/
def callbackReturns (is_set : Bool) (s : State V) (dead : List ℕ) (ret : Option (List ℕ)) :
    Option (State V × Answer V) :=
  match s.frames with
  | [] => none
  | i :: frames =>
    (s.finalize dead).bind fun s =>
      (s.map_state.linkNext i).bind fun el =>
        (s.map_state.map_decref_record i).bind fun map_state =>
          let s : State V := { s with map_state := map_state, frames := frames }
          match ret with
          | none => some (s, .exception)
          | some ret => (s.finalize ret).bind fun s => s.forEachFrom is_set el

end State

/-! ## Actions -/

/-- What script does with a map, and the end of an iterator that script has let go of. -/
inductive Action (V : Type*)
  | set (key : Key) (value : Option V) (memory : Bool) (slack : Option ℕ) (dead : List ℕ)
  | get (key : Key)
  | has (key : Key)
  | delete (key : Key) (dead : List ℕ)
  | clear (dead : ℕ → List ℕ)
  | size
  | iterator (kind : JSIteratorKindEnum)
  | next (it : ℕ)
  | forEach
  | ret (dead : List ℕ) (ret : Option (List ℕ))
  | finalize (it : ℕ)

/-- The action in the source; `none` where freed memory is used. -/
def State.perform (is_set : Bool) (s : State V) : Action V → Option (State V × Answer V)
  | .set key value memory slack dead => s.js_map_set is_set key value memory slack dead
  | .get key => s.js_map_get key
  | .has key => s.js_map_has key
  | .delete key dead => s.js_map_delete key dead
  | .clear dead => s.js_map_clear dead
  | .size => some s.js_map_get_size
  | .iterator kind => some (s.js_create_map_iterator kind)
  | .next it => s.js_map_iterator_next is_set it
  | .forEach => s.js_map_forEach is_set
  | .ret dead ret => s.callbackReturns is_set dead ret
  | .finalize it => (s.js_map_iterator_finalizer it).map fun s => (s, .undefined)

end JSEngine.Collections
