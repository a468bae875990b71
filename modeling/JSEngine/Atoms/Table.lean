import JSEngine.Common.Chains
import JSEngine.Scalars.Strings

/-!
# The table of atoms

An atom is the number of an entry of `atom_array` (quickjs.c:2357-2995). The entries that are
strings or global symbols are chained in the hash table `atom_hash`, the free ones in a list that
starts with `atom_free_index`. An entry is freed with the last reference to it, be it as an atom
or as a value; predefined atoms, those below `JS_ATOM_END`, are not counted as atoms.

A function is `none` where the code would fail an assertion or use an entry that is free.
-/

namespace JSEngine.Atoms

open JSEngine.Common.Chains
open JSEngine.Java (JString)
open JSEngine.Scalars (JSString)

/-! ## Entries -/

/-- The values of `atom_type` (lines 468-473). A private symbol is asked for by
    `JS_ATOM_TYPE_PRIVATE`, and its entry is a symbol with a hash of its own. -/
inductive AtomType
  | STRING
  | GLOBAL_SYMBOL
  | SYMBOL
  | PRIVATE
  deriving DecidableEq

def AtomType.value : AtomType → UInt32
  | .STRING => 1
  | .GLOBAL_SYMBOL => 2
  | .SYMBOL => 3
  | .PRIVATE => 4

/-- `JSAtomStruct`, which is a `JSString` (lines 488-507); a symbol keeps its index in
    `hash_next`. -/
structure JSAtomStruct where
  ref_count : ℕ
  str : JSString
  hash : UInt32
  atom_type : AtomType
  hash_next : ℕ

/-- An entry of `atom_array`: the lowest bit tells a free one (lines 1845-1858). -/
inductive Slot
  | atom (p : JSAtomStruct)
  | free (next : ℕ)

/-- The fields of `JSRuntime` for atoms. -/
structure JSRuntime where
  atom_hash_size : ℕ
  atom_count : ℕ
  atom_size : ℕ
  atom_count_resize : ℕ
  atom_hash : ℕ → ℕ
  atom_array : ℕ → Slot
  atom_free_index : ℕ

namespace JSRuntime

/-- The entry at an index, where it is not free. -/
def get (rt : JSRuntime) (i : ℕ) : Option JSAtomStruct :=
  match rt.atom_array i with
  | .atom p => some p
  | .free _ => none

/-- `rt->atom_array[i] = slot`. -/
def set (rt : JSRuntime) (i : ℕ) (slot : Slot) : JSRuntime :=
  { rt with atom_array := Function.update rt.atom_array i slot }

/-- `atom_get_free(rt->atom_array[i])`. -/
def freeNext (rt : JSRuntime) (i : ℕ) : Option ℕ :=
  match rt.atom_array i with
  | .atom _ => none
  | .free next => some next

/-- The links of the hash table. -/
def links (rt : JSRuntime) : Links where
  next i := (rt.get i).map JSAtomStruct.hash_next
  head := rt.atom_hash

end JSRuntime

/-- `__JS_AtomIsConst` (lines 2363-2371), without `DUMP_LEAKS`; an atom with the highest bit is
    negative. -/
def isConst (JS_ATOM_END v : ℕ) : Bool := v < JS_ATOM_END || 2 ^ 31 ≤ v

/-- `hash_string` (lines 2433-2460), from `h` on. -/
def hash_string (str : JSString) (h : UInt32) : UInt32 :=
  str.units.foldl (fun h c => h * 263 + UInt32.ofNat c.toNat) h

/-- The hash of an entry: `hash_string(str, atom_type) & JS_ATOM_HASH_MASK`. -/
def hashOf (str : JSString) (atom_type : AtomType) : UInt32 :=
  hash_string str atom_type.value &&& 0x3FFFFFFF

/-- The bucket of a hash: `h & (size - 1)`. -/
def bucketOf (size : ℕ) (h : UInt32) : ℕ := h.toNat &&& (size - 1)

/-! ## Memory -/

/-- Which allocations of a call find memory. -/
structure Memory where
  array : Bool
  entry : Bool
  hash : Bool

namespace JSRuntime

/-- The loop over a chain in `JS_ResizeAtomHash` (lines 2543-2551). -/
def relinkChain (new_hash_mask : ℕ) : ℕ → ℕ → JSRuntime × (ℕ → ℕ) → Option (JSRuntime × (ℕ → ℕ))
  | _, 0, s => some s
  | 0, _ + 1, _ => none
  | n + 1, h + 1, (rt, new_hash) =>
    match rt.get (h + 1) with
    | none => none
    | some p =>
      let j := p.hash.toNat &&& new_hash_mask
      relinkChain new_hash_mask n p.hash_next
        (rt.set (h + 1) (.atom { p with hash_next := new_hash j }),
          Function.update new_hash j (h + 1))

/-- `JS_ResizeAtomHash` (lines 2530-2558), where `hash` says whether there is room for the new
    table. -/
def JS_ResizeAtomHash (rt : JSRuntime) (new_hash_size : ℕ) (hash : Bool) : Option JSRuntime :=
  if new_hash_size &&& (new_hash_size - 1) ≠ 0 then none
  else if hash = false then some rt
  else
    ((List.range rt.atom_hash_size).foldlM
      (fun s i => relinkChain (new_hash_size - 1) rt.atom_size (rt.atom_hash i) s)
      (rt, fun _ => 0)).map fun s =>
        { s.1 with
          atom_hash := s.2
          atom_hash_size := new_hash_size
          atom_count_resize := new_hash_size * 2 }

/-- The entry 0, which is not used. -/
def nullEntry : JSAtomStruct where
  ref_count := 1
  str := ⟨[], false, fun _ _ h => by cases h⟩
  hash := 0
  atom_type := .SYMBOL
  hash_next := 0

/-- New entries (lines 2712-2756), 211 at first and half as many again later; `none` where there
    is no room for them. -/
def grow (rt : JSRuntime) (array : Bool) : Option JSRuntime :=
  let new_size := max 211 (rt.atom_size * 3 / 2)
  if 2 ^ 30 - 1 < new_size ∨ array = false then none
  else
    let start := if rt.atom_size = 0 then 1 else rt.atom_size
    some { rt with
      atom_count := rt.atom_count + if rt.atom_size = 0 then 1 else 0
      atom_size := new_size
      atom_array := fun i =>
        if start ≤ i ∧ i < new_size then .free (if i = new_size - 1 then 0 else i + 1)
        else if i = 0 ∧ rt.atom_size = 0 then .atom nullEntry
        else rt.atom_array i
      atom_free_index := start }

/-- The entry is put in front of the free ones (lines 2891-2899). -/
def insertFree (rt : JSRuntime) (i : ℕ) : Option JSRuntime :=
  if rt.atom_count = 0 then none
  else
    some { rt.set i (.free rt.atom_free_index) with
      atom_free_index := i
      atom_count := rt.atom_count - 1 }

/-- `JS_FreeAtomStruct` of the entry `i` (lines 2859-2900), which is taken out of its chain. -/
def JS_FreeAtomStruct (rt : JSRuntime) (i : ℕ) : Option JSRuntime :=
  match rt.get i with
  | none => none
  | some p =>
    if p.atom_type = .SYMBOL then rt.insertFree p.hash_next
    else
      let h0 := bucketOf rt.atom_hash_size p.hash
      if rt.atom_hash h0 = i then
        { rt with atom_hash := Function.update rt.atom_hash h0 p.hash_next }.insertFree i
      else
        -- the assertion `i != 0` fails where no entry of the chain is before this one
        match seek rt.links.next (fun p0 => rt.links.next p0 = some i) rt.atom_size
            (rt.atom_hash h0) with
        | none | some 0 => none
        | some (i0 + 1) =>
          match rt.get (i0 + 1) with
          | none => none
          | some p0 =>
            (rt.set (i0 + 1) (.atom { p0 with hash_next := p.hash_next })).insertFree i

/-- `p->header.ref_count--`. -/
def decrement (rt : JSRuntime) (i : ℕ) : Option JSRuntime :=
  (rt.get i).map fun p => rt.set i (.atom { p with ref_count := p.ref_count - 1 })

/-- A reference is given up, and the entry is freed with the last. -/
def release (rt : JSRuntime) (i : ℕ) : Option JSRuntime :=
  match rt.get i with
  | none => none
  | some p =>
    if 1 < p.ref_count then rt.decrement i else (rt.decrement i).bind fun rt => rt.JS_FreeAtomStruct i

/-- `p->header.ref_count++`. -/
def retain (rt : JSRuntime) (i : ℕ) : Option JSRuntime :=
  (rt.get i).map fun p => rt.set i (.atom { p with ref_count := p.ref_count + 1 })

/-- `JS_DupAtom` (lines 2600-2611). -/
def JS_DupAtom (JS_ATOM_END : ℕ) (rt : JSRuntime) (v : ℕ) : Option JSRuntime :=
  if isConst JS_ATOM_END v then some rt else rt.retain v

/-- `JS_FreeAtom` and `__JS_FreeAtom` (lines 2902-2910 and 3235-3239). -/
def JS_FreeAtom (JS_ATOM_END : ℕ) (rt : JSRuntime) (v : ℕ) : Option JSRuntime :=
  if isConst JS_ATOM_END v then some rt else rt.release v

end JSRuntime

/-! ## New atoms -/

/-- The string that an atom is made of: one that is not an atom, and what counts its references;
    the entry of an atom; or none, for a symbol without a description. -/
inductive Source
  | string (str : JSString) (ref_count : ℕ)
  | entry (i : ℕ)
  | null

namespace JSRuntime

/-- `js_free_string` of what the atom is made of (lines 1891-1903). -/
def js_free_string (rt : JSRuntime) : Source → Option JSRuntime
  | .string _ _ | .null => some rt
  | .entry i => rt.release i

/-- The string of the source. -/
def text (rt : JSRuntime) : Source → Option JSString
  | .string str _ => some str
  | .entry i => (rt.get i).map JSAtomStruct.str
  | .null => some ⟨[], true, fun h => by cases h⟩

/-- The entry has the text and the type (lines 2694-2697). -/
def isAtomOf (rt : JSRuntime) (h : UInt32) (str : JSString) (atom_type : AtomType) (i : ℕ) : Bool :=
  match rt.get i with
  | none => false
  | some p => p.hash = h && p.atom_type = atom_type && p.str.units = str.units

/-- The new entry, made of the string itself or of a copy of it (lines 2759-2788). -/
def makeEntry (rt : JSRuntime) (source : Source) (entry : Bool) :
    Option (Option (JSRuntime × JSString × ℕ)) :=
  match source with
  | .string str ref_count => some (some (rt, str, ref_count))
  | .entry i =>
    match rt.get i with
    | none => none
    | some p => if entry then (rt.release i).map fun rt => some (rt, p.str, 1) else some none
  | .null => some (if entry then some (rt, ⟨[], true, fun h => by cases h⟩, 1) else none)

/-- A free entry is used (lines 2790-2808). -/
def useEntry (rt : JSRuntime) (str : JSString) (ref_count : ℕ) (h : UInt32) (atom_type : AtomType)
    (hash : Bool) : Option (JSRuntime × ℕ) :=
  let i := rt.atom_free_index
  match rt.freeNext i with
  | none => none
  | some next =>
    let rt : JSRuntime := { rt with atom_free_index := next, atom_count := rt.atom_count + 1 }
    if atom_type = .SYMBOL then some (rt.set i (.atom ⟨ref_count, str, h, atom_type, i⟩), i)
    else
      let h1 := bucketOf rt.atom_hash_size h
      let rt : JSRuntime :=
        { rt.set i (.atom ⟨ref_count, str, h, atom_type, rt.atom_hash h1⟩) with
          atom_hash := Function.update rt.atom_hash h1 i }
      if rt.atom_count_resize ≤ rt.atom_count then
        (rt.JS_ResizeAtomHash (rt.atom_hash_size * 2) hash).map fun rt => (rt, i)
      else some (rt, i)

/-- The part of `__JS_NewAtom` where no atom has been found (lines 2712-2818). -/
def addAtom (rt : JSRuntime) (source : Source) (h : UInt32) (atom_type : AtomType) (m : Memory) :
    Option (JSRuntime × ℕ) :=
  let fail (rt : JSRuntime) : Option (JSRuntime × ℕ) :=
    (rt.js_free_string source).map fun rt => (rt, 0)
  match if rt.atom_free_index = 0 then rt.grow m.array else some rt with
  | none => fail rt
  | some rt =>
    match rt.makeEntry source m.entry with
    | none => none
    | some none => fail rt
    | some (some (rt, str, ref_count)) => rt.useEntry str ref_count h atom_type m.hash

/-- `js_get_atom_index` (lines 2646-2661) of the entry `i`. -/
def js_get_atom_index (rt : JSRuntime) (i : ℕ) : Option ℕ :=
  match rt.get i with
  | none => none
  | some p =>
    if p.atom_type = .SYMBOL then some p.hash_next
    else
      match seek rt.links.next (fun j => j = i) rt.atom_size
          (rt.atom_hash (bucketOf rt.atom_hash_size p.hash)) with
      | none | some 0 => none
      | some (j + 1) => some (j + 1)

/-- The atom with the text and the type that is in the table, or a new one (lines 2683-2712). -/
def findOrAdd (JS_ATOM_END : ℕ) (rt : JSRuntime) (source : Source) (str : JSString)
    (atom_type : AtomType) (m : Memory) : Option (JSRuntime × ℕ) :=
  let h := hashOf str atom_type
  match seek rt.links.next (rt.isAtomOf h str atom_type) rt.atom_size
      (rt.atom_hash (bucketOf rt.atom_hash_size h)) with
  | none => none
  | some 0 => rt.addAtom source h atom_type m
  | some (i + 1) =>
    (JS_DupAtom JS_ATOM_END rt (i + 1)).bind fun rt =>
      (rt.js_free_string source).map fun rt => (rt, i + 1)

/-- `__JS_NewAtom` (lines 2665-2819); the atom 0 is `JS_ATOM_NULL`. -/
def newAtom (JS_ATOM_END : ℕ) (rt : JSRuntime) (source : Source) (atom_type : AtomType)
    (m : Memory) : Option (JSRuntime × ℕ) :=
  match rt.text source with
  | none => none
  | some str =>
    match atom_type with
    | .SYMBOL => rt.addAtom source 0 .SYMBOL m
    | .PRIVATE => rt.addAtom source 1 .SYMBOL m
    | .STRING | .GLOBAL_SYMBOL =>
      match source with
      | .entry i =>
        if (rt.get i).map JSAtomStruct.atom_type = some atom_type then
          -- the string is the atom, and its reference becomes that of the atom
          (rt.js_get_atom_index i).bind fun i =>
            if isConst JS_ATOM_END i then (rt.decrement i).map fun rt => (rt, i) else some (rt, i)
        else rt.findOrAdd JS_ATOM_END source str atom_type m
      | .string _ _ | .null => rt.findOrAdd JS_ATOM_END source str atom_type m

end JSRuntime

end JSEngine.Atoms
