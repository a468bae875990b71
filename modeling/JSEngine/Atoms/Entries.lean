import JSEngine.Atoms.Table

/-!
# The invariant of the table of atoms

Every entry that is hashed is in the chain of its bucket, under its own hash, and no two have
the same text and type; every other entry but 0 is in the list of free ones.

Each operation is described by what it does to the contents of the entries, which are the
entries without their links.

* `Table.JS_ResizeAtomHash`: the contents stay when the hash table is made anew;
* `Table.JS_FreeAtomStruct`: an entry is taken out, and no assertion fails;
* `Table.useEntry`: a text that is not there yet gets a free entry.
-/

namespace JSEngine.Atoms

open JSEngine.Common.Chains
open JSEngine.Java (JString)
open JSEngine.Scalars (JSString)

/-! ## Contents -/

/-- An entry without its link. -/
@[ext] structure Content where
  ref_count : ℕ
  str : JSString
  hash : UInt32
  atom_type : AtomType

def JSAtomStruct.content (p : JSAtomStruct) : Content := ⟨p.ref_count, p.str, p.hash, p.atom_type⟩

namespace JSRuntime

/-- The contents of the entries that are not free, but for the entry 0. -/
def contents (rt : JSRuntime) (i : ℕ) : Option Content :=
  if i = 0 then none else (rt.get i).map JSAtomStruct.content

/-- The entries in the hash table. -/
def hashed (rt : JSRuntime) : Set ℕ := {i | ∃ p, rt.get i = some p ∧ p.atom_type ≠ .SYMBOL}

/-- The bucket of an entry, for a table of a size. -/
def bucket (rt : JSRuntime) (size i : ℕ) : ℕ :=
  ((rt.get i).map fun p => bucketOf size p.hash).getD 0

end JSRuntime

/-- **The table of atoms.** -/
structure Table (rt : JSRuntime) : Prop where
  links : rt.links.Holds rt.atom_hash_size (rt.bucket rt.atom_hash_size) rt.hashed
  free : ∃ l, Chain rt.freeNext rt.atom_free_index l ∧
    (∀ i, i ∈ l ↔ i ≠ 0 ∧ i < rt.atom_size ∧ rt.get i = none) ∧
    rt.atom_count + l.length = rt.atom_size
  bound : ∀ i p, rt.get i = some p → i < rt.atom_size
  null : rt.atom_size = 0 ∨ 211 ≤ rt.atom_size ∧ ∃ p, rt.get 0 = some p ∧ p.atom_type = .SYMBOL
  symbol : ∀ i p, rt.get i = some p → p.atom_type = .SYMBOL → p.hash_next = i
  not_private : ∀ i p, rt.get i = some p → p.atom_type ≠ .PRIVATE
  hash : ∀ i p, rt.get i = some p → p.atom_type ≠ .SYMBOL → p.hash = hashOf p.str p.atom_type
  unique : ∀ i j p q, rt.get i = some p → rt.get j = some q → p.atom_type ≠ .SYMBOL →
    p.atom_type = q.atom_type → p.str.units = q.str.units → i = j
  power : ∃ k, rt.atom_hash_size = 2 ^ k
  size : rt.atom_size < 2 ^ 30

/-! ## Reading and writing entries -/

section
variable {rt : JSRuntime} {i j : ℕ} {p q : JSAtomStruct} {slot : Slot}

theorem get_set (rt : JSRuntime) (i : ℕ) (slot : Slot) (j : ℕ) :
    (rt.set i slot).get j = if j = i then (match slot with
      | .atom p => some p
      | .free _ => none) else rt.get j := by
  by_cases h : j = i
  · subst h
    rw [if_pos rfl]
    show (match Function.update rt.atom_array j slot j with
      | .atom p => some p
      | .free _ => none) = _
    rw [Function.update_self]
  · rw [if_neg h]
    show (match Function.update rt.atom_array i slot j with
      | .atom p => some p
      | .free _ => none) = _
    rw [Function.update_of_ne h]
    rfl

theorem get_set_atom (rt : JSRuntime) (i : ℕ) (p : JSAtomStruct) :
    (rt.set i (.atom p)).get = Function.update rt.get i (some p) := by
  funext j
  rw [get_set, Function.update_apply]

theorem get_set_free (rt : JSRuntime) (i n : ℕ) :
    (rt.set i (.free n)).get = Function.update rt.get i none := by
  funext j
  rw [get_set, Function.update_apply]

theorem freeNext_set_of_ne (rt : JSRuntime) (slot : Slot) (h : j ≠ i) :
    (rt.set i slot).freeNext j = rt.freeNext j := by
  show (match Function.update rt.atom_array i slot j with
    | .atom _ => none
    | .free next => some next) = _
  rw [Function.update_of_ne h]
  rfl

theorem freeNext_set_free (rt : JSRuntime) (i n : ℕ) :
    (rt.set i (.free n)).freeNext i = some n := by
  show (match Function.update rt.atom_array i (.free n) i with
    | .atom _ => none
    | .free next => some next) = _
  rw [Function.update_self]

/-- An entry is free or not. -/
theorem freeNext_eq_none : rt.freeNext i = none ↔ ∃ p, rt.get i = some p := by
  rw [JSRuntime.freeNext, JSRuntime.get]
  cases rt.atom_array i <;> simp

theorem mem_hashed : i ∈ rt.hashed ↔ ∃ p, rt.get i = some p ∧ p.atom_type ≠ .SYMBOL := Iff.rfl

theorem bucket_of_get (h : rt.get i = some p) (size : ℕ) :
    rt.bucket size i = bucketOf size p.hash := by
  rw [JSRuntime.bucket, h]
  rfl

theorem bucketOf_lt {size : ℕ} (h : 0 < size) (hash : UInt32) : bucketOf size hash < size :=
  lt_of_le_of_lt Nat.and_le_right (Nat.sub_lt h Nat.one_pos)

theorem Table.size_pos (h : Table rt) : 0 < rt.atom_hash_size := by
  obtain ⟨k, hk⟩ := h.power
  rw [hk]
  exact Nat.two_pow_pos k

theorem Table.hashed_bound (h : Table rt) : ∀ y ∈ rt.hashed, y < rt.atom_size :=
  fun y ⟨p, hp, _⟩ => h.bound y p hp

theorem Table.hashed_ne_zero (h : Table rt) (hi : i ∈ rt.hashed) : i ≠ 0 := h.links.ne_zero hi

/-- The entry 0 is a symbol. -/
theorem Table.zero (h : Table rt) (hp : rt.get 0 = some p) : p.atom_type = .SYMBOL := by
  obtain h0 | ⟨-, q, hq, htype⟩ := h.null
  · exact absurd (h.bound 0 p hp) (by omega)
  · rw [hp] at hq
    exact Option.some.inj hq ▸ htype

/-- The atoms that are hashed are told apart by type and text. -/
theorem Table.find (h : Table rt) (str : JSString) (atom_type : AtomType)
    (htype : atom_type ≠ .SYMBOL) :
    ∃ r, seek rt.links.next (rt.isAtomOf (hashOf str atom_type) str atom_type) rt.atom_size
        (rt.atom_hash (bucketOf rt.atom_hash_size (hashOf str atom_type))) = some r ∧
      (r ≠ 0 → ∃ p, rt.get r = some p ∧ p.atom_type = atom_type ∧ p.str.units = str.units) ∧
      (r = 0 → ∀ i p, rt.get i = some p → p.atom_type = atom_type → p.str.units ≠ str.units) := by
  obtain ⟨r, hr, hfound, hnone⟩ := h.links.seek (bucketOf_lt h.size_pos (hashOf str atom_type))
    (rt.isAtomOf (hashOf str atom_type) str atom_type) h.hashed_bound
  refine ⟨r, hr, fun h0 => ?_, fun h0 i p hp htype' hunits => ?_⟩
  · obtain ⟨⟨p, hp, -⟩, -, his⟩ := hfound h0
    rw [JSRuntime.isAtomOf, hp] at his
    simp only [Bool.and_eq_true, decide_eq_true_eq] at his
    exact ⟨p, hp, his.1.2, his.2⟩
  · have hhash : p.hash = hashOf str atom_type := by
      rw [h.hash i p hp (htype' ▸ htype), hashOf, hashOf, htype', hash_string, hash_string, hunits]
    have his := hnone h0 i ⟨p, hp, htype' ▸ htype⟩ (by rw [bucket_of_get hp, hhash])
    rw [JSRuntime.isAtomOf, hp] at his
    simp [hhash, htype', hunits] at his

theorem Table.js_get_atom_index (h : Table rt) (hp : rt.get i = some p) :
    rt.js_get_atom_index i = some i := by
  rw [JSRuntime.js_get_atom_index, hp]
  simp only
  split_ifs with htype
  · rw [h.symbol i p hp htype]
  · have hmem : i ∈ rt.hashed := ⟨p, hp, htype⟩
    obtain ⟨r, hr, hfound, hnone⟩ := h.links.seek (h.links.bucket_lt i hmem) (fun j => j = i)
      h.hashed_bound
    have hr0 : r ≠ 0 := fun h0 => by simpa using hnone h0 i hmem rfl
    obtain ⟨-, -, hri⟩ := hfound hr0
    obtain rfl : r = i := by simpa using hri
    obtain ⟨r, rfl⟩ := Nat.exists_eq_succ_of_ne_zero hr0
    rw [← bucket_of_get hp, show rt.atom_hash = rt.links.head from rfl, hr]

end

/-! ## Entries that change without their text -/

/-- The entries of a table are among those of another, with the same texts, hashes and types. -/
def Among (rt rt' : JSRuntime) : Prop :=
  ∀ i q, rt'.get i = some q → ∃ p, rt.get i = some p ∧ q.str = p.str ∧ q.hash = p.hash ∧
    q.atom_type = p.atom_type ∧ (p.atom_type = .SYMBOL → q.hash_next = p.hash_next)

/-- What is left to prove of a table whose entries are among those of another. -/
theorem Table.of_among {rt rt' : JSRuntime} (h : Table rt) (hamong : Among rt rt')
    (hsize : rt'.atom_size = rt.atom_size)
    (hlinks : rt'.links.Holds rt'.atom_hash_size (rt'.bucket rt'.atom_hash_size) rt'.hashed)
    (hfree : ∃ l, Chain rt'.freeNext rt'.atom_free_index l ∧
      (∀ i, i ∈ l ↔ i ≠ 0 ∧ i < rt'.atom_size ∧ rt'.get i = none) ∧
      rt'.atom_count + l.length = rt'.atom_size)
    (hnull : ∀ p, rt.get 0 = some p → ∃ q, rt'.get 0 = some q)
    (hpower : ∃ k, rt'.atom_hash_size = 2 ^ k) : Table rt' where
  links := hlinks
  free := hfree
  bound i q hq := by
    obtain ⟨p, hp, -⟩ := hamong i q hq
    exact hsize ▸ h.bound i p hp
  null := by
    obtain h0 | ⟨hle, p, hp, htype⟩ := h.null
    · exact .inl (hsize.trans h0)
    · obtain ⟨q, hq⟩ := hnull p hp
      obtain ⟨p', hp', -, -, htype', -⟩ := hamong 0 q hq
      rw [hp] at hp'
      obtain rfl := Option.some.inj hp'
      exact .inr ⟨hsize ▸ hle, q, hq, htype'.trans htype⟩
  symbol i q hq htype := by
    obtain ⟨p, hp, -, -, htype', hnext⟩ := hamong i q hq
    rw [htype'] at htype
    rw [hnext htype, h.symbol i p hp htype]
  not_private i q hq := by
    obtain ⟨p, hp, -, -, htype, -⟩ := hamong i q hq
    exact htype ▸ h.not_private i p hp
  hash i q hq htype := by
    obtain ⟨p, hp, hstr, hhash, htype', -⟩ := hamong i q hq
    rw [htype'] at htype ⊢
    rw [hhash, hstr, h.hash i p hp htype]
  unique i j q r hq hr htype heq hunits := by
    obtain ⟨p, hp, hpstr, -, hptype, -⟩ := hamong i q hq
    obtain ⟨s, hs, hsstr, -, hstype, -⟩ := hamong j r hr
    rw [hptype] at htype heq
    rw [hstype] at heq
    rw [hpstr, hsstr] at hunits
    exact h.unique i j p s hp hs htype heq hunits
  power := hpower
  size := hsize ▸ h.size

/-- A change of entries that leaves their texts, hashes and types. -/
structure Kept (rt rt' : JSRuntime) (f : ℕ → JSAtomStruct → JSAtomStruct) : Prop where
  get : ∀ j, rt'.get j = (rt.get j).map (f j)
  str : ∀ j q, (f j q).str = q.str
  hash : ∀ j q, (f j q).hash = q.hash
  atom_type : ∀ j q, (f j q).atom_type = q.atom_type

namespace Kept

variable {rt rt' : JSRuntime} {f : ℕ → JSAtomStruct → JSAtomStruct} {i : ℕ} {p : JSAtomStruct}

theorem of_get (h : Kept rt rt' f) (hp : rt'.get i = some p) :
    ∃ q, rt.get i = some q ∧ p = f i q := by
  rw [h.get] at hp
  obtain ⟨q, hq, rfl⟩ := Option.map_eq_some_iff.mp hp
  exact ⟨q, hq, rfl⟩

theorem get_eq_none (h : Kept rt rt' f) (i : ℕ) : rt'.get i = none ↔ rt.get i = none := by
  rw [h.get, Option.map_eq_none_iff]

theorem hashed (h : Kept rt rt' f) : rt'.hashed = rt.hashed := by
  ext j
  rw [mem_hashed, mem_hashed, h.get]
  cases rt.get j with
  | none => simp
  | some q => simp [h.atom_type]

theorem bucket (h : Kept rt rt' f) (size : ℕ) : rt'.bucket size = rt.bucket size := by
  funext j
  rw [JSRuntime.bucket, JSRuntime.bucket, h.get]
  cases rt.get j with
  | none => rfl
  | some q => simp [h.hash]

/-- The table after the change, where the new links lead through the hashed entries again. -/
theorem table (h : Kept rt rt' f) (ht : Table rt)
    (hsymbol : ∀ j q, rt.get j = some q → q.atom_type = .SYMBOL →
      (f j q).hash_next = q.hash_next)
    (hfree : rt'.freeNext = rt.freeNext) (hindex : rt'.atom_free_index = rt.atom_free_index)
    (hsize : rt'.atom_size = rt.atom_size) (hcount : rt'.atom_count = rt.atom_count)
    (hpower : ∃ k, rt'.atom_hash_size = 2 ^ k)
    (hlinks : rt'.links.Holds rt'.atom_hash_size (rt.bucket rt'.atom_hash_size) rt.hashed) :
    Table rt' := by
  refine ht.of_among (fun i q hq => ?_) hsize (by rwa [h.hashed, h.bucket]) ?_ (fun p hp => ?_)
    hpower
  · obtain ⟨p, hp, rfl⟩ := h.of_get hq
    exact ⟨p, hp, h.str i p, h.hash i p, h.atom_type i p, hsymbol i p hp⟩
  · obtain ⟨l, hl, hmem, hlength⟩ := ht.free
    refine ⟨l, hfree ▸ hindex ▸ hl, fun i => ?_, by rw [hcount, hsize, hlength]⟩
    rw [hmem, hsize, h.get_eq_none]
  · exact ⟨f 0 p, by rw [h.get, hp]; rfl⟩

end Kept

/-! ## Counting references -/

section
variable {rt : JSRuntime} {i : ℕ} {p : JSAtomStruct}

theorem kept_recount (hp : rt.get i = some p) (n : ℕ) :
    Kept rt (rt.set i (.atom { p with ref_count := n }))
      (fun j q => { q with ref_count := if j = i then n else q.ref_count }) where
  get j := by
    rw [get_set_atom, Function.update_apply]
    split_ifs with hj
    · rw [hj, hp]
      rfl
    · cases rt.get j <;> rfl
  str _ _ := rfl
  hash _ _ := rfl
  atom_type _ _ := rfl

theorem freeNext_set_atom (hp : rt.get i = some p) (q : JSAtomStruct) :
    (rt.set i (.atom q)).freeNext = rt.freeNext := by
  funext j
  by_cases hj : j = i
  · subst hj
    rw [freeNext_eq_none.mpr ⟨p, hp⟩, freeNext_eq_none.mpr ⟨q, by rw [get_set_atom]; simp⟩]
  · exact freeNext_set_of_ne rt _ hj

/-- A count changes. -/
theorem Table.recount (h : Table rt) (hp : rt.get i = some p) (n : ℕ) :
    Table (rt.set i (.atom { p with ref_count := n })) := by
  have hkept := kept_recount hp n
  refine hkept.table h (fun _ _ _ _ => rfl) (freeNext_set_atom hp _) rfl rfl rfl h.power ?_
  refine h.links.congr (fun _ _ => rfl) (fun y _ => ?_) fun _ _ => rfl
  show ((rt.set i _).get y).map JSAtomStruct.hash_next = _
  rw [hkept.get, Option.map_map]
  rfl

theorem contents_set_atom (rt : JSRuntime) (hi : i ≠ 0) (p : JSAtomStruct) :
    (rt.set i (.atom p)).contents = Function.update rt.contents i (some p.content) := by
  funext j
  rw [JSRuntime.contents, get_set_atom, Function.update_apply, Function.update_apply]
  by_cases hj : j = i
  · simp [hj, hi]
  · simp [hj, JSRuntime.contents]

theorem contents_eq_some {c : Content} :
    rt.contents i = some c ↔ i ≠ 0 ∧ ∃ p, rt.get i = some p ∧ p.content = c := by
  rw [JSRuntime.contents]
  split_ifs with hi
  · simp [hi]
  · simp [hi, Option.map_eq_some_iff]

theorem Table.retain (h : Table rt) (hp : rt.get i = some p) (hi : i ≠ 0) :
    ∃ rt', rt.retain i = some rt' ∧ Table rt' ∧
      rt'.contents =
        Function.update rt.contents i (some { p.content with ref_count := p.ref_count + 1 }) := by
  refine ⟨_, by rw [JSRuntime.retain, hp]; rfl, h.recount hp _, ?_⟩
  rw [contents_set_atom rt hi]
  rfl

theorem Table.decrement (h : Table rt) (hp : rt.get i = some p) (hi : i ≠ 0) :
    ∃ rt', rt.decrement i = some rt' ∧ Table rt' ∧ rt'.atom_free_index = rt.atom_free_index ∧
      rt'.contents =
        Function.update rt.contents i (some { p.content with ref_count := p.ref_count - 1 }) := by
  refine ⟨_, by rw [JSRuntime.decrement, hp]; rfl, h.recount hp _, rfl, ?_⟩
  rw [contents_set_atom rt hi]
  rfl

end

/-! ## The hash table made anew -/

/-- The entries with the links of a table. -/
def JSRuntime.relinked (rt : JSRuntime) (t : Links) : JSRuntime :=
  { rt with
    atom_array := fun i =>
      match rt.atom_array i with
      | .atom p => .atom { p with hash_next := (t.next i).getD p.hash_next }
      | .free next => .free next }

section
variable {rt : JSRuntime} {t : Links} {i : ℕ} {p : JSAtomStruct}

theorem kept_relinked (rt : JSRuntime) (t : Links) :
    Kept rt (rt.relinked t) (fun j q => { q with hash_next := (t.next j).getD q.hash_next }) where
  get j := by
    show (match (match rt.atom_array j with
      | .atom p => .atom { p with hash_next := (t.next j).getD p.hash_next }
      | .free next => .free next : Slot) with
      | .atom p => some p
      | .free _ => none) = (match rt.atom_array j with
      | .atom p => some p
      | .free _ => none).map _
    cases rt.atom_array j <;> rfl
  str _ _ := rfl
  hash _ _ := rfl
  atom_type _ _ := rfl

theorem freeNext_relinked (rt : JSRuntime) (t : Links) : (rt.relinked t).freeNext = rt.freeNext := by
  funext j
  show (match (match rt.atom_array j with
    | .atom p => .atom { p with hash_next := (t.next j).getD p.hash_next }
    | .free next => .free next : Slot) with
    | .atom _ => none
    | .free next => some next) = (match rt.atom_array j with
    | .atom _ => none
    | .free next => some next)
  cases rt.atom_array j <;> rfl

theorem relinked_links (rt : JSRuntime) : rt.relinked rt.links = rt := by
  have harray : (rt.relinked rt.links).atom_array = rt.atom_array := by
    funext j
    show (match rt.atom_array j with
      | .atom p => .atom { p with hash_next := (rt.links.next j).getD p.hash_next }
      | .free next => .free next : Slot) = rt.atom_array j
    cases hj : rt.atom_array j with
    | free next => rfl
    | atom p =>
      have hnext : rt.links.next j = some p.hash_next := by
        show (rt.get j).map JSAtomStruct.hash_next = _
        rw [JSRuntime.get, hj]
        rfl
      simp [hnext]
  cases rt
  simp only [JSRuntime.relinked, JSRuntime.mk.injEq, true_and, and_true] at harray ⊢
  exact harray

/-- One entry linked anew. -/
theorem set_relinked (hp : rt.get i = some p) (t : Links) (b : ℕ) :
    (rt.relinked t).set i (.atom { p with hash_next := t.head b }) = rt.relinked (t.push b i) := by
  have harray : rt.atom_array i = .atom p := by
    rw [JSRuntime.get] at hp
    cases hi : rt.atom_array i with
    | free next => rw [hi] at hp; cases hp
    | atom q => rw [hi] at hp; rw [Option.some.inj hp]
  simp only [JSRuntime.set, JSRuntime.relinked, JSRuntime.mk.injEq, true_and, and_true]
  funext j
  by_cases hj : j = i
  · subst hj
    simp [harray, Links.push]
  · simp [Function.update_of_ne hj, Links.push]

/-- The loop over a chain links its entries anew. -/
theorem relinkChain_eq {size n : ℕ} (hdom : ∀ j, t.next j = none ↔ rt.get j = none) :
    JSRuntime.relinkChain (size - 1) n i (rt.relinked t, t.head) =
      (relink (rt.bucket size) n i t).map fun t' => (rt.relinked t', t'.head) := by
  induction n generalizing i t with
  | zero => cases i <;> rfl
  | succ n ih =>
    cases i with
    | zero => rfl
    | succ i =>
      have hget := (kept_relinked rt t).get (i + 1)
      rw [relink, JSRuntime.relinkChain, hget]
      cases hp : rt.get (i + 1) with
      | none =>
        rw [(hdom (i + 1)).mpr hp]
        rfl
      | some p =>
        obtain ⟨j, hj⟩ := Option.ne_none_iff_exists'.mp fun hnone =>
          absurd ((hdom (i + 1)).mp hnone) (by simp [hp])
        have hnext : ∀ k, (t.push (rt.bucket size (i + 1)) (i + 1)).next k = none ↔
            rt.get k = none := by
          intro k
          by_cases hk : k = i + 1
          · subst hk
            simp [Links.push, hp]
          · rw [← hdom k]
            simp [Links.push, Function.update_of_ne hk]
        have hset := set_relinked hp t (rt.bucket size (i + 1))
        rw [bucket_of_get hp] at hset hnext
        rw [hj, Option.bind_some, bucket_of_get hp, ← ih hnext, ← hset]
        simp only [Option.map_some, Option.getD_some]
        rfl

/-- The loop over the buckets links all entries anew. -/
theorem foldlM_relinkChain (size n : ℕ) (head : ℕ → ℕ) (bs : List ℕ)
    (hdom : ∀ j, t.next j = none ↔ rt.get j = none) :
    bs.foldlM (fun s b => JSRuntime.relinkChain (size - 1) n (head b) s) (rt.relinked t, t.head) =
      (bs.foldlM (fun t' b => relink (rt.bucket size) n (head b) t') t).map
        fun t' => (rt.relinked t', t'.head) := by
  induction bs generalizing t with
  | nil => rfl
  | cons b bs ih =>
    rw [List.foldlM_cons, List.foldlM_cons, relinkChain_eq hdom]
    cases hb : relink (rt.bucket size) n (head b) t with
    | none => rfl
    | some t' => exact ih fun j => (relink_next_eq_none hb j).trans (hdom j)

theorem contents_relinked (rt : JSRuntime) (t : Links) : (rt.relinked t).contents = rt.contents := by
  funext j
  rw [JSRuntime.contents, JSRuntime.contents, (kept_relinked rt t).get, Option.map_map]
  rfl

/-- A symbol keeps its index. -/
theorem relinked_symbol (hnext : ∀ j ∉ rt.hashed, t.next j = rt.links.next j)
    (hp : rt.get i = some p) (htype : p.atom_type = .SYMBOL) :
    (t.next i).getD p.hash_next = p.hash_next := by
  have hout : i ∉ rt.hashed := fun ⟨q, hq, hne⟩ => by
    rw [hp] at hq
    exact hne (Option.some.inj hq ▸ htype)
  rw [hnext i hout]
  show ((rt.get i).map JSAtomStruct.hash_next).getD _ = _
  rw [hp]
  rfl

theorem relinked_next {size : ℕ} {bucket : ℕ → ℕ} {s : Set ℕ} (hholds : t.Holds size bucket s)
    (hs : s ⊆ rt.hashed) (hi : i ∈ s) : (rt.relinked t).links.next i = t.next i := by
  obtain ⟨n, hn⟩ := hholds.exists_next hi
  obtain ⟨p, hp, -⟩ := hs hi
  show ((rt.relinked t).get i).map JSAtomStruct.hash_next = _
  rw [(kept_relinked rt t).get, hp, hn]
  simp

/-- The free entries are the same. -/
structure SameFree (rt rt' : JSRuntime) : Prop where
  next : rt'.freeNext = rt.freeNext
  index : rt'.atom_free_index = rt.atom_free_index
  size : rt'.atom_size = rt.atom_size

/-- **The hash table made anew** has the same entries. -/
theorem Table.JS_ResizeAtomHash (h : Table rt) (k : ℕ) (hash : Bool) :
    ∃ rt', rt.JS_ResizeAtomHash (2 ^ k) hash = some rt' ∧ Table rt' ∧ SameFree rt rt' ∧
      rt'.contents = rt.contents := by
  have hand : 2 ^ k &&& (2 ^ k - 1) = 0 := by
    rw [Nat.and_two_pow_sub_one_eq_mod, Nat.mod_self]
  rw [JSRuntime.JS_ResizeAtomHash, if_neg (not_not.mpr hand)]
  cases hash with
  | false => exact ⟨rt, if_pos rfl, h, ⟨rfl, rfl, rfl⟩, rfl⟩
  | true =>
    have hbucket : ∀ y ∈ rt.hashed, rt.bucket (2 ^ k) y < 2 ^ k := fun y ⟨p, hp, _⟩ => by
      rw [bucket_of_get hp]
      exact bucketOf_lt (Nat.two_pow_pos k) _
    obtain ⟨t, hfold, hholds, hnext⟩ := holds_relink h.links hbucket h.hashed_bound
    have hdom : ∀ j, (⟨rt.links.next, fun _ => 0⟩ : Links).next j = none ↔ rt.get j = none :=
      fun j => Option.map_eq_none_iff
    have hrun := foldlM_relinkChain (2 ^ k) rt.atom_size rt.atom_hash
      (List.range rt.atom_hash_size) hdom
    rw [show rt.relinked ⟨rt.links.next, fun _ => 0⟩ = rt from relinked_links rt] at hrun
    rw [if_neg (by simp)]
    refine ⟨_, by rw [hrun]; exact congrArg (Option.map _ ∘ Option.map _) hfold, ?_,
      ?_, ?_⟩
    · have hkept := kept_relinked rt t
      refine Kept.table ⟨hkept.get, hkept.str, hkept.hash, hkept.atom_type⟩ h
        (fun j q hq htype => relinked_symbol hnext hq htype) (freeNext_relinked rt t) rfl rfl rfl
        ⟨k, rfl⟩ ?_
      exact hholds.congr (fun _ _ => rfl) (fun y hy => relinked_next hholds le_rfl hy)
        fun _ _ => rfl
    · exact ⟨freeNext_relinked rt t, rfl, rfl⟩
    · exact contents_relinked rt t

end

/-! ## Freeing an entry -/

section
variable {rt : JSRuntime} {t : Links} {i j : ℕ} {p q : JSAtomStruct}

/-- The table with the links of a hash table. -/
def JSRuntime.withLinks (rt : JSRuntime) (t : Links) : JSRuntime :=
  { rt.relinked t with atom_hash := t.head }

theorem withLinks_links (rt : JSRuntime) : rt.withLinks rt.links = rt := by
  rw [JSRuntime.withLinks, relinked_links]
  rfl

theorem withLinks_behead (rt : JSRuntime) (b n : ℕ) :
    rt.withLinks (rt.links.behead b n) =
      { rt with atom_hash := Function.update rt.atom_hash b n } := by
  rw [JSRuntime.withLinks, show rt.relinked (rt.links.behead b n) = rt from relinked_links rt]
  rfl

theorem withLinks_unlink (hp : rt.get i = some p) (n : ℕ) :
    rt.withLinks (rt.links.unlink i n) = rt.set i (.atom { p with hash_next := n }) := by
  have hset := set_relinked hp ⟨rt.links.next, fun _ => n⟩ 0
  rw [show rt.relinked ⟨rt.links.next, fun _ => n⟩ = rt from relinked_links rt] at hset
  rw [hset]
  rfl

theorem Table.not_hashed (hp : rt.get i = some p) (htype : p.atom_type = .SYMBOL) :
    i ∉ rt.hashed := fun ⟨q, hq, hne⟩ => by
  rw [hp] at hq
  exact hne (Option.some.inj hq ▸ htype)

/-- An entry that is in no chain is put in front of the free ones. -/
theorem Table.insertFree (h : Table rt) (hp : rt.get i = some p) (hi : i ≠ 0)
    (hholds : t.Holds rt.atom_hash_size (rt.bucket rt.atom_hash_size) (rt.hashed \ {i}))
    (hnext : ∀ j ∉ rt.hashed, t.next j = rt.links.next j) :
    ∃ rt', (rt.withLinks t).insertFree i = some rt' ∧ Table rt' ∧ rt'.atom_free_index ≠ 0 ∧
      rt'.contents = Function.update rt.contents i none := by
  have hkept := kept_relinked rt t
  obtain ⟨l, hl, hmem, hlength⟩ := h.free
  have hout : i ∉ l := fun hil => by simp [((hmem i).mp hil).2.2] at hp
  have hlt : l.length < rt.atom_size := by
    have hsub : l.toFinset ⊆ (Finset.range rt.atom_size).erase i := fun y hy => by
      have hy := List.mem_toFinset.mp hy
      exact Finset.mem_erase.mpr ⟨fun hyi => hout (hyi ▸ hy),
        Finset.mem_range.mpr ((hmem y).mp hy).2.1⟩
    have hcard := Finset.card_le_card hsub
    rw [List.toFinset_card_of_nodup hl.nodup,
      Finset.card_erase_of_mem (Finset.mem_range.mpr (h.bound i p hp)), Finset.card_range] at hcard
    have := h.bound i p hp
    omega
  have hcount : rt.atom_count ≠ 0 := by omega
  refine ⟨_, if_neg hcount, ?_, hi, ?_⟩
  · generalize hrt' : ({ (rt.withLinks t).set i (.free (rt.withLinks t).atom_free_index) with
      atom_free_index := i, atom_count := (rt.withLinks t).atom_count - 1 } : JSRuntime) = rt'
    have hget : rt'.get = Function.update (rt.relinked t).get i none := by
      rw [← hrt']
      exact get_set_free (rt.withLinks t) i _
    have hget_of_ne : ∀ {j}, j ≠ i → rt'.get j = (rt.relinked t).get j := fun hj => by
      rw [hget, Function.update_of_ne hj]
    have hget_self : rt'.get i = none := by rw [hget, Function.update_self]
    have hhashed : rt'.hashed = rt.hashed \ {i} := by
      rw [← hkept.hashed]
      ext j
      rw [Set.mem_sdiff, Set.mem_singleton_iff, mem_hashed, mem_hashed]
      by_cases hj : j = i
      · simp [hj, hget_self]
      · simp [hj, hget_of_ne hj]
    refine h.of_among (fun j q hq => ?_) (hrt' ▸ rfl) ?_ ?_ (fun q hq => ?_) ?_
    · have hj : j ≠ i := by
        rintro rfl
        rw [hget_self] at hq
        cases hq
      rw [hget_of_ne hj] at hq
      obtain ⟨q, hq', rfl⟩ := hkept.of_get hq
      exact ⟨q, hq', rfl, rfl, rfl, relinked_symbol hnext hq'⟩
    · have hsize : rt'.atom_hash_size = rt.atom_hash_size := hrt' ▸ rfl
      rw [hhashed, hsize]
      refine hholds.congr (fun y hy => ?_) (fun y hy => ?_) fun b _ => hrt' ▸ rfl
      · rw [← hkept.bucket, JSRuntime.bucket, JSRuntime.bucket, hget_of_ne hy.2]
      · rw [← relinked_next hholds Set.sdiff_subset hy]
        exact congrArg (Option.map _) (hget_of_ne hy.2)
    · refine ⟨i :: l, ?_, fun y => ?_, ?_⟩
      · rw [← hrt']
        refine .cons hi (freeNext_set_free _ i _) (hl.congr fun y hy => ?_)
        have hy : y ≠ i := fun hyi => hout (hyi ▸ hy)
        exact (freeNext_set_of_ne _ _ hy).trans (congrFun (freeNext_relinked rt t) y)
      · have hsize : rt'.atom_size = rt.atom_size := hrt' ▸ rfl
        rw [List.mem_cons, hmem, hsize]
        by_cases hy : y = i
        · subst hy
          simp [hget_self, hi, h.bound y p hp]
        · simp [hy, hget_of_ne hy, hkept.get]
      · rw [← hrt', List.length_cons]
        show rt.atom_count - 1 + (l.length + 1) = rt.atom_size
        omega
    · exact ⟨_, by rw [hget_of_ne hi.symm, hkept.get, hq]; rfl⟩
    · exact hrt' ▸ h.power
  · funext j
    rw [← contents_relinked rt t, Function.update_apply]
    show (if j = 0 then none else (((rt.withLinks t).set i _).get j).map _) = _
    rw [get_set_free, Function.update_apply]
    by_cases hj : j = i
    · simp [hj]
    · simp only [hj, if_false]
      rfl

/-- **An entry is freed**: it is found in its chain, or is a symbol. -/
theorem Table.JS_FreeAtomStruct (h : Table rt) (hp : rt.get i = some p) (hi : i ≠ 0) :
    ∃ rt', rt.JS_FreeAtomStruct i = some rt' ∧ Table rt' ∧ rt'.atom_free_index ≠ 0 ∧
      rt'.contents = Function.update rt.contents i none := by
  rw [JSRuntime.JS_FreeAtomStruct, hp]
  by_cases htype : p.atom_type = .SYMBOL
  · simp only [if_pos htype, h.symbol i p hp htype]
    rw [← withLinks_links rt]
    have hout : rt.hashed \ {i} = rt.hashed :=
      Set.sdiff_singleton_eq_self (Table.not_hashed hp htype)
    have := h.insertFree hp hi (hout.symm ▸ h.links) fun _ _ => rfl
    rwa [withLinks_links] at this ⊢
  · have hmem : i ∈ rt.hashed := ⟨p, hp, htype⟩
    have hbucket := bucket_of_get hp rt.atom_hash_size
    have hlink : rt.links.next i = some p.hash_next := by
      show (rt.get i).map JSAtomStruct.hash_next = _
      rw [hp]
      rfl
    simp only [if_neg htype, ← hbucket]
    by_cases hhead : rt.atom_hash (rt.bucket rt.atom_hash_size i) = i
    · rw [if_pos hhead, ← withLinks_behead]
      exact h.insertFree hp hi (h.links.behead hmem hhead hlink) fun _ _ => rfl
    · rw [if_neg hhead]
      obtain ⟨y, hy, hyb, hynext⟩ := h.links.exists_before hmem hhead
      obtain ⟨r, hr, hfound, hnone⟩ := h.links.seek (h.links.bucket_lt i hmem)
        (fun p0 => rt.links.next p0 = some i) h.hashed_bound
      have hr0 : r ≠ 0 := fun h0 => by simpa [hynext] using hnone h0 y hy hyb
      obtain ⟨hrmem, hrb, hrnext⟩ := hfound hr0
      obtain ⟨p0, hp0, -⟩ := id hrmem
      obtain ⟨r, rfl⟩ := Nat.exists_eq_succ_of_ne_zero hr0
      rw [show rt.atom_hash = rt.links.head from rfl, hr]
      simp only [Nat.succ_eq_add_one] at hp0 ⊢
      simp only [hp0, ← withLinks_unlink hp0]
      refine h.insertFree hp hi (h.links.unlink hmem hrmem hrb (by simpa using hrnext) hlink)
        fun j hj => Function.update_of_ne ?_ _ _
      rintro rfl
      exact hj hrmem

/-- **A reference is given up**: the entry stays if there is another. -/
theorem Table.release (h : Table rt) (hp : rt.get i = some p) (hi : i ≠ 0) :
    ∃ rt', rt.release i = some rt' ∧ Table rt' ∧
      (rt.atom_free_index ≠ 0 → rt'.atom_free_index ≠ 0) ∧
      rt'.contents = Function.update rt.contents i
        (if 1 < p.ref_count then some { p.content with ref_count := p.ref_count - 1 }
          else none) := by
  obtain ⟨rt', hrt', htable, hindex, hcontents⟩ := h.decrement hp hi
  rw [JSRuntime.release, hp]
  simp only
  split_ifs with hcount
  · exact ⟨rt', hrt', htable, fun h0 => hindex ▸ h0, hcontents⟩
  · obtain ⟨-, q, hq, -⟩ := contents_eq_some.mp
      ((congrFun hcontents i).trans (Function.update_self ..))
    obtain ⟨rt'', hrt'', htable', hindex', hcontents'⟩ := htable.JS_FreeAtomStruct hq hi
    refine ⟨rt'', by rw [hrt']; exact hrt'', htable', fun _ => hindex', ?_⟩
    rw [hcontents', hcontents, Function.update_idem]

/-! ## New entries -/

/-- **More entries**, when none is free. -/
theorem Table.grow (h : Table rt) (hindex : rt.atom_free_index = 0) {array : Bool}
    {rt' : JSRuntime} (hgrow : rt.grow array = some rt') :
    Table rt' ∧ rt'.contents = rt.contents ∧ rt'.atom_free_index = max 1 rt.atom_size ∧
      rt'.atom_free_index < rt'.atom_size ∧
      Chain rt'.freeNext rt'.atom_free_index
        (List.range' rt'.atom_free_index (rt'.atom_size - rt'.atom_free_index)) := by
  rw [JSRuntime.grow] at hgrow
  generalize hnew : max 211 (rt.atom_size * 3 / 2) = new at hgrow
  generalize hstart : (if rt.atom_size = 0 then 1 else rt.atom_size) = start at hgrow
  by_cases hroom : 2 ^ 30 - 1 < new ∨ array = false
  · rw [if_pos hroom] at hgrow
    cases hgrow
  rw [if_neg hroom, Option.some_inj] at hgrow
  have hsize : rt.atom_size = 0 ∧ start = 1 ∨ rt.atom_size ≠ 0 ∧ start = rt.atom_size := by
    rw [← hstart]
    split_ifs with h0
    · exact .inl ⟨h0, rfl⟩
    · exact .inr ⟨h0, rfl⟩
  have hlt : start < new := by
    have := h.null.imp_right And.left
    omega
  obtain ⟨l, hl, hmem, hlength⟩ := h.free
  rw [hindex] at hl
  obtain rfl := hl.eq_nil
  have hget : ∀ i, rt'.get i = if start ≤ i ∧ i < new then none
      else if i = 0 ∧ rt.atom_size = 0 then some JSRuntime.nullEntry else rt.get i := by
    intro i
    rw [← hgrow, JSRuntime.get]
    simp only
    split_ifs <;> rfl
  have hof : ∀ i q, rt'.get i = some q →
      i = 0 ∧ rt.atom_size = 0 ∧ q = JSRuntime.nullEntry ∨ rt.get i = some q := by
    intro i q hq
    rw [hget] at hq
    split_ifs at hq with hfree h0
    · exact .inl ⟨h0.1, h0.2, (Option.some.inj hq).symm⟩
    · exact .inr hq
  have hold : ∀ i p, rt.get i = some p → rt'.get i = some p := by
    intro i p hp
    have := h.bound i p hp
    rw [hget, if_neg (by omega), if_neg (by omega), hp]
  have hold_of_ne : ∀ i q, rt'.get i = some q → q.atom_type ≠ .SYMBOL → rt.get i = some q :=
    fun i q hq htype => (hof i q hq).resolve_left fun ⟨_, _, h⟩ => htype (h ▸ rfl)
  have hhashed : rt'.hashed = rt.hashed := by
    ext i
    exact ⟨fun ⟨q, hq, htype⟩ => ⟨q, hold_of_ne i q hq htype, htype⟩,
      fun ⟨p, hp, htype⟩ => ⟨p, hold i p hp, htype⟩⟩
  have hindex' : rt'.atom_free_index = start := hgrow ▸ rfl
  have hsize' : rt'.atom_size = new := hgrow ▸ rfl
  have hchain : Chain rt'.freeNext (if new - start = 0 then 0 else start)
      (List.range' start (new - start)) := chain_range' (by omega) fun i hi hlt' => by
    rw [← hgrow, JSRuntime.freeNext]
    simp only
    rw [if_pos (by omega), show start + (new - start) - 1 = new - 1 by omega]
  rw [if_neg (by omega), ← hindex'] at hchain
  refine ⟨⟨?_, ⟨List.range' start (new - start), hindex' ▸ hchain, fun i => ?_, ?_⟩,
    fun i q hq => ?_, .inr ?_, fun i q hq htype => ?_, fun i q hq => ?_, fun i q hq htype => ?_,
    fun i j q r hq hr htype heq => ?_, hgrow ▸ h.power, by omega⟩, ?_, by omega, by omega,
    by rw [hsize', hindex']; exact hindex' ▸ hchain⟩
  · rw [hhashed, show rt'.atom_hash_size = rt.atom_hash_size from hgrow ▸ rfl]
    refine h.links.congr (fun y ⟨p, hp, _⟩ => ?_) (fun y ⟨p, hp, _⟩ => ?_) fun b _ => hgrow ▸ rfl
    · rw [bucket_of_get hp, bucket_of_get (hold y p hp)]
    · show (rt'.get y).map _ = (rt.get y).map _
      rw [hp, hold y p hp]
  · rw [List.mem_range'_1, hsize', hget]
    have hfull := hmem i
    by_cases hi : start ≤ i ∧ i < new
    · rw [if_pos hi]
      simp only [and_true]
      omega
    · rw [if_neg hi]
      constructor
      · omega
      · rintro ⟨hi0, hlt', hnone⟩
        rw [if_neg (by omega)] at hnone
        exact absurd (hfull.mpr ⟨hi0, by omega, hnone⟩) List.not_mem_nil
  · rw [List.length_range', hsize', ← hgrow]
    simp only [List.length_nil] at hlength ⊢
    split_ifs <;> omega
  · obtain ⟨rfl, -, -⟩ | hq := hof i q hq
    · omega
    · have := h.bound i q hq
      omega
  · refine ⟨by omega, ?_⟩
    obtain h0 | ⟨-, p, hp, htype⟩ := h.null
    · exact ⟨JSRuntime.nullEntry, by rw [hget, if_neg (by omega), if_pos ⟨rfl, h0⟩], rfl⟩
    · exact ⟨p, hold 0 p hp, htype⟩
  · obtain ⟨rfl, -, rfl⟩ | hq := hof i q hq
    · rfl
    · exact h.symbol i q hq htype
  · obtain ⟨-, -, rfl⟩ | hq := hof i q hq
    · exact fun h => by cases h
    · exact h.not_private i q hq
  · exact h.hash i q (hold_of_ne i q hq htype) htype
  · exact h.unique i j q r (hold_of_ne i q hq htype) (hold_of_ne j r hr (heq ▸ htype)) htype heq
  · funext i
    rw [JSRuntime.contents, JSRuntime.contents]
    split_ifs with hi
    · rfl
    · cases hp : rt.get i with
      | some p => rw [hold i p hp]
      | none =>
        rw [hget, if_neg (c := i = 0 ∧ _) fun h => hi h.1, hp, ite_self]

/-- The first free entry in use. -/
def JSRuntime.filled (rt : JSRuntime) (p : JSAtomStruct) (next : ℕ) (head : ℕ → ℕ) : JSRuntime :=
  { rt.set rt.atom_free_index (.atom p) with
    atom_free_index := next
    atom_count := rt.atom_count + 1
    atom_hash := head }

theorem get_filled (rt : JSRuntime) (p : JSAtomStruct) (next : ℕ) (head : ℕ → ℕ) :
    (rt.filled p next head).get = Function.update rt.get rt.atom_free_index (some p) :=
  get_set_atom rt rt.atom_free_index p

/-- The first free entry. -/
theorem Table.first_free (h : Table rt) (hindex : rt.atom_free_index ≠ 0) :
    ∃ next l, rt.freeNext rt.atom_free_index = some next ∧ Chain rt.freeNext next l ∧
      (∀ i, i ∈ rt.atom_free_index :: l ↔ i ≠ 0 ∧ i < rt.atom_size ∧ rt.get i = none) ∧
      (rt.atom_free_index :: l).Nodup ∧ rt.atom_count + (l.length + 1) = rt.atom_size := by
  obtain ⟨l, hl, hmem, hlength⟩ := h.free
  cases l with
  | nil => exact absurd hl.eq_zero hindex
  | cons x l =>
    have hnodup := hl.nodup
    obtain ⟨rfl, -, next, hnext, hrest⟩ := hl.inv
    exact ⟨next, l, hnext, hrest, hmem, hnodup, hlength⟩

/-- A table with the first free entry in use, where the links lead through the hashed entries. -/
theorem Table.filled (h : Table rt) (hindex : rt.atom_free_index ≠ 0) {next : ℕ} {head : ℕ → ℕ}
    (hnext : rt.freeNext rt.atom_free_index = some next)
    (hlinks : (rt.filled p next head).links.Holds rt.atom_hash_size
      ((rt.filled p next head).bucket rt.atom_hash_size) (rt.filled p next head).hashed)
    (hsymbol : p.atom_type = .SYMBOL → p.hash_next = rt.atom_free_index)
    (hprivate : p.atom_type ≠ .PRIVATE)
    (hhash : p.atom_type ≠ .SYMBOL → p.hash = hashOf p.str p.atom_type)
    (hnew : ∀ j q, rt.get j = some q → p.atom_type ≠ .SYMBOL → p.atom_type = q.atom_type →
      p.str.units ≠ q.str.units) :
    Table (rt.filled p next head) := by
  obtain ⟨next', l, hnext', hl, hmem, hnodup, hlength⟩ := h.first_free hindex
  obtain rfl := Option.some.inj (hnext.symm.trans hnext')
  obtain ⟨hout, -⟩ := List.nodup_cons.mp hnodup
  obtain ⟨-, hlt, hnone⟩ := (hmem rt.atom_free_index).mp (List.mem_cons_self ..)
  have hget := get_filled rt p next head
  -- an entry is the new one or an old one
  have hof : ∀ j q, (rt.filled p next head).get j = some q →
      j = rt.atom_free_index ∧ q = p ∨ j ≠ rt.atom_free_index ∧ rt.get j = some q := by
    intro j q hq
    rw [hget, Function.update_apply] at hq
    split_ifs at hq with hj
    · exact .inl ⟨hj, (Option.some.inj hq).symm⟩
    · exact .inr ⟨hj, hq⟩
  refine ⟨hlinks, ⟨l, ?_, fun j => ?_, ?_⟩, fun j q hq => ?_, ?_, fun j q hq htype => ?_,
    fun j q hq => ?_, fun j q hq htype => ?_, fun j k q r hq hr htype heq hunits => ?_, h.power,
    h.size⟩
  · refine hl.congr fun y hy => ?_
    exact freeNext_set_of_ne rt _ fun hyi => hout (hyi ▸ hy)
  · have hold := hmem j
    rw [List.mem_cons] at hold
    rw [hget, Function.update_apply]
    split_ifs with hj
    · subst hj
      simp [hout]
    · exact (or_iff_right hj).symm.trans hold
  · show rt.atom_count + 1 + l.length = rt.atom_size
    omega
  · obtain ⟨rfl, -⟩ | ⟨-, hq⟩ := hof j q hq
    · exact hlt
    · exact h.bound j q hq
  · obtain h0 | ⟨hle, q, hq, htype⟩ := h.null
    · omega
    · exact .inr ⟨hle, q, by rw [hget, Function.update_of_ne hindex.symm, hq], htype⟩
  · obtain ⟨rfl, rfl⟩ | ⟨-, hq⟩ := hof j q hq
    · exact hsymbol htype
    · exact h.symbol j q hq htype
  · obtain ⟨-, rfl⟩ | ⟨-, hq⟩ := hof j q hq
    · exact hprivate
    · exact h.not_private j q hq
  · obtain ⟨-, rfl⟩ | ⟨-, hq⟩ := hof j q hq
    · exact hhash htype
    · exact h.hash j q hq htype
  · obtain ⟨rfl, rfl⟩ | ⟨-, hqold⟩ := hof j q hq
    · obtain ⟨rfl, -⟩ | ⟨-, hrold⟩ := hof k r hr
      · rfl
      · exact absurd hunits (hnew k r hrold htype heq)
    · obtain ⟨-, rfl⟩ | ⟨-, hrold⟩ := hof k r hr
      · exact absurd hunits.symm (hnew j q hqold (heq ▸ htype) heq.symm)
      · exact h.unique j k q r hqold hrold htype heq hunits

/-- A new symbol is in no chain. -/
theorem Table.filled_symbol (h : Table rt) (next : ℕ) (hnone : rt.get rt.atom_free_index = none)
    (htype : p.atom_type = .SYMBOL) :
    (rt.filled p next rt.atom_hash).links.Holds rt.atom_hash_size
      ((rt.filled p next rt.atom_hash).bucket rt.atom_hash_size)
      (rt.filled p next rt.atom_hash).hashed := by
  have hget := get_filled rt p next rt.atom_hash
  have hne : ∀ {y}, y ∈ rt.hashed → y ≠ rt.atom_free_index := fun ⟨q, hq, _⟩ hy => by
    rw [hy, hnone] at hq
    cases hq
  have hhashed : (rt.filled p next rt.atom_hash).hashed = rt.hashed := by
    ext y
    rw [mem_hashed, mem_hashed, hget, Function.update_apply]
    split_ifs with hy
    · simp [hy, hnone, htype]
    · exact Iff.rfl
  rw [hhashed]
  refine h.links.congr (fun y hy => ?_) (fun y hy => ?_) fun _ _ => rfl
  · rw [JSRuntime.bucket, JSRuntime.bucket, hget, Function.update_of_ne (hne hy)]
  · show ((rt.filled p next rt.atom_hash).get y).map _ = (rt.get y).map _
    rw [hget, Function.update_of_ne (hne hy)]

/-- Any other new entry is the first of its chain. -/
theorem Table.filled_hashed (h : Table rt) (next : ℕ) (hindex : rt.atom_free_index ≠ 0)
    (hnone : rt.get rt.atom_free_index = none) (htype : p.atom_type ≠ .SYMBOL) {b : ℕ}
    (hb : bucketOf rt.atom_hash_size p.hash = b) (hp : p.hash_next = rt.atom_hash b) :
    let rt' := rt.filled p next (Function.update rt.atom_hash b rt.atom_free_index)
    rt'.links.Holds rt.atom_hash_size (rt'.bucket rt.atom_hash_size) rt'.hashed := by
  intro rt'
  have hget : rt'.get = Function.update rt.get rt.atom_free_index (some p) := get_filled ..
  have hself : rt'.get rt.atom_free_index = some p := by rw [hget, Function.update_self]
  have hout : rt.atom_free_index ∉ rt.hashed := fun ⟨q, hq, _⟩ => by
    rw [hnone] at hq
    cases hq
  have hne : ∀ {y}, y ∈ rt.hashed → y ≠ rt.atom_free_index := fun hy hyi => hout (hyi ▸ hy)
  have hhashed : rt'.hashed = insert rt.atom_free_index rt.hashed := by
    ext y
    rw [Set.mem_insert_iff, mem_hashed, mem_hashed, hget, Function.update_apply]
    split_ifs with hy
    · simp [hy, htype]
    · simp [hy]
  have hbucket : rt'.bucket rt.atom_hash_size rt.atom_free_index = b := by
    rw [bucket_of_get hself, hb]
  have hold : rt.links.Holds rt.atom_hash_size (rt'.bucket rt.atom_hash_size) rt.hashed := by
    refine h.links.congr (fun y hy => ?_) (fun _ _ => rfl) fun _ _ => rfl
    rw [JSRuntime.bucket, JSRuntime.bucket, hget, Function.update_of_ne (hne hy)]
  have hpush := hold.push hindex hout (by rw [hbucket, ← hb]; exact bucketOf_lt h.size_pos _)
  rw [hhashed]
  refine hpush.congr (fun _ _ => rfl) (fun y _ => ?_) fun c _ => ?_
  · show (rt'.get y).map _ = Function.update rt.links.next _ _ y
    rw [hget, hbucket, Function.update_apply, Function.update_apply]
    split_ifs
    · exact congrArg some hp
    · rfl
  · rw [hbucket]
    rfl

/-- The first free entry is used. -/
structure Used (rt rt' : JSRuntime) : Prop where
  index : rt.freeNext rt.atom_free_index = some rt'.atom_free_index
  next : ∀ i ≠ rt.atom_free_index, rt'.freeNext i = rt.freeNext i
  size : rt'.atom_size = rt.atom_size

theorem used_filled {next : ℕ} (hnext : rt.freeNext rt.atom_free_index = some next)
    (p : JSAtomStruct) (head : ℕ → ℕ) : Used rt (rt.filled p next head) where
  index := hnext
  next _ hi := freeNext_set_of_ne rt _ hi
  size := rfl

/-- **A new entry** is made of a text that is not there yet. -/
theorem Table.useEntry (h : Table rt) (hindex : rt.atom_free_index ≠ 0) (str : JSString)
    (ref_count : ℕ) {hash : UInt32} {atom_type : AtomType} (room : Bool)
    (hprivate : atom_type ≠ .PRIVATE) (hhash : atom_type ≠ .SYMBOL → hash = hashOf str atom_type)
    (hnew : atom_type ≠ .SYMBOL →
      ∀ i p, rt.get i = some p → p.atom_type = atom_type → p.str.units ≠ str.units) :
    ∃ rt', rt.useEntry str ref_count hash atom_type room = some (rt', rt.atom_free_index) ∧
      Table rt' ∧ Used rt rt' ∧ rt.atom_free_index < 2 ^ 30 ∧
      rt.contents rt.atom_free_index = none ∧
      rt'.contents = Function.update rt.contents rt.atom_free_index
        (some ⟨ref_count, str, hash, atom_type⟩) := by
  obtain ⟨next, l, hnext, -, hmem, -, -⟩ := h.first_free hindex
  obtain ⟨-, hlt, hnone⟩ := (hmem rt.atom_free_index).mp (List.mem_cons_self ..)
  have hsize := h.size
  have hcontents : ∀ (p : JSAtomStruct) (head : ℕ → ℕ), (rt.filled p next head).contents =
      Function.update rt.contents rt.atom_free_index (some p.content) :=
    fun p _ => contents_set_atom rt hindex p
  have hcontents_none : rt.contents rt.atom_free_index = none := by
    rw [JSRuntime.contents, hnone, Option.map_none, ite_self]
  rw [JSRuntime.useEntry]
  simp only [hnext]
  by_cases htype : atom_type = .SYMBOL
  · subst htype
    rw [if_pos rfl]
    exact ⟨rt.filled ⟨ref_count, str, hash, .SYMBOL, rt.atom_free_index⟩ next rt.atom_hash, rfl,
      h.filled hindex hnext (h.filled_symbol next hnone rfl) (fun _ => rfl) hprivate hhash
        fun _ _ _ hne => absurd rfl hne,
      used_filled hnext _ _, hlt.trans hsize, hcontents_none, hcontents _ _⟩
  · rw [if_neg htype]
    have htable := h.filled (p := ⟨ref_count, str, hash, atom_type,
      rt.atom_hash (bucketOf rt.atom_hash_size hash)⟩) hindex hnext
      (h.filled_hashed next hindex hnone htype rfl rfl) (fun h => absurd h htype) hprivate hhash
      fun j q hq _ heq hunits => hnew htype j q hq heq.symm hunits.symm
    have hused := used_filled hnext ⟨ref_count, str, hash, atom_type,
      rt.atom_hash (bucketOf rt.atom_hash_size hash)⟩
      (Function.update rt.atom_hash (bucketOf rt.atom_hash_size hash) rt.atom_free_index)
    obtain ⟨k, hk⟩ := h.power
    split_ifs with hresize
    · obtain ⟨rt', hrt', htable', hfree, hcontents'⟩ := htable.JS_ResizeAtomHash (k + 1) room
      rw [pow_succ, ← hk] at hrt'
      refine ⟨rt', ?_, htable', ⟨?_, fun i hi => ?_, hfree.size⟩, hlt.trans hsize, hcontents_none,
        hcontents'.trans (hcontents _ _)⟩
      · exact congrArg (Option.map fun rt => (rt, _)) hrt'
      · rw [hfree.index]
        exact hused.index
      · rw [hfree.next]
        exact hused.next i hi
    · exact ⟨_, rfl, htable, hused, hlt.trans hsize, hcontents_none, hcontents _ _⟩

end

end JSEngine.Atoms
