import JSEngine.Common.Ledger
import JSEngine.Common.Machine

/-!
# The tracked allocator of the Duktape heap

Model of `tracked_alloc`, `tracked_realloc`, `tracked_free` and `getHeapSize`
(`DuktapeContext.cpp` lines 123–154 and 254–256). `m_heapSize` is a `long` of
`w` bits and `pointers` a map from addresses to sizes.

An action of the machine is a call of the engine together with the answer of
the C library; `Heap.step` says which calls and answers are possible and what
blocks are live afterwards. An address may be handed out again once its block is
gone, and `realloc` to size 0 frees the block where it returns null.

* `accounted_iff`: after a step from an accounted state the books are right
  exactly where the step is `Booked`: it does not free a block by `realloc`, and
  the live bytes fit in a `long`.
* `heapSize_accounted`: so over runs.
* `stale_entry_inflates`: what a stale entry does to the counter once the C
  library hands its address out again.
-/

namespace JSEngine.Duktape.Allocator

open JSEngine.Common

variable {Ptr : Type} [DecidableEq Ptr] {w : ℕ}

/-! ## The C heap -/

/-- A call of the engine with the answer of `malloc` or `realloc`; `none` is the
    null pointer. -/
inductive Call (Ptr : Type)
  | alloc (size : ℕ) (ret : Option Ptr)
  | realloc (ptr : Option Ptr) (size : ℕ) (ret : Option Ptr)
  | free (ptr : Option Ptr)
  deriving DecidableEq

namespace Heap

/-- A block that `malloc` hands out is not live yet. -/
def malloc (live : Ledger Ptr) (size : ℕ) : Option Ptr → Option (Ledger Ptr)
  | none => some live
  | some ret => if ret ∈ live then none else some (live.insert ret size)

/-- The live blocks after a call; `none` where the engine may not make the call
    or the C library does not answer so. -/
def step (live : Ledger Ptr) : Call Ptr → Option (Ledger Ptr)
  | .alloc size ret => malloc live size ret
  | .realloc none size ret => malloc live size ret
  | .realloc (some ptr) size ret =>
    if ptr ∈ live then
      match ret with
      -- size 0: the block is freed; otherwise the request failed and it stays
      | none => some (if size = 0 then live.erase ptr else live)
      | some ret => malloc (live.erase ptr) size (some ret)
    else none
  | .free none => some live
  | .free (some ptr) => if ptr ∈ live then some (live.erase ptr) else none

end Heap

/-! ## The tracked functions -/

/-- The fields `m_heapSize` and `pointers` of `DuktapeContext`. -/
structure Tracker (w : ℕ) (Ptr : Type) where
  heapSize : BitVec w
  pointers : Ledger Ptr
  deriving DecidableEq

namespace Tracker

/-- `pointers[ret] = size; m_heapSize += size;` -/
def record (t : Tracker w Ptr) (ret : Ptr) (size : ℕ) : Tracker w Ptr :=
  { pointers := t.pointers.insert ret size
    heapSize := t.heapSize + BitVec.ofNat w size }

/-- The block that `tracked_realloc` (lines 136–140) and `tracked_free` (lines
    148–152) share. Null is never a key of the map. -/
def forget (t : Tracker w Ptr) : Option Ptr → Tracker w Ptr
  | none => t
  | some ptr =>
    match t.pointers.lookup ptr with
    | none => t
    | some allocated =>
      { pointers := t.pointers.erase ptr
        heapSize := t.heapSize - BitVec.ofNat w allocated }

/-- `tracked_alloc` (lines 123–131), where `malloc` returned `ret`. -/
def tracked_alloc (t : Tracker w Ptr) (size : ℕ) : Option Ptr → Tracker w Ptr
  | none => t
  | some ret => t.record ret size

/-- `tracked_realloc` (lines 132–145), where `realloc` returned `ret`. -/
def tracked_realloc (t : Tracker w Ptr) (ptr : Option Ptr) (size : ℕ) :
    Option Ptr → Tracker w Ptr
  | none => t
  | some ret => (t.forget ptr).record ret size

/-- `tracked_free` (lines 146–154). -/
def tracked_free (t : Tracker w Ptr) (ptr : Option Ptr) : Tracker w Ptr := t.forget ptr

/-- The function that the engine calls. -/
def apply (t : Tracker w Ptr) : Call Ptr → Tracker w Ptr
  | .alloc size ret => t.tracked_alloc size ret
  | .realloc ptr size ret => t.tracked_realloc ptr size ret
  | .free ptr => t.tracked_free ptr

/-- `getHeapSize` (lines 254–256); the `long` is returned as a `jlong`. -/
def getHeapSize (t : Tracker w Ptr) : ℤ := t.heapSize.toInt

theorem forget_of_unrecorded {t : Tracker w Ptr} {ptr : Ptr} (h : t.pointers.lookup ptr = none) :
    t.forget (some ptr) = t := by
  simp only [Tracker.forget, h]

theorem forget_of_recorded {t : Tracker w Ptr} {ptr : Ptr} {allocated : ℕ}
    (h : t.pointers.lookup ptr = some allocated) :
    t.forget (some ptr) =
      { pointers := t.pointers.erase ptr
        heapSize := t.heapSize - BitVec.ofNat w allocated } := by
  simp only [Tracker.forget, h]

/-- `forget` takes the entry of the pointer out of the map. -/
theorem pointers_forget (t : Tracker w Ptr) (ptr : Ptr) :
    (t.forget (some ptr)).pointers = t.pointers.erase ptr := by
  cases hp : t.pointers.lookup ptr with
  | none => rw [forget_of_unrecorded hp, Ledger.erase_of_lookup_eq_none hp]
  | some allocated => rw [forget_of_recorded hp]

/-- The counter agrees with the map, as far as its bits go. -/
def Balanced (t : Tracker w Ptr) : Prop := t.heapSize = BitVec.ofNat w t.pointers.total

theorem Balanced.record {t : Tracker w Ptr} (h : t.Balanced) {ret : Ptr} (size : ℕ)
    (hret : ret ∉ t.pointers) : (t.record ret size).Balanced := by
  unfold Balanced at *
  show t.heapSize + _ = BitVec.ofNat w (Ledger.total (t.pointers.insert ret size))
  rw [Ledger.total_insert size hret, BitVec.ofNat_add, h]

theorem Balanced.forget {t : Tracker w Ptr} (h : t.Balanced) (ptr : Option Ptr) :
    (t.forget ptr).Balanced := by
  obtain _ | ptr := ptr
  · exact h
  · cases hp : t.pointers.lookup ptr with
    | none => rwa [forget_of_unrecorded hp]
    | some allocated =>
      rw [forget_of_recorded hp]
      unfold Balanced at *
      rw [h, ← Ledger.total_erase hp, BitVec.ofNat_add, BitVec.add_sub_cancel]

end Tracker

/-! ## Runs -/

/-- The live blocks and what the tracker knows of them. -/
structure State (w : ℕ) (Ptr : Type) where
  live : Ledger Ptr
  tracker : Tracker w Ptr
  deriving DecidableEq

/-- The heap and the tracker take every call together; the event of a step is
    the state it leads to. -/
def machine (w : ℕ) (Ptr : Type) [DecidableEq Ptr] :
    Machine (State w Ptr) (Call Ptr) (State w Ptr) where
  init := { live := ∅, tracker := { heapSize := 0, pointers := ∅ } }
  step s call := (Heap.step s.live call).map fun live =>
    let s' := { live := live, tracker := s.tracker.apply call }
    (s', [s'])

/-- The books are right: `m_heapSize` is the sum of the recorded sizes,
    `pointers` records the live blocks with their sizes, and `getHeapSize`
    returns the bytes that are live. -/
structure Accounted (s : State w Ptr) : Prop where
  heapSize_eq : s.tracker.heapSize.toInt = s.tracker.pointers.total
  pointers_eq : s.tracker.pointers = s.live
  getHeapSize_eq : s.tracker.getHeapSize = s.live.total

/-- The call frees a block by `realloc`. -/
def Call.FreesByRealloc : Call Ptr → Prop
  | .realloc (some _) 0 none => True
  | _ => False

instance : DecidablePred (@Call.FreesByRealloc Ptr) := fun call => by
  unfold Call.FreesByRealloc
  split <;> infer_instance

/-- The bytes that are live after the call. -/
def bytesAfter (s : State w Ptr) (call : Call Ptr) : ℕ :=
  ((Heap.step s.live call).getD ∅).total

/-- The call does not free by `realloc`, and the live bytes fit in a `long`. -/
def Booked (s : State w Ptr) (call : Call Ptr) : Prop :=
  ¬ call.FreesByRealloc ∧ bytesAfter s call < 2 ^ (w - 1)

instance (s : State w Ptr) (call : Call Ptr) : Decidable (Booked s call) :=
  inferInstanceAs (Decidable (_ ∧ _))

omit [DecidableEq Ptr] in
theorem Accounted.balanced {s : State w Ptr} (h : Accounted s) : s.tracker.Balanced := by
  unfold Tracker.Balanced
  rw [← BitVec.ofInt_natCast, ← h.heapSize_eq, BitVec.ofInt_toInt]

omit [DecidableEq Ptr] in
/-- Where the map is right and the counter agrees with it, the books are right
    exactly while the live bytes fit. -/
theorem accounted_iff_lt {s : State w Ptr} (hb : s.tracker.Balanced)
    (hp : s.tracker.pointers = s.live) : Accounted s ↔ s.live.total < 2 ^ (w - 1) := by
  rw [← toInt_ofNat_eq_iff, ← hp, ← hb]
  constructor
  · exact fun h => h.heapSize_eq
  · intro h
    exact ⟨h, hp, hp ▸ h⟩

/-- A block that is handed out is recorded. -/
theorem recorded {t : Tracker w Ptr} {live live' : Ledger Ptr} {size : ℕ} {ret : Option Ptr}
    (hb : t.Balanced) (hp : t.pointers = live) (hs : Heap.malloc live size ret = some live') :
    (t.tracked_alloc size ret).Balanced ∧ (t.tracked_alloc size ret).pointers = live' := by
  subst hp
  obtain _ | ret := ret
  · obtain rfl : t.pointers = live' := by simpa [Heap.malloc] using hs
    exact ⟨hb, rfl⟩
  · simp only [Heap.malloc] at hs
    split_ifs at hs with hret
    obtain rfl := Option.some.inj hs
    exact ⟨hb.record size hret, rfl⟩

/-- **The tracked functions**, on right books: a call that does not free by
    `realloc` keeps the counter and the map right; one that does leaves the freed
    block in the map. -/
theorem apply_spec {s : State w Ptr} {call : Call Ptr} {live' : Ledger Ptr}
    (hb : s.tracker.Balanced) (hp : s.tracker.pointers = s.live)
    (hs : Heap.step s.live call = some live') :
    if call.FreesByRealloc then (s.tracker.apply call).pointers ≠ live'
    else (s.tracker.apply call).Balanced ∧ (s.tracker.apply call).pointers = live' := by
  match call with
  | .alloc size ret =>
    rw [if_neg (by simp [Call.FreesByRealloc])]
    exact recorded hb hp hs
  | .realloc none size ret =>
    rw [if_neg (by simp [Call.FreesByRealloc])]
    have := recorded hb hp (show Heap.malloc s.live size ret = some live' from hs)
    obtain _ | ret := ret <;> exact this
  | .realloc (some ptr) size (some ret) =>
    rw [if_neg (by simp [Call.FreesByRealloc])]
    simp only [Heap.step] at hs
    split_ifs at hs with hptr
    have hp' : (s.tracker.forget (some ptr)).pointers = s.live.erase ptr := by
      rw [Tracker.pointers_forget, hp]
    exact recorded (hb.forget _) hp' hs
  | .realloc (some ptr) (size + 1) none =>
    rw [if_neg (by simp [Call.FreesByRealloc])]
    simp only [Heap.step, Nat.add_eq_zero_iff, one_ne_zero, and_false, if_false] at hs
    split_ifs at hs with hptr
    obtain rfl := Option.some.inj hs
    exact ⟨hb, hp⟩
  | .realloc (some ptr) 0 none =>
    rw [if_pos (by simp [Call.FreesByRealloc])]
    simp only [Heap.step, if_true] at hs
    split_ifs at hs with hptr
    obtain rfl := Option.some.inj hs
    show s.tracker.pointers ≠ _
    rw [hp]
    exact Ledger.erase_ne hptr
  | .free none =>
    rw [if_neg (by simp [Call.FreesByRealloc])]
    obtain rfl := Option.some.inj hs
    exact ⟨hb, hp⟩
  | .free (some ptr) =>
    rw [if_neg (by simp [Call.FreesByRealloc])]
    simp only [Heap.step] at hs
    split_ifs at hs with hptr
    obtain rfl := Option.some.inj hs
    refine ⟨hb.forget _, ?_⟩
    show (s.tracker.forget (some ptr)).pointers = _
    rw [Tracker.pointers_forget, hp]

/-- **One step**: from right books, the books are right afterwards exactly where
    the call is booked. -/
theorem accounted_iff {s : State w Ptr} {call : Call Ptr} {live' : Ledger Ptr}
    (h : Accounted s) (hs : Heap.step s.live call = some live') :
    Accounted { live := live', tracker := s.tracker.apply call } ↔ Booked s call := by
  have hafter : bytesAfter s call = live'.total := by rw [bytesAfter, hs, Option.getD_some]
  have hspec := apply_spec h.balanced h.pointers_eq hs
  unfold Booked
  rw [hafter]
  split_ifs at hspec with hfree
  · constructor
    · intro h'
      exact absurd h'.pointers_eq hspec
    · intro h'
      exact absurd hfree h'.1
  · rw [accounted_iff_lt hspec.1 hspec.2]
    constructor
    · intro h'
      exact ⟨hfree, h'⟩
    · exact fun h' => h'.2

/-- **Heap accounting over runs**: the books are right after every call of a run
    exactly where every call of it is booked. -/
theorem heapSize_accounted (w : ℕ) (Ptr : Type) [DecidableEq Ptr] (calls : List (Call Ptr))
    (r : State w Ptr × List (State w Ptr))
    (hrun : (machine w Ptr).run (machine w Ptr).init calls = some r) :
    (∀ s ∈ r.2, Accounted s) ↔ (machine w Ptr).Meets Booked (machine w Ptr).init calls := by
  have hinit : Accounted (machine w Ptr).init := by
    constructor <;> simp [machine, Tracker.getHeapSize]
  have := (machine w Ptr).run_accepts_iff
    (P := Booked) (I := fun s h => Accounted s ∧ ∀ s' ∈ h, Accounted s')
    (A := fun h => ∀ s' ∈ h, Accounted s') ?_ ?_ ?_ calls (machine w Ptr).init [] r
    ⟨hinit, by simp⟩ hrun
  · simpa using this
  · intro h o hacc s hs
    exact hacc s (List.mem_append_left _ hs)
  · intro s h hI
    exact hI.2
  · intro s h call s' o ⟨hacc, hseen⟩ hstep
    simp only [machine, Option.map_eq_some_iff, Prod.mk.injEq] at hstep
    obtain ⟨live', hs, rfl, rfl⟩ := hstep
    have hiff := accounted_iff hacc hs
    have happ : (∀ t ∈ h ++ [(⟨live', s.tracker.apply call⟩ : State w Ptr)], Accounted t) ↔
        Booked s call := by
      rw [List.forall_mem_append, List.forall_mem_singleton, hiff]
      exact and_iff_right hseen
    exact ⟨happ, fun hb => ⟨hiff.mpr hb, happ.mpr hb⟩⟩

/-- A run on a 64-bit platform that moves a block, shrinks it to size 0 in place
    and hands its first address out again. -/
theorem heapSize_accounted_moved :
    ∃ r, (machine 64 ℕ).run (machine 64 ℕ).init
        [.alloc 16 (some 1), .realloc (some 1) 32 (some 2), .alloc 8 (some 1),
          .realloc (some 2) 0 (some 2), .free (some 1), .free none] = some r ∧
      ∀ s ∈ r.2, Accounted s :=
  ⟨_, rfl, (heapSize_accounted 64 ℕ
    [.alloc 16 (some 1), .realloc (some 1) 32 (some 2), .alloc 8 (some 1),
      .realloc (some 2) 0 (some 2), .free (some 1), .free none] _ rfl).mpr (by decide +kernel)⟩

/-- A block of 16 bytes that is freed by `realloc` is still counted. -/
theorem realloc_to_zero_is_counted :
    ¬ ∀ (calls : List (Call ℕ)) (r : State 64 ℕ × List (State 64 ℕ)),
        (machine 64 ℕ).run (machine 64 ℕ).init calls = some r → ∀ s ∈ r.2, Accounted s := by
  intro h
  have := h [.alloc 16 (some 1), .realloc (some 1) 0 none] _ rfl
    ⟨∅, ⟨16, Finmap.singleton 1 16⟩⟩ (by decide)
  exact absurd this.getHeapSize_eq (by decide)

/-- **A stale entry**: a block of `n` bytes is freed by `realloc` and its address
    is handed out again for `m` bytes. The map is right again, but the counter
    keeps the `n` bytes for good. -/
theorem stale_entry_inflates {s : State w Ptr} (h : Accounted s) {ptr : Ptr}
    (hptr : ptr ∉ s.live) (n m : ℕ) :
    ∃ o, (machine w Ptr).run s
        [.alloc n (some ptr), .realloc (some ptr) 0 none, .alloc m (some ptr)] =
      some (⟨s.live.insert ptr m,
        ⟨s.tracker.heapSize + BitVec.ofNat w n + BitVec.ofNat w m, s.live.insert ptr m⟩⟩, o) := by
  have hmem : ptr ∈ s.live.insert ptr n := Finmap.mem_insert.mpr (Or.inl rfl)
  have herase : (s.live.insert ptr n).erase ptr = s.live := by
    apply Finmap.ext_lookup
    intro x
    by_cases hx : x = ptr
    · subst hx
      rw [Finmap.lookup_erase, Finmap.lookup_eq_none.mpr hptr]
    · rw [Finmap.lookup_erase_ne hx, Finmap.lookup_insert_of_ne _ hx]
  have hlive := h.pointers_eq
  simp [Machine.run, machine, Heap.step, Heap.malloc, hptr, hmem, herase, Tracker.apply,
    Tracker.tracked_alloc, Tracker.tracked_realloc, Tracker.record, hlive]

end JSEngine.Duktape.Allocator
