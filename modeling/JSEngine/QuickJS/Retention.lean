import JSEngine.QuickJS.Stash

/-!
# Retention and release of QuickJS values

* `Retained`: every `JavaScriptObject` that is not drained has its pointer in
  the stash, the pointer leads to the value it was created for, and no two of
  them share a pointer.
* `ReleasedOnce`: the queued pointers are those erased so far and those still
  pending, no pointer is queued twice for one object, and every erasure finds
  the twin of the object whose finalizer queued it.
* `retained_and_released_once`: both hold after every run, and one more drain
  releases whatever is pending.
-/

namespace JSEngine.QuickJS

open JSEngine.Common JSEngine.Java JSEngine.WeakMap

variable {O R J B : Type*}

/-- The finalizations queued in a history, in order. -/
def enqueued (h : List (Event O J B)) : List (Queued J) :=
  h.filterMap fun e => match e with | .enqueued q => some q | _ => none

/-- The finalizations for which the stash has erased the pointer. -/
def released (h : List (Event O J B)) : List (Queued J) :=
  h.filterMap fun e => match e with | .erased q _ => some q | _ => none

/-- What Java relies on while it holds a `JavaScriptObject`. -/
structure Retained (s : State O J B) : Prop where
  stashed : ∀ j o, s.objects j = some o → o.status ≠ .drained → s.stash o.pointer = true
  value : ∀ j o, s.objects j = some o → o.status ≠ .drained →
    s.toValueAsLocal o.pointer = some o.createdFor
  distinct : ∀ j j' o o', s.objects j = some o → s.objects j' = some o' →
    o.status ≠ .drained → o'.status ≠ .drained → o.pointer = o'.pointer → j = j'

/-- Every queued pointer is erased once: none is lost, none is erased twice. -/
structure ReleasedOnce (s : State O J B) (h : List (Event O J B)) : Prop where
  conserved : (enqueued h).Perm (released h ++ s.pending)
  once : ((enqueued h).map Queued.object).Nodup
  hit : ∀ q owner, Event.erased q owner ∈ h → owner = some q.object

/-- The invariant. -/
structure Inv (s : State O J B) (h : List (Event O J B)) : Prop extends ReleasedOnce s h where
  twin : ∀ j o, s.objects j = some o → o.status ≠ .drained →
    s.twins o.pointer = some ⟨j, o.createdFor⟩ ∧ s.stash o.pointer = true
  frame : ∀ f ∈ s.frames, s.twins f.pointer = some ⟨f.object, .undefined⟩ ∧
    s.objects f.object = none
  frames : (s.frames.map Frame.object).Nodup
  pending : ∀ q ∈ s.pending, ∃ o, s.objects q.object = some o ∧ o.status = .enqueued ∧
    o.pointer = q.pointer
  logged : ∀ q ∈ enqueued h, ∃ o, s.objects q.object = some o ∧ o.status ≠ .alive

theorem Inv.retained {s : State O J B} {h : List (Event O J B)} (hI : Inv s h) : Retained s where
  stashed j o hj ho := (hI.twin j o hj ho).2
  value j o hj ho := by
    rw [State.toValueAsLocal, (hI.twin j o hj ho).1]
    rfl
  distinct j j' o o' hj hj' ho ho' hp := by
    have h1 := (hI.twin j o hj ho).1
    have h2 := (hI.twin j' o' hj' ho').1
    rw [hp, h2] at h1
    exact (Twin.mk.inj (Option.some.inj h1)).1.symm

/-- The objects with a pending pointer are different. -/
theorem Inv.pending_nodup {s : State O J B} {h : List (Event O J B)} (hI : Inv s h) :
    (s.pending.map Queued.object).Nodup := by
  have hsub : ((released h ++ s.pending).map Queued.object).Nodup :=
    (hI.conserved.map Queued.object).nodup_iff.mp hI.once
  rw [List.map_append] at hsub
  exact hsub.of_append_right

/-! ## Events that the invariant does not see -/

@[simp] theorem enqueued_append (h o : List (Event O J B)) :
    enqueued (h ++ o) = enqueued h ++ enqueued o := List.filterMap_append

@[simp] theorem released_append (h o : List (Event O J B)) :
    released (h ++ o) = released h ++ released o := List.filterMap_append

@[simp] theorem enqueued_enqueued (q : Queued J) :
    enqueued [(.enqueued q : Event O J B)] = [q] := rfl

@[simp] theorem released_enqueued (q : Queued J) :
    released [(.enqueued q : Event O J B)] = [] := rfl

@[simp] theorem enqueued_erased (q : Queued J) (owner : Option J) :
    enqueued [(.erased q owner : Event O J B)] = [] := rfl

@[simp] theorem released_erased (q : Queued J) (owner : Option J) :
    released [(.erased q owner : Event O J B)] = [q] := rfl

/-- The event is neither a queued finalization nor an erasure. -/
def Event.isPlain : Event O J B → Bool
  | .enqueued _ => false
  | .erased _ _ => false
  | _ => true

theorem enqueued_of_plain {o : List (Event O J B)} (ho : o.all Event.isPlain = true) :
    enqueued o = [] := by
  rw [enqueued, List.filterMap_eq_nil_iff]
  intro e he
  have := List.all_eq_true.mp ho e he
  cases e with
  | enqueued q => cases this
  | _ => rfl

theorem released_of_plain {o : List (Event O J B)} (ho : o.all Event.isPlain = true) :
    released o = [] := by
  rw [released, List.filterMap_eq_nil_iff]
  intro e he
  have := List.all_eq_true.mp ho e he
  cases e with
  | erased q owner => cases this
  | _ => rfl

/-- A step that changes only what Java keeps on its own. -/
theorem Inv.congr {s s' : State O J B} {h o : List (Event O J B)} (hI : Inv s h)
    (htwins : s'.twins = s.twins) (hstash : s'.stash = s.stash) (hobjects : s'.objects = s.objects)
    (hframes : s'.frames = s.frames) (hpending : s'.pending = s.pending)
    (ho : o.all Event.isPlain = true) : Inv s' (h ++ o) where
  conserved := by
    rw [enqueued_append, released_append, enqueued_of_plain ho, released_of_plain ho, hpending,
      List.append_nil, List.append_nil]
    exact hI.conserved
  once := by
    rw [enqueued_append, enqueued_of_plain ho, List.append_nil]
    exact hI.once
  hit := by
    intro q owner he
    rcases List.mem_append.mp he with he | he
    · exact hI.hit q owner he
    · cases List.all_eq_true.mp ho _ he
  twin := by
    rw [htwins, hstash, hobjects]
    exact hI.twin
  frame := by
    rw [htwins, hobjects, hframes]
    exact hI.frame
  frames := by
    rw [hframes]
    exact hI.frames
  pending := by
    rw [hpending, hobjects]
    exact hI.pending
  logged := by
    rw [enqueued_append, enqueued_of_plain ho, List.append_nil, hobjects]
    exact hI.logged

theorem inv_init (buffers : WeakMap.Heap B) : Inv ({ buffers := buffers } : State O J B) [] where
  conserved := by simp [enqueued, released, State.pending]
  once := by simp [enqueued]
  hit := by simp
  twin := by simp
  frame := by simp
  frames := by simp
  pending := by simp [State.pending]
  logged := by simp [enqueued]

/-! ## The operations -/

variable [DecidableEq O] [DecidableEq J] [DecidableEq B]

omit [DecidableEq O] [DecidableEq B] in
/-- A new twin at a free address. -/
theorem Inv.newTwin {s s' : State O J B} {h o : List (Event O J B)} (hI : Inv s h) {v : Val O}
    {j : J} {p : ℕ} (hs : s.newTwin v j p = some (s', o)) : Inv s' (h ++ o) := by
  unfold State.newTwin at hs
  split_ifs at hs with hfree
  obtain ⟨-, hp, hj, hnew⟩ := hfree
  rw [Option.isNone_iff_eq_none] at hp hj
  obtain ⟨rfl, rfl⟩ := Prod.mk.inj (Option.some.inj hs)
  have hne : ∀ q t, s.twins q = some t → q ≠ p := by
    rintro q t hq rfl
    rw [hp] at hq
    cases hq
  rw [List.append_nil]
  refine ⟨⟨hI.conserved, hI.once, hI.hit⟩, ?_, ?_, ?_, hI.pending, hI.logged⟩
  · intro j' o hj' ho
    obtain ⟨h1, h2⟩ := hI.twin j' o hj' ho
    dsimp only
    rw [Function.update_of_ne (hne _ _ h1)]
    exact ⟨h1, h2⟩
  · intro f hf
    rcases List.mem_cons.mp hf with rfl | hf
    · dsimp only
      rw [Function.update_self]
      exact ⟨rfl, hj⟩
    · obtain ⟨h1, h2⟩ := hI.frame f hf
      dsimp only
      rw [Function.update_of_ne (hne _ _ h1)]
      exact ⟨h1, h2⟩
  · exact List.nodup_cons.mpr ⟨hnew, hI.frames⟩

omit [DecidableEq O] [DecidableEq B] in
theorem Inv.toObject {s s' : State O J B} {h o : List (Event O J B)} (hI : Inv s h)
    {rd : Reads O R} {n : ℕ} {v : Val O} {j : J} {p : ℕ}
    (hs : s.toObject rd n v j p = some (s', o)) : Inv s' (h ++ o) := by
  unfold State.toObject at hs
  split at hs
  next => cases hs
  next dead hdead =>
    -- no twin the script can show has a weak reference, so none is dropped
    obtain rfl := recognise_create hdead
    exact hI.newTwin hs
  next =>
    obtain ⟨rfl, rfl⟩ := Prod.mk.inj (Option.some.inj hs)
    apply hI.congr rfl rfl rfl rfl rfl
    split_ifs <;> rfl

omit [DecidableEq O] [DecidableEq B] in
/-- The innermost call puts its twin in the stash and hands out its object. -/
theorem Inv.commit {s : State O J B} {h : List (Event O J B)} (hI : Inv s h)
    {f : Frame O J} {frames : List (Frame O J)} (hf : s.frames = f :: frames) :
    Inv { s with
      frames := frames,
      objects := Function.update s.objects f.object (some ⟨f.pointer, f.value, .alive⟩),
      stash := Function.update s.stash f.pointer true,
      twins := Function.update s.twins f.pointer (some ⟨f.object, f.value⟩) } h := by
  have hfmem : f ∈ s.frames := by simp [hf]
  obtain ⟨htwin, hnone⟩ := hI.frame f hfmem
  have hframes := hI.frames
  rw [hf, List.map_cons, List.nodup_cons] at hframes
  -- the object is new, so no object of before is changed
  have hold : ∀ j o, s.objects j = some o → j ≠ f.object := by
    rintro j o hj rfl
    rw [hnone] at hj
    cases hj
  refine ⟨⟨hI.conserved, hI.once, hI.hit⟩, ?_, ?_, hframes.2, ?_, ?_⟩
  · intro j o hj ho
    dsimp only at hj ⊢
    by_cases hjf : j = f.object
    · subst hjf
      rw [Function.update_self] at hj
      obtain rfl := Option.some.inj hj
      rw [Function.update_self, Function.update_self]
      exact ⟨rfl, rfl⟩
    · rw [Function.update_of_ne hjf] at hj
      obtain ⟨h1, h2⟩ := hI.twin j o hj ho
      have hp : o.pointer ≠ f.pointer := by
        intro hp
        rw [hp, htwin] at h1
        exact hjf (Twin.mk.inj (Option.some.inj h1)).1.symm
      rw [Function.update_of_ne hp, Function.update_of_ne hp]
      exact ⟨h1, h2⟩
  · intro g hg
    have hgobj : g.object ≠ f.object := by
      intro heq
      exact hframes.1 (heq ▸ List.mem_map_of_mem hg)
    obtain ⟨h1, h2⟩ := hI.frame g (by rw [hf]; exact List.mem_cons_of_mem _ hg)
    have hp : g.pointer ≠ f.pointer := by
      intro hp
      rw [hp, htwin] at h1
      exact hgobj (Twin.mk.inj (Option.some.inj h1)).1.symm
    dsimp only
    rw [Function.update_of_ne hp, Function.update_of_ne hgobj]
    exact ⟨h1, h2⟩
  · intro q hq
    obtain ⟨o, h1, h2⟩ := hI.pending q hq
    refine ⟨o, ?_, h2⟩
    dsimp only
    rw [Function.update_of_ne (hold _ _ h1), h1]
  · intro q hq
    obtain ⟨o, h1, h2⟩ := hI.logged q hq
    refine ⟨o, ?_, h2⟩
    dsimp only
    rw [Function.update_of_ne (hold _ _ h1), h1]

theorem Inv.finishToObject {s s' : State O J B} {h o : List (Event O J B)} (hI : Inv s h)
    {heap : QuickJS.Heap O R} {n : ℕ} {byteBuffer : Option B}
    (hs : s.finishToObject heap n byteBuffer = some (s', o)) : Inv s' (h ++ o) := by
  unfold State.finishToObject at hs
  split at hs
  next => cases hs
  next f frames hf =>
    have hc := hI.commit hf
    dsimp only at hs
    split at hs
    · split at hs
      · obtain ⟨rfl, rfl⟩ := Prod.mk.inj (Option.some.inj hs)
        exact hc.congr rfl rfl rfl rfl rfl rfl
      · split at hs
        · cases hs
        · obtain ⟨rfl, rfl⟩ := Prod.mk.inj (Option.some.inj hs)
          exact hc.congr rfl rfl rfl rfl rfl rfl
    · obtain ⟨rfl, rfl⟩ := Prod.mk.inj (Option.some.inj hs)
      exact hc.congr rfl rfl rfl rfl rfl rfl

omit [DecidableEq O] [DecidableEq B] in
theorem Inv.finalize {s s' : State O J B} {h o : List (Event O J B)} (hI : Inv s h) {j : J}
    (hs : s.finalize j = some (s', o)) : Inv s' (h ++ o) := by
  unfold State.finalize at hs
  split at hs
  next => cases hs
  next ob hj =>
    split_ifs at hs with halive
    obtain ⟨halive, -⟩ := halive
    obtain ⟨rfl, rfl⟩ := Prod.mk.inj (Option.some.inj hs)
    have hfresh : j ∉ (enqueued h).map Queued.object := by
      intro hmem
      obtain ⟨q, hq, rfl⟩ := List.mem_map.mp hmem
      obtain ⟨o', h1, h2⟩ := hI.logged q hq
      rw [hj] at h1
      exact h2 (by rw [← Option.some.inj h1, halive])
    have hobject : ∀ j' o', s.objects j' = some o' → o'.status ≠ .alive → j' ≠ j := by
      rintro j' o' hj' ho' rfl
      rw [hj] at hj'
      exact ho' (by rw [← Option.some.inj hj', halive])
    refine ⟨⟨?_, ?_, ?_⟩, ?_, ?_, hI.frames, ?_, ?_⟩
    · rw [enqueued_append, released_append, enqueued_enqueued, released_enqueued, List.append_nil]
      have hadd := hI.conserved.append_right [⟨j, ob.pointer⟩]
      refine hadd.trans ?_
      simp only [State.pending, List.append_assoc]
      apply List.Perm.append_left
      apply List.Perm.append_left
      exact List.perm_append_comm
    · rw [enqueued_append, enqueued_enqueued, List.map_append, List.nodup_append_comm]
      exact List.nodup_cons.mpr ⟨hfresh, hI.once⟩
    · intro q owner he
      rcases List.mem_append.mp he with he | he
      · exact hI.hit q owner he
      · simp at he
    · intro j' o' hj' ho'
      dsimp only at hj' ⊢
      by_cases hjj : j' = j
      · subst hjj
        rw [Function.update_self] at hj'
        obtain rfl := Option.some.inj hj'
        exact hI.twin j' ob hj (by rw [halive]; decide)
      · rw [Function.update_of_ne hjj] at hj'
        exact hI.twin j' o' hj' ho'
    · intro f hf
      obtain ⟨h1, h2⟩ := hI.frame f hf
      refine ⟨h1, ?_⟩
      dsimp only
      rw [Function.update_of_ne, h2]
      rintro rfl
      rw [hj] at h2
      cases h2
    · intro q hq
      simp only [State.pending, List.mem_append, List.mem_singleton] at hq
      dsimp only
      rcases hq with (hq | rfl) | hq
      · obtain ⟨o', h1, h2, h3⟩ := hI.pending q (List.mem_append_left _ hq)
        exact ⟨o', by rw [Function.update_of_ne (hobject _ _ h1 (by rw [h2]; decide)), h1], h2, h3⟩
      · exact ⟨_, Function.update_self .., rfl, rfl⟩
      · obtain ⟨o', h1, h2, h3⟩ := hI.pending q (List.mem_append_right _ hq)
        exact ⟨o', by rw [Function.update_of_ne (hobject _ _ h1 (by rw [h2]; decide)), h1], h2, h3⟩
    · intro q hq
      rw [enqueued_append, enqueued_enqueued, List.mem_append, List.mem_singleton] at hq
      dsimp only
      rcases hq with hq | rfl
      · obtain ⟨o', h1, h2⟩ := hI.logged q hq
        exact ⟨o', by rw [Function.update_of_ne (hobject _ _ h1 h2), h1], h2⟩
      · exact ⟨_, Function.update_self .., by simp⟩

omit [DecidableEq O] [DecidableEq B] in
/-- The stash entry of a pending pointer is the twin of the object that queued
    it; erasing it leaves the twins of all other objects. -/
theorem Inv.erase {s s' : State O J B} {h o : List (Event O J B)} (hI : Inv s h)
    (hs : s.erase = some (s', o)) : Inv s' (h ++ o) := by
  unfold State.erase at hs
  split at hs
  next => cases hs
  next batches hb =>
    obtain ⟨rfl, rfl⟩ := Prod.mk.inj (Option.some.inj hs)
    exact hI.congr rfl rfl rfl rfl (by simp [State.pending, hb]) rfl
  next q qs batches hb =>
    have hperm : s.pending.Perm (q :: (s.finalizationQueue ++ (qs ++ batches.flatten))) := by
      simp only [State.pending, hb, List.flatten_cons, List.cons_append]
      exact List.perm_middle
    have hmem : ∀ q', q' ∈ s.finalizationQueue ++ (qs ++ batches.flatten) → q' ∈ s.pending :=
      fun q' hq' => hperm.mem_iff.mpr (List.mem_cons_of_mem _ hq')
    obtain ⟨ob, hj, hstatus, hp⟩ := hI.pending q (hperm.mem_iff.mpr (List.mem_cons_self ..))
    obtain ⟨htwin, hstash⟩ := hI.twin _ ob hj (by rw [hstatus]; decide)
    rw [hp] at htwin hstash
    have hdistinct := (hperm.map Queued.object).nodup_iff.mp hI.pending_nodup
    rw [List.map_cons, List.nodup_cons] at hdistinct
    -- any other twin lives at another address
    have hother : ∀ p t, s.twins p = some t → t.owner ≠ q.object → p ≠ q.pointer := by
      rintro p t hpt ht rfl
      rw [htwin] at hpt
      exact ht (by rw [← Option.some.inj hpt])
    simp only [hstash, if_true, htwin, Option.map_some, State.stashErase, hj] at hs
    obtain ⟨rfl, rfl⟩ := Prod.mk.inj (Option.some.inj hs)
    refine ⟨⟨?_, ?_, ?_⟩, ?_, ?_, hI.frames, ?_, ?_⟩
    · rw [enqueued_append, released_append, enqueued_erased, released_erased, List.append_nil,
        List.append_assoc]
      exact hI.conserved.trans (hperm.append_left _)
    · rw [enqueued_append, enqueued_erased, List.append_nil]
      exact hI.once
    · intro q' owner he
      rcases List.mem_append.mp he with he | he
      · exact hI.hit q' owner he
      · simp only [List.mem_singleton, Event.erased.injEq] at he
        rw [he.2, he.1]
    · intro j o hj' ho
      dsimp only at hj' ⊢
      have hjq : j ≠ q.object := by
        rintro rfl
        rw [Function.update_self] at hj'
        exact ho (by rw [← Option.some.inj hj'])
      rw [Function.update_of_ne hjq] at hj'
      obtain ⟨h1, h2⟩ := hI.twin j o hj' ho
      have hne := hother _ _ h1 hjq
      rw [Function.update_of_ne hne, Function.update_of_ne hne]
      exact ⟨h1, h2⟩
    · intro f hf
      obtain ⟨h1, h2⟩ := hI.frame f hf
      have hfq : f.object ≠ q.object := by
        intro hfq
        rw [hfq, hj] at h2
        cases h2
      dsimp only
      rw [Function.update_of_ne (hother _ _ h1 hfq), Function.update_of_ne hfq]
      exact ⟨h1, h2⟩
    · intro q' hq'
      have hq'q : q'.object ≠ q.object := by
        intro heq
        exact hdistinct.1 (heq ▸ List.mem_map_of_mem hq')
      obtain ⟨o', h1, h2⟩ := hI.pending q' (hmem q' hq')
      refine ⟨o', ?_, h2⟩
      dsimp only
      rw [Function.update_of_ne hq'q, h1]
    · intro q' hq'
      rw [enqueued_append, enqueued_erased, List.append_nil] at hq'
      dsimp only
      by_cases hq'q : q'.object = q.object
      · rw [hq'q]
        exact ⟨_, Function.update_self .., by simp⟩
      · obtain ⟨o', h1, h2⟩ := hI.logged q' hq'
        exact ⟨o', by rw [Function.update_of_ne hq'q, h1], h2⟩

omit [DecidableEq O] [DecidableEq J] [DecidableEq B] in
theorem Inv.drain {s : State O J B} {h : List (Event O J B)} (hI : Inv s h) : Inv s.drain h := by
  unfold State.drain
  split_ifs
  · exact hI
  · rw [← List.append_nil h]
    exact hI.congr rfl rfl rfl rfl (by simp [State.pending]) rfl

omit [DecidableEq O] [DecidableEq J] [DecidableEq B] in
theorem pushTwin_plain {s : State O J B} {x : Handle J B} {j : J} {fresh : Val O}
    {o : List (Event O J B)} (hs : s.pushTwin x j fresh = some o) :
    o.all Event.isPlain = true := by
  unfold State.pushTwin at hs
  split at hs
  next => cases hs
  next =>
    split at hs
    · split at hs <;> obtain rfl := Option.some.inj hs <;> rfl
    · obtain rfl := Option.some.inj hs
      rfl

omit [DecidableEq O] [DecidableEq J] in
theorem Inv.passBack {s s' : State O J B} {h o : List (Event O J B)} (hI : Inv s h)
    {x : Handle J B} {fresh : Val O} (hs : s.passBack x fresh = some (s', o)) :
    Inv s' (h ++ o) := by
  unfold State.passBack at hs
  cases x with
  | other =>
    obtain ⟨rfl, rfl⟩ := Prod.mk.inj (Option.some.inj hs)
    exact hI.congr rfl rfl rfl rfl rfl rfl
  | javaScriptObject j =>
    dsimp only at hs
    split_ifs at hs
    obtain ⟨e, he, hs⟩ := Option.map_eq_some_iff.mp hs
    obtain ⟨rfl, rfl⟩ := Prod.mk.inj hs
    exact hI.congr rfl rfl rfl rfl rfl (pushTwin_plain he)
  | byteBuffer b =>
    dsimp only at hs
    split_ifs at hs
    split at hs
    · obtain ⟨e, he, hs⟩ := Option.map_eq_some_iff.mp hs
      obtain ⟨rfl, rfl⟩ := Prod.mk.inj hs
      exact hI.congr rfl rfl rfl rfl rfl (pushTwin_plain he)
    · obtain ⟨rfl, rfl⟩ := Prod.mk.inj (Option.some.inj hs)
      exact hI.congr rfl rfl rfl rfl rfl rfl

/-- **Every step keeps the invariant.** -/
theorem Inv.step {s s' : State O J B} {h o : List (Event O J B)} (hI : Inv s h)
    {a : Action O R J B} (hs : s.step a = some (s', o)) : Inv s' (h ++ o) := by
  cases a with
  | toObject rd n v j p => exact hI.toObject hs
  | finishToObject heap n byteBuffer => exact hI.finishToObject hs
  | finalize j => exact hI.finalize hs
  | drain =>
    obtain ⟨rfl, rfl⟩ := Prod.mk.inj (Option.some.inj hs)
    rw [List.append_nil]
    exact hI.drain
  | erase => exact hI.erase hs
  | passBack x fresh => exact hI.passBack hs
  | mutate b hash =>
    obtain ⟨rfl, rfl⟩ := Prod.mk.inj (Option.some.inj hs)
    exact hI.congr rfl rfl rfl rfl rfl rfl
  | collect b =>
    obtain ⟨rfl, rfl⟩ := Prod.mk.inj (Option.some.inj hs)
    exact hI.congr rfl rfl rfl rfl rfl rfl

theorem inv_run {buffers : WeakMap.Heap B} {as : List (Action O R J B)}
    {r : State O J B × List (Event O J B)}
    (hr : (machine R buffers).run (machine R buffers).init as = some r) : Inv r.1 r.2 :=
  (machine R buffers).run_history (P := fun _ _ => True) (I := Inv)
    (fun _ _ _ _ _ hI _ hs => hI.step hs) as _ [] r (inv_init buffers)
    (Machine.meets_true _ _ _) hr

/-! ## A drain goes through -/

omit [DecidableEq O] [DecidableEq J] [DecidableEq B] in
theorem stashErase_queue (s : State O J B) (p : ℕ) :
    (s.stashErase p).finalizationQueue = s.finalizationQueue := by
  unfold State.stashErase
  split_ifs <;> rfl

/-- The native loop over the innermost copy ends. -/
theorem exists_erase_batch (buffers : WeakMap.Heap B) (b : List (Queued J))
    (batches : List (List (Queued J))) :
    ∀ s : State O J B, s.batches = b :: batches →
      ∃ as r, (∀ a ∈ as, a = .erase) ∧ (machine R buffers).run s as = some r ∧
        r.1.batches = batches ∧ r.1.finalizationQueue = s.finalizationQueue := by
  induction b with
  | nil =>
    intro s hs
    refine ⟨[.erase], ({ s with batches := batches }, []), by simp, ?_, rfl, rfl⟩
    exact (machine R buffers).run_cons_eq_some.mpr
      ⟨_, [], (_, []), by simp [machine, State.step, State.erase, hs], rfl, rfl⟩
  | cons q qs ih =>
    intro s hs
    obtain ⟨s', o, hstep, hbatches, hqueue⟩ : ∃ s' o, s.erase = some (s', o) ∧
        s'.batches = qs :: batches ∧ s'.finalizationQueue = s.finalizationQueue := by
      unfold State.erase
      rw [hs]
      exact ⟨_, _, rfl, rfl, stashErase_queue s _⟩
    obtain ⟨as, r, has, hr, h1, h2⟩ := ih s' hbatches
    refine ⟨.erase :: as, (r.1, o ++ r.2), ?_, ?_, h1, by rw [h2, hqueue]⟩
    · intro a ha
      rcases List.mem_cons.mp ha with rfl | ha
      · rfl
      · exact has a ha
    · exact (machine R buffers).run_cons_eq_some.mpr ⟨s', o, r, hstep, hr, rfl⟩

theorem exists_erase_batches (buffers : WeakMap.Heap B) (batches : List (List (Queued J))) :
    ∀ s : State O J B, s.batches = batches →
      ∃ as r, (∀ a ∈ as, a = .erase) ∧ (machine R buffers).run s as = some r ∧
        r.1.batches = [] ∧ r.1.finalizationQueue = s.finalizationQueue := by
  induction batches with
  | nil =>
    intro s hs
    exact ⟨[], (s, []), by simp, rfl, hs, rfl⟩
  | cons b batches ih =>
    intro s hs
    obtain ⟨as, p, has, hp, h1, h2⟩ := exists_erase_batch (R := R) buffers b batches s hs
    obtain ⟨bs, q, hbs, hq, h3, h4⟩ := ih p.1 h1
    refine ⟨as ++ bs, (q.1, p.2 ++ q.2), ?_, ?_, h3, by rw [h4, h2]⟩
    · intro a ha
      rcases List.mem_append.mp ha with ha | ha
      · exact has a ha
      · exact hbs a ha
    · exact (machine R buffers).run_append.mpr ⟨p, q, hp, hq, rfl⟩

/-- From every state, one more drain can be carried to its end, after which
    nothing is pending. -/
theorem exists_drained (buffers : WeakMap.Heap B) (s : State O J B) :
    ∃ as r, (∀ a ∈ as, a = .drain ∨ a = .erase) ∧ (machine R buffers).run s as = some r ∧
      r.1.pending = [] := by
  have hqueue : s.drain.finalizationQueue = [] := by
    unfold State.drain
    split_ifs with h
    · exact h
    · rfl
  obtain ⟨as, r, has, hr, h1, h2⟩ := exists_erase_batches (R := R) buffers _ s.drain rfl
  refine ⟨.drain :: as, r, ?_, ?_, ?_⟩
  · intro a ha
    rcases List.mem_cons.mp ha with rfl | ha
    · exact Or.inl rfl
    · exact Or.inr (has a ha)
  · exact (machine R buffers).run_cons_eq_some.mpr ⟨s.drain, [], r, rfl, hr, by simp⟩
  · rw [State.pending, h1, h2, hqueue]
    rfl

/-- **Every undrained object is retained, every queued pointer is released at
    most once, and a further drain releases all that are pending.** -/
theorem retained_and_released_once {buffers : WeakMap.Heap B} {as : List (Action O R J B)}
    {r : State O J B × List (Event O J B)}
    (hr : (machine R buffers).run (machine R buffers).init as = some r) :
    Retained r.1 ∧ ReleasedOnce r.1 r.2 ∧
      ∃ bs q, (∀ a ∈ bs, a = .drain ∨ a = .erase) ∧ (machine R buffers).run r.1 bs = some q ∧
        (enqueued (r.2 ++ q.2)).Perm (released (r.2 ++ q.2)) := by
  have hI := inv_run hr
  refine ⟨hI.retained, hI.toReleasedOnce, ?_⟩
  obtain ⟨bs, q, hbs, hq, hdone⟩ := exists_drained (R := R) buffers r.1
  have hall : (machine R buffers).run (machine R buffers).init (as ++ bs) =
      some (q.1, r.2 ++ q.2) := (machine R buffers).run_append.mpr ⟨r, q, hr, hq, rfl⟩
  refine ⟨bs, q, hbs, hq, ?_⟩
  have hperm := (inv_run hall).conserved
  rwa [hdone, List.append_nil] at hperm

/-- Buffers that never change. -/
def quiet : WeakMap.Heap ℕ := ⟨fun _ => 0, fun _ => false⟩

/-- Two objects, the second made at the address that the drain of the first has
    freed, while the first value is still being read for a third. -/
def reused : List (Action ℕ ℕ ℕ ℕ) :=
  [.toObject (.of .plain) 4 (.object 5) 0 64, .finishToObject .plain 4 none, .finalize 0,
    .toObject (.of .plain) 4 (.object 5) 2 72, .drain, .erase, .erase,
    .toObject (.of .plain) 4 (.object 6) 1 64, .finishToObject .plain 4 none,
    .passBack (.javaScriptObject 1) .null]

theorem retained_and_released_once_reused :
    ∃ r : State ℕ ℕ ℕ × List (Event ℕ ℕ ℕ), Retained r.1 ∧
      r.2 = [.received (.object 5) (.javaScriptObject 0), .enqueued ⟨0, 64⟩,
        .erased ⟨0, 64⟩ (some 0), .received (.object 6) (.javaScriptObject 1),
        .passed (.javaScriptObject 1) (.object 6)] :=
  have hr := retained_and_released_once (r := (_, _))
    (show (machine ℕ quiet).run (machine ℕ quiet).init reused = some (_, _) from rfl)
  ⟨_, hr.1, rfl⟩

end JSEngine.QuickJS
