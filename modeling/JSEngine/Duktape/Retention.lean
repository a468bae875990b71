import JSEngine.Duktape.Stash

/-!
# Retention of Duktape objects

* `Careful`: the condition on a step. A new `JavaScriptObject` is made only where
  the hidden property that is visible was put there for the object itself and no
  other object uses its stash slot, and a pointer is drained only while no newer
  `JavaScriptObject` has the same.
* `Inv`: the stash entry and the hidden property of every undrained
  `JavaScriptObject` are its own.
* `retained_of_careful`: retention over every run of careful steps.
* `remarshalled_object_is_lost`: a drain that comes too late.
-/

namespace JSEngine.Duktape

open JSEngine.Common

variable {O R W J : Type*}

/-- The object for which a weak reference was made. -/
def State.standsFor (s : State O W J) (w : W) : Option O :=
  ((s.weakRefs w).bind s.javaObjects).map JavaScriptObject.createdFor

/-- A hidden property that was put there for another object than `o`. -/
def Foreign (s : State O W J) (o : O) : Option (Option W) → Prop
  | some (some w) => s.standsFor w ≠ some o
  | _ => False

instance [DecidableEq O] (s : State O W J) (o : O) (x : Option (Option W)) :
    Decidable (Foreign s o x) := by
  unfold Foreign
  split <;> infer_instance

/-- The hidden key leads to nothing, or to a weak reference that reads as null. -/
def Dead (isNull : Pointer R W → Bool) : Option (Option W) → Prop
  | some none => True
  | some (some w) => isNull (.weak w) = true
  | none => False

instance (isNull : Pointer R W → Bool) (x : Option (Option W)) : Decidable (Dead isNull x) := by
  unfold Dead
  split <;> infer_instance

/-- No Java object is recognised, so a new one is made: the hidden key is read and
    leads to no live one, or the key `__javascript_this` is visible without a
    pointer. -/
def Creates (rd : Reads O R) (hidden : O → Option W) (isNull : Pointer R W → Bool) (n : ℕ)
    (o : O) : Prop :=
  (rd.has.kind o).isBuffer = false ∧
    (Hop.EndsIn (hasHop rd.has) (· = some false) n o ∧
        Hop.EndsIn (hiddenHop rd.hidden hidden) (Dead isNull) n o ∨
      Hop.EndsIn (hasHop rd.has) (· = some true) n o ∧
        Hop.EndsIn (getHop rd.get) (fun x => isNoPointer x = true) n (o, false))

instance (rd : Reads O R) (hidden : O → Option W) (isNull : Pointer R W → Bool) (n : ℕ) (o : O) :
    Decidable (Creates rd hidden isNull n o) :=
  inferInstanceAs (Decidable (_ ∧ (_ ∧ _ ∨ _ ∧ _)))

/-- Every undrained `JavaScriptObject` at another address uses another slot. -/
def SlotFree (s : State O W J) (p : HeapPtr) : Prop :=
  ∀ j ∈ s.made, ∀ r ∈ s.javaObjects j, r.status ≠ .drained →
    heapIndex r.pointer = heapIndex p → r.pointer = p

/-- Every undrained `JavaScriptObject` but `j` has another pointer. -/
def Newest (s : State O W J) (j : J) (p : HeapPtr) : Prop :=
  ∀ j' ∈ s.made, ∀ r ∈ s.javaObjects j', r.status ≠ .drained → r.pointer = p → j' = j

instance (s : State O W J) (p : HeapPtr) : Decidable (SlotFree s p) :=
  inferInstanceAs (Decidable (∀ j ∈ s.made, ∀ r ∈ s.javaObjects j, _ → _ → _))

instance [DecidableEq J] (s : State O W J) (j : J) (p : HeapPtr) : Decidable (Newest s j p) :=
  inferInstanceAs (Decidable (∀ j' ∈ s.made, ∀ r ∈ s.javaObjects j', _ → _ → _))

/-- The condition on `popObject` of `o` at `p`: the script offers no pointer, and
    where a new `JavaScriptObject` is made, a dead one that the hidden key leads to
    was made for `o`, so was the hidden property that is replaced, and the slot of
    `p` is used by no other object. -/
structure PopCareful (s : State O W J) (rd : Reads O R) (n : ℕ) (jni : Pointer R W → Bool) (o : O)
    (p : HeapPtr) : Prop where
  raw : (rd.has.kind o).isBuffer = false → Hop.EndsIn (hasHop rd.has) (· = some true) n o →
    ¬Hop.EndsIn (getHop rd.get) (fun x => isRaw x = true) n (o, false)
  visible : Creates rd s.hidden (s.isNull jni) n o →
    Hop.EndsIn (hasHop rd.has) (· = some false) n o →
    ¬Hop.EndsIn (hiddenHop rd.hidden s.hidden) (Foreign s o) n o
  own : Creates rd s.hidden (s.isNull jni) n o →
    ∀ w ∈ s.hidden (rd.hidden.home o), s.standsFor w = some o
  slot : Creates rd s.hidden (s.isNull jni) n o → SlotFree s p

instance [DecidableEq O] (s : State O W J) (rd : Reads O R) (n : ℕ) (jni : Pointer R W → Bool)
    (o : O) (p : HeapPtr) : Decidable (PopCareful s rd n jni o p) :=
  decidable_of_iff
    (((rd.has.kind o).isBuffer = false → Hop.EndsIn (hasHop rd.has) (· = some true) n o →
        ¬Hop.EndsIn (getHop rd.get) (fun x => isRaw x = true) n (o, false)) ∧
      (Creates rd s.hidden (s.isNull jni) n o →
        (Hop.EndsIn (hasHop rd.has) (· = some false) n o →
          ¬Hop.EndsIn (hiddenHop rd.hidden s.hidden) (Foreign s o) n o) ∧
        (∀ w ∈ s.hidden (rd.hidden.home o), s.standsFor w = some o) ∧ SlotFree s p))
    ⟨fun h => ⟨h.1, fun hu => (h.2 hu).1, fun hu => (h.2 hu).2.1, fun hu => (h.2 hu).2.2⟩,
    fun h => ⟨h.raw, fun hu => ⟨h.visible hu, h.own hu, h.slot hu⟩⟩⟩

/-- The condition on a step. -/
def Careful (s : State O W J) : Action O R W J → Prop
  | .pop rd n jni p _ _ => ∀ o ∈ s.objects p, PopCareful s rd n jni o p
  | .erase _ _ => ∀ js ∈ s.batches.head?, ∀ j ∈ js.head?, ∀ r ∈ s.javaObjects j,
    Newest s j r.pointer
  | .collect script n p => ∀ o ∈ s.objects p,
    Hop.EndsIn (hiddenHop script s.finalizer) (· = some (some true)) n o →
      ¬Hop.EndsIn (hiddenHop script s.hidden) (Foreign s o) n o
  | _ => True

instance [DecidableEq O] [DecidableEq J] (s : State O W J) (a : Action O R W J) :
    Decidable (Careful s a) := by
  unfold Careful
  split <;> infer_instance

/-! ## The invariant -/

/-- An undrained `JavaScriptObject` and the hidden property that leads to it. -/
structure Linked (home : O → O) (s : State O W J) (j : J) (r : JavaScriptObject O) (w : W) :
    Prop where
  object : s.javaObjects j = some r
  undrained : r.status ≠ .drained
  hidden : s.hidden (home r.createdFor) = some w
  weak : s.weakRefs w = some j

theorem Linked.eq_of_weak {home : O → O} {s : State O W J} {j j' : J} {r r' : JavaScriptObject O}
    {w : W} (h : Linked home s j r w) (h' : Linked home s j' r' w) : j = j' :=
  Option.some.inj (h.weak.symm.trans h'.weak)

theorem Linked.eq_of_home {home : O → O} {s : State O W J} {j j' : J} {r r' : JavaScriptObject O}
    {w w' : W} (h : Linked home s j r w) (h' : Linked home s j' r' w')
    (heq : home r.createdFor = home r'.createdFor) : j = j' := by
  have hw := h.hidden
  rw [heq, h'.hidden] at hw
  obtain rfl := Option.some.inj hw
  exact h.eq_of_weak h'

/-- A link that a step does not touch. -/
theorem Linked.keep {home : O → O} {s s' : State O W J} {j : J} {r : JavaScriptObject O} {w : W}
    (h : Linked home s j r w) (hj : s'.javaObjects j = s.javaObjects j)
    (hhidden : s'.hidden (home r.createdFor) = s.hidden (home r.createdFor))
    (hweak : s'.weakRefs w = s.weakRefs w) : Linked home s' j r w :=
  ⟨hj.trans h.object, h.undrained, hhidden.trans h.hidden, hweak.trans h.weak⟩

/-- Undrained `JavaScriptObject`s have their stash entries, and every stash entry
    and hidden property belongs to one. -/
structure Inv (home : O → O) (s : State O W J) (h : List (Event O J)) : Prop where
  held : ∀ j r, s.javaObjects j = some r → r.status ≠ .drained →
    s.objects r.pointer = some r.createdFor ∧
      ∃ e, s.stash (heapIndex r.pointer) = some e ∧ e.pointer = r.pointer
  entry : ∀ i e, s.stash i = some e →
    ∃ r w, Linked home s e.owner r w ∧ r.pointer = e.pointer ∧ heapIndex r.pointer = i
  hidden : ∀ x w, s.hidden x = some w → ∃ j r, Linked home s j r w ∧ home r.createdFor = x
  injective : ∀ p q o, s.objects p = some o → s.objects q = some o → p = q
  born : ∀ p o, s.objects p = some o → s.born o = true
  made : ∀ j r, s.javaObjects j = some r → j ∈ s.made
  pending : ∀ j ∈ s.pending, ∃ r, s.javaObjects j = some r ∧ r.status = .enqueued
  nodup : s.pending.Nodup
  undisturbed : ∀ e ∈ h, e.Undisturbed

theorem Inv.retained {home : O → O} {s : State O W J} {h : List (Event O J)}
    (hI : Inv home s h) : Retained s := by
  intro j r hj hr
  refine hI.held j r hj ?_
  rcases hr with hr | hr <;> rw [hr] <;> decide

/-- A visible hidden property that belongs to `o` was put there for an undrained
    `JavaScriptObject` of `o`, and is stored at the home of `o`. -/
theorem Inv.of_visible {home : O → O} {s : State O W J} {h : List (Event O J)}
    (hI : Inv home s h) {x o : O} {w : W} (hx : s.hidden x = some w)
    (ho : s.standsFor w = some o) :
    x = home o ∧ ∃ j r, Linked home s j r w ∧ r.createdFor = o := by
  obtain ⟨j, r, hlink, hhome⟩ := hI.hidden x w hx
  have hro : r.createdFor = o := by simpa [State.standsFor, hlink.weak, hlink.object] using ho
  exact ⟨by rw [← hhome, hro], j, r, hlink, hro⟩

theorem inv_init (home : O → O) : Inv home ({} : State O W J) [] := by
  constructor <;> simp [State.pending]

/-- A step that emits no event on the stash and changes neither the heap nor the
    Java objects. -/
theorem Inv.congr {home : O → O} {s s' : State O W J} {h o : List (Event O J)}
    (hI : Inv home s h) (hobjects : s'.objects = s.objects) (hborn : s'.born = s.born)
    (hhidden : s'.hidden = s.hidden) (hstash : s'.stash = s.stash)
    (hweak : s'.weakRefs = s.weakRefs) (hjava : s'.javaObjects = s.javaObjects)
    (hmade : s'.made = s.made) (hpending : s'.pending = s.pending)
    (ho : ∀ e ∈ o, e.Undisturbed) : Inv home s' (h ++ o) where
  held := by
    rw [hjava, hobjects, hstash]
    exact hI.held
  entry i e he := by
    rw [hstash] at he
    obtain ⟨r, w, hlink, h1⟩ := hI.entry i e he
    exact ⟨r, w, hlink.keep (by rw [hjava]) (by rw [hhidden]) (by rw [hweak]), h1⟩
  hidden x w hx := by
    rw [hhidden] at hx
    obtain ⟨j, r, hlink, h1⟩ := hI.hidden x w hx
    exact ⟨j, r, hlink.keep (by rw [hjava]) (by rw [hhidden]) (by rw [hweak]), h1⟩
  injective := by
    rw [hobjects]
    exact hI.injective
  born := by
    rw [hobjects, hborn]
    exact hI.born
  made := by
    rw [hjava, hmade]
    exact hI.made
  pending := by
    rw [hpending, hjava]
    exact hI.pending
  nodup := by
    rw [hpending]
    exact hI.nodup
  undisturbed e he := by
    rcases List.mem_append.mp he with he | he
    · exact hI.undisturbed e he
    · exact ho e he

/-! ## The operations -/

variable [DecidableEq O] [DecidableEq W] [DecidableEq J]

omit [DecidableEq W] [DecidableEq J] in
theorem Inv.alloc {home : O → O} {s : State O W J} {h : List (Event O J)} (hI : Inv home s h)
    {p : HeapPtr} {o : O} (hp : s.objects p = none) (ho : s.born o = false) :
    Inv home { s with
      objects := Function.update s.objects p (some o),
      born := Function.update s.born o true } h := by
  have hne : ∀ q x, s.objects q = some x → q ≠ p ∧ x ≠ o := by
    intro q x hq
    constructor
    · rintro rfl
      rw [hp] at hq
      cases hq
    · rintro rfl
      rw [hI.born q x hq] at ho
      cases ho
  refine ⟨?_, ?_, ?_, ?_, ?_, hI.made, hI.pending, hI.nodup, hI.undisturbed⟩
  · intro j r hj hr
    obtain ⟨h1, h2⟩ := hI.held j r hj hr
    refine ⟨?_, h2⟩
    dsimp only
    rw [Function.update_of_ne (hne _ _ h1).1, h1]
  · intro i e he
    obtain ⟨r, w, hlink, h1⟩ := hI.entry i e he
    exact ⟨r, w, hlink.keep rfl rfl rfl, h1⟩
  · intro x w hx
    obtain ⟨j, r, hlink, hhome⟩ := hI.hidden x w hx
    exact ⟨j, r, hlink.keep rfl rfl rfl, hhome⟩
  · intro q q' x hq hq'
    dsimp only at hq hq'
    by_cases hqp : q = p <;> by_cases hqp' : q' = p
    · rw [hqp, hqp']
    · rw [hqp, Function.update_self] at hq
      rw [Function.update_of_ne hqp'] at hq'
      exact absurd (Option.some.inj hq).symm (hne _ _ hq').2
    · rw [hqp', Function.update_self] at hq'
      rw [Function.update_of_ne hqp] at hq
      exact absurd (Option.some.inj hq').symm (hne _ _ hq).2
    · rw [Function.update_of_ne hqp] at hq
      rw [Function.update_of_ne hqp'] at hq'
      exact hI.injective _ _ _ hq hq'
  · intro q x hq
    dsimp only at hq ⊢
    by_cases hx : x = o
    · rw [hx, Function.update_self]
    · rw [Function.update_of_ne hx]
      by_cases hqp : q = p
      · rw [hqp, Function.update_self] at hq
        exact absurd (Option.some.inj hq).symm hx
      · rw [Function.update_of_ne hqp] at hq
        exact hI.born q x hq

/-- A new `JavaScriptObject` for `o`, at a slot that no other object uses and a
    home where no property of another object is lost. `weakRefs` are those left
    after a dead reference of `o` was deleted. -/
theorem Inv.newObject {home : O → O} {s : State O W J} {h : List (Event O J)}
    (hI : Inv home s h) {o : O} {p : HeapPtr} {j : J} {w : W} {weakRefs : W → Option J}
    {finalizer : O → Option Bool} (hp : s.objects p = some o) (hj : s.javaObjects j = none)
    (hw : weakRefs w = none)
    (hweak : ∀ x w', x ≠ home o → s.hidden x = some w' → weakRefs w' = s.weakRefs w')
    (hown : ∀ w', s.hidden (home o) = some w' → s.standsFor w' = some o)
    (hslot : SlotFree s p) :
    Inv home { s with
      stash := Function.update s.stash (heapIndex p) (some ⟨p, j⟩),
      javaObjects := Function.update s.javaObjects j (some ⟨p, o, .alive⟩),
      made := j :: s.made,
      weakRefs := Function.update weakRefs w (some j),
      finalizer := finalizer,
      hidden := Function.update s.hidden (home o) (some w) }
      (h ++ [.stored p ((s.stash (heapIndex p)).map Entry.pointer),
        .received o (.javaScriptObject j)]) := by
  -- the object is new, so the others stay as they are
  have hold : ∀ j' r, s.javaObjects j' = some r → j' ≠ j := by
    rintro j' r hj' rfl
    rw [hj] at hj'
    cases hj'
  have hslot' : ∀ j' r, s.javaObjects j' = some r → r.status ≠ .drained →
      heapIndex r.pointer = heapIndex p → r.pointer = p :=
    fun j' r hj' => hslot j' (hI.made j' r hj') r hj'
  -- a weak reference that a hidden property elsewhere holds is kept
  have hkeep : ∀ x w', x ≠ home o → s.hidden x = some w' →
      Function.update weakRefs w (some j) w' = s.weakRefs w' := by
    intro x w' hx hxw
    have hne : w' ≠ w := by
      rintro rfl
      obtain ⟨j', r, hlink, -⟩ := hI.hidden x w' hxw
      have hsome := hlink.weak
      rw [← hweak x w' hx hxw, hw] at hsome
      cases hsome
    rw [Function.update_of_ne hne, hweak x w' hx hxw]
  refine ⟨?_, ?_, ?_, hI.injective, hI.born, ?_, ?_, hI.nodup, ?_⟩
  · intro j' r hj' hr
    dsimp only at hj' ⊢
    by_cases hjj : j' = j
    · rw [hjj, Function.update_self] at hj'
      obtain rfl := Option.some.inj hj'
      exact ⟨hp, ⟨p, j⟩, Function.update_self .., rfl⟩
    · rw [Function.update_of_ne hjj] at hj'
      obtain ⟨h1, e, h2, h3⟩ := hI.held j' r hj' hr
      refine ⟨h1, ?_⟩
      by_cases hidx : heapIndex r.pointer = heapIndex p
      · rw [hidx, Function.update_self]
        exact ⟨_, rfl, (hslot' j' r hj' hr hidx).symm⟩
      · rw [Function.update_of_ne hidx]
        exact ⟨e, h2, h3⟩
  · intro i e he
    dsimp only at he
    by_cases hi : i = heapIndex p
    · rw [hi, Function.update_self] at he
      obtain rfl := Option.some.inj he
      exact ⟨⟨p, o, .alive⟩, w, ⟨Function.update_self .., by simp, Function.update_self ..,
        Function.update_self ..⟩, rfl, hi.symm⟩
    · rw [Function.update_of_ne hi] at he
      obtain ⟨r, w', hlink, h1, h2⟩ := hI.entry i e he
      -- a hidden property at the home of `o` would be that of `o`, at another slot
      have hhome : home r.createdFor ≠ home o := by
        intro heq
        have hx := hlink.hidden
        rw [heq] at hx
        have hro : r.createdFor = o := by
          simpa [State.standsFor, hlink.weak, hlink.object] using hown w' hx
        have hr := (hI.held _ r hlink.object hlink.undrained).1
        rw [hro] at hr
        exact hi (by rw [← h2, hI.injective _ _ _ hr hp])
      exact ⟨r, w', hlink.keep (Function.update_of_ne (hold _ r hlink.object) ..)
        (Function.update_of_ne hhome ..) (hkeep _ w' hhome hlink.hidden), h1, h2⟩
  · intro x w' hx
    dsimp only at hx
    by_cases hxo : x = home o
    · rw [hxo, Function.update_self] at hx
      obtain rfl := Option.some.inj hx
      exact ⟨j, ⟨p, o, .alive⟩, ⟨Function.update_self .., by simp, Function.update_self ..,
        Function.update_self ..⟩, hxo.symm⟩
    · rw [Function.update_of_ne hxo] at hx
      obtain ⟨j', r, hlink, rfl⟩ := hI.hidden x w' hx
      exact ⟨j', r, hlink.keep (Function.update_of_ne (hold j' r hlink.object) ..)
        (Function.update_of_ne hxo ..) (hkeep _ w' hxo hx), rfl⟩
  · intro j' r hj'
    dsimp only at hj' ⊢
    by_cases hjj : j' = j
    · rw [hjj]
      exact List.mem_cons_self ..
    · rw [Function.update_of_ne hjj] at hj'
      exact List.mem_cons_of_mem _ (hI.made j' r hj')
  · intro j' hj'
    obtain ⟨r, h1, h2⟩ := hI.pending j' hj'
    exact ⟨r, by dsimp only; rw [Function.update_of_ne (hold _ r h1), h1], h2⟩
  · intro e he
    rcases List.mem_append.mp he with he | he
    · exact hI.undisturbed e he
    · simp only [List.mem_cons, List.not_mem_nil, or_false] at he
      rcases he with rfl | rfl
      · intro q hq
        obtain ⟨e, he, rfl⟩ := Option.map_eq_some_iff.mp hq
        obtain ⟨r, w', hlink, h1, h2⟩ := hI.entry _ e he
        rw [← h1]
        exact hslot' _ r hlink.object hlink.undrained h2
      · trivial

omit [DecidableEq W] [DecidableEq J] in
/-- A careful `popObject` that makes a new `JavaScriptObject` deletes no reference,
    or the dead one that is stored at the home of `o`. -/
theorem PopCareful.dead {home : O → O} {s : State O W J} {h : List (Event O J)}
    (hI : Inv home s h) {rd : Reads O R} {n : ℕ} {jni : Pointer R W → Bool} {o : O} {p : HeapPtr}
    {dead : Option (Pointer R W)} (hc : PopCareful s rd n jni o p)
    (hrec : (recognise rd s.hidden (s.isNull jni) n o).1 = .create dead) :
    Creates rd s.hidden (s.isNull jni) n o ∧
      (dead = none ∨ ∃ w, dead = some (.weak w) ∧ s.hidden (home o) = some w) := by
  obtain ⟨hb, hcreate⟩ := recognise_create hrec (fun _ => rfl) (fun hb htrue => by
    have hraw := hc.raw hb (endsIn_has_iff.mpr htrue)
    rw [endsIn_get_iff (P := fun x => isRaw x = true) (by simp [isRaw])] at hraw
    simpa using hraw)
  have hu : Creates rd s.hidden (s.isNull jni) n o := by
    refine ⟨hb, ?_⟩
    rw [endsIn_has_iff, endsIn_has_iff,
      endsIn_hidden_iff (P := Dead (s.isNull jni)) (by simp [Dead]),
      endsIn_get_iff (P := fun x => isNoPointer x = true) (by simp [isNoPointer])]
    rcases hcreate with ⟨htrue, -, hno⟩ | ⟨hfalse, ⟨-, hx⟩ | ⟨w, -, hnull, hx⟩⟩
    · exact .inr ⟨htrue, hno⟩
    · exact .inl ⟨hfalse, by rw [hx]; trivial⟩
    · exact .inl ⟨hfalse, by rw [hx]; exact hnull⟩
  refine ⟨hu, ?_⟩
  rcases hcreate with ⟨-, hdead, -⟩ | ⟨hfalse, ⟨hdead, -⟩ | ⟨w, hdead, -, hfound⟩⟩
  · exact .inl hdead
  · exact .inl hdead
  · -- what is visible was made for `o`, so it is stored at the home of `o`
    have hforeign := hc.visible hu (endsIn_has_iff.mpr hfalse)
    rw [endsIn_hidden_iff (P := Foreign s o) (by simp [Foreign]), hfound] at hforeign
    obtain ⟨x, hx⟩ := hidden_of_follow hfound
    obtain ⟨rfl, -⟩ := hI.of_visible hx (by simpa [Foreign] using hforeign)
    exact .inr ⟨w, hdead, hx⟩

/-- The new `JavaScriptObject` of a careful `popObject`. -/
theorem Inv.create {home : O → O} {s s' : State O W J} {h o' : List (Event O J)}
    (hI : Inv home s h) {o : O} {p : HeapPtr} {j : J} {w : W} {dead : Option (Pointer R W)}
    (hp : s.objects p = some o)
    (hdead : dead = none ∨ ∃ w, dead = some (.weak w) ∧ s.hidden (home o) = some w)
    (hown : ∀ w, s.hidden (home o) = some w → s.standsFor w = some o) (hslot : SlotFree s p)
    (hs : (s.deleteDead (home o) dead).newObject o (home o) p j w = some (s', o')) :
    Inv home s' (h ++ o') ∧ o' = [.stored p ((s.stash (heapIndex p)).map Entry.pointer),
        .received o (.javaScriptObject j)] ∧ s.javaObjects j = none ∧
      s'.javaObjects = Function.update s.javaObjects j (some ⟨p, o, .alive⟩) := by
  unfold State.deleteDead State.newObject at hs
  rcases hdead with rfl | ⟨w', rfl, hw'⟩
  · split_ifs at hs with hfree
    rw [Option.isNone_iff_eq_none, Option.isNone_iff_eq_none] at hfree
    obtain ⟨rfl, rfl⟩ := Prod.mk.inj (Option.some.inj hs)
    exact ⟨hI.newObject hp hfree.1 hfree.2 (fun _ _ _ _ => rfl) hown hslot, rfl, hfree.1, rfl⟩
  · dsimp only at hs
    split_ifs at hs with hfree
    rw [Option.isNone_iff_eq_none, Option.isNone_iff_eq_none] at hfree
    obtain ⟨rfl, rfl⟩ := Prod.mk.inj (Option.some.inj hs)
    -- the reference deleted is that of the home of `o`, and of no other object
    have hkeep : ∀ x w'', x ≠ home o → s.hidden x = some w'' →
        Function.update s.weakRefs w' none w'' = s.weakRefs w'' := by
      intro x w'' hx hxw
      rw [Function.update_of_ne]
      rintro rfl
      obtain ⟨hxo, -⟩ := hI.of_visible hxw (hown _ hw')
      exact hx hxo
    rw [Function.update_idem]
    exact ⟨hI.newObject hp hfree.1 hfree.2 hkeep hown hslot, rfl, hfree.1, rfl⟩

/-- What a careful `popObject` of `o` does: nothing is recorded, or `o` arrives as
    what a pointer under `__javascript_this` names, or as the `JavaScriptObject`
    that the hidden key leads to, or as a new one. -/
theorem popObject_cases {home : O → O} {s s' : State O W J} {h o' : List (Event O J)}
    (hI : Inv home s h) {rd : Reads O R} {n : ℕ} {jni : Pointer R W → Bool} {o : O} {p : HeapPtr}
    {j : J} {w : W} (hp : s.objects p = some o) (hhome : rd.hidden.home o = home o)
    (hc : PopCareful s rd n jni o p) (hs : s.popObject rd n jni o p j w = some (s', o')) :
    (s' = s ∧ o' = []) ∨
    (s' = s ∧ o' = [.received o .other] ∧ State.isJavaProxy rd.has o = false ∧
      (rd.has.kind o).isBuffer = false ∧ Hop.EndsIn (hasHop rd.has) (· = some true) n o ∧
      Hop.EndsIn (getHop rd.get) (fun x => isPointer x = true) n (o, false)) ∨
    (∃ x w', s' = s ∧ s.hidden x = some w' ∧
      o' = [.received o (((s.weakRefs w').map .javaScriptObject).getD .other)] ∧
      (rd.has.kind o).isBuffer = false ∧ Hop.EndsIn (hasHop rd.has) (· = some false) n o ∧
      Hop.EndsIn (hiddenHop rd.hidden s.hidden) (· = some (some w')) n o) ∨
    (Inv home s' (h ++ o') ∧ o' = [.stored p ((s.stash (heapIndex p)).map Entry.pointer),
        .received o (.javaScriptObject j)] ∧ s.javaObjects j = none ∧
      s'.javaObjects = Function.update s.javaObjects j (some ⟨p, o, .alive⟩)) := by
  unfold State.popObject at hs
  split at hs
  next =>
    obtain ⟨rfl, rfl⟩ := Prod.mk.inj (Option.some.inj hs)
    exact .inl ⟨rfl, rfl⟩
  next =>
    obtain ⟨rfl, rfl⟩ := Prod.mk.inj (Option.some.inj hs)
    exact .inl ⟨rfl, rfl⟩
  next w' hrec =>
    right
    right
    left
    obtain ⟨hb, ⟨-, hptr⟩ | ⟨hfalse, w'', hww, hfound⟩⟩ := recognise_existing hrec
    · -- a property `__javascript_this` holds no weak reference
      exact absurd hptr (Slot.bind_pointer_ne_weak _ w')
    · obtain rfl := Pointer.weak.inj hww
      obtain ⟨x, hx⟩ := hidden_of_follow hfound
      have hends : Hop.EndsIn (hiddenHop rd.hidden s.hidden) (· = some (some w')) n o :=
        (endsIn_hidden_iff (by simp)).mpr hfound
      have hhas := endsIn_has_iff.mpr hfalse
      cases hw' : s.weakRefs w' with
      | none =>
        rw [hw'] at hs
        obtain ⟨rfl, rfl⟩ := Prod.mk.inj (Option.some.inj hs)
        exact ⟨x, w', rfl, hx, by rw [hw']; rfl, hb, hhas, hends⟩
      | some j' =>
        rw [hw'] at hs
        obtain ⟨rfl, rfl⟩ := Prod.mk.inj (Option.some.inj hs)
        exact ⟨x, w', rfl, hx, by rw [hw']; rfl, hb, hhas, hends⟩
  next ptr hnotweak hrec =>
    obtain ⟨rfl, rfl⟩ := Prod.mk.inj (Option.some.inj hs)
    by_cases hproxy : State.isJavaProxy rd.has o = true
    · exact .inl ⟨rfl, if_pos hproxy⟩
    · right
      left
      obtain ⟨hb, ⟨htrue, hptr⟩ | ⟨-, w'', hww, -⟩⟩ := recognise_existing hrec
      · refine ⟨rfl, if_neg hproxy, by simpa using hproxy, hb, endsIn_has_iff.mpr htrue, ?_⟩
        rw [endsIn_get_iff (P := fun x => isPointer x = true) (by simp [isPointer, isRaw])]
        exact isPointer_of_pointer hptr
      · exact absurd hww (hnotweak w'')
  next dead hrec =>
    right
    right
    right
    obtain ⟨hu, hdead⟩ := hc.dead hI hrec
    have hown := hc.own hu
    rw [hhome] at hs hown
    exact hI.create hp hdead hown (hc.slot hu) hs

omit [DecidableEq O] [DecidableEq W] in
/-- A change of status that is not the drain. -/
theorem Inv.setStatus {home : O → O} {s : State O W J} {h : List (Event O J)}
    (hI : Inv home s h) {j : J} {r : JavaScriptObject O} {status : Status} {queue : List J}
    (hj : s.javaObjects j = some r) (hr : r.status ≠ .drained) (hstatus : status ≠ .drained)
    (hpending : ∀ j' ∈ queue ++ s.batches.flatten, j' ∈ s.pending ∧ j' ≠ j ∨
      j' = j ∧ status = .enqueued)
    (hnodup : (queue ++ s.batches.flatten).Nodup) :
    Inv home { s.setStatus j r status with finalizationQueue := queue } h := by
  have hlater : ∀ j' r' w, Linked home s j' r' w →
      ∃ r'', Linked home { s.setStatus j r status with finalizationQueue := queue } j' r'' w ∧
        r''.pointer = r'.pointer ∧ r''.createdFor = r'.createdFor := by
    intro j' r' w hlink
    by_cases hjj : j' = j
    · subst hjj
      obtain rfl := Option.some.inj (hj.symm.trans hlink.object)
      exact ⟨{ r with status := status }, ⟨Function.update_self .., hstatus, hlink.hidden,
        hlink.weak⟩, rfl, rfl⟩
    · exact ⟨r', hlink.keep (Function.update_of_ne hjj ..) rfl rfl, rfl, rfl⟩
  refine ⟨?_, ?_, ?_, hI.injective, hI.born, ?_, ?_, hnodup, hI.undisturbed⟩
  · intro j' r' hj' hr'
    unfold State.setStatus at hj'
    dsimp only at hj'
    by_cases hjj : j' = j
    · rw [hjj, Function.update_self] at hj'
      obtain rfl := Option.some.inj hj'
      exact hI.held j r hj hr
    · rw [Function.update_of_ne hjj] at hj'
      exact hI.held j' r' hj' hr'
  · intro i e he
    obtain ⟨r', w, hlink, h1, h2⟩ := hI.entry i e he
    obtain ⟨r'', hlink', hp, -⟩ := hlater _ r' w hlink
    exact ⟨r'', w, hlink', hp.trans h1, by rw [hp, h2]⟩
  · intro x w hx
    obtain ⟨j', r', hlink, hhome⟩ := hI.hidden x w hx
    obtain ⟨r'', hlink', -, hfor⟩ := hlater _ r' w hlink
    exact ⟨j', r'', hlink', by rw [hfor, hhome]⟩
  · intro j' r' hj'
    unfold State.setStatus at hj'
    dsimp only at hj'
    by_cases hjj : j' = j
    · rw [hjj]
      exact hI.made j r hj
    · rw [Function.update_of_ne hjj] at hj'
      exact hI.made j' r' hj'
  · intro j' hj'
    unfold State.setStatus
    dsimp only
    rcases hpending j' hj' with ⟨hmem, hne⟩ | ⟨rfl, rfl⟩
    · obtain ⟨r', h1, h2⟩ := hI.pending j' hmem
      exact ⟨r', by rw [Function.update_of_ne hne, h1], h2⟩
    · exact ⟨_, Function.update_self .., rfl⟩

omit [DecidableEq O] [DecidableEq W] [DecidableEq J] in
/-- The newest `JavaScriptObject` with its pointer owns the stash entry and the
    hidden property. -/
theorem Inv.owner {home : O → O} {s : State O W J} {h : List (Event O J)} (hI : Inv home s h)
    {j : J} {r : JavaScriptObject O} (hj : s.javaObjects j = some r) (hr : r.status ≠ .drained)
    (hnew : Newest s j r.pointer) :
    s.stash (heapIndex r.pointer) = some ⟨r.pointer, j⟩ ∧ ∃ w, Linked home s j r w := by
  obtain ⟨-, e, he, hp⟩ := hI.held j r hj hr
  obtain ⟨r', w, hlink, hpointer, -⟩ := hI.entry _ e he
  have howner : e.owner = j := hnew e.owner (hI.made _ r' hlink.object) r' hlink.object
    hlink.undrained (hpointer.trans hp)
  rw [howner] at hlink
  obtain rfl : r = r' := Option.some.inj (hj.symm.trans hlink.object)
  refine ⟨?_, w, hlink⟩
  rw [he, ← hp, ← howner]

/-- The state after the pointer of `j` was drained: `w` is the weak reference to `j`,
    `js` and `batches` are what remains to be drained. -/
def State.afterDrain (s : State O W J) (home : O → O) (j : J) (r : JavaScriptObject O) (w : W)
    (js : List J) (batches : List (List J)) : State O W J :=
  { s with
    finalizer := Function.update s.finalizer (home r.createdFor) (some false),
    hidden := Function.update s.hidden (home r.createdFor) none,
    weakRefs := Function.update s.weakRefs w none,
    stash := Function.update s.stash (heapIndex r.pointer) none,
    javaObjects := Function.update s.javaObjects j (some { r with status := .drained }),
    batches := js :: batches }

/-- The drain of a linked `JavaScriptObject` with its own stash entry: the hidden key
    leads to its own property, unless the prototype chain is too long. -/
theorem Linked.drainObject {home : O → O} {s : State O W J} {script : Script O R} {n : ℕ} {j : J}
    {js : List J} {batches : List (List J)} {r : JavaScriptObject O} {w : W}
    (hlink : Linked home s j r w) (hstash : s.stash (heapIndex r.pointer) = some ⟨r.pointer, j⟩)
    (hhome : script.home r.createdFor = home r.createdFor)
    {x : State O W J × List (Event O J)}
    (hs : ({ s with batches := js :: batches } : State O W J).drainObject script n j r
      r.createdFor = some x) :
    x = (s.afterDrain home j r w js batches, [.released j (some j), .erased j (some j)]) := by
  have hvisible : s.hidden (script.home r.createdFor) = some w := by rw [hhome, hlink.hidden]
  unfold State.drainObject State.releaseHidden at hs
  rcases follow_hiddenHop_of_home hvisible n with hfollow | hfollow
  · rw [hfollow] at hs
    cases hs
  · rw [hfollow] at hs
    dsimp only at hs
    rw [hlink.weak, hstash, hhome] at hs
    exact (Option.some.inj hs).symm

/-- The drain of the newest `JavaScriptObject` of an object keeps the others. -/
theorem Inv.afterDrain {home : O → O} {s : State O W J} {h : List (Event O J)}
    (hI : Inv home s h) {j : J} {js : List J} {batches : List (List J)} {r : JavaScriptObject O}
    {w : W} (hb : s.batches = (j :: js) :: batches) (hlink : Linked home s j r w)
    (hstash : s.stash (heapIndex r.pointer) = some ⟨r.pointer, j⟩) (hnew : Newest s j r.pointer) :
    Inv home (s.afterDrain home j r w js batches)
      (h ++ [.released j (some j), .erased j (some j)]) := by
  have hperm : s.pending.Perm (j :: (s.finalizationQueue ++ (js ++ batches.flatten))) := by
    simp only [State.pending, hb, List.flatten_cons, List.cons_append]
    exact List.perm_middle
  have hnodup := hperm.nodup_iff.mp hI.nodup
  rw [List.nodup_cons] at hnodup
  have hkeep : ∀ j' r' w', Linked home s j' r' w' → j' ≠ j →
      Linked home (s.afterDrain home j r w js batches) j' r' w' := by
    intro j' r' w' hlink' hne
    refine hlink'.keep (Function.update_of_ne hne ..) (Function.update_of_ne ?_ ..)
      (Function.update_of_ne ?_ ..)
    · exact fun heq => hne (hlink'.eq_of_home hlink heq)
    · rintro rfl
      exact hne (hlink'.eq_of_weak hlink)
  -- an undrained object in the same slot has the same pointer, so it is `j`
  have hslot : ∀ j' r', s.javaObjects j' = some r' → r'.status ≠ .drained → j' ≠ j →
      heapIndex r'.pointer ≠ heapIndex r.pointer := by
    intro j' r' hj' hr' hne hidx
    obtain ⟨-, e, he, hp⟩ := hI.held j' r' hj' hr'
    rw [hidx, hstash] at he
    have hpp : r'.pointer = r.pointer := by rw [← hp, ← Option.some.inj he]
    exact hne (hnew j' (hI.made j' r' hj') r' hj' hr' hpp)
  unfold State.afterDrain at hkeep ⊢
  refine ⟨?_, ?_, ?_, hI.injective, hI.born, ?_, ?_, hnodup.2, ?_⟩
  · intro j' r' hj' hr'
    dsimp only at hj' ⊢
    have hne : j' ≠ j := by
      rintro rfl
      rw [Function.update_self] at hj'
      exact hr' (by rw [← Option.some.inj hj'])
    rw [Function.update_of_ne hne] at hj'
    rw [Function.update_of_ne (hslot j' r' hj' hr' hne)]
    exact hI.held j' r' hj' hr'
  · intro i e he
    dsimp only at he
    have hi : i ≠ heapIndex r.pointer := by
      rintro rfl
      rw [Function.update_self] at he
      cases he
    rw [Function.update_of_ne hi] at he
    obtain ⟨r', w', hlink', h1, h2⟩ := hI.entry i e he
    have hne : e.owner ≠ j := by
      intro heq
      have hj := hlink'.object
      rw [heq, hlink.object] at hj
      exact hi (by rw [← h2, Option.some.inj hj])
    exact ⟨r', w', hkeep _ r' w' hlink' hne, h1, h2⟩
  · intro x w' hx
    dsimp only at hx
    have hxo : x ≠ home r.createdFor := by
      rintro rfl
      rw [Function.update_self] at hx
      cases hx
    rw [Function.update_of_ne hxo] at hx
    obtain ⟨j', r', hlink', rfl⟩ := hI.hidden x w' hx
    have hne : j' ≠ j := by
      rintro rfl
      obtain rfl : r = r' := Option.some.inj (hlink.object.symm.trans hlink'.object)
      exact hxo rfl
    exact ⟨j', r', hkeep j' r' w' hlink' hne, rfl⟩
  · intro j' r' hj'
    dsimp only at hj' ⊢
    by_cases hne : j' = j
    · rw [hne]
      exact hI.made j r hlink.object
    · rw [Function.update_of_ne hne] at hj'
      exact hI.made j' r' hj'
  · intro j' hj'
    have hne : j' ≠ j := by
      rintro rfl
      exact hnodup.1 hj'
    obtain ⟨r', h1, h2⟩ := hI.pending j' (hperm.mem_iff.mpr (List.mem_cons_of_mem _ hj'))
    exact ⟨r', by dsimp only; rw [Function.update_of_ne hne, h1], h2⟩
  · intro e he
    rcases List.mem_append.mp he with he | he
    · exact hI.undisturbed e he
    · simp only [List.mem_cons, List.not_mem_nil, or_false] at he
      rcases he with rfl | rfl <;> exact fun j' hj' => (Option.some.inj hj').symm

/-- What a careful round of the native loop does: a batch ends, or the newest
    `JavaScriptObject` of an object is drained. -/
theorem erase_cases {home : O → O} {s s' : State O W J} {h o' : List (Event O J)}
    (hI : Inv home s h) {script : Script O R} {n : ℕ}
    (hc : Careful s (.erase script n : Action O R W J))
    (hs : s.erase home script n = some (s', o')) :
    Inv home s' (h ++ o') ∧ (s'.javaObjects = s.javaObjects ∧ o' = [] ∨
      ∃ j r, s.javaObjects j = some r ∧
        s'.javaObjects = Function.update s.javaObjects j (some { r with status := .drained }) ∧
        o' = [.released j (some j), .erased j (some j)]) := by
  unfold State.erase at hs
  split at hs
  next => cases hs
  next batches hb =>
    obtain ⟨rfl, rfl⟩ := Prod.mk.inj (Option.some.inj hs)
    refine ⟨?_, .inl ⟨rfl, rfl⟩⟩
    exact hI.congr rfl rfl rfl rfl rfl rfl rfl (by simp [State.pending, hb]) (by simp)
  next j js batches hb =>
    obtain ⟨r, hj, hstatus⟩ := hI.pending j (by simp [State.pending, hb])
    have hnew : Newest s j r.pointer := hc (j :: js) (by simp [hb]) j (by simp) r hj
    rw [hj] at hs
    dsimp only at hs
    rw [(hI.held j r hj (by rw [hstatus]; decide)).1] at hs
    dsimp only at hs
    split_ifs at hs with hhome
    obtain ⟨hstash, w, hlink⟩ := hI.owner hj (by rw [hstatus]; decide) hnew
    obtain ⟨rfl, rfl⟩ := Prod.mk.inj (hlink.drainObject hstash hhome hs)
    exact ⟨hI.afterDrain hb hlink hstash hnew, .inr ⟨j, r, hj, rfl, rfl⟩⟩

omit [DecidableEq O] [DecidableEq W] [DecidableEq J] in
/-- An object that no stash entry holds has no hidden property. -/
theorem Inv.hidden_eq_none {home : O → O} {s : State O W J} {h : List (Event O J)}
    (hI : Inv home s h) {x : O}
    (hx : (((s.hidden x).bind s.weakRefs).any fun j => (s.javaObjects j).any fun r =>
      (s.stash (heapIndex r.pointer)).any fun e => e.pointer = r.pointer) = false) :
    s.hidden x = none := by
  cases hw : s.hidden x with
  | none => rfl
  | some w =>
    obtain ⟨j, r, hlink, -⟩ := hI.hidden x w hw
    obtain ⟨-, e, he, hp⟩ := hI.held j r hlink.object hlink.undrained
    simp [hw, hlink.weak, hlink.object, he, hp] at hx

omit [DecidableEq W] [DecidableEq J] in
/-- The collector frees an object without a Java object. -/
theorem Inv.free {home : O → O} {s : State O W J} {h : List (Event O J)} (hI : Inv home s h)
    {p : HeapPtr} {o : O} (hp : ∀ e, s.stash (heapIndex p) = some e → e.pointer ≠ p)
    (ho : s.hidden o = none) :
    Inv home { s with
      objects := Function.update s.objects p none,
      hidden := Function.update s.hidden o none } h := by
  have hhidden : Function.update s.hidden o none = s.hidden := by
    rw [← ho, Function.update_eq_self]
  rw [hhidden]
  refine ⟨?_, ?_, ?_, ?_, ?_, hI.made, hI.pending, hI.nodup, hI.undisturbed⟩
  · intro j r hj hr
    obtain ⟨h1, e, h2, h3⟩ := hI.held j r hj hr
    refine ⟨?_, e, h2, h3⟩
    dsimp only
    rw [Function.update_of_ne, h1]
    intro hrp
    rw [hrp] at h2 h3
    exact hp e h2 h3
  · intro i e he
    obtain ⟨r, w, hlink, h1⟩ := hI.entry i e he
    exact ⟨r, w, hlink.keep rfl rfl rfl, h1⟩
  · intro x w hx
    obtain ⟨j, r, hlink, hhome⟩ := hI.hidden x w hx
    exact ⟨j, r, hlink.keep rfl rfl rfl, hhome⟩
  · intro q q' x hq hq'
    dsimp only at hq hq'
    have hne : ∀ q'', Function.update s.objects p none q'' = some x → q'' ≠ p := by
      rintro q'' hq'' rfl
      rw [Function.update_self] at hq''
      cases hq''
    rw [Function.update_of_ne (hne q hq)] at hq
    rw [Function.update_of_ne (hne q' hq')] at hq'
    exact hI.injective _ _ _ hq hq'
  · intro q x hq
    dsimp only at hq
    have hne : q ≠ p := by
      rintro rfl
      rw [Function.update_self] at hq
      cases hq
    rw [Function.update_of_ne hne] at hq
    exact hI.born q x hq

omit [DecidableEq J] in
theorem Inv.collect {home : O → O} {s s' : State O W J} {h o' : List (Event O J)}
    (hI : Inv home s h) {script : Script O R} {n : ℕ} {p : HeapPtr}
    (hc : Careful s (.collect script n p : Action O R W J))
    (hs : s.collect script n p = some (s', o')) :
    Inv home s' h ∧ s'.javaObjects = s.javaObjects ∧ o' = [] := by
  unfold State.collect at hs
  split at hs
  next => cases hs
  next o hp =>
    dsimp only at hs
    split_ifs at hs with hguard hfin
    · obtain ⟨hheld, htarget⟩ := not_or.mp hguard
      rw [Bool.not_eq_true] at hheld htarget
      have hstash : ∀ e, s.stash (heapIndex p) = some e → e.pointer ≠ p := by
        intro e he
        simpa [he] using hheld
      have hfree := hI.free (o := o) hstash (hI.hidden_eq_none htarget)
      -- what the finalizer could delete would belong to `o`, which has no Java object
      have hnone : ∀ w, Hop.follow (hiddenHop script s.hidden) none n o ≠ some (some w) := by
        intro w hw
        have hforeign := hc o hp ((endsIn_hidden_iff (by simp)).mpr hfin)
        rw [endsIn_hidden_iff (P := Foreign s o) (by simp [Foreign]), hw] at hforeign
        have hown : s.standsFor w = some o := by simpa [Foreign] using hforeign
        obtain ⟨x, hx⟩ := hidden_of_follow hw
        obtain ⟨-, j, r, hlink, hro⟩ := hI.of_visible hx hown
        obtain ⟨h1, e, h2, h3⟩ := hI.held j r hlink.object hlink.undrained
        rw [hro] at h1
        rw [hI.injective _ _ _ h1 hp] at h2 h3
        exact hstash e h2 h3
      unfold State.releaseHidden at hs
      cases hw : Hop.follow (hiddenHop script s.hidden) none n o with
      | none =>
        rw [hw] at hs
        obtain ⟨rfl, rfl⟩ := Prod.mk.inj (Option.some.inj hs)
        exact ⟨hfree, rfl, rfl⟩
      | some w =>
        cases w with
        | none =>
          rw [hw] at hs
          obtain ⟨rfl, rfl⟩ := Prod.mk.inj (Option.some.inj hs)
          exact ⟨hfree, rfl, rfl⟩
        | some w => exact absurd hw (hnone w)
    · obtain ⟨rfl, rfl⟩ := Prod.mk.inj (Option.some.inj hs)
      obtain ⟨hheld, htarget⟩ := not_or.mp hguard
      rw [Bool.not_eq_true] at hheld htarget
      have hstash : ∀ e, s.stash (heapIndex p) = some e → e.pointer ≠ p := by
        intro e he
        simpa [he] using hheld
      exact ⟨hI.free hstash (hI.hidden_eq_none htarget), rfl, rfl⟩

omit [DecidableEq O] [DecidableEq W] in
theorem Inv.finalize {home : O → O} {s s' : State O W J} {h o' : List (Event O J)}
    (hI : Inv home s h) {j : J} (hs : s.finalize j = some (s', o')) :
    Inv home s' (h ++ o') ∧ o' = [] ∧ ∃ r, s.javaObjects j = some r ∧
      s'.javaObjects = Function.update s.javaObjects j (some { r with status := .enqueued }) := by
  unfold State.finalize at hs
  split at hs
  next r hj =>
    split_ifs at hs with hcleared
    obtain ⟨rfl, rfl⟩ := Prod.mk.inj (Option.some.inj hs)
    have hfresh : j ∉ s.pending := by
      intro hmem
      obtain ⟨r', h1, h2⟩ := hI.pending j hmem
      rw [hj] at h1
      rw [← Option.some.inj h1, hcleared] at h2
      cases h2
    have hperm : (s.finalizationQueue ++ [j] ++ s.batches.flatten).Perm (j :: s.pending) := by
      rw [List.append_assoc]
      exact List.perm_middle
    refine ⟨?_, rfl, r, hj, rfl⟩
    rw [List.append_nil]
    refine hI.setStatus hj (by rw [hcleared]; decide) (by decide) ?_ ?_
    · intro j' hj'
      rcases List.mem_cons.mp (hperm.mem_iff.mp hj') with rfl | hmem
      · exact .inr ⟨rfl, rfl⟩
      · exact .inl ⟨hmem, fun heq => hfresh (heq ▸ hmem)⟩
    · exact hperm.nodup_iff.mpr (List.nodup_cons.mpr ⟨hfresh, hI.nodup⟩)
  next => cases hs

omit [DecidableEq O] [DecidableEq W] in
theorem Inv.clear {home : O → O} {s : State O W J} {h : List (Event O J)} (hI : Inv home s h)
    {j : J} {r : JavaScriptObject O} (hj : s.javaObjects j = some r) (hr : r.status = .alive) :
    Inv home (s.setStatus j r .cleared) h := by
  refine hI.setStatus hj (by rw [hr]; decide) (by decide) ?_ hI.nodup
  intro j' hj'
  refine .inl ⟨hj', ?_⟩
  rintro rfl
  obtain ⟨r', h1, h2⟩ := hI.pending j' hj'
  rw [hj] at h1
  rw [← Option.some.inj h1, hr] at h2
  cases h2

/-- **A careful step keeps the invariant.** -/
theorem Inv.step {home : O → O} {s s' : State O W J} {h o' : List (Event O J)}
    (hI : Inv home s h) {a : Action O R W J} (hc : Careful s a)
    (hs : s.step home a = some (s', o')) : Inv home s' (h ++ o') := by
  unfold State.step at hs
  cases a with
  | alloc p o =>
    dsimp only at hs
    split_ifs at hs with hfree
    obtain ⟨rfl, rfl⟩ := Prod.mk.inj (Option.some.inj hs)
    rw [List.append_nil]
    exact hI.alloc (Option.isNone_iff_eq_none.mp hfree.1) hfree.2
  | pop rd n jni p j w =>
    dsimp only at hs
    split at hs
    next => cases hs
    next o hp =>
      split_ifs at hs with hhome
      rcases popObject_cases hI hp hhome (hc o hp) hs with ⟨rfl, rfl⟩ | ⟨rfl, rfl, -⟩ |
        ⟨x, w', rfl, -, rfl, -⟩ | ⟨hnew, -⟩
      · rwa [List.append_nil]
      · exact hI.congr rfl rfl rfl rfl rfl rfl rfl rfl (by simp [Event.Undisturbed])
      · exact hI.congr rfl rfl rfl rfl rfl rfl rfl rfl (by simp [Event.Undisturbed])
      · exact hnew
  | clear j =>
    dsimp only at hs
    split at hs
    next r hj =>
      split_ifs at hs with halive
      obtain ⟨rfl, rfl⟩ := Prod.mk.inj (Option.some.inj hs)
      rw [List.append_nil]
      exact hI.clear hj halive
    next => cases hs
  | finalize j => exact (hI.finalize hs).1
  | drain =>
    dsimp only at hs
    split_ifs at hs
    · obtain ⟨rfl, rfl⟩ := Prod.mk.inj (Option.some.inj hs)
      rwa [List.append_nil]
    · obtain ⟨rfl, rfl⟩ := Prod.mk.inj (Option.some.inj hs)
      exact hI.congr rfl rfl rfl rfl rfl rfl rfl (by simp [State.pending]) (by simp)
  | erase script n => exact (erase_cases hI hc hs).1
  | collect script n p =>
    obtain ⟨h1, -, rfl⟩ := hI.collect hc hs
    rwa [List.append_nil]
  | setFinalizer o =>
    obtain ⟨rfl, rfl⟩ := Prod.mk.inj (Option.some.inj hs)
    exact hI.congr rfl rfl rfl rfl rfl rfl rfl rfl (by simp)
  | passBack j =>
    dsimp only [State.passBack] at hs
    split at hs
    next r hj =>
      split_ifs at hs
      split at hs <;>
      · obtain ⟨rfl, rfl⟩ := Prod.mk.inj (Option.some.inj hs)
        exact hI.congr rfl rfl rfl rfl rfl rfl rfl rfl (by simp [Event.Undisturbed])
    next => cases hs

/-- `popObject` of the plain object at `p`. -/
def popPlain (p : HeapPtr) (j w : ℕ) : Action ℕ ℕ ℕ ℕ :=
  .pop (.of .plain) 4 (fun _ => false) p j w

/-- An object is marshalled, its Java object dies and is drained, and the object
    is marshalled again. -/
def drainedInTime : List (Action ℕ ℕ ℕ ℕ) :=
  [.alloc 64 5, popPlain 64 1 11, .clear 1, .finalize 1, .drain, .erase .plain 4,
    popPlain 64 2 12, .passBack 2]

/-- The same in another order: the object is marshalled again while the finalizer
    of its first Java object waits in the queue. -/
def drainedLate : List (Action ℕ ℕ ℕ ℕ) :=
  [.alloc 64 5, popPlain 64 1 11, .clear 1, .finalize 1, popPlain 64 2 12, .drain,
    .erase .plain 4, .collect .plain 4 64, .passBack 2]

-- two objects with the same low half of the address
example : ∃ r, (machine (W := ℕ) (J := ℕ) ℕ id).run {}
    [.alloc 64 5, .alloc (64 + 2 ^ 32) 6, popPlain 64 1 11, popPlain (64 + 2 ^ 32) 2 12] =
      some r ∧ Event.stored (64 + 2 ^ 32) (some 64) ∈ r.2 :=
  ⟨_, rfl, by decide⟩

-- an object that inherits the finalizer and the weak reference of its prototype
example : ∃ r, (machine (W := ℕ) (J := ℕ) ℕ id).run {}
    [.alloc 64 5, .alloc 128 6, popPlain 64 1 11,
      .collect { Script.plain with prototype := fun o => if o = 6 then some 5 else none } 4 128] =
      some r ∧ r.1.weakRefs 11 = none :=
  ⟨_, rfl, rfl⟩

end JSEngine.Duktape
