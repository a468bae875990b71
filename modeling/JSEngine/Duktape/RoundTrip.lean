import JSEngine.Duktape.Retention

/-!
# Duktape objects on their way to Java and back

* `RoundTrip`: an object that Java received and passes back is the same object,
  and different objects are never received as the same `JavaScriptObject`.
* `Faithful`: the condition on a step. It is careful, and an object that is
  marshalled shows no `__javascript_this` and no hidden property of another.
* `roundTrip_of_faithful`: the round trip over every run of such steps.
-/

namespace JSEngine.Duktape

open JSEngine.Common

variable {O R W J : Type*}

/-- What the script and Java see of a history. Any other Java object than a
    `JavaScriptObject` of the context is passed back as a new proxy. -/
structure RoundTrip (h : List (Event O J)) : Prop where
  same : ∀ o j o', Event.received o (.javaScriptObject j) ∈ h → Event.passed j o' ∈ h → o' = o
  other : ∀ o, Event.received o .other ∉ h
  valid : ∀ o j, Event.received o (.javaScriptObject j) ∈ h → Event.dangling j ∉ h
  injective : ∀ o o' j, Event.received o (.javaScriptObject j) ∈ h →
    Event.received o' (.javaScriptObject j) ∈ h → o = o'

/-- No Java object is recognised in `o` but one that was made for it. Buffers are
    copied, and a proxy for a Java object is meant to be unwrapped. -/
structure Own (s : State O W J) (rd : Reads O R) (n : ℕ) (o : O) : Prop where
  javascriptThis : (rd.has.kind o).isBuffer = false → State.isJavaProxy rd.has o = false →
    Hop.EndsIn (hasHop rd.has) (· = some true) n o →
    ¬Hop.EndsIn (getHop rd.get) (fun x => isPointer x = true) n (o, false)
  javaThis : (rd.has.kind o).isBuffer = false →
    Hop.EndsIn (hasHop rd.has) (· = some false) n o →
    ¬Hop.EndsIn (hiddenHop rd.hidden s.hidden) (Foreign s o) n o

instance [DecidableEq O] (s : State O W J) (rd : Reads O R) (n : ℕ) (o : O) :
    Decidable (Own s rd n o) :=
  decidable_of_iff
    (((rd.has.kind o).isBuffer = false → State.isJavaProxy rd.has o = false →
        Hop.EndsIn (hasHop rd.has) (· = some true) n o →
        ¬Hop.EndsIn (getHop rd.get) (fun x => isPointer x = true) n (o, false)) ∧
      ((rd.has.kind o).isBuffer = false → Hop.EndsIn (hasHop rd.has) (· = some false) n o →
        ¬Hop.EndsIn (hiddenHop rd.hidden s.hidden) (Foreign s o) n o))
    ⟨fun h => ⟨h.1, h.2⟩, fun h => ⟨h.javascriptThis, h.javaThis⟩⟩

/-- The condition on a step. -/
def Faithful (s : State O W J) (a : Action O R W J) : Prop :=
  Careful s a ∧ match a with
    | .pop rd n _ p _ _ => ∀ o ∈ s.objects p, Own s rd n o
    | _ => True

instance [DecidableEq O] [DecidableEq J] (s : State O W J) :
    ∀ a : Action O R W J, Decidable (Faithful s a)
  | .pop rd n jni p j w =>
    inferInstanceAs (Decidable (Careful s (.pop rd n jni p j w) ∧ ∀ o ∈ s.objects p, Own s rd n o))
  | .alloc p o => inferInstanceAs (Decidable (Careful s (.alloc p o) ∧ True))
  | .clear j => inferInstanceAs (Decidable (Careful s (.clear j) ∧ True))
  | .finalize j => inferInstanceAs (Decidable (Careful s (.finalize j) ∧ True))
  | .drain => inferInstanceAs (Decidable (Careful s .drain ∧ True))
  | .erase script n => inferInstanceAs (Decidable (Careful s (.erase script n) ∧ True))
  | .collect script n p => inferInstanceAs (Decidable (Careful s (.collect script n p) ∧ True))
  | .setFinalizer o => inferInstanceAs (Decidable (Careful s (.setFinalizer o) ∧ True))
  | .passBack j => inferInstanceAs (Decidable (Careful s (.passBack j) ∧ True))

/-! ## The invariant -/

/-- The event agrees with what the Java objects were made for. -/
def Event.Fits (s : State O W J) : Event O J → Prop
  | .received o (.javaScriptObject j) => ∃ r, s.javaObjects j = some r ∧ r.createdFor = o
  | .received _ .other => False
  | .passed j o => ∃ r, s.javaObjects j = some r ∧ r.createdFor = o
  | .dangling _ => False
  | _ => True

/-- Every event of the history fits. -/
def Marshalled (s : State O W J) (h : List (Event O J)) : Prop := ∀ e ∈ h, e.Fits s

theorem Marshalled.roundTrip {s : State O W J} {h : List (Event O J)} (hM : Marshalled s h) :
    RoundTrip h where
  same o j o' hr hp := by
    obtain ⟨r, h1, h2⟩ := hM _ hr
    obtain ⟨r', h3, h4⟩ := hM _ hp
    rw [h1] at h3
    rw [← h4, ← Option.some.inj h3, h2]
  other _ hr := hM _ hr
  valid _ _ _ hd := hM _ hd
  injective o o' j hr hr' := by
    obtain ⟨r, h1, h2⟩ := hM _ hr
    obtain ⟨r', h3, h4⟩ := hM _ hr'
    rw [h1] at h3
    rw [← h2, ← h4, Option.some.inj h3]

/-- The Java objects stay what they were made for. -/
def Keeps (s s' : State O W J) : Prop :=
  ∀ j r, s.javaObjects j = some r → ∃ r', s'.javaObjects j = some r' ∧
    r'.createdFor = r.createdFor

theorem Keeps.of_eq {s s' : State O W J} (h : s'.javaObjects = s.javaObjects) : Keeps s s' :=
  fun j r hj => ⟨r, by rw [h, hj], rfl⟩

/-- One Java object is new, or its status changes. -/
theorem Keeps.of_update [DecidableEq J] {s s' : State O W J} {j : J} {x : JavaScriptObject O}
    (h : s'.javaObjects = Function.update s.javaObjects j (some x))
    (hx : ∀ r, s.javaObjects j = some r → x.createdFor = r.createdFor) : Keeps s s' := by
  intro j' r hj'
  rw [h]
  by_cases hjj : j' = j
  · rw [hjj] at hj' ⊢
    exact ⟨x, Function.update_self .., hx r hj'⟩
  · exact ⟨r, by rw [Function.update_of_ne hjj, hj'], rfl⟩

theorem Event.Fits.keep {s s' : State O W J} (hk : Keeps s s') {e : Event O J} (he : e.Fits s) :
    e.Fits s' := by
  cases e with
  | received o x =>
    cases x with
    | javaScriptObject j =>
      obtain ⟨r, h1, h2⟩ := he
      obtain ⟨r', h3, h4⟩ := hk j r h1
      exact ⟨r', h3, h4.trans h2⟩
    | other => exact he
  | passed j o =>
    obtain ⟨r, h1, h2⟩ := he
    obtain ⟨r', h3, h4⟩ := hk j r h1
    exact ⟨r', h3, h4.trans h2⟩
  | dangling j => exact he
  | _ => trivial

theorem Marshalled.add {s s' : State O W J} {h o : List (Event O J)} (hM : Marshalled s h)
    (hk : Keeps s s') (ho : ∀ e ∈ o, e.Fits s') : Marshalled s' (h ++ o) := by
  intro e he
  rcases List.mem_append.mp he with he | he
  · exact (hM e he).keep hk
  · exact ho e he

/-! ## The steps -/

variable [DecidableEq O] [DecidableEq W] [DecidableEq J]

theorem Marshalled.pop {home : O → O} {s s' : State O W J} {h o' : List (Event O J)}
    (hI : Inv home s h) (hM : Marshalled s h) {rd : Reads O R} {n : ℕ}
    {jni : Pointer R W → Bool} {o : O} {p : HeapPtr} {j : J} {w : W} (hp : s.objects p = some o)
    (hhome : rd.hidden.home o = home o) (hc : PopCareful s rd n jni o p) (hown : Own s rd n o)
    (hs : s.popObject rd n jni o p j w = some (s', o')) : Marshalled s' (h ++ o') := by
  rcases popObject_cases hI hp hhome hc hs with ⟨rfl, rfl⟩ | ⟨-, -, hproxy, hb, htrue, hptr⟩ |
    ⟨x, w', rfl, -, rfl, hb, hfalse, hends⟩ | ⟨-, rfl, hj, hjava⟩
  · exact hM.add (.of_eq rfl) (by simp)
  · exact absurd hptr (hown.javascriptThis hb hproxy htrue)
  · -- the weak reference that is visible was made for `o`
    have hforeign := hown.javaThis hb hfalse
    rw [endsIn_hidden_iff (by simp)] at hends
    rw [endsIn_hidden_iff (P := Foreign s' o) (by simp [Foreign]), hends] at hforeign
    have hfor : s'.standsFor w' = some o := by simpa [Foreign] using hforeign
    obtain ⟨r, hr, hro⟩ := Option.map_eq_some_iff.mp hfor
    obtain ⟨j', hw', hj'⟩ := Option.bind_eq_some_iff.mp hr
    refine hM.add (.of_eq rfl) ?_
    rw [hw']
    simpa [Event.Fits] using ⟨r, hj', hro⟩
  · refine hM.add (.of_update hjava ?_) ?_
    · intro r hr
      rw [hj] at hr
      cases hr
    · simp [Event.Fits, hjava]

omit [DecidableEq O] [DecidableEq W] [DecidableEq J] in
theorem Marshalled.passBack {home : O → O} {s s' : State O W J} {h o' : List (Event O J)}
    (hI : Inv home s h) (hM : Marshalled s h) {j : J} (hs : s.passBack j = some (s', o')) :
    Marshalled s' (h ++ o') := by
  unfold State.passBack at hs
  split at hs
  next r hj =>
    split_ifs at hs with halive
    -- the stash still holds the object
    rw [(hI.retained j r hj (.inl halive)).1] at hs
    obtain ⟨rfl, rfl⟩ := Prod.mk.inj (Option.some.inj hs)
    refine hM.add (.of_eq rfl) ?_
    simp [Event.Fits, hj]
  next => cases hs

/-- **A faithful step keeps every Java object at its object.** -/
theorem Marshalled.step {home : O → O} {s s' : State O W J} {h o' : List (Event O J)}
    (hI : Inv home s h) (hM : Marshalled s h) {a : Action O R W J} (ha : Faithful s a)
    (hs : s.step home a = some (s', o')) : Marshalled s' (h ++ o') := by
  obtain ⟨hc, hown⟩ := ha
  unfold State.step at hs
  cases a with
  | alloc p o =>
    dsimp only at hs
    split_ifs at hs
    obtain ⟨rfl, rfl⟩ := Prod.mk.inj (Option.some.inj hs)
    exact hM.add (.of_eq rfl) (by simp)
  | pop rd n jni p j w =>
    dsimp only at hs hown
    split at hs
    next => cases hs
    next o hp =>
      split_ifs at hs with hhome
      exact hM.pop hI hp hhome (hc o hp) (hown o hp) hs
  | clear j =>
    dsimp only at hs
    split at hs
    next r hj =>
      split_ifs at hs
      obtain ⟨rfl, rfl⟩ := Prod.mk.inj (Option.some.inj hs)
      refine hM.add (.of_update rfl ?_) (by simp)
      intro r' hr'
      rw [hj] at hr'
      rw [← Option.some.inj hr']
    next => cases hs
  | finalize j =>
    obtain ⟨-, rfl, r, hj, hjava⟩ := hI.finalize hs
    refine hM.add (.of_update hjava ?_) (by simp)
    intro r' hr'
    rw [hj] at hr'
    rw [← Option.some.inj hr']
  | drain =>
    dsimp only at hs
    split_ifs at hs <;>
    · obtain ⟨rfl, rfl⟩ := Prod.mk.inj (Option.some.inj hs)
      exact hM.add (.of_eq rfl) (by simp)
  | erase script n =>
    obtain ⟨-, ⟨hjava, rfl⟩ | ⟨j, r, hj, hjava, rfl⟩⟩ := erase_cases hI hc hs
    · exact hM.add (.of_eq hjava) (by simp)
    · refine hM.add (.of_update hjava ?_) (by simp [Event.Fits])
      intro r' hr'
      rw [hj] at hr'
      rw [← Option.some.inj hr']
  | collect script n p =>
    obtain ⟨-, hjava, rfl⟩ := hI.collect hc hs
    exact hM.add (.of_eq hjava) (by simp)
  | setFinalizer o =>
    obtain ⟨rfl, rfl⟩ := Prod.mk.inj (Option.some.inj hs)
    exact hM.add (.of_eq rfl) (by simp)
  | passBack j => exact hM.passBack hI hs

/-- **The round trip over every run of faithful steps.** -/
theorem roundTrip_of_faithful {home : O → O} {as : List (Action O R W J)}
    {r : State O W J × List (Event O J)} (hf : (machine R home).Meets Faithful {} as)
    (hr : (machine R home).run {} as = some r) : RoundTrip r.2 := by
  have h := (machine R home).run_history (P := Faithful)
    (I := fun s h => Inv home s h ∧ Marshalled s h)
    (fun _ _ _ _ _ hI hP hs => ⟨hI.1.step hP.1 hs, hI.2.step hI.1 hP hs⟩) as _ [] r
    ⟨inv_init home, by simp [Marshalled]⟩ hf hr
  exact h.2.roundTrip

end JSEngine.Duktape
