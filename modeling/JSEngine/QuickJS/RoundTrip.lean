import JSEngine.QuickJS.Retention

/-!
# QuickJS objects on their way to Java and back

* `RoundTrip`: an object that Java received and passes back is the same object,
  and different objects are never received as the same Java object.
* `Faithful`: the condition on a step. The bridge's keys are not visible on an
  object that is marshalled, JNI makes a buffer where the prototype asks for
  one, and a buffer that is passed back has the hash code it was mapped with.
* `roundTrip_of_faithful`: the round trip over every run of such steps.
-/

namespace JSEngine.QuickJS

open JSEngine.Common JSEngine.Java JSEngine.WeakMap

variable {O R J B : Type*}

/-- What the script and Java see of a history. -/
structure RoundTrip (h : List (Event O J B)) : Prop where
  same : ∀ o x v, Event.received (.object o) x ∈ h → Event.passed x v ∈ h → v = .object o
  valid : ∀ o x, Event.received (.object o) x ∈ h → Event.dangling x ∉ h
  injective : ∀ o o' x, Event.received (.object o) x ∈ h → Event.received (.object o') x ∈ h →
    o = o'

/-- An object that is marshalled shows none of the bridge's keys. A proxy of the
    bridge is another matter: it is meant to be unwrapped. -/
def Bare (rd : Reads O R) (n : ℕ) (v : Val O) : Prop :=
  match v with
  | .object o => v.isQuackObjectProxy rd.finalizer = true ∨ BareAt rd n o
  | _ => True

instance (rd : Reads O R) (n : ℕ) (v : Val O) : Decidable (Bare rd n v) := by
  unfold Bare
  split <;> infer_instance

/-- Only a proxy of the bridge is received as something that exists already. -/
theorem Bare.create {rd : Reads O R} {n : ℕ} {v : Val O} (h : Bare rd n v) {o : O}
    (ho : v = .object o) (hproxy : v.isQuackObjectProxy rd.finalizer = false) :
    (recognise rd n v).1 = .create none := by
  subst ho
  rcases h with h | h
  · rw [hproxy] at h
    cases h
  · exact recognise_create_iff.mpr h

variable [DecidableEq B]

/-! ## The invariant -/

/-- The Java objects of a history, and the values they stand for. A buffer
    stands for the value of the object that it is mapped to. -/
structure Marshalled (s : State O J B) (h : List (Event O J B)) : Prop where
  null : s.twins 0 = none
  object : ∀ v j, Event.received v (.javaScriptObject j) ∈ h →
    ∃ o, s.objects j = some o ∧ o.createdFor = v
  buffer : ∀ v b, Event.received v (.byteBuffer b) ∈ h → s.buffers.cleared b = false →
    ∃ j o, valueOf s.nativeMappings b = some j ∧ s.objects j = some o ∧ o.createdFor = v ∧
      o.status = .alive
  bufferOnce : ∀ v v' b, Event.received v (.byteBuffer b) ∈ h →
    Event.received v' (.byteBuffer b) ∈ h → v = v'
  bufferKnown : ∀ b, s.known b = true ↔ ∃ v, Event.received v (.byteBuffer b) ∈ h
  keys : ∀ e ∈ s.nativeMappings.map.keys, s.known e.key = true
  other : ∀ o, Event.received (.object o) .other ∉ h
  passedObject : ∀ v j, Event.passed (.javaScriptObject j) v ∈ h →
    ∃ o, s.objects j = some o ∧ o.createdFor = v
  passedBuffer : ∀ v b, Event.passed (.byteBuffer b) v ∈ h → Event.received v (.byteBuffer b) ∈ h
  valid : ∀ x, Event.dangling x ∉ h

theorem Marshalled.roundTrip {s : State O J B} {h : List (Event O J B)} (hM : Marshalled s h) :
    RoundTrip h where
  same o x v hr hp := by
    cases x with
    | javaScriptObject j =>
      obtain ⟨o1, h1, h2⟩ := hM.object _ _ hr
      obtain ⟨o2, h3, h4⟩ := hM.passedObject _ _ hp
      rw [h1] at h3
      rw [← h4, ← Option.some.inj h3, h2]
    | byteBuffer b => exact hM.bufferOnce _ _ _ (hM.passedBuffer _ _ hp) hr
    | other => exact absurd hr (hM.other o)
  valid o x _ := hM.valid x
  injective o o' x hr hr' := by
    cases x with
    | javaScriptObject j =>
      obtain ⟨o1, h1, h2⟩ := hM.object _ _ hr
      obtain ⟨o2, h3, h4⟩ := hM.object _ _ hr'
      rw [h1] at h3
      have hv : (Val.object o : Val O) = .object o' := by rw [← h2, ← h4, Option.some.inj h3]
      exact Val.object.inj hv
    | byteBuffer b => exact Val.object.inj (hM.bufferOnce _ _ _ hr hr')
    | other => exact absurd hr (hM.other o)

/-- What a step may change without touching what a Java object stands for. -/
structure Evolves (s s' : State O J B) : Prop where
  null : s.twins 0 = none → s'.twins 0 = none
  objects : ∀ j o, s.objects j = some o → ∃ o', s'.objects j = some o' ∧
    o'.createdFor = o.createdFor
  cleared : ∀ b, s'.buffers.cleared b = false → s.buffers.cleared b = false
  mapped : ∀ b, s'.buffers.cleared b = false →
    valueOf s'.nativeMappings b = valueOf s.nativeMappings b
  alive : ∀ b j o, valueOf s.nativeMappings b = some j → s.objects j = some o →
    o.status = .alive → ∃ o', s'.objects j = some o' ∧ o'.createdFor = o.createdFor ∧
      o'.status = .alive
  known : s'.known = s.known
  keys : ∀ e ∈ s'.nativeMappings.map.keys, e ∈ s.nativeMappings.map.keys

theorem Marshalled.evolve {s s' : State O J B} {h : List (Event O J B)} (hM : Marshalled s h)
    (hE : Evolves s s') : Marshalled s' h where
  null := hE.null hM.null
  object v j hr := by
    obtain ⟨o, h1, h2⟩ := hM.object v j hr
    obtain ⟨o', h3, h4⟩ := hE.objects j o h1
    exact ⟨o', h3, h4.trans h2⟩
  buffer v b hr hb := by
    obtain ⟨j, o, h1, h2, h3, h4⟩ := hM.buffer v b hr (hE.cleared b hb)
    obtain ⟨o', h5, h6, h7⟩ := hE.alive b j o h1 h2 h4
    exact ⟨j, o', (hE.mapped b hb).trans h1, h5, h6.trans h3, h7⟩
  bufferOnce := hM.bufferOnce
  bufferKnown := by
    rw [hE.known]
    exact hM.bufferKnown
  keys e he := by
    rw [hE.known]
    exact hM.keys e (hE.keys e he)
  other := hM.other
  passedObject v j hp := by
    obtain ⟨o, h1, h2⟩ := hM.passedObject v j hp
    obtain ⟨o', h3, h4⟩ := hE.objects j o h1
    exact ⟨o', h3, h4.trans h2⟩
  passedBuffer := hM.passedBuffer
  valid := hM.valid

/-- A step that leaves the objects and the buffers alone. -/
theorem Evolves.of_eq {s s' : State O J B} (hnull : s.twins 0 = none → s'.twins 0 = none)
    (hobjects : s'.objects = s.objects) (hmap : s'.nativeMappings = s.nativeMappings)
    (hknown : s'.known = s.known) (hbuffers : s'.buffers = s.buffers) : Evolves s s' where
  null := hnull
  objects j o hj := ⟨o, by rw [hobjects, hj], rfl⟩
  cleared b hb := by rwa [hbuffers] at hb
  mapped b _ := by rw [hmap]
  alive b j o _ hj ho := ⟨o, by rw [hobjects, hj], rfl, ho⟩
  known := hknown
  keys e he := by rwa [hmap] at he

/-- A step that changes the status of one object that no buffer is mapped to. -/
theorem Evolves.of_status [DecidableEq J] (status : Status) {s s' : State O J B}
    (hnull : s.twins 0 = none → s'.twins 0 = none) {j : J} {o : JavaScriptObject O}
    (hj : s.objects j = some o)
    (hobjects : s'.objects = Function.update s.objects j (some { o with status := status }))
    (hmap : s'.nativeMappings = s.nativeMappings) (hknown : s'.known = s.known)
    (hbuffers : s'.buffers = s.buffers)
    (hunmapped : o.status = .alive → ∀ b, valueOf s.nativeMappings b ≠ some j) :
    Evolves s s' where
  null := hnull
  objects j' o' hj' := by
    rw [hobjects]
    by_cases heq : j' = j
    · subst heq
      rw [hj] at hj'
      obtain rfl := Option.some.inj hj'
      exact ⟨_, Function.update_self .., rfl⟩
    · exact ⟨o', by rw [Function.update_of_ne heq, hj'], rfl⟩
  cleared b hb := by rwa [hbuffers] at hb
  mapped b _ := by rw [hmap]
  alive b j' o' hb hj' ho' := by
    rw [hobjects]
    have heq : j' ≠ j := by
      rintro rfl
      rw [hj] at hj'
      obtain rfl := Option.some.inj hj'
      exact hunmapped ho' b hb
    exact ⟨o', by rw [Function.update_of_ne heq, hj'], rfl, ho'⟩
  known := hknown
  keys e he := by rwa [hmap] at he

/-! ## New events -/

/-- The event is one that the invariant allows after the history, apart from a
    new buffer. -/
def Event.Fits (s : State O J B) (h : List (Event O J B)) : Event O J B → Prop
  | .received v (.javaScriptObject j) => ∃ o, s.objects j = some o ∧ o.createdFor = v
  | .received _ (.byteBuffer _) => False
  | .received v .other => ∀ o, v ≠ .object o
  | .passed (.javaScriptObject j) v => ∃ o, s.objects j = some o ∧ o.createdFor = v
  | .passed (.byteBuffer b) v => Event.received v (.byteBuffer b) ∈ h
  | .dangling _ => False
  | _ => True

omit [DecidableEq B] in
theorem mem_append_single {e a : Event O J B} {h : List (Event O J B)} :
    e ∈ h ++ [a] ↔ e ∈ h ∨ e = a := by
  rw [List.mem_append, List.mem_singleton]

theorem Marshalled.add {s : State O J B} {h : List (Event O J B)} (hM : Marshalled s h)
    {a : Event O J B} (ha : a.Fits s h) : Marshalled s (h ++ [a]) := by
  -- the buffers received are those of before
  have hbuffer : ∀ v b, Event.received v (.byteBuffer b) ∈ h ++ [a] ↔
      Event.received v (.byteBuffer b) ∈ h := by
    intro v b
    rw [mem_append_single, or_iff_left]
    rintro rfl
    exact ha
  refine ⟨hM.null, ?_, ?_, ?_, ?_, hM.keys, ?_, ?_, ?_, ?_⟩
  · intro v j hr
    rcases mem_append_single.mp hr with hr | rfl
    · exact hM.object v j hr
    · exact ha
  · simp only [hbuffer]
    exact hM.buffer
  · simp only [hbuffer]
    exact hM.bufferOnce
  · simp only [hbuffer]
    exact hM.bufferKnown
  · intro o hr
    rcases mem_append_single.mp hr with hr | rfl
    · exact hM.other o hr
    · exact ha o rfl
  · intro v j hp
    rcases mem_append_single.mp hp with hp | rfl
    · exact hM.passedObject v j hp
    · exact ha
  · intro v b hp
    rcases mem_append_single.mp hp with hp | rfl
    · exact List.mem_append_left _ (hM.passedBuffer v b hp)
    · exact List.mem_append_left _ ha
  · intro x hd
    rcases mem_append_single.mp hd with hd | rfl
    · exact hM.valid x hd
    · exact ha

/-- `mapNative` for a new buffer: it stands for the value of the object. -/
theorem Marshalled.newBuffer {s : State O J B} {h : List (Event O J B)} (hM : Marshalled s h)
    {b : B} {j : J} {o : JavaScriptObject O} (hb : s.known b = false)
    (hlive : s.buffers.cleared b = false) (hj : s.objects j = some o) (ho : o.status = .alive) :
    Marshalled { s with
      known := Function.update s.known b true,
      nativeMappings := (s.nativeMappings.put s.buffers (some b) (some j)).2 }
      (h ++ [.received o.createdFor (.byteBuffer b)]) := by
  -- a buffer that was never made has no entry
  have hnokey : ∀ e ∈ s.nativeMappings.map.keys, e.key ≠ b := by
    intro e he heq
    have hknown := hM.keys e he
    rw [heq, hb] at hknown
    cases hknown
  have hfresh : Fresh s.buffers s.nativeMappings b := fun e he heq => absurd heq (hnokey e he)
  have hnew : ∀ v, Event.received v (.byteBuffer b) ∉ h := by
    intro v hr
    have hknown := (hM.bufferKnown b).mpr ⟨v, hr⟩
    rw [hb] at hknown
    cases hknown
  refine ⟨hM.null, ?_, ?_, ?_, ?_, ?_, ?_, ?_, ?_, ?_⟩
  · intro v j' hr
    rcases mem_append_single.mp hr with hr | hr
    · exact hM.object v j' hr
    · cases (Event.received.inj hr).2
  · intro v b' hr hb'
    dsimp only at hb' ⊢
    rcases mem_append_single.mp hr with hold | hlast
    · have hne : b' ≠ b := by
        rintro rfl
        exact hnew v hold
      rw [valueOf_put_other hlive hb' hne hfresh]
      exact hM.buffer v b' hold hb'
    · obtain ⟨rfl, hbb⟩ := Event.received.inj hlast
      obtain rfl := Handle.byteBuffer.inj hbb
      exact ⟨j, o, valueOf_put_self hlive hfresh _, hj, rfl, ho⟩
  · intro v v' b' hr hr'
    rcases mem_append_single.mp hr with h1 | h1 <;> rcases mem_append_single.mp hr' with h2 | h2
    · exact hM.bufferOnce v v' b' h1 h2
    · obtain rfl := Handle.byteBuffer.inj (Event.received.inj h2).2
      exact absurd h1 (hnew v)
    · obtain rfl := Handle.byteBuffer.inj (Event.received.inj h1).2
      exact absurd h2 (hnew v')
    · rw [(Event.received.inj h1).1, (Event.received.inj h2).1]
  · intro b'
    dsimp only
    by_cases hne : b' = b
    · subst hne
      rw [Function.update_self]
      exact ⟨fun _ => ⟨_, mem_append_single.mpr (.inr rfl)⟩, fun _ => rfl⟩
    · rw [Function.update_of_ne hne, hM.bufferKnown]
      apply exists_congr
      intro v
      rw [mem_append_single, or_iff_left]
      intro hr
      exact hne (Handle.byteBuffer.inj (Event.received.inj hr).2)
  · intro e he
    dsimp only at he ⊢
    rw [put_map_of_fresh hlive hfresh] at he
    have hold : ∀ e ∈ (s.nativeMappings.maybePurge s.buffers).map.keys,
        Function.update s.known b true e.key = true := by
      intro e he
      have he := mem_keys_maybePurge he
      rw [Function.update_of_ne (hnokey e he)]
      exact hM.keys e he
    rcases HashMap.keys_put (Entry.isFor b) ⟨b, s.buffers.hashCode b⟩ (some j)
      (s.nativeMappings.maybePurge s.buffers).map with ⟨hk, -⟩ | ⟨hk, -⟩
    · rw [hk] at he
      exact hold e he
    · rw [hk, List.mem_append, List.mem_singleton] at he
      rcases he with he | rfl
      · exact hold e he
      · exact Function.update_self ..
  · intro o' hr
    rcases mem_append_single.mp hr with hr | hr
    · exact hM.other o' hr
    · cases (Event.received.inj hr).2
  · intro v j' hp
    rcases mem_append_single.mp hp with hp | hp
    · exact hM.passedObject v j' hp
    · cases hp
  · intro v b' hp
    rcases mem_append_single.mp hp with hp | hp
    · exact List.mem_append_left _ (hM.passedBuffer v b' hp)
    · cases hp
  · intro x hd
    rcases mem_append_single.mp hd with hd | hd
    · exact hM.valid x hd
    · cases hd

/-! ## The operations -/

omit [DecidableEq B] in
/-- The twin of an object that is not drained leads to its value. -/
theorem pushTwin_eq {s : State O J B} {h : List (Event O J B)} (hI : Inv s h)
    (hnull : s.twins 0 = none) {j : J} {o : JavaScriptObject O} (hj : s.objects j = some o)
    (ho : o.status ≠ .drained) (x : Handle J B) (fresh : Val O) :
    s.pushTwin x j fresh = some [.passed x o.createdFor] := by
  obtain ⟨htwin, -⟩ := hI.twin j o hj ho
  have hp : o.pointer ≠ 0 := by
    intro hp
    rw [hp, hnull] at htwin
    cases htwin
  unfold State.pushTwin
  rw [hj]
  dsimp only
  rw [if_pos hp, hI.retained.value j o hj ho]

variable [DecidableEq J]

theorem Marshalled.newTwin {s s' : State O J B} {h o : List (Event O J B)}
    (hM : Marshalled s h) {v : Val O} {j : J} {p : ℕ} (hs : s.newTwin v j p = some (s', o)) :
    Marshalled s' (h ++ o) := by
  unfold State.newTwin at hs
  split_ifs at hs with hfree
  obtain ⟨rfl, rfl⟩ := Prod.mk.inj (Option.some.inj hs)
  rw [List.append_nil]
  apply hM.evolve
  refine Evolves.of_eq ?_ rfl rfl rfl rfl
  intro hnull
  dsimp only
  rw [Function.update_of_ne hfree.1.symm, hnull]

theorem Marshalled.toObject {s s' : State O J B} {h o : List (Event O J B)}
    (hM : Marshalled s h) {rd : Reads O R} {n : ℕ} {v : Val O} {j : J} {p : ℕ}
    (hbare : Bare rd n v) (hs : s.toObject rd n v j p = some (s', o)) :
    Marshalled s' (h ++ o) := by
  unfold State.toObject at hs
  split at hs
  next => cases hs
  next dead hdead =>
    obtain rfl := recognise_create hdead
    exact hM.newTwin hs
  next hcrash hcreate =>
    obtain ⟨rfl, rfl⟩ := Prod.mk.inj (Option.some.inj hs)
    cases hproxy : v.isQuackObjectProxy rd.finalizer with
    | true =>
      rw [if_pos rfl, List.append_nil]
      exact hM
    | false =>
      apply hM.add
      intro ob hob
      exact hcreate none (hbare.create hob hproxy)

theorem Marshalled.finishToObject [DecidableEq O] {s s' : State O J B}
    {h o : List (Event O J B)} (hI : Inv s h) (hM : Marshalled s h) {heap : QuickJS.Heap O R}
    {n : ℕ} {byteBuffer : Option B}
    (hbuffer : ∀ f ∈ s.frames.head?, f.value.isBuffer heap n = true → byteBuffer.isSome = true)
    (hs : s.finishToObject heap n byteBuffer = some (s', o)) : Marshalled s' (h ++ o) := by
  unfold State.finishToObject at hs
  split at hs
  next => cases hs
  next f frames hf =>
    obtain ⟨htwin, hnone⟩ := hI.frame f (by simp [hf])
    have hp : f.pointer ≠ 0 := by
      intro hp
      rw [hp, hM.null] at htwin
      cases htwin
    -- the object that the call hands out is new
    have hold : ∀ j o, s.objects j = some o → j ≠ f.object := by
      rintro j o hj rfl
      rw [hnone] at hj
      cases hj
    have hcommit : Marshalled { s with
        frames := frames,
        objects := Function.update s.objects f.object (some ⟨f.pointer, f.value, .alive⟩),
        stash := Function.update s.stash f.pointer true,
        twins := Function.update s.twins f.pointer (some ⟨f.object, f.value⟩) } h := by
      apply hM.evolve
      refine ⟨?_, ?_, fun _ hb => hb, fun _ _ => rfl, ?_, rfl, fun _ he => he⟩
      · intro hnull
        dsimp only
        rw [Function.update_of_ne hp.symm, hnull]
      · intro j o hj
        dsimp only
        exact ⟨o, by rw [Function.update_of_ne (hold j o hj), hj], rfl⟩
      · intro b j o _ hj ho
        dsimp only
        exact ⟨o, by rw [Function.update_of_ne (hold j o hj), hj], rfl, ho⟩
    dsimp only at hs
    by_cases hbuf : f.value.isBuffer heap n = true
    · rw [if_pos hbuf] at hs
      obtain ⟨b, rfl⟩ := Option.isSome_iff_exists.mp (hbuffer f (by simp [hf]) hbuf)
      dsimp only at hs
      split_ifs at hs with hnew
      obtain ⟨hknown, hcleared⟩ := not_or.mp hnew
      rw [Bool.not_eq_true] at hknown hcleared
      obtain ⟨rfl, rfl⟩ := Prod.mk.inj (Option.some.inj hs)
      exact hcommit.newBuffer hknown hcleared (Function.update_self ..) rfl
    · rw [if_neg hbuf] at hs
      obtain ⟨rfl, rfl⟩ := Prod.mk.inj (Option.some.inj hs)
      exact hcommit.add ⟨_, Function.update_self .., rfl⟩

theorem Marshalled.finalize {s s' : State O J B} {h o : List (Event O J B)}
    (hM : Marshalled s h) {j : J} (hs : s.finalize j = some (s', o)) : Marshalled s' (h ++ o) := by
  unfold State.finalize at hs
  split at hs
  next => cases hs
  next ob hj =>
    split_ifs at hs with hguard
    obtain ⟨rfl, rfl⟩ := Prod.mk.inj (Option.some.inj hs)
    refine (hM.evolve ?_).add trivial
    refine Evolves.of_status .enqueued ?_ hj ?_ rfl rfl rfl ?_
    · exact id
    · rfl
    · intro _ b hb
      exact hguard.2 (HashMap.mem_values_of_find hb)

theorem Marshalled.erase {s s' : State O J B} {h o : List (Event O J B)} (hI : Inv s h)
    (hM : Marshalled s h) (hs : s.erase = some (s', o)) : Marshalled s' (h ++ o) := by
  unfold State.erase at hs
  split at hs
  next => cases hs
  next batches hb =>
    obtain ⟨rfl, rfl⟩ := Prod.mk.inj (Option.some.inj hs)
    rw [List.append_nil]
    exact hM.evolve (.of_eq id rfl rfl rfl rfl)
  next q qs batches hb =>
    obtain ⟨ob, hj, hstatus, -⟩ := hI.pending q (by simp [State.pending, hb])
    have hunmapped : ob.status = .alive → ∀ b, valueOf s.nativeMappings b ≠ some q.object := by
      rw [hstatus]
      intro h
      cases h
    obtain ⟨rfl, rfl⟩ := Prod.mk.inj (Option.some.inj hs)
    have hobjects : Function.update s.objects q.object
        ((s.objects q.object).map fun o => { o with status := .drained }) =
        Function.update s.objects q.object (some { ob with status := .drained }) := by
      rw [hj, Option.map_some]
    refine (hM.evolve ?_).add trivial
    unfold State.stashErase
    split_ifs
    · refine Evolves.of_status .drained ?_ hj hobjects rfl rfl rfl hunmapped
      intro hnull
      dsimp only
      by_cases h0 : 0 = q.pointer
      · rw [h0, Function.update_self]
      · rw [Function.update_of_ne h0, hnull]
    · exact Evolves.of_status .drained id hj hobjects rfl rfl rfl hunmapped

omit [DecidableEq J] in
theorem Marshalled.passBack {s s' : State O J B} {h o : List (Event O J B)} (hI : Inv s h)
    (hM : Marshalled s h) {x : Handle J B} {fresh : Val O}
    (hfresh : ∀ b, x = .byteBuffer b → Fresh s.buffers s.nativeMappings b)
    (hs : s.passBack x fresh = some (s', o)) : Marshalled s' (h ++ o) := by
  unfold State.passBack at hs
  cases x with
  | other =>
    obtain ⟨rfl, rfl⟩ := Prod.mk.inj (Option.some.inj hs)
    exact hM.add trivial
  | javaScriptObject j =>
    dsimp only at hs
    split_ifs at hs with halive
    obtain ⟨ob, hj, halive⟩ := Option.any_eq_true _ _ |>.mp halive
    have hstatus : ob.status = .alive := by simpa using halive
    rw [pushTwin_eq hI hM.null hj (by rw [hstatus]; decide)] at hs
    obtain ⟨rfl, rfl⟩ := Prod.mk.inj (Option.some.inj hs)
    exact hM.add ⟨ob, hj, rfl⟩
  | byteBuffer b =>
    dsimp only at hs
    split_ifs at hs with hheld
    obtain ⟨hknown, hlive⟩ := hheld
    obtain ⟨v, hv⟩ := (hM.bufferKnown b).mp hknown
    obtain ⟨j, ob, hmap, hj, hval, hstatus⟩ := hM.buffer v b hv hlive
    rw [get_of_fresh hlive (hfresh b rfl), hmap] at hs
    dsimp only at hs
    rw [pushTwin_eq hI hM.null hj (by rw [hstatus]; decide), hval] at hs
    obtain ⟨rfl, rfl⟩ := Prod.mk.inj (Option.some.inj hs)
    -- the lookup may have purged entries of buffers that are gone
    have hpurged : Marshalled { s with
        nativeMappings := s.nativeMappings.maybePurge s.buffers } h := by
      apply hM.evolve
      exact ⟨id, fun j o hj => ⟨o, hj, rfl⟩, fun _ hb => hb, fun _ hb => valueOf_maybePurge hb,
        fun _ j o _ hj ho => ⟨o, hj, rfl, ho⟩, rfl, fun _ he => mem_keys_maybePurge he⟩
    exact hpurged.add hv

variable [DecidableEq O]

/-- The condition on a step. -/
def Faithful (s : State O J B) : Action O R J B → Prop
  | .toObject rd n v _ _ => Bare rd n v
  | .finishToObject h n byteBuffer =>
    ∀ f ∈ s.frames.head?, f.value.isBuffer h n = true → byteBuffer.isSome = true
  | .passBack (.byteBuffer b) _ => Fresh s.buffers s.nativeMappings b
  | _ => True

instance (s : State O J B) (a : Action O R J B) : Decidable (Faithful s a) := by
  unfold Faithful
  split <;> infer_instance

/-- **A faithful step keeps every Java object at its value.** -/
theorem Marshalled.step {s s' : State O J B} {h o : List (Event O J B)} (hI : Inv s h)
    (hM : Marshalled s h) {a : Action O R J B} (ha : Faithful s a)
    (hs : s.step a = some (s', o)) : Marshalled s' (h ++ o) := by
  cases a with
  | toObject rd n v j p => exact hM.toObject ha hs
  | finishToObject heap n byteBuffer => exact hM.finishToObject hI ha hs
  | finalize j => exact hM.finalize hs
  | drain =>
    obtain ⟨rfl, rfl⟩ := Prod.mk.inj (Option.some.inj hs)
    rw [List.append_nil]
    apply hM.evolve
    unfold State.drain
    split_ifs <;> exact .of_eq id rfl rfl rfl rfl
  | erase => exact hM.erase hI hs
  | passBack x fresh =>
    refine hM.passBack hI ?_ hs
    rintro b rfl
    exact ha
  | mutate b hash =>
    obtain ⟨rfl, rfl⟩ := Prod.mk.inj (Option.some.inj hs)
    rw [List.append_nil]
    apply hM.evolve
    exact ⟨id, fun j o hj => ⟨o, hj, rfl⟩, fun _ hb => hb, fun _ _ => rfl,
      fun _ j o _ hj ho => ⟨o, hj, rfl, ho⟩, rfl, fun _ he => he⟩
  | collect b =>
    obtain ⟨rfl, rfl⟩ := Prod.mk.inj (Option.some.inj hs)
    rw [List.append_nil]
    apply hM.evolve
    refine ⟨id, fun j o hj => ⟨o, hj, rfl⟩, ?_, fun _ _ => rfl,
      fun _ j o _ hj ho => ⟨o, hj, rfl, ho⟩, rfl, fun _ he => he⟩
    intro b' hb'
    dsimp only at hb'
    by_cases hne : b' = b
    · rw [hne, Function.update_self] at hb'
      cases hb'
    · rwa [Function.update_of_ne hne] at hb'

omit [DecidableEq O] [DecidableEq J] in
theorem marshalled_init (buffers : WeakMap.Heap B) :
    Marshalled ({ buffers := buffers } : State O J B) [] := by
  constructor <;> simp

/-- **The round trip over every run of faithful steps.** -/
theorem roundTrip_of_faithful {buffers : WeakMap.Heap B} {as : List (Action O R J B)}
    {r : State O J B × List (Event O J B)}
    (hf : (machine R buffers).Meets Faithful (machine R buffers).init as)
    (hr : (machine R buffers).run (machine R buffers).init as = some r) : RoundTrip r.2 := by
  have h := (machine R buffers).run_history (P := Faithful)
    (I := fun s h => Inv s h ∧ Marshalled s h)
    (fun _ _ _ _ _ hI hP hs => ⟨hI.1.step hs, hI.2.step hI.1 hP hs⟩) as _ [] r
    ⟨inv_init buffers, marshalled_init buffers⟩ hf hr
  exact h.2.roundTrip

end JSEngine.QuickJS
