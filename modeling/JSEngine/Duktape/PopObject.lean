import JSEngine.Common.Lookup

/-!
# `DuktapeContext::popObject`

`popObject` looks for a Java object behind a script object in two places (lines
283–324). A proxy for a Java object answers the plain key `__javascript_this`
with the global reference that `pushObject` stored on its target (lines
715–735); the key is a property like any other, so every script object can have
it, inherit it, or answer it from a trap. If it is absent, the hidden key
`java_this` is read, under which the bridge keeps a weak reference to the
`JavaScriptObject` of the object. The script cannot name a hidden key, and a
`Proxy` does not trap it: the read goes to the target (duktape.c:54675–54696).

Every pointer that is taken for a Java reference is recorded.

* `recognise_genuine_iff`: all of them are genuine exactly for the objects that
  are `Unforged`.
-/

namespace JSEngine.Duktape

open JSEngine.Common

/-- What a trap or a getter of the script does when it is asked for
    `__javascript_this`, or the value it stored there: a pointer value (null is
    0), another value, or an exception. -/
inductive Reply where
  | pointer (a : ℕ)
  | other
  | throws
  deriving DecidableEq, Repr

/-- A property `__javascript_this`: put by `pushObject`, or by the script. -/
inductive Slot (R : Type*) where
  | stored (r : R)
  | script (reply : Reply)
  deriving DecidableEq

/-- The traps of a handler for this key; a `has` trap that throws is `none`. -/
structure Handler where
  has : Option (Option Bool) := none
  get : Option Reply := none

/-- An object, as the bridge's reads see it. A proxy made by `__makeProxy` has a
    function as its target; its traps read from the object in the property
    `target` of the function, where reading starts at nothing for undefined. -/
inductive Kind (O : Type*) where
  | ordinary
  | buffer
  | proxy (target : O) (handler : Handler)
  | javaProxy (function : O) (target : Option O)

/-- `duk_is_buffer_data`. -/
def Kind.isBuffer {O : Type*} : Kind O → Bool
  | .buffer => true
  | _ => false

/-- The target of either kind of `Proxy`. -/
def Kind.proxied {O : Type*} : Kind O → Option O
  | .proxy target _ => some target
  | .javaProxy function _ => some function
  | _ => none

/-- The part of the heap that the script makes. -/
structure Script (O R : Type*) where
  kind : O → Kind O
  javascriptThis : O → Option (Slot R)
  prototype : O → Option O
  /-- A `Proxy` is rejected as the target of another (duktape.c:23119–23127). -/
  notNested : ∀ o t, (kind o).proxied = some t → (kind t).proxied = none

/-- Plain objects without a prototype. -/
def Script.plain : Script ℕ ℕ where
  kind _ := .ordinary
  javascriptThis _ := none
  prototype _ := none
  notNested _ _ h := nomatch h

/-- The object on which a hidden property of `o` is stored. -/
def Script.home {O R : Type*} (s : Script O R) (o : O) : O := (s.kind o).proxied.getD o

/-- The reference that `popObject` finds: a global one, a weak one, or an address
    of the script's choice. -/
inductive Pointer (R W : Type*) where
  | global (r : R)
  | weak (w : W)
  | raw (a : ℕ)
  deriving DecidableEq

variable {O R W : Type*}

/-- `duk_get_pointer`: null for everything that is not a pointer. -/
def Slot.pointer : Slot R → Option (Pointer R W)
  | .stored r => some (.global r)
  | .script (.pointer a) => if a = 0 then none else some (.raw a)
  | .script _ => none

theorem Slot.bind_pointer_ne_weak (slot : Option (Slot R)) (w : W) :
    slot.bind Slot.pointer ≠ some (.weak w) := by
  rcases slot with - | r | reply
  · simp
  · simp [Slot.pointer]
  · cases reply with
    | pointer a =>
      simp only [Option.bind_some, Slot.pointer]
      split_ifs <;> simp
    | _ => simp [Slot.pointer]

/-- `duk_require_pointer` and the test for null in the `get` trap (lines
    467–479). -/
def requirePointer : Option (Slot R) → Option (Slot R)
  | some (.stored r) => some (.stored r)
  | some (.script (.pointer a)) => some (.script (if a = 0 then .throws else .pointer a))
  | _ => some (.script .throws)

/-- One object of `duk_has_prop_string` for `__javascript_this`. -/
def hasHop (s : Script O R) (o : O) : Hop O (Option Bool) :=
  match s.kind o with
  | .proxy target handler =>
    match handler.has with
    | some reply => .stop reply
    | none => .next target
  | .javaProxy _ _ => .stop (some true)
  | _ =>
    if (s.javascriptThis o).isSome then .stop (some true)
    else
      match s.prototype o with
      | some p => .next p
      | none => .stop (some false)

/-- One object of `duk_get_prop_string` for `__javascript_this`. The flag tells
    that the read was made by the `get` trap of a proxy for a Java object. -/
def getHop (s : Script O R) : O × Bool → Hop (O × Bool) (Option (Slot R))
  | (o, required) =>
    let answer := fun x => Hop.stop (if required then requirePointer x else x)
    match s.kind o with
    | .proxy target handler =>
      match handler.get with
      | some reply => answer (some (.script reply))
      | none => .next (target, required)
    | .javaProxy _ target =>
      match target with
      | some t => .next (t, true)
      | none => .stop (some (.script .throws))
    | _ =>
      match s.javascriptThis o with
      | some x => answer (some x)
      | none =>
        match s.prototype o with
        | some p => .next (p, required)
        | none => answer none

/-- One object of a read of the hidden key: the own property, or the target of a
    proxy, or the prototype. The outer `none` is the engine's error for a
    prototype chain that is too long. -/
def hiddenHop (s : Script O R) (hidden : O → Option W) (o : O) : Hop O (Option (Option W)) :=
  match s.kind o with
  | .proxy target _ => .next target
  | .javaProxy function _ => .next function
  | _ =>
    match hidden o with
    | some w => .stop (some (some w))
    | none =>
      match s.prototype o with
      | some p => .next p
      | none => .stop (some none)

/-- A read of a hidden key stops at the object where the property is stored. -/
theorem follow_hiddenHop_of_home {s : Script O R} {hidden : O → Option W} {o : O} {w : W}
    (hw : hidden (s.home o) = some w) (n : ℕ) :
    Hop.follow (hiddenHop s hidden) none n o = none ∨
      Hop.follow (hiddenHop s hidden) none n o = some (some w) := by
  have hstop : ∀ x, (s.kind x).proxied = none → hidden x = some w →
      hiddenHop s hidden x = .stop (some (some w)) := by
    intro x hx hxw
    unfold hiddenHop
    cases hk : s.kind x with
    | proxy target handler =>
      rw [hk] at hx
      cases hx
    | javaProxy function target =>
      rw [hk] at hx
      cases hx
    | _ =>
      dsimp only
      rw [hxw]
  have hnext : ∀ t, (s.kind o).proxied = some t → hiddenHop s hidden o = .next t := by
    intro t ht
    unfold hiddenHop
    cases hk : s.kind o with
    | ordinary =>
      rw [hk] at ht
      cases ht
    | buffer =>
      rw [hk] at ht
      cases ht
    | _ =>
      rw [hk] at ht
      rw [← Option.some.inj ht]
  cases n with
  | zero => exact .inl rfl
  | succ n =>
    cases ho : (s.kind o).proxied with
    | none =>
      have hw : hidden o = some w := by rwa [Script.home, ho] at hw
      right
      rw [Hop.follow, hstop o ho hw]
    | some t =>
      have hw : hidden t = some w := by rwa [Script.home, ho] at hw
      rw [Hop.follow, hnext t ho]
      cases n with
      | zero => exact .inl rfl
      | succ n =>
        right
        dsimp only
        rw [Hop.follow, hstop t (s.notNested o t ho) hw]

/-- What a read of a hidden key finds is stored on some object. -/
theorem hidden_of_follow {s : Script O R} {hidden : O → Option W} {o : O} {w : W} {n : ℕ}
    (hw : Hop.follow (hiddenHop s hidden) none n o = some (some w)) :
    ∃ x, hidden x = some w := by
  rcases Hop.follow_cases (hiddenHop s hidden) none n o with ⟨k, -, hk⟩ | hk
  · rw [hw] at hk
    obtain ⟨x, -, hx⟩ := Hop.exists_trail_of_stopsAfter hk
    refine ⟨x, ?_⟩
    unfold hiddenHop at hx
    split at hx
    next => cases hx
    next => cases hx
    next =>
      split at hx
      next w' hw' => rw [hw', Option.some.inj (Option.some.inj (Hop.stop.inj hx))]
      next => split at hx <;> simp at hx
  · rw [hw] at hk
    cases hk

/-- The heaps that the reads of one call see: traps of the script run between
    the first two. -/
structure Reads (O R : Type*) where
  has : Script O R
  get : Script O R
  hidden : Script O R

/-- A call during which the script does not run. -/
def Reads.of (s : Script O R) : Reads O R := ⟨s, s, s⟩

/-- What `popObject` makes of an object. -/
inductive Recognised (R W : Type*) where
  | copied
  | thrown
  | existing (p : Pointer R W)
  /-- A new `JavaScriptObject`; first a reference to a dead one is deleted. -/
  | create (dead : Option (Pointer R W))
  deriving DecidableEq

/-- Lines 310–331: `IsSameObject(javaThis, nullptr)` of a pointer that is not
    null. -/
def javaThis (isNull : Pointer R W → Bool) : Option (Pointer R W) →
    Recognised R W × List (Pointer R W)
  | none => (.create none, [])
  | some p => if isNull p then (.create (some p), [p]) else (.existing p, [p])

/-- `popObject` for an object, lines 274–331, and the pointers it takes for Java
    references. -/
def recognise (rd : Reads O R) (hidden : O → Option W) (isNull : Pointer R W → Bool) (n : ℕ)
    (o : O) : Recognised R W × List (Pointer R W) :=
  if (rd.has.kind o).isBuffer then (.copied, [])
  else
    match Hop.follow (hasHop rd.has) none n o with
    | none => (.thrown, [])
    | some true =>
      match Hop.follow (getHop rd.get) (some (.script .throws)) n (o, false) with
      | some (.script .throws) => (.thrown, [])
      | slot => javaThis isNull (slot.bind Slot.pointer)
    | some false =>
      match Hop.follow (hiddenHop rd.hidden hidden) none n o with
      | none => (.thrown, [])
      | some w => javaThis isNull (w.map .weak)

/-- The property is a pointer of the script's choice. -/
def isRaw : Option (Slot R) → Bool
  | some (.script (.pointer a)) => a ≠ 0
  | _ => false

/-- The property is not a pointer: `popObject` goes on to make a new
    `JavaScriptObject`. -/
def isNoPointer : Option (Slot R) → Bool
  | none => true
  | some (.script (.pointer a)) => a = 0
  | some (.script .other) => true
  | _ => false

/-- The property is a pointer that is not null. -/
def isPointer : Option (Slot R) → Bool
  | some (.stored _) => true
  | slot => isRaw slot

theorem isPointer_of_pointer {slot : Option (Slot R)} {p : Pointer R W}
    (h : slot.bind Slot.pointer = some p) : isPointer slot = true := by
  rcases slot with - | r | reply
  · simp at h
  · rfl
  · cases reply with
    | pointer a =>
      simp only [Option.bind_some, Slot.pointer] at h
      split_ifs at h with ha
      simpa [isPointer, isRaw] using ha
    | _ => simp [Slot.pointer] at h

/-- When a new `JavaScriptObject` is made, no global reference being null: the
    key `__javascript_this` is visible without a pointer, or it is not and the
    hidden key leads to nothing or to a dead `JavaScriptObject`. -/
theorem recognise_create {rd : Reads O R} {hidden : O → Option W} {isNull : Pointer R W → Bool}
    {n : ℕ} {o : O} {dead : Option (Pointer R W)}
    (h : (recognise rd hidden isNull n o).1 = .create dead)
    (hglobal : ∀ r, isNull (.global r) = false)
    (hraw : (rd.has.kind o).isBuffer = false → Hop.follow (hasHop rd.has) none n o = some true →
      isRaw (Hop.follow (getHop rd.get) (some (.script .throws)) n (o, false)) = false) :
    (rd.has.kind o).isBuffer = false ∧
      (Hop.follow (hasHop rd.has) none n o = some true ∧ dead = none ∧
          isNoPointer (Hop.follow (getHop rd.get) (some (.script .throws)) n (o, false)) = true ∨
        Hop.follow (hasHop rd.has) none n o = some false ∧
          (dead = none ∧ Hop.follow (hiddenHop rd.hidden hidden) none n o = some none ∨
            ∃ w, dead = some (.weak w) ∧ isNull (.weak w) = true ∧
              Hop.follow (hiddenHop rd.hidden hidden) none n o = some (some w))) := by
  unfold recognise at h
  split_ifs at h with hbuf
  rw [Bool.not_eq_true] at hbuf
  refine ⟨hbuf, ?_⟩
  cases hx : Hop.follow (hasHop rd.has) none n o with
  | none => simp [hx] at h
  | some b =>
    rw [hx] at h
    cases b with
    | true =>
      left
      have hraw := hraw hbuf hx
      dsimp only at h
      generalize Hop.follow (getHop rd.get) (some (.script .throws)) n (o, false) = slot at h hraw ⊢
      cases slot with
      | none => simpa [javaThis, isNoPointer, eq_comm] using h
      | some slot =>
        cases slot with
        | stored r => simp [javaThis, Slot.pointer, hglobal] at h
        | script reply =>
          cases reply with
          | pointer a =>
            have ha : a = 0 := by simpa [isRaw] using hraw
            simpa [javaThis, Slot.pointer, isNoPointer, ha, eq_comm] using h
          | other => simpa [javaThis, Slot.pointer, isNoPointer, eq_comm] using h
          | throws => simp at h
    | false =>
      right
      refine ⟨rfl, ?_⟩
      dsimp only at h
      cases hw : Hop.follow (hiddenHop rd.hidden hidden) none n o with
      | none => simp [hw] at h
      | some w =>
        rw [hw] at h
        cases w with
        | none =>
          left
          exact ⟨by simpa [javaThis, eq_comm] using h, rfl⟩
        | some w =>
          right
          by_cases hnull : isNull (.weak w) = true
          · exact ⟨w, by simpa [javaThis, hnull, eq_comm] using h, hnull, rfl⟩
          · simp [javaThis, hnull] at h

/-- Where a Java object is recognised: `__javascript_this` is a pointer, or it is
    not visible and the hidden key leads to a live `JavaScriptObject`. -/
theorem recognise_existing {rd : Reads O R} {hidden : O → Option W}
    {isNull : Pointer R W → Bool} {n : ℕ} {o : O} {p : Pointer R W}
    (h : (recognise rd hidden isNull n o).1 = .existing p) :
    (rd.has.kind o).isBuffer = false ∧
      (Hop.follow (hasHop rd.has) none n o = some true ∧
          (Hop.follow (getHop rd.get) (some (.script .throws)) n (o, false)).bind Slot.pointer =
            some p ∨
        Hop.follow (hasHop rd.has) none n o = some false ∧ ∃ w, p = .weak w ∧
          Hop.follow (hiddenHop rd.hidden hidden) none n o = some (some w)) := by
  have hthis : ∀ q : Option (Pointer R W), (javaThis isNull q).1 = .existing p → q = some p := by
    intro q hq
    cases q with
    | none => cases hq
    | some q =>
      dsimp only [javaThis] at hq
      split_ifs at hq
      rw [Recognised.existing.inj hq]
  unfold recognise at h
  split_ifs at h with hbuf
  refine ⟨by simpa using hbuf, ?_⟩
  cases hx : Hop.follow (hasHop rd.has) none n o with
  | none => simp [hx] at h
  | some b =>
    rw [hx] at h
    cases b with
    | true =>
      left
      refine ⟨rfl, ?_⟩
      dsimp only at h
      split at h
      next => cases h
      next => exact hthis _ h
    | false =>
      right
      refine ⟨rfl, ?_⟩
      dsimp only at h
      cases hw : Hop.follow (hiddenHop rd.hidden hidden) none n o with
      | none => simp [hw] at h
      | some w =>
        rw [hw] at h
        cases w with
        | none => simpa using hthis _ h
        | some w => exact ⟨w, by simpa [eq_comm] using hthis _ h, rfl⟩

/-! ## Conditions on the chains -/

theorem endsIn_has_iff {s : Script O R} {b : Bool} {n : ℕ} {o : O} :
    Hop.EndsIn (hasHop s) (· = some b) n o ↔ Hop.follow (hasHop s) none n o = some b :=
  (Hop.follow_iff (P := (· = some b)) (by simp) n o).symm

theorem endsIn_get_iff {s : Script O R} {P : Option (Slot R) → Prop}
    (hP : ¬P (some (.script .throws))) {n : ℕ} {x : O × Bool} :
    Hop.EndsIn (getHop s) P n x ↔ P (Hop.follow (getHop s) (some (.script .throws)) n x) :=
  (Hop.follow_iff hP n x).symm

theorem endsIn_hidden_iff {s : Script O R} {hidden : O → Option W}
    {P : Option (Option W) → Prop} (hP : ¬P none) {n : ℕ} {o : O} :
    Hop.EndsIn (hiddenHop s hidden) P n o ↔ P (Hop.follow (hiddenHop s hidden) none n o) :=
  (Hop.follow_iff hP n o).symm

/-! ## Genuine references -/

/-- The references that JNI knows: global ones that are not deleted, and weak
    ones, the object of which may be dead. -/
structure References (R W : Type*) where
  global : R → Bool
  weak : W → Bool

/-- The bridge has stored the pointer, and it has not been deleted since. -/
def Genuine (refs : References R W) : Pointer R W → Prop
  | .global r => refs.global r = true
  | .weak w => refs.weak w = true
  | .raw _ => False

/-- A property from which `popObject` takes a pointer that is not genuine. -/
def Forged (refs : References R W) (slot : Option (Slot R)) : Prop :=
  ∃ p : Pointer R W, slot.bind Slot.pointer = some p ∧ ¬Genuine refs p

/-- The hidden property holds a reference that has been deleted. -/
def Stale (refs : References R W) (x : Option (Option W)) : Prop :=
  ∃ w, x = some (some w) ∧ refs.weak w = false

/-- The objects of which `popObject` takes nothing forged. Buffers are copied;
    of another object, where the key
    `__javascript_this` is visible, its chain does not end in a pointer of the
    script or in a deleted reference, and where it is not, the chain of the hidden
    key does not end in a deleted reference. -/
structure Unforged (rd : Reads O R) (hidden : O → Option W) (refs : References R W) (n : ℕ)
    (o : O) : Prop where
  javascriptThis : (rd.has.kind o).isBuffer = false →
    Hop.EndsIn (hasHop rd.has) (· = some true) n o →
    ¬Hop.EndsIn (getHop rd.get) (Forged refs) n (o, false)
  javaThis : (rd.has.kind o).isBuffer = false →
    Hop.EndsIn (hasHop rd.has) (· = some false) n o →
    ¬Hop.EndsIn (hiddenHop rd.hidden hidden) (Stale refs) n o

theorem javaThis_genuine_iff {refs : References R W} {isNull : Pointer R W → Bool}
    {p : Option (Pointer R W)} :
    (∀ q ∈ (javaThis isNull p).2, Genuine refs q) ↔ ∀ q, p = some q → Genuine refs q := by
  cases p with
  | none => simp [javaThis]
  | some p =>
    dsimp only [javaThis]
    split_ifs <;> simp

/-- A key that is visible: the uses are those of the property found. -/
theorem get_genuine_iff {refs : References R W} {isNull : Pointer R W → Bool}
    {slot : Option (Slot R)} :
    (∀ p ∈ (match slot with
      | some (.script .throws) => ((.thrown, []) : Recognised R W × List (Pointer R W))
      | slot => javaThis isNull (slot.bind Slot.pointer)).2, Genuine refs p) ↔
      ¬Forged refs slot := by
  unfold Forged
  split
  next => simp [Slot.pointer]
  next =>
    simp only [javaThis_genuine_iff, not_exists, not_and, not_not]

/-- **What `popObject` takes for a Java reference is genuine exactly for
    unforged objects.** -/
theorem recognise_genuine_iff {rd : Reads O R} {hidden : O → Option W}
    {isNull : Pointer R W → Bool} {refs : References R W} {n : ℕ} {o : O} :
    (∀ p ∈ (recognise rd hidden isNull n o).2, Genuine refs p) ↔
      Unforged rd hidden refs n o := by
  unfold recognise
  cases hbuf : (rd.has.kind o).isBuffer with
  | true =>
    rw [if_pos rfl]
    exact iff_of_true (by simp) ⟨by simp [hbuf], by simp [hbuf]⟩
  | false =>
    rw [if_neg (by simp)]
    have hiff : Unforged rd hidden refs n o ↔
        (Hop.follow (hasHop rd.has) none n o = some true →
          ¬Forged refs (Hop.follow (getHop rd.get) (some (.script .throws)) n (o, false))) ∧
        (Hop.follow (hasHop rd.has) none n o = some false →
          ¬Stale refs (Hop.follow (hiddenHop rd.hidden hidden) none n o)) := by
      rw [← endsIn_has_iff, ← endsIn_has_iff,
        ← endsIn_get_iff (P := Forged refs) (by simp [Forged, Slot.pointer]),
        ← endsIn_hidden_iff (P := Stale refs) (by simp [Stale])]
      exact ⟨fun h => ⟨h.1 hbuf, h.2 hbuf⟩, fun h => ⟨fun _ => h.1, fun _ => h.2⟩⟩
    rw [hiff]
    cases hx : Hop.follow (hasHop rd.has) none n o with
    | none => simp
    | some b =>
      cases b with
      | true =>
        simp only [true_implies, Option.some.injEq, Bool.true_eq_false, false_implies, and_true]
        exact get_genuine_iff
      | false =>
        simp only [true_implies, Option.some.injEq, Bool.false_eq_true, false_implies, true_and]
        cases hw : Hop.follow (hiddenHop rd.hidden hidden) none n o with
        | none => simp [Stale]
        | some w =>
          dsimp only
          rw [javaThis_genuine_iff]
          cases w <;> simp [Stale, Genuine]

end JSEngine.Duktape
