import JSEngine.Members.Resolve

/-!
# The member memos against fresh searches

`resolveAll` runs any sequence of `get` and `set` calls on the shared memos.
Between the lookups of one call no user code runs, so calls nested in a
coercion, a getter or a map are calls of the sequence too.

* `resolve_field`, `resolve_getter`, `resolve_method`: what one call asks each memo;
* `lookups_fresh_iff`: every answer of a sequence is that of a fresh search for
  its own target exactly where targets with one key agree on the members the
  key leaves out;
* `class_targets_share_entries`: two `Class` objects with a static field of one
  name.
-/

namespace JSEngine.Members

open JSEngine.Java JSEngine.Memo JSEngine.Common

variable {V : Type*} (w : Reflection)

/-! ## Keys and values of the lookups of a call -/

/-- The field a fresh search chooses for the call's own target. -/
def fieldOf (c : Call V) : JRef Field := searchField w c.key c.target

/-- The getter a fresh search chooses. -/
def getterOf (c : Call V) : JRef Method := searchGetter c.key (w.getMethods c.target.getClass)

/-- The has-a-method answer of a fresh search. -/
def methodOf (c : Call V) : JRef Bool := some (searchMethod w c.key c.target)

def fieldKey (c : Call V) : Args Obj := fieldArgs w c.key c.target.getClass

def methodKey (c : Call V) : Args Obj := methodArgs w c.key c.target.getClass

/-- The call asks `findField`. -/
def asksField : Call V → Bool
  | .get key t =>
    (t.getMap key).isNone && !w.isProxyClass t.getClass && !isArrayLength w key t
  | .set _ _ => true

/-- The call asks for a method, if the lookups before it are answered by fresh
    searches. -/
def asksMethod : Call V → Bool
  | .get key t =>
    (t.getMap key).isNone &&
      (w.isProxyClass t.getClass ||
        (!isArrayLength w key t && (searchField w key t).isNone)) &&
      (searchGetter key (w.getMethods t.getClass)).isNone
  | .set _ _ => false

/-! ## One call -/

section Step

variable (s : Stores) (key : JString) (t : Target V) (field : Option (JRef Field))

/-- `getMember` leaves the field memo alone. -/
theorem getMember_field :
    (getMember w s key t field).1.field = field ∧
      (getMember w s key t field).2.javaObjectFields = s.javaObjectFields := by
  unfold getMember
  dsimp only
  split
  · exact ⟨rfl, rfl⟩
  · split <;> exact ⟨rfl, rfl⟩

theorem getMember_getter :
    (getMember w s key t field).2.javaObjectGetter =
      (memoizeHash s.javaObjectGetter (searchGetter key (w.getMethods t.getClass))
        (methodArgs w key t.getClass).hash).2 := by
  unfold getMember
  dsimp only
  split
  · rfl
  · split <;> rfl

/-- The has-a-method memo is asked where the getter's answer is null. -/
theorem getMember_method {s₀ : Stores} (hgs : s.javaObjectGetter = s₀.javaObjectGetter)
    (hms : s.javaObjectMethods = s₀.javaObjectMethods) {g : JRef Method}
    (hg : (memoizeHash s₀.javaObjectGetter (searchGetter key (w.getMethods t.getClass))
      (methodArgs w key t.getClass).hash).1 = g) :
    (getMember w s key t field).1.method =
        (if g.isNone then
          some (memoizeHash s₀.javaObjectMethods (some (searchMethod w key t))
            (methodArgs w key t.getClass).hash).1 else none) ∧
      (getMember w s key t field).2.javaObjectMethods =
        (if g.isNone then
          (memoizeHash s₀.javaObjectMethods (some (searchMethod w key t))
            (methodArgs w key t.getClass).hash).2 else s₀.javaObjectMethods) := by
  have hg' : (getGetterMethod w s key t.getClass).1 = g := by
    rw [← hg, ← hgs]
    rfl
  rw [← hms]
  unfold getMember
  dsimp only
  rw [hg']
  cases g with
  | some m => exact ⟨rfl, rfl⟩
  | none =>
    dsimp only
    have hm : (memoHasMethod w (getGetterMethod w s key t.getClass).2 key t).1 =
        (memoizeHash s.javaObjectMethods (some (searchMethod w key t))
          (methodArgs w key t.getClass).hash).1 := rfl
    rw [hm]
    split <;> exact ⟨by simp [*], rfl⟩

/-- `get` where the target is not a map with an entry for the key. -/
theorem get_of_noEntry (hmap : t.getMap key = none) :
    get w s key t =
      if w.isProxyClass t.getClass then getMember w s key t none
      else if isArrayLength w key t then ({ access := .length }, s)
      else
        match (findField w s key t).1 with
        | some field =>
          ({ access := .field field, field := some (some field) }, (findField w s key t).2)
        | none => getMember w (findField w s key t).2 key t (some none) := by
  unfold get
  rw [hmap]
  dsimp only
  cases (findField w s key t).1 <;> rfl

theorem get_of_entry {v : V} (hmap : t.getMap key = some v) :
    get w s key t = ({ access := .value v }, s) := by
  unfold get
  rw [hmap]

end Step

/-- What a call asks `findField`. -/
theorem resolve_field (s : Stores) (c : Call V) :
    (resolve w s c).1.field =
        (if asksField w c then
          some (memoizeHash s.javaObjectFields (fieldOf w c) (fieldKey w c).hash).1 else none) ∧
      (resolve w s c).2.javaObjectFields =
        (if asksField w c then
          (memoizeHash s.javaObjectFields (fieldOf w c) (fieldKey w c).hash).2
          else s.javaObjectFields) := by
  cases c with
  | get key t =>
    show (get w s key t).1.field = _ ∧ (get w s key t).2.javaObjectFields = _
    rcases hmap : t.getMap key with _ | v
    · rw [get_of_noEntry w s key t hmap]
      by_cases hp : w.isProxyClass t.getClass = true
      · simp [asksField, hmap, hp, getMember_field]
      · by_cases hl : isArrayLength w key t = true
        · simp [asksField, hmap, hp, hl]
        · have hasks : asksField w (.get key t) = true := by simp [asksField, hmap, hp, hl]
          rw [if_neg hp, if_neg hl, if_pos hasks, if_pos hasks]
          have hf : (findField w s key t).1 = (memoizeHash s.javaObjectFields
            (fieldOf w (.get key t)) (fieldKey w (.get key t)).hash).1 := rfl
          rw [← hf]
          cases hfield : (findField w s key t).1 with
          | some f => exact ⟨rfl, rfl⟩
          | none => exact getMember_field w _ key t _
    · rw [get_of_entry w s key t hmap]
      simp [asksField, hmap]
  | set key t =>
    show (set w s key t).1.field = _ ∧ (set w s key t).2.javaObjectFields = _
    have hf : (findField w s key t).1 = (memoizeHash s.javaObjectFields
      (fieldOf w (.set key t)) (fieldKey w (.set key t)).hash).1 := rfl
    have hasks : asksField w (.set key t) = true := rfl
    rw [if_pos hasks, if_pos hasks, ← hf]
    unfold set
    dsimp only
    split
    · exact ⟨rfl, rfl⟩
    · split <;> exact ⟨rfl, rfl⟩

/-- The getter memo after a call: asked for the call's key, or not at all. -/
theorem resolve_getter (s : Stores) (c : Call V) :
    (resolve w s c).2.javaObjectGetter = s.javaObjectGetter ∨
      (resolve w s c).2.javaObjectGetter =
        (memoizeHash s.javaObjectGetter (getterOf w c) (methodKey w c).hash).2 := by
  cases c with
  | get key t =>
    show (get w s key t).2.javaObjectGetter = _ ∨ (get w s key t).2.javaObjectGetter = _
    rcases hmap : t.getMap key with _ | v
    · rw [get_of_noEntry w s key t hmap]
      by_cases hp : w.isProxyClass t.getClass = true
      · rw [if_pos hp, getMember_getter]
        exact Or.inr rfl
      · by_cases hl : isArrayLength w key t = true
        · rw [if_neg hp, if_pos hl]
          exact Or.inl rfl
        · rw [if_neg hp, if_neg hl]
          split
          · exact Or.inl rfl
          · rw [getMember_getter]
            exact Or.inr rfl
    · rw [get_of_entry w s key t hmap]
      exact Or.inl rfl
  | set key t =>
    left
    show (set w s key t).2.javaObjectGetter = _
    unfold set
    dsimp only
    split
    · rfl
    · split <;> rfl

/-- What a call asks the has-a-method memo, if `findField` and the getter memo
    answer it as fresh searches do. -/
theorem resolve_method (s : Stores) (c : Call V)
    (hf : asksField w c = true →
      (memoizeHash s.javaObjectFields (fieldOf w c) (fieldKey w c).hash).1 = fieldOf w c)
    (hg : (memoizeHash s.javaObjectGetter (getterOf w c) (methodKey w c).hash).1 = getterOf w c) :
    (resolve w s c).1.method =
        (if asksMethod w c then
          some (memoizeHash s.javaObjectMethods (methodOf w c) (methodKey w c).hash).1
          else none) ∧
      (resolve w s c).2.javaObjectMethods =
        (if asksMethod w c then
          (memoizeHash s.javaObjectMethods (methodOf w c) (methodKey w c).hash).2
          else s.javaObjectMethods) := by
  cases c with
  | get key t =>
    show (get w s key t).1.method = _ ∧ (get w s key t).2.javaObjectMethods = _
    rcases hmap : t.getMap key with _ | v
    · rw [get_of_noEntry w s key t hmap]
      by_cases hp : w.isProxyClass t.getClass = true
      · have hasks : asksMethod w (.get key t) = (getterOf w (.get key t)).isNone := by
          simp [asksMethod, getterOf, hmap, hp, Call.key, Call.target]
        rw [if_pos hp, hasks]
        exact getMember_method w s key t none rfl rfl hg
      · by_cases hl : isArrayLength w key t = true
        · simp [asksMethod, hmap, hp, hl]
        · rw [if_neg hp, if_neg hl]
          have hfind : (findField w s key t).1 = fieldOf w (.get key t) :=
            hf (by simp [asksField, hmap, hp, hl])
          rw [hfind]
          rcases hfield : fieldOf w (.get key t) with _ | f
          · have hsearch : searchField w key t = none := hfield
            have hasks : asksMethod w (.get key t) = (getterOf w (.get key t)).isNone := by
              simp [asksMethod, getterOf, hmap, hp, hl, hsearch, Call.key, Call.target]
            rw [hasks]
            exact getMember_method w _ key t _ rfl rfl hg
          · have hsearch : searchField w key t = some f := hfield
            simp [asksMethod, hmap, hp, hsearch, findField]
    · rw [get_of_entry w s key t hmap]
      simp [asksMethod, hmap]
  | set key t =>
    show (set w s key t).1.method = none ∧ (set w s key t).2.javaObjectMethods = _
    unfold set
    dsimp only
    split
    · exact ⟨rfl, rfl⟩
    · split <;> exact ⟨rfl, rfl⟩

/-! ## Sequences of calls -/

/-- `findField`, where the call asked it, gave the field of a fresh search. -/
def FieldFresh (c : Call V) (r : Resolution V) : Prop := ∀ f, r.field = some f → f = fieldOf w c

/-- The has-a-method answer, where the call asked for it, is that of a fresh
    search. -/
def MethodFresh (c : Call V) (r : Resolution V) : Prop :=
  ∀ m, r.method = some m → m = methodOf w c

/-- `findField` answers along a sequence as a cache filled by the calls does. -/
theorem fields_fresh_iff (cs : List (Call V)) (s : Stores) (t : Cache JInt (Call V))
    (hst : Holds (fieldOf w) s.javaObjectFields t) :
    (∀ p ∈ resolveAll w s cs, FieldFresh w p.1 p.2) ↔
      (Cache.serveAll (fun c => (fieldKey w c).hash) t (cs.filter (asksField w))).map (fieldOf w) =
        (cs.filter (asksField w)).map (fieldOf w) := by
  induction cs generalizing s t with
  | nil => simp [resolveAll, Cache.serveAll]
  | cons c cs ih =>
    obtain ⟨hfield, hstore⟩ := resolve_field w s c
    rw [resolveAll, List.forall_mem_cons]
    by_cases hasks : asksField w c = true
    · obtain ⟨hval, hnext⟩ := memoizeHash_serve (fun c => (fieldKey w c).hash) hst c
      rw [if_pos hasks] at hfield hstore
      rw [← hstore] at hnext
      rw [List.filter_cons_of_pos hasks, Cache.serveAll, List.map_cons, List.map_cons,
        List.cons.injEq, ih _ _ hnext]
      apply and_congr_left
      intro _
      show (∀ f, (resolve w s c).1.field = some f → f = fieldOf w c) ↔ _
      rw [hfield, hval]
      simp
    · rw [if_neg hasks] at hfield hstore
      rw [List.filter_cons_of_neg hasks, ih _ t (by rw [hstore]; exact hst)]
      apply and_iff_right
      intro f hf
      rw [hfield] at hf
      cases hf

/-- The same for the has-a-method memo, where `findField` is fresh and keys of
    one hash have one getter. `S` is the set of calls of the whole sequence. -/
theorem methods_fresh_iff {S : Call V → Prop}
    (hgetter : ∀ d, S d → ∀ c, S c → (methodKey w d).hash = (methodKey w c).hash →
      getterOf w d = getterOf w c)
    (cs : List (Call V)) (hS : ∀ c ∈ cs, S c) (s : Stores) (t g : Cache JInt (Call V))
    (hst : Holds (methodOf w) s.javaObjectMethods t)
    (hg : Holds (getterOf w) s.javaObjectGetter g)
    (hsound : Cache.Sound (fun c => (methodKey w c).hash) S g)
    (hfields : ∀ p ∈ resolveAll w s cs, FieldFresh w p.1 p.2) :
    (∀ p ∈ resolveAll w s cs, MethodFresh w p.1 p.2) ↔
      (Cache.serveAll (fun c => (methodKey w c).hash) t (cs.filter (asksMethod w))).map
          (methodOf w) =
        (cs.filter (asksMethod w)).map (methodOf w) := by
  induction cs generalizing s t g with
  | nil => simp [resolveAll, Cache.serveAll]
  | cons c cs ih =>
    rw [resolveAll, List.forall_mem_cons] at hfields
    obtain ⟨hfresh, hfields⟩ := hfields
    have hSc : S c := hS c (List.mem_cons_self ..)
    have hScs : ∀ d ∈ cs, S d := fun d hd => hS d (List.mem_cons_of_mem _ hd)
    obtain ⟨hgval, hgnext⟩ := memoizeHash_serve (fun c => (methodKey w c).hash) hg c
    have hgc : (memoizeHash s.javaObjectGetter (getterOf w c) (methodKey w c).hash).1 =
        getterOf w c := by
      rw [hgval]
      exact hsound.serve_value _ hgetter hSc
    have hfc : asksField w c = true →
        (memoizeHash s.javaObjectFields (fieldOf w c) (fieldKey w c).hash).1 = fieldOf w c := by
      intro hasks
      have h := (resolve_field w s c).1
      rw [if_pos hasks] at h
      exact hfresh _ h
    -- the getter memo of the next state is again a table filled by calls of `S`
    obtain ⟨g', hg', hsound'⟩ : ∃ g', Holds (getterOf w) (resolve w s c).2.javaObjectGetter g' ∧
        Cache.Sound (fun c => (methodKey w c).hash) S g' := by
      rcases resolve_getter w s c with h | h
      · exact ⟨g, by rw [h]; exact hg, hsound⟩
      · exact ⟨_, by rw [h]; exact hgnext, hsound.serve _ hSc⟩
    obtain ⟨hmethod, hstore⟩ := resolve_method w s c hfc hgc
    rw [resolveAll, List.forall_mem_cons]
    by_cases hasks : asksMethod w c = true
    · obtain ⟨hval, hnext⟩ := memoizeHash_serve (fun c => (methodKey w c).hash) hst c
      rw [if_pos hasks] at hmethod hstore
      rw [← hstore] at hnext
      rw [List.filter_cons_of_pos hasks, Cache.serveAll, List.map_cons, List.map_cons,
        List.cons.injEq, ih hScs _ _ g' hnext hg' hsound' hfields]
      apply and_congr_left
      intro _
      show (∀ m, (resolve w s c).1.method = some m → m = methodOf w c) ↔ _
      rw [hmethod, hval]
      simp
    · rw [if_neg hasks] at hmethod hstore
      rw [List.filter_cons_of_neg hasks,
        ih hScs _ t g' (by rw [hstore]; exact hst) hg' hsound' hfields]
      apply and_iff_right
      intro m hm
      rw [hmethod] at hm
      cases hm

/-- Among the calls, keys of one hash are equal. -/
structure NoCollisions (cs : List (Call V)) : Prop where
  fields : ∀ c ∈ cs, ∀ c' ∈ cs, (fieldKey w c).hash = (fieldKey w c').hash →
    fieldKey w c = fieldKey w c'
  methods : ∀ c ∈ cs, ∀ c' ∈ cs, (methodKey w c).hash = (methodKey w c').hash →
    methodKey w c = methodKey w c'

/-- Calls with one key agree on what the key leaves out: the static members of
    the class that the target is, where `target.getClass()` itself has no such
    member. -/
structure SharedKeysAgree (cs : List (Call V)) : Prop where
  fields : ∀ c ∈ cs, ∀ c' ∈ cs, asksField w c → asksField w c' → c.key = c'.key →
    w.getDeclaredFields c.target.getClass = w.getDeclaredFields c'.target.getClass →
    instanceField w c.key c.target.getClass = none →
    staticField w c.key c.target = staticField w c'.key c'.target
  methods : ∀ c ∈ cs, ∀ c' ∈ cs, asksMethod w c → asksMethod w c' → c.key = c'.key →
    w.getMethods c.target.getClass = w.getMethods c'.target.getClass →
    hasMethod w c.target.getClass c.key false = false →
    hasStaticMethod w c.key c.target = hasStaticMethod w c'.key c'.target

theorem fieldKey_eq_iff (c c' : Call V) :
    fieldKey w c = fieldKey w c' ↔
      c.key = c'.key ∧
        w.getDeclaredFields c.target.getClass = w.getDeclaredFields c'.target.getClass := by
  have hinj : Function.Injective fun f : Field => some (Obj.field f) := by
    intro f g hfg
    simpa using hfg
  simp [fieldKey, fieldArgs, hinj.list_map.eq_iff]

theorem methodKey_eq_iff (c c' : Call V) :
    methodKey w c = methodKey w c' ↔
      c.key = c'.key ∧ w.getMethods c.target.getClass = w.getMethods c'.target.getClass := by
  have hinj : Function.Injective fun m : Method => some (Obj.method m) := by
    intro m n hmn
    simpa using hmn
  simp [methodKey, methodArgs, hinj.list_map.eq_iff]

/-- Of two searches under one key, the first parts agree. -/
theorem fieldOf_eq_iff {c c' : Call V} (hk : fieldKey w c = fieldKey w c') :
    fieldOf w c = fieldOf w c' ↔
      (instanceField w c.key c.target.getClass = none →
        staticField w c.key c.target = staticField w c'.key c'.target) := by
  obtain ⟨hkey, hmem⟩ := (fieldKey_eq_iff w c c').mp hk
  have hinst : instanceField w c.key c.target.getClass =
      instanceField w c'.key c'.target.getClass := by
    unfold instanceField
    rw [hkey, hmem]
  unfold fieldOf searchField
  rw [← hinst]
  cases instanceField w c.key c.target.getClass with
  | none => simp
  | some f => simp

theorem methodOf_eq_iff {c c' : Call V} (hk : methodKey w c = methodKey w c') :
    methodOf w c = methodOf w c' ↔
      (hasMethod w c.target.getClass c.key false = false →
        hasStaticMethod w c.key c.target = hasStaticMethod w c'.key c'.target) := by
  obtain ⟨hkey, hmem⟩ := (methodKey_eq_iff w c c').mp hk
  have hinst : hasMethod w c.target.getClass c.key false =
      hasMethod w c'.target.getClass c'.key false := by
    unfold hasMethod
    rw [hkey, hmem]
  unfold methodOf searchMethod
  rw [← hinst]
  cases hasMethod w c.target.getClass c.key false with
  | false => simp
  | true => simp

theorem getterOf_eq {c c' : Call V} (hk : methodKey w c = methodKey w c') :
    getterOf w c = getterOf w c' := by
  obtain ⟨hkey, hmem⟩ := (methodKey_eq_iff w c c').mp hk
  unfold getterOf
  rw [hkey, hmem]

/-- The field answers of a sequence are fresh exactly where targets with one key
    agree. -/
theorem fields_fresh_iff_agree {cs : List (Call V)} (hn : NoCollisions w cs) :
    (∀ p ∈ resolveAll w {} cs, FieldFresh w p.1 p.2) ↔
      ∀ c ∈ cs, ∀ c' ∈ cs, asksField w c → asksField w c' → c.key = c'.key →
        w.getDeclaredFields c.target.getClass = w.getDeclaredFields c'.target.getClass →
        instanceField w c.key c.target.getClass = none →
        staticField w c.key c.target = staticField w c'.key c'.target := by
  rw [fields_fresh_iff w cs _ _ (holds_empty _), Cache.serveAll_map_eq_iff]
  constructor
  · intro h c hc c' hc' ha ha' hkey hmem
    have hk : fieldKey w c = fieldKey w c' := (fieldKey_eq_iff w c c').mpr ⟨hkey, hmem⟩
    exact (fieldOf_eq_iff w hk).mp
      (h c (List.mem_filter.mpr ⟨hc, ha⟩) c' (List.mem_filter.mpr ⟨hc', ha'⟩) (by rw [hk]))
  · intro h c hc c' hc' hh
    obtain ⟨hc, ha⟩ := List.mem_filter.mp hc
    obtain ⟨hc', ha'⟩ := List.mem_filter.mp hc'
    have hk : fieldKey w c = fieldKey w c' := hn.fields c hc c' hc' hh
    obtain ⟨hkey, hmem⟩ := (fieldKey_eq_iff w c c').mp hk
    exact (fieldOf_eq_iff w hk).mpr (h c hc c' hc' ha ha' hkey hmem)

/-- The same for the has-a-method answers, once the field answers are fresh. -/
theorem methods_fresh_iff_agree {cs : List (Call V)} (hn : NoCollisions w cs)
    (hfields : ∀ p ∈ resolveAll w {} cs, FieldFresh w p.1 p.2) :
    (∀ p ∈ resolveAll w {} cs, MethodFresh w p.1 p.2) ↔
      ∀ c ∈ cs, ∀ c' ∈ cs, asksMethod w c → asksMethod w c' → c.key = c'.key →
        w.getMethods c.target.getClass = w.getMethods c'.target.getClass →
        hasMethod w c.target.getClass c.key false = false →
        hasStaticMethod w c.key c.target = hasStaticMethod w c'.key c'.target := by
  have hgetter : ∀ d ∈ cs, ∀ c ∈ cs, (methodKey w d).hash = (methodKey w c).hash →
      getterOf w d = getterOf w c :=
    fun d hd c hc hh => getterOf_eq w (hn.methods d hd c hc hh)
  rw [methods_fresh_iff w hgetter cs (fun _ hc => hc) _ _ _ (holds_empty _) (holds_empty _)
    (Cache.sound_empty _ _) hfields, Cache.serveAll_map_eq_iff]
  constructor
  · intro h c hc c' hc' ha ha' hkey hmem
    have hk : methodKey w c = methodKey w c' := (methodKey_eq_iff w c c').mpr ⟨hkey, hmem⟩
    exact (methodOf_eq_iff w hk).mp
      (h c (List.mem_filter.mpr ⟨hc, ha⟩) c' (List.mem_filter.mpr ⟨hc', ha'⟩) (by rw [hk]))
  · intro h c hc c' hc' hh
    obtain ⟨hc, ha⟩ := List.mem_filter.mp hc
    obtain ⟨hc', ha'⟩ := List.mem_filter.mp hc'
    have hk : methodKey w c = methodKey w c' := hn.methods c hc c' hc' hh
    obtain ⟨hkey, hmem⟩ := (methodKey_eq_iff w c c').mp hk
    exact (methodOf_eq_iff w hk).mpr (h c hc c' hc' ha ha' hkey hmem)

/-- **Exactly when member resolution is independent of history.** Over a
    sequence of calls whose memo keys do not collide, every field `findField`
    chooses and every has-a-method answer is that of a fresh search for the
    call's own target, if and only if calls with one key agree on the static
    members of the classes their targets are. -/
theorem lookups_fresh_iff (cs : List (Call V)) (hn : NoCollisions w cs) :
    (∀ p ∈ resolveAll w {} cs, FieldFresh w p.1 p.2 ∧ MethodFresh w p.1 p.2) ↔
      SharedKeysAgree w cs := by
  constructor
  · intro h
    have hfields : ∀ p ∈ resolveAll w {} cs, FieldFresh w p.1 p.2 := fun p hp => (h p hp).1
    exact ⟨(fields_fresh_iff_agree w hn).mp hfields,
      (methods_fresh_iff_agree w hn hfields).mp fun p hp => (h p hp).2⟩
  · intro h
    have hfields := (fields_fresh_iff_agree w hn).mpr h.fields
    have hmethods := (methods_fresh_iff_agree w hn hfields).mpr h.methods
    exact fun p hp => ⟨hfields p hp, hmethods p hp⟩

/-- Targets that are not `Class` objects never disturb each other. -/
theorem sharedKeysAgree_of_objects {cs : List (Call V)}
    (h : ∀ c ∈ cs, c.target.asClass = none) : SharedKeysAgree w cs where
  fields c hc c' hc' _ _ _ _ _ := by simp [staticField, h c hc, h c' hc']
  methods c hc c' hc' _ _ _ _ _ := by simp [hasStaticMethod, h c hc, h c' hc']

/-! ## Two classes with a static member of one name -/

section Example

/-- `demo.A` and `demo.B`. -/
def demoA : Class := { name := jstr "demo.A" }
def demoB : Class := { name := jstr "demo.B" }

/-- `public static int VALUE` of the class `c`. -/
def valueField (c : Class) : Field :=
  { declaringClass := c, name := jstr "VALUE", type := { name := jstr "int" }, isStatic := true,
    isPublic := true }

/-- `public static` method `of` of the class `c`. -/
def ofMethod (c : Class) : Method :=
  { declaringClass := c, name := jstr "of", parameterTypes := [], returnType := c,
    isStatic := true }

/-- Both classes declare `VALUE`; only `demo.A` declares `of`. -/
def demo : Reflection where
  getDeclaredFields c := if c = demoA ∨ c = demoB then [valueField c] else []
  getMethods c := if c = demoA then [ofMethod c] else []

/-- A read of the property `key` of the `Class` object `c`. -/
def readOf (key : String) (c : Class) : Call ℕ := .get (jstr key) { referent := .clazz c }

/-- Reads of different names of the two classes, and of one name twice. -/
theorem lookups_fresh_demo :
    let calls := [readOf "VALUE" demoA, readOf "of" demoB, readOf "VALUE" demoA]
    (resolveAll demo {} calls).map (fun p => (p.2.field, p.2.method)) =
        [(some (some (valueField demoA)), none), (some none, some (some false)),
          (some (some (valueField demoA)), none)] ∧
      ∀ p ∈ resolveAll demo {} calls, FieldFresh demo p.1 p.2 ∧ MethodFresh demo p.1 p.2 :=
  ⟨by decide +kernel,
    (lookups_fresh_iff demo _ ⟨by decide +kernel, by decide +kernel⟩).mpr
      ⟨by decide +kernel, by decide +kernel⟩⟩

/-- With no colliding keys, a read of `demo.B.VALUE` after one of `demo.A.VALUE`
    finds the field of `demo.A`, and `demo.B` has a method `of` after `demo.A`
    was asked for one. -/
theorem class_targets_share_entries :
    let calls := [readOf "VALUE" demoA, readOf "VALUE" demoB, readOf "of" demoA, readOf "of" demoB]
    NoCollisions demo calls ∧
      (resolveAll demo {} calls).map (fun p => (p.2.field, p.2.method)) =
        [(some (some (valueField demoA)), none), (some (some (valueField demoA)), none),
          (some none, some (some true)), (some none, some (some true))] ∧
      calls.map (fieldOf demo) =
        [some (valueField demoA), some (valueField demoB), none, none] ∧
      methodOf demo (readOf "of" demoB) = some false :=
  ⟨⟨by decide +kernel, by decide +kernel⟩, by decide +kernel, by decide, by decide⟩

end Example

end JSEngine.Members
