import JSEngine.Common.Machine
import Mathlib.Tactic

/-!
# Variable references of the debugger

While the debugger is paused, the client asks for the variables of a frame by a reference
(frame · 4 + scope), and for the members of an object by a reference that the debugger has
given for it (quickjs-debugger.c:121-170, 328-384, 431-439). The references of objects are
numbered on from 4 · depth; an object is looked up by the low 32 bits of its address.

A pause is a run of the parts of its requests: a value is described, a reference is
expanded. Which values there are is up to the script.

Main results:

* `proper_of_le`: on a stack of frames, the numbers given are no references of frames, until
  the counter is used up;
* `references_faithful_iff`: in every pause the references are faithful if and only if no
  object is described while another one with the same low 32 bits has a number, and the
  numbers given are not 0 and no references of frames.
-/

namespace JSEngine.Debugger

open JSEngine.Common

/-! ## Model -/

/-- What a reference is expanded to. -/
inductive Variable
  | object (address : BitVec 64)
  | global
  | locals (frame : ℕ)
  | closure (frame : ℕ)
  deriving DecidableEq

/-- A `JSValue`: an object at its address, or something that is not expandable. -/
inductive Value
  | object (address : BitVec 64)
  | other
  deriving DecidableEq

/-- `DebuggerSuspendedState` (lines 10-15), without `cur_pc`. -/
structure SuspendedState where
  variable_reference_count : BitVec 32
  variable_references : BitVec 32 → Option Variable
  variable_pointers : BitVec 32 → Option (BitVec 32)

/-- The requests of a pause, with the values that the script has for them. -/
inductive Request
  | scopes (frame : ℤ)
  | evaluate (frame : ℤ) (result : Value)
  | variables (reference : BitVec 32) (values : List Value)

/-- The parts of a request. -/
inductive Op
  /-- `js_get_scopes` -/
  | scopes (frame : ℤ)
  /-- `js_debugger_get_variable_type` -/
  | value (v : Value)
  /-- the lookup of `variables` (lines 335-359) -/
  | expand (reference : BitVec 32)
  deriving DecidableEq

/-- What the client learns. -/
inductive Event
  | scopes (references : List (BitVec 32))
  /-- the `variablesReference` of an object -/
  | given (address : BitVec 64) (reference : BitVec 32)
  | expanded (reference : BitVec 32) (v : Variable)
  deriving DecidableEq

/-- `(frame << 2) + scope`. -/
def scopeReference (frame : ℤ) (scope : ℕ) : BitVec 32 :=
  BitVec.ofInt 32 frame <<< 2 + BitVec.ofNat 32 scope

/-- The references of `js_get_scopes` (lines 98-126). -/
def get_scopes (frame : ℤ) : List (BitVec 32) :=
  [scopeReference frame 1, scopeReference frame 2, scopeReference frame 0]

/-- `(uint32_t)p`. -/
def low (address : BitVec 64) : BitVec 32 := address.setWidth 32

/-- `js_debugger_get_variable_type` (lines 134-170) for an object. -/
def SuspendedState.get_variable_type (state : SuspendedState) (p : BitVec 64) :
    SuspendedState × BitVec 32 :=
  match state.variable_pointers (low p) with
  | none =>
    let reference := state.variable_reference_count
    ({ variable_reference_count := state.variable_reference_count + 1
       variable_references :=
        Function.update state.variable_references reference (some (.object p))
       variable_pointers := Function.update state.variable_pointers (low p) (some reference) },
      reference)
  | some reference => (state, reference)

/-- What a reference that is not in the table stands for (lines 342-354). The assertion is
    there unless `NDEBUG` is defined; for the scope 3, `variable` is not set. -/
def scopeVariable (ndebug : Bool) (depth : ℕ) (reference : BitVec 32) : Option Variable :=
  let frame := (reference >>> 2).toNat
  if !ndebug && depth ≤ frame then none
  else
    match reference.toNat % 4 with
    | 0 => some .global
    | 1 => some (.locals frame)
    | 2 => some (.closure frame)
    | _ => none

/-- The lookup of `variables` (lines 335-359). -/
def SuspendedState.expand (ndebug : Bool) (depth : ℕ) (state : SuspendedState)
    (reference : BitVec 32) : Option (SuspendedState × Variable) :=
  match state.variable_references reference with
  | some v => some (state, v)
  | none =>
    (scopeVariable ndebug depth reference).map fun v =>
      ({ state with
          variable_references := Function.update state.variable_references reference (some v) }, v)

/-- A step; an assertion that fails ends the process. -/
def SuspendedState.step (ndebug : Bool) (depth : ℕ) (state : SuspendedState) :
    Op → Option (SuspendedState × List Event)
  | .scopes frame => some (state, [.scopes (get_scopes frame)])
  | .value (.object p) =>
    let r := state.get_variable_type p
    some (r.1, [.given p r.2])
  | .value .other => some (state, [])
  | .expand reference =>
    (state.expand ndebug depth reference).map fun r => (r.1, [.expanded reference r.2])

/-- A pause with `depth` frames on the stack (lines 431-439). -/
def pause (ndebug : Bool) (depth : ℕ) : Machine SuspendedState Op Event where
  init := ⟨BitVec.ofNat 32 depth <<< 2, fun _ => none, fun _ => none⟩
  step := SuspendedState.step ndebug depth

/-- `js_process_request` (lines 313-393). Without a frame, `js_debugger_evaluate` returns
    `undefined`. -/
def Request.ops (depth : ℕ) : Request → List Op
  | .scopes frame => [.scopes frame]
  | .evaluate frame result =>
    [.value (if frame < depth ∧ 0 < depth then result else .other)]
  | .variables reference values => .expand reference :: values.map .value

/-! ## Faithful references -/

/-- The number is not 0, and no reference of a frame on the stack. -/
def Proper (depth : ℕ) (reference : BitVec 32) : Prop :=
  reference ≠ 0 ∧ ∀ frame < depth, ∀ scope < 3, reference ≠ scopeReference frame scope

/-- What the number given for an object says of what comes later. -/
def Compatible : Event → Event → Prop
  | .given p r, .given q s => p = q ↔ r = s
  | .given p r, .expanded s v => r = s → v = .object p
  | _, _ => True

/-- **Faithful references**: proper, one for each object, and expanded to it. -/
def Faithful (depth : ℕ) (h : List Event) : Prop :=
  h.Pairwise Compatible ∧ ∀ p r, .given p r ∈ h → Proper depth r

/-- The object is the one that is numbered under its low 32 bits, or there is none and the
    next number is proper. -/
def Careful (depth : ℕ) (state : SuspendedState) : Op → Prop
  | .value (.object p) =>
    match state.variable_pointers (low p) with
    | none => Proper depth state.variable_reference_count
    | some reference => state.variable_references reference = some (.object p)
  | _ => True

/-! ## Results -/

variable {ndebug : Bool} {depth : ℕ}

/-- What the tables say of the references that have been given. -/
structure Tabled (depth : ℕ) (state : SuspendedState) (h : List Event) : Prop where
  given : ∀ p r, .given p r ∈ h → state.variable_pointers (low p) = some r ∧
    state.variable_references r = some (.object p)
  pointers : ∀ k r, state.variable_pointers k = some r → ∃ p, low p = k ∧ .given p r ∈ h
  count : state.variable_reference_count = 0 ∨
    ∀ p r, .given p r ∈ h → r.toNat < state.variable_reference_count.toNat
  faithful : Faithful depth h

theorem faithful_append {h : List Event} (hh : Faithful depth h) (e : Event) :
    Faithful depth (h ++ [e]) ↔
      (∀ e' ∈ h, Compatible e' e) ∧ ∀ p r, e = .given p r → Proper depth r := by
  unfold Faithful
  rw [List.pairwise_append, and_iff_right hh.1, and_iff_right (List.pairwise_singleton _ _)]
  refine and_congr ?_ ?_
  · exact forall₂_congr fun e' _ => List.forall_mem_singleton
  · constructor
    · intro hall p r he
      exact hall p r (List.mem_append_right _ (List.mem_singleton.mpr he.symm))
    · intro hlast p r hmem
      obtain hmem | hmem := List.mem_append.mp hmem
      · exact hh.2 p r hmem
      · exact hlast p r (List.mem_singleton.mp hmem).symm

/-- The tables depend on the numbers that have been given. -/
theorem Tabled.congr {state : SuspendedState} {h h' : List Event} (ht : Tabled depth state h)
    (hgiven : ∀ p r, .given p r ∈ h' ↔ .given p r ∈ h) (hf : Faithful depth h') :
    Tabled depth state h' := by
  refine ⟨fun p r hmem => ht.given p r ((hgiven p r).mp hmem), fun k r hk => ?_, ?_, hf⟩
  · obtain ⟨p, hp, hmem⟩ := ht.pointers k r hk
    exact ⟨p, hp, (hgiven p r).mpr hmem⟩
  · exact ht.count.imp_right fun hlt p r hmem => hlt p r ((hgiven p r).mp hmem)

/-- An event that is no number leaves the tables right. -/
theorem Tabled.append {state : SuspendedState} {h : List Event} (ht : Tabled depth state h)
    {e : Event} (he : ∀ p r, e ≠ .given p r) (hf : Faithful depth (h ++ [e])) :
    Tabled depth state (h ++ [e]) := by
  refine ht.congr (fun p r => ?_) hf
  rw [List.mem_append, List.mem_singleton, or_iff_left (he p r).symm]

/-- The counter goes on by one, or it is used up. -/
theorem add_one_eq (c : BitVec 32) : c + 1 = 0 ∨ (c + 1).toNat = c.toNat + 1 := by
  have hlt := c.isLt
  have hsum : (c + 1).toNat = (c.toNat + 1) % 2 ^ 32 := BitVec.toNat_add c 1
  by_cases h : c.toNat + 1 = 2 ^ 32
  · refine .inl (BitVec.eq_of_toNat_eq ?_)
    rw [hsum, h, Nat.mod_self]
    rfl
  · right
    omega

/-- The counter has not been given yet. -/
theorem Tabled.ne_count {state : SuspendedState} {h : List Event} (ht : Tabled depth state h)
    (hne : state.variable_reference_count ≠ 0) {q : BitVec 64} {r : BitVec 32}
    (hmem : .given q r ∈ h) : r ≠ state.variable_reference_count := by
  intro heq
  have hlt := ht.count.resolve_left hne q r hmem
  rw [heq] at hlt
  exact lt_irrefl _ hlt

/-- An object without a number has other low bits than those with one. -/
theorem Tabled.low_ne {state : SuspendedState} {h : List Event} (ht : Tabled depth state h)
    {p : BitVec 64} (hnone : state.variable_pointers (low p) = none) {q : BitVec 64}
    {r : BitVec 32} (hmem : .given q r ∈ h) : low q ≠ low p := by
  intro heq
  rw [← heq, (ht.given q r hmem).1] at hnone
  cases hnone

/-- A new number is faithful exactly if it is proper. -/
theorem Tabled.number_iff {state : SuspendedState} {h : List Event} (ht : Tabled depth state h)
    {p : BitVec 64} (hnone : state.variable_pointers (low p) = none) :
    Faithful depth (h ++ [.given p state.variable_reference_count]) ↔
      Proper depth state.variable_reference_count := by
  rw [faithful_append ht.faithful]
  constructor
  · exact fun hlast => hlast.2 p _ rfl
  · refine fun hproper => ⟨fun e he => ?_, fun q r heq => ?_⟩
    · cases e with
      | given q r =>
        refine iff_of_false (fun heq => ?_) (ht.ne_count hproper.1 he)
        exact ht.low_ne hnone he (congrArg low heq)
      | scopes references => trivial
      | expanded r v => trivial
    · obtain ⟨-, rfl⟩ := Event.given.inj heq
      exact hproper

/-- A new number. -/
theorem Tabled.number {state : SuspendedState} {h : List Event} (ht : Tabled depth state h)
    {p : BitVec 64} (hnone : state.variable_pointers (low p) = none)
    (hproper : Proper depth state.variable_reference_count) :
    Tabled depth (state.get_variable_type p).1
      (h ++ [.given p state.variable_reference_count]) := by
  have hstate : (state.get_variable_type p).1 =
      { variable_reference_count := state.variable_reference_count + 1
        variable_references := Function.update state.variable_references
          state.variable_reference_count (some (.object p))
        variable_pointers := Function.update state.variable_pointers (low p)
          (some state.variable_reference_count) } := by
    unfold SuspendedState.get_variable_type
    rw [hnone]
  rw [hstate]
  refine ⟨fun q r hmem => ?_, fun k r hk => ?_, ?_, (ht.number_iff hnone).mpr hproper⟩
  · obtain hmem | hmem := List.mem_append.mp hmem
    · obtain ⟨hpointer, hreference⟩ := ht.given q r hmem
      dsimp only
      rw [Function.update_of_ne (ht.low_ne hnone hmem),
        Function.update_of_ne (ht.ne_count hproper.1 hmem)]
      exact ⟨hpointer, hreference⟩
    · obtain ⟨rfl, rfl⟩ := Event.given.inj (List.mem_singleton.mp hmem)
      exact ⟨Function.update_self .., Function.update_self ..⟩
  · dsimp only at hk
    by_cases hkp : k = low p
    · rw [hkp, Function.update_self, Option.some.injEq] at hk
      exact ⟨p, hkp.symm, List.mem_append_right _ (List.mem_singleton.mpr (by rw [hk]))⟩
    · rw [Function.update_of_ne hkp] at hk
      obtain ⟨q, hq, hmem⟩ := ht.pointers k r hk
      exact ⟨q, hq, List.mem_append_left _ hmem⟩
  · refine (add_one_eq state.variable_reference_count).imp_right fun hcount q r hmem => ?_
    dsimp only
    rw [hcount]
    obtain hmem | hmem := List.mem_append.mp hmem
    · exact Nat.lt_succ_of_lt (ht.count.resolve_left hproper.1 q r hmem)
    · obtain ⟨-, rfl⟩ := Event.given.inj (List.mem_singleton.mp hmem)
      exact Nat.lt_succ_self _

/-- The number of an object with the same low bits. -/
theorem Tabled.again {state : SuspendedState} {h : List Event} (ht : Tabled depth state h)
    {p : BitVec 64} {r : BitVec 32} (hp : state.variable_pointers (low p) = some r) :
    (Faithful depth (h ++ [.given p r]) ↔ state.variable_references r = some (.object p)) ∧
      (state.variable_references r = some (.object p) →
        Tabled depth state (h ++ [.given p r])) := by
  obtain ⟨q, -, hq⟩ := ht.pointers (low p) r hp
  have href := (ht.given q r hq).2
  have hiff : Faithful depth (h ++ [.given p r]) ↔
      state.variable_references r = some (.object p) := by
    rw [faithful_append ht.faithful, href, Option.some.injEq, Variable.object.injEq]
    constructor
    · exact fun hlast => (hlast.1 (.given q r) hq).mpr rfl
    · rintro rfl
      refine ⟨fun e he => ?_, fun p' r' heq => ?_⟩
      · cases e with
        | given p' r' =>
          constructor
          · rintro rfl
            exact Option.some.inj ((ht.given p' r' he).1.symm.trans hp)
          · rintro rfl
            exact Variable.object.inj (Option.some.inj ((ht.given p' r' he).2.symm.trans href))
        | scopes references => trivial
        | expanded r v => trivial
      · obtain ⟨-, rfl⟩ := Event.given.inj heq
        exact ht.faithful.2 q r hq
  refine ⟨hiff, fun hpr => ?_⟩
  have hqp : q = p := Variable.object.inj (Option.some.inj (href.symm.trans hpr))
  refine ht.congr (fun p' r' => ?_) (hiff.mpr hpr)
  rw [List.mem_append, List.mem_singleton]
  refine or_iff_left_of_imp fun heq => ?_
  obtain ⟨rfl, rfl⟩ := Event.given.inj heq
  exact hqp ▸ hq

/-- A reference that has been given is expanded to its object; another one leaves the
    numbers as they are. -/
theorem Tabled.expand {state state' : SuspendedState} {h : List Event}
    (ht : Tabled depth state h) {r : BitVec 32} {v : Variable}
    (hs : state.expand ndebug depth r = some (state', v)) :
    Tabled depth state' (h ++ [.expanded r v]) := by
  unfold SuspendedState.expand at hs
  cases href : state.variable_references r with
  | some v' =>
    rw [href] at hs
    obtain ⟨rfl, rfl⟩ := Prod.mk.inj (Option.some.inj hs)
    refine ht.append (fun p r => nofun) ((faithful_append ht.faithful _).mpr ⟨?_, fun p r => nofun⟩)
    intro e he
    cases e with
    | given p s =>
      rintro rfl
      exact Option.some.inj (href.symm.trans (ht.given p s he).2)
    | scopes references => trivial
    | expanded r v => trivial
  | none =>
    rw [href] at hs
    obtain ⟨v', -, heq⟩ := Option.map_eq_some_iff.mp hs
    obtain ⟨rfl, rfl⟩ := Prod.mk.inj heq
    have hne : ∀ p s, .given p s ∈ h → s ≠ r := by
      rintro p s hmem rfl
      rw [(ht.given p s hmem).2] at href
      cases href
    have ht' : Tabled depth { state with
        variable_references := Function.update state.variable_references r (some v') } h := by
      refine ⟨fun p s hmem => ?_, ht.pointers, ht.count, ht.faithful⟩
      dsimp only
      rw [Function.update_of_ne (hne p s hmem)]
      exact ht.given p s hmem
    refine ht'.append (fun p r => nofun)
      ((faithful_append ht'.faithful _).mpr ⟨fun e he => ?_, fun p r => nofun⟩)
    cases e with
    | given p s => exact fun heq => absurd heq (hne p s he)
    | scopes references => trivial
    | expanded r v => trivial

theorem tabled_init : Tabled depth (pause ndebug depth).init [] where
  given p r hmem := absurd hmem List.not_mem_nil
  pointers k r hk := by cases hk
  count := .inr fun p r hmem => absurd hmem List.not_mem_nil
  faithful := ⟨List.Pairwise.nil, fun p r hmem => absurd hmem List.not_mem_nil⟩

/-- A step keeps the references faithful exactly if it is careful. -/
theorem Tabled.step {state state' : SuspendedState} {h o : List Event} {op : Op}
    (ht : Tabled depth state h) (hs : (pause ndebug depth).step state op = some (state', o)) :
    (Faithful depth (h ++ o) ↔ Careful depth state op) ∧
      (Careful depth state op → Tabled depth state' (h ++ o)) := by
  cases op with
  | scopes frame =>
    obtain ⟨rfl, rfl⟩ := Prod.mk.inj (Option.some.inj hs)
    have hf : Faithful depth (h ++ [.scopes (get_scopes frame)]) := by
      refine (faithful_append ht.faithful _).mpr ⟨fun e _ => ?_, fun p r => nofun⟩
      cases e <;> trivial
    exact ⟨iff_of_true hf trivial, fun _ => ht.append (fun p r => nofun) hf⟩
  | value v =>
    cases v with
    | object p =>
      obtain ⟨rfl, rfl⟩ := Prod.mk.inj (Option.some.inj hs)
      cases hp : state.variable_pointers (low p) with
      | none =>
        have hreference : (state.get_variable_type p).2 = state.variable_reference_count := by
          unfold SuspendedState.get_variable_type
          rw [hp]
        simp only [Careful, hp, hreference]
        exact ⟨ht.number_iff hp, ht.number hp⟩
      | some r =>
        have heq : state.get_variable_type p = (state, r) := by
          unfold SuspendedState.get_variable_type
          rw [hp]
        simp only [Careful, hp, heq]
        exact ht.again hp
    | other =>
      obtain ⟨rfl, rfl⟩ := Prod.mk.inj (Option.some.inj hs)
      rw [List.append_nil]
      exact ⟨iff_of_true ht.faithful trivial, fun _ => ht⟩
  | expand r =>
    obtain ⟨q, hq, heq⟩ := Option.map_eq_some_iff.mp hs
    obtain ⟨rfl, rfl⟩ := Prod.mk.inj heq
    have ht' := ht.expand hq
    exact ⟨iff_of_true ht'.faithful trivial, fun _ => ht'⟩

/-- **Variable references are faithful** during a pause, exactly where all its parts are
    careful. -/
theorem references_faithful_iff (ndebug : Bool) (depth : ℕ) (requests : List Request)
    (r : SuspendedState × List Event)
    (hr : (pause ndebug depth).run (pause ndebug depth).init
      (requests.flatMap (Request.ops depth)) = some r) :
    Faithful depth r.2 ↔
      (pause ndebug depth).Meets (Careful depth) (pause ndebug depth).init
        (requests.flatMap (Request.ops depth)) := by
  refine (pause ndebug depth).run_accepts_iff (I := Tabled depth) (A := Faithful depth)
    ?_ (fun s h hI => hI.faithful) (fun s h a s' o hI hs => hI.step hs) _ _ [] r tabled_init hr
  rintro h o ⟨hpairwise, hproper⟩
  exact ⟨(List.pairwise_append.mp hpairwise).1,
    fun p r hmem => hproper p r (List.mem_append_left _ hmem)⟩

/-! ## Pauses in a script -/

/-- References of frames on the stack are below 4 · depth. -/
theorem toNat_scopeReference {frame scope : ℕ} (hdepth : depth < 2 ^ 30) (hframe : frame < depth)
    (hscope : scope < 3) : (scopeReference frame scope).toNat = 4 * frame + scope := by
  have hofInt : BitVec.ofInt 32 (frame : ℤ) = BitVec.ofNat 32 frame := BitVec.ofInt_natCast 32 frame
  rw [scopeReference, hofInt, BitVec.toNat_add, BitVec.toNat_shiftLeft, BitVec.toNat_ofNat,
    BitVec.toNat_ofNat, Nat.shiftLeft_eq]
  omega

/-- Until the counter is used up, the numbers are proper. -/
theorem proper_of_le {c : BitVec 32} (hpos : 0 < depth) (hdepth : depth < 2 ^ 30)
    (hc : 4 * depth ≤ c.toNat) : Proper depth c := by
  refine ⟨fun h => ?_, fun frame hframe scope hscope h => ?_⟩
  · rw [h] at hc
    have hzero : (0 : BitVec 32).toNat = 0 := rfl
    omega
  · have heq := toNat_scopeReference hdepth hframe hscope
    rw [← h] at heq
    omega

/-- A step uses up one number at most. -/
theorem count_step {state state' : SuspendedState} {o : List Event} {op : Op}
    (hs : (pause ndebug depth).step state op = some (state', o)) :
    state'.variable_reference_count = state.variable_reference_count ∨
      state'.variable_reference_count = state.variable_reference_count + 1 := by
  cases op with
  | scopes frame =>
    obtain ⟨rfl, -⟩ := Prod.mk.inj (Option.some.inj hs)
    exact .inl rfl
  | value v =>
    cases v with
    | object p =>
      obtain ⟨rfl, -⟩ := Prod.mk.inj (Option.some.inj hs)
      unfold SuspendedState.get_variable_type
      cases state.variable_pointers (low p) with
      | none => exact .inr rfl
      | some r => exact .inl rfl
    | other =>
      obtain ⟨rfl, -⟩ := Prod.mk.inj (Option.some.inj hs)
      exact .inl rfl
  | expand r =>
    obtain ⟨q, hq, heq⟩ := Option.map_eq_some_iff.mp hs
    obtain ⟨rfl, -⟩ := Prod.mk.inj heq
    unfold SuspendedState.expand at hq
    cases href : state.variable_references r with
    | some v =>
      rw [href] at hq
      obtain rfl := Option.some.inj hq
      exact .inl rfl
    | none =>
      rw [href] at hq
      obtain ⟨v, -, rfl⟩ := Option.map_eq_some_iff.mp hq
      exact .inl rfl

/-- The numbers of a step are of objects that it describes. -/
theorem given_step {state state' : SuspendedState} {o : List Event} {op : Op}
    (hs : (pause ndebug depth).step state op = some (state', o)) {p : BitVec 64} {r : BitVec 32}
    (h : .given p r ∈ o) : op = .value (.object p) := by
  cases op with
  | scopes frame =>
    obtain ⟨-, rfl⟩ := Prod.mk.inj (Option.some.inj hs)
    cases List.mem_singleton.mp h
  | value v =>
    cases v with
    | object q =>
      obtain ⟨-, rfl⟩ := Prod.mk.inj (Option.some.inj hs)
      obtain ⟨rfl, -⟩ := Event.given.inj (List.mem_singleton.mp h)
      rfl
    | other =>
      obtain ⟨-, rfl⟩ := Prod.mk.inj (Option.some.inj hs)
      exact absurd h List.not_mem_nil
  | expand r =>
    obtain ⟨q, -, heq⟩ := Option.map_eq_some_iff.mp hs
    obtain ⟨-, rfl⟩ := Prod.mk.inj heq
    cases List.mem_singleton.mp h

/-- What is left of the numbers after a step. -/
theorem count_left {c c' : BitVec 32} (hnext : c' = c ∨ c' = c + 1) {n : ℕ}
    (hleft : c.toNat + (n + 1) ≤ 2 ^ 32) :
    c'.toNat + n ≤ 2 ^ 32 ∧ (0 < n → c.toNat ≤ c'.toNat) := by
  have hzero : (0 : BitVec 32).toNat = 0 := rfl
  have hsum : (c + 1).toNat = (c.toNat + 1) % 2 ^ 32 := BitVec.toNat_add c 1
  obtain rfl | rfl := hnext
  · exact ⟨by omega, fun _ => le_refl _⟩
  · obtain hsucc | hsucc := add_one_eq c
    · rw [hsucc, hzero] at hsum ⊢
      exact ⟨by omega, fun _ => by omega⟩
    · rw [hsucc]
      exact ⟨by omega, fun _ => Nat.le_succ _⟩

/-- While there are numbers left, objects that differ in their low bits are described with
    care, after any part of the pause. -/
theorem careful_from (hpos : 0 < depth) (hdepth : depth < 2 ^ 30) (ops : List Op)
    (state : SuspendedState) (h : List Event) (ht : Tabled depth state h)
    (hcount : ops ≠ [] → 4 * depth ≤ state.variable_reference_count.toNat)
    (hleft : state.variable_reference_count.toNat + ops.length ≤ 2 ^ 32)
    (hdistinct : ∀ p q, ((∃ r, .given p r ∈ h) ∨ .value (.object p) ∈ ops) →
      .value (.object q) ∈ ops → low p = low q → p = q) :
    (pause ndebug depth).Meets (Careful depth) state ops := by
  induction ops generalizing state h with
  | nil => trivial
  | cons op ops ih =>
    have hbase := hcount (List.cons_ne_nil _ _)
    have hcareful : Careful depth state op := by
      cases op with
      | scopes frame => trivial
      | expand r => trivial
      | value v =>
        cases v with
        | other => trivial
        | object p =>
          simp only [Careful]
          cases hp : state.variable_pointers (low p) with
          | none => exact proper_of_le hpos hdepth hbase
          | some r =>
            obtain ⟨q, hq, hmem⟩ := ht.pointers _ _ hp
            obtain rfl := hdistinct q p (.inl ⟨r, hmem⟩) List.mem_cons_self hq
            exact (ht.given q r hmem).2
    refine ⟨hcareful, fun r hs => ?_⟩
    obtain ⟨state', o⟩ := r
    have ht' := (ht.step hs).2 hcareful
    obtain ⟨hleft', hle⟩ := count_left (count_step hs) hleft
    refine ih state' (h ++ o) ht' (fun hne => ?_) hleft' (fun p q hp hq heq => ?_)
    · exact hbase.trans (hle (List.length_pos_iff.mpr hne))
    · refine hdistinct p q ?_ (List.mem_cons_of_mem _ hq) heq
      obtain ⟨r, hr⟩ | hp := hp
      · obtain hr | hr := List.mem_append.mp hr
        · exact .inl ⟨r, hr⟩
        · exact .inr (given_step hs hr ▸ List.mem_cons_self)
      · exact .inr (List.mem_cons_of_mem _ hp)

/-- In a script, objects that differ in their low bits are described with care. -/
theorem careful_of_distinct (hpos : 0 < depth) (hdepth : depth < 2 ^ 30) (ops : List Op)
    (hdistinct : ∀ p q, .value (.object p) ∈ ops → .value (.object q) ∈ ops → low p = low q → p = q)
    (hlength : 4 * depth + ops.length ≤ 2 ^ 32) :
    (pause ndebug depth).Meets (Careful depth) (pause ndebug depth).init ops := by
  have hinit : (pause ndebug depth).init.variable_reference_count.toNat = 4 * depth := by
    show (BitVec.ofNat 32 depth <<< 2).toNat = 4 * depth
    rw [BitVec.toNat_shiftLeft, BitVec.toNat_ofNat, Nat.shiftLeft_eq]
    omega
  refine careful_from hpos hdepth ops _ [] tabled_init (fun _ => hinit.ge) (hinit ▸ hlength) ?_
  rintro p q (⟨r, hr⟩ | hp) hq
  · exact absurd hr List.not_mem_nil
  · exact hdistinct p q hp hq

/-- The locals of a frame have two objects, one of which has the other as a member. -/
theorem references_faithful_iff_two :
    ∃ r : SuspendedState × List Event,
      (pause true 1).run (pause true 1).init
        ([.scopes 0, .variables 1 [.object 0x7f0000000010, .other, .object 0x7f0000000050],
          .variables 5 [.object 0x7f0000000010], .variables 4 []].flatMap (Request.ops 1)) = some r ∧
      Faithful 1 r.2 := by
  have hmeets : (pause true 1).Meets (Careful 1) (pause true 1).init
      ([.scopes 0, .variables 1 [.object 0x7f0000000010, .other, .object 0x7f0000000050],
        .variables 5 [.object 0x7f0000000010], .variables 4 []].flatMap (Request.ops 1)) := by
    refine careful_of_distinct (by decide) (by decide) _ (fun p q hp hq heq => ?_) (by decide)
    have hp : p = 0x7f0000000010 ∨ p = 0x7f0000000050 ∨ p = 0x7f0000000010 := by
      simpa [Request.ops] using hp
    have hq : q = 0x7f0000000010 ∨ q = 0x7f0000000050 ∨ q = 0x7f0000000010 := by
      simpa [Request.ops] using hq
    obtain rfl | rfl | rfl := hp <;> obtain rfl | rfl | rfl := hq <;>
      first | rfl | exact absurd heq (by decide)
  exact ⟨_, rfl, (references_faithful_iff true 1 _ _ rfl).mpr hmeets⟩

/-- Two objects, 4 GiB apart, are given one number. -/
theorem references_collide :
    ∃ r : SuspendedState × List Event,
      (pause true 1).run (pause true 1).init
        ([.variables 1 [.object 0x7f0000000010, .object 0x7f0100000010],
          .variables 4 []].flatMap (Request.ops 1)) = some r ∧
      r.2 = [.expanded 1 (.locals 0), .given 0x7f0000000010 4, .given 0x7f0100000010 4,
        .expanded 4 (.object 0x7f0000000010)] ∧ ¬Faithful 1 r.2 := by
  refine ⟨_, rfl, rfl, fun h => ?_⟩
  have hpair := List.rel_of_pairwise_cons (List.pairwise_cons.mp h.1).2 List.mem_cons_self
  exact absurd (hpair.mpr rfl) (by decide)

end JSEngine.Debugger
