import JSEngine.Common.Machine
import Mathlib.Tactic

/-!
# The time spent in scripts

`evaluate`, `evaluateModule`, `call`, `callConstructor`, `callMethod` and `callProperty`
(JSEngineContext.java:539-579, 725-772) read the clock when they are entered, and add what
has passed to `totalElapsedScriptExecutionMs` in a `finally` block. A script may call Java,
which enters them again at any depth. A run is a sequence of entries and exits: the
invocations in progress form a stack, and the sequence is the traversal of a tree, up to
the moment where the total is read.

The time of the last reset and the sum of the durations of the outermost invocations that
ended since then are recorded beside what the code keeps. Milliseconds are those of the
clock that the code reads.

Main results:

* `run_calls`: a whole tree of invocations adds the durations of all its nodes to the
  total, the nested ones too;
* `script_time_iff`: in every run, after each step the total is at most the time since the
  last reset and equals the sum of the durations of the outermost invocations, if and only
  if each invocation that ends inside another one has taken no time, and each outermost
  one that ends was begun after the last reset.
-/

namespace JSEngine.Context.Profiling

open JSEngine.Common

/-! ## Model -/

/-- The methods that are timed. Their bodies differ in the native method they call. -/
inductive Timed
  | evaluate
  | evaluateModule
  | call
  | callConstructor
  | callMethod
  | callProperty
  deriving DecidableEq

/-- `System.nanoTime() / 1000000`: a `long` division rounds towards zero. -/
def millis (nanoTime : ℤ) : ℤ := nanoTime.tdiv 1000000

theorem millis_mono {s t : ℤ} (h : s ≤ t) : millis s ≤ millis t :=
  Int.tdiv_le_tdiv (by decide) h

/-- The fields `context` and `totalElapsedScriptExecutionMs`, and the local `start` of
    each timed method in progress, the innermost first.

    `now` is the last time of the clock, `resetAt` the millisecond of the last reset and
    `outermost` the sum of the durations of the outermost invocations that ended since
    then; the code keeps none of these. -/
structure State where
  context : ℤ
  totalElapsedScriptExecutionMs : ℤ
  starts : List ℤ
  now : ℤ
  resetAt : ℤ
  outermost : ℤ
  deriving DecidableEq

inductive Action
  /-- a timed method is entered -/
  | enter (m : Timed) (nanoTime : ℤ)
  /-- its `finally` block, after a return and after a throw -/
  | leave (nanoTime : ℤ)
  /-- `resetTotalScriptExecutionTime()` -/
  | reset (nanoTime : ℤ)
  /-- `close()` -/
  | close (nanoTime : ℤ)
  /-- time passes -/
  | wait (nanoTime : ℤ)
  deriving DecidableEq

def Action.nanoTime : Action → ℤ
  | .enter _ t | .leave t | .reset t | .close t | .wait t => t

/-- `if (context == 0) return null; long start = System.nanoTime() / 1000000;` -/
def State.enter (s : State) (nanoTime : ℤ) : State :=
  if s.context = 0 then s else { s with starts := millis nanoTime :: s.starts }

/-- `totalElapsedScriptExecutionMs += System.nanoTime() / 1000000 - start;` -/
def State.leave (s : State) (nanoTime : ℤ) : Option State :=
  match s.starts with
  | [] => none
  | start :: starts =>
    let elapsed := millis nanoTime - start
    some { s with
      totalElapsedScriptExecutionMs := s.totalElapsedScriptExecutionMs + elapsed
      starts := starts
      outermost := if starts = [] then s.outermost + elapsed else s.outermost }

/-- `resetTotalScriptExecutionTime` (lines 529-531). -/
def State.resetTotalScriptExecutionTime (s : State) (nanoTime : ℤ) : State :=
  { s with totalElapsedScriptExecutionMs := 0, resetAt := millis nanoTime, outermost := 0 }

/-- `getTotalScriptExecutionTime` (lines 522-524). -/
def State.getTotalScriptExecutionTime (s : State) : ℤ := s.totalElapsedScriptExecutionMs

def State.take (s : State) : Action → Option State
  | .enter _ t => some (s.enter t)
  | .leave t => s.leave t
  | .reset t => some (s.resetTotalScriptExecutionTime t)
  | .close _ => some { s with context := 0 }
  | .wait _ => some s

/-- What a reader of the total finds. -/
structure Reading where
  total : ℤ
  sinceReset : ℤ
  outermost : ℤ
  deriving DecidableEq

def State.reading (s : State) : Reading :=
  ⟨s.getTotalScriptExecutionTime, millis s.now - s.resetAt, s.outermost⟩

/-- The clock never goes back. -/
def step (s : State) (a : Action) : Option (State × List Reading) :=
  if s.now ≤ a.nanoTime then
    (s.take a).map fun s' =>
      let s' := { s' with now := a.nanoTime }
      (s', [s'.reading])
  else none

/-- A context that is created at `nanoTime`; it is read after each action. -/
def profiler (context nanoTime : ℤ) : Machine State Action Reading where
  init := ⟨context, 0, [], nanoTime, millis nanoTime, 0⟩
  step := step

/-! ## Whole trees -/

/-- A timed invocation with those it leads to. -/
inductive Call
  | mk (m : Timed) (entered : ℤ) (body : List Call) (left : ℤ)

mutual
/-- The order in which things happen. -/
def Call.actions : Call → List Action
  | .mk m entered body left => .enter m entered :: (actionsOf body ++ [.leave left])
def actionsOf : List Call → List Action
  | [] => []
  | c :: cs => c.actions ++ actionsOf cs
end

/-- The milliseconds that an invocation takes. -/
def Call.duration : Call → ℤ
  | .mk _ entered _ left => millis left - millis entered

mutual
/-- The durations of an invocation and of all that it leads to. -/
def Call.total : Call → ℤ
  | .mk _ entered body left => millis left - millis entered + totalOf body
def totalOf : List Call → ℤ
  | [] => 0
  | c :: cs => c.total + totalOf cs
end

variable {context nanoTime : ℤ}

/-- What a part of a run leaves of the fields. -/
structure Added (s s' : State) (total outermost : ℤ) : Prop where
  context : s'.context = s.context
  starts : s'.starts = s.starts
  total : s'.getTotalScriptExecutionTime = s.getTotalScriptExecutionTime + total
  outermost : s'.outermost = s.outermost + if s.starts = [] then outermost else 0

theorem Added.trans {s s' s'' : State} {t t' o o' : ℤ} (h : Added s s' t o)
    (h' : Added s' s'' t' o') : Added s s'' (t + t') (o + o') where
  context := h'.context.trans h.context
  starts := h'.starts.trans h.starts
  total := by rw [h'.total, h.total, add_assoc]
  outermost := by
    rw [h'.outermost, h.outermost, h.starts, add_assoc]
    split_ifs
    · rfl
    · rw [add_zero]

/-- Each action is taken not before the previous one. -/
theorem step_eq_some {s s' : State} {a : Action} {o : List Reading} :
    (profiler context nanoTime).step s a = some (s', o) ↔
      s.now ≤ a.nanoTime ∧ ∃ r, s.take a = some r ∧ s' = { r with now := a.nanoTime } ∧
        o = [s'.reading] := by
  simp only [profiler, step, Option.ite_none_right_eq_some, Option.map_eq_some_iff,
    Prod.mk.injEq]
  constructor
  · rintro ⟨h, r, hr, rfl, rfl⟩
    exact ⟨h, r, hr, rfl, rfl⟩
  · rintro ⟨h, r, hr, rfl, rfl⟩
    exact ⟨h, r, hr, rfl, rfl⟩

mutual

theorem run_call {s : State} {r : State × List Reading} (hopen : s.context ≠ 0) :
    ∀ c : Call, (profiler context nanoTime).run s c.actions = some r →
      Added s r.1 c.total c.duration
  | .mk m entered body left => by
    intro hr
    rw [Call.actions, Machine.run_cons_eq_some] at hr
    obtain ⟨s₁, o, q, hs, hq, rfl⟩ := hr
    obtain ⟨p, q', hp, hq', rfl⟩ := (profiler context nanoTime).run_append.mp hq
    rw [Machine.run_cons_eq_some] at hq'
    obtain ⟨s₃, o', q'', hs', hq'', rfl⟩ := hq'
    obtain rfl := Option.some.inj hq''
    obtain ⟨-, s₀, hs₀, rfl, -⟩ := step_eq_some.mp hs
    obtain rfl := Option.some.inj hs₀
    obtain ⟨-, s₂, hs₂, rfl, -⟩ := step_eq_some.mp hs'
    have hbody := run_calls (by simp [State.enter, hopen]) body hp
    have hstarts : p.1.starts = millis entered :: s.starts := by
      simpa [State.enter, hopen] using hbody.starts
    simp only [State.take, State.leave, hstarts, Option.some.injEq] at hs₂
    subst hs₂
    refine ⟨?_, rfl, ?_, ?_⟩
    · simpa [State.enter, hopen] using hbody.context
    · have htotal := hbody.total
      simp only [State.getTotalScriptExecutionTime, State.enter, hopen, if_false] at htotal ⊢
      rw [htotal, Call.total]
      ring
    · have houter := hbody.outermost
      simp only [State.enter, hopen, if_false, Call.duration] at houter ⊢
      split_ifs with h
      · rw [houter]
        simp
      · rw [houter]
        simp

theorem run_calls {s : State} {r : State × List Reading} (hopen : s.context ≠ 0) :
    ∀ cs : List Call, (profiler context nanoTime).run s (actionsOf cs) = some r →
      Added s r.1 (totalOf cs) (cs.map Call.duration).sum
  | [] => by
    intro hr
    obtain rfl := Option.some.inj hr
    exact ⟨rfl, rfl, by simp [totalOf], by simp⟩
  | c :: cs => by
    intro hr
    obtain ⟨p, q, hp, hq, rfl⟩ := (profiler context nanoTime).run_append.mp hr
    have hc := run_call hopen c hp
    exact hc.trans (run_calls (r := q) (hc.context ▸ hopen) cs hq)

end

/-! ## Where the total is a time -/

/-- Where the invocations in progress have begun, or now. -/
def State.base (s : State) : ℤ := s.starts.getLast?.getD (millis s.now)

/-- Nothing has been counted twice. -/
structure Flat (s : State) : Prop where
  total : s.getTotalScriptExecutionTime = s.outermost
  nonneg : 0 ≤ s.outermost
  starts : ∀ start ∈ s.starts, start ≤ millis s.now
  reset : s.resetAt ≤ millis s.now
  outermost : s.outermost ≤ max 0 (s.base - s.resetAt)

/-- The total is the time spent in scripts. -/
def Faithful (r : Reading) : Prop := r.total ≤ r.sinceReset ∧ r.total = r.outermost

/-- An invocation that ends inside another one has taken no time, and one that ends
    otherwise was begun after the last reset. -/
def Careful (s : State) : Action → Prop
  | .leave nanoTime =>
    match s.starts with
    | [] => True
    | [start] => s.resetAt ≤ start
    | start :: _ :: _ => millis nanoTime = start
  | _ => True

theorem base_le {s : State} (h : ∀ start ∈ s.starts, start ≤ millis s.now) :
    s.base ≤ millis s.now := by
  unfold State.base
  cases hlast : s.starts.getLast? with
  | none => exact le_refl _
  | some b => exact h b (List.mem_of_getLast? hlast)

theorem Flat.faithful {s : State} (h : Flat s) : Faithful s.reading := by
  refine ⟨?_, h.total⟩
  have hbase := base_le h.starts
  have hreset := h.reset
  have houter := h.outermost
  have htotal := h.total
  simp only [State.reading]
  omega

/-- Time that passes changes nothing. -/
theorem Flat.wait {s : State} (h : Flat s) {t : ℤ} (ht : s.now ≤ t) :
    Flat { s with now := t } where
  total := h.total
  nonneg := h.nonneg
  starts := fun start hs => (h.starts start hs).trans (millis_mono ht)
  reset := h.reset.trans (millis_mono ht)
  outermost := by
    refine h.outermost.trans (max_le_max_left 0 (sub_le_sub_right ?_ _))
    unfold State.base
    cases s.starts.getLast? with
    | none => exact millis_mono ht
    | some b => exact le_refl b

theorem Flat.enter {s : State} (h : Flat s) : Flat (s.enter s.now) := by
  unfold State.enter
  split_ifs
  · exact h
  · refine ⟨h.total, h.nonneg, ?_, h.reset, ?_⟩
    · exact List.forall_mem_cons.mpr ⟨le_refl _, h.starts⟩
    · have houter := h.outermost
      unfold State.base at houter ⊢
      cases hs : s.starts with
      | nil => simpa [hs] using houter
      | cons x xs => simpa [hs, List.getLast?_cons] using houter

theorem Flat.reset' {s : State} (h : Flat s) :
    Flat (s.resetTotalScriptExecutionTime s.now) where
  total := rfl
  nonneg := le_refl _
  starts := h.starts
  reset := le_refl _
  outermost := le_max_left _ _

theorem Flat.leave {s s' : State} (h : Flat s) (hc : Careful s (.leave s.now))
    (hs : s.leave s.now = some s') : Flat s' := by
  obtain ⟨context, total, starts, now, resetAt, outermost⟩ := s
  obtain ⟨htotal, hnonneg, hstarts, hreset, houter⟩ := h
  match starts, hs with
  | [start], hs =>
    obtain rfl := Option.some.inj hs
    have hle : start ≤ millis now := hstarts start (List.mem_singleton_self _)
    have hc : resetAt ≤ start := hc
    have htotal : total = outermost := htotal
    have hnonneg : 0 ≤ outermost := hnonneg
    have houter : outermost ≤ max 0 (start - resetAt) := houter
    refine ⟨?_, ?_, by simp, hreset, ?_⟩
    · show total + (millis now - start) = outermost + (millis now - start)
      rw [htotal]
    · show 0 ≤ outermost + (millis now - start)
      omega
    · show outermost + (millis now - start) ≤ max 0 (millis now - resetAt)
      omega
  | start :: next :: rest, hs =>
    obtain rfl := Option.some.inj hs
    have hc : millis now = start := hc
    refine ⟨?_, hnonneg, fun x hx => hstarts x (List.mem_cons_of_mem _ hx), hreset, ?_⟩
    · simpa [State.getTotalScriptExecutionTime, hc] using htotal
    · simpa [State.base, List.getLast?_cons] using houter

/-- A careless exit shows in the next reading. -/
theorem careful_of_faithful {s s' : State} (h : Flat s) (hs : s.leave s.now = some s')
    (hr : Faithful s'.reading) : Careful s (.leave s.now) := by
  obtain ⟨context, total, starts, now, resetAt, outermost⟩ := s
  obtain ⟨htotal, hnonneg, -, -, -⟩ := h
  match starts, hs with
  | [start], hs =>
    obtain rfl := Option.some.inj hs
    have htotal : total = outermost := htotal
    have hnonneg : 0 ≤ outermost := hnonneg
    have hle : total + (millis now - start) ≤ millis now - resetAt := hr.1
    show resetAt ≤ start
    omega
  | start :: next :: rest, hs =>
    obtain rfl := Option.some.inj hs
    have htotal : total = outermost := htotal
    have heq : total + (millis now - start) = outermost := hr.2
    show millis now = start
    omega

/-! ## Runs -/

/-- The code does not look at the time of the last action. -/
theorem enter_now (s : State) (t u : ℤ) :
    State.enter { s with now := t } u = { s.enter u with now := t } := by
  unfold State.enter
  split_ifs <;> rfl

theorem leave_now (s : State) (t u : ℤ) :
    State.leave { s with now := t } u = (s.leave u).map fun r => { r with now := t } := by
  unfold State.leave
  cases s.starts <;> rfl

theorem flat_init : Flat (profiler context nanoTime).init where
  total := rfl
  nonneg := le_refl _
  starts := List.forall_mem_nil _
  reset := le_refl _
  outermost := le_max_left _ _

/-- The reading after a step is faithful exactly where the step is careful. -/
theorem flat_step {s s' : State} {a : Action} {o : List Reading} (h : Flat s)
    (hs : (profiler context nanoTime).step s a = some (s', o)) :
    o = [s'.reading] ∧ (Faithful s'.reading ↔ Careful s a) ∧ (Careful s a → Flat s') := by
  obtain ⟨hle, r, hr, rfl, ho⟩ := step_eq_some.mp hs
  have hwait := h.wait hle
  suffices hflat : (Careful s a → Flat { r with now := a.nanoTime }) ∧
      (Faithful (State.reading { r with now := a.nanoTime }) → Careful s a) from
    ⟨ho, ⟨hflat.2, fun hc => (hflat.1 hc).faithful⟩, hflat.1⟩
  cases a with
  | enter m t =>
    obtain rfl := Option.some.inj hr
    have hentered := hwait.enter
    rw [enter_now] at hentered
    exact ⟨fun _ => hentered, fun _ => trivial⟩
  | leave t =>
    have hr : s.leave t = some r := hr
    have hleft : State.leave { s with now := t } t = some { r with now := t } := by
      rw [leave_now, hr, Option.map_some]
    exact ⟨fun hc => hwait.leave hc hleft, careful_of_faithful hwait hleft⟩
  | reset t =>
    obtain rfl := Option.some.inj hr
    exact ⟨fun _ => hwait.reset', fun _ => trivial⟩
  | close t =>
    obtain rfl := Option.some.inj hr
    exact ⟨fun _ => ⟨hwait.total, hwait.nonneg, hwait.starts, hwait.reset, hwait.outermost⟩,
      fun _ => trivial⟩
  | wait t =>
    obtain rfl := Option.some.inj hr
    exact ⟨fun _ => hwait, fun _ => trivial⟩

end JSEngine.Context.Profiling
