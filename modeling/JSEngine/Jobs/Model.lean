import JSEngine.Context.Lifecycle

/-!
# Promise jobs of a QuickJS context

Model of one context, of the thread that owns its monitor and of the finalizer
thread. The bodies of `JSEngineContext` are those of `Context.EntryPoint`; added
is what QuickJS does under a native call: script that calls back into Java, script
that adds jobs, and the loop of `runJobs`.

A frame is a native call or a call into the application. Over a native call
JavaScript may be on the stack (`Frame.script`); what it calls in Java, and what
marshalling calls, may call `JSEngineContext` again. Jobs run under `runJobs` only.

The events say what the two properties are about: whether a job starts over
JavaScript of an outer frame, what is left queued when the outermost operation
returns, and when `runJobs` does.
-/

namespace JSEngine.Jobs

open JSEngine.Common
open JSEngine.Context (Native Op EntryPoint Outcome handlePostInvocation runPostInvocation)

/-! ## Frames -/

/-- The native methods that may run script: accessors, traps of a `Proxy` and
    `toJSON` included. -/
def runsScript : Native → Bool
  | .getHeapSize | .destroyContext | .isDebugging | .finalizeJavaScriptObjects | .hasPendingJobs
  | .runJobs => false
  | _ => true

/-- The operations that may run script. -/
def operationRunsScript (m : EntryPoint) : Bool :=
  m.body.any fun op =>
    match op with
    | .invoke n => runsScript n
    | _ => false

/-- What a body calls. -/
inductive Callee
  | native (m : Native)
  /-- a coercion of the application -/
  | coercion
  /-- `jobExecutor.execute` -/
  | executor
  deriving DecidableEq

/-- An open call; `rest` is run when it returns. -/
structure Frame where
  callee : Callee
  rest : List Op
  /-- JavaScript that the native method called is on the stack -/
  script : Bool := false
  deriving DecidableEq

/-- Code of the application runs, or may be called, on top of the frame. -/
def Frame.callsJava (f : Frame) : Bool :=
  match f.callee with
  | .native m => f.script || runsScript m
  | _ => true

/-- What is left to run after the call. -/
def Frame.resume (f : Frame) : Outcome → List Op
  | .throws => f.rest.dropWhile fun op => op != .finally
  | .returns b => if f.callee = .native .hasPendingJobs ∧ b = false then [] else f.rest

/-! ## The machine -/

structure State where
  /-- `context != 0` -/
  isOpen : Bool := true
  finalizationQueue : List ℕ := []
  /-- the job list of the runtime -/
  jobs : List ℕ := []
  /-- `jobExecutor != null` -/
  jobExecutor : Bool := false
  /-- the calls of `runPostInvocation` that the executor has and has not yet run -/
  submitted : ℕ := 0
  /-- the open calls, innermost first -/
  stack : List Frame := []
  /-- ghost: the operation that the outermost call belongs to -/
  operation : Option EntryPoint := none
  deriving DecidableEq

/-- Call out of a body. -/
def State.push (s : State) (callee : Callee) (rest : List Op) : State :=
  { s with stack := ⟨callee, rest, false⟩ :: s.stack }

/-- Run a body up to its first call out. -/
def exec (s : State) : List Op → State
  | [] => s
  | .guard :: ops => if s.isOpen then exec s ops else s
  | .invoke m :: ops => s.push (.native m) ops
  | .coerce :: ops => s.push .coercion ops
  | .finally :: ops => exec s ops
  | .check :: ops =>
    if s.finalizationQueue = [] then s.push (.native .hasPendingJobs) ops else exec s ops
  | .execute :: ops =>
    if s.jobExecutor then { s with submitted := s.submitted + 1 }.push .executor []
    else exec s ops
  | .drain :: ops =>
    if s.finalizationQueue = [] then exec s ops
    else if s.isOpen then
      { s with finalizationQueue := [] }.push (.native .finalizeJavaScriptObjects) ops
    else exec { s with finalizationQueue := [] } ops
  -- the runtime is freed with its jobs
  | .close :: ops =>
    if s.isOpen then { s with isOpen := false, jobs := [] }.push (.native .destroyContext) ops
    else exec s ops

inductive Action
  /-- the application calls a method -/
  | call (m : EntryPoint)
  /-- the executor runs a `runPostInvocation` that it has -/
  | runTask
  /-- the native method calls JavaScript -/
  | enter
  /-- `JS_ExecutePendingJob` -/
  | startJob
  /-- JavaScript adds a job -/
  | enqueueJob (job : ℕ)
  /-- JavaScript returns to the native method -/
  | exit
  /-- the innermost call ends -/
  | leave (outcome : Outcome)
  | setJobExecutor (executor : Bool)
  /-- `finalizeJavaScriptObject(object)`, of the finalizer thread -/
  | finalizeJavaScriptObject (object : ℕ)

inductive Event
  /-- a job starts; whether JavaScript of an outer frame is on the stack -/
  | job (interrupts : Bool)
  /-- an outermost operation that may run script returns; whether something is
      queued that no submitted task will see -/
  | returned (forgotten : Bool)
  /-- `runJobs` returns; whether jobs are pending -/
  | ranJobs (pending : Bool)
  deriving DecidableEq

/-- Java code runs, or is about to be called. -/
def State.javaRuns (s : State) : Bool := s.stack.head?.all Frame.callsJava

/-- A job or an object to finalize is queued, and no task is submitted. -/
def State.forgotten (s : State) : Bool :=
  s.isOpen && (!s.jobs.isEmpty || !s.finalizationQueue.isEmpty) && s.submitted == 0

/-- The calls that may end so: `hasPendingJobs` answers from the job list, the loop
    of `runJobs` (QuickJSContext.cpp:861–872) ends with an empty one. After
    `destroyContext` no other native call can go on. -/
def State.mayLeave (s : State) (f : Frame) (outcome : Outcome) : Bool :=
  !f.script &&
    match f.callee, outcome with
    | .native .destroyContext, .returns _ => true
    | .native .hasPendingJobs, .returns b => s.isOpen && b == !s.jobs.isEmpty
    | .native .runJobs, .returns _ => s.isOpen && s.jobs.isEmpty
    | .native _, .returns _ => s.isOpen
    | .native m, .throws => s.isOpen && runsScript m
    | _, _ => true

/-- The state after a body, where nothing is left open the operation has returned. -/
def settle (s : State) : State × List Event :=
  match s.stack, s.operation with
  | [], some m =>
    ({ s with operation := none }, if operationRunsScript m then [.returned s.forgotten] else [])
  | _, _ => (s, [])

/-- A call of the application begins. -/
def State.begin (s : State) (m : EntryPoint) : State :=
  if s.stack = [] then { s with operation := some m } else s

/-- The frame is popped; an executor that throws has rejected the task. -/
def State.pop (s : State) (f : Frame) (fs : List Frame) (outcome : Outcome) : State :=
  match f.callee, outcome with
  | .executor, .throws => { s with stack := fs, submitted := s.submitted - 1 }
  | _, _ => { s with stack := fs }

def jobStep (s : State) : Action → Option (State × List Event)
  | .call m =>
    -- `runPostInvocation` is not public
    if s.javaRuns ∧ m ≠ .runPostInvocation then
      some (settle (exec (s.begin m) m.body))
    else none
  | .runTask =>
    if s.javaRuns ∧ 0 < s.submitted then
      some (exec { s with submitted := s.submitted - 1 } runPostInvocation, [])
    else none
  | .enter =>
    match s.stack with
    | ⟨.native m, rest, false⟩ :: fs =>
      if s.isOpen ∧ runsScript m then some ({ s with stack := ⟨.native m, rest, true⟩ :: fs }, [])
      else none
    | _ => none
  | .startJob =>
    match s.stack, s.jobs with
    | ⟨.native .runJobs, rest, false⟩ :: fs, _ :: jobs =>
      if s.isOpen then
        some ({ s with jobs, stack := ⟨.native .runJobs, rest, true⟩ :: fs },
          [.job (fs.any Frame.script)])
      else none
    | _, _ => none
  | .enqueueJob job =>
    match s.stack with
    | ⟨_, _, true⟩ :: _ => if s.isOpen then some ({ s with jobs := s.jobs ++ [job] }, []) else none
    | _ => none
  | .exit =>
    match s.stack with
    | ⟨callee, rest, true⟩ :: fs =>
      if s.isOpen then some ({ s with stack := ⟨callee, rest, false⟩ :: fs }, []) else none
    | _ => none
  | .leave outcome =>
    match s.stack with
    | [] => none
    | f :: fs =>
      if s.mayLeave f outcome then
        let r := settle (exec (s.pop f fs outcome) (f.resume outcome))
        some (r.1,
          (if f.callee = .native .runJobs then [.ranJobs (!s.jobs.isEmpty)] else []) ++ r.2)
      else none
  | .setJobExecutor executor => some ({ s with jobExecutor := executor }, [])
  | .finalizeJavaScriptObject object =>
    if s.isOpen then some ({ s with finalizationQueue := s.finalizationQueue ++ [object] }, [])
    else some (s, [])

def jobMachine : Machine State Action Event where
  init := {}
  step := jobStep

/-- What a step can do, by action. -/
inductive Steps (s : State) : Action → State × List Event → Prop
  | call {m : EntryPoint} (hjava : s.javaRuns = true) (hm : m ≠ .runPostInvocation) :
      Steps s (.call m) (settle (exec (s.begin m) m.body))
  | runTask (hjava : s.javaRuns = true) (hsubmitted : 0 < s.submitted) :
      Steps s .runTask (exec { s with submitted := s.submitted - 1 } runPostInvocation, [])
  | enter {m : Native} {rest : List Op} {fs : List Frame} (hstack : s.stack = ⟨.native m, rest, false⟩ :: fs)
      (hopen : s.isOpen = true) (hm : runsScript m = true) :
      Steps s .enter ({ s with stack := ⟨.native m, rest, true⟩ :: fs }, [])
  | startJob {rest : List Op} {fs : List Frame} {job : ℕ} {jobs : List ℕ}
      (hstack : s.stack = ⟨.native .runJobs, rest, false⟩ :: fs) (hjobs : s.jobs = job :: jobs)
      (hopen : s.isOpen = true) :
      Steps s .startJob ({ s with jobs, stack := ⟨.native .runJobs, rest, true⟩ :: fs },
        [.job (fs.any Frame.script)])
  | enqueueJob {callee : Callee} {rest : List Op} {fs : List Frame} (job : ℕ)
      (hstack : s.stack = ⟨callee, rest, true⟩ :: fs) (hopen : s.isOpen = true) :
      Steps s (.enqueueJob job) ({ s with jobs := s.jobs ++ [job] }, [])
  | exit {callee : Callee} {rest : List Op} {fs : List Frame}
      (hstack : s.stack = ⟨callee, rest, true⟩ :: fs) (hopen : s.isOpen = true) :
      Steps s .exit ({ s with stack := ⟨callee, rest, false⟩ :: fs }, [])
  | leave {f : Frame} {fs : List Frame} {outcome : Outcome} (hstack : s.stack = f :: fs)
      (hleave : s.mayLeave f outcome = true) :
      Steps s (.leave outcome) ((settle (exec (s.pop f fs outcome) (f.resume outcome))).1,
        (if f.callee = .native .runJobs then [.ranJobs (!s.jobs.isEmpty)] else []) ++
          (settle (exec (s.pop f fs outcome) (f.resume outcome))).2)
  | setJobExecutor (executor : Bool) :
      Steps s (.setJobExecutor executor) ({ s with jobExecutor := executor }, [])
  | finalizeJavaScriptObject (object : ℕ) (hopen : s.isOpen = true) :
      Steps s (.finalizeJavaScriptObject object)
        ({ s with finalizationQueue := s.finalizationQueue ++ [object] }, [])
  | finalizeClosed (object : ℕ) (hclosed : s.isOpen = false) :
      Steps s (.finalizeJavaScriptObject object) (s, [])

theorem steps_of_jobStep {s : State} {a : Action} {r : State × List Event}
    (h : jobStep s a = some r) : Steps s a r := by
  cases a with
  | call m =>
    simp only [jobStep, Option.ite_none_right_eq_some, Option.some.injEq] at h
    obtain ⟨⟨hjava, hm⟩, rfl⟩ := h
    exact .call hjava hm
  | runTask =>
    simp only [jobStep, Option.ite_none_right_eq_some, Option.some.injEq] at h
    obtain ⟨⟨hjava, hsubmitted⟩, rfl⟩ := h
    exact .runTask hjava hsubmitted
  | enter =>
    simp only [jobStep] at h
    split at h
    · rename_i m rest fs hstack
      simp only [Option.ite_none_right_eq_some, Option.some.injEq] at h
      obtain ⟨⟨hopen, hm⟩, rfl⟩ := h
      exact .enter hstack hopen hm
    · cases h
  | startJob =>
    simp only [jobStep] at h
    split at h
    · rename_i rest fs job jobs hstack hjobs
      simp only [Option.ite_none_right_eq_some, Option.some.injEq] at h
      obtain ⟨hopen, rfl⟩ := h
      exact .startJob hstack hjobs hopen
    · cases h
  | enqueueJob job =>
    simp only [jobStep] at h
    split at h
    · rename_i callee rest fs hstack
      simp only [Option.ite_none_right_eq_some, Option.some.injEq] at h
      obtain ⟨hopen, rfl⟩ := h
      exact .enqueueJob job hstack hopen
    · cases h
  | exit =>
    simp only [jobStep] at h
    split at h
    · rename_i callee rest fs hstack
      simp only [Option.ite_none_right_eq_some, Option.some.injEq] at h
      obtain ⟨hopen, rfl⟩ := h
      exact .exit hstack hopen
    · cases h
  | leave outcome =>
    simp only [jobStep] at h
    split at h
    · cases h
    · rename_i f fs hstack
      simp only [Option.ite_none_right_eq_some, Option.some.injEq] at h
      obtain ⟨hleave, rfl⟩ := h
      have hsteps := Steps.leave hstack hleave
      split_ifs at hsteps ⊢
      all_goals exact hsteps
  | setJobExecutor executor =>
    obtain rfl := Option.some.inj h
    exact .setJobExecutor executor
  | finalizeJavaScriptObject object =>
    simp only [jobStep] at h
    split_ifs at h with hopen
    · obtain rfl := Option.some.inj h
      exact .finalizeJavaScriptObject object hopen
    · obtain rfl := Option.some.inj h
      exact .finalizeClosed object (by simpa using hopen)

/-! ## Bodies -/

/-- A body comes to `runJobs` without another call in between that runs code of the
    application, where `executor` says whether the executor is set. -/
def comesToJobs (executor : Bool) : List Op → Bool
  | [] => false
  | .invoke m :: _ => m == .runJobs
  | .coerce :: _ => false
  | .execute :: ops => !executor && comesToJobs executor ops
  | _ :: ops => comesToJobs executor ops

/-- The public bodies do not come to `runJobs` first. -/
theorem comesToJobs_body {m : EntryPoint} (hm : m ≠ .runPostInvocation) (executor : Bool) :
    comesToJobs executor m.body = false := by
  cases m with
  | runPostInvocation => exact absurd rfl hm
  | _ => rfl

/-- What a body does to the stack: it calls out, or not. -/
theorem exec_stack (s : State) (ops : List Op) :
    (exec s ops).stack = s.stack ∨
      ∃ callee rest, (exec s ops).stack = ⟨callee, rest, false⟩ :: s.stack ∧ rest ⊆ ops ∧
        (callee = .native .runJobs → comesToJobs s.jobExecutor ops = true) := by
  induction ops generalizing s with
  | nil => exact Or.inl rfl
  | cons op ops ih =>
    -- an operation that the body passes over
    have hskip : ∀ s' : State, s'.stack = s.stack → s'.jobExecutor = s.jobExecutor →
        (comesToJobs s.jobExecutor ops = true → comesToJobs s.jobExecutor (op :: ops) = true) →
        (exec s' ops).stack = s.stack ∨
          ∃ callee rest, (exec s' ops).stack = ⟨callee, rest, false⟩ :: s.stack ∧
            rest ⊆ op :: ops ∧
            (callee = .native .runJobs → comesToJobs s.jobExecutor (op :: ops) = true) := by
      intro s' hstack hexecutor hcomes
      rw [← hstack]
      rcases ih s' with h | ⟨callee, rest, h, hrest, hcallee⟩
      · exact Or.inl h
      · refine Or.inr ⟨callee, rest, h, fun op' hop => List.mem_cons_of_mem _ (hrest hop), ?_⟩
        intro hrun
        apply hcomes
        rw [← hexecutor]
        exact hcallee hrun
    -- a call out that is no call of `runJobs`
    have hpush : ∀ callee, callee ≠ .native .runJobs → ∀ s' : State, s'.stack = s.stack →
        ∃ callee' rest, (s'.push callee ops).stack = ⟨callee', rest, false⟩ :: s.stack ∧
          rest ⊆ op :: ops ∧
          (callee' = .native .runJobs → comesToJobs s.jobExecutor (op :: ops) = true) := by
      intro callee hne s' hstack
      refine ⟨callee, ops, by rw [State.push, hstack], List.subset_cons_self _ _, ?_⟩
      intro h
      exact absurd h hne
    cases op with
    | guard =>
      rw [exec]
      split_ifs
      · exact hskip s rfl rfl id
      · exact Or.inl rfl
    | invoke m =>
      refine Or.inr ⟨_, _, rfl, List.subset_cons_self _ _, fun h => ?_⟩
      obtain rfl : m = .runJobs := by simpa using h
      rfl
    | coerce => exact Or.inr (hpush _ (by decide) s rfl)
    | «finally» => exact hskip s rfl rfl id
    | check =>
      rw [exec]
      split_ifs
      · exact Or.inr (hpush _ (by decide) s rfl)
      · exact hskip s rfl rfl id
    | execute =>
      rw [exec]
      split_ifs with he
      · exact Or.inr ⟨.executor, [], rfl, List.nil_subset _, fun h => by cases h⟩
      · apply hskip s rfl rfl
        intro h
        rw [comesToJobs, h, Bool.and_true]
        simpa using he
    | drain =>
      rw [exec]
      split_ifs
      · exact hskip s rfl rfl id
      · exact Or.inr (hpush _ (by decide) { s with finalizationQueue := [] } rfl)
      · exact hskip { s with finalizationQueue := [] } rfl rfl id
    | close =>
      rw [exec]
      split_ifs
      · exact Or.inr (hpush _ (by decide) { s with isOpen := false, jobs := [] } rfl)
      · exact hskip s rfl rfl id

/-- A body adds no job. -/
theorem exec_jobs (s : State) (ops : List Op) (h : s.jobs = []) : (exec s ops).jobs = [] := by
  induction ops generalizing s with
  | nil => exact h
  | cons op ops ih =>
    cases op with
    | invoke m => exact h
    | coerce => exact h
    | «finally» => exact ih s h
    | drain =>
      rw [exec]
      split_ifs
      · exact ih s h
      · exact h
      · exact ih _ h
    | close =>
      rw [exec]
      split_ifs
      · rfl
      · exact ih s h
    | guard | check | execute =>
      rw [exec]
      split_ifs
      all_goals first | exact h | exact ih s h

@[simp] theorem settle_stack (s : State) : (settle s).1.stack = s.stack := by
  unfold settle
  split <;> rfl

@[simp] theorem settle_jobs (s : State) : (settle s).1.jobs = s.jobs := by
  unfold settle
  split <;> rfl

@[simp] theorem pop_stack (s : State) (f : Frame) (fs : List Frame) (outcome : Outcome) :
    (s.pop f fs outcome).stack = fs := by
  unfold State.pop
  split <;> rfl

@[simp] theorem pop_jobs (s : State) (f : Frame) (fs : List Frame) (outcome : Outcome) :
    (s.pop f fs outcome).jobs = s.jobs := by
  unfold State.pop
  split <;> rfl

@[simp] theorem pop_jobExecutor (s : State) (f : Frame) (fs : List Frame) (outcome : Outcome) :
    (s.pop f fs outcome).jobExecutor = s.jobExecutor := by
  unfold State.pop
  split <;> rfl

end JSEngine.Jobs
