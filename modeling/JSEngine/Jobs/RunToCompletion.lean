import JSEngine.Jobs.Model

/-!
# Jobs and the script they interrupt

Every invocation ends in `handlePostInvocation`, whatever its depth, so an
invocation that a script made through Java runs the pending jobs before the script
goes on.

* `Orderly.step`: what every step keeps under the condition `Undisturbed`;
* `jobs_run_to_completion`: over every run under the condition, no job starts over
  JavaScript of an outer frame;
* `job_interrupts_script`: what a nested invocation does otherwise.
-/

namespace JSEngine.Jobs

open JSEngine.Common
open JSEngine.Context (Native Op EntryPoint Outcome handlePostInvocation runPostInvocation)

/-- The condition on a step: where an invocation nested in running script comes to
    its hook without an executor, and where an executor runs a task under running
    script, no job is pending. -/
def Undisturbed (s : State) : Action → Prop
  | .leave outcome =>
    match s.stack with
    | [] => True
    | f :: fs => fs.any Frame.script = true → comesToJobs s.jobExecutor (f.resume outcome) = true →
        s.jobs = []
  | .runTask => s.stack.any Frame.script = true → s.jobs = []
  | _ => True

instance (s : State) : ∀ a, Decidable (Undisturbed s a)
  | .leave outcome =>
    match h : s.stack with
    | [] => isTrue (by simp only [Undisturbed, h])
    | f :: fs =>
      decidable_of_iff (fs.any Frame.script = true →
        comesToJobs s.jobExecutor (f.resume outcome) = true → s.jobs = [])
        (by simp only [Undisturbed, h])
  | .runTask => inferInstanceAs (Decidable (s.stack.any Frame.script = true → s.jobs = []))
  | .call _ | .enter | .startJob | .enqueueJob _ | .exit | .setJobExecutor _
  | .finalizeJavaScriptObject _ => isTrue trivial

/-- No job of an inner `runJobs` is pending or running over script of an outer frame. -/
structure Orderly (s : State) : Prop where
  /-- an inner `runJobs` between two jobs has none to start -/
  pending : ∀ f fs, s.stack = f :: fs → f.callee = .native .runJobs → f.script = false →
    fs.any Frame.script = true → s.jobs = []
  /-- under another frame `runJobs` is running a job -/
  below : ∀ f ∈ s.stack.tail, f.callee = .native .runJobs → f.script = true
  /-- a running job is over no script -/
  outermost : s.stack.Pairwise fun f g =>
    f.callee = .native .runJobs → f.script = true → g.script = false

theorem orderly_init : Orderly {} := by
  refine ⟨?_, ?_, List.Pairwise.nil⟩
  · intro f fs h
    cases h
  · intro f h
    cases h

/-- What matters of a state is its stack and that the jobs do not grow. -/
theorem Orderly.congr {s s' : State} (h : Orderly s) (hstack : s'.stack = s.stack)
    (hjobs : s.jobs = [] → s'.jobs = []) : Orderly s' := by
  refine ⟨?_, ?_, ?_⟩
  · intro f fs hf hcallee hscript hany
    exact hjobs (h.pending f fs (hstack ▸ hf) hcallee hscript hany)
  · rw [hstack]
    exact h.below
  · rw [hstack]
    exact h.outermost

/-- A body that is run where the frames below are running, and that comes to
    `runJobs` over script only where no job is pending. -/
theorem orderly_exec {s : State} {ops : List Op} (hs : Orderly s)
    (hbelow : ∀ f ∈ s.stack, f.callee = .native .runJobs → f.script = true)
    (hops : s.stack.any Frame.script = true → comesToJobs s.jobExecutor ops = true → s.jobs = []) :
    Orderly (exec s ops) := by
  rcases exec_stack s ops with hstack | ⟨callee, rest, hstack, -, hcallee⟩
  · exact hs.congr hstack (exec_jobs s ops)
  · refine ⟨?_, ?_, ?_⟩
    · intro f fs hf hrun _ hany
      obtain ⟨rfl, rfl⟩ := List.cons.inj (hstack.symm.trans hf)
      exact exec_jobs s ops (hops hany (hcallee hrun))
    · rw [hstack]
      exact hbelow
    · rw [hstack, List.pairwise_cons]
      refine ⟨?_, hs.outermost⟩
      intro g _ _ hscript
      cases hscript

theorem Orderly.running {s : State} (h : Orderly s) (hjava : s.javaRuns = true) :
    ∀ f ∈ s.stack, f.callee = .native .runJobs → f.script = true := by
  intro f hf hcallee
  have hbelow := h.below
  unfold State.javaRuns at hjava
  cases hstack : s.stack with
  | nil =>
    rw [hstack] at hf
    cases hf
  | cons g fs =>
    rw [hstack] at hf hbelow hjava
    rcases List.mem_cons.mp hf with rfl | hf
    · simpa [Frame.callsJava, hcallee, runsScript] using hjava
    · exact hbelow f hf hcallee

/-- The frames under the innermost one. -/
theorem Orderly.tail {s s' : State} {f : Frame} {fs : List Frame} (h : Orderly s)
    (hstack : s.stack = f :: fs) (hstack' : s'.stack = fs) : Orderly s' := by
  have hbelow := h.below
  have houtermost := h.outermost
  rw [hstack] at hbelow houtermost
  refine ⟨?_, ?_, ?_⟩
  · intro g gs hg hcallee hscript _
    have hrunning := hbelow g (by rw [List.tail_cons, ← hstack', hg]; exact List.mem_cons_self) hcallee
    rw [hrunning] at hscript
    cases hscript
  · rw [hstack']
    intro g hg hcallee
    exact hbelow g (List.mem_of_mem_tail hg) hcallee
  · rw [hstack']
    exact houtermost.of_cons

/-- The innermost frame changes its script, under a condition on `runJobs`. -/
theorem Orderly.replace {s s' : State} {callee : Callee} {rest : List Op} {script script' : Bool}
    {fs : List Frame} (h : Orderly s) (hstack : s.stack = ⟨callee, rest, script⟩ :: fs)
    (hstack' : s'.stack = ⟨callee, rest, script'⟩ :: fs)
    (hrun : callee = .native .runJobs → fs.any Frame.script = false) : Orderly s' := by
  have hbelow := h.below
  have houtermost := h.outermost
  rw [hstack] at hbelow houtermost
  refine ⟨?_, ?_, ?_⟩
  · intro f fs' hf hcallee _ hany
    obtain ⟨rfl, rfl⟩ := List.cons.inj (hstack'.symm.trans hf)
    rw [hrun hcallee] at hany
    cases hany
  · rw [hstack']
    exact hbelow
  · rw [hstack', List.pairwise_cons]
    refine ⟨?_, houtermost.of_cons⟩
    intro g hg hcallee _
    simpa using List.any_eq_false.mp (hrun hcallee) g hg

/-- **One step under the condition.** -/
theorem Orderly.step {s : State} {a : Action} {r : State × List Event} (hs : Orderly s)
    (ha : Undisturbed s a) (h : jobMachine.step s a = some r) :
    Orderly r.1 ∧ .job true ∉ r.2 := by
  have hsettle : ∀ s', Event.job true ∉ (settle s').2 := by
    intro s'
    unfold settle
    split
    · split_ifs <;> simp
    · simp
  cases steps_of_jobStep h with
  | @call m hjava hm =>
    have hbegin : (s.begin m).stack = s.stack := by
      unfold State.begin
      split_ifs <;> rfl
    have hexec : Orderly (exec (s.begin m) m.body) := by
      apply orderly_exec (hs.congr hbegin _)
      · rw [hbegin]
        exact hs.running hjava
      · intro _ hjobs
        rw [comesToJobs_body hm] at hjobs
        cases hjobs
      · intro hjobs
        unfold State.begin
        split_ifs <;> exact hjobs
    exact ⟨hexec.congr (settle_stack _) fun h => (settle_jobs _).trans h, hsettle _⟩
  | runTask hjava hsubmitted =>
    refine ⟨orderly_exec (hs.congr rfl id) (hs.running hjava) fun hany _ => ha hany, ?_⟩
    simp
  | enter hstack hopen hm =>
    refine ⟨hs.replace hstack rfl fun hcallee => ?_, by simp⟩
    obtain rfl := Callee.native.inj hcallee
    cases hm
  | @startJob rest fs job jobs hstack hjobs hopen =>
    -- a pending job is over no script
    have hany : fs.any Frame.script = false := by
      by_contra hany
      have := hs.pending _ _ hstack rfl rfl (by simpa using hany)
      rw [hjobs] at this
      cases this
    refine ⟨hs.replace hstack rfl fun _ => hany, ?_⟩
    simp [hany]
  | enqueueJob job hstack hopen =>
    refine ⟨⟨?_, hs.below, hs.outermost⟩, by simp⟩
    intro f fs hf _ hscript _
    obtain ⟨rfl, -⟩ := List.cons.inj (hstack.symm.trans hf)
    cases hscript
  | exit hstack hopen =>
    refine ⟨hs.replace hstack rfl fun hcallee => ?_, by simp⟩
    have houtermost := hs.outermost
    rw [hstack, List.pairwise_cons] at houtermost
    rw [List.any_eq_false]
    intro g hg
    simpa using houtermost.1 g hg hcallee rfl
  | @leave f fs outcome hstack hleave =>
    have hbelow := hs.below
    simp only [Undisturbed, hstack] at ha
    rw [hstack] at hbelow
    have hexec : Orderly (exec (s.pop f fs outcome) (f.resume outcome)) := by
      apply orderly_exec (hs.tail hstack (pop_stack s f fs outcome))
      · rw [pop_stack]
        exact hbelow
      · rw [pop_stack, pop_jobExecutor, pop_jobs]
        exact ha
    refine ⟨hexec.congr (settle_stack _) fun h => (settle_jobs _).trans h, ?_⟩
    rw [List.mem_append]
    rintro (hmem | hmem)
    · split_ifs at hmem <;> simp at hmem
    · exact hsettle _ hmem
  | setJobExecutor executor => exact ⟨hs.congr rfl id, by simp⟩
  | finalizeJavaScriptObject object hopen => exact ⟨hs.congr rfl id, by simp⟩
  | finalizeClosed object hclosed => exact ⟨hs, by simp⟩

/-- **Run to completion.** Over every run whose steps are `Undisturbed`, no job
    starts while JavaScript of an outer frame is on the stack. -/
theorem jobs_run_to_completion {as : List Action} {r : State × List Event}
    (hmeets : jobMachine.Meets Undisturbed jobMachine.init as)
    (hrun : jobMachine.run jobMachine.init as = some r) : .job true ∉ r.2 := by
  have hinv := jobMachine.run_history (P := Undisturbed)
    (I := fun s es => Orderly s ∧ Event.job true ∉ es) ?_ as jobMachine.init [] r
    ⟨orderly_init, by simp⟩ hmeets hrun
  · exact hinv.2
  · intro s es a s' o hI ha hs
    obtain ⟨hs', ho⟩ := hI.1.step ha hs
    refine ⟨hs', ?_⟩
    rw [List.mem_append, not_or]
    exact ⟨hI.2, ho⟩

/-- Script evaluates through Java, adds a job and returns; the job runs then. -/
def nestedThenJob : List Action :=
  [.call .evaluate, .enter, .call .evaluate, .leave (.returns true), .leave (.returns true),
    .leave (.returns false), .enqueueJob 7, .exit, .leave (.returns true), .leave (.returns true),
    .leave (.returns true), .startJob, .exit, .leave (.returns true)]

theorem nestedThenJob_runs_to_completion :
    ∃ r, jobMachine.run jobMachine.init nestedThenJob = some r ∧
      r.2 = [.job false, .ranJobs false, .returned false] ∧ .job true ∉ r.2 := by
  have hrun : jobMachine.run jobMachine.init nestedThenJob =
      some ({}, [.job false, .ranJobs false, .returned false]) := by decide
  exact ⟨_, hrun, rfl, jobs_run_to_completion (by decide) hrun⟩

/-- Script adds a job and evaluates through Java: the job starts before the script
    goes on, without an executor and with one that runs the task at once. -/
theorem job_interrupts_script :
    (∃ s, jobMachine.run jobMachine.init [.call .evaluate, .enter, .enqueueJob 7, .call .evaluate,
      .leave (.returns true), .leave (.returns true), .leave (.returns true), .startJob] =
        some (s, [.job true])) ∧
    ∃ s, jobMachine.run jobMachine.init [.setJobExecutor true, .call .evaluate, .enter,
      .enqueueJob 7, .call .evaluate, .leave (.returns true), .leave (.returns true),
      .leave (.returns true), .runTask, .startJob] = some (s, [.job true]) :=
  ⟨⟨_, rfl⟩, ⟨_, rfl⟩⟩

end JSEngine.Jobs
