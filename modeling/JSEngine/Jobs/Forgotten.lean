import JSEngine.Jobs.Model

/-!
# Jobs that nothing will run

Only invocations end in `handlePostInvocation`. A job that is added under another
operation, and an object that the finalizer thread queues once the hook has looked,
are seen by the next hook at the earliest.

* `Frame.hooked`, `Frame.runsJobs`: what an open call still looks at;
* `covered_exec`: a body passes on what it has to look at;
* `nothing_forgotten`: over every run under the condition `Remembered`, whatever is
  queued when an outermost operation returns is left to a submitted task, and
  `runJobs` leaves no job;
* `job_of_getter_is_forgotten`: what happens otherwise.
-/

namespace JSEngine.Jobs

open JSEngine.Common
open JSEngine.Context (Native Op EntryPoint Outcome handlePostInvocation runPostInvocation)

/-! ## What is still looked at -/

/-- The `finally` block with the hook is ahead. -/
def endsInHook (ops : List Op) : Bool := (.finally :: handlePostInvocation) <:+ ops

/-- The hook of the call is ahead. -/
def Frame.hooked (f : Frame) : Bool := f.callee != .native .hasPendingJobs && endsInHook f.rest

/-- The call looks at the job list before its operation returns. -/
def Frame.runsJobs (f : Frame) : Bool :=
  endsInHook f.rest ||
    match f.callee with
    | .native .runJobs => true
    | .native .hasPendingJobs | .native .finalizeJavaScriptObjects => comesToJobs false f.rest
    | _ => false

/-- The body looks at the finalization queue before it calls out. -/
def drains : List Op → Bool
  | .drain :: _ => true
  | .guard :: ops | .finally :: ops | .check :: ops | .execute :: ops => drains ops
  | _ => false

/-- An operation that may run script is under way. -/
def State.operating (s : State) : Bool := s.operation.any operationRunsScript

/-- The condition on a step: jobs are added where a hook or `runJobs` is ahead or a
    task is submitted; objects are queued during an operation where a hook is ahead
    or a task is submitted, and before one where it has a hook; an executor that
    throws leaves a hook or another task. -/
def Remembered (s : State) : Action → Prop
  | .call m => s.stack = [] → operationRunsScript m = true → endsInHook m.body = false →
      s.isOpen = true → s.finalizationQueue = [] ∨ 0 < s.submitted
  | .enqueueJob _ => 0 < s.submitted ∨ s.stack.any Frame.runsJobs = true
  | .finalizeJavaScriptObject _ => s.operating = true →
      0 < s.submitted ∨ s.stack.any Frame.hooked = true
  | .leave .throws =>
    match s.stack with
    | ⟨.executor, _, _⟩ :: fs => 1 < s.submitted ∨ fs.any Frame.hooked = true
    | _ => True
  | _ => True

instance (s : State) (a : Action) : Decidable (Remembered s a) := by
  unfold Remembered
  cases a with
  | leave outcome =>
    cases outcome with
    | returns b => infer_instance
    | throws =>
      dsimp only
      split <;> infer_instance
  | _ => infer_instance

/-- What is queued is looked at by an open call or a submitted task. -/
structure Covered (s : State) : Prop where
  jobs : s.isOpen = true → s.jobs ≠ [] → 0 < s.submitted ∨ s.stack.any Frame.runsJobs = true
  queue : s.isOpen = true → s.operating = true → s.finalizationQueue ≠ [] →
    0 < s.submitted ∨ s.stack.any Frame.hooked = true

theorem covered_init : Covered {} := by
  constructor
  · intro _ h
    exact absurd rfl h
  · intro _ _ h
    exact absurd rfl h

/-! ## Bodies -/

theorem endsInHook_cons {op : Op} {ops : List Op} (h : endsInHook (op :: ops) = true) :
    op :: ops = .finally :: handlePostInvocation ∨ endsInHook ops = true := by
  unfold endsInHook at h ⊢
  rw [decide_eq_true_iff, List.suffix_cons_iff] at h
  rcases h with h | h
  · exact Or.inl h.symm
  · exact Or.inr (decide_eq_true h)

/-- A hook that is not the next operation is still ahead after it. -/
theorem endsInHook_of_ne {op : Op} {ops : List Op} (h : endsInHook (op :: ops) = true)
    (hop : op ≠ .finally) : endsInHook ops = true := by
  rcases endsInHook_cons h with h | h
  · exact absurd (List.cons.inj h).1 hop
  · exact h

/-- An exception goes to the hook. -/
theorem endsInHook_dropWhile {ops : List Op} (h : endsInHook ops = true) :
    endsInHook (ops.dropWhile fun op => op != .finally) = true := by
  induction ops with
  | nil => exact h
  | cons op ops ih =>
    rw [List.dropWhile_cons]
    split_ifs with hop
    · exact ih (endsInHook_of_ne h (by simpa using hop))
    · exact h

/-- A call out of a body: the jobs. -/
theorem runsJobs_of_rest {callee : Callee} {rest : List Op} (h : endsInHook rest = true) :
    (⟨callee, rest, false⟩ : Frame).runsJobs = true := by
  show (endsInHook rest || _) = true
  rw [h, Bool.true_or]

/-- A frame over the stack. -/
theorem covered_push {s : State} {callee : Callee} {rest : List Op}
    (hjobs : s.isOpen = true → s.jobs ≠ [] → 0 < s.submitted ∨ s.stack.any Frame.runsJobs = true ∨
      (⟨callee, rest, false⟩ : Frame).runsJobs = true)
    (hqueue : s.isOpen = true → s.operating = true → s.finalizationQueue ≠ [] →
      0 < s.submitted ∨ s.stack.any Frame.hooked = true ∨
        (⟨callee, rest, false⟩ : Frame).hooked = true) : Covered (s.push callee rest) := by
  constructor
  · intro hopen hne
    rcases hjobs hopen hne with h | h | h
    · exact Or.inl h
    · exact Or.inr (by simp [State.push, h])
    · exact Or.inr (by simp [State.push, h])
  · intro hopen hop hne
    rcases hqueue hopen hop hne with h | h | h
    · exact Or.inl h
    · exact Or.inr (by simp [State.push, h])
    · exact Or.inr (by simp [State.push, h])

/-- **Bodies look at what they have to.** -/
theorem covered_exec {s : State} {ops : List Op} (hops : .invoke .hasPendingJobs ∉ ops)
    (hjobs : s.isOpen = true → s.jobs ≠ [] → 0 < s.submitted ∨ s.stack.any Frame.runsJobs = true ∨
      endsInHook ops = true ∨ comesToJobs false ops = true)
    (hqueue : s.isOpen = true → s.operating = true → s.finalizationQueue ≠ [] →
      0 < s.submitted ∨ s.stack.any Frame.hooked = true ∨ endsInHook ops = true ∨
        drains ops = true) : Covered (exec s ops) := by
  induction ops generalizing s with
  | nil =>
    have hnil : endsInHook [] = false := by decide
    constructor
    · intro hopen hne
      have := hjobs hopen hne
      rw [hnil] at this
      simpa only [exec, comesToJobs, Bool.false_eq_true, or_false] using this
    · intro hopen hop hne
      have := hqueue hopen hop hne
      rw [hnil] at this
      simpa only [exec, drains, Bool.false_eq_true, or_false] using this
  | cons op ops ih =>
    have hops' : .invoke .hasPendingJobs ∉ ops := fun h => hops (List.mem_cons_of_mem _ h)
    -- an operation that the body passes over
    have hskip : (endsInHook (op :: ops) = true → endsInHook ops = true ∨
          comesToJobs false ops = true ∧ drains ops = true) →
        (comesToJobs false (op :: ops) = true → comesToJobs false ops = true) →
        (s.finalizationQueue ≠ [] → drains (op :: ops) = true → drains ops = true) →
        Covered (exec s ops) := by
      intro hhook hcomes hdrains
      apply ih hops'
      · intro hopen hne
        rcases hjobs hopen hne with h | h | h | h
        · exact Or.inl h
        · exact Or.inr (Or.inl h)
        · exact Or.inr (Or.inr ((hhook h).imp_right And.left))
        · exact Or.inr (Or.inr (Or.inr (hcomes h)))
      · intro hopen hop hne
        rcases hqueue hopen hop hne with h | h | h | h
        · exact Or.inl h
        · exact Or.inr (Or.inl h)
        · exact Or.inr (Or.inr ((hhook h).imp_right And.right))
        · exact Or.inr (Or.inr (Or.inr (hdrains hne h)))
    have hpass : op ≠ .finally → endsInHook (op :: ops) = true → endsInHook ops = true ∨
        comesToJobs false ops = true ∧ drains ops = true :=
      fun hop h => Or.inl (endsInHook_of_ne h hop)
    -- a call out
    have hpush : ∀ callee, op ≠ .finally → callee ≠ .native .hasPendingJobs →
        (comesToJobs false (op :: ops) = true →
          (⟨callee, ops, false⟩ : Frame).runsJobs = true) →
        (drains (op :: ops) = true → s.finalizationQueue = []) → Covered (s.push callee ops) := by
      intro callee hop hcallee hcomes hdrains
      apply covered_push
      · intro hopen hne
        rcases hjobs hopen hne with h | h | h | h
        · exact Or.inl h
        · exact Or.inr (Or.inl h)
        · exact Or.inr (Or.inr (runsJobs_of_rest (endsInHook_of_ne h hop)))
        · exact Or.inr (Or.inr (hcomes h))
      · intro hopen hoperating hne
        rcases hqueue hopen hoperating hne with h | h | h | h
        · exact Or.inl h
        · exact Or.inr (Or.inl h)
        · refine Or.inr (Or.inr ?_)
          simpa [Frame.hooked, hcallee] using endsInHook_of_ne h hop
        · exact absurd (hdrains h) hne
    cases op with
    | guard =>
      rw [exec]
      split_ifs with hopen
      · exact hskip (hpass (by decide)) id fun _ => id
      · constructor
        · exact fun h => absurd h hopen
        · exact fun h => absurd h hopen
    | invoke m =>
      have hm : m ≠ .hasPendingJobs := by
        rintro rfl
        exact hops List.mem_cons_self
      apply hpush _ (by simp) (by simpa using hm)
      · intro h
        obtain rfl : m = .runJobs := by simpa [comesToJobs] using h
        simp [Frame.runsJobs]
      · intro h
        cases h
    | coerce =>
      apply hpush _ (by decide) (by decide)
      · intro h
        cases h
      · intro h
        cases h
    | «finally» =>
      apply hskip _ id fun _ => id
      intro h
      rcases endsInHook_cons h with h | h
      · obtain rfl : ops = handlePostInvocation := (List.cons.inj h).2
        exact Or.inr ⟨rfl, rfl⟩
      · exact Or.inl h
    | check =>
      rw [exec]
      split_ifs with hq
      · -- `hasPendingJobs` is asked, with the rest of the hook ahead
        apply covered_push
        · intro hopen hne
          rcases hjobs hopen hne with h | h | h | h
          · exact Or.inl h
          · exact Or.inr (Or.inl h)
          · exact Or.inr (Or.inr (runsJobs_of_rest (endsInHook_of_ne h (by decide))))
          · refine Or.inr (Or.inr ?_)
            have hcomes : comesToJobs false ops = true := h
            simp [Frame.runsJobs, hcomes]
        · intro _ _ hne
          exact absurd hq hne
      · exact hskip (hpass (by decide)) id fun _ => id
    | execute =>
      rw [exec]
      split_ifs with he
      · constructor
        · exact fun _ _ => Or.inl (Nat.succ_pos _)
        · exact fun _ _ _ => Or.inl (Nat.succ_pos _)
      · exact hskip (hpass (by decide)) id fun _ => id
    | drain =>
      have hcomes : comesToJobs false (.drain :: ops) = true → comesToJobs false ops = true := id
      rw [exec]
      split_ifs with hq hopen
      · exact hskip (hpass (by decide)) hcomes fun hne => absurd hq hne
      · apply covered_push
        · intro hopen hne
          rcases hjobs hopen hne with h | h | h | h
          · exact Or.inl h
          · exact Or.inr (Or.inl h)
          · exact Or.inr (Or.inr (runsJobs_of_rest (endsInHook_of_ne h (by decide))))
          · exact Or.inr (Or.inr (by simp [Frame.runsJobs, hcomes h]))
        · intro _ _ hne
          exact absurd rfl hne
      · apply ih hops'
        · exact fun h => absurd h hopen
        · exact fun h => absurd h hopen
    | close =>
      rw [exec]
      split_ifs with hopen
      · constructor
        · intro h
          cases h
        · intro h
          cases h
      · apply ih hops'
        · exact fun h => absurd h hopen
        · exact fun h => absurd h hopen

/-! ## One step -/

/-- `hasPendingJobs` is called by the hook only. -/
def Plain (s : State) : Prop := ∀ f ∈ s.stack, .invoke .hasPendingJobs ∉ f.rest

theorem hasPendingJobs_not_mem_body (m : EntryPoint) : .invoke .hasPendingJobs ∉ m.body := by
  cases m <;> decide

theorem plain_exec {s : State} {ops : List Op} (hs : Plain s)
    (hops : .invoke .hasPendingJobs ∉ ops) : Plain (exec s ops) := by
  unfold Plain
  rcases exec_stack s ops with hstack | ⟨callee, rest, hstack, hrest, -⟩
  · rw [hstack]
    exact hs
  · rw [hstack]
    intro f hf
    rcases List.mem_cons.mp hf with rfl | hf
    · exact fun h => hops (hrest h)
    · exact hs f hf

theorem resume_subset (f : Frame) (outcome : Outcome) : f.resume outcome ⊆ f.rest := by
  unfold Frame.resume
  cases outcome with
  | throws => exact (List.dropWhile_suffix _).subset
  | returns b =>
    dsimp only
    split_ifs
    · exact List.nil_subset _
    · exact List.Subset.refl _

theorem Frame.runsJobs_of_hooked {f : Frame} (h : f.hooked = true) : f.runsJobs = true := by
  unfold hooked at h
  rw [Bool.and_eq_true] at h
  unfold runsJobs
  rw [h.2, Bool.true_or]

theorem any_runsJobs_of_hooked {fs : List Frame} (h : fs.any Frame.hooked = true) :
    fs.any Frame.runsJobs = true := by
  obtain ⟨f, hf, hhooked⟩ := List.any_eq_true.mp h
  exact List.any_eq_true.mpr ⟨f, hf, Frame.runsJobs_of_hooked hhooked⟩

/-- A hook that is ahead of the call is ahead after it. -/
theorem endsInHook_resume {f : Frame} {outcome : Outcome} (h : endsInHook f.rest = true)
    (hanswer : ¬(f.callee = .native .hasPendingJobs ∧ ∃ b, outcome = .returns b ∧ b = false)) :
    endsInHook (f.resume outcome) = true := by
  unfold Frame.resume
  cases outcome with
  | throws => exact endsInHook_dropWhile h
  | returns b =>
    dsimp only
    rw [if_neg fun hb => hanswer ⟨hb.1, b, rfl, hb.2⟩]
    exact h

/-- A call that looks at the job list, and returns while a job is pending, goes on
    to look at it. -/
theorem looks_of_runsJobs {s : State} {f : Frame} {outcome : Outcome}
    (hleave : s.mayLeave f outcome = true) (hjobs : s.jobs ≠ []) (h : f.runsJobs = true) :
    endsInHook (f.resume outcome) = true ∨ comesToJobs false (f.resume outcome) = true := by
  obtain ⟨callee, rest, script⟩ := f
  have hempty : s.jobs.isEmpty = false := by simpa using hjobs
  unfold Frame.runsJobs at h
  rw [Bool.or_eq_true] at h
  rcases h with h | h
  · left
    apply endsInHook_resume h
    rintro ⟨hcallee, b, rfl, rfl⟩
    obtain rfl : callee = .native .hasPendingJobs := hcallee
    simp [State.mayLeave, hempty] at hleave
  · right
    cases callee with
    | coercion => cases h
    | executor => cases h
    | native m =>
      cases m with
      | runJobs => cases outcome <;> simp [State.mayLeave, hempty, runsScript] at hleave
      | hasPendingJobs =>
        cases outcome with
        | throws => simp [State.mayLeave, runsScript] at hleave
        | returns b =>
          have hb : b = true := by
            simp only [State.mayLeave, hempty, Bool.and_eq_true] at hleave
            simpa using hleave.2.2
          simpa [Frame.resume, hb] using h
      | finalizeJavaScriptObjects =>
        cases outcome with
        | throws => simp [State.mayLeave, runsScript] at hleave
        | returns b => simpa [Frame.resume] using h
      | _ => cases h

theorem pop_of_ne {s : State} {f : Frame} {fs : List Frame} {outcome : Outcome}
    (h : ¬(f.callee = .executor ∧ outcome = .throws)) :
    s.pop f fs outcome = { s with stack := fs } := by
  unfold State.pop
  split
  · rename_i hcallee
    exact absurd ⟨hcallee, rfl⟩ h
  · rfl

/-- The end of a call, that of a rejecting executor apart. -/
theorem Covered.leave {s : State} {f : Frame} {fs : List Frame} {outcome : Outcome}
    (hs : Covered s) (hplain : Plain s) (hstack : s.stack = f :: fs)
    (hleave : s.mayLeave f outcome = true) :
    Covered (exec { s with stack := fs } (f.resume outcome)) := by
  have hrest : .invoke .hasPendingJobs ∉ f.rest :=
    hplain f (by rw [hstack]; exact List.mem_cons_self)
  have hjobs := hs.jobs
  have hqueue := hs.queue
  rw [hstack, List.any_cons] at hjobs hqueue
  apply covered_exec fun h => hrest (resume_subset f outcome h)
  · intro hopen hne
    rcases hjobs hopen hne with h | h
    · exact Or.inl h
    · rcases (Bool.or_eq_true _ _).mp h with h | h
      · exact Or.inr (Or.inr (looks_of_runsJobs hleave hne h))
      · exact Or.inr (Or.inl h)
  · intro hopen hop hne
    rcases hqueue hopen hop hne with h | h
    · exact Or.inl h
    · rcases (Bool.or_eq_true _ _).mp h with h | h
      · obtain ⟨hcallee, hhook⟩ := Bool.and_eq_true_iff.mp h
        refine Or.inr (Or.inr (Or.inl (endsInHook_resume hhook ?_)))
        rintro ⟨heq, -⟩
        rw [heq] at hcallee
        cases hcallee
      · exact Or.inr (Or.inl h)

theorem Covered.settle {s : State} (hs : Covered s) :
    Covered (settle s).1 ∧ .returned true ∉ (settle s).2 := by
  unfold Jobs.settle
  split
  · rename_i m hstack hoperation
    refine ⟨⟨hs.jobs, ?_⟩, ?_⟩
    · intro _ hop
      cases hop
    · have hforgotten : operationRunsScript m = true → s.forgotten = false := by
        intro hm
        have hop : s.operating = true := by
          unfold State.operating
          rw [hoperation]
          exact hm
        have hjobs := hs.jobs
        have hqueue := hs.queue
        rw [hstack] at hjobs hqueue
        by_contra hforgotten
        simp only [State.forgotten, Bool.not_eq_false, Bool.and_eq_true, Bool.or_eq_true,
          Bool.not_eq_true', List.isEmpty_eq_false_iff, beq_iff_eq] at hforgotten
        obtain ⟨⟨hopen, hne⟩, hsubmitted⟩ := hforgotten
        rcases hne with hne | hne
        · have := hjobs hopen hne
          simp [hsubmitted] at this
        · have := hqueue hopen hop hne
          simp [hsubmitted] at this
      split_ifs with hm
      · simp [hforgotten hm]
      · simp
  · exact ⟨hs, by simp⟩

/-- The frames keep what they look at when the script over them changes. -/
theorem Covered.replace {s s' : State} {callee : Callee} {rest : List Op} {script script' : Bool}
    {fs : List Frame} (hs : Covered s) (hstack : s.stack = ⟨callee, rest, script⟩ :: fs)
    (hstack' : s'.stack = ⟨callee, rest, script'⟩ :: fs) (hopen : s'.isOpen = s.isOpen)
    (hjobs : s'.jobs ≠ [] → s.jobs ≠ []) (hqueue : s'.finalizationQueue = s.finalizationQueue)
    (hsubmitted : s'.submitted = s.submitted) (hoperation : s'.operation = s.operation) :
    Covered s' := by
  have hany : s'.stack.any Frame.runsJobs = s.stack.any Frame.runsJobs ∧
      s'.stack.any Frame.hooked = s.stack.any Frame.hooked := by
    rw [hstack, hstack']
    exact ⟨rfl, rfl⟩
  constructor
  · rw [hopen, hsubmitted, hany.1]
    exact fun h hne => hs.jobs h (hjobs hne)
  · unfold State.operating
    rw [hopen, hsubmitted, hany.2, hqueue, hoperation]
    exact hs.queue

/-- **One step under the condition.** -/
theorem Covered.step {s : State} {a : Action} {r : State × List Event} (hs : Covered s)
    (hplain : Plain s) (ha : Remembered s a) (h : jobMachine.step s a = some r) :
    (Covered r.1 ∧ Plain r.1) ∧ .returned true ∉ r.2 ∧ .ranJobs true ∉ r.2 := by
  have hranJobs : ∀ s', Event.ranJobs true ∉ (Jobs.settle s').2 := by
    intro s'
    unfold Jobs.settle
    split
    · split_ifs <;> simp
    · simp
  have hplain_settle : ∀ s', Plain s' → Plain (Jobs.settle s').1 := by
    intro s' hs'
    unfold Plain
    rw [settle_stack]
    exact hs'
  cases steps_of_jobStep h with
  | @call m hjava hm =>
    have hbegin : (s.begin m).stack = s.stack := by
      unfold State.begin
      split_ifs <;> rfl
    have hexec : Covered (exec (s.begin m) m.body) := by
      apply covered_exec (hasPendingJobs_not_mem_body m)
      · intro hopen hne
        rw [hbegin]
        unfold State.begin at hopen hne ⊢
        split_ifs at hopen hne ⊢
        · exact (hs.jobs hopen hne).imp_right Or.inl
        · exact (hs.jobs hopen hne).imp_right Or.inl
      · intro hopen hop hne
        rw [hbegin]
        unfold State.begin at hopen hop hne ⊢
        split_ifs at hopen hop hne ⊢ with hstack
        · -- the operation begins: it has a hook, or nothing is queued
          by_cases hhook : endsInHook m.body = true
          · exact Or.inr (Or.inr (Or.inl hhook))
          · rcases ha hstack hop (by simpa using hhook) hopen with h | h
            · exact absurd h hne
            · exact Or.inl h
        · exact (hs.queue hopen hop hne).imp_right Or.inl
    obtain ⟨hcovered, hreturned⟩ := hexec.settle
    have hplain' : Plain (s.begin m) := by
      unfold Plain
      rw [hbegin]
      exact hplain
    exact ⟨⟨hcovered, hplain_settle _ (plain_exec hplain' (hasPendingJobs_not_mem_body m))⟩,
      hreturned, hranJobs _⟩
  | runTask hjava hsubmitted =>
    have hops : .invoke .hasPendingJobs ∉ runPostInvocation := by decide
    refine ⟨⟨covered_exec hops ?_ ?_, plain_exec hplain hops⟩, by simp, by simp⟩
    · exact fun _ _ => Or.inr (Or.inr (Or.inr rfl))
    · exact fun _ _ _ => Or.inr (Or.inr (Or.inr rfl))
  | enter hstack hopen hm =>
    refine ⟨⟨hs.replace hstack rfl rfl id rfl rfl rfl, ?_⟩, by simp, by simp⟩
    unfold Plain at hplain ⊢
    rw [hstack] at hplain
    simpa using hplain
  | startJob hstack hjobs hopen =>
    refine ⟨⟨hs.replace hstack rfl rfl (fun _ => by simp [hjobs]) rfl rfl rfl, ?_⟩, by simp, by simp⟩
    unfold Plain at hplain ⊢
    rw [hstack] at hplain
    simpa using hplain
  | enqueueJob job hstack hopen =>
    refine ⟨⟨⟨fun _ _ => ha, hs.queue⟩, hplain⟩, by simp, by simp⟩
  | exit hstack hopen =>
    refine ⟨⟨hs.replace hstack rfl rfl id rfl rfl rfl, ?_⟩, by simp, by simp⟩
    unfold Plain at hplain ⊢
    rw [hstack] at hplain
    simpa using hplain
  | @leave f fs outcome hstack hleave =>
    have hplain_fs : ∀ g ∈ fs, .invoke .hasPendingJobs ∉ g.rest := by
      intro g hg
      exact hplain g (by rw [hstack]; exact List.mem_cons_of_mem _ hg)
    have hrest : .invoke .hasPendingJobs ∉ f.resume outcome := fun h =>
      hplain f (by rw [hstack]; exact List.mem_cons_self) (resume_subset f outcome h)
    have hplain' : Plain (exec (s.pop f fs outcome) (f.resume outcome)) := by
      apply plain_exec _ hrest
      unfold Plain
      rw [pop_stack]
      exact hplain_fs
    have hexec : Covered (exec (s.pop f fs outcome) (f.resume outcome)) := by
      by_cases hreject : f.callee = .executor ∧ outcome = .throws
      · -- a rejected task: another one or a hook is left
        obtain ⟨callee, rest, script⟩ := f
        obtain ⟨rfl, rfl⟩ := hreject
        have hleft : 1 < s.submitted ∨ fs.any Frame.hooked = true := by
          simpa only [Remembered, hstack] using ha
        apply covered_exec hrest
        · intro _ _
          rcases hleft with h | h
          · exact Or.inl (Nat.sub_pos_of_lt h)
          · exact Or.inr (Or.inl (any_runsJobs_of_hooked h))
        · intro _ _ _
          rcases hleft with h | h
          · exact Or.inl (Nat.sub_pos_of_lt h)
          · exact Or.inr (Or.inl h)
      · rw [pop_of_ne hreject]
        exact hs.leave hplain hstack hleave
    obtain ⟨hcovered, hreturned⟩ := hexec.settle
    refine ⟨⟨hcovered, hplain_settle _ hplain'⟩, ?_, ?_⟩
    · rw [List.mem_append]
      rintro (hmem | hmem)
      · split_ifs at hmem <;> simp at hmem
      · exact hreturned hmem
    · rw [List.mem_append]
      rintro (hmem | hmem)
      · -- the loop of `runJobs` ends with an empty list
        split_ifs at hmem with hcallee
        · have hempty : s.jobs.isEmpty = true := by
            obtain ⟨callee, rest, script⟩ := f
            obtain rfl : callee = .native .runJobs := hcallee
            cases outcome <;> simp_all [State.mayLeave, runsScript]
          simp [hempty] at hmem
        · cases hmem
      · exact hranJobs _ hmem
  | setJobExecutor executor => exact ⟨⟨⟨hs.jobs, hs.queue⟩, hplain⟩, by simp, by simp⟩
  | finalizeJavaScriptObject object hopen =>
    exact ⟨⟨⟨hs.jobs, fun _ hop _ => ha hop⟩, hplain⟩, by simp, by simp⟩
  | finalizeClosed object hclosed => exact ⟨⟨hs, hplain⟩, by simp, by simp⟩

/-- **Nothing is forgotten.** Over every run whose steps are `Remembered`, what is
    queued when an outermost operation returns is left to a submitted task, and
    `runJobs` leaves no job. -/
theorem nothing_forgotten {as : List Action} {r : State × List Event}
    (hmeets : jobMachine.Meets Remembered jobMachine.init as)
    (hrun : jobMachine.run jobMachine.init as = some r) :
    .returned true ∉ r.2 ∧ .ranJobs true ∉ r.2 := by
  have hinv := jobMachine.run_history (P := Remembered)
    (I := fun s es => (Covered s ∧ Plain s) ∧ Event.returned true ∉ es ∧ Event.ranJobs true ∉ es)
    ?_ as jobMachine.init [] r ⟨⟨covered_init, by intro f hf; cases hf⟩, by simp, by simp⟩ hmeets hrun
  · exact hinv.2
  · intro s es a s' o hI ha hs
    obtain ⟨hs', hreturned, hranJobs⟩ := hI.1.1.step hI.1.2 ha hs
    refine ⟨hs', ?_, ?_⟩
    · rw [List.mem_append, not_or]
      exact ⟨hI.2.1, hreturned⟩
    · rw [List.mem_append, not_or]
      exact ⟨hI.2.2, hranJobs⟩

/-- A job that an invocation adds is submitted to the executor, and run. -/
def jobThenTask : List Action :=
  [.setJobExecutor true, .call .call, .enter, .enqueueJob 7, .exit, .leave (.returns true),
    .leave (.returns true), .leave (.returns true), .runTask, .startJob, .exit,
    .leave (.returns true)]

theorem jobThenTask_forgets_nothing :
    ∃ r, jobMachine.run jobMachine.init jobThenTask = some r ∧
      r.2 = [.returned false, .job false, .ranJobs false] ∧
      .returned true ∉ r.2 ∧ .ranJobs true ∉ r.2 := by
  have hrun : jobMachine.run jobMachine.init jobThenTask =
      some ({ jobExecutor := true }, [.returned false, .job false, .ranJobs false]) := by decide
  exact ⟨_, hrun, rfl, nothing_forgotten (by decide) hrun⟩

/-- A getter adds a job, with or without an executor; an object is queued while
    `hasPendingJobs` is asked. -/
theorem job_of_getter_is_forgotten :
    (∀ executor, ∃ s, jobMachine.run jobMachine.init [.setJobExecutor executor, .call .getKeyString,
      .enter, .enqueueJob 7, .exit, .leave (.returns true)] = some (s, [.returned true])) ∧
    ∃ s, jobMachine.run jobMachine.init [.call .call, .leave (.returns true),
      .finalizeJavaScriptObject 5, .leave (.returns false)] = some (s, [.returned true]) :=
  ⟨fun _ => ⟨_, rfl⟩, ⟨_, rfl⟩⟩

end JSEngine.Jobs
