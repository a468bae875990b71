import JSEngine.Jobs.Model

/-!
# The job machine refines the life cycle

The job machine runs the bodies of `Context.Lifecycle` with more state: what it
adds are steps of the engine that the life cycle does not see.

* `refines_exec`: a body does the same to both;
* `refines_run`: every run of the job machine is a run of the life cycle, with the
  calls, their ends and the finalizer's entries in the same order.
-/

namespace JSEngine.Jobs

open JSEngine.Common
open JSEngine.Context (Native Op EntryPoint Outcome handlePostInvocation runPostInvocation contextMachine)

/-- The native method that is called. -/
def Callee.native? : Callee → Option Native
  | .native m => some m
  | _ => none

/-- The same call, with its handle. -/
def FrameRefines (f : Frame) (g : Context.Frame Unit) : Prop :=
  g.call.map Prod.fst = f.callee.native? ∧ g.rest = f.rest

/-- The same context, without its jobs. -/
structure Refines (s : State) (t : Context.State Unit) : Prop where
  created : t.created () = true
  context : t.context () = 0 ↔ s.isOpen = false
  queue : t.finalizationQueue () = s.finalizationQueue
  executor : t.jobExecutor () = s.jobExecutor
  stack : List.Forall₂ FrameRefines s.stack t.stack

theorem Refines.push {s : State} {t : Context.State Unit} (h : Refines s t) {callee : Callee}
    {rest : List Op} {g : Context.Frame Unit} (hg : FrameRefines ⟨callee, rest, false⟩ g) :
    Refines (s.push callee rest) { t with stack := g :: t.stack } :=
  ⟨h.created, h.context, h.queue, h.executor, .cons hg h.stack⟩

/-- **Bodies.** -/
theorem refines_exec {s : State} {t : Context.State Unit} (h : Refines s t) (ops : List Op) :
    Refines (exec s ops) (Context.exec t () ops).1 := by
  have hdrained : ∀ {s t}, Refines s t → Refines { s with finalizationQueue := [] }
      { t with finalizationQueue := Function.update t.finalizationQueue () [] } := by
    intro s t h
    exact ⟨h.created, h.context, by simp, h.executor, h.stack⟩
  induction ops generalizing s t with
  | nil => exact h
  | cons op ops ih =>
    have hopen : ∀ {s t}, Refines s t → (t.context () = 0 ↔ ¬s.isOpen = true) := by
      intro s t h
      rw [Bool.not_eq_true]
      exact h.context
    cases op with
    | guard =>
      rw [exec, Context.exec]
      by_cases hc : t.context () = 0
      · rw [if_pos hc, if_neg ((hopen h).mp hc)]
        exact h
      · rw [if_neg hc, if_pos (not_not.mp ((hopen h).not.mp hc))]
        exact ih h
    | invoke m => exact h.push ⟨rfl, rfl⟩
    | coerce => exact h.push ⟨rfl, rfl⟩
    | «finally» => exact ih h
    | check =>
      rw [exec, Context.exec, h.queue]
      split_ifs
      · exact h.push ⟨rfl, rfl⟩
      · exact ih h
    | execute =>
      rw [exec, Context.exec, h.executor]
      split_ifs
      · exact ⟨h.created, h.context, h.queue, h.executor, .cons ⟨rfl, rfl⟩ h.stack⟩
      · exact ih h
    | drain =>
      rw [exec, Context.exec, h.queue]
      dsimp only
      by_cases hq : s.finalizationQueue = []
      · rw [if_pos hq, if_pos hq]
        exact ih h
      · rw [if_neg hq, if_neg hq]
        by_cases hc : t.context () = 0
        · rw [if_pos hc, if_neg ((hopen h).mp hc)]
          exact ih (hdrained h)
        · rw [if_neg hc, if_pos (not_not.mp ((hopen h).not.mp hc))]
          exact (hdrained h).push ⟨rfl, rfl⟩
    | close =>
      rw [exec, Context.exec]
      by_cases hc : t.context () = 0
      · rw [if_pos hc, if_neg ((hopen h).mp hc)]
        exact ih h
      · rw [if_neg hc, if_pos (not_not.mp ((hopen h).not.mp hc))]
        exact ⟨h.created, by simp [State.push], h.queue, h.executor, .cons ⟨rfl, rfl⟩ h.stack⟩

theorem refines_settle {s : State} {t : Context.State Unit} (h : Refines s t) :
    Refines (settle s).1 t := by
  unfold settle
  split
  · exact ⟨h.created, h.context, h.queue, h.executor, h.stack⟩
  · exact h

theorem resume_eq {f : Frame} {g : Context.Frame Unit} (h : FrameRefines f g) (outcome : Outcome) :
    f.resume outcome = g.resume outcome := by
  obtain ⟨callee, rest, script⟩ := f
  obtain ⟨hcallee, hrest⟩ := h
  unfold Frame.resume Context.Frame.resume
  cases outcome with
  | throws => rw [hrest]
  | returns b =>
    dsimp only at hcallee hrest ⊢
    rw [hrest, hcallee]
    cases callee with
    | native m => simp [Callee.native?]
    | coercion => simp [Callee.native?]
    | executor => simp [Callee.native?]

/-- The step of the life cycle, if there is one. -/
def visible : Action → List (Context.Action Unit)
  | .call m => [.call () m]
  | .runTask => [.call () .runPostInvocation]
  | .leave outcome => [.leave outcome]
  | .setJobExecutor executor => [.setJobExecutor () executor]
  | .finalizeJavaScriptObject object => [.finalizeJavaScriptObject () object]
  | .enter | .startJob | .enqueueJob _ | .exit => []

theorem run_singleton {t : Context.State Unit} {a : Context.Action Unit}
    {r : Context.State Unit × List Context.Event} (h : Context.contextStep t a = some r) :
    contextMachine.run t [a] = some r := by
  refine contextMachine.run_cons_eq_some.mpr ⟨r.1, r.2, (r.1, []), h, rfl, ?_⟩
  rw [List.append_nil]

/-- A change of the script over the innermost frame is not visible. -/
theorem Refines.replace {s s' : State} {t : Context.State Unit} {callee : Callee} {rest : List Op}
    {script script' : Bool} {fs : List Frame} (h : Refines s t)
    (hstack : s.stack = ⟨callee, rest, script⟩ :: fs)
    (hstack' : s'.stack = ⟨callee, rest, script'⟩ :: fs) (hopen : s'.isOpen = s.isOpen)
    (hqueue : s'.finalizationQueue = s.finalizationQueue)
    (hexecutor : s'.jobExecutor = s.jobExecutor) : Refines s' t := by
  have hframes := h.stack
  rw [hstack] at hframes
  refine ⟨h.created, hopen ▸ h.context, hqueue ▸ h.queue, hexecutor ▸ h.executor, ?_⟩
  obtain ⟨g, gs, hf, hfs, hts⟩ := List.forall₂_cons_left_iff.mp hframes
  rw [hstack', hts]
  exact .cons hf hfs

theorem refines_step {s : State} {t : Context.State Unit} {a : Action} {r : State × List Event}
    (h : Refines s t) (hstep : jobMachine.step s a = some r) :
    ∃ q, contextMachine.run t (visible a) = some q ∧ Refines r.1 q.1 := by
  have hcall : ∀ {s' : State} (m : EntryPoint), Refines s' t →
      ∃ q, contextMachine.run t [.call () m] = some q ∧ Refines (exec s' m.body) q.1 := by
    intro s' m hs'
    exact ⟨_, run_singleton (if_pos h.created), refines_exec hs' m.body⟩
  cases steps_of_jobStep hstep with
  | @call m hjava hm =>
    have hbegin : Refines (s.begin m) t := by
      unfold State.begin
      split_ifs
      · exact ⟨h.created, h.context, h.queue, h.executor, h.stack⟩
      · exact h
    obtain ⟨q, hq, hrefines⟩ := hcall m hbegin
    exact ⟨q, hq, refines_settle hrefines⟩
  | runTask hjava hsubmitted =>
    have hs' : Refines { s with submitted := s.submitted - 1 } t :=
      ⟨h.created, h.context, h.queue, h.executor, h.stack⟩
    exact hcall .runPostInvocation hs'
  | enter hstack hopen hm => exact ⟨_, rfl, h.replace hstack rfl rfl rfl rfl⟩
  | startJob hstack hjobs hopen => exact ⟨_, rfl, h.replace hstack rfl rfl rfl rfl⟩
  | enqueueJob job hstack hopen =>
    exact ⟨_, rfl, h.created, h.context, h.queue, h.executor, h.stack⟩
  | exit hstack hopen => exact ⟨_, rfl, h.replace hstack rfl rfl rfl rfl⟩
  | @leave f fs outcome hstack hleave =>
    have hframes := h.stack
    rw [hstack] at hframes
    obtain ⟨g, gs, hf, hfs, hts⟩ := List.forall₂_cons_left_iff.mp hframes
    have hpop : Refines (s.pop f fs outcome) { t with stack := gs } := by
      unfold State.pop
      split
      · exact ⟨h.created, h.context, h.queue, h.executor, hfs⟩
      · exact ⟨h.created, h.context, h.queue, h.executor, hfs⟩
    have hleft : ∃ es, Context.contextStep t (.leave outcome) =
        some ((Context.exec { t with stack := gs } () (f.resume outcome)).1, es) := by
      simp only [Context.contextStep, hts, resume_eq hf]
      exact ⟨_, rfl⟩
    obtain ⟨es, hleft⟩ := hleft
    exact ⟨_, run_singleton hleft, refines_settle (refines_exec hpop (f.resume outcome))⟩
  | setJobExecutor executor =>
    exact ⟨_, run_singleton (if_pos h.created), h.created, h.context, h.queue, by simp, h.stack⟩
  | finalizeJavaScriptObject object hopen =>
    have hc : t.context () ≠ 0 := fun hc => by
      rw [h.context.mp hc] at hopen
      cases hopen
    refine ⟨_, run_singleton (if_neg hc), h.created, h.context, ?_, h.executor, h.stack⟩
    simp [h.queue]
  | finalizeClosed object hclosed =>
    exact ⟨_, run_singleton (if_pos (h.context.mpr hclosed)), h⟩

/-- **The refinement.** -/
theorem refines_run {as : List Action} {s : State} {t : Context.State Unit} {r : State × List Event}
    (h : Refines s t) (hrun : jobMachine.run s as = some r) :
    ∃ q, contextMachine.run t (as.flatMap visible) = some q ∧ Refines r.1 q.1 := by
  induction as generalizing s t r with
  | nil =>
    obtain rfl : (s, []) = r := by simpa using hrun
    exact ⟨_, rfl, h⟩
  | cons a as ih =>
    obtain ⟨s', o, q, hs, hq, rfl⟩ := jobMachine.run_cons_eq_some.mp hrun
    obtain ⟨p, hp, hrefines⟩ := refines_step h hs
    obtain ⟨p', hp', hrefines'⟩ := ih hrefines hq
    rw [List.flatMap_cons]
    exact ⟨_, contextMachine.run_append.mpr ⟨p, p', hp, hp', rfl⟩, hrefines'⟩

end JSEngine.Jobs
