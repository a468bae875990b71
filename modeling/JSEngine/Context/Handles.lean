import JSEngine.Context.Lifecycle

/-!
# Which runs call native methods with valid handles

* `exec_open`: on an open context a body calls native methods with a valid handle;
* `calls_valid_iff`: the native calls of a run are all valid exactly where each
  step is `Safe`: `getGlobalObject` and `compileFunction` are called on open
  contexts, no context is closed under an open native call of its own, and where
  a `finally` block is reached the context is still open, or something is
  queued for finalization;
* `closed_context_reaches_native`: what happens otherwise.
-/

namespace JSEngine.Context

open JSEngine.Common

variable {X : Type*} [DecidableEq X]

/-- The condition on a step. -/
def Safe (s : State X) : Action X → Prop
  | .call x .getGlobalObject | .call x .compileFunction => s.context x ≠ 0
  | .call x .close => s.context x ≠ 0 → ∀ f ∈ s.stack, f.handle ≠ some (s.context x)
  | .leave outcome =>
    ∀ f ∈ s.stack.head?, (f.resume outcome).head? = some .finally →
      s.context f.owner ≠ 0 ∨ s.finalizationQueue f.owner ≠ []
  | _ => True

/-! ## The invariant -/

/-- A body in which every coercion is followed by the `finally` block, and
    nothing is closed or destroyed. -/
def tidy : List Op → Bool
  | [] => true
  | .coerce :: ops => ops == .finally :: handlePostInvocation && tidy ops
  | .close :: _ => false
  | .invoke m :: ops => m != .destroyContext && tidy ops
  | _ :: ops => tidy ops

/-- An open native call holds the handle of its context; after an open call into
    the application nothing is left to run but a `finally` block. -/
def Frame.Ok (context : X → ℕ) (f : Frame X) : Prop :=
  match f.call with
  | some (m, h) =>
    if m = .destroyContext then f.rest = []
    else context f.owner = h ∧ h ≠ 0 ∧ tidy f.rest = true
  | none => f.rest = [] ∨ f.rest = .finally :: handlePostInvocation

/-- The state after a history of valid calls. -/
structure Good (s : State X) (h : List Event) : Prop where
  check : Handles.check {} h = some ⟨s.live, s.stack.filterMap Frame.handle⟩
  null : s.live 0 = false
  created : ∀ x, s.context x ≠ 0 → s.created x = true
  live : ∀ x, s.context x ≠ 0 → s.live (s.context x) = true
  injective : ∀ x y, s.context x ≠ 0 → s.context x = s.context y → x = y
  frames : ∀ f ∈ s.stack, f.Ok s.context

omit [DecidableEq X] in
theorem Good.validCalls {s : State X} {h : List Event} (hg : Good s h) : ValidCalls h := by
  unfold ValidCalls
  rw [hg.check]
  rfl

omit [DecidableEq X] in
/-- A change of what the contract does not see. -/
theorem Good.congr {s s' : State X} {h : List Event} (hg : Good s h) (hlive : s'.live = s.live)
    (hcreated : s'.created = s.created) (hcontext : s'.context = s.context)
    (hstack : s'.stack = s.stack) : Good s' h := by
  refine ⟨?_, ?_, ?_, ?_, ?_, ?_⟩
  · rw [hlive, hstack]
    exact hg.check
  · rw [hlive]
    exact hg.null
  · rw [hcontext, hcreated]
    exact hg.created
  · rw [hlive, hcontext]
    exact hg.live
  · rw [hcontext]
    exact hg.injective
  · rw [hcontext, hstack]
    exact hg.frames

omit [DecidableEq X] in
/-- A native call of an open context is valid. -/
theorem Good.invoke {s : State X} {h : List Event} (hg : Good s h) {x : X} {m : Native}
    {rest : List Op} (hx : s.context x ≠ 0) (hm : m ≠ .destroyContext) (hrest : tidy rest = true) :
    Good (s.invoke x m rest).1 (h ++ (s.invoke x m rest).2) := by
  refine ⟨?_, hg.null, hg.created, hg.live, hg.injective, ?_⟩
  · have hlive : s.live (s.context x) = true := hg.live x hx
    simp [State.invoke, Handles.check_append, hg.check, Handles.check, Handles.step, hlive, hm,
      Frame.handle]
  · intro f hf
    rcases List.mem_cons.mp hf with rfl | hf
    · simp only [Frame.Ok, if_neg hm]
      exact ⟨rfl, hx, hrest⟩
    · exact hg.frames f hf

omit [DecidableEq X] in
theorem Good.callback {s : State X} {h : List Event} (hg : Good s h) {x : X} {rest : List Op}
    (hrest : rest = [] ∨ rest = .finally :: handlePostInvocation) :
    Good (s.callback x rest).1 (h ++ (s.callback x rest).2) := by
  refine ⟨?_, hg.null, hg.created, hg.live, hg.injective, ?_⟩
  · rw [State.callback, List.append_nil, hg.check]
    rfl
  · intro f hf
    rcases List.mem_cons.mp hf with rfl | hf
    · exact hrest
    · exact hg.frames f hf

/-- **Bodies on an open context.** -/
theorem exec_open {s : State X} {h : List Event} (hg : Good s h) {x : X} (hx : s.context x ≠ 0)
    (ops : List Op) (hops : tidy ops = true) :
    Good (exec s x ops).1 (h ++ (exec s x ops).2) := by
  induction ops generalizing s with
  | nil =>
    rw [exec, List.append_nil]
    exact hg
  | cons op ops ih =>
    cases op with
    | guard =>
      rw [exec, if_neg hx]
      exact ih hg hx hops
    | invoke m =>
      simp only [tidy, Bool.and_eq_true, bne_iff_ne] at hops
      exact hg.invoke hx hops.1 hops.2
    | coerce =>
      simp only [tidy, Bool.and_eq_true, beq_iff_eq] at hops
      exact hg.callback (Or.inr hops.1)
    | «finally» => exact ih hg hx hops
    | check =>
      rw [exec]
      split_ifs
      · exact hg.invoke hx (by decide) hops
      · exact ih hg hx hops
    | execute =>
      rw [exec]
      split_ifs
      · exact hg.callback (Or.inl rfl)
      · exact ih hg hx hops
    | drain =>
      rw [exec]
      dsimp only
      rw [if_neg hx]
      split_ifs
      · exact ih hg hx hops
      · have hg' : Good { s with finalizationQueue := Function.update s.finalizationQueue x [] } h :=
          hg.congr rfl rfl rfl rfl
        exact hg'.invoke hx (by decide) hops
    | close => cases hops

omit [DecidableEq X] in
/-- The handle 0 is never valid. -/
theorem Good.not_valid_zero {s : State X} {h : List Event} (hg : Good s h) (m : Native)
    (es : List Event) : ¬ValidCalls (h ++ .invoked m 0 :: es) := by
  unfold ValidCalls
  rw [Handles.check_append, hg.check]
  simp [Handles.check, Handles.step, hg.null]

/-! ## One step -/

/-- `close()` on an open context that no open native call uses. -/
theorem Good.close {s : State X} {h : List Event} (hg : Good s h) {x : X}
    (hx : s.context x ≠ 0) (hfree : ∀ f ∈ s.stack, f.handle ≠ some (s.context x)) :
    Good (exec s x [.close]).1 (h ++ (exec s x [.close]).2) := by
  have hlive : s.live (s.context x) = true := hg.live x hx
  have hother : ∀ y, y ≠ x → s.context y ≠ 0 → s.context y ≠ s.context x := by
    intro y hy hy0 he
    exact hy (hg.injective y x hy0 he)
  rw [exec, if_neg hx]
  refine ⟨?_, ?_, ?_, ?_, ?_, ?_⟩
  · have hnot : s.context x ∉ s.stack.filterMap Frame.handle := by
      intro hmem
      obtain ⟨f, hf, hfh⟩ := List.mem_filterMap.mp hmem
      exact hfree f hf hfh
    simp [Handles.check_append, hg.check, Handles.check, Handles.step, hlive, hnot, Frame.handle]
  · dsimp only
    rw [Function.update_of_ne fun e => hx e.symm]
    exact hg.null
  · intro y hy
    dsimp only at hy ⊢
    by_cases hyx : y = x
    · subst hyx
      rw [Function.update_self] at hy
      exact absurd rfl hy
    · rw [Function.update_of_ne hyx] at hy
      exact hg.created y hy
  · intro y hy
    dsimp only at hy ⊢
    by_cases hyx : y = x
    · subst hyx
      rw [Function.update_self] at hy
      exact absurd rfl hy
    · rw [Function.update_of_ne hyx] at hy ⊢
      rw [Function.update_of_ne (hother y hyx hy)]
      exact hg.live y hy
  · intro y z hy hyz
    dsimp only at hy hyz
    have hyx : y ≠ x := by
      rintro rfl
      rw [Function.update_self] at hy
      exact hy rfl
    rw [Function.update_of_ne hyx] at hy hyz
    by_cases hzx : z = x
    · subst hzx
      rw [Function.update_self] at hyz
      exact absurd hyz hy
    · rw [Function.update_of_ne hzx] at hyz
      exact hg.injective y z hy hyz
  · intro f hf
    rcases List.mem_cons.mp hf with rfl | hf
    · simp [Frame.Ok]
    · have hok := hg.frames f hf
      have hne := hfree f hf
      unfold Frame.Ok at hok ⊢
      cases hcall : f.call with
      | none =>
        rw [hcall] at hok
        exact hok
      | some c =>
        obtain ⟨m, hd⟩ := c
        rw [hcall] at hok
        dsimp only at hok ⊢
        split_ifs at hok ⊢
        · exact hok
        · -- a native call of `x` would hold the handle that is destroyed
          have howner : f.owner ≠ x := by
            rintro rfl
            rw [hok.1] at hne
            simp [Frame.handle, hcall] at hne
          rw [Function.update_of_ne howner]
          exact hok

omit [DecidableEq X] in
/-- The innermost call has ended. -/
theorem Good.pop {s : State X} {h : List Event} (hg : Good s h) {f : Frame X}
    {fs : List (Frame X)} (hs : s.stack = f :: fs) :
    Good { s with stack := fs } (h ++ (f.handle.map Event.returned).toList) := by
  refine ⟨?_, hg.null, hg.created, hg.live, hg.injective, ?_⟩
  · rw [Handles.check_append, hg.check, hs]
    cases hf : f.handle with
    | none =>
      rw [List.filterMap_cons_none hf]
      rfl
    | some hd =>
      rw [List.filterMap_cons_some hf]
      simp [Handles.check, Handles.step]
  · intro f' hf'
    exact hg.frames f' (by rw [hs]; exact List.mem_cons_of_mem _ hf')

theorem tidy_tail {op : Op} {ops : List Op} (h : tidy (op :: ops) = true) : tidy ops = true := by
  cases op with
  | coerce | invoke =>
    simp only [tidy, Bool.and_eq_true] at h
    exact h.2
  | close => cases h
  | guard | «finally» | check | execute | drain => exact h

theorem tidy_dropWhile {ops : List Op} (h : tidy ops = true) (p : Op → Bool) :
    tidy (ops.dropWhile p) = true := by
  induction ops with
  | nil => rfl
  | cons op ops ih =>
    rw [List.dropWhile_cons]
    split_ifs
    · exact ih (tidy_tail h)
    · exact h

omit [DecidableEq X] in
theorem Frame.tidy_resume {f : Frame X} (h : tidy f.rest = true) (outcome : Outcome) :
    tidy (f.resume outcome) = true := by
  cases outcome with
  | throws => exact tidy_dropWhile h _
  | returns b =>
    show tidy (if _ then _ else _) = true
    split_ifs
    · rfl
    · exact h

omit [DecidableEq X] in
theorem Frame.resume_nil {f : Frame X} (h : f.rest = []) (outcome : Outcome) :
    f.resume outcome = [] := by
  cases outcome <;> simp [Frame.resume, h]

omit [DecidableEq X] in
theorem Frame.resume_finally {f : Frame X} {ops : List Op} (hcall : f.call = none)
    (h : f.rest = .finally :: ops) (outcome : Outcome) : f.resume outcome = .finally :: ops := by
  cases outcome with
  | throws => simp [Frame.resume, h]
  | returns b => simp [Frame.resume, hcall, h]

/-- The `finally` block on a closed context. -/
theorem exec_finally_closed {s : State X} {h : List Event} (hg : Good s h) {x : X}
    (hx : s.context x = 0) :
    (ValidCalls (h ++ (exec s x (.finally :: handlePostInvocation)).2) ↔
        s.finalizationQueue x ≠ []) ∧
      (s.finalizationQueue x ≠ [] →
        Good (exec s x (.finally :: handlePostInvocation)).1
          (h ++ (exec s x (.finally :: handlePostInvocation)).2)) := by
  by_cases hq : s.finalizationQueue x = []
  · have hexec : (exec s x (.finally :: handlePostInvocation)).2 =
        [.invoked .hasPendingJobs 0] := by
      simp [exec, handlePostInvocation, hq, State.invoke, hx]
    rw [hexec]
    refine ⟨iff_of_false (hg.not_valid_zero _ _) fun hne => hne hq, fun hne => absurd hq hne⟩
  · have hgood : Good (exec s x (.finally :: handlePostInvocation)).1
        (h ++ (exec s x (.finally :: handlePostInvocation)).2) := by
      simp only [exec, handlePostInvocation, runPostInvocation, List.cons_append, List.nil_append,
        if_neg hq, if_pos hx]
      split_ifs
      · exact hg.callback (Or.inl rfl)
      · rw [List.append_nil]
        exact hg
    exact ⟨iff_of_true hgood.validCalls hq, fun _ => hgood⟩

omit [DecidableEq X] in
/-- Where a step is safe it leads to a good state, and where it is not its calls
    are not valid. -/
theorem step_of_safe {s s' : State X} {h : List Event} {a : Action X} {o : List Event}
    (hgood : Safe s a → Good s' (h ++ o)) (hbad : ¬Safe s a → ¬ValidCalls (h ++ o)) :
    (ValidCalls (h ++ o) ↔ Safe s a) ∧ (Safe s a → Good s' (h ++ o)) := by
  refine ⟨⟨?_, fun hs => (hgood hs).validCalls⟩, hgood⟩
  intro hv
  by_contra hs
  exact hbad hs hv

omit [DecidableEq X] in
/-- A native call on a closed context. -/
theorem Good.not_valid_invoke {s : State X} {h : List Event} (hg : Good s h) {x : X}
    (hx : s.context x = 0) (m : Native) (rest : List Op) :
    ¬ValidCalls (h ++ (s.invoke x m rest).2) := by
  simp only [State.invoke, hx]
  exact hg.not_valid_zero m []

/-- Apart from `close` and the two bodies without a test, bodies begin with the
    test of `context` or only drain the queue. -/
theorem body_cases (m : EntryPoint) :
    m = .close ∨ m = .getGlobalObject ∨ m = .compileFunction ∨ m.body = [.drain] ∨
      ∃ ops, m.body = .guard :: ops := by
  cases m <;> simp [EntryPoint.body, guarded, timed, coerced, runPostInvocation]

/-- Bodies other than that of `close` are tidy. -/
theorem tidy_body {m : EntryPoint} (hm : m ≠ .close) : tidy m.body = true := by
  cases m <;> first | rfl | exact absurd rfl hm

/-- **Calls of an entry point.** -/
theorem call_step {s : State X} {h : List Event} (hg : Good s h) (x : X) (m : EntryPoint) :
    (ValidCalls (h ++ (exec s x m.body).2) ↔ Safe s (.call x m)) ∧
      (Safe s (.call x m) → Good (exec s x m.body).1 (h ++ (exec s x m.body).2)) := by
  by_cases hx : s.context x = 0
  · rcases body_cases m with rfl | rfl | rfl | hbody | ⟨ops, hbody⟩
    · refine step_of_safe (fun _ => ?_) fun hn => absurd (fun hne => absurd hx hne) hn
      simpa [EntryPoint.body, exec, hx] using hg
    · exact step_of_safe (fun hs => absurd hx hs) fun _ => hg.not_valid_invoke hx _ _
    · exact step_of_safe (fun hs => absurd hx hs) fun _ => hg.not_valid_invoke hx _ _
    · have hsafe : Safe s (.call x m) := by
        cases m <;> trivial
      refine step_of_safe (fun _ => ?_) fun hn => absurd hsafe hn
      rw [hbody, exec]
      dsimp only
      rw [if_pos hx, exec, exec]
      split_ifs
      · rw [List.append_nil]
        exact hg
      · rw [List.append_nil]
        exact hg.congr rfl rfl rfl rfl
    · have hsafe : Safe s (.call x m) := by
        cases m <;> first | trivial | cases hbody
      refine step_of_safe (fun _ => ?_) fun hn => absurd hsafe hn
      rw [hbody, exec, if_pos hx, List.append_nil]
      exact hg
  · by_cases hm : m = .close
    · subst hm
      refine step_of_safe (fun hs => hg.close hx (hs hx)) fun hn => ?_
      -- the handle of the context is that of an open native call
      have hopen : ¬∀ f ∈ s.stack, f.handle ≠ some (s.context x) := fun hfree => hn fun _ => hfree
      push Not at hopen
      obtain ⟨f, hf, hfh⟩ := hopen
      have hmem : s.context x ∈ s.stack.filterMap Frame.handle := List.mem_filterMap.mpr ⟨f, hf, hfh⟩
      simp [EntryPoint.body, exec, hx, ValidCalls, Handles.check_append, hg.check, Handles.check,
        Handles.step, hg.live x hx, hmem]
    · have hsafe : Safe s (.call x m) := by
        cases m <;> trivial
      exact step_of_safe (fun _ => exec_open hg hx _ (tidy_body hm)) fun hn => absurd hsafe hn

/-- **The end of the innermost call.** -/
theorem leave_step {s : State X} {h : List Event} (hg : Good s h) {f : Frame X}
    {fs : List (Frame X)} (hstack : s.stack = f :: fs) (outcome : Outcome) {r : State X × List Event}
    (hr : exec { s with stack := fs } f.owner (f.resume outcome) = r) :
    (ValidCalls (h ++ ((f.handle.map Event.returned).toList ++ r.2)) ↔ Safe s (.leave outcome)) ∧
      (Safe s (.leave outcome) →
        Good r.1 (h ++ ((f.handle.map Event.returned).toList ++ r.2))) := by
  have hpop := hg.pop hstack
  have hok := hg.frames f (by rw [hstack]; exact List.mem_cons_self ..)
  have hsafe_iff : Safe s (.leave outcome) ↔
      ((f.resume outcome).head? = some .finally →
        s.context f.owner ≠ 0 ∨ s.finalizationQueue f.owner ≠ []) := by
    simp [Safe, hstack]
  rw [← List.append_assoc]
  -- nothing is left to run
  have hnil : f.rest = [] →
      (ValidCalls (h ++ (f.handle.map Event.returned).toList ++ r.2) ↔ Safe s (.leave outcome)) ∧
        (Safe s (.leave outcome) →
          Good r.1 (h ++ (f.handle.map Event.returned).toList ++ r.2)) := by
    intro hrest
    have hresume := f.resume_nil hrest outcome
    refine step_of_safe (fun _ => ?_) fun hn => absurd (hsafe_iff.mpr ?_) hn
    · rw [← hr, hresume, exec, List.append_nil]
      exact hpop
    · rw [hresume]
      intro hhead
      cases hhead
  -- the context of the call is open
  have hopen : s.context f.owner ≠ 0 → tidy (f.resume outcome) = true →
      (ValidCalls (h ++ (f.handle.map Event.returned).toList ++ r.2) ↔ Safe s (.leave outcome)) ∧
        (Safe s (.leave outcome) →
          Good r.1 (h ++ (f.handle.map Event.returned).toList ++ r.2)) := by
    intro hx htidy
    refine step_of_safe (fun _ => ?_) fun hn => absurd (hsafe_iff.mpr fun _ => Or.inl hx) hn
    rw [← hr]
    exact exec_open hpop hx _ htidy
  unfold Frame.Ok at hok
  cases hcall : f.call with
  | some c =>
    obtain ⟨m, hd⟩ := c
    rw [hcall] at hok
    dsimp only at hok
    split_ifs at hok
    · exact hnil hok
    · obtain ⟨hhandle, hne, htidy⟩ := hok
      exact hopen (by rw [hhandle]; exact hne) (f.tidy_resume htidy outcome)
  | none =>
    rw [hcall] at hok
    rcases hok with hrest | hrest
    · exact hnil hrest
    · have hresume := f.resume_finally hcall hrest outcome
      by_cases hx : s.context f.owner = 0
      · obtain ⟨hvalid, hgood⟩ := exec_finally_closed hpop (x := f.owner) hx
        rw [hresume] at hr
        rw [hr] at hvalid hgood
        have hsafe : Safe s (.leave outcome) ↔ s.finalizationQueue f.owner ≠ [] := by
          rw [hsafe_iff, hresume]
          simp [hx]
        rw [hsafe]
        exact ⟨hvalid, hgood⟩
      · refine hopen hx ?_
        rw [hresume]
        rfl

/-- **A new context.** The allocator returns an address that no context uses. -/
theorem Good.create {s s' : State X} {h : List Event} (hg : Good s h) {x : X} {handle : ℕ}
    (hx : s.created x = false) (hne : handle ≠ 0) (hfree : s.live handle = false)
    (hcreated : s'.created = Function.update s.created x true)
    (hcontext : s'.context = Function.update s.context x handle)
    (hlive : s'.live = Function.update s.live handle true) (hstack : s'.stack = s.stack) :
    Good s' (h ++ [.created handle]) := by
  have hunused : ∀ y, s.context y ≠ handle := by
    intro y hy
    have hlive := hg.live y (by rw [hy]; exact hne)
    rw [hy, hfree] at hlive
    cases hlive
  have hx0 : s.context x = 0 := by
    by_contra hx0
    have hcr := hg.created x hx0
    rw [hx] at hcr
    cases hcr
  refine ⟨?_, ?_, ?_, ?_, ?_, ?_⟩
  · rw [Handles.check_append, hg.check, hlive, hstack]
    rfl
  · rw [hlive, Function.update_of_ne fun e => hne e.symm]
    exact hg.null
  · intro y hy
    rw [hcontext] at hy
    rw [hcreated]
    by_cases hyx : y = x
    · rw [hyx, Function.update_self]
    · rw [Function.update_of_ne hyx] at hy ⊢
      exact hg.created y hy
  · intro y hy
    rw [hcontext] at hy ⊢
    rw [hlive]
    by_cases hyx : y = x
    · rw [hyx, Function.update_self, Function.update_self]
    · rw [Function.update_of_ne hyx] at hy ⊢
      rw [Function.update_of_ne (hunused y)]
      exact hg.live y hy
  · intro y z hy hyz
    rw [hcontext] at hy hyz
    by_cases hyx : y = x
    · by_cases hzx : z = x
      · rw [hyx, hzx]
      · rw [hyx, Function.update_self, Function.update_of_ne hzx] at hyz
        exact absurd hyz.symm (hunused z)
    · by_cases hzx : z = x
      · rw [hzx, Function.update_self, Function.update_of_ne hyx] at hyz
        exact absurd hyz (hunused y)
      · rw [Function.update_of_ne hyx] at hy hyz
        rw [Function.update_of_ne hzx] at hyz
        exact hg.injective y z hy hyz
  · intro f hf
    rw [hstack] at hf
    have hok := hg.frames f hf
    unfold Frame.Ok at hok ⊢
    cases hcall : f.call with
    | none =>
      rw [hcall] at hok
      exact hok
    | some c =>
      obtain ⟨m, hd⟩ := c
      rw [hcall] at hok
      dsimp only at hok ⊢
      split_ifs at hok ⊢
      · exact hok
      · have howner : f.owner ≠ x := by
          intro e
          rw [e, hx0] at hok
          exact hok.2.1 hok.1.symm
        rw [hcontext, Function.update_of_ne howner]
        exact hok

/-- **Step.** From a good state the calls of a step are valid exactly where the
    step is safe, and a safe step leads to a good state. -/
theorem contextStep_valid {s s' : State X} {h : List Event} {a : Action X} {o : List Event}
    (hg : Good s h) (hs : contextStep s a = some (s', o)) :
    (ValidCalls (h ++ o) ↔ Safe s a) ∧ (Safe s a → Good s' (h ++ o)) := by
  cases a with
  | create x handle =>
    refine step_of_safe (fun _ => ?_) fun hn => absurd trivial hn
    simp only [contextStep] at hs
    split_ifs at hs with hzero hno
    · obtain ⟨rfl, rfl⟩ : s = s' ∧ [] = o := by simpa using hs
      rw [List.append_nil]
      exact hg
    · simp only [not_or, Bool.not_eq_true, Bool.not_eq_false] at hno
      obtain ⟨hx, halloc⟩ := hno
      simp only [State.allocatable, Bool.and_eq_true, Bool.not_eq_true'] at halloc
      simp only [Option.some.injEq, Prod.mk.injEq] at hs
      obtain ⟨rfl, rfl⟩ := hs
      exact hg.create hx hzero halloc.1 rfl rfl rfl rfl
  | call x m =>
    simp only [contextStep] at hs
    split_ifs at hs with hx
    have hexec := Option.some.inj hs
    have hstep := call_step hg x m
    rw [hexec] at hstep
    exact hstep
  | leave outcome =>
    simp only [contextStep] at hs
    cases hstack : s.stack with
    | nil =>
      rw [hstack] at hs
      cases hs
    | cons f fs =>
      rw [hstack] at hs
      simp only [Option.some.injEq, Prod.mk.injEq] at hs
      obtain ⟨rfl, rfl⟩ := hs
      exact leave_step hg hstack outcome rfl
  | setJobExecutor x executor =>
    refine step_of_safe (fun _ => ?_) fun hn => absurd trivial hn
    simp only [contextStep] at hs
    split_ifs at hs with hx
    obtain ⟨rfl, rfl⟩ := Prod.mk.inj (Option.some.inj hs)
    rw [List.append_nil]
    exact hg.congr rfl rfl rfl rfl
  | finalizeJavaScriptObject x object =>
    refine step_of_safe (fun _ => ?_) fun hn => absurd trivial hn
    simp only [contextStep] at hs
    split_ifs at hs with hx
    · obtain ⟨rfl, rfl⟩ := Prod.mk.inj (Option.some.inj hs)
      rw [List.append_nil]
      exact hg
    · obtain ⟨rfl, rfl⟩ := Prod.mk.inj (Option.some.inj hs)
      rw [List.append_nil]
      exact hg.congr rfl rfl rfl rfl

omit [DecidableEq X] in
theorem good_init : Good ({} : State X) [] :=
  ⟨rfl, rfl, fun _ hx => absurd rfl hx, fun _ hx => absurd rfl hx,
    fun _ _ hx => absurd rfl hx, fun _ hf => by cases hf⟩

/-- **Exactly when native handles stay valid.** In every run of calls on one
    thread, nested in any way, each native method is called with a handle that
    was created and not yet destroyed, and `destroyContext` never while another
    native call with the handle is open, if and only if every step is safe. -/
theorem calls_valid_iff (as : List (Action X)) (r : State X × List Event)
    (hr : contextMachine.run {} as = some r) :
    ValidCalls r.2 ↔ contextMachine.Meets Safe {} as := by
  have h := contextMachine.run_accepts_iff (A := ValidCalls) (I := Good) (P := Safe)
    validCalls_prefix (fun _ _ hg => hg.validCalls)
    (fun _ _ _ _ _ hg hs => contextStep_valid hg hs) as {} [] r good_init hr
  rw [List.nil_append] at h
  exact h

/-- A callback that calls a method of the context it is called from, jobs after
    it, a close, and a new context at the same address. -/
theorem calls_valid_reentrant :
    (contextMachine : Machine (State ℕ) _ _).Meets Safe {}
      [.create 0 64, .call 0 .evaluate, .call 0 .callMethod, .leave .throws,
        .leave (.returns true), .leave (.returns true), .leave (.returns true),
        .leave (.returns true), .leave (.returns false), .call 0 .close, .leave (.returns true),
        .call 0 .evaluate, .create 1 64, .call 1 .getGlobalObject] :=
  (calls_valid_iff _ (_, _) rfl).mp (by decide)

/-- The runs of one context whose last call is not valid: `getGlobalObject()`
    after `close()`; `close()` called back from `evaluate`; and `close()` in a
    coercion of the result of `evaluate`. -/
theorem closed_context_reaches_native :
    let afterClose : List (Action ℕ) :=
      [.create 0 64, .call 0 .close, .leave (.returns true), .call 0 .getGlobalObject]
    let inEvaluate : List (Action ℕ) := [.create 0 64, .call 0 .evaluate, .call 0 .close]
    let inCoercion : List (Action ℕ) :=
      [.create 0 64, .call 0 .evaluate, .leave (.returns true), .call 0 .close,
        .leave (.returns true), .leave (.returns true)]
    (contextMachine.run {} afterClose).map Prod.snd =
        some [.created 64, .invoked .destroyContext 64, .returned 64,
          .invoked .getGlobalObject 0] ∧
      (contextMachine.run {} inEvaluate).map Prod.snd =
        some [.created 64, .invoked .evaluate 64, .invoked .destroyContext 64] ∧
      (contextMachine.run {} inCoercion).map Prod.snd =
        some [.created 64, .invoked .evaluate 64, .returned 64, .invoked .destroyContext 64,
          .returned 64, .invoked .hasPendingJobs 0] ∧
      ∀ as ∈ [afterClose, inEvaluate, inCoercion],
        ∀ es ∈ (contextMachine.run {} as).map Prod.snd, ¬ValidCalls es := by
  decide

end JSEngine.Context
