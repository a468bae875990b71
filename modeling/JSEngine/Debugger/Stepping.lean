import JSEngine.Debugger.Conversation

/-!
# Steps of the debugger

`js_debugger_check` is called before every instruction, so where a step ends depends on all
the instructions since it began, and a client is heard only between instructions.

Main results:

* `stops_first`: from a state where the program runs, it goes on exactly as long as no
  instruction is one where the step ends or a breakpoint is met, and is stopped at the first
  one that is, with its reason;
* `heard_within`: what the client sends is read within 10001 instructions away from the place
  where the step began, or at the next one after `cooperateDebugger`, and never at that place.
-/

namespace JSEngine.Debugger.Session

open JSEngine.Common
open JSDebuggerInfo

/-! ## Where a step ends -/

/-- An instruction that is next, and whether it has a breakpoint. -/
structure Visit where
  here : Place
  at_breakpoint : Bool
  deriving DecidableEq

def Visit.check (v : Visit) (ctx : ℕ) : Action := .check ctx v.here v.at_breakpoint

/-- Where a step ends, away from the place where it began. -/
def Stepping.ends (start here : Place) : Stepping → Option String
  | .off | .JS_DEBUGGER_STEP_CONTINUE => none
  | .JS_DEBUGGER_STEP_IN => some "stepIn"
  | .JS_DEBUGGER_STEP_OUT => if here.depth < start.depth then some "stepOut" else none
  | .JS_DEBUGGER_STEP =>
    if here.location ≠ start.location ∧ here.depth ≤ start.depth then some "step" else none

/-- The reason to stop at a visit after `earlier` ones: a breakpoint, or the end of the step.
    A step passes the place where it began; `continue` does so only until it has been left. -/
def stopsAt (stepping : Stepping) (start : Place) (earlier : List Visit) (v : Visit) :
    Option String :=
  let passes := match stepping with
    | .off => false
    | .JS_DEBUGGER_STEP_CONTINUE => (earlier ++ [v]).all fun u => u.here = start
    | _ => v.here = start
  if passes then none
  else if v.at_breakpoint then some "breakpoint"
  else stepping.ends start v.here

/-- The place where the step began. -/
def JSDebuggerInfo.start (info : JSDebuggerInfo) : Place := ⟨info.step_over, info.step_depth⟩

@[simp] theorem start_location (info : JSDebuggerInfo) : info.start.location = info.step_over := rfl

@[simp] theorem start_depth (info : JSDebuggerInfo) : info.start.depth = info.step_depth := rfl

theorem atStep_iff {info : JSDebuggerInfo} {here : Place} :
    info.AtStep here ↔ here = info.start := by
  obtain ⟨location, depth⟩ := here
  simp only [AtStep, start, Place.mk.injEq]
  tauto

/-- After some visits: the step is still under way, or was a `continue` whose place has been
    left. -/
structure Course (s : JSDebuggerInfo) (earlier : List Visit) (s' : JSDebuggerInfo) : Prop where
  start : s'.start = s.start
  stepping : s'.stepping = s.stepping ∧
      (s.stepping = .JS_DEBUGGER_STEP_CONTINUE → ∀ u ∈ earlier, u.here = s.start) ∨
    s'.stepping = .off ∧ s.stepping = .JS_DEBUGGER_STEP_CONTINUE ∧ ∃ u ∈ earlier, u.here ≠ s.start

/-- What is to come depends on the present state alone. -/
theorem Course.stopsAt_eq {s s' : JSDebuggerInfo} {earlier : List Visit}
    (h : Course s earlier s') (v : Visit) :
    stopsAt s.stepping s.start earlier v = stopsAt s'.stepping s'.start [] v := by
  rw [h.start]
  obtain ⟨hsame, hstart⟩ | ⟨hoff, hcontinue, u, hu, hleft⟩ := h.stepping
  · rw [hsame]
    cases hstepping : s.stepping with
    | JS_DEBUGGER_STEP_CONTINUE =>
      have hall : (earlier.all fun u => decide (u.here = s.start)) = true := by
        simpa using hstart hstepping
      simp only [stopsAt, List.all_append, hall, Bool.true_and, List.nil_append]
    | off | JS_DEBUGGER_STEP | JS_DEBUGGER_STEP_IN | JS_DEBUGGER_STEP_OUT => rfl
  · rw [hoff, hcontinue]
    have hall : ((earlier ++ [v]).all fun u => decide (u.here = s.start)) = false := by
      rw [List.all_eq_false]
      exact ⟨u, List.mem_append_left _ hu, by simpa using hleft⟩
    simp only [stopsAt, hall]
    rfl

theorem with_off {info : JSDebuggerInfo} (h : info.stepping = .off) :
    { info with stepping := .off } = info := by rw [← h]

/-- A check goes by the present state: where there is no reason to stop, it leaves, or goes on
    without a step. -/
theorem stops_eq (info : JSDebuggerInfo) (v : Visit) :
    info.stops v.here v.at_breakpoint =
      match stopsAt info.stepping info.start [] v with
      | some reason => some (info.stop reason)
      | none =>
        if info.stepping = .off ∨
            info.stepping = .JS_DEBUGGER_STEP_CONTINUE ∧ v.here ≠ info.start then
          some ({ info with stepping := .off }, [])
        else none := by
  obtain ⟨here, at_breakpoint⟩ := v
  by_cases hstart : here = info.start
  · have hat : info.AtStep here := atStep_iff.mpr hstart
    subst hstart
    cases hstepping : info.stepping with
    | off =>
      cases at_breakpoint
      · simp [stops, stopsAt, hstepping, Stepping.ends, with_off hstepping]
      · simp [stops, stopsAt, hstepping]
    | JS_DEBUGGER_STEP_CONTINUE | JS_DEBUGGER_STEP_IN | JS_DEBUGGER_STEP_OUT | JS_DEBUGGER_STEP =>
      simp [stops, stopsAt, hstepping, hat]
  · have hat : ¬info.AtStep here := mt atStep_iff.mp hstart
    cases at_breakpoint with
    | true => cases hstepping : info.stepping <;> simp [stops, stopsAt, hstepping, hat, hstart]
    | false =>
      cases hstepping : info.stepping with
      | off => simp [stops, stopsAt, hstepping, Stepping.ends, with_off hstepping]
      | JS_DEBUGGER_STEP_CONTINUE | JS_DEBUGGER_STEP_IN =>
        simp [stops, stopsAt, hstepping, hat, hstart, Stepping.ends]
      | JS_DEBUGGER_STEP_OUT =>
        by_cases hdepth : here.depth < info.step_depth
        · simp [stops, stopsAt, hstepping, hat, hstart, Stepping.ends, hdepth]
        · simp [stops, stopsAt, hstepping, hat, hstart, Stepping.ends, hdepth, not_lt.mp hdepth]
      | JS_DEBUGGER_STEP =>
        by_cases hends : here.location ≠ info.step_over ∧ here.depth ≤ info.step_depth
        · simp [stops, stopsAt, hstepping, hat, hstart, Stepping.ends, hends]
        · have hstays : here.location = info.step_over ∨ info.step_depth < here.depth := by
            by_contra hne
            exact hends ⟨fun h => hne (.inl h), not_lt.mp fun h => hne (.inr h)⟩
          simp [stops, stopsAt, hstepping, hat, hstart, Stepping.ends, hends, hstays]

/-! ## Checks of a running program -/

/-- A connected program that runs in a context. -/
structure Running (ctx : ℕ) (info : JSDebuggerInfo) : Prop where
  rest : Rest info
  going : info.is_paused = false
  transport : info.transport.isSome = true
  other : info.debugging_ctx ≠ some ctx

/-- The state in a check; whether a connection has been attempted does not matter any more. -/
def JSDebuggerInfo.checking (info : JSDebuggerInfo) (ctx : ℕ) (connect wait : Bool) :
    JSDebuggerInfo :=
  { info with
    is_debugging := true
    ctx := some ctx
    attempted_connect := connect
    attempted_wait := wait }

/-- The state after it. -/
def JSDebuggerInfo.checked (info : JSDebuggerInfo) : JSDebuggerInfo :=
  { info with is_debugging := false, ctx := none }

/-- What reading leads to: a connection that has ended is closed. -/
def ended (before : List Seen) (p : Bool × JSDebuggerInfo × List Seen) :
    JSDebuggerInfo × List Seen :=
  if p.1 then (p.2.1, before ++ p.2.2)
  else (p.2.1.js_debugger_free.1, before ++ p.2.2 ++ p.2.1.js_debugger_free.2)

section
variable {env : Environment} {ctx : ℕ} {s : JSDebuggerInfo} {v : Visit}

/-- A connected debugger does not connect. -/
theorem Running.attempt_eq (env : Environment) (h : Running ctx s) (here : Place) :
    ∃ connect wait, attempt env { s with is_debugging := true, ctx := some ctx } ctx here =
      some (s.checking ctx connect wait, []) := by
  have hnone : ¬s.transport.isNone = true := by
    simpa [Option.isSome_iff_ne_none] using h.transport
  have hattach (connect wait : Bool) (address : Option Connection) :
      (s.checking ctx connect wait).attachTo ctx here address =
        some (s.checking ctx connect wait, []) := by
    cases address with
    | none => rfl
    | some c => exact if_neg hnone
  rw [attempt]
  split_ifs
  · exact ⟨true, s.attempted_wait, hattach true s.attempted_wait env.connect⟩
  · exact ⟨s.attempted_connect, true, hattach s.attempted_connect true env.listen⟩
  · exact ⟨s.attempted_connect, s.attempted_wait, rfl⟩

/-- A check of a running program. -/
theorem Running.step_eq (env : Environment) (h : Running ctx s) (v : Visit) :
    ∃ connect wait, step env s (v.check ctx) =
      ((s.checking ctx connect wait).checkConnected v.here v.at_breakpoint).map
        fun p => (p.1.checked, p.2) := by
  obtain ⟨connect, wait, hattempt⟩ := h.attempt_eq env v.here
  refine ⟨connect, wait, ?_⟩
  have hidle : ¬(s.is_debugging = true ∨ s.debugging_ctx = some ctx) := by
    rw [h.rest.is_debugging]
    simpa using h.other
  show js_debugger_check env s ctx v.here v.at_breakpoint = _
  rw [js_debugger_check, if_neg hidle, hattempt]
  rfl

theorem Running.checkConnected_eq (h : Running ctx s) (connect wait : Bool) (v : Visit) :
    (s.checking ctx connect wait).checkConnected v.here v.at_breakpoint =
      match (s.checking ctx connect wait).stops v.here v.at_breakpoint with
      | none => some (s.checking ctx connect wait, [])
      | some r => (r.1.messages v.here).map (ended r.2) := by
  have hnone : ¬s.transport.isNone = true := by
    simpa [Option.isSome_iff_ne_none] using h.transport
  rw [checkConnected]
  exact if_neg hnone

theorem checking_stops (s : JSDebuggerInfo) (ctx : ℕ) (connect wait : Bool) (v : Visit) :
    (s.checking ctx connect wait).stops v.here v.at_breakpoint =
      match stopsAt s.stepping s.start [] v with
      | some reason => some ((s.checking ctx connect wait).stop reason)
      | none =>
        if s.stepping = .off ∨ s.stepping = .JS_DEBUGGER_STEP_CONTINUE ∧ v.here ≠ s.start then
          some ({ s.checking ctx connect wait with stepping := .off }, [])
        else none :=
  stops_eq (s.checking ctx connect wait) v

/-- The end of a check in which messages have been read. -/
def finish (before : List Seen) (p : Bool × JSDebuggerInfo × List Seen) :
    JSDebuggerInfo × List Seen :=
  ((ended before p).1.checked, (ended before p).2)

/-- A check with a reason to stop announces it and reads. -/
theorem Running.step_stop (env : Environment) (h : Running ctx s)
    {reason : String} (hv : stopsAt s.stepping s.start [] v = some reason) {received : List Arrival}
    (hreceived : s.transport = some received) :
    ∃ info, step env s (v.check ctx) =
      (loop v.here info received).map (finish [.sent (.stopped reason ctx)]) := by
  obtain ⟨connect, wait, hstep⟩ := h.step_eq env v
  have hopen : Open (s.checking ctx connect wait) := ⟨rfl, h.transport⟩
  have hstops : (s.checking ctx connect wait).stops v.here v.at_breakpoint =
      some ((s.checking ctx connect wait).stop reason) := by
    rw [checking_stops, hv]
  have hsent : (s.checking ctx connect wait).stopped reason = [.sent (.stopped reason ctx)] :=
    hopen.write _
  have hmessages : ((s.checking ctx connect wait).stop reason).1.messages v.here =
      loop v.here ((s.checking ctx connect wait).stop reason).1 received := by
    simp [messages, js_process_debugger_messages, stop, checking, hreceived]
  refine ⟨((s.checking ctx connect wait).stop reason).1, ?_⟩
  rw [hstep, h.checkConnected_eq, hstops]
  dsimp only
  rw [hmessages, Option.map_map, stop, hsent]
  rfl

/-- A step is under way, and its end has not been reached. -/
def UnderWay (s : JSDebuggerInfo) (v : Visit) : Prop :=
  s.stepping ≠ .off ∧ (s.stepping = .JS_DEBUGGER_STEP_CONTINUE → v.here = s.start)

/-- A check while a step is under way does nothing. -/
theorem Running.step_leave (env : Environment) (h : Running ctx s)
    (hv : stopsAt s.stepping s.start [] v = none) (hway : UnderWay s v) :
    ∃ connect wait, step env s (v.check ctx) =
      some ((s.checking ctx connect wait).checked, []) := by
  obtain ⟨connect, wait, hstep⟩ := h.step_eq env v
  have hstops : (s.checking ctx connect wait).stops v.here v.at_breakpoint = none := by
    rw [checking_stops, hv]
    refine if_neg ?_
    rintro (hoff | ⟨hcontinue, hleft⟩)
    · exact hway.1 hoff
    · exact hleft (hway.2 hcontinue)
  refine ⟨connect, wait, ?_⟩
  rw [hstep, h.checkConnected_eq, hstops]
  rfl

/-- Any other check may read. -/
theorem Running.step_go (env : Environment) (h : Running ctx s)
    (hv : stopsAt s.stepping s.start [] v = none) (hway : ¬UnderWay s v) :
    ∃ connect wait, step env s (v.check ctx) =
      ({ s.checking ctx connect wait with stepping := .off }.messages v.here).map (finish []) := by
  obtain ⟨connect, wait, hstep⟩ := h.step_eq env v
  have hstops : (s.checking ctx connect wait).stops v.here v.at_breakpoint =
      some ({ s.checking ctx connect wait with stepping := .off }, []) := by
    rw [checking_stops, hv]
    refine if_pos ?_
    by_contra hne
    exact hway ⟨fun hoff => hne (.inl hoff), fun hcontinue => by_contra fun hleft =>
      hne (.inr ⟨hcontinue, hleft⟩)⟩
  refine ⟨connect, wait, ?_⟩
  rw [hstep, h.checkConnected_eq, hstops]
  exact Option.map_map ..

end

/-! ## Silent clients -/

section
variable {env : Environment} {ctx : ℕ} {s s' s'' : JSDebuggerInfo} {v : Visit}

/-- Another state of a running program. -/
theorem Running.congr (h : Running ctx s) (hctx : s'.ctx = none)
    (hdebugging : s'.is_debugging = false) (hgoing : s'.is_paused = false)
    (htransport : s'.transport.isSome = true) (hother : s'.debugging_ctx = s.debugging_ctx) :
    Running ctx s' where
  rest := ⟨hctx, hdebugging, fun hpaused => absurd (hgoing.symm.trans hpaused) Bool.false_ne_true⟩
  going := hgoing
  transport := htransport
  other := hother ▸ h.other

theorem messages_silent (info : JSDebuggerInfo) (hgoing : info.is_paused = false)
    (hsilent : info.transport = some []) (here : Place) :
    ∃ ticks peek, info.messages here =
      some (true, { info with peek_ticks := ticks, should_peek := peek }, []) := by
  rw [messages, if_neg (by simp [hgoing])]
  dsimp only
  split_ifs
  · exact ⟨info.peek_ticks + 1, info.should_peek, rfl⟩
  · exact ⟨0, false, by simp only [peekLoop, hsilent]⟩

/-- Where nothing waits and there is no reason to stop, a check only moves the step on. -/
theorem Running.step_silent (env : Environment) (h : Running ctx s) (hsilent : s.transport = some [])
    (hv : stopsAt s.stepping s.start [] v = none) :
    ∃ s', step env s (v.check ctx) = some (s', []) ∧ Running ctx s' ∧ s'.transport = some [] ∧
      Course s [v] s' := by
  by_cases hway : UnderWay s v
  · obtain ⟨connect, wait, hstep⟩ := h.step_leave env hv hway
    refine ⟨_, hstep, h.congr rfl rfl h.going h.transport rfl, hsilent, rfl, .inl ⟨rfl, ?_⟩⟩
    intro hcontinue
    rw [List.forall_mem_singleton]
    exact hway.2 hcontinue
  · obtain ⟨connect, wait, hstep⟩ := h.step_go env hv hway
    obtain ⟨ticks, peek, hmessages⟩ := messages_silent
      { s.checking ctx connect wait with stepping := .off } h.going hsilent v.here
    rw [hmessages] at hstep
    refine ⟨_, hstep, h.congr rfl rfl h.going h.transport rfl, hsilent, rfl, ?_⟩
    by_cases hoff : s.stepping = .off
    · refine .inl ⟨hoff.symm, fun hcontinue => ?_⟩
      rw [hoff] at hcontinue
      cases hcontinue
    · have hcontinue : s.stepping = .JS_DEBUGGER_STEP_CONTINUE ∧ v.here ≠ s.start := by
        by_contra hne
        exact hway ⟨hoff, fun hc => by_contra fun hleft => hne ⟨hc, hleft⟩⟩
      exact .inr ⟨rfl, hcontinue.1, v, List.mem_singleton_self v, hcontinue.2⟩

/-- Where nothing waits and there is a reason to stop, a check does not return. -/
theorem Running.step_blocked (env : Environment) (h : Running ctx s)
    (hsilent : s.transport = some []) {reason : String}
    (hv : stopsAt s.stepping s.start [] v = some reason) : step env s (v.check ctx) = none := by
  obtain ⟨info, hstep⟩ := h.step_stop env hv hsilent
  rw [hstep]
  rfl

theorem course_nil (s : JSDebuggerInfo) : Course s [] s :=
  ⟨rfl, .inl ⟨rfl, fun _ => List.forall_mem_nil _⟩⟩

theorem Course.append {earlier : List Visit} (h : Course s earlier s') (h' : Course s' [v] s'') :
    Course s (earlier ++ [v]) s'' where
  start := h'.start.trans h.start
  stepping := by
    obtain ⟨hsame, hstart⟩ | ⟨hoff, hcontinue, u, hu, hleft⟩ := h.stepping
    · rw [← hsame, ← h.start] at hstart ⊢
      obtain ⟨hsame', hstart'⟩ | ⟨hoff', hcontinue', u, hu, hleft⟩ := h'.stepping
      · refine .inl ⟨hsame', fun hcontinue => ?_⟩
        rw [List.forall_mem_append]
        exact ⟨hstart hcontinue, hstart' hcontinue⟩
      · exact .inr ⟨hoff', hcontinue', u, List.mem_append_right _ hu, hleft⟩
    · obtain ⟨hsame', -⟩ | ⟨-, hcontinue', -⟩ := h'.stepping
      · exact .inr ⟨hsame'.trans hoff, hcontinue, u, List.mem_append_left _ hu, hleft⟩
      · rw [hoff] at hcontinue'
        cases hcontinue'

/-- No visit is one where the program is to be stopped. -/
def Goes (s : JSDebuggerInfo) (vs : List Visit) : Prop :=
  ∀ earlier v, earlier ++ [v] <+: vs → stopsAt s.stepping s.start earlier v = none

theorem goes_append {vs : List Visit} :
    Goes s (vs ++ [v]) ↔ Goes s vs ∧ stopsAt s.stepping s.start vs v = none := by
  simp only [Goes, List.prefix_concat_iff]
  constructor
  · exact fun h => ⟨fun earlier u hu => h earlier u (.inr hu), h vs v (.inl rfl)⟩
  · rintro ⟨hvs, hv⟩ earlier u (hlast | hu)
    · obtain ⟨rfl, rfl⟩ := List.append_singleton_inj.mp hlast
      exact hv
    · exact hvs earlier u hu

/-- With a silent client the program goes on until there is a reason to stop. -/
theorem Running.run_silent (env : Environment) (h : Running ctx s)
    (hsilent : s.transport = some []) {vs : List Visit} (hvs : Goes s vs) :
    ∃ s', (debugger env).run s (vs.map fun v => v.check ctx) = some (s', []) ∧ Running ctx s' ∧
      s'.transport = some [] ∧ Course s vs s' := by
  induction vs using List.reverseRecOn with
  | nil => exact ⟨s, rfl, h, hsilent, course_nil s⟩
  | append_singleton vs v ih =>
    obtain ⟨hvs, hv⟩ := goes_append.mp hvs
    obtain ⟨s', hrun, h', hsilent', hcourse⟩ := ih hvs
    rw [hcourse.stopsAt_eq] at hv
    obtain ⟨s'', hstep, h'', hsilent'', hcourse'⟩ := h'.step_silent env hsilent' hv
    refine ⟨s'', ?_, h'', hsilent'', hcourse.append hcourse'⟩
    rw [List.map_append, (debugger env).run_append]
    refine ⟨_, (s'', []), hrun, ?_, rfl⟩
    exact (debugger env).run_cons_eq_some.mpr ⟨s'', [], (s'', []), hstep, rfl, rfl⟩

/-- And no longer. -/
theorem Running.goes_of_run (env : Environment) (h : Running ctx s)
    (hsilent : s.transport = some []) {vs : List Visit} {r : JSDebuggerInfo × List Seen}
    (hr : (debugger env).run s (vs.map fun v => v.check ctx) = some r) : Goes s vs := by
  induction vs using List.reverseRecOn generalizing r with
  | nil => exact fun earlier v hv => absurd (List.prefix_nil.mp hv) (by simp)
  | append_singleton vs v ih =>
    rw [List.map_append, (debugger env).run_append] at hr
    obtain ⟨p, q, hp, hq, -⟩ := hr
    have hvs := ih hp
    obtain ⟨s', hrun, h', hsilent', hcourse⟩ := h.run_silent env hsilent hvs
    obtain rfl := Option.some.inj (hrun.symm.trans hp)
    refine goes_append.mpr ⟨hvs, ?_⟩
    by_contra hreason
    obtain ⟨reason, hreason⟩ := Option.ne_none_iff_exists'.mp hreason
    rw [hcourse.stopsAt_eq] at hreason
    have hblocked := h'.step_blocked env hsilent' hreason
    obtain ⟨s'', o, t, hstep, -⟩ := (debugger env).run_cons_eq_some.mp hq
    cases hblocked.symm.trans hstep

/-! ## Announcements -/

/-- No stop is announced first. -/
def Quiet (o : List Seen) : Prop := ∀ reason thread, o.head? ≠ some (.sent (.stopped reason thread))

theorem Quiet.append {o o' : List Seen} (h : Quiet o) (h' : Quiet o') : Quiet (o ++ o') := by
  cases o with
  | nil => exact h'
  | cons e o => exact h

theorem quiet_nil : Quiet [] := fun _ _ h => by cases h

/-- What waits first is read first. -/
theorem loop_message {here : Place} {rest : List Arrival} {info : JSDebuggerInfo} {m : Message}
    {p : Bool × JSDebuggerInfo × List Seen} (hp : loop here info (.message m :: rest) = some p) :
    ∃ o, p.2.2 = .read m :: o := by
  rw [loop] at hp
  split_ifs at hp
  · obtain ⟨q, -, rfl⟩ := Option.map_eq_some_iff.mp hp
    exact ⟨_, rfl⟩
  · obtain rfl := Option.some.inj hp
    exact ⟨_, rfl⟩

theorem quiet_loop {here : Place} {received : List Arrival} {info : JSDebuggerInfo}
    {p : Bool × JSDebuggerInfo × List Seen} (hp : loop here info received = some p) :
    Quiet p.2.2 := by
  cases received with
  | nil => cases hp
  | cons a rest =>
    cases a with
    | message m =>
      obtain ⟨o, ho⟩ := loop_message hp
      rw [ho]
      exact fun _ _ h => by simp at h
    | ended | failed =>
      obtain rfl := Option.some.inj hp
      exact quiet_nil

theorem quiet_peekLoop {here : Place} {n : ℕ} {info : JSDebuggerInfo}
    {p : Bool × JSDebuggerInfo × List Seen} (hp : peekLoop here n info = some p) :
    Quiet p.2.2 := by
  induction n generalizing info p with
  | zero =>
    obtain rfl := Option.some.inj hp
    exact quiet_nil
  | succ n ih =>
    rw [peekLoop] at hp
    split at hp
    · obtain rfl := Option.some.inj hp
      exact fun _ _ h => by simp at h
    · obtain rfl := Option.some.inj hp
      exact quiet_nil
    · obtain rfl := Option.some.inj hp
      exact quiet_nil
    · obtain ⟨q, hq, hp⟩ := Option.bind_eq_some_iff.mp hp
      split_ifs at hp
      · obtain ⟨t, ht, rfl⟩ := Option.map_eq_some_iff.mp hp
        exact (quiet_loop hq).append (ih ht)
      · obtain rfl := Option.some.inj hp
        exact quiet_loop hq

theorem quiet_messages {here : Place} {info : JSDebuggerInfo}
    {p : Bool × JSDebuggerInfo × List Seen} (hp : info.messages here = some p)
    (hgoing : info.is_paused = false) : Quiet p.2.2 := by
  rw [messages, if_neg (by simp [hgoing])] at hp
  dsimp only at hp
  split_ifs at hp
  · obtain rfl := Option.some.inj hp
    exact quiet_nil
  · exact quiet_peekLoop hp

theorem quiet_free (info : JSDebuggerInfo) : Quiet info.js_debugger_free.2 := by
  rw [js_debugger_free]
  split_ifs
  · exact fun _ _ h => by simp at h
  · exact quiet_nil

theorem quiet_finish {p : Bool × JSDebuggerInfo × List Seen} (h : Quiet p.2.2) :
    Quiet (finish [] p).2 := by
  rw [finish, ended]
  split_ifs
  · exact h
  · exact h.append (quiet_free p.2.1)

/-- A check announces a stop first where there is a reason, and only there. -/
theorem Running.announces (env : Environment) (h : Running ctx s)
    {r : JSDebuggerInfo × List Seen} (hr : step env s (v.check ctx) = some r) (reason : String) :
    r.2.head? = some (.sent (.stopped reason ctx)) ↔
      stopsAt s.stepping s.start [] v = some reason := by
  obtain ⟨received, hreceived⟩ := Option.isSome_iff_exists.mp h.transport
  cases hv : stopsAt s.stepping s.start [] v with
  | some reason' =>
    obtain ⟨info, hstep⟩ := h.step_stop env hv hreceived
    rw [hstep] at hr
    obtain ⟨p, -, rfl⟩ := Option.map_eq_some_iff.mp hr
    have hhead : (finish [.sent (.stopped reason' ctx)] p).2.head? =
        some (.sent (.stopped reason' ctx)) := by
      rw [finish, ended]
      split_ifs <;> rfl
    rw [hhead]
    simp
  | none =>
    have hquiet : Quiet r.2 := by
      by_cases hway : UnderWay s v
      · obtain ⟨connect, wait, hstep⟩ := h.step_leave env hv hway
        obtain rfl := Option.some.inj (hstep.symm.trans hr)
        exact quiet_nil
      · obtain ⟨connect, wait, hstep⟩ := h.step_go env hv hway
        rw [hstep] at hr
        obtain ⟨p, hp, rfl⟩ := Option.map_eq_some_iff.mp hr
        exact quiet_finish (quiet_messages hp h.going)
    exact iff_of_false (hquiet reason ctx) (by simp)

/-- What the client sends waits. -/
theorem Running.run_arrive (env : Environment) (h : Running ctx s) {received : List Arrival}
    (hreceived : s.transport = some received) (q : List Arrival) :
    (debugger env).run s (q.map .arrive) = some ({ s with transport := some (received ++ q) }, []) ∧
      Running ctx { s with transport := some (received ++ q) } := by
  induction q generalizing s received with
  | nil =>
    rw [List.append_nil, ← hreceived]
    exact ⟨rfl, h⟩
  | cons a q ih =>
    have h' : Running ctx { s with transport := some (received ++ [a]) } :=
      h.congr h.rest.ctx h.rest.is_debugging h.going rfl rfl
    obtain ⟨hrun, hlast⟩ := ih h' rfl
    rw [List.append_assoc] at hrun hlast
    refine ⟨(debugger env).run_cons_eq_some.mpr ⟨_, [], _, ?_, hrun, rfl⟩, hlast⟩
    show Option.map _ s.transport = _
    rw [hreceived]
    rfl

end

theorem rest_run (env : Environment) {as : List Action} {r : JSDebuggerInfo × List Seen}
    (hr : (debugger env).run (debugger env).init as = some r) : Rest r.1 :=
  (debugger env).run_history (P := fun _ _ => True) (I := fun s _ => Rest s)
    (fun _ _ _ _ _ hrest _ hs => (rest_step hrest hs).1)
    as _ [] r (rest_init env) ((debugger env).meets_true _ _) hr

/-- **Where a step ends.** In every session, from where the program runs and as long as the client
    is silent, the program goes on exactly as long as no instruction is one to stop at; and at
    the next instruction, whatever the client has sent by then, a stop is announced first exactly
    if there is a reason, with that reason. -/
theorem stops_first (env : Environment) (as : List Action) (s : JSDebuggerInfo) (o : List Seen)
    (ctx : ℕ) (hs : (debugger env).run (debugger env).init as = some (s, o))
    (hgoing : s.is_paused = false) (hsilent : s.transport = some [])
    (hother : s.debugging_ctx ≠ some ctx) (vs : List Visit) :
    ((∃ r, (debugger env).run s (vs.map fun v => v.check ctx) = some r) ↔ Goes s vs) ∧
      ∀ (v : Visit) (q : List Arrival) (r : JSDebuggerInfo × List Seen), (debugger env).run s
          ((vs.map fun v => v.check ctx) ++ (q.map .arrive ++ [v.check ctx])) = some r →
        ∀ reason, r.2.head? = some (.sent (.stopped reason ctx)) ↔
          stopsAt s.stepping s.start vs v = some reason := by
  have h : Running ctx s := ⟨rest_run env hs, hgoing, by rw [hsilent]; rfl, hother⟩
  constructor
  · constructor
    · rintro ⟨r, hr⟩
      exact h.goes_of_run env hsilent hr
    · intro hvs
      obtain ⟨s', hrun, -⟩ := h.run_silent env hsilent hvs
      exact ⟨_, hrun⟩
  · intro v q r hr reason
    obtain ⟨p, t, hp, ht, rfl⟩ := (debugger env).run_append.mp hr
    have hvs := h.goes_of_run env hsilent hp
    obtain ⟨s', hrun, h', hsilent', hcourse⟩ := h.run_silent env hsilent hvs
    obtain rfl := Option.some.inj (hrun.symm.trans hp)
    obtain ⟨hrun', h''⟩ := h'.run_arrive env hsilent' q
    obtain ⟨p', t', hp', ht', rfl⟩ := (debugger env).run_append.mp ht
    obtain rfl := Option.some.inj (hrun'.symm.trans hp')
    obtain ⟨s'', o', u, hstep, hu, rfl⟩ := (debugger env).run_cons_eq_some.mp ht'
    obtain rfl : (s'', []) = u := Option.some.inj hu
    rw [hcourse.stopsAt_eq]
    have hannounces : o'.head? = some (.sent (.stopped reason ctx)) ↔
        stopsAt s'.stepping s'.start [] v = some reason := h''.announces env hstep reason
    simpa using hannounces

/-- The client asks for the next line; a function is called before it is reached. -/
def stepped : List Action := [.attach 1 entry ⟨2, [.message (.request ⟨"next", 1⟩)]⟩]

def callee : Visit := ⟨⟨⟨1, 9, 0⟩, 2⟩, false⟩

def nextLine : Visit := ⟨⟨⟨1, 2, 0⟩, 1⟩, false⟩

theorem stops_first_next :
    ∃ s o, (debugger waiting).run (debugger waiting).init stepped = some (s, o) ∧
      Goes s [callee] ∧
      ∃ r, (debugger waiting).run s
          ([callee.check 1] ++ ([.arrive (.message .continue)] ++ [nextLine.check 1])) = some r ∧
        r.2.head? = some (.sent (.stopped "step" 1)) :=
  have h := stops_first waiting stepped _ _ 1 rfl rfl rfl (by decide) [callee]
  ⟨_, _, rfl, h.1.mp ⟨_, rfl⟩, _, rfl,
    (h.2 nextLine [.message .continue] _ rfl "step").mpr rfl⟩

/-! ## When the client is heard -/

/-- What happens while the program runs and no exception stops it: the client sends, a visit is
    checked, or Java asks the debugger to cooperate. -/
inductive Event
  | arrive (a : Arrival)
  | cooperate
  | visit (v : Visit)

def Event.action (ctx : ℕ) : Event → Action
  | .arrive a => .arrive a
  | .cooperate => .cooperate
  | .visit v => v.check ctx

def Event.visit? : Event → Option Visit
  | .visit v => some v
  | _ => none

def Event.arrival? : Event → Option Arrival
  | .arrive a => some a
  | _ => none

section
variable {env : Environment} {ctx : ℕ} {s s' : JSDebuggerInfo} {v : Visit}

theorem peekLoop_message {here : Place} {n : ℕ} {info : JSDebuggerInfo} {m : Message}
    {rest : List Arrival} {p : Bool × JSDebuggerInfo × List Seen}
    (hp : peekLoop here (n + 1) info = some p)
    (hm : info.transport = some (.message m :: rest)) : ∃ o, p.2.2 = .read m :: o := by
  have hp : (loop here info (.message m :: rest)).bind (fun p =>
      if p.1 then (peekLoop here n p.2.1).map fun q => (q.1, q.2.1, p.2.2 ++ q.2.2)
      else some p) = some p := by simpa only [peekLoop, hm] using hp
  obtain ⟨q, hq, hp⟩ := Option.bind_eq_some_iff.mp hp
  obtain ⟨o, ho⟩ := loop_message hq
  split_ifs at hp
  · obtain ⟨t, -, rfl⟩ := Option.map_eq_some_iff.mp hp
    exact ⟨o ++ t.2.2, by rw [ho]; rfl⟩
  · obtain rfl := Option.some.inj hp
    exact ⟨o, ho⟩

theorem messages_message {here : Place} {info : JSDebuggerInfo} {m : Message}
    {rest : List Arrival} {p : Bool × JSDebuggerInfo × List Seen}
    (hp : info.messages here = some p) (hgoing : info.is_paused = false)
    (hm : info.transport = some (.message m :: rest)) :
    (∃ o, p.2.2 = .read m :: o) ∨ info.peek_ticks < 10000 ∧ info.should_peek = false ∧
      p = (true, { info with peek_ticks := info.peek_ticks + 1 }, []) := by
  rw [messages, if_neg (by simp [hgoing])] at hp
  dsimp only at hp
  split_ifs at hp with hquiet
  · exact .inr ⟨hquiet.1, hquiet.2, (Option.some.inj hp).symm⟩
  · exact .inl (peekLoop_message hp hm)

/-- A check without a step under way reads what waits, if it is time to. -/
theorem Running.step_hears (env : Environment) (h : Running ctx s) (hoff : s.stepping = .off)
    {m : Message} {rest : List Arrival} (hm : s.transport = some (.message m :: rest))
    {r : JSDebuggerInfo × List Seen} (hr : step env s (v.check ctx) = some r) :
    .read m ∈ r.2 ∨
      s.peek_ticks < 10000 ∧ s.should_peek = false ∧ Running ctx r.1 ∧ r.1.stepping = .off ∧
        r.1.transport = s.transport ∧ r.1.peek_ticks = s.peek_ticks + 1 := by
  cases hv : stopsAt s.stepping s.start [] v with
  | some reason =>
    obtain ⟨info, hstep⟩ := h.step_stop env hv hm
    rw [hstep] at hr
    obtain ⟨p, hp, rfl⟩ := Option.map_eq_some_iff.mp hr
    obtain ⟨o, ho⟩ := loop_message hp
    refine .inl ?_
    rw [finish, ended]
    split_ifs <;> simp [ho]
  | none =>
    have hway : ¬UnderWay s v := fun hway => hway.1 hoff
    obtain ⟨connect, wait, hstep⟩ := h.step_go env hv hway
    rw [hstep] at hr
    obtain ⟨p, hp, rfl⟩ := Option.map_eq_some_iff.mp hr
    obtain ⟨o, ho⟩ | ⟨hticks, hpeek, rfl⟩ := messages_message hp h.going hm
    · refine .inl ?_
      rw [finish, ended]
      split_ifs <;> simp [ho]
    · exact .inr ⟨hticks, hpeek, h.congr rfl rfl h.going h.transport rfl, rfl, rfl, rfl⟩

/-- How many checks there are. -/
def visits (es : List Event) : List Visit := es.filterMap Event.visit?

/-- Without a step, what waits first is read by the time 10000 checks have passed since the last
    look at the transport, or at the first check after Java has asked to cooperate. -/
theorem Running.run_hears (env : Environment) {es : List Event} {m : Message}
    {rest : List Arrival} (h : Running ctx s) (hoff : s.stepping = .off)
    (hm : s.transport = some (.message m :: rest)) (hvisits : visits es ≠ [])
    (hdue : s.should_peek = true ∨ 10000 < s.peek_ticks + (visits es).length)
    {r : JSDebuggerInfo × List Seen}
    (hr : (debugger env).run s (es.map (Event.action ctx)) = some r) : .read m ∈ r.2 := by
  induction es generalizing s rest r with
  | nil => exact absurd rfl hvisits
  | cons e es ih =>
    obtain ⟨s', o, q, hstep, hq, rfl⟩ := (debugger env).run_cons_eq_some.mp hr
    cases e with
    | arrive a =>
      have hs' : s' = { s with transport := some (.message m :: rest ++ [a]) } ∧ o = [] := by
        have hstep : Option.map _ s.transport = _ := hstep
        rw [hm] at hstep
        obtain ⟨rfl, rfl⟩ := Prod.mk.inj (Option.some.inj hstep)
        exact ⟨rfl, rfl⟩
      obtain ⟨rfl, rfl⟩ := hs'
      have h' : Running ctx { s with transport := some (.message m :: rest ++ [a]) } :=
        h.congr h.rest.ctx h.rest.is_debugging h.going rfl rfl
      exact ih h' hoff rfl hvisits hdue hq
    | cooperate =>
      obtain ⟨rfl, rfl⟩ := Prod.mk.inj (Option.some.inj hstep)
      have h' : Running ctx { s with should_peek := true } :=
        h.congr h.rest.ctx h.rest.is_debugging h.going h.transport rfl
      exact ih h' hoff hm hvisits (.inl rfl) hq
    | visit v =>
      obtain hread | ⟨hticks, hpeek, h', hoff', htransport', hticks'⟩ :=
        h.step_hears env hoff hm hstep
      · exact List.mem_append_left _ hread
      · have hlength : 10000 < s.peek_ticks + ((visits es).length + 1) :=
          hdue.resolve_left (by simp [hpeek])
        refine List.mem_append_right _ (ih h' hoff' (htransport'.trans hm) ?_ (.inr ?_) hq)
        · intro hnone
          rw [hnone, List.length_nil] at hlength
          omega
        · omega

/-- While a step is under way nothing is read, whatever happens. -/
theorem Running.run_deaf (env : Environment) {es : List Event} {received : List Arrival}
    (h : Running ctx s) (hreceived : s.transport = some received)
    (hway : ∀ v ∈ visits es, UnderWay s v ∧ stopsAt s.stepping s.start [] v = none) :
    ∃ s', (debugger env).run s (es.map (Event.action ctx)) = some (s', []) ∧
      s'.transport = some (received ++ es.filterMap Event.arrival?) := by
  induction es generalizing s received with
  | nil => exact ⟨s, rfl, by simpa using hreceived⟩
  | cons e es ih =>
    cases e with
    | arrive a =>
      have h' : Running ctx { s with transport := some (received ++ [a]) } :=
        h.congr h.rest.ctx h.rest.is_debugging h.going rfl rfl
      obtain ⟨s', hrun, htransport⟩ := ih h' rfl hway
      refine ⟨s', (debugger env).run_cons_eq_some.mpr ⟨_, [], _, ?_, hrun, rfl⟩, ?_⟩
      · show Option.map _ s.transport = _
        rw [hreceived]
        rfl
      · rw [htransport, List.append_assoc]
        rfl
    | cooperate =>
      have h' : Running ctx { s with should_peek := true } :=
        h.congr h.rest.ctx h.rest.is_debugging h.going h.transport rfl
      obtain ⟨s', hrun, htransport⟩ := ih h' hreceived hway
      exact ⟨s', (debugger env).run_cons_eq_some.mpr ⟨_, [], _, rfl, hrun, rfl⟩, htransport⟩
    | visit v =>
      obtain ⟨⟨hv, hstops⟩, hrest⟩ := List.forall_mem_cons.mp hway
      obtain ⟨connect, wait, hstep⟩ := h.step_leave env hstops hv
      have h' : Running ctx (s.checking ctx connect wait).checked :=
        h.congr rfl rfl h.going h.transport rfl
      obtain ⟨s', hrun, htransport⟩ := ih h' hreceived hrest
      exact ⟨s', (debugger env).run_cons_eq_some.mpr ⟨_, [], _, hstep, hrun, rfl⟩, htransport⟩

end

/-- **When the client is heard.** In every session, while the program runs: without a step, the
    message that waits first is read by the time 10000 checks have passed since the last look at
    the transport, or at the first check after Java has asked to cooperate; and while a step is
    under way, nothing is read, however long it takes, and all that arrives waits. -/
theorem heard_within (env : Environment) (as : List Action) (s : JSDebuggerInfo) (o : List Seen)
    (ctx : ℕ) (received : List Arrival)
    (hs : (debugger env).run (debugger env).init as = some (s, o))
    (hgoing : s.is_paused = false) (hreceived : s.transport = some received)
    (hother : s.debugging_ctx ≠ some ctx) (es : List Event) :
    (∀ m r, s.stepping = .off → received.head? = some (.message m) → visits es ≠ [] →
      s.should_peek = true ∨ 10000 < s.peek_ticks + (visits es).length →
      (debugger env).run s (es.map (Event.action ctx)) = some r → .read m ∈ r.2) ∧
    ((∀ v ∈ visits es, UnderWay s v ∧ stopsAt s.stepping s.start [] v = none) →
      ∃ s', (debugger env).run s (es.map (Event.action ctx)) = some (s', []) ∧
        s'.transport = some (received ++ es.filterMap Event.arrival?)) := by
  have h : Running ctx s := ⟨rest_run env hs, hgoing, by rw [hreceived]; rfl, hother⟩
  constructor
  · intro m r hoff hm hvisits hdue hr
    obtain ⟨rest, rfl⟩ := List.head?_eq_some_iff.mp hm
    exact h.run_hears env hoff hreceived hvisits hdue hr
  · exact h.run_deaf env hreceived

/-- The client lets the program run and asks it to pause, and Java asks to cooperate. -/
def impatient : List Action :=
  [.attach 1 entry
      ⟨2, [.message .continue, .message (.request ⟨"pause", 1⟩), .message .continue]⟩,
    .cooperate]

theorem heard_within_impatient :
    ∃ s o, (debugger waiting).run (debugger waiting).init impatient = some (s, o) ∧
      ∃ r, (debugger waiting).run s [nextLine.check 1] = some r ∧
        .read (.request ⟨"pause", 1⟩) ∈ r.2 :=
  have h := heard_within waiting impatient _ _ 1 _ rfl rfl rfl (by decide) [.visit nextLine]
  ⟨_, _, rfl, _, rfl, h.1 (.request ⟨"pause", 1⟩) _ rfl rfl (List.cons_ne_nil _ _) (.inl rfl) rfl⟩

end JSEngine.Debugger.Session
