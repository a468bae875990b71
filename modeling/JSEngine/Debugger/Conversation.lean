import JSEngine.Debugger.Session

/-!
# The debugger and its client

In every session the requests of the client are answered in the order they are read, and the
client can tell from what it has seen whether the engine is stopped.

Main results:

* `requests_answered`: each request that is read has its response next, with its number, and
  there are no other responses;
* `safe_iff`: the engine uses no `NULL` context or transport if and only if it throws only with
  a connection or without a stop on exceptions, and makes and frees contexts only without a
  connection;
* `client_view`: what the debugger keeps is what the client has been told and has asked for,
  and the program goes on only where the client has resumed it or is gone.
-/

namespace JSEngine.Debugger.Session

open JSEngine.Common
open JSEngine.Debugger.Breakpoints (PathData Lines)

/-! ## Requests and responses -/

/-- The body of the response to a request; other commands have none. -/
def Request.body (request : Request) : Option Body :=
  (([("continue", .undefined), ("pause", .undefined), ("next", .undefined), ("stepIn", .undefined),
    ("stepOut", .undefined), ("evaluate", .evaluated), ("stackTrace", .stackTrace),
    ("scopes", .scopes), ("variables", .variables)] : List (String × Body)).find?
      fun row => row.1 = request.command).map Prod.snd

/-- The commands after which the program goes on. -/
def Request.resumes (request : Request) : Bool :=
  ["continue", "next", "stepIn", "stepOut"].contains request.command

/-- Each request that is read has its response next, and there are no other responses. -/
inductive Answered : List Seen → Prop
  | nil : Answered []
  | request {request : Request} {body : Body} {h : List Seen} (hbody : request.body = some body)
      (hh : Answered h) :
      Answered (.read (.request request) :: .sent (.response request.request_seq body) :: h)
  | other {e : Seen} {h : List Seen} (hread : ∀ r, e = .read (.request r) → r.body = none)
      (hsent : ∀ n body, e ≠ .sent (.response n body)) (hh : Answered h) : Answered (e :: h)

theorem Answered.append {h h' : List Seen} (hh : Answered h) (hh' : Answered h') :
    Answered (h ++ h') := by
  induction hh with
  | nil => exact hh'
  | request hbody _ ih => exact .request hbody ih
  | other hread hsent _ ih => exact .other hread hsent ih

/-- An event that is neither read nor a response. -/
theorem answered_singleton {e : Seen} (hread : ∀ r, e ≠ .read (.request r))
    (hsent : ∀ n body, e ≠ .sent (.response n body)) : Answered [e] :=
  .other (fun r hr => absurd hr (hread r)) hsent .nil

/-! ## The view of the client -/

/-- What the client has been told and has asked for. -/
@[ext] structure View where
  paused : Bool
  breakpoints : String → Option PathData
  exception_breakpoint : Bool
  breakpoints_dirty_counter : UInt32

/-- A stop at the entry is that of a new connection, which has no breakpoints yet. -/
def View.see (v : View) : Seen → View
  | .sent (.stopped reason _) =>
    { v with
      paused := true
      breakpoints := if reason = "entry" then fun _ => none else v.breakpoints }
  | .read (.request request) => { v with paused := v.paused && !request.resumes }
  | .read .continue => { v with paused := false }
  | .read (.breakpoints path breakpoints) =>
    let dirty := v.breakpoints_dirty_counter + 1
    { v with
      breakpoints := Function.update v.breakpoints path (some ⟨breakpoints, dirty⟩)
      breakpoints_dirty_counter := dirty }
  | .read (.stopOnException stop) => { v with exception_breakpoint := stop }
  | _ => v

/-- What the debugger keeps of it. -/
def JSDebuggerInfo.view (info : JSDebuggerInfo) : View :=
  ⟨info.is_paused, info.breakpoints, info.exception_breakpoint, info.breakpoints_dirty_counter⟩

/-- The events between two states: all requests are answered, nothing is `NULL`, and the views
    agree. -/
structure Exchange (info : JSDebuggerInfo) (o : List Seen) (info' : JSDebuggerInfo) : Prop where
  answered : Answered o
  not_null : Seen.null ∉ o
  view : o.foldl View.see info.view = info'.view

theorem Exchange.nil {info info' : JSDebuggerInfo} (h : info.view = info'.view) :
    Exchange info [] info' := ⟨.nil, List.not_mem_nil, h⟩

theorem Exchange.append {info info' info'' : JSDebuggerInfo} {o o' : List Seen}
    (h : Exchange info o info') (h' : Exchange info' o' info'') : Exchange info (o ++ o') info'' where
  answered := h.answered.append h'.answered
  not_null := by
    rw [List.mem_append]
    exact not_or.mpr ⟨h.not_null, h'.not_null⟩
  view := by rw [List.foldl_append, h.view, h'.view]

/-- The view is all that matters of the states. -/
theorem Exchange.congr {info info' i i' : JSDebuggerInfo} {o : List Seen}
    (h : Exchange info o info') (hi : i.view = info.view) (hi' : info'.view = i'.view) :
    Exchange i o i' :=
  ⟨h.answered, h.not_null, by rw [hi, h.view, hi']⟩

/-! ## Writing -/

/-- A message can be written. -/
structure Open (info : JSDebuggerInfo) : Prop where
  ctx : info.ctx.isSome = true
  transport : info.transport.isSome = true

theorem Open.write {info : JSDebuggerInfo} (h : Open info) (sent : Sent) :
    info.write sent = [.sent sent] := if_pos ⟨h.ctx, h.transport⟩

/-- What only attaching, checks and the end of a connection change. -/
structure Stays (info info' : JSDebuggerInfo) : Prop where
  ctx : info'.ctx = info.ctx
  debugging_ctx : info'.debugging_ctx = info.debugging_ctx
  is_debugging : info'.is_debugging = info.is_debugging
  transport : info'.transport.isSome = info.transport.isSome

theorem Stays.refl (info : JSDebuggerInfo) : Stays info info := ⟨rfl, rfl, rfl, rfl⟩

theorem Stays.trans {info info' info'' : JSDebuggerInfo} (h : Stays info info')
    (h' : Stays info' info'') : Stays info info'' :=
  ⟨h'.ctx.trans h.ctx, h'.debugging_ctx.trans h.debugging_ctx,
    h'.is_debugging.trans h.is_debugging, h'.transport.trans h.transport⟩

theorem Stays.open {info info' : JSDebuggerInfo} (h : Stays info info') (ho : Open info) :
    Open info' :=
  ⟨h.ctx ▸ ho.ctx, h.transport ▸ ho.transport⟩

/-- A stop is announced. -/
theorem exchange_stopped {i info info' : JSDebuggerInfo} (h : Open i) {reason : String}
    (hview : info.view.see (.sent (.stopped reason (i.ctx.getD 0))) = info'.view) :
    Exchange info (i.stopped reason) info' := by
  rw [JSDebuggerInfo.stopped, h.write]
  exact ⟨answered_singleton (fun _ => Seen.noConfusion) fun _ _ h => by simp at h, by simp, hview⟩

/-! ## Messages -/

namespace JSDebuggerInfo

theorem fixed_request (info : JSDebuggerInfo) (here : Place) (request : Request) :
    let info' := (info.js_process_request here request).1
    info'.ctx = info.ctx ∧ info'.debugging_ctx = info.debugging_ctx ∧
      info'.is_debugging = info.is_debugging ∧ info'.transport = info.transport := by
  unfold js_process_request
  dsimp only
  split_ifs <;> exact ⟨rfl, rfl, rfl, rfl⟩

section
variable {info : JSDebuggerInfo} {request : Request} {body : Body}

/-- A response that leaves the view alone. -/
theorem exchange_respond (h : Open info) (hbody : request.body = some body)
    (hresumes : request.resumes = false) :
    Exchange info (.read (.request request) :: info.respond request body) info := by
  rw [respond, h.write]
  refine ⟨.request hbody .nil, by simp, ?_⟩
  simp [View.see, view, hresumes]

/-- A command that resumes. -/
theorem exchange_resume (h : Open info) (hbody : request.body = some .undefined)
    (hresumes : request.resumes = true) (here : Place) (stepping : Stepping) :
    Exchange info (.read (.request request) :: (info.resume here stepping request).2)
      (info.resume here stepping request).1 := by
  rw [resume, respond, h.write]
  refine ⟨.request hbody .nil, by simp, ?_⟩
  simp [View.see, view, hresumes]

/-- A command without an answer. -/
theorem exchange_unknown (hbody : request.body = none) (hresumes : request.resumes = false) :
    Exchange info [.read (.request request)] info := by
  refine ⟨.other ?_ (fun _ _ => Seen.noConfusion) .nil, by simp, ?_⟩
  · intro r hr
    obtain rfl := Message.request.inj (Seen.read.inj hr)
    exact hbody
  · simp [View.see, view, hresumes]

/-- A request is read and answered. -/
theorem exchange_request (h : Open info) (here : Place) (request : Request) :
    Exchange info (.read (.request request) :: (info.js_process_request here request).2)
      (info.js_process_request here request).1 := by
  obtain ⟨command, n⟩ := request
  unfold js_process_request
  dsimp only
  split_ifs with h1 h2 h3 h4 h5 h6 h7 h8 h9
  · subst h1
    exact exchange_resume h rfl rfl here _
  · subst h2
    have hstop : Exchange info (info.stopped "pause") { info with is_paused := true } :=
      exchange_stopped h rfl
    have hanswer : Exchange info
        (.read (.request ⟨"pause", n⟩) :: info.respond ⟨"pause", n⟩ .undefined) info :=
      exchange_respond h rfl rfl
    exact hanswer.append hstop
  · subst h3
    exact exchange_resume h rfl rfl here _
  · subst h4
    exact exchange_resume h rfl rfl here _
  · subst h5
    exact exchange_resume h rfl rfl here _
  · subst h6
    exact exchange_respond h rfl rfl
  · subst h7
    exact exchange_respond h rfl rfl
  · subst h8
    exact exchange_respond h rfl rfl
  · subst h9
    exact exchange_respond h rfl rfl
  · refine exchange_unknown ?_ ?_
    · simp [Request.body, Ne.symm, *]
    · simp [Request.resumes, *]

end

/-- A message is read and handled. -/
theorem exchange_handle {info : JSDebuggerInfo} (h : Open info) (here : Place) (m : Message) :
    Exchange info (.read m :: (info.handle here m).2) (info.handle here m).1 := by
  cases m with
  | request request => exact exchange_request h here request
  | «continue» => exact ⟨answered_singleton (by simp) (by simp), by simp [handle], rfl⟩
  | breakpoints path breakpoints =>
    exact ⟨answered_singleton (by simp) (by simp), by simp [handle], rfl⟩
  | stopOnException stop => exact ⟨answered_singleton (by simp) (by simp), by simp [handle], rfl⟩
  | other type => exact ⟨answered_singleton (by simp) (by simp), by simp [handle], rfl⟩

theorem fixed_handle (info : JSDebuggerInfo) (here : Place) (m : Message) :
    let info' := (info.handle here m).1
    info'.ctx = info.ctx ∧ info'.debugging_ctx = info.debugging_ctx ∧
      info'.is_debugging = info.is_debugging ∧ info'.transport = info.transport := by
  cases m with
  | request request => exact fixed_request info here request
  | «continue» => exact ⟨rfl, rfl, rfl, rfl⟩
  | breakpoints path breakpoints => exact ⟨rfl, rfl, rfl, rfl⟩
  | stopOnException stop => exact ⟨rfl, rfl, rfl, rfl⟩
  | other type => exact ⟨rfl, rfl, rfl, rfl⟩

theorem stays_handle (info : JSDebuggerInfo) (here : Place) (m : Message) :
    Stays info (info.handle here m).1 :=
  have ⟨hctx, hdebugging, his, htransport⟩ := fixed_handle info here m
  ⟨hctx, hdebugging, his, by rw [htransport]⟩

/-! ## Reading -/

/-- The connection has ended, and the end has been reached. -/
def Dead (info : JSDebuggerInfo) : Prop :=
  ∃ a rest, info.transport = some (a :: rest) ∧ ∀ m, a ≠ .message m

/-- What reading the messages leads to: the program goes on, or the connection has ended. -/
structure Heard (info : JSDebuggerInfo) (p : Bool × JSDebuggerInfo × List Seen) : Prop where
  exchange : Exchange info p.2.2 p.2.1
  stays : Stays info p.2.1
  resumed : p.1 = true → p.2.1.is_paused = false
  lost : p.1 = false → p.2.1.Dead

/-- The messages until one of them resumes: each is read and handled, and fewer wait then. -/
theorem heard_loop {here : Place} {received : List Arrival} {info : JSDebuggerInfo}
    {p : Bool × JSDebuggerInfo × List Seen} (h : Open info)
    (hp : loop here info received = some p) :
    Heard info p ∧
      (p.1 = true → ((p.2.1.transport.map List.length).getD 0) < received.length) := by
  induction received generalizing info p with
  | nil => cases hp
  | cons a rest ih =>
    cases a with
    | ended =>
      obtain rfl := Option.some.inj hp
      exact ⟨⟨.nil rfl, ⟨rfl, rfl, rfl, h.transport.symm⟩, fun hp => Bool.noConfusion hp,
        fun _ => ⟨.ended, rest, rfl, fun _ => Arrival.noConfusion⟩⟩, fun hp => Bool.noConfusion hp⟩
    | failed =>
      obtain rfl := Option.some.inj hp
      exact ⟨⟨.nil rfl, ⟨rfl, rfl, rfl, h.transport.symm⟩, fun hp => Bool.noConfusion hp,
        fun _ => ⟨.failed, rest, rfl, fun _ => Arrival.noConfusion⟩⟩, fun hp => Bool.noConfusion hp⟩
    | message m =>
      have hopen : Open { info with transport := some rest } := ⟨h.ctx, rfl⟩
      have hread := exchange_handle hopen here m
      have htaken : Stays info { info with transport := some rest } :=
        ⟨rfl, rfl, rfl, h.transport.symm⟩
      have hstays := htaken.trans (stays_handle _ here m)
      rw [loop] at hp
      split_ifs at hp with hpaused
      · obtain ⟨q, hq, rfl⟩ := Option.map_eq_some_iff.mp hp
        obtain ⟨hheard, hless⟩ := ih (hstays.open h) hq
        refine ⟨⟨?_, hstays.trans hheard.stays, hheard.resumed, hheard.lost⟩, fun hq => ?_⟩
        · exact (hread.append hheard.exchange).congr rfl rfl
        · exact Nat.lt_succ_of_lt (hless hq)
      · obtain rfl := Option.some.inj hp
        refine ⟨⟨hread.congr rfl rfl, hstays, fun _ => Bool.eq_false_iff.mpr hpaused,
          fun hp => Bool.noConfusion hp⟩, fun _ => ?_⟩
        rw [(fixed_handle _ here m).2.2.2]
        exact Nat.lt_succ_self _

theorem heard_messages {info : JSDebuggerInfo} {here : Place}
    {p : Bool × JSDebuggerInfo × List Seen}
    (hp : info.js_process_debugger_messages here = some p) (h : Open info) : Heard info p := by
  obtain ⟨received, hreceived⟩ := Option.isSome_iff_exists.mp h.transport
  rw [js_process_debugger_messages, hreceived] at hp
  exact (heard_loop h hp).1

/-- Reading without blocking, until nothing waits or the connection has ended. -/
theorem heard_peekLoop {here : Place} {n : ℕ} {info : JSDebuggerInfo}
    {p : Bool × JSDebuggerInfo × List Seen} (h : Open info) (hpaused : info.is_paused = false)
    (hp : peekLoop here n info = some p) :
    Heard info p ∧ (((info.transport.map List.length).getD 0) < n → p.1 = true →
      p.2.1.transport = some []) := by
  induction n generalizing info p with
  | zero =>
    obtain rfl := Option.some.inj hp
    exact ⟨⟨.nil rfl, .refl _, fun _ => hpaused, fun hp => Bool.noConfusion hp⟩,
      fun hn => absurd hn (Nat.not_lt_zero _)⟩
  | succ n ih =>
    obtain ⟨received, hreceived⟩ := Option.isSome_iff_exists.mp h.transport
    cases received with
    | nil =>
      simp only [peekLoop, hreceived, Option.some.injEq] at hp
      subst hp
      exact ⟨⟨.nil rfl, .refl _, fun _ => hpaused, fun hp => Bool.noConfusion hp⟩,
        fun _ _ => hreceived⟩
    | cons a rest =>
      by_cases hfailed : a = .failed
      · subst hfailed
        simp only [peekLoop, hreceived, Option.some.injEq] at hp
        subst hp
        exact ⟨⟨.nil rfl, .refl _, fun hp => Bool.noConfusion hp,
          fun _ => ⟨.failed, rest, hreceived, fun _ => Arrival.noConfusion⟩⟩,
          fun _ hp => Bool.noConfusion hp⟩
      · have hp : (loop here info (a :: rest)).bind (fun p =>
            if p.1 then (peekLoop here n p.2.1).map fun q => (q.1, q.2.1, p.2.2 ++ q.2.2)
            else some p) = some p := by
          cases a with
          | failed => exact absurd rfl hfailed
          | ended => simpa only [peekLoop, hreceived] using hp
          | message m => simpa only [peekLoop, hreceived] using hp
        obtain ⟨q, hq, hp⟩ := Option.bind_eq_some_iff.mp hp
        obtain ⟨hheard, hless⟩ := heard_loop h hq
        split_ifs at hp with hok
        · obtain ⟨t, ht, rfl⟩ := Option.map_eq_some_iff.mp hp
          obtain ⟨hnext, hdrained⟩ := ih (hheard.stays.open h) (hheard.resumed hok) ht
          refine ⟨⟨hheard.exchange.append hnext.exchange, hheard.stays.trans hnext.stays,
            hnext.resumed, hnext.lost⟩, fun hn => hdrained ?_⟩
          have hless := hless hok
          simp only [hreceived, Option.map_some, Option.getD_some] at hn
          omega
        · obtain rfl := Option.some.inj hp
          exact ⟨hheard, fun _ hp => absurd hp hok⟩

/-- A stopped program reads until it is resumed, a running one now and then. -/
theorem heard_check {info : JSDebuggerInfo} {here : Place}
    {p : Bool × JSDebuggerInfo × List Seen} (h : Open info)
    (hp : info.messages here = some p) : Heard info p := by
  rw [messages] at hp
  dsimp only at hp
  split_ifs at hp with hpaused hquiet
  · exact heard_messages hp h
  · obtain rfl := Option.some.inj hp
    exact ⟨.nil rfl, ⟨rfl, rfl, rfl, rfl⟩, fun _ => Bool.eq_false_iff.mpr hpaused,
      fun hp => Bool.noConfusion hp⟩
  · have hticked : Stays info { info with peek_ticks := 0, should_peek := false } :=
      ⟨rfl, rfl, rfl, rfl⟩
    obtain ⟨hheard, -⟩ := heard_peekLoop (hticked.open h) (Bool.eq_false_iff.mpr hpaused) hp
    exact ⟨hheard.exchange.congr rfl rfl, hticked.trans hheard.stays, hheard.resumed, hheard.lost⟩

/-! ## Steps -/

/-- A stop is announced. -/
theorem exchange_stop {info : JSDebuggerInfo} (h : Open info) {reason : String}
    (hreason : reason ≠ "entry") :
    Exchange info (info.stop reason).2 (info.stop reason).1 ∧ Stays info (info.stop reason).1 := by
  refine ⟨exchange_stopped h ?_, ⟨rfl, rfl, rfl, rfl⟩⟩
  simp [View.see, view, stop, hreason]

/-- A check stops the program, ends a `continue` or does nothing, if it does not leave. -/
theorem stops_cases {info : JSDebuggerInfo} {here : Place} {at_breakpoint : Bool}
    {r : JSDebuggerInfo × List Seen} (hr : info.stops here at_breakpoint = some r) :
    r = (info, []) ∨ r = ({ info with stepping := .off }, []) ∨
      ∃ reason, reason ≠ "entry" ∧ r = info.stop reason := by
  have hstop {reason : String} (hreason : reason ≠ "entry")
      (hr : some (info.stop reason) = some r) :
      r = (info, []) ∨ r = ({ info with stepping := .off }, []) ∨
        ∃ reason, reason ≠ "entry" ∧ r = info.stop reason :=
    .inr (.inr ⟨reason, hreason, (Option.some.inj hr).symm⟩)
  rw [stops] at hr
  cases hstepping : info.stepping with
  | off =>
    simp only [hstepping] at hr
    split_ifs at hr with hat hbreak
    · exact hstop (by decide) hr
    · exact .inl (Option.some.inj hr).symm
  | JS_DEBUGGER_STEP_CONTINUE =>
    simp only [hstepping] at hr
    split_ifs at hr with hat hbreak
    · exact hstop (by decide) hr
    · exact .inr (.inl (Option.some.inj hr).symm)
  | JS_DEBUGGER_STEP_IN | JS_DEBUGGER_STEP_OUT | JS_DEBUGGER_STEP =>
    simp only [hstepping] at hr
    split_ifs at hr
    · exact hstop (by decide) hr
    · exact hstop (by decide) hr

theorem exchange_stops {info : JSDebuggerInfo} {here : Place} {at_breakpoint : Bool}
    {r : JSDebuggerInfo × List Seen} (h : Open info)
    (hr : info.stops here at_breakpoint = some r) : Exchange info r.2 r.1 ∧ Stays info r.1 := by
  obtain rfl | rfl | ⟨reason, hreason, rfl⟩ := stops_cases hr
  · exact ⟨.nil rfl, .refl _⟩
  · exact ⟨.nil rfl, ⟨rfl, rfl, rfl, rfl⟩⟩
  · exact exchange_stop h hreason

/-- The end of a connection leaves the view alone. -/
theorem exchange_free (info : JSDebuggerInfo) :
    Exchange info info.js_debugger_free.2 info.js_debugger_free.1 := by
  rw [js_debugger_free]
  split_ifs
  · exact ⟨.other (by simp) (by simp) (answered_singleton (by simp) (by simp)), by simp, rfl⟩
  · exact .nil rfl

theorem free_fixed (info : JSDebuggerInfo) :
    let info' := info.js_debugger_free.1
    info'.ctx = info.ctx ∧ info'.is_debugging = info.is_debugging ∧ info'.transport = none := by
  rw [js_debugger_free]
  split_ifs with h
  · exact ⟨rfl, rfl, rfl⟩
  · exact ⟨rfl, rfl, by simpa using h⟩

/-- The program is stopped only where its client is gone. -/
def Lost (info : JSDebuggerInfo) : Prop :=
  info.is_paused = true → info.transport = none ∨ info.Dead

/-- What a check or an attach leaves. -/
structure Left (info : JSDebuggerInfo) (r : JSDebuggerInfo × List Seen) : Prop where
  exchange : Exchange info r.2 r.1
  ctx : r.1.ctx = info.ctx
  is_debugging : r.1.is_debugging = info.is_debugging
  lost : r.1.Lost

theorem Heard.lost' {info : JSDebuggerInfo} {p : Bool × JSDebuggerInfo × List Seen}
    (h : Heard info p) : p.2.1.Lost := fun hpaused => by
  cases hok : p.1 with
  | true => exact absurd ((h.resumed hok).symm.trans hpaused) Bool.false_ne_true
  | false => exact .inr (h.lost hok)

theorem left_checkConnected {info : JSDebuggerInfo} {here : Place} {at_breakpoint : Bool}
    {r : JSDebuggerInfo × List Seen}
    (hr : info.checkConnected here at_breakpoint = some r) (hctx : info.ctx.isSome = true)
    (hlost : info.Lost) : Left info r := by
  rw [checkConnected] at hr
  split_ifs at hr with hnone
  · obtain rfl := Option.some.inj hr
    exact ⟨.nil rfl, rfl, rfl, hlost⟩
  · have hopen : Open info := ⟨hctx, by simpa [Option.isSome_iff_ne_none] using hnone⟩
    cases hstops : info.stops here at_breakpoint with
    | none =>
      rw [hstops] at hr
      obtain rfl := Option.some.inj hr
      exact ⟨.nil rfl, rfl, rfl, hlost⟩
    | some q =>
      rw [hstops] at hr
      obtain ⟨p, hp, rfl⟩ := Option.map_eq_some_iff.mp hr
      obtain ⟨hstop, hstays⟩ := exchange_stops hopen hstops
      have hheard := heard_check (hstays.open hopen) hp
      have hstays := hstays.trans hheard.stays
      have hexchange := hstop.append hheard.exchange
      split_ifs with hok
      · exact ⟨hexchange, hstays.ctx, hstays.is_debugging, hheard.lost'⟩
      · obtain ⟨hctx', hdebugging', htransport'⟩ := free_fixed p.2.1
        exact ⟨hexchange.append (exchange_free p.2.1), hctx'.trans hstays.ctx,
          hdebugging'.trans hstays.is_debugging, fun _ => .inl htransport'⟩

theorem left_attach {info : JSDebuggerInfo} {ctx : ℕ} {here : Place} {c : Connection}
    {r : JSDebuggerInfo × List Seen} (hr : info.js_debugger_attach ctx here c = some r) :
    Left info r := by
  rw [js_debugger_attach] at hr
  obtain ⟨p, hp, rfl⟩ := Option.map_eq_some_iff.mp hr
  obtain ⟨hctx, hdebugging, -⟩ := free_fixed info
  have hheard := heard_messages hp ⟨rfl, rfl⟩
  have hentry : Exchange info.js_debugger_free.1
      ((info.js_debugger_free.1.connected ctx c).stopped "entry")
      (info.js_debugger_free.1.connected ctx c) := exchange_stopped ⟨rfl, rfl⟩ rfl
  have hexchange := ((exchange_free info).append hentry).append hheard.exchange
  exact ⟨hexchange.congr rfl rfl, hctx, hheard.stays.is_debugging.trans hdebugging, hheard.lost'⟩

theorem left_attachTo {info : JSDebuggerInfo} {ctx : ℕ} {here : Place} {r : JSDebuggerInfo × List Seen}
    {address : Option Connection} (hr : info.attachTo ctx here address = some r)
    (hlost : info.Lost) : Left info r := by
  cases address with
  | none =>
    obtain rfl := Option.some.inj hr
    exact ⟨.nil rfl, rfl, rfl, hlost⟩
  | some c =>
    simp only [attachTo] at hr
    split_ifs at hr
    · exact left_attach hr
    · obtain rfl := Option.some.inj hr
      exact ⟨.nil rfl, rfl, rfl, hlost⟩

theorem left_attempt {env : Environment} {info : JSDebuggerInfo} {ctx : ℕ} {here : Place}
    {r : JSDebuggerInfo × List Seen} (hr : attempt env info ctx here = some r)
    (hlost : info.Lost) : Left info r := by
  rw [attempt] at hr
  split_ifs at hr
  · obtain ⟨hexchange, hctx, hdebugging, hlost⟩ := left_attachTo hr hlost
    exact ⟨hexchange.congr rfl rfl, hctx, hdebugging, hlost⟩
  · obtain ⟨hexchange, hctx, hdebugging, hlost⟩ := left_attachTo hr hlost
    exact ⟨hexchange.congr rfl rfl, hctx, hdebugging, hlost⟩
  · obtain rfl := Option.some.inj hr
    exact ⟨.nil rfl, rfl, rfl, hlost⟩

/-- Between the actions no check is under way, and the program is stopped only where its client
    is gone. -/
structure Rest (info : JSDebuggerInfo) : Prop where
  ctx : info.ctx = none
  is_debugging : info.is_debugging = false
  lost : info.Lost

theorem rest_check {env : Environment} {info : JSDebuggerInfo} {ctx : ℕ} {here : Place}
    {at_breakpoint : Bool} {r : JSDebuggerInfo × List Seen} (h : Rest info)
    (hr : js_debugger_check env info ctx here at_breakpoint = some r) :
    Rest r.1 ∧ Exchange info r.2 r.1 := by
  rw [js_debugger_check] at hr
  split_ifs at hr
  · obtain rfl := Option.some.inj hr
    exact ⟨h, .nil rfl⟩
  · obtain ⟨q, hq, hr⟩ := Option.bind_eq_some_iff.mp hr
    obtain ⟨p, hp, rfl⟩ := Option.map_eq_some_iff.mp hr
    have hattempt := left_attempt hq h.lost
    have hcheck := left_checkConnected hp (by rw [hattempt.ctx]; rfl) hattempt.lost
    exact ⟨⟨rfl, rfl, hcheck.lost⟩, (hattempt.exchange.append hcheck.exchange).congr rfl rfl⟩

section
variable {info : JSDebuggerInfo} {ctx : ℕ} {here : Place} {r : JSDebuggerInfo × List Seen}

theorem rest_exception (h : Rest info) (hr : info.js_debugger_exception ctx here = some r)
    (hconnected : info.exception_breakpoint = true → info.transport.isSome = true) :
    Rest r.1 ∧ Exchange info r.2 r.1 := by
  by_cases hbreak : info.exception_breakpoint = false
  · rw [js_debugger_exception, if_pos hbreak] at hr
    obtain rfl := Option.some.inj hr
    exact ⟨h, .nil rfl⟩
  · rw [js_debugger_exception, if_neg hbreak, if_neg (by simp [h.is_debugging])] at hr
    obtain ⟨p, hp, rfl⟩ := Option.map_eq_some_iff.mp hr
    have htransport := hconnected (by simpa using hbreak)
    have hheard := heard_messages hp ⟨rfl, htransport⟩
    have hopen : Open (info.interrupted ctx) := ⟨rfl, htransport⟩
    have hstop : Exchange info ((info.interrupted ctx).stopped "exception")
        (info.interrupted ctx) := exchange_stopped hopen rfl
    exact ⟨⟨rfl, rfl, hheard.lost'⟩, (hstop.append hheard.exchange).congr rfl rfl⟩

/-- Where exceptions stop but there is no connection, the transport is used all the same. -/
theorem null_exception (h : Rest info) (hr : info.js_debugger_exception ctx here = some r)
    (hbreak : info.exception_breakpoint = true) (hnone : info.transport = none) :
    Rest r.1 ∧ r.2 = [.null, .null] := by
  rw [js_debugger_exception, if_neg (by simp [hbreak]), if_neg (by simp [h.is_debugging])] at hr
  obtain ⟨p, hp, rfl⟩ := Option.map_eq_some_iff.mp hr
  simp only [js_process_debugger_messages, interrupted, hnone, Option.some.injEq] at hp
  subst hp
  refine ⟨⟨rfl, rfl, fun _ => .inl rfl⟩, ?_⟩
  simp [stopped, write, interrupted, hnone]

end

theorem rest_free {info : JSDebuggerInfo} (h : Rest info) :
    Rest info.js_debugger_free.1 := by
  obtain ⟨hctx, hdebugging, htransport⟩ := free_fixed info
  exact ⟨hctx.trans h.ctx, hdebugging.trans h.is_debugging, fun _ => .inl htransport⟩

theorem Lost.arrive {info : JSDebuggerInfo} (h : info.Lost) {q : List Arrival}
    (hq : info.transport = some q) (a : Arrival) :
    Lost { info with transport := some (q ++ [a]) } := fun hpaused => by
  obtain hnone | ⟨b, rest, hdead, hend⟩ := h hpaused
  · rw [hq] at hnone
    cases hnone
  · obtain rfl := Option.some.inj (hq.symm.trans hdead)
    exact .inr ⟨b, rest ++ [a], rfl, hend⟩

end JSDebuggerInfo

/-! ## Sessions -/

open JSDebuggerInfo

/-- An exception is thrown only with a connection or without a stop on exceptions, and a context
    is made or freed only without a connection; the debugger's own contexts are exempt. -/
def Careful (info : JSDebuggerInfo) : Action → Prop
  | .exception _ _ => info.exception_breakpoint = true → info.transport.isSome = true
  | .context ctx _ => info.transport.isSome = true → info.debugging_ctx = some ctx
  | _ => True

instance (info : JSDebuggerInfo) : ∀ a, Decidable (Careful info a)
  | .exception _ _ => inferInstanceAs (Decidable (_ → _))
  | .context _ _ => inferInstanceAs (Decidable (_ → _))
  | .arrive _ | .check _ _ _ | .attach _ _ _ | .cooperate | .free => isTrue trivial

/-- A step that is careful. -/
theorem exchange_step {env : Environment} {s s' : JSDebuggerInfo} {a : Action} {o : List Seen}
    (h : Rest s) (hs : step env s a = some (s', o)) (hcareful : Careful s a) :
    Rest s' ∧ Exchange s o s' := by
  cases a with
  | arrive a =>
    obtain ⟨q, hq, hs⟩ := Option.map_eq_some_iff.mp hs
    obtain ⟨rfl, rfl⟩ := Prod.mk.inj hs
    exact ⟨⟨h.ctx, h.is_debugging, h.lost.arrive hq a⟩, .nil rfl⟩
  | check ctx here at_breakpoint => exact rest_check h hs
  | exception ctx here => exact rest_exception h hs hcareful
  | attach ctx here connection =>
    have hleft := left_attach hs
    exact ⟨⟨hleft.ctx.trans h.ctx, hleft.is_debugging.trans h.is_debugging, hleft.lost⟩,
      hleft.exchange⟩
  | cooperate =>
    obtain ⟨rfl, rfl⟩ := Prod.mk.inj (Option.some.inj hs)
    exact ⟨⟨h.ctx, h.is_debugging, h.lost⟩, .nil rfl⟩
  | free =>
    obtain ⟨rfl, rfl⟩ := Prod.mk.inj (Option.some.inj hs)
    exact ⟨rest_free h, exchange_free s⟩
  | context ctx reason =>
    obtain ⟨rfl, rfl⟩ := Prod.mk.inj (Option.some.inj hs)
    refine ⟨h, ?_⟩
    rw [js_debugger_context_event]
    split_ifs with hnone hown
    · exact .nil rfl
    · exact .nil rfl
    · exact absurd (hcareful (by simpa [Option.isSome_iff_ne_none] using hnone)) hown

/-- A step that is not. -/
theorem null_step {env : Environment} {s s' : JSDebuggerInfo} {a : Action} {o : List Seen}
    (h : Rest s) (hs : step env s a = some (s', o)) (hcareful : ¬Careful s a) :
    Rest s' ∧ Seen.null ∈ o ∧ Answered o := by
  cases a with
  | exception ctx here =>
    obtain ⟨hbreak, hnone⟩ := Classical.not_imp.mp hcareful
    obtain ⟨hrest, ho⟩ := null_exception h hs hbreak (by simpa using hnone)
    obtain rfl : o = [.null, .null] := ho
    exact ⟨hrest, by simp, .other (by simp) (by simp) (answered_singleton (by simp) (by simp))⟩
  | context ctx reason =>
    obtain ⟨rfl, rfl⟩ := Prod.mk.inj (Option.some.inj hs)
    obtain ⟨hsome, hown⟩ := Classical.not_imp.mp hcareful
    have ho : s.js_debugger_context_event ctx reason = [.null] := by
      have hnone : ¬s.transport.isNone = true := by
        simpa [Option.isSome_iff_ne_none] using hsome
      rw [js_debugger_context_event, if_neg hnone, if_neg hown, write, h.ctx]
      rfl
    rw [ho]
    exact ⟨h, List.mem_singleton_self _, answered_singleton (by simp) (by simp)⟩
  | arrive _ | check _ _ _ | attach _ _ _ | cooperate | free => exact absurd trivial hcareful

theorem rest_step {env : Environment} {s s' : JSDebuggerInfo} {a : Action} {o : List Seen}
    (h : Rest s) (hs : step env s a = some (s', o)) : Rest s' ∧ Answered o := by
  by_cases hcareful : Careful s a
  · obtain ⟨hrest, hexchange⟩ := exchange_step h hs hcareful
    exact ⟨hrest, hexchange.answered⟩
  · obtain ⟨hrest, -, hanswered⟩ := null_step h hs hcareful
    exact ⟨hrest, hanswered⟩

theorem rest_init (env : Environment) : Rest (debugger env).init :=
  ⟨rfl, rfl, fun h => Bool.noConfusion h⟩

/-- **Every request is answered** at once, in the order they are read, with its number; and
    nothing else is. -/
theorem requests_answered (env : Environment) (as : List Action)
    (r : JSDebuggerInfo × List Seen)
    (hr : (debugger env).run (debugger env).init as = some r) : Answered r.2 :=
  ((debugger env).run_history (P := fun _ _ => True) (I := fun s h => Rest s ∧ Answered h)
    (fun _ _ _ _ _ ⟨hrest, hh⟩ _ hs =>
      have ⟨hrest', ho⟩ := rest_step hrest hs
      ⟨hrest', hh.append ho⟩)
    as _ [] r ⟨rest_init env, .nil⟩ ((debugger env).meets_true _ _) hr).2

/-- No address is set, so the client comes with `waitForDebugger`. -/
def waiting : Environment := ⟨none, none⟩

def entry : Place := ⟨⟨1, 1, 0⟩, 1⟩

/-- The client asks for the scopes and lets the program run; an exception stops it again. -/
def asked : List Action :=
  [.attach 1 entry ⟨2, [.message (.stopOnException true), .message (.request ⟨"scopes", 7⟩),
      .message (.request ⟨"continue", 8⟩)]⟩,
    .arrive (.message (.request ⟨"next", 9⟩)), .exception 1 entry]

theorem requests_answered_scopes :
    ∃ r, (debugger waiting).run (debugger waiting).init asked = some r ∧ Answered r.2 :=
  ⟨_, rfl, requests_answered waiting asked _ rfl⟩

/-- **No `NULL` is used** if and only if all steps are careful. -/
theorem safe_iff (env : Environment) (as : List Action) (r : JSDebuggerInfo × List Seen)
    (hr : (debugger env).run (debugger env).init as = some r) :
    Seen.null ∉ r.2 ↔ (debugger env).Meets Careful (debugger env).init as := by
  refine (debugger env).run_accepts_iff (I := fun s h => Rest s ∧ Seen.null ∉ h)
    (A := fun h => Seen.null ∉ h) (fun h o hho hh => hho (List.mem_append_left o hh))
    (fun s h hI => hI.2) (fun s h a s' o ⟨hrest, hh⟩ hs => ?_) as _ [] r
    ⟨rest_init env, List.not_mem_nil⟩ hr
  by_cases hcareful : Careful s a
  · obtain ⟨hrest', hexchange⟩ := exchange_step hrest hs hcareful
    have hho : Seen.null ∉ h ++ o := by
      rw [List.mem_append]
      exact not_or.mpr ⟨hh, hexchange.not_null⟩
    exact ⟨iff_of_true hho hcareful, fun _ => ⟨hrest', hho⟩⟩
  · obtain ⟨-, hnull, -⟩ := null_step hrest hs hcareful
    exact ⟨iff_of_false (fun hho => hho (List.mem_append_right h hnull)) hcareful,
      fun hc => absurd hc hcareful⟩

/-- The client asks to be stopped at exceptions and goes away; the exception after it is not
    safe. -/
def deserted : List Action :=
  [.attach 1 entry ⟨2, [.message (.stopOnException true), .message .continue, .ended]⟩,
    .cooperate, .check 1 entry false, .exception 1 entry]

theorem safe_iff_deserted :
    ∃ r, (debugger waiting).run (debugger waiting).init deserted = some r ∧
      ¬(Seen.null ∉ r.2) ∧ ¬(debugger waiting).Meets Careful (debugger waiting).init deserted :=
  have hnull : ¬(debugger waiting).Meets Careful (debugger waiting).init deserted := by decide
  ⟨_, rfl, mt (safe_iff waiting deserted _ rfl).mp hnull, hnull⟩

/-- **The view of the client**: in a session without `NULL`, what the debugger keeps is what the
    client has been told and has asked for; and a stop it has not resumed is left only without
    the client. -/
theorem client_view (env : Environment) (as : List Action) (r : JSDebuggerInfo × List Seen)
    (hcareful : (debugger env).Meets Careful (debugger env).init as)
    (hr : (debugger env).run (debugger env).init as = some r) :
    r.1.view = r.2.foldl View.see (debugger env).init.view ∧
      ((r.2.foldl View.see (debugger env).init.view).paused = true →
        r.1.transport = none ∨ r.1.Dead) := by
  obtain ⟨hrest, hexchange⟩ := (debugger env).run_history
    (I := fun s h => Rest s ∧ Exchange (debugger env).init h s)
    (fun s h a s' o ⟨hrest, hh⟩ hc hs =>
      have ⟨hrest', ho⟩ := exchange_step hrest hs hc
      ⟨hrest', hh.append ho⟩)
    as _ [] r ⟨rest_init env, .nil rfl⟩ hcareful hr
  rw [List.nil_append] at hexchange
  refine ⟨hexchange.view.symm, fun hpaused => hrest.lost ?_⟩
  rw [hexchange.view] at hpaused
  exact hpaused

theorem client_view_asked :
    ∃ r, (debugger waiting).run (debugger waiting).init asked = some r ∧
      r.1.view = r.2.foldl View.see (debugger waiting).init.view ∧
      ((r.2.foldl View.see (debugger waiting).init.view).paused = true →
        r.1.transport = none ∨ r.1.Dead) :=
  ⟨_, rfl, client_view waiting asked _ (by decide) rfl⟩

end JSEngine.Debugger.Session
