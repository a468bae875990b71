import JSEngine.Debugger.Breakpoints

/-!
# Sessions of the debugger

The interpreter asks the debugger before every instruction (`js_debugger_check`,
quickjs-debugger.c:544-679) and at every exception (lines 501-514). A stop is announced to
the client, and then the engine reads the client's messages until one of them resumes it.

What the client sends waits in the transport until it is read. An end of the connection stays
there: reading it fails each time. A function that reads where nothing waits blocks, and is
`none` here.
-/

namespace JSEngine.Debugger.Session

open JSEngine.Common
open JSEngine.Debugger.Breakpoints (PathData Lines)

/-! ## Messages -/

/-- The `request` of a message. -/
structure Request where
  command : String
  request_seq : ℤ
  deriving DecidableEq

/-- A message of the client, by its `type` (lines 470-486). -/
inductive Message
  | request (request : Request)
  | continue
  | breakpoints (path : String) (breakpoints : Lines)
  | stopOnException (stop : Bool)
  | other (type : String)

/-- What comes from the client: a message, the end of the connection, or an end at which the
    `poll` of `transport_peek` fails too. -/
inductive Arrival
  | message (message : Message)
  | ended
  | failed

/-- Where the body of a response comes from. -/
inductive Body
  | undefined
  | evaluated
  | stackTrace
  | scopes
  | variables
  deriving DecidableEq

/-- What goes to the client. -/
inductive Sent
  | response (request_seq : ℤ) (body : Body)
  | stopped (reason : String) (thread : ℕ)
  | thread (reason : String) (thread : ℕ)
  | terminated
  deriving DecidableEq

/-- What is seen of a session. -/
inductive Seen
  /-- a use of a context or of a function of the transport that is `NULL` -/
  | null
  | read (message : Message)
  | sent (sent : Sent)
  | closed

/-! ## The debugger -/

/-- `JSDebuggerLocation` (quickjs-debugger.h:18-22); the file name is an atom. -/
structure JSDebuggerLocation where
  filename : ℕ
  line : ℤ
  column : ℤ
  deriving DecidableEq

/-- What `js_debugger_current_location` and `js_debugger_stack_depth` give. -/
structure Place where
  location : JSDebuggerLocation
  depth : ℕ
  deriving DecidableEq

/-- The values of `stepping`: 0, and the constants of quickjs-debugger.h:24-27. -/
inductive Stepping
  | off
  | JS_DEBUGGER_STEP
  | JS_DEBUGGER_STEP_IN
  | JS_DEBUGGER_STEP_OUT
  | JS_DEBUGGER_STEP_CONTINUE
  deriving DecidableEq

/-- `JSDebuggerInfo` (quickjs-debugger.h:29-57). The functions of the transport are set
    together, so there is one `transport`: what came through it and has not been read. -/
structure JSDebuggerInfo where
  ctx : Option ℕ
  debugging_ctx : Option ℕ
  attempted_connect : Bool
  attempted_wait : Bool
  peek_ticks : ℕ
  should_peek : Bool
  is_debugging : Bool
  is_paused : Bool
  transport : Option (List Arrival)
  breakpoints : String → Option PathData
  exception_breakpoint : Bool
  breakpoints_dirty_counter : UInt32
  stepping : Stepping
  step_over : JSDebuggerLocation
  step_depth : ℕ

namespace JSDebuggerInfo

/-- The debugger is at the place where the last step began (lines 578-584). -/
def AtStep (info : JSDebuggerInfo) (here : Place) : Prop :=
  info.step_depth = here.depth ∧ here.location = info.step_over

instance (info : JSDebuggerInfo) (here : Place) : Decidable (info.AtStep here) :=
  inferInstanceAs (Decidable (_ ∧ _))

/-- `js_transport_write_value` (lines 56-76). -/
def write (info : JSDebuggerInfo) (sent : Sent) : List Seen :=
  if info.ctx.isSome ∧ info.transport.isSome then [.sent sent] else [.null]

/-- `js_send_stopped_event` (lines 217-227). -/
def stopped (info : JSDebuggerInfo) (reason : String) : List Seen :=
  info.write (.stopped reason (info.ctx.getD 0))

/-- `js_transport_send_response` (lines 90-96). -/
def respond (info : JSDebuggerInfo) (request : Request) (body : Body) : List Seen :=
  info.write (.response request.request_seq body)

/-- The commands that resume, from the place of the stop (lines 251-283). -/
def resume (info : JSDebuggerInfo) (here : Place) (stepping : Stepping) (request : Request) :
    JSDebuggerInfo × List Seen :=
  ({ info with
      stepping := stepping
      step_over := here.location
      step_depth := here.depth
      is_paused := false },
    info.respond request .undefined)

/-- `js_process_request` (lines 247-397). -/
def js_process_request (info : JSDebuggerInfo) (here : Place) (request : Request) :
    JSDebuggerInfo × List Seen :=
  let command := request.command
  if command = "continue" then info.resume here .JS_DEBUGGER_STEP_CONTINUE request
  else if command = "pause" then
    ({ info with is_paused := true }, info.respond request .undefined ++ info.stopped "pause")
  else if command = "next" then info.resume here .JS_DEBUGGER_STEP request
  else if command = "stepIn" then info.resume here .JS_DEBUGGER_STEP_IN request
  else if command = "stepOut" then info.resume here .JS_DEBUGGER_STEP_OUT request
  else if command = "evaluate" then (info, info.respond request .evaluated)
  else if command = "stackTrace" then (info, info.respond request .stackTrace)
  else if command = "scopes" then (info, info.respond request .scopes)
  else if command = "variables" then (info, info.respond request .variables)
  else (info, [])

/-- `js_process_breakpoints` (lines 399-423). -/
def js_process_breakpoints (info : JSDebuggerInfo) (path : String) (breakpoints : Lines) :
    JSDebuggerInfo :=
  let dirty := info.breakpoints_dirty_counter + 1
  { info with
    breakpoints_dirty_counter := dirty
    breakpoints := Function.update info.breakpoints path (some ⟨breakpoints, dirty⟩) }

/-- One message, by its type (lines 472-486). -/
def handle (info : JSDebuggerInfo) (here : Place) : Message → JSDebuggerInfo × List Seen
  | .request request => info.js_process_request here request
  | .continue => ({ info with is_paused := false }, [])
  | .breakpoints path breakpoints => (info.js_process_breakpoints path breakpoints, [])
  | .stopOnException stop => ({ info with exception_breakpoint := stop }, [])
  | .other _ => (info, [])

/-- The loop of `js_process_debugger_messages` (lines 442-491), on what waits in the
    transport. -/
def loop (here : Place) : JSDebuggerInfo → List Arrival →
    Option (Bool × JSDebuggerInfo × List Seen)
  | _, [] => none
  | info, .message m :: rest =>
    let r := { info with transport := some rest }.handle here m
    if r.1.is_paused then
      (loop here r.1 rest).map fun p => (p.1, p.2.1, .read m :: r.2 ++ p.2.2)
    else some (true, r.1, .read m :: r.2)
  | info, a :: rest => some (false, { info with transport := some (a :: rest) }, [])

/-- `js_process_debugger_messages` (lines 431-499). -/
def js_process_debugger_messages (info : JSDebuggerInfo) (here : Place) :
    Option (Bool × JSDebuggerInfo × List Seen) :=
  match info.transport with
  | none => some (false, info, [.null])
  | some received => loop here info received

/-- `js_debugger_free` (lines 681-705). -/
def js_debugger_free (info : JSDebuggerInfo) : JSDebuggerInfo × List Seen :=
  if info.transport.isSome then
    ({ info with transport := none, debugging_ctx := none }, [.sent .terminated, .closed])
  else (info, [])

/-- A connection that is made: the context for the debugger, and what the client sends at
    once. -/
structure Connection where
  debugging_ctx : ℕ
  received : List Arrival

/-- A new connection, and the program stopped at its entry. -/
def connected (info : JSDebuggerInfo) (ctx : ℕ) (c : Connection) : JSDebuggerInfo :=
  { info with
    debugging_ctx := some c.debugging_ctx
    transport := some c.received
    ctx := some ctx
    breakpoints := fun _ => none
    is_paused := true }

/-- `js_debugger_attach` (lines 707-737). -/
def js_debugger_attach (info : JSDebuggerInfo) (ctx : ℕ) (here : Place) (c : Connection) :
    Option (JSDebuggerInfo × List Seen) :=
  let r := info.js_debugger_free
  let info' := r.1.connected ctx c
  (info'.js_process_debugger_messages here).map fun p =>
    ({ p.2.1 with ctx := r.1.ctx }, r.2 ++ info'.stopped "entry" ++ p.2.2)

/-- The program stopped at an exception. -/
def interrupted (info : JSDebuggerInfo) (ctx : ℕ) : JSDebuggerInfo :=
  { info with is_debugging := true, ctx := some ctx, is_paused := true }

/-- `js_debugger_exception` (lines 501-514). -/
def js_debugger_exception (info : JSDebuggerInfo) (ctx : ℕ) (here : Place) :
    Option (JSDebuggerInfo × List Seen) :=
  if info.exception_breakpoint = false then some (info, [])
  else if info.is_debugging then some (info, [])
  else
    let info' := info.interrupted ctx
    (info'.js_process_debugger_messages here).map fun p =>
      ({ p.2.1 with is_debugging := false, ctx := none }, info'.stopped "exception" ++ p.2.2)

/-- A stop (lines 590-592, 616-618, 624-626, 637-639). -/
def stop (info : JSDebuggerInfo) (reason : String) : JSDebuggerInfo × List Seen :=
  ({ info with stepping := .off, is_paused := true }, info.stopped reason)

/-- Steps and breakpoints (lines 575-645); `none` is `goto done`. -/
def stops (info : JSDebuggerInfo) (here : Place) (at_breakpoint : Bool) :
    Option (JSDebuggerInfo × List Seen) :=
  if info.stepping ≠ .off ∧ info.AtStep here then none
  else if at_breakpoint then some (info.stop "breakpoint")
  else
    match info.stepping with
    | .off => some (info, [])
    | .JS_DEBUGGER_STEP_CONTINUE => some ({ info with stepping := .off }, [])
    | .JS_DEBUGGER_STEP_IN =>
      if info.AtStep here then none else some (info.stop "stepIn")
    | .JS_DEBUGGER_STEP_OUT =>
      if info.step_depth ≤ here.depth then none else some (info.stop "stepOut")
    | .JS_DEBUGGER_STEP =>
      if here.location = info.step_over ∨ info.step_depth < here.depth then none
      else some (info.stop "step")

/-- The loop on `transport_peek` (lines 660-668): `true` where it ends with `goto done`. Every
    round reads a message, so as many rounds as messages wait are enough. -/
def peekLoop (here : Place) : ℕ → JSDebuggerInfo → Option (Bool × JSDebuggerInfo × List Seen)
  | 0, info => some (true, info, [])
  | n + 1, info =>
    match info.transport with
    | none => some (false, info, [.null])
    | some [] => some (true, info, [])
    | some (.failed :: _) => some (false, info, [])
    | some received =>
      (loop here info received).bind fun p =>
        if p.1 then (peekLoop here n p.2.1).map fun q => (q.1, q.2.1, p.2.2 ++ q.2.2)
        else some p

/-- The part from the messages on (lines 649-674): `false` leads to `fail`. -/
def messages (info : JSDebuggerInfo) (here : Place) :
    Option (Bool × JSDebuggerInfo × List Seen) :=
  if info.is_paused then info.js_process_debugger_messages here
  else
    let info' := { info with peek_ticks := info.peek_ticks + 1 }
    if info.peek_ticks < 10000 ∧ info.should_peek = false then some (true, info', [])
    else
      peekLoop here (((info.transport.map List.length).getD 0) + 1)
        { info' with peek_ticks := 0, should_peek := false }

/-- What follows the connection attempts (lines 566-675). -/
def checkConnected (info : JSDebuggerInfo) (here : Place) (at_breakpoint : Bool) :
    Option (JSDebuggerInfo × List Seen) :=
  if info.transport.isNone then some (info, [])
  else
    match info.stops here at_breakpoint with
    | none => some (info, [])
    | some r =>
      (r.1.messages here).map fun p =>
        if p.1 then (p.2.1, r.2 ++ p.2.2)
        else (p.2.1.js_debugger_free.1, r.2 ++ p.2.2 ++ p.2.1.js_debugger_free.2)

end JSDebuggerInfo

/-- What `QUICKJS_DEBUG_ADDRESS` and `QUICKJS_DEBUG_LISTEN_ADDRESS` lead to where they are
    set. -/
structure Environment where
  connect : Option JSDebuggerInfo.Connection
  listen : Option JSDebuggerInfo.Connection

namespace JSDebuggerInfo

/-- `js_debugger_connect` or `js_debugger_wait_connection`, unless a debugger is connected. -/
def attachTo (info : JSDebuggerInfo) (ctx : ℕ) (here : Place) (address : Option Connection) :
    Option (JSDebuggerInfo × List Seen) :=
  match address with
  | some c => if info.transport.isNone then info.js_debugger_attach ctx here c else some (info, [])
  | none => some (info, [])

/-- The connection attempts (lines 553-564). -/
def attempt (env : Environment) (info : JSDebuggerInfo) (ctx : ℕ) (here : Place) :
    Option (JSDebuggerInfo × List Seen) :=
  if info.attempted_connect = false then
    { info with attempted_connect := true }.attachTo ctx here env.connect
  else if info.attempted_wait = false then
    { info with attempted_wait := true }.attachTo ctx here env.listen
  else some (info, [])

/-- `js_debugger_check` (lines 544-679). The answer of `js_debugger_check_breakpoint` is
    given. -/
def js_debugger_check (env : Environment) (info : JSDebuggerInfo) (ctx : ℕ) (here : Place)
    (at_breakpoint : Bool) : Option (JSDebuggerInfo × List Seen) :=
  if info.is_debugging ∨ info.debugging_ctx = some ctx then some (info, [])
  else
    (attempt env { info with is_debugging := true, ctx := some ctx } ctx here).bind fun r =>
      (r.1.checkConnected here at_breakpoint).map fun p =>
        ({ p.1 with is_debugging := false, ctx := none }, r.2 ++ p.2)

/-- `js_debugger_context_event` (lines 516-532). -/
def js_debugger_context_event (info : JSDebuggerInfo) (caller_ctx : ℕ) (reason : String) :
    List Seen :=
  if info.transport.isNone then []
  else if info.debugging_ctx = some caller_ctx then []
  else info.write (.thread reason caller_ctx)

end JSDebuggerInfo

/-! ## Sessions -/

/-- What happens to the debugger of a runtime. -/
inductive Action
  /-- something comes from the client -/
  | arrive (a : Arrival)
  /-- an instruction of a context is next -/
  | check (ctx : ℕ) (here : Place) (at_breakpoint : Bool)
  /-- a context throws -/
  | exception (ctx : ℕ) (here : Place)
  /-- `waitForDebugger`, called where no script runs -/
  | attach (ctx : ℕ) (here : Place) (connection : JSDebuggerInfo.Connection)
  /-- `cooperateDebugger` -/
  | cooperate
  | free
  /-- a context is made or freed -/
  | context (ctx : ℕ) (reason : String)

open JSDebuggerInfo in
/-- One action; a client sends only while it is connected. -/
def step (env : Environment) (info : JSDebuggerInfo) : Action →
    Option (JSDebuggerInfo × List Seen)
  | .arrive a => info.transport.map fun q => ({ info with transport := some (q ++ [a]) }, [])
  | .check ctx here at_breakpoint => js_debugger_check env info ctx here at_breakpoint
  | .exception ctx here => info.js_debugger_exception ctx here
  | .attach ctx here connection => info.js_debugger_attach ctx here connection
  | .cooperate => some ({ info with should_peek := true }, [])
  | .free => some info.js_debugger_free
  | .context ctx reason => some (info, info.js_debugger_context_event ctx reason)

/-- The debugger of a runtime as `JS_NewRuntime` makes it. -/
def debugger (env : Environment) : Machine JSDebuggerInfo Action Seen where
  init :=
    { ctx := none
      debugging_ctx := none
      attempted_connect := false
      attempted_wait := false
      peek_ticks := 0
      should_peek := false
      is_debugging := false
      is_paused := false
      transport := none
      breakpoints := fun _ => none
      exception_breakpoint := false
      breakpoints_dirty_counter := 0
      stepping := .off
      step_over := ⟨0, 0, 0⟩
      step_depth := 0 }
  step := step env

end JSEngine.Debugger.Session
