/-
# The server: accept loops, supervisor and shutdown

A server runs some accept loops over one listener (`src/server/runtime/accept.rs`), each of which
starts a task per connection (`src/server/connection_spawner.rs`).  A supervisor starts the loops,
waits for a request to stop or for all tasks to end, and drains what is left
(`src/server/runtime/server/mod.rs`, `supervisor.rs`).  It runs either in the caller's own future,
which can be dropped, or in a task of its own, watched by an observer that publishes one outcome
to every `ServerShutdown` control (`observer.rs`, `src/server/shutdown.rs`).

All of them run at once.  Each is cut where it touches something another can change: the token that
cancels the loops, the lifecycle state, the tracker, the published outcome.  `Server.step` is one
such step; what the network, the hooks, the callers and the runtime do is up to the event.
-/
import Mathlib.Tactic
import Wireframe.TaskTable

namespace Wireframe

/-! ## Back-off -/

/-- Configuration for exponential back-off timing in the accept loop, in nanoseconds. -/
structure BackoffConfig where
  initialDelay : ℕ
  maxDelay : ℕ
  deriving DecidableEq, Repr

namespace BackoffConfig

/-- The least delay, one millisecond. -/
def minDelay : ℕ := 10 ^ 6

/-- The longest duration there is. -/
def durationMax : ℕ := (2 ^ 64 - 1) * 10 ^ 9 + 999999999

/-- Ten milliseconds, and one second at most. -/
def default : BackoffConfig := ⟨10 * 10 ^ 6, 10 ^ 9⟩

/-- Clamp delays to sane bounds and put them in order. -/
def normalized (config : BackoffConfig) : BackoffConfig :=
  let initialDelay := max config.initialDelay minDelay
  let maxDelay := max config.maxDelay minDelay
  if maxDelay < initialDelay then ⟨maxDelay, initialDelay⟩ else ⟨initialDelay, maxDelay⟩

/-- The delay after a failed attempt that was given `delay`; doubling it panics when the product is
no duration. -/
def nextDelay (config : BackoffConfig) (delay : ℕ) : Option ℕ :=
  if delay * 2 ≤ durationMax then some (min (delay * 2) config.maxDelay) else none

end BackoffConfig

/-! ## Accept loops and connections -/

/-- What `accept` returns. -/
inductive AcceptResult where
  | connection
  | failed
  deriving DecidableEq, Repr

/-- Where an accept loop stands. -/
inductive LoopPoint where
  /-- about to look at the token -/
  | polling (delay : ℕ)
  /-- the token was not cancelled; about to poll `accept` -/
  | accepting (delay : ℕ)
  /-- backing off, with no eye on the token -/
  | sleeping (delay : ℕ)
  /-- out of the loop, about to record the exit -/
  | leaving
  | exited
  | panicked
  deriving DecidableEq, Repr

/-- An accept loop, with what its attempts returned so far. -/
structure AcceptLoop where
  point : LoopPoint
  attempts : List AcceptResult
  deriving DecidableEq, Repr

def AcceptLoop.isLive (loop : AcceptLoop) : Bool :=
  match loop.point with
  | .exited | .panicked => false
  | _ => true

inductive LoopEvent where
  /-- the token is polled -/
  | pollToken
  /-- `accept` is polled; `none` when it is pending -/
  | pollAccept (result : Option AcceptResult)
  /-- the back-off is over -/
  | wake
  /-- the exit is recorded and the task ends -/
  | exit
  deriving DecidableEq, Repr

/-- Where the task of a connection stands. -/
inductive ConnectionPoint where
  /-- the preamble is read -/
  | reading
  /-- the hook for a valid preamble runs -/
  | welcoming
  /-- the hook for an invalid preamble runs -/
  | refusing
  /-- the application has the stream -/
  | serving
  | closed
  | panicked
  deriving DecidableEq, Repr

/-- The task of a connection: which loop accepted it, and whether the token was cancelled by then. -/
structure ConnectionTask where
  acceptedBy : ℕ
  late : Bool
  point : ConnectionPoint
  deriving DecidableEq, Repr

def ConnectionTask.isLive (task : ConnectionTask) : Bool :=
  match task.point with
  | .closed | .panicked => false
  | _ => true

inductive ConnectionEvent where
  /-- the preamble is there, or it is invalid or too late -/
  | preamble (valid : Bool)
  /-- the hook returns -/
  | hook (ok : Bool)
  /-- the application is done with the stream -/
  | served
  | panic
  deriving DecidableEq, Repr

/-- One step of a connection's task. -/
def ConnectionPoint.next : ConnectionPoint → ConnectionEvent → Option ConnectionPoint
  | .reading, .preamble true => some .welcoming
  | .reading, .preamble false => some .refusing
  | .welcoming, .hook true => some .serving
  | .welcoming, .hook false => some .closed
  | .refusing, .hook _ => some .closed
  | .serving, .served => some .closed
  | .closed, .panic => none
  | .panicked, .panic => none
  | _, .panic => some .panicked
  | _, _ => none

/-! ## The supervisor -/

/-- Whether the caller holds the supervisor's future or a task of its own runs it. -/
inductive ServerMode where
  | foreground
  | spawned
  deriving DecidableEq, Repr

/-- The four values of the shared lifecycle state. -/
inductive SupervisorState where
  | running
  | graceful
  | dropped
  | finished
  deriving DecidableEq, Repr

inductive ServerCancellationReason where
  | graceful
  | dropped
  deriving DecidableEq, Repr

/-- Translate the lifecycle state into the reason an accept loop reports. -/
def SupervisorState.cancellationReason : SupervisorState → ServerCancellationReason
  | .graceful => .graceful
  | .dropped | .running | .finished => .dropped

/-- Errors of the server; the text of what an application raised stands for it. -/
inductive ServerError where
  | factoryBuild (text : String)
  | prepare (text : String)
  | abnormalTermination (message : String) (source : Option ServerError)

def ServerError.display : ServerError → String
  | .factoryBuild text => "application factory error: " ++ text
  | .prepare text => "application preparation error: " ++ text
  | .abnormalTermination message _ =>
    "server supervisor terminated abnormally: " ++ message

/-- How the supervisor ended. -/
inductive SupervisorExit where
  | returned (result : Except ServerError Unit)
  | panicked (message : String)
  /-- its future was dropped, or its task aborted -/
  | cancelled

/-- Where the supervisor stands. -/
inductive SupervisorPoint where
  /-- the application is built and prepared -/
  | preparing
  /-- in the loop that starts the accept loops -/
  | spawning
  /-- waiting for the shutdown or for the tracker -/
  | selecting
  /-- the graceful cancellation is recorded, the token to be cancelled -/
  | cancelling
  /-- waiting for the tracker -/
  | draining
  /-- a panic was caught; the token to be cancelled -/
  | cleaning (message : String)
  /-- a panic was caught; the tracker to be closed -/
  | closing (message : String)
  /-- a panic was caught; waiting for the tracker before it is resumed -/
  | settling (message : String)
  /-- the drop guard is about to record the cancellation -/
  | guarding (exit : SupervisorExit)
  /-- the drop guard is about to cancel the token -/
  | releasing (exit : SupervisorExit)
  | ended (exit : SupervisorExit)

inductive SupervisorEvent where
  /-- the application is prepared, or one of the two stages fails -/
  | prepared (result : Except ServerError Unit)
  /-- the shutdown comes before the application is prepared -/
  | abandonStartup
  /-- one more accept loop is started -/
  | spawnLoop
  /-- the server is ready and the tracker closed -/
  | ready
  /-- the shutdown is seen and recorded -/
  | shutdown
  /-- all tracked tasks have ended with no shutdown seen -/
  | completed
  | cancelToken
  | closeTracker
  /-- the tracker has drained -/
  | drained
  | panic (message : String)
  /-- the future is dropped, or the task aborted -/
  | abandon
  | guardRecords

/-! ## Controls and outcomes -/

/-- Terminal state published after the supervisor exits. -/
inductive ServerTerminal where
  | clean
  | abnormal (message : String) (source : Option ServerError)
  | cancelled

/-- The outcomes that count as abnormal terminations. -/
def ServerTerminal.isAbnormal : ServerTerminal → Bool
  | .abnormal _ _ => true
  | .clean | .cancelled => false

/-- Map how the supervisor ended to the outcome shared with callers. -/
def classifySupervisorResult : SupervisorExit → ServerTerminal
  | .returned (.ok ()) => .clean
  | .returned (.error err) => .abnormal err.display (some err)
  | .panicked message => .abnormal message none
  | .cancelled => .cancelled

/-- Translate the outcome into the public result. -/
def terminalResult : ServerTerminal → Except ServerError Unit
  | .clean => .ok ()
  | .abnormal message source => .error (.abnormalTermination message source)
  | .cancelled => .error (.abnormalTermination
      "server supervisor task was cancelled before a clean shutdown" none)

/-- What `drained` returns when the observer is gone and has published nothing. -/
def observerEnded : ServerError :=
  .abnormalTermination "server shutdown observer ended without a terminal outcome" none

/-- Where the observer stands. -/
inductive ObserverPoint where
  | absent
  /-- waiting for the supervisor -/
  | joining
  /-- the outcome is recorded, about to be published -/
  | publishing (terminal : ServerTerminal)
  | done
  | aborted

/-- Where a call of `drained` stands. -/
inductive WaiterPoint where
  | outside
  /-- no outcome was there; waiting for a change -/
  | waiting
  | returned (result : Except ServerError Unit)

inductive ControlEvent where
  /-- a stop is requested: by `stop`, or by the future given to a foreground server -/
  | stop
  | clone
  /-- a control is dropped; the last one requests a stop -/
  | drop
  /-- the observer sees the supervisor's end -/
  | join
  | publish
  | abortObserver
  /-- `drained` is called and looks for an outcome -/
  | callDrained (call : ℕ)
  /-- a call of `drained` looks for a change -/
  | pollChanged (call : ℕ)
  deriving DecidableEq, Repr

/-! ## The system -/

/-- Counts the tracked tasks; closed, it is drained once there are none. -/
structure TaskTracker where
  isClosed : Bool
  count : ℕ
  deriving DecidableEq, Repr

namespace TaskTracker

def new : TaskTracker := ⟨false, 0⟩

def spawn (tracker : TaskTracker) : TaskTracker := { tracker with count := tracker.count + 1 }

def finish (tracker : TaskTracker) : TaskTracker := { tracker with count := tracker.count - 1 }

def close (tracker : TaskTracker) : TaskTracker := { tracker with isClosed := true }

/-- What `wait` waits for. -/
def isDrained (tracker : TaskTracker) : Bool := tracker.isClosed && tracker.count == 0

end TaskTracker

/-- A server with everything that runs in it.  `listener` counts the owners of the listener; the
metrics are kept in order. -/
structure Server where
  mode : ServerMode
  workers : ℕ
  backoff : BackoffConfig
  supervisor : SupervisorPoint
  state : SupervisorState
  stopRequested : Bool
  token : Bool
  tracker : TaskTracker
  loops : List AcceptLoop
  connections : List ConnectionTask
  listener : ℕ
  controls : ℕ
  observer : ObserverPoint
  terminal : Option ServerTerminal
  waiters : ℕ → WaiterPoint
  cancellations : List ServerCancellationReason
  loopExits : List ServerCancellationReason
  connectionPanics : ℕ
  abnormalTerminations : ℕ

inductive ServerEvent where
  | supervisor (event : SupervisorEvent)
  | loop (worker : ℕ) (event : LoopEvent)
  | connection (task : ℕ) (event : ConnectionEvent)
  | control (event : ControlEvent)

namespace Server

/-- A bound server that is about to start. -/
def start (mode : ServerMode) (workers : ℕ) (backoff : BackoffConfig) : Server where
  mode := mode
  workers := workers
  backoff := backoff
  supervisor := .preparing
  state := .running
  stopRequested := false
  token := false
  tracker := .new
  loops := []
  connections := []
  listener := 1
  controls := 0
  observer := .absent
  terminal := none
  waiters := fun _ => .outside
  cancellations := []
  loopExits := []
  connectionPanics := 0
  abnormalTerminations := 0

variable (s : Server)

/-! ### Accept loops -/

def setLoop (worker : ℕ) (loop : AcceptLoop) : Server :=
  { s with loops := s.loops.set worker loop }

/-- The task of a loop ends: it lets go of the listener and leaves the tracker. -/
def endLoop (worker : ℕ) (loop : AcceptLoop) : Server :=
  { s with
    loops := s.loops.set worker loop
    listener := s.listener - 1
    tracker := s.tracker.finish }

/-- A connection is accepted and its task started. -/
def spawnConnectionTask (worker : ℕ) : Server :=
  { s with
    connections := s.connections ++ [⟨worker, s.token, .reading⟩]
    tracker := s.tracker.spawn }

/-- Record the exit only when the token is cancelled. -/
def recordAcceptLoopExit : Server :=
  { s with
    loopExits := s.loopExits ++ if s.token then [s.state.cancellationReason] else [] }

/-- One step of an accept loop. -/
def loopStep (worker : ℕ) (loop : AcceptLoop) : LoopEvent → Option Server
  | .pollToken =>
    match loop.point with
    | .polling delay =>
      if s.token then some (s.setLoop worker ⟨.leaving, loop.attempts⟩)
      else some (s.setLoop worker ⟨.accepting delay, loop.attempts⟩)
    | _ => none
  | .pollAccept result =>
    match loop.point with
    | .accepting delay =>
      match result with
      | none => some (s.setLoop worker ⟨.polling delay, loop.attempts⟩)
      | some .connection =>
        some ((s.spawnConnectionTask worker).setLoop worker
          ⟨.polling s.backoff.normalized.initialDelay, loop.attempts ++ [.connection]⟩)
      | some .failed => some (s.setLoop worker ⟨.sleeping delay, loop.attempts ++ [.failed]⟩)
    | _ => none
  | .wake =>
    match loop.point with
    | .sleeping delay =>
      match s.backoff.normalized.nextDelay delay with
      | some next => some (s.setLoop worker ⟨.polling next, loop.attempts⟩)
      | none => some (s.endLoop worker ⟨.panicked, loop.attempts⟩)
    | _ => none
  | .exit =>
    match loop.point with
    | .leaving => some (s.recordAcceptLoopExit.endLoop worker ⟨.exited, loop.attempts⟩)
    | _ => none

/-! ### Connections -/

/-- One step of a connection's task.  A task that ends leaves the tracker; a panic is counted and
goes no further. -/
def connectionStep (i : ℕ) (task : ConnectionTask) (event : ConnectionEvent) : Option Server :=
  match task.point.next event with
  | none => none
  | some point =>
    let moved : ConnectionTask := { task with point := point }
    some { s with
      connections := s.connections.set i moved
      tracker := if moved.isLive then s.tracker else s.tracker.finish
      connectionPanics := s.connectionPanics + if point = .panicked then 1 else 0 }

/-! ### The supervisor -/

def goto (point : SupervisorPoint) : Server := { s with supervisor := point }

/-- The future that started the loops is gone, and with it its hold on the listener. -/
def leaveRun (point : SupervisorPoint) : Server :=
  { s with supervisor := point, listener := s.listener - 1 }

/-- The application is prepared.  A run in a task of its own has an observer and a control. -/
def startRun : Server :=
  { s with
    supervisor := .spawning
    controls := if s.mode = .spawned then 1 else s.controls
    observer := if s.mode = .spawned then .joining else s.observer }

/-- Start an accept loop. -/
def spawnLoop : Server :=
  { s with
    loops := s.loops ++ [⟨.polling s.backoff.normalized.initialDelay, []⟩]
    listener := s.listener + 1
    tracker := s.tracker.spawn }

/-- Record intentional cancellation before notifying the accept loops. -/
def recordGracefulCancellation : Server :=
  { s with state := .graceful, cancellations := s.cancellations ++ [.graceful] }

/-- Record cancellation caused by the foreground supervisor being dropped. -/
def recordDroppedCancellation : Server :=
  if s.state = .running then
    { s with state := .dropped, cancellations := s.cancellations ++ [.dropped] }
  else s

/-- Record that all tracked workers ended without a cancellation request. -/
def recordCompletionWithoutCancellation : Server := { s with state := .finished }

def cancelToken : Server := { s with token := true }

def closeTracker : Server := { s with tracker := s.tracker.close }

/-- Where the run's future ends: in the guard of the caller's frame, or in the task itself. -/
def exitPoint (exit : SupervisorExit) : SupervisorPoint :=
  match s.mode with
  | .foreground => .guarding exit
  | .spawned => .ended exit

/-- Where a panic of the run leads: a task cleans up before it resumes it. -/
def panicPoint (message : String) : SupervisorPoint :=
  match s.mode with
  | .foreground => .guarding (.panicked message)
  | .spawned => .cleaning message

/-- One step of the supervisor. -/
def supervisorStep : SupervisorEvent → Option Server
  | .prepared result =>
    match s.supervisor with
    | .preparing =>
      match result with
      | .ok () => some s.startRun
      | .error err => some (s.leaveRun (.ended (.returned (.error err))))
    | _ => none
  | .abandonStartup =>
    match s.supervisor with
    | .preparing =>
      if s.mode = .foreground ∧ s.stopRequested then
        some (s.leaveRun (.ended (.returned (.ok ()))))
      else none
    | _ => none
  | .spawnLoop =>
    match s.supervisor with
    | .spawning => if s.loops.length < s.workers then some s.spawnLoop else none
    | _ => none
  | .ready =>
    match s.supervisor with
    | .spawning =>
      if s.loops.length < s.workers then none
      else some (s.closeTracker.goto .selecting)
    | _ => none
  | .shutdown =>
    match s.supervisor with
    | .selecting =>
      if s.stopRequested then some (s.recordGracefulCancellation.goto .cancelling) else none
    | _ => none
  | .completed =>
    match s.supervisor with
    | .selecting =>
      if s.tracker.isDrained then some (s.recordCompletionWithoutCancellation.goto .draining) else none
    | _ => none
  | .cancelToken =>
    match s.supervisor with
    | .cancelling => some (s.cancelToken.goto .draining)
    | .cleaning message => some (s.cancelToken.goto (.closing message))
    | .releasing exit => some (s.cancelToken.goto (.ended exit))
    | _ => none
  | .closeTracker =>
    match s.supervisor with
    | .closing message => some (s.closeTracker.goto (.settling message))
    | _ => none
  | .drained =>
    match s.supervisor with
    | .draining =>
      if s.tracker.isDrained then some (s.leaveRun (s.exitPoint (.returned (.ok ())))) else none
    | .settling message =>
      if s.tracker.isDrained then some (s.goto (.ended (.panicked message))) else none
    | _ => none
  | .panic message =>
    match s.supervisor with
    | .spawning | .selecting | .draining => some (s.leaveRun (s.panicPoint message))
    | _ => none
  | .abandon =>
    match s.supervisor with
    -- the futures that can be dropped are those that wait
    | .preparing => some (s.leaveRun (.ended .cancelled))
    | .selecting | .draining => some (s.leaveRun (s.exitPoint .cancelled))
    | .settling _ => some (s.goto (.ended .cancelled))
    | _ => none
  | .guardRecords =>
    match s.supervisor with
    | .guarding exit => some (s.recordDroppedCancellation.goto (.releasing exit))
    | _ => none

/-! ### Controls, observer and callers -/

/-- The sender of the outcome is gone. -/
def senderGone : Bool :=
  match s.observer with
  | .done | .aborted => true
  | _ => false

def setWaiter (call : ℕ) (point : WaiterPoint) : Server :=
  { s with waiters := Function.update s.waiters call point }

/-- One step of a control, of the observer or of a call of `drained`. -/
def controlStep : ControlEvent → Option Server
  | .stop =>
    if s.mode = .foreground ∨ 0 < s.controls then some { s with stopRequested := true } else none
  | .clone => if 0 < s.controls then some { s with controls := s.controls + 1 } else none
  | .drop =>
    if 0 < s.controls then
      some { s with
        controls := s.controls - 1
        stopRequested := s.stopRequested || s.controls == 1 }
    else none
  | .join =>
    match s.observer, s.supervisor with
    | .joining, .ended exit =>
      let terminal := classifySupervisorResult exit
      some { s with
        observer := .publishing terminal
        abnormalTerminations := s.abnormalTerminations + terminal.isAbnormal.toNat }
    | _, _ => none
  | .publish =>
    match s.observer with
    | .publishing terminal => some { s with observer := .done, terminal := some terminal }
    | _ => none
  | .abortObserver =>
    match s.observer with
    | .joining | .publishing _ => some { s with observer := .aborted }
    | _ => none
  | .callDrained call =>
    match s.waiters call with
    | .outside =>
      if 0 < s.controls then
        match s.terminal with
        | some terminal => some (s.setWaiter call (.returned (terminalResult terminal)))
        | none => some (s.setWaiter call .waiting)
      else none
    | _ => none
  | .pollChanged call =>
    match s.waiters call with
    | .waiting =>
      match s.terminal with
      | some terminal => some (s.setWaiter call (.returned (terminalResult terminal)))
      | none =>
        if s.senderGone then some (s.setWaiter call (.returned (.error observerEnded))) else none
    | _ => none

/-- One step of whatever moves next, when it can. -/
def step : ServerEvent → Option Server
  | .supervisor event => s.supervisorStep event
  | .loop worker event =>
    match s.loops[worker]? with
    | some loop => s.loopStep worker loop event
    | none => none
  | .connection i event =>
    match s.connections[i]? with
    | some task => s.connectionStep i task event
    | none => none
  | .control event => s.controlStep event

/-! ## What a step can do -/

variable {s : Server} {t : Server}

/-- What a step of an accept loop does, by where the loop stands. -/
inductive LoopMove (s : Server) (worker : ℕ) (attempts : List AcceptResult) :
    LoopPoint → Server → Prop where
  | cancelled (delay : ℕ) (htoken : s.token = true) :
      LoopMove s worker attempts (.polling delay) (s.setLoop worker ⟨.leaving, attempts⟩)
  | uncancelled (delay : ℕ) (htoken : s.token = false) :
      LoopMove s worker attempts (.polling delay) (s.setLoop worker ⟨.accepting delay, attempts⟩)
  | pending (delay : ℕ) :
      LoopMove s worker attempts (.accepting delay) (s.setLoop worker ⟨.polling delay, attempts⟩)
  | accepted (delay : ℕ) :
      LoopMove s worker attempts (.accepting delay)
        ((s.spawnConnectionTask worker).setLoop worker
          ⟨.polling s.backoff.normalized.initialDelay, attempts ++ [.connection]⟩)
  | failed (delay : ℕ) :
      LoopMove s worker attempts (.accepting delay)
        (s.setLoop worker ⟨.sleeping delay, attempts ++ [.failed]⟩)
  | woke (delay next : ℕ) (hnext : s.backoff.normalized.nextDelay delay = some next) :
      LoopMove s worker attempts (.sleeping delay) (s.setLoop worker ⟨.polling next, attempts⟩)
  | overflowed (delay : ℕ) (hnext : s.backoff.normalized.nextDelay delay = none) :
      LoopMove s worker attempts (.sleeping delay) (s.endLoop worker ⟨.panicked, attempts⟩)
  | left :
      LoopMove s worker attempts .leaving
        (s.recordAcceptLoopExit.endLoop worker ⟨.exited, attempts⟩)

/-- Every event of an accept loop is a move. -/
theorem loopMove_of_loopStep {worker : ℕ} {loop : AcceptLoop} {event : LoopEvent}
    (h : s.loopStep worker loop event = some t) :
    LoopMove s worker loop.attempts loop.point t := by
  obtain ⟨point, attempts⟩ := loop
  cases event with
  | pollToken =>
    cases point with
    | polling delay =>
      by_cases htoken : s.token = true
      · obtain rfl := Option.some.inj ((if_pos htoken).symm.trans h)
        exact .cancelled delay htoken
      · obtain rfl := Option.some.inj ((if_neg htoken).symm.trans h)
        exact .uncancelled delay (Bool.eq_false_iff.mpr htoken)
    | _ => exact absurd h (by simp [loopStep])
  | pollAccept result =>
    cases point with
    | accepting delay =>
      rcases result with _ | _ | _
      · cases h
        exact .pending delay
      · cases h
        exact .accepted delay
      · cases h
        exact .failed delay
    | _ => exact absurd h (by simp [loopStep])
  | wake =>
    cases point with
    | sleeping delay =>
      rcases hnext : s.backoff.normalized.nextDelay delay with _ | next
      · simp only [loopStep, hnext, Option.some.injEq] at h
        exact h ▸ .overflowed delay hnext
      · simp only [loopStep, hnext, Option.some.injEq] at h
        exact h ▸ .woke delay next hnext
    | _ => exact absurd h (by simp [loopStep])
  | exit =>
    cases point with
    | leaving =>
      cases h
      exact .left
    | _ => exact absurd h (by simp [loopStep])

/-- What a step of the supervisor does, by where it stands. -/
inductive SupervisorMove (s : Server) : SupervisorPoint → Server → Prop where
  | started : SupervisorMove s .preparing s.startRun
  | refused (err : ServerError) :
      SupervisorMove s .preparing (s.leaveRun (.ended (.returned (.error err))))
  | forestalled (hmode : s.mode = .foreground) (hstop : s.stopRequested = true) :
      SupervisorMove s .preparing (s.leaveRun (.ended (.returned (.ok ()))))
  | forgotten : SupervisorMove s .preparing (s.leaveRun (.ended .cancelled))
  | spawned (hroom : s.loops.length < s.workers) : SupervisorMove s .spawning s.spawnLoop
  | ready (hfull : ¬ s.loops.length < s.workers) :
      SupervisorMove s .spawning (s.closeTracker.goto .selecting)
  | shutdown (hstop : s.stopRequested = true) :
      SupervisorMove s .selecting (s.recordGracefulCancellation.goto .cancelling)
  | completed (hdrained : s.tracker.isDrained = true) :
      SupervisorMove s .selecting (s.recordCompletionWithoutCancellation.goto .draining)
  | cancelled : SupervisorMove s .cancelling (s.cancelToken.goto .draining)
  | drained (hdrained : s.tracker.isDrained = true) :
      SupervisorMove s .draining (s.leaveRun (s.exitPoint (.returned (.ok ()))))
  | panicked (point : SupervisorPoint) (message : String)
      (hpoint : point = .spawning ∨ point = .selecting ∨ point = .draining) :
      SupervisorMove s point (s.leaveRun (s.panicPoint message))
  | abandoned (point : SupervisorPoint) (hpoint : point = .selecting ∨ point = .draining) :
      SupervisorMove s point (s.leaveRun (s.exitPoint .cancelled))
  | cleaned (message : String) :
      SupervisorMove s (.cleaning message) (s.cancelToken.goto (.closing message))
  | closed (message : String) :
      SupervisorMove s (.closing message)
        (s.closeTracker.goto (.settling message))
  | settled (message : String) (hdrained : s.tracker.isDrained = true) :
      SupervisorMove s (.settling message) (s.goto (.ended (.panicked message)))
  | aborted (message : String) : SupervisorMove s (.settling message) (s.goto (.ended .cancelled))
  | recorded (exit : SupervisorExit) :
      SupervisorMove s (.guarding exit) (s.recordDroppedCancellation.goto (.releasing exit))
  | released (exit : SupervisorExit) :
      SupervisorMove s (.releasing exit) (s.cancelToken.goto (.ended exit))

/-- Every event of the supervisor is a move, from the point where it stands. -/
theorem supervisorMove_of_supervisorStep {event : SupervisorEvent}
    (h : s.supervisorStep event = some t) : SupervisorMove s s.supervisor t := by
  cases event with simp only [supervisorStep] at h
  | prepared result =>
    split at h
    · rename_i hpoint
      rw [hpoint]
      rcases result with err | _
      · exact Option.some.inj h ▸ .refused err
      · exact Option.some.inj h ▸ .started
    · cases h
  | abandonStartup =>
    split at h
    · rename_i hpoint
      rw [hpoint]
      obtain ⟨⟨hmode, hstop⟩, ht⟩ := Option.ite_none_right_eq_some.mp h
      exact Option.some.inj ht ▸ .forestalled hmode hstop
    · cases h
  | spawnLoop =>
    split at h
    · rename_i hpoint
      rw [hpoint]
      obtain ⟨hroom, ht⟩ := Option.ite_none_right_eq_some.mp h
      exact Option.some.inj ht ▸ .spawned hroom
    · cases h
  | ready =>
    split at h
    · rename_i hpoint
      rw [hpoint]
      obtain ⟨hfull, ht⟩ := Option.ite_none_left_eq_some.mp h
      exact Option.some.inj ht ▸ .ready hfull
    · cases h
  | shutdown =>
    split at h
    · rename_i hpoint
      rw [hpoint]
      obtain ⟨hstop, ht⟩ := Option.ite_none_right_eq_some.mp h
      exact Option.some.inj ht ▸ .shutdown hstop
    · cases h
  | completed =>
    split at h
    · rename_i hpoint
      rw [hpoint]
      obtain ⟨hdrained, ht⟩ := Option.ite_none_right_eq_some.mp h
      exact Option.some.inj ht ▸ .completed hdrained
    · cases h
  | cancelToken =>
    split at h
    · rename_i hpoint
      exact hpoint ▸ Option.some.inj h ▸ .cancelled
    · rename_i message hpoint
      exact hpoint ▸ Option.some.inj h ▸ .cleaned message
    · rename_i exit hpoint
      exact hpoint ▸ Option.some.inj h ▸ .released exit
    · cases h
  | closeTracker =>
    split at h
    · rename_i message hpoint
      exact hpoint ▸ Option.some.inj h ▸ .closed message
    · cases h
  | drained =>
    split at h
    · rename_i hpoint
      rw [hpoint]
      obtain ⟨hdrained, ht⟩ := Option.ite_none_right_eq_some.mp h
      exact Option.some.inj ht ▸ .drained hdrained
    · rename_i message hpoint
      rw [hpoint]
      obtain ⟨hdrained, ht⟩ := Option.ite_none_right_eq_some.mp h
      exact Option.some.inj ht ▸ .settled message hdrained
    · cases h
  | panic message =>
    split at h
    · rename_i hpoint
      exact Option.some.inj h ▸ .panicked _ message (Or.inl hpoint)
    · rename_i hpoint
      exact Option.some.inj h ▸ .panicked _ message (Or.inr (Or.inl hpoint))
    · rename_i hpoint
      exact Option.some.inj h ▸ .panicked _ message (Or.inr (Or.inr hpoint))
    · cases h
  | abandon =>
    split at h
    · rename_i hpoint
      exact hpoint ▸ Option.some.inj h ▸ .forgotten
    · rename_i hpoint
      exact Option.some.inj h ▸ .abandoned _ (Or.inl hpoint)
    · rename_i hpoint
      exact Option.some.inj h ▸ .abandoned _ (Or.inr hpoint)
    · rename_i message hpoint
      exact hpoint ▸ Option.some.inj h ▸ .aborted message
    · cases h
  | guardRecords =>
    split at h
    · rename_i exit hpoint
      exact hpoint ▸ Option.some.inj h ▸ .recorded exit
    · cases h

/-- What a step of a control, of the observer or of a caller does. -/
inductive ControlMove (s : Server) : ControlEvent → Server → Prop where
  | stopped : ControlMove s .stop { s with stopRequested := true }
  | cloned : ControlMove s .clone { s with controls := s.controls + 1 }
  | dropped :
      ControlMove s .drop { s with
        controls := s.controls - 1
        stopRequested := s.stopRequested || s.controls == 1 }
  | joined (exit : SupervisorExit) (hobserver : s.observer = .joining)
      (hsupervisor : s.supervisor = .ended exit) :
      ControlMove s .join { s with
        observer := .publishing (classifySupervisorResult exit)
        abnormalTerminations :=
          s.abnormalTerminations + (classifySupervisorResult exit).isAbnormal.toNat }
  | published (terminal : ServerTerminal) (hobserver : s.observer = .publishing terminal) :
      ControlMove s .publish { s with observer := .done, terminal := some terminal }
  | aborted (hobserver : s.observer = .joining ∨ ∃ terminal, s.observer = .publishing terminal) :
      ControlMove s .abortObserver { s with observer := .aborted }
  | waited (call : ℕ) : ControlMove s (.callDrained call) (s.setWaiter call .waiting)
  | told (call : ℕ) (terminal : ServerTerminal) (hterminal : s.terminal = some terminal) :
      ControlMove s (.callDrained call)
        (s.setWaiter call (.returned (terminalResult terminal)))
  | answered (call : ℕ) (terminal : ServerTerminal) (hterminal : s.terminal = some terminal) :
      ControlMove s (.pollChanged call)
        (s.setWaiter call (.returned (terminalResult terminal)))
  | disappointed (call : ℕ) (hterminal : s.terminal = none) (hgone : s.senderGone = true) :
      ControlMove s (.pollChanged call)
        (s.setWaiter call (.returned (.error observerEnded)))

/-- Every event of the control side is a move. -/
theorem controlMove_of_controlStep {event : ControlEvent} (h : s.controlStep event = some t) :
    ControlMove s event t := by
  cases event with
  | stop =>
    obtain ⟨-, ht⟩ := Option.ite_none_right_eq_some.mp h
    exact Option.some.inj ht ▸ .stopped
  | clone =>
    obtain ⟨-, ht⟩ := Option.ite_none_right_eq_some.mp h
    exact Option.some.inj ht ▸ .cloned
  | drop =>
    obtain ⟨-, ht⟩ := Option.ite_none_right_eq_some.mp h
    exact Option.some.inj ht ▸ .dropped
  | join =>
    simp only [controlStep] at h
    split at h
    · rename_i exit hobserver hsupervisor
      exact Option.some.inj h ▸ .joined exit hobserver hsupervisor
    · cases h
  | publish =>
    simp only [controlStep] at h
    split at h
    · rename_i terminal hobserver
      exact Option.some.inj h ▸ .published terminal hobserver
    · cases h
  | abortObserver =>
    simp only [controlStep] at h
    split at h
    · rename_i hobserver
      exact Option.some.inj h ▸ .aborted (Or.inl hobserver)
    · rename_i terminal hobserver
      exact Option.some.inj h ▸ .aborted (Or.inr ⟨terminal, hobserver⟩)
    · cases h
  | callDrained call =>
    simp only [controlStep] at h
    split at h
    · obtain ⟨-, ht⟩ := Option.ite_none_right_eq_some.mp h
      rcases hterminal : s.terminal with _ | terminal
      · rw [hterminal] at ht
        exact Option.some.inj ht ▸ .waited call
      · rw [hterminal] at ht
        exact Option.some.inj ht ▸ .told call terminal hterminal
    · cases h
  | pollChanged call =>
    simp only [controlStep] at h
    split at h
    · rcases hterminal : s.terminal with _ | terminal
      · rw [hterminal] at h
        obtain ⟨hgone, ht⟩ := Option.ite_none_right_eq_some.mp h
        exact Option.some.inj ht ▸ .disappointed call hterminal hgone
      · rw [hterminal] at h
        exact Option.some.inj h ▸ .answered call terminal hterminal
    · cases h

/-- What a step can do, by the event it answers to. -/
inductive Move (s : Server) : ServerEvent → Server → Prop where
  | supervisor {t : Server} (event : SupervisorEvent) (h : SupervisorMove s s.supervisor t) :
      Move s (.supervisor event) t
  | loop {t : Server} {worker : ℕ} {point : LoopPoint} {attempts : List AcceptResult}
      (event : LoopEvent) (hloop : s.loops[worker]? = some ⟨point, attempts⟩)
      (h : LoopMove s worker attempts point t) : Move s (.loop worker event) t
  | connection {t : Server} {i : ℕ} {task : ConnectionTask} (event : ConnectionEvent)
      (htask : s.connections[i]? = some task) (h : s.connectionStep i task event = some t) :
      Move s (.connection i event) t
  | control {t : Server} (event : ControlEvent) (h : ControlMove s event t) :
      Move s (.control event) t

theorem move_of_step {event : ServerEvent} (h : s.step event = some t) : Move s event t := by
  cases event with
  | supervisor event => exact .supervisor event (supervisorMove_of_supervisorStep h)
  | loop worker event =>
    rw [step] at h
    split at h
    · rename_i loop hloop
      exact .loop event hloop (loopMove_of_loopStep h)
    · cases h
  | connection i event =>
    rw [step] at h
    split at h
    · rename_i task htask
      exact .connection event htask h
    · cases h
  | control event => exact .control event (controlMove_of_controlStep h)

end Server

end Wireframe
