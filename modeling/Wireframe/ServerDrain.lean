/-
# What a drained server has left behind

`ServerShutdown::drained` reports how the supervisor of a server ended.  However the loops, the
connections, the supervisor, the observer and the callers interleave:

* `drained_leaves_nothing`: when a call of it returns `Ok`, or reports a panic, no accept loop and
  no connection is left, and the listener has no owner;
* `drained_agree`: all calls return the same.

The first rests on the tracker's count being that of the live tasks (`Accounted`), the second on
the one outcome the observer publishes (`Published`).
-/
import Mathlib.Tactic
import Wireframe.ServerLifecycle

namespace Wireframe

/-- The supervisor's own hold on the listener lasts as long as the run. -/
def SupervisorPoint.ownsListener : SupervisorPoint → Bool
  | .preparing | .spawning | .selecting | .cancelling | .draining => true
  | _ => false

/-- The ways to end that come after the last task: a task of the supervisor's own cleans up after
a panic before it resumes it. -/
def SupervisorExit.isDrained (mode : ServerMode) : SupervisorExit → Bool
  | .returned _ => true
  | .panicked _ => mode = .spawned
  | .cancelled => false

def SupervisorPoint.hasNoTasks (mode : ServerMode) : SupervisorPoint → Bool
  | .preparing => true
  | .guarding exit | .releasing exit | .ended exit => exit.isDrained mode
  | _ => false

namespace Server

open TaskTable (total total_set total_concat)

/-! ## What the steps leave alone -/

/-- Nothing but the tasks, their tracker and their metrics differs. -/
structure SameSupervision (s t : Server) : Prop where
  mode : t.mode = s.mode
  workers : t.workers = s.workers
  backoff : t.backoff = s.backoff
  supervisor : t.supervisor = s.supervisor
  state : t.state = s.state
  stopRequested : t.stopRequested = s.stopRequested
  token : t.token = s.token
  isClosed : t.tracker.isClosed = s.tracker.isClosed
  controls : t.controls = s.controls
  observer : t.observer = s.observer
  terminal : t.terminal = s.terminal
  waiters : t.waiters = s.waiters
  cancellations : t.cancellations = s.cancellations

/-- Nothing but what the callers and the observer do differs; a request to stop stands. -/
structure SameTasks (s t : Server) : Prop where
  mode : t.mode = s.mode
  workers : t.workers = s.workers
  backoff : t.backoff = s.backoff
  supervisor : t.supervisor = s.supervisor
  state : t.state = s.state
  stopRequested : s.stopRequested = true → t.stopRequested = true
  token : t.token = s.token
  tracker : t.tracker = s.tracker
  loops : t.loops = s.loops
  connections : t.connections = s.connections
  listener : t.listener = s.listener
  cancellations : t.cancellations = s.cancellations
  loopExits : t.loopExits = s.loopExits

variable {s t : Server} {worker i : ℕ} {attempts : List AcceptResult} {point : LoopPoint}
  {task : ConnectionTask}

theorem LoopMove.sameSupervision (h : LoopMove s worker attempts point t) :
    SameSupervision s t := by
  cases h <;> constructor <;> rfl

/-- Only a live loop moves. -/
theorem LoopMove.isLive (h : LoopMove s worker attempts point t) :
    (AcceptLoop.mk point attempts).isLive = true := by
  cases h <;> rfl

/-- A step of a connection replaces its entry, and leaves the tracker when it is the last. -/
theorem connectionStep_cases {event : ConnectionEvent} (h : s.connectionStep i task event = some t) :
    ∃ next, task.point.next event = some next ∧
      t = { s with
        connections := s.connections.set i { task with point := next }
        tracker := if ConnectionTask.isLive { task with point := next } then s.tracker
          else s.tracker.finish
        connectionPanics := s.connectionPanics + if next = .panicked then 1 else 0 } := by
  rw [connectionStep] at h
  rcases hnext : task.point.next event with _ | next
  · rw [hnext] at h
    cases h
  · rw [hnext] at h
    exact ⟨next, rfl, (Option.some.inj h).symm⟩

theorem sameSupervision_of_connectionStep {event : ConnectionEvent}
    (h : s.connectionStep i task event = some t) : SameSupervision s t := by
  obtain ⟨next, -, rfl⟩ := connectionStep_cases h
  refine ⟨rfl, rfl, rfl, rfl, rfl, rfl, rfl, ?_, rfl, rfl, rfl, rfl, rfl⟩
  show (if _ then s.tracker else s.tracker.finish).isClosed = s.tracker.isClosed
  split <;> rfl

theorem isLive_of_connectionStep {event : ConnectionEvent}
    (h : s.connectionStep i task event = some t) : task.isLive = true := by
  obtain ⟨next, hnext, -⟩ := connectionStep_cases h
  obtain ⟨acceptedBy, late, point⟩ := task
  cases point with
  | closed | panicked => cases event <;> exact absurd hnext (by simp [ConnectionPoint.next])
  | _ => rfl

theorem ControlMove.sameTasks {event : ControlEvent} (h : ControlMove s event t) : SameTasks s t := by
  cases h with
  | stopped => exact ⟨rfl, rfl, rfl, rfl, rfl, fun _ => rfl, rfl, rfl, rfl, rfl, rfl, rfl, rfl⟩
  | dropped =>
    refine ⟨rfl, rfl, rfl, rfl, rfl, fun hstop => ?_, rfl, rfl, rfl, rfl, rfl, rfl, rfl⟩
    show (s.stopRequested || s.controls == 1) = true
    rw [hstop, Bool.true_or]
  | _ => exact ⟨rfl, rfl, rfl, rfl, rfl, id, rfl, rfl, rfl, rfl, rfl, rfl, rfl⟩

/-! ## The tracker counts the live tasks -/

def liveLoops (s : Server) : ℕ := total (fun loop => loop.isLive.toNat) s.loops

def liveConnections (s : Server) : ℕ := total (fun task => task.isLive.toNat) s.connections

/-- The supervisor stands before its first task or after the last. -/
def hasNoTasks (s : Server) : Bool := s.supervisor.hasNoTasks s.mode

/-- The tracker counts the live tasks, the listener's owners are the live loops and the run, and
there are no tasks before the run and after it was drained. -/
structure Accounted (s : Server) : Prop where
  tracked : s.tracker.count = s.liveLoops + s.liveConnections
  owned : s.listener = s.liveLoops + s.supervisor.ownsListener.toNat
  idle : s.hasNoTasks = true → s.tracker.count = 0

theorem accounted_start (mode : ServerMode) (workers : ℕ) (backoff : BackoffConfig) :
    Accounted (start mode workers backoff) := ⟨rfl, rfl, fun _ => rfl⟩

theorem hasNoTasks_congr (hsupervisor : t.supervisor = s.supervisor) (hmode : t.mode = s.mode) :
    t.hasNoTasks = s.hasNoTasks := by
  rw [hasNoTasks, hasNoTasks, hsupervisor, hmode]

/-- While a task is alive, the run is neither unstarted nor drained. -/
theorem Accounted.hasNoTasks_eq_false (h : Accounted s) (hlive : 0 < s.tracker.count) :
    s.hasNoTasks = false := by
  rw [← Bool.not_eq_true]
  intro hidle
  have := h.idle hidle
  omega

theorem Accounted.loop_alive (h : Accounted s) {loop : AcceptLoop}
    (hloop : s.loops[worker]? = some loop) (hlive : loop.isLive = true) :
    0 < s.liveLoops ∧ 0 < s.tracker.count := by
  have hle := TaskTable.le_total (f := fun loop : AcceptLoop => loop.isLive.toNat) hloop
  have hone : loop.isLive.toNat = 1 := by rw [hlive]; rfl
  have htracked := h.tracked
  simp only [hone] at hle
  have hpos : 0 < s.liveLoops := hle
  exact ⟨hpos, by omega⟩

theorem Accounted.connection_alive (h : Accounted s) (htask : s.connections[i]? = some task)
    (hlive : task.isLive = true) : 0 < s.tracker.count := by
  have hle := TaskTable.le_total (f := fun task : ConnectionTask => task.isLive.toNat) htask
  have hone : task.isLive.toNat = 1 := by rw [hlive]; rfl
  have htracked := h.tracked
  simp only [hone] at hle
  have hpos : 0 < s.liveConnections := hle
  omega

/-! ### Loops and connections -/

theorem liveLoops_setLoop {loop next : AcceptLoop} (hloop : s.loops[worker]? = some loop)
    (hlive : loop.isLive = true) (hnext : next.isLive = true) :
    (s.setLoop worker next).liveLoops = s.liveLoops := by
  have hset := total_set (f := fun loop : AcceptLoop => loop.isLive.toNat) (b := next) hloop
  simp only [hlive, hnext] at hset
  exact Nat.add_right_cancel hset

theorem liveLoops_endLoop {loop last : AcceptLoop} (hloop : s.loops[worker]? = some loop)
    (hlive : loop.isLive = true) (hlast : last.isLive = false) :
    (s.endLoop worker last).liveLoops + 1 = s.liveLoops := by
  have hset := total_set (f := fun loop : AcceptLoop => loop.isLive.toNat) (b := last) hloop
  simp only [hlive, hlast] at hset
  exact hset

/-- A loop that ends leaves the tracker and the listener. -/
theorem Accounted.endLoop (h : Accounted s) {loop last : AcceptLoop}
    (hloop : s.loops[worker]? = some loop) (hlive : loop.isLive = true)
    (hlast : last.isLive = false) : Accounted (s.endLoop worker last) := by
  obtain ⟨-, hcount⟩ := h.loop_alive hloop hlive
  have hbusy := h.hasNoTasks_eq_false hcount
  have hloops := liveLoops_endLoop hloop hlive hlast
  have htracked := h.tracked
  have howned := h.owned
  refine ⟨?_, ?_, fun hidle => absurd (hbusy.symm.trans hidle) Bool.false_ne_true⟩
  · show s.tracker.count - 1 = (s.endLoop worker last).liveLoops + s.liveConnections
    omega
  · show s.listener - 1 = (s.endLoop worker last).liveLoops + s.supervisor.ownsListener.toNat
    omega

theorem Accounted.setLoop (h : Accounted s) {loop next : AcceptLoop}
    (hloop : s.loops[worker]? = some loop) (hlive : loop.isLive = true)
    (hnext : next.isLive = true) : Accounted (s.setLoop worker next) := by
  have hloops := liveLoops_setLoop hloop hlive hnext
  refine ⟨?_, ?_, h.idle⟩
  · show s.tracker.count = (s.setLoop worker next).liveLoops + s.liveConnections
    rw [hloops, h.tracked]
  · show s.listener = (s.setLoop worker next).liveLoops + s.supervisor.ownsListener.toNat
    rw [hloops, h.owned]

/-- A connection is started by a loop, so the run is under way. -/
theorem Accounted.spawnConnectionTask (h : Accounted s) {loop : AcceptLoop}
    (hloop : s.loops[worker]? = some loop) (hlive : loop.isLive = true) :
    Accounted (s.spawnConnectionTask worker) := by
  obtain ⟨-, hcount⟩ := h.loop_alive hloop hlive
  have hbusy := h.hasNoTasks_eq_false hcount
  refine ⟨?_, h.owned, fun hidle => absurd (hbusy.symm.trans hidle) Bool.false_ne_true⟩
  show s.tracker.count + 1 = s.liveLoops + total _ (s.connections ++ [_])
  rw [total_concat, h.tracked, Nat.add_assoc]
  rfl

theorem Accounted.loopMove (h : Accounted s) (hloop : s.loops[worker]? = some ⟨point, attempts⟩)
    (hmove : LoopMove s worker attempts point t) : Accounted t := by
  have hlive := hmove.isLive
  cases hmove with
  | accepted delay => exact (h.spawnConnectionTask hloop hlive).setLoop hloop hlive rfl
  | overflowed delay hnext => exact h.endLoop hloop hlive rfl
  | left =>
    have hrecorded : Accounted s.recordAcceptLoopExit := ⟨h.tracked, h.owned, h.idle⟩
    exact hrecorded.endLoop hloop hlive rfl
  | _ => exact h.setLoop hloop hlive rfl

/-- A connection that ends leaves the tracker. -/
theorem Accounted.connectionStep (h : Accounted s) (htask : s.connections[i]? = some task)
    {event : ConnectionEvent} (hstep : s.connectionStep i task event = some t) : Accounted t := by
  have hlive := isLive_of_connectionStep hstep
  have hcount := h.connection_alive htask hlive
  have hbusy := h.hasNoTasks_eq_false hcount
  obtain ⟨next, -, rfl⟩ := connectionStep_cases hstep
  have hset := total_set (f := fun task : ConnectionTask => task.isLive.toNat)
    (b := { task with point := next }) htask
  have htracked := h.tracked
  refine ⟨?_, h.owned, fun hidle => absurd (hbusy.symm.trans hidle) Bool.false_ne_true⟩
  show (if _ then s.tracker else s.tracker.finish).count = s.liveLoops + total _ (s.connections.set _ _)
  cases hnext : ConnectionTask.isLive { task with point := next } with
  | true =>
    simp only [hlive, hnext] at hset
    rw [if_pos rfl, Nat.add_right_cancel hset]
    exact htracked
  | false =>
    simp only [hlive, hnext, Bool.toNat_false, Bool.toNat_true] at hset
    rw [if_neg Bool.false_ne_true]
    show s.tracker.count - 1 = _
    rw [liveConnections] at htracked
    omega

/-! ### The supervisor -/

/-- A move of the supervisor that keeps its hold on the listener. -/
theorem Accounted.goto (h : Accounted s) {next : SupervisorPoint}
    (howns : next.ownsListener = s.supervisor.ownsListener)
    (hidle : (s.goto next).hasNoTasks = true → s.tracker.count = 0) : Accounted (s.goto next) := by
  refine ⟨h.tracked, ?_, hidle⟩
  show s.listener = s.liveLoops + next.ownsListener.toNat
  rw [howns, h.owned]

/-- The run is left, and its hold on the listener given up. -/
theorem Accounted.leaveRun (h : Accounted s) {next : SupervisorPoint}
    (howned : s.supervisor.ownsListener = true) (howns : next.ownsListener = false)
    (hidle : (s.leaveRun next).hasNoTasks = true → s.tracker.count = 0) :
    Accounted (s.leaveRun next) := by
  refine ⟨h.tracked, ?_, hidle⟩
  have hlistener := h.owned
  rw [howned] at hlistener
  show s.listener - 1 = s.liveLoops + next.ownsListener.toNat
  rw [hlistener, howns]
  rfl

theorem count_eq_zero_of_isDrained (h : s.tracker.isDrained = true) : s.tracker.count = 0 := by
  rw [TaskTracker.isDrained, Bool.and_eq_true] at h
  exact eq_of_beq h.2

theorem ownsListener_exitPoint (exit : SupervisorExit) :
    (s.exitPoint exit).ownsListener = false := by
  rw [exitPoint]
  cases s.mode <;> rfl

theorem ownsListener_panicPoint (message : String) :
    (s.panicPoint message).ownsListener = false := by
  rw [panicPoint]
  cases s.mode <;> rfl

theorem hasNoTasks_leaveRun_panicPoint (message : String) :
    (s.leaveRun (s.panicPoint message)).hasNoTasks = false := by
  show (s.panicPoint message).hasNoTasks s.mode = false
  rw [panicPoint]
  cases s.mode <;> rfl

theorem hasNoTasks_leaveRun_exitPoint_cancelled :
    (s.leaveRun (s.exitPoint .cancelled)).hasNoTasks = false := by
  show (s.exitPoint .cancelled).hasNoTasks s.mode = false
  rw [exitPoint]
  cases s.mode <;> rfl

theorem Accounted.spawnLoop (h : Accounted s) (hpoint : s.supervisor = .spawning) :
    Accounted s.spawnLoop := by
  have hloops : s.spawnLoop.liveLoops = s.liveLoops + 1 := total_concat
  refine ⟨?_, ?_, fun hidle => ?_⟩
  · show s.tracker.count + 1 = s.spawnLoop.liveLoops + s.liveConnections
    rw [hloops, h.tracked]
    omega
  · show s.listener + 1 = s.spawnLoop.liveLoops + s.supervisor.ownsListener.toNat
    rw [hloops, h.owned]
    omega
  · have hbusy : s.spawnLoop.hasNoTasks = s.hasNoTasks := rfl
    rw [hbusy, hasNoTasks, hpoint] at hidle
    exact absurd hidle Bool.false_ne_true

theorem Accounted.startRun (h : Accounted s) (hpoint : s.supervisor = .preparing) :
    Accounted s.startRun := by
  have howned := h.owned
  rw [hpoint] at howned
  exact ⟨h.tracked, howned, fun hidle => absurd hidle Bool.false_ne_true⟩

theorem recordDroppedCancellation_frame (s : Server) :
    s.recordDroppedCancellation.supervisor = s.supervisor ∧
      s.recordDroppedCancellation.mode = s.mode ∧
      s.recordDroppedCancellation.tracker = s.tracker := by
  rw [recordDroppedCancellation]
  split <;> exact ⟨rfl, rfl, rfl⟩

/-- The supervisor starts the run, spawns its loops, and waits until all are gone. -/
theorem Accounted.supervisorMove (h : Accounted s) (hmove : SupervisorMove s s.supervisor t) :
    Accounted t := by
  have hclosed : Accounted s.closeTracker := ⟨h.tracked, h.owned, h.idle⟩
  have hcancelled : Accounted s.cancelToken := ⟨h.tracked, h.owned, h.idle⟩
  generalize hpoint : s.supervisor = point at hmove
  cases hmove with
  | started => exact h.startRun hpoint
  | refused err | forestalled hmode hstop | forgotten =>
    exact h.leaveRun (by rw [hpoint]; rfl) rfl fun _ => h.idle (by rw [hasNoTasks, hpoint]; rfl)
  | spawned hroom => exact h.spawnLoop hpoint
  | ready hfull | closed message =>
    exact hclosed.goto (by show _ = s.supervisor.ownsListener; rw [hpoint]; rfl)
      fun hidle => absurd hidle Bool.false_ne_true
  | shutdown hstop =>
    have hrecorded : Accounted s.recordGracefulCancellation := ⟨h.tracked, h.owned, h.idle⟩
    exact hrecorded.goto (by show _ = s.supervisor.ownsListener; rw [hpoint]; rfl)
      fun hidle => absurd hidle Bool.false_ne_true
  | completed hdrained =>
    have hrecorded : Accounted s.recordCompletionWithoutCancellation :=
      ⟨h.tracked, h.owned, h.idle⟩
    exact hrecorded.goto (by show _ = s.supervisor.ownsListener; rw [hpoint]; rfl)
      fun hidle => absurd hidle Bool.false_ne_true
  | cancelled | cleaned message =>
    exact hcancelled.goto (by show _ = s.supervisor.ownsListener; rw [hpoint]; rfl)
      fun hidle => absurd hidle Bool.false_ne_true
  | drained hdrained =>
    exact h.leaveRun (by rw [hpoint]; rfl) (ownsListener_exitPoint _)
      fun _ => count_eq_zero_of_isDrained hdrained
  | panicked _ message hat =>
    refine h.leaveRun ?_ (ownsListener_panicPoint _) fun hidle =>
      absurd ((hasNoTasks_leaveRun_panicPoint message).symm.trans hidle) Bool.false_ne_true
    rcases hat with rfl | rfl | rfl <;> rw [hpoint] <;> rfl
  | abandoned _ hat =>
    refine h.leaveRun ?_ (ownsListener_exitPoint _) fun hidle =>
      absurd (hasNoTasks_leaveRun_exitPoint_cancelled.symm.trans hidle) Bool.false_ne_true
    rcases hat with rfl | rfl <;> rw [hpoint] <;> rfl
  | settled message hdrained =>
    exact h.goto (by rw [hpoint]; rfl) fun _ => count_eq_zero_of_isDrained hdrained
  | aborted message =>
    exact h.goto (by rw [hpoint]; rfl) fun hidle => absurd hidle Bool.false_ne_true
  | recorded exit =>
    have hrecorded : Accounted s.recordDroppedCancellation := by
      rw [recordDroppedCancellation]
      split
      · exact ⟨h.tracked, h.owned, h.idle⟩
      · exact h
    have hframe := recordDroppedCancellation_frame s
    refine hrecorded.goto ?_ fun hidle => ?_
    · rw [hframe.1, hpoint]
      rfl
    · rw [hframe.2.2]
      have hmode : exit.isDrained s.recordDroppedCancellation.mode = true := hidle
      rw [hframe.2.1] at hmode
      exact h.idle (by rw [hasNoTasks, hpoint]; exact hmode)
  | released exit =>
    exact hcancelled.goto (by show _ = s.supervisor.ownsListener; rw [hpoint]; rfl)
      fun hidle => h.idle (by rw [hasNoTasks, hpoint]; exact hidle)

theorem Accounted.controlMove (h : Accounted s) {event : ControlEvent}
    (hmove : ControlMove s event t) : Accounted t := by
  have hsame := hmove.sameTasks
  refine ⟨?_, ?_, ?_⟩
  · rw [liveLoops, liveConnections, hsame.tracker, hsame.loops, hsame.connections]
    exact h.tracked
  · rw [liveLoops, hsame.listener, hsame.loops, hsame.supervisor]
    exact h.owned
  · rw [hasNoTasks_congr hsame.supervisor hsame.mode, hsame.tracker]
    exact h.idle

theorem Accounted.step (h : Accounted s) {event : ServerEvent} (hstep : s.step event = some t) :
    Accounted t := by
  cases move_of_step hstep with
  | supervisor _ hmove => exact h.supervisorMove hmove
  | loop _ hloop hmove => exact h.loopMove hloop hmove
  | connection _ htask hmove => exact h.connectionStep htask hmove
  | control _ hmove => exact h.controlMove hmove

/-- Nothing is left of a server whose tracker counts no task and whose run is over. -/
theorem Accounted.nothing_left (h : Accounted s) (hcount : s.tracker.count = 0)
    (howns : s.supervisor.ownsListener = false) :
    (∀ loop ∈ s.loops, loop.isLive = false) ∧ (∀ task ∈ s.connections, task.isLive = false) ∧
      s.listener = 0 := by
  have htracked := h.tracked
  rw [hcount] at htracked
  have hloops : s.liveLoops = 0 := by omega
  have hconnections : s.liveConnections = 0 := by omega
  have hlistener := h.owned
  rw [hloops, howns] at hlistener
  refine ⟨fun loop hloop => ?_, fun task htask => ?_, hlistener⟩
  · exact Bool.toNat_eq_zero.mp (TaskTable.total_eq_zero_iff.mp hloops loop hloop)
  · exact Bool.toNat_eq_zero.mp (TaskTable.total_eq_zero_iff.mp hconnections task htask)

/-! ## One outcome for every caller -/

/-- What the observer has published, by where it stands. -/
def OutcomeAt (s : Server) : ObserverPoint → Prop
  | .absent | .joining | .aborted => s.terminal = none
  | .publishing terminal =>
    s.terminal = none ∧
      ∃ exit, s.supervisor = .ended exit ∧ terminal = classifySupervisorResult exit
  | .done => ∃ exit, s.supervisor = .ended exit ∧ s.terminal = some (classifySupervisorResult exit)

/-- What a call of `drained` can have returned. -/
def IsAnswer (s : Server) (result : Except ServerError Unit) : Prop :=
  (∃ exit, s.supervisor = .ended exit ∧ s.terminal = some (classifySupervisorResult exit) ∧
    result = terminalResult (classifySupervisorResult exit)) ∨
  (s.observer = .aborted ∧ s.terminal = none ∧ result = .error observerEnded)

/-! ### What is published -/

/-- The outcome published is that of the supervisor's end, and the callers got it. -/
structure Published (s : Server) : Prop where
  unwatched : s.supervisor = .preparing → s.observer = .absent
  watched : s.observer ≠ .absent → s.mode = .spawned
  outcome : s.OutcomeAt s.observer
  answers : ∀ call result, s.waiters call = .returned result → s.IsAnswer result

theorem published_start (mode : ServerMode) (workers : ℕ) (backoff : BackoffConfig) :
    Published (start mode workers backoff) where
  unwatched := fun _ => rfl
  watched := fun hwatched => absurd rfl hwatched
  outcome := rfl
  answers := fun _ _ hresult => absurd hresult (by simp [start])

/-- A published outcome is that of the supervisor's end. -/
theorem Published.terminal (h : Published s) {terminal : ServerTerminal}
    (hterminal : s.terminal = some terminal) :
    s.observer = .done ∧ ∃ exit, s.supervisor = .ended exit ∧
      terminal = classifySupervisorResult exit := by
  have houtcome := h.outcome
  rcases hobserver : s.observer with _ | _ | terminal' | _ | _
  · rw [hobserver] at houtcome
    exact absurd (hterminal.symm.trans houtcome) (by simp)
  · rw [hobserver] at houtcome
    exact absurd (hterminal.symm.trans houtcome) (by simp)
  · rw [hobserver] at houtcome
    exact absurd (hterminal.symm.trans houtcome.1) (by simp)
  · rw [hobserver] at houtcome
    obtain ⟨exit, hexit, hsome⟩ := houtcome
    exact ⟨rfl, exit, hexit, Option.some.inj (hterminal.symm.trans hsome)⟩
  · rw [hobserver] at houtcome
    exact absurd (hterminal.symm.trans houtcome) (by simp)

/-- Before an outcome is published, and while the observer is there, nobody has an answer. -/
theorem Published.no_answer (h : Published s) (hterminal : s.terminal = none)
    (hobserver : s.observer ≠ .aborted) (call : ℕ) (result : Except ServerError Unit) :
    s.waiters call ≠ .returned result := by
  intro hresult
  rcases h.answers call result hresult with ⟨_, -, hsome, -⟩ | ⟨habort, -⟩
  · exact absurd (hterminal.symm.trans hsome) (by simp)
  · exact hobserver habort

/-- Nothing about the outcome changes while the observer, the callers and the end of the supervisor
stay as they are. -/
theorem Published.congr (h : Published s) (hmode : t.mode = s.mode)
    (hobserver : t.observer = s.observer)
    (hterminal : t.terminal = s.terminal) (hwaiters : t.waiters = s.waiters)
    (hended : ∀ exit, s.supervisor = .ended exit → t.supervisor = .ended exit)
    (hpreparing : t.supervisor = .preparing → s.supervisor = .preparing) : Published t := by
  refine ⟨fun hpoint => hobserver.trans (h.unwatched (hpreparing hpoint)), ?_, ?_, ?_⟩
  · rw [hobserver, hmode]
    exact h.watched
  · have houtcome := h.outcome
    rw [hobserver]
    cases hpoint : s.observer with rw [hpoint] at houtcome
    | publishing terminal =>
      obtain ⟨hnone, exit, hexit, hclass⟩ := houtcome
      exact ⟨hterminal.trans hnone, exit, hended exit hexit, hclass⟩
    | done =>
      obtain ⟨exit, hexit, hsome⟩ := houtcome
      exact ⟨exit, hended exit hexit, hterminal.trans hsome⟩
    | _ =>
      exact hterminal.trans houtcome
  · intro call result hresult
    rw [hwaiters] at hresult
    rcases h.answers call result hresult with ⟨exit, hexit, hsome, hclass⟩ | ⟨habort, hnone, herr⟩
    · exact Or.inl ⟨exit, hended exit hexit, hterminal.trans hsome, hclass⟩
    · exact Or.inr ⟨hobserver.trans habort, hterminal.trans hnone, herr⟩

/-- A supervisor that is over makes no move. -/
theorem SupervisorMove.not_ended {point : SupervisorPoint} (h : SupervisorMove s point t)
    (exit : SupervisorExit) : point ≠ .ended exit := by
  cases h with
  | panicked _ _ hat => rcases hat with rfl | rfl | rfl <;> simp
  | abandoned _ hat => rcases hat with rfl | rfl <;> simp
  | _ => simp

theorem exitPoint_ne_preparing (exit : SupervisorExit) : s.exitPoint exit ≠ .preparing := by
  rw [exitPoint]
  cases s.mode <;> simp

theorem panicPoint_ne_preparing (message : String) : s.panicPoint message ≠ .preparing := by
  rw [panicPoint]
  cases s.mode <;> simp

/-- The supervisor leaves the observer and the callers alone, except that it has an observer from
the start of its run. -/
theorem SupervisorMove.outcome_frame {point : SupervisorPoint} (h : SupervisorMove s point t) :
    (point = .preparing ∧ t = s.startRun) ∨
      (t.mode = s.mode ∧ t.observer = s.observer ∧ t.terminal = s.terminal ∧
        t.waiters = s.waiters ∧
        (t.supervisor = .preparing → s.supervisor = .preparing)) := by
  cases h with
  | started => exact Or.inl ⟨rfl, rfl⟩
  | drained hdrained | abandoned _ hat =>
    exact Or.inr ⟨rfl, rfl, rfl, rfl, fun hpoint => absurd hpoint (exitPoint_ne_preparing _)⟩
  | panicked _ message hat =>
    exact Or.inr ⟨rfl, rfl, rfl, rfl, fun hpoint => absurd hpoint (panicPoint_ne_preparing _)⟩
  | spawned hroom => exact Or.inr ⟨rfl, rfl, rfl, rfl, id⟩
  | recorded exit =>
    right
    rw [recordDroppedCancellation]
    split <;> exact ⟨rfl, rfl, rfl, rfl, fun hpoint => absurd hpoint (by simp [Server.goto])⟩
  | _ =>
    exact Or.inr ⟨rfl, rfl, rfl, rfl,
      fun hpoint => absurd hpoint (by simp [Server.goto, leaveRun])⟩

theorem Published.startRun (h : Published s) (hpoint : s.supervisor = .preparing) :
    Published s.startRun := by
  have habsent := h.unwatched hpoint
  have hnone : s.terminal = none := by
    have houtcome := h.outcome
    rwa [habsent] at houtcome
  have hnobody := h.no_answer hnone (by rw [habsent]; simp)
  refine ⟨fun hfalse => absurd hfalse (by simp [Server.startRun]), fun hwatched => ?_, ?_,
    fun call result hresult => absurd hresult (hnobody call result)⟩
  · by_contra hmode
    exact hwatched ((if_neg hmode).trans habsent)
  · show OutcomeAt _ (if s.mode = .spawned then .joining else s.observer)
    rw [habsent]
    split <;> exact hnone

theorem Published.supervisorMove (h : Published s) (hmove : SupervisorMove s s.supervisor t) :
    Published t := by
  rcases hmove.outcome_frame with ⟨hpoint, rfl⟩ | ⟨hmode, hobserver, hterminal, hwaiters, hpreparing⟩
  · exact h.startRun hpoint
  · exact h.congr hmode hobserver hterminal hwaiters
      (fun exit hexit => absurd hexit (hmove.not_ended exit)) hpreparing

/-! ### The callers -/

/-- A call that returns an answer. -/
theorem Published.setWaiter (h : Published s) (call : ℕ) {next : WaiterPoint}
    (hnext : ∀ result, next = .returned result → s.IsAnswer result) :
    Published (s.setWaiter call next) := by
  refine ⟨h.unwatched, h.watched, h.outcome, fun other result hresult => ?_⟩
  have hupdate : Function.update s.waiters call next other = .returned result := hresult
  rcases eq_or_ne other call with rfl | hne
  · rw [Function.update_self] at hupdate
    exact hnext result hupdate
  · rw [Function.update_of_ne hne] at hupdate
    exact h.answers other result hupdate

theorem Published.tell (h : Published s) (call : ℕ) {terminal : ServerTerminal}
    (hterminal : s.terminal = some terminal) :
    Published (s.setWaiter call (.returned (terminalResult terminal))) := by
  obtain ⟨-, exit, hexit, rfl⟩ := h.terminal hterminal
  refine h.setWaiter call fun result hresult => Or.inl ⟨exit, hexit, hterminal, ?_⟩
  exact (WaiterPoint.returned.inj hresult).symm

/-- The callers are given the outcome that was published. -/
theorem Published.controlMove (h : Published s) {event : ControlEvent}
    (hmove : ControlMove s event t) : Published t := by
  cases hmove with
  | stopped | cloned | dropped => exact ⟨h.unwatched, h.watched, h.outcome, h.answers⟩
  | joined exit hobserver hsupervisor =>
    have hnone : s.terminal = none := by
      have houtcome := h.outcome
      rwa [hobserver] at houtcome
    have hnobody := h.no_answer hnone (by rw [hobserver]; simp)
    exact ⟨fun hpoint => absurd (hsupervisor.symm.trans hpoint) (by simp),
      fun _ => h.watched (by rw [hobserver]; simp), ⟨hnone, exit, hsupervisor, rfl⟩,
      fun call result hresult => absurd hresult (hnobody call result)⟩
  | published terminal hobserver =>
    have houtcome := h.outcome
    rw [hobserver] at houtcome
    obtain ⟨hnone, exit, hexit, rfl⟩ := houtcome
    have hnobody := h.no_answer hnone (by rw [hobserver]; simp)
    exact ⟨fun hpoint => absurd (hexit.symm.trans hpoint) (by simp),
      fun _ => h.watched (by rw [hobserver]; simp), ⟨exit, hexit, rfl⟩,
      fun call result hresult => absurd hresult (hnobody call result)⟩
  | aborted hobserver =>
    have houtcome := h.outcome
    rcases hobserver with hobserver | ⟨terminal, hobserver⟩
    · rw [hobserver] at houtcome
      have hnobody := h.no_answer houtcome (by rw [hobserver]; simp)
      exact ⟨fun hpoint => absurd (hobserver.symm.trans (h.unwatched hpoint)) (by simp),
        fun _ => h.watched (by rw [hobserver]; simp), houtcome,
        fun call result hresult => absurd hresult (hnobody call result)⟩
    · rw [hobserver] at houtcome
      have hnobody := h.no_answer houtcome.1 (by rw [hobserver]; simp)
      exact ⟨fun hpoint => absurd (hobserver.symm.trans (h.unwatched hpoint)) (by simp),
        fun _ => h.watched (by rw [hobserver]; simp), houtcome.1,
        fun call result hresult => absurd hresult (hnobody call result)⟩
  | told call terminal hterminal | answered call terminal hterminal => exact h.tell call hterminal
  | waited call => exact h.setWaiter call fun result hresult => absurd hresult (by simp)
  | disappointed call hterminal hgone =>
    refine h.setWaiter call fun result hresult => Or.inr ⟨?_, hterminal, ?_⟩
    · have houtcome := h.outcome
      rw [senderGone] at hgone
      cases hobserver : s.observer with
      | aborted => rfl
      | done =>
        rw [hobserver] at houtcome
        obtain ⟨exit, -, hsome⟩ := houtcome
        exact absurd (hterminal.symm.trans hsome) (by simp)
      | _ =>
        rw [hobserver] at hgone
        exact absurd hgone Bool.false_ne_true
    · exact (WaiterPoint.returned.inj hresult).symm

theorem Published.step (h : Published s) {event : ServerEvent} (hstep : s.step event = some t) :
    Published t := by
  cases move_of_step hstep with
  | supervisor _ hmove => exact h.supervisorMove hmove
  | loop _ hloop hmove =>
    have hsame := hmove.sameSupervision
    exact h.congr hsame.mode hsame.observer hsame.terminal hsame.waiters
      (fun exit hexit => hsame.supervisor.trans hexit)
      (fun hpoint => hsame.supervisor.symm.trans hpoint)
  | connection _ htask hmove =>
    have hsame := sameSupervision_of_connectionStep hmove
    exact h.congr hsame.mode hsame.observer hsame.terminal hsame.waiters
      (fun exit hexit => hsame.supervisor.trans hexit)
      (fun hpoint => hsame.supervisor.symm.trans hpoint)
  | control _ hmove => exact h.controlMove hmove

/-! ## The results -/

section Results

variable {mode : ServerMode} {workers : ℕ} {backoff : BackoffConfig} {events : List ServerEvent}

theorem accounted_of_exec (h : Trace.exec step (start mode workers backoff) events = some s) :
    Accounted s :=
  Trace.exec_invariant (fun _ _ _ hs => hs.step) (accounted_start mode workers backoff) h

theorem published_of_exec (h : Trace.exec step (start mode workers backoff) events = some s) :
    Published s :=
  Trace.exec_invariant (fun _ _ _ hs => hs.step) (published_start mode workers backoff) h

/-- Every end but an abort comes after the last task. -/
theorem isDrained_of_terminalResult {exit : SupervisorExit}
    (h : terminalResult (classifySupervisorResult exit) ≠ terminalResult .cancelled) :
    exit.isDrained .spawned = true := by
  rcases exit with _ | _ | _
  · rfl
  · rfl
  · exact absurd rfl h

/-- **A drained server leaves nothing.**  In whatever order everything in the server and around it
happens, once a call of `drained` has returned, be it `Ok` or the report of a panic, no accept loop
and no connection task is alive and nobody owns the listener.  Only the two errors that report an
aborted task say nothing.  As this holds of every later state, nothing ever starts again. -/
theorem drained_leaves_nothing (h : Trace.exec step (start mode workers backoff) events = some s)
    {call : ℕ} {result : Except ServerError Unit} (hcall : s.waiters call = .returned result)
    (hcancelled : result ≠ terminalResult .cancelled) (hobserved : result ≠ .error observerEnded) :
    (∀ loop ∈ s.loops, loop.isLive = false) ∧ (∀ task ∈ s.connections, task.isLive = false) ∧
      s.listener = 0 := by
  have hpublished := published_of_exec h
  have haccounted := accounted_of_exec h
  rcases hpublished.answers call _ hcall with ⟨exit, hexit, hsome, rfl⟩ | ⟨-, -, herr⟩
  · obtain ⟨hdone, -⟩ := hpublished.terminal hsome
    have hmode := hpublished.watched (by rw [hdone]; simp)
    have hidle : s.hasNoTasks = true := by
      rw [hasNoTasks, hexit, hmode]
      exact isDrained_of_terminalResult hcancelled
    exact haccounted.nothing_left (haccounted.idle hidle) (by rw [hexit]; rfl)
  · exact absurd herr hobserved

/-- A server with one loop that accepts a connection and is then stopped, and two callers. -/
def stoppedRun : List ServerEvent :=
  [.supervisor (.prepared (.ok ())), .supervisor .spawnLoop, .supervisor .ready,
    .control (.callDrained 0), .loop 0 .pollToken, .loop 0 (.pollAccept (some .connection)),
    .control .stop, .supervisor .shutdown, .supervisor .cancelToken, .loop 0 .pollToken,
    .loop 0 .exit, .connection 0 (.preamble false), .connection 0 (.hook true),
    .supervisor .drained, .control .join, .control .publish, .control (.pollChanged 0),
    .control (.callDrained 1)]

/-- What the two callers get, and how many connections there were. -/
theorem stoppedRun_answers :
    ∃ s, Trace.exec step (start .spawned 1 .default) stoppedRun = some s ∧
      s.waiters 0 = .returned (.ok ()) ∧ s.waiters 1 = .returned (.ok ()) ∧
      s.connections.length = 1 := by
  have hview : (Trace.exec step (start .spawned 1 .default) stoppedRun).map
      (fun s => (s.waiters 0, s.waiters 1, s.connections.length)) =
      some (.returned (.ok ()), .returned (.ok ()), 1) := rfl
  obtain ⟨s, hs, hfields⟩ := Option.map_eq_some_iff.mp hview
  obtain ⟨h₀, hrest⟩ := Prod.mk.inj hfields
  obtain ⟨h₁, hlength⟩ := Prod.mk.inj hrest
  exact ⟨s, hs, h₀, h₁, hlength⟩

theorem drained_leaves_nothing_stoppedRun :
    ∃ s, Trace.exec step (start .spawned 1 .default) stoppedRun = some s ∧
      s.waiters 0 = .returned (.ok ()) ∧ s.connections.length = 1 ∧
      ((∀ loop ∈ s.loops, loop.isLive = false) ∧ (∀ task ∈ s.connections, task.isLive = false) ∧
        s.listener = 0) := by
  obtain ⟨s, hs, h₀, -, hlength⟩ := stoppedRun_answers
  exact ⟨s, hs, h₀, hlength,
    drained_leaves_nothing hs h₀ (by simp [terminalResult]) (by simp)⟩

/-- **All callers agree**: no two calls of `drained` return different results, whenever they are
made and whatever becomes of the observer. -/
theorem drained_agree (h : Trace.exec step (start mode workers backoff) events = some s)
    {call call' : ℕ} {result result' : Except ServerError Unit}
    (hcall : s.waiters call = .returned result) (hcall' : s.waiters call' = .returned result') :
    result = result' := by
  have hpublished := published_of_exec h
  rcases hpublished.answers call _ hcall with ⟨exit, hexit, hsome, rfl⟩ | ⟨-, hnone, rfl⟩
  · rcases hpublished.answers call' _ hcall' with ⟨exit', hexit', -, rfl⟩ | ⟨-, hnone, -⟩
    · obtain rfl : exit = exit' := SupervisorPoint.ended.inj (hexit.symm.trans hexit')
      rfl
    · exact absurd (hnone.symm.trans hsome) (by simp)
  · rcases hpublished.answers call' _ hcall' with ⟨_, -, hsome, -⟩ | ⟨-, -, rfl⟩
    · exact absurd (hnone.symm.trans hsome) (by simp)
    · rfl

theorem drained_agree_stoppedRun :
    ∃ s, Trace.exec step (start .spawned 1 .default) stoppedRun = some s ∧
      ∃ result result', s.waiters 0 = .returned result ∧ s.waiters 1 = .returned result' ∧
        result = result' := by
  obtain ⟨s, hs, h₀, h₁, -⟩ := stoppedRun_answers
  exact ⟨s, hs, _, _, h₀, h₁, drained_agree hs h₀ h₁⟩

end Results

end Server

end Wireframe
