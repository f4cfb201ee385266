/-
# Stopping a server

What the loops, the connections and the supervisor of a server do around a shutdown, in every order
in which they can run:

* `sleeping_delay`: a loop that backs off waits for `min (initial · 2 ^ k) max` after `k + 1`
  failures in a row;
* `requested_of_returned`: a server returns `Ok` only after a stop was requested;
* `loopExits_agree`: the loops report one reason, and the one that was recorded;
* `lateLoops_le_workers`: a loop accepts at most one connection after the token was cancelled;
* `shutdown_completes`: from then on the server takes a bounded number of steps, and when it can
  take no more, nothing is left and the outcome is published.
-/
import Mathlib.Tactic
import Wireframe.ServerDrain

namespace Wireframe

open TaskTable (total total_set total_concat)

/-! ## Back-off -/

/-- The failures in a row at the end of some attempts. -/
def trailingFailures (attempts : List AcceptResult) : ℕ :=
  (attempts.reverse.takeWhile (· == .failed)).length

@[simp] theorem trailingFailures_concat_failed (attempts : List AcceptResult) :
    trailingFailures (attempts ++ [.failed]) = trailingFailures attempts + 1 := by
  rw [trailingFailures, List.reverse_append]
  rfl

@[simp] theorem trailingFailures_concat_connection (attempts : List AcceptResult) :
    trailingFailures (attempts ++ [.connection]) = 0 := by
  rw [trailingFailures, List.reverse_append]
  rfl

namespace BackoffConfig

/-- The delay after `k` failures in a row. -/
def delayAfter (config : BackoffConfig) (k : ℕ) : ℕ :=
  min (config.initialDelay * 2 ^ k) config.maxDelay

theorem normalized_bounds (config : BackoffConfig) :
    minDelay ≤ config.normalized.initialDelay ∧
      config.normalized.initialDelay ≤ config.normalized.maxDelay := by
  unfold normalized
  dsimp only
  split <;> simp only <;> omega

theorem delayAfter_zero (config : BackoffConfig) :
    config.normalized.delayAfter 0 = config.normalized.initialDelay := by
  rw [delayAfter, pow_zero, Nat.mul_one, Nat.min_eq_left config.normalized_bounds.2]

theorem delayAfter_le (config : BackoffConfig) (k : ℕ) : config.delayAfter k ≤ config.maxDelay :=
  Nat.min_le_right _ _

theorem minDelay_le_delayAfter (config : BackoffConfig) (k : ℕ) :
    minDelay ≤ config.normalized.delayAfter k := by
  obtain ⟨hmin, hmax⟩ := config.normalized_bounds
  have hpow : config.normalized.initialDelay ≤ config.normalized.initialDelay * 2 ^ k :=
    Nat.le_mul_of_pos_right _ (Nat.two_pow_pos k)
  rw [delayAfter]
  omega

/-- Doubling the capped delay and capping again is the next capped delay. -/
theorem nextDelay_delayAfter {config : BackoffConfig} {k next : ℕ}
    (h : config.nextDelay (config.delayAfter k) = some next) : next = config.delayAfter (k + 1) := by
  obtain ⟨-, hnext⟩ := Option.ite_none_right_eq_some.mp h
  cases hnext
  rw [delayAfter, delayAfter, pow_succ, ← Nat.mul_assoc]
  omega

theorem durationMax_lt_of_nextDelay {config : BackoffConfig} {delay : ℕ}
    (h : config.nextDelay delay = none) : durationMax < delay * 2 := by
  rw [nextDelay] at h
  split at h
  · cases h
  · omega

end BackoffConfig

/-- The delay a loop carries is that of the failures its attempts end with; only a delay that
cannot be doubled ends it. -/
def AcceptLoop.Paced (config : BackoffConfig) (loop : AcceptLoop) : Prop :=
  match loop.point with
  | .polling delay | .accepting delay => delay = config.delayAfter (trailingFailures loop.attempts)
  | .sleeping delay => ∃ k, trailingFailures loop.attempts = k + 1 ∧ delay = config.delayAfter k
  | .leaving | .exited => True
  | .panicked => BackoffConfig.durationMax < config.maxDelay * 2

/-! ### Points and events -/

/-- How far the task of a connection is from its end. -/
def ConnectionPoint.rank : ConnectionPoint → ℕ
  | .closed | .panicked => 0
  | .serving | .refusing => 1
  | .welcoming => 2
  | .reading => 3

theorem ConnectionPoint.rank_lt {point next : ConnectionPoint} {event : ConnectionEvent}
    (h : point.next event = some next) : next.rank < point.rank := by
  cases point <;> rcases event with (_ | _) | (_ | _) | _ | _ <;>
    simp only [ConnectionPoint.next, reduceCtorEq, Option.some.injEq] at h <;> subst h <;> decide

/-- The steps of the server's own tasks, as opposed to those of its callers. -/
def ServerEvent.isOwn : ServerEvent → Bool
  | .supervisor _ | .loop _ _ | .connection _ _ => true
  | .control event =>
    match event with
    | .join | .publish | .abortObserver => true
    | _ => false

/-- The steps that take a task of the server on: no panic, and nothing the runtime aborts. -/
def ServerEvent.isProgress : ServerEvent → Bool
  | .supervisor (.panic _) | .supervisor .abandon => false
  | .supervisor _ | .loop _ _ => true
  | .connection _ .panic => false
  | .connection _ _ => true
  | .control .join | .control .publish => true
  | .control _ => false

/-- A loop that is past its last connection when the token is cancelled: it will see the token
next, or has seen it. -/
def LoopPoint.isPast : LoopPoint → Bool
  | .polling _ | .leaving | .exited => true
  | _ => false

namespace Server

/-! ### Loops keep the delay -/

variable {s t : Server} {worker i : ℕ} {attempts : List AcceptResult} {point : LoopPoint}

/-- Every loop keeps to the back-off. -/
def Paced (s : Server) : Prop := ∀ loop ∈ s.loops, loop.Paced s.backoff.normalized

theorem paced_fresh (config : BackoffConfig) (attempts : List AcceptResult)
    (hfresh : trailingFailures attempts = 0) :
    AcceptLoop.Paced config.normalized ⟨.polling config.normalized.initialDelay, attempts⟩ := by
  show _ = config.normalized.delayAfter (trailingFailures attempts)
  rw [hfresh, BackoffConfig.delayAfter_zero]

/-- A loop doubles its delay with each failure and resets it on a connection. -/
theorem Paced.loopMove (h : Paced s) (hloop : s.loops[worker]? = some ⟨point, attempts⟩)
    (hmove : LoopMove s worker attempts point t) : Paced t := by
  have hpaced := h _ (List.mem_of_getElem? hloop)
  cases hmove with
  | cancelled delay htoken | left => exact TaskTable.forall_mem_set h trivial
  | uncancelled delay htoken | pending delay => exact TaskTable.forall_mem_set h hpaced
  | accepted delay =>
    exact TaskTable.forall_mem_set h
      (paced_fresh _ _ (trailingFailures_concat_connection attempts))
  | failed delay =>
    refine TaskTable.forall_mem_set h ⟨trailingFailures attempts, ?_, hpaced⟩
    exact trailingFailures_concat_failed attempts
  | woke delay next hnext =>
    obtain ⟨k, hk, rfl⟩ := hpaced
    refine TaskTable.forall_mem_set h ?_
    show next = s.backoff.normalized.delayAfter (trailingFailures attempts)
    rw [hk]
    exact BackoffConfig.nextDelay_delayAfter hnext
  | overflowed delay hnext =>
    obtain ⟨k, -, rfl⟩ := hpaced
    have hended := BackoffConfig.durationMax_lt_of_nextDelay hnext
    have hcap := s.backoff.normalized.delayAfter_le k
    have hlong : BackoffConfig.durationMax < s.backoff.normalized.maxDelay * 2 := by omega
    exact TaskTable.forall_mem_set h hlong

theorem Paced.supervisorMove {from' : SupervisorPoint} (h : Paced s)
    (hmove : SupervisorMove s from' t) : Paced t := by
  cases hmove with
  | spawned hroom =>
    exact TaskTable.forall_mem_concat h (paced_fresh _ _ rfl)
  | recorded exit =>
    rw [recordDroppedCancellation]
    split <;> exact h
  | _ => exact h

theorem Paced.step (h : Paced s) {event : ServerEvent} (hstep : s.step event = some t) :
    Paced t := by
  cases move_of_step hstep with
  | supervisor _ hmove => exact h.supervisorMove hmove
  | loop _ hloop hmove => exact h.loopMove hloop hmove
  | connection _ htask hmove =>
    obtain ⟨next, -, rfl⟩ := connectionStep_cases hmove
    exact h
  | control _ hmove =>
    have hsame := hmove.sameTasks
    rw [Paced, hsame.loops, hsame.backoff]
    exact h

/-! ## The lifecycle of the supervisor -/

/-- The cancellations that go with a lifecycle state. -/
def recordedCancellations : SupervisorState → List ServerCancellationReason
  | .running | .finished => []
  | .graceful => [.graceful]
  | .dropped => [.dropped]

/-- What holds of the token, the lifecycle state and the tracker where the supervisor stands. -/
def StageOk (s : Server) : SupervisorPoint → Prop
  | .preparing | .spawning => s.token = false ∧ s.state = .running
  | .selecting =>
    s.token = false ∧ s.state = .running ∧ s.workers ≤ s.loops.length ∧ s.tracker.isClosed = true
  | .cancelling =>
    s.token = false ∧ s.state = .graceful ∧ s.stopRequested = true ∧ s.tracker.isClosed = true
  | .draining =>
    ((s.state = .graceful ∧ s.stopRequested = true) ∨ s.state = .finished) ∧
      s.tracker.isClosed = true
  | .cleaning _ | .closing _ => s.mode = .spawned
  | .settling _ => s.mode = .spawned ∧ s.tracker.isClosed = true
  | .guarding exit =>
    s.mode = .foreground ∧
      (exit = .returned (.ok ()) → s.stopRequested = true ∨ s.state = .finished)
  | .releasing exit =>
    s.mode = .foreground ∧ s.state ≠ .running ∧
      (exit = .returned (.ok ()) → s.stopRequested = true ∨ s.state = .finished)
  | .ended exit => exit = .returned (.ok ()) → s.stopRequested = true ∨ s.state = .finished

/-- The lifecycle of the supervisor, with what the loops have made of it. -/
structure Lifecycle (s : Server) : Prop where
  stage : s.StageOk s.supervisor
  bounded : s.loops.length ≤ s.workers
  recorded : s.cancellations = recordedCancellations s.state
  /-- the server only finishes by itself when its loops cannot back off -/
  unprompted : s.state = .finished → s.tracker.count = 0 ∧ s.loopExits = [] ∧
    (s.workers = 0 ∨ BackoffConfig.durationMax < s.backoff.normalized.maxDelay * 2)
  foreground : s.mode = .foreground → s.token = true → s.state ≠ .running
  left : ∀ loop ∈ s.loops, loop.point = .leaving ∨ loop.point = .exited → s.token = true
  exits : ∀ reason ∈ s.loopExits, s.token = true ∧ reason = s.state.cancellationReason

theorem lifecycle_start (mode : ServerMode) (workers : ℕ) (backoff : BackoffConfig) :
    Lifecycle (start mode workers backoff) where
  stage := ⟨rfl, rfl⟩
  bounded := Nat.zero_le _
  recorded := rfl
  unprompted := fun hstate => absurd hstate (by simp [start])
  foreground := fun _ htoken => absurd htoken Bool.false_ne_true
  left := fun loop hloop => absurd hloop (List.not_mem_nil)
  exits := fun reason hreason => absurd hreason (List.not_mem_nil)

/-! ### Loops, connections and callers -/

/-- A stage depends on these fields only, and some of them may grow. -/
theorem StageOk.congr {at' : SupervisorPoint} (h : s.StageOk at') (hmode : t.mode = s.mode)
    (htoken : t.token = s.token) (hstate : t.state = s.state)
    (hworkers : t.workers ≤ s.workers) (hloops : s.loops.length ≤ t.loops.length)
    (hstop : s.stopRequested = true → t.stopRequested = true)
    (hclosed : s.tracker.isClosed = true → t.tracker.isClosed = true) : t.StageOk at' := by
  cases at' with
  | preparing | spawning => exact ⟨htoken.trans h.1, hstate.trans h.2⟩
  | selecting =>
    obtain ⟨h₁, h₂, h₃, h₄⟩ := h
    exact ⟨htoken.trans h₁, hstate.trans h₂, by omega, hclosed h₄⟩
  | cancelling =>
    obtain ⟨h₁, h₂, h₃, h₄⟩ := h
    exact ⟨htoken.trans h₁, hstate.trans h₂, hstop h₃, hclosed h₄⟩
  | draining =>
    obtain ⟨h₁, h₂⟩ := h
    exact ⟨h₁.imp (fun hg => ⟨hstate.trans hg.1, hstop hg.2⟩) hstate.trans, hclosed h₂⟩
  | cleaning message | closing message => exact hmode.trans h
  | settling message => exact ⟨hmode.trans h.1, hclosed h.2⟩
  | guarding exit =>
    exact ⟨hmode.trans h.1, fun hexit => (h.2 hexit).imp hstop hstate.trans⟩
  | releasing exit =>
    obtain ⟨h₁, h₂, h₃⟩ := h
    exact ⟨hmode.trans h₁, by rwa [hstate], fun hexit => (h₃ hexit).imp hstop hstate.trans⟩
  | ended exit => exact fun hexit => (h hexit).imp hstop hstate.trans

/-- A server with a live task has not finished. -/
theorem Lifecycle.not_finished (h : Lifecycle s) (hlive : 0 < s.tracker.count) :
    s.state ≠ .finished := by
  intro hstate
  have := (h.unprompted hstate).1
  omega

/-- The moves of the tasks leave the lifecycle alone. -/
theorem Lifecycle.congr (h : Lifecycle s) (hsame : SameSupervision s t)
    (hloops : t.loops.length = s.loops.length) (hstate : s.state ≠ .finished)
    (hleft : ∀ loop ∈ t.loops, loop.point = .leaving ∨ loop.point = .exited → s.token = true)
    (hexits : ∀ reason ∈ t.loopExits, s.token = true ∧ reason = s.state.cancellationReason) :
    Lifecycle t where
  stage := by
    rw [hsame.supervisor]
    exact h.stage.congr hsame.mode hsame.token hsame.state hsame.workers.le hloops.ge
      hsame.stopRequested.trans hsame.isClosed.trans
  bounded := by
    rw [hloops, hsame.workers]
    exact h.bounded
  recorded := by
    rw [hsame.cancellations, hsame.state]
    exact h.recorded
  unprompted := fun hfinished => absurd (hsame.state.symm.trans hfinished) hstate
  foreground := by
    rw [hsame.mode, hsame.token, hsame.state]
    exact h.foreground
  left := by
    rw [hsame.token]
    exact hleft
  exits := by
    rw [hsame.token, hsame.state]
    exact hexits

/-- A loop that exits reports the reason that was recorded. -/
theorem Lifecycle.loopMove (h : Lifecycle s) (haccounted : Accounted s)
    (hloop : s.loops[worker]? = some ⟨point, attempts⟩)
    (hmove : LoopMove s worker attempts point t) : Lifecycle t := by
  have hlive := (haccounted.loop_alive hloop hmove.isLive).2
  have hmem := h.left _ (List.mem_of_getElem? hloop)
  have hsame := hmove.sameSupervision
  cases hmove with
  | cancelled delay htoken =>
    exact h.congr hsame List.length_set (h.not_finished hlive)
      (TaskTable.forall_mem_set h.left fun _ => htoken) h.exits
  | left =>
    refine h.congr hsame List.length_set (h.not_finished hlive)
      (TaskTable.forall_mem_set h.left fun _ => hmem (Or.inl rfl)) fun reason hreason => ?_
    have htoken : s.token = true := hmem (Or.inl rfl)
    rcases List.mem_append.mp hreason with hreason | hreason
    · exact h.exits reason hreason
    · rw [if_pos htoken] at hreason
      exact ⟨htoken, List.mem_singleton.mp hreason⟩
  | _ =>
    exact h.congr hsame List.length_set (h.not_finished hlive)
      (TaskTable.forall_mem_set h.left fun hpoint => absurd hpoint (by simp)) h.exits

theorem Lifecycle.connectionStep {task : ConnectionTask} {event : ConnectionEvent}
    (h : Lifecycle s) (haccounted : Accounted s) (htask : s.connections[i]? = some task)
    (hstep : s.connectionStep i task event = some t) : Lifecycle t := by
  have hlive := haccounted.connection_alive htask (isLive_of_connectionStep hstep)
  have hsame := sameSupervision_of_connectionStep hstep
  obtain ⟨next, -, rfl⟩ := connectionStep_cases hstep
  exact h.congr hsame rfl (h.not_finished hlive) h.left h.exits

/-- A caller may request a stop; no caller changes the lifecycle otherwise. -/
theorem Lifecycle.controlMove (h : Lifecycle s) {event : ControlEvent}
    (hmove : ControlMove s event t) : Lifecycle t := by
  have hsame := hmove.sameTasks
  refine ⟨?_, ?_, ?_, ?_, ?_, ?_, ?_⟩
  · rw [hsame.supervisor]
    exact h.stage.congr hsame.mode hsame.token hsame.state hsame.workers.le
      (by rw [hsame.loops]) hsame.stopRequested (by rw [hsame.tracker]; exact id)
  · rw [hsame.loops, hsame.workers]
    exact h.bounded
  · rw [hsame.cancellations, hsame.state]
    exact h.recorded
  · rw [hsame.state, hsame.tracker, hsame.loopExits, hsame.workers, hsame.backoff]
    exact h.unprompted
  · rw [hsame.mode, hsame.token, hsame.state]
    exact h.foreground
  · rw [hsame.loops, hsame.token]
    exact h.left
  · rw [hsame.loopExits, hsame.token, hsame.state]
    exact h.exits

/-! ### The supervisor -/

/-- The token is cancelled. -/
theorem Lifecycle.cancelToken (h : Lifecycle s) {next : SupervisorPoint}
    (hstage : (s.cancelToken.goto next).StageOk next)
    (hstate : s.mode = .foreground → s.state ≠ .running) :
    Lifecycle (s.cancelToken.goto next) :=
  ⟨hstage, h.bounded, h.recorded, h.unprompted, fun hmode _ => hstate hmode, fun _ _ _ => rfl,
    fun reason hreason => ⟨rfl, (h.exits reason hreason).2⟩⟩

/-- No loop reports its exit before the token is cancelled. -/
theorem Lifecycle.no_exits (h : Lifecycle s) (htoken : s.token = false)
    (reason : ServerCancellationReason) : reason ∉ s.loopExits := by
  intro hreason
  have := (h.exits reason hreason).1
  exact absurd (htoken.symm.trans this) Bool.false_ne_true

/-- Without the token no loop ends but by a delay that cannot be doubled. -/
theorem Lifecycle.loops_panicked (h : Lifecycle s) (haccounted : Accounted s) (hpaced : Paced s)
    (htoken : s.token = false) (hcount : s.tracker.count = 0)
    (hworkers : s.workers ≤ s.loops.length) :
    s.workers = 0 ∨ BackoffConfig.durationMax < s.backoff.normalized.maxDelay * 2 := by
  rcases hloops : s.loops with _ | ⟨loop, rest⟩
  · rw [hloops] at hworkers
    exact Or.inl (Nat.le_zero.mp hworkers)
  · right
    have hmem : loop ∈ s.loops := by rw [hloops]; exact List.mem_cons_self
    have hdead : loop.isLive = false := by
      have htracked := haccounted.tracked
      have hzero : s.liveLoops = 0 := by omega
      exact Bool.toNat_eq_zero.mp (TaskTable.total_eq_zero_iff.mp hzero loop hmem)
    have hgone := h.left loop hmem
    have hpace := hpaced loop hmem
    obtain ⟨point, attempts⟩ := loop
    cases point with
    | panicked => exact hpace
    | exited => exact absurd (htoken.symm.trans (hgone (Or.inr rfl))) Bool.false_ne_true
    | _ => exact absurd hdead (by simp [AcceptLoop.isLive])

theorem Lifecycle.exitPoint (h : Lifecycle s) {exit : SupervisorExit}
    (hexit : exit = .returned (.ok ()) → s.stopRequested = true ∨ s.state = .finished) :
    Lifecycle (s.leaveRun (s.exitPoint exit)) := by
  refine ⟨?_, h.bounded, h.recorded, h.unprompted, h.foreground, h.left, h.exits⟩
  show (s.leaveRun (s.exitPoint exit)).StageOk (s.exitPoint exit)
  rw [Server.exitPoint]
  cases hmode : s.mode with
  | foreground => exact ⟨hmode, hexit⟩
  | spawned => exact hexit

theorem Lifecycle.panicPoint (h : Lifecycle s) (message : String) :
    Lifecycle (s.leaveRun (s.panicPoint message)) := by
  refine ⟨?_, h.bounded, h.recorded, h.unprompted, h.foreground, h.left, h.exits⟩
  show (s.leaveRun (s.panicPoint message)).StageOk (s.panicPoint message)
  rw [Server.panicPoint]
  cases hmode : s.mode with
  | foreground => exact ⟨hmode, fun hexit => absurd hexit (by simp)⟩
  | spawned => exact hmode

/-- The drop guard records a cancellation only when nothing else was recorded. -/
theorem Lifecycle.recordDropped (h : Lifecycle s) {exit : SupervisorExit}
    (hstage : s.StageOk (.guarding exit)) :
    Lifecycle (s.recordDroppedCancellation.goto (.releasing exit)) := by
  obtain ⟨hmode, hexit⟩ := hstage
  rw [recordDroppedCancellation]
  split
  · rename_i hstate
    have htoken : s.token = false := by
      rw [← Bool.not_eq_true]
      exact fun htoken => h.foreground hmode htoken hstate
    have hrecorded := h.recorded
    rw [hstate] at hrecorded
    refine ⟨⟨hmode, by simp [Server.goto], fun hok => ?_⟩, h.bounded, ?_,
      fun hfinished => absurd hfinished (by simp [Server.goto]), fun _ _ => by simp [Server.goto],
      h.left, fun reason hreason => absurd hreason (h.no_exits htoken reason)⟩
    · rcases hexit hok with hstop | hfinished
      · exact Or.inl hstop
      · exact absurd (hstate.symm.trans hfinished) (by simp)
    · show s.cancellations ++ [.dropped] = [.dropped]
      rw [hrecorded]
      rfl
  · rename_i hstate
    exact ⟨⟨hmode, hstate, hexit⟩, h.bounded, h.recorded, h.unprompted, h.foreground, h.left,
      h.exits⟩

/-- Each move of the supervisor leads to a stage whose conditions hold. -/
theorem Lifecycle.supervisorMove (h : Lifecycle s) (haccounted : Accounted s) (hpaced : Paced s)
    (hmove : SupervisorMove s s.supervisor t) : Lifecycle t := by
  have hstage := h.stage
  generalize s.supervisor = point at hmove hstage
  cases hmove with
  | started =>
    exact ⟨hstage, h.bounded, h.recorded, h.unprompted, h.foreground, h.left, h.exits⟩
  | refused err | forgotten | settled message hdrained | aborted message =>
    exact ⟨fun hexit => absurd hexit (by simp), h.bounded, h.recorded, h.unprompted,
      h.foreground, h.left, h.exits⟩
  | forestalled hmode hstop =>
    exact ⟨fun _ => Or.inl hstop, h.bounded, h.recorded, h.unprompted, h.foreground, h.left,
      h.exits⟩
  | spawned hroom =>
    have hlength : s.loops.length ≤ s.spawnLoop.loops.length :=
      (List.sublist_append_left s.loops _).length_le
    refine ⟨h.stage.congr rfl rfl rfl le_rfl hlength id id, ?_, h.recorded,
      fun hfinished => ?_, h.foreground,
      TaskTable.forall_mem_concat h.left fun hpoint => absurd hpoint (by simp), h.exits⟩
    · show (s.loops ++ [_]).length ≤ s.workers
      rw [List.length_append, List.length_singleton]
      omega
    · exact absurd (hstage.2.symm.trans hfinished) (by simp)
  | ready hfull =>
    exact ⟨⟨hstage.1, hstage.2, Nat.le_of_not_lt hfull, rfl⟩, h.bounded, h.recorded,
      h.unprompted, h.foreground, h.left, h.exits⟩
  | shutdown hstop =>
    obtain ⟨htoken, hstate, -, hclosed⟩ := hstage
    have hrecorded := h.recorded
    rw [hstate] at hrecorded
    refine ⟨⟨htoken, rfl, hstop, hclosed⟩, h.bounded, ?_,
      fun hfinished => absurd hfinished (by simp [recordGracefulCancellation, Server.goto]),
      fun _ _ => by simp [recordGracefulCancellation, Server.goto], h.left,
      fun reason hreason => absurd hreason (h.no_exits htoken reason)⟩
    show s.cancellations ++ [.graceful] = [.graceful]
    rw [hrecorded]
    rfl
  | completed hdrained =>
    obtain ⟨htoken, hstate, hworkers, hclosed⟩ := hstage
    have hcount := count_eq_zero_of_isDrained hdrained
    have hrecorded := h.recorded
    rw [hstate] at hrecorded
    exact ⟨⟨Or.inr rfl, hclosed⟩, h.bounded, hrecorded,
      fun _ => ⟨hcount, List.eq_nil_iff_forall_not_mem.mpr (h.no_exits htoken),
        h.loops_panicked haccounted hpaced htoken hcount hworkers⟩,
      fun _ htrue => absurd (htoken.symm.trans htrue) Bool.false_ne_true, h.left,
      fun reason hreason => absurd hreason (h.no_exits htoken reason)⟩
  | cancelled =>
    obtain ⟨-, hstate, hstop, hclosed⟩ := hstage
    exact h.cancelToken ⟨Or.inl ⟨hstate, hstop⟩, hclosed⟩ fun _ => by rw [hstate]; simp
  | drained hdrained =>
    exact h.exitPoint fun _ => hstage.1.imp And.right id
  | panicked _ message hat => exact h.panicPoint message
  | abandoned _ hat => exact h.exitPoint fun hexit => absurd hexit (by simp)
  | cleaned message =>
    exact h.cancelToken hstage fun hmode => absurd (hmode.symm.trans hstage) (by simp)
  | closed message =>
    exact ⟨⟨hstage, rfl⟩, h.bounded, h.recorded, h.unprompted, h.foreground, h.left, h.exits⟩
  | recorded exit => exact h.recordDropped hstage
  | released exit =>
    obtain ⟨-, hstate, hexit⟩ := hstage
    exact h.cancelToken hexit fun _ => hstate

/-! ### All together -/

/-- Everything that is known of the tasks and the lifecycle. -/
structure Supervised (s : Server) : Prop where
  accounted : Accounted s
  paced : Paced s
  lifecycle : Lifecycle s

theorem supervised_start (mode : ServerMode) (workers : ℕ) (backoff : BackoffConfig) :
    Supervised (start mode workers backoff) where
  accounted := accounted_start mode workers backoff
  paced := fun _ hloop => absurd hloop List.not_mem_nil
  lifecycle := lifecycle_start mode workers backoff

theorem Supervised.step (h : Supervised s) {event : ServerEvent} (hstep : s.step event = some t) :
    Supervised t := by
  refine ⟨h.accounted.step hstep, h.paced.step hstep, ?_⟩
  cases move_of_step hstep with
  | supervisor _ hmove => exact h.lifecycle.supervisorMove h.accounted h.paced hmove
  | loop _ hloop hmove => exact h.lifecycle.loopMove h.accounted hloop hmove
  | connection _ htask hmove => exact h.lifecycle.connectionStep h.accounted htask hmove
  | control _ hmove => exact h.lifecycle.controlMove hmove

/-! ## Panics of the supervisor -/

/-- The supervisor cleans up only after a panic. -/
theorem panic_of_cleaning {event : SupervisorEvent} {message : String}
    (hstep : s.supervisorStep event = some t) (hcleaning : t.supervisor = .cleaning message) :
    event = .panic message := by
  cases event with
  | panic text =>
    simp only [supervisorStep] at hstep
    have hpoint : s.panicPoint text = .cleaning message → text = message := by
      rw [Server.panicPoint]
      cases s.mode <;> simp
    split at hstep
    · rw [← Option.some.inj hstep] at hcleaning
      rw [hpoint hcleaning]
    · rw [← Option.some.inj hstep] at hcleaning
      rw [hpoint hcleaning]
    · rw [← Option.some.inj hstep] at hcleaning
      rw [hpoint hcleaning]
    · cases hstep
  | _ =>
    have hexit (exit : SupervisorExit) : s.exitPoint exit ≠ .cleaning message := by
      rw [Server.exitPoint]
      cases s.mode <;> simp
    simp only [supervisorStep] at hstep
    grind [Server.goto, Server.leaveRun, Server.startRun, Server.spawnLoop]

/-- No panic is being cleaned up after, and a cancelled token has its reason recorded. -/
structure Undisturbed (s : Server) : Prop where
  point : ∀ message, s.supervisor ≠ .cleaning message
  recorded : s.token = true → s.state ≠ .running

/-- Apart from the clean-up after a panic, the supervisor cancels the token after the reason is
recorded, and what is recorded stays so. -/
theorem Undisturbed.recorded_supervisorMove (h : Undisturbed s) (hlifecycle : Lifecycle s)
    (hmove : SupervisorMove s s.supervisor t) : t.token = true → t.state ≠ .running := by
  have hstage := hlifecycle.stage
  have hpoint := h.point
  generalize s.supervisor = point at hmove hstage hpoint
  cases hmove with
  | shutdown hstop => exact fun _ => by simp [recordGracefulCancellation, Server.goto]
  | completed hdrained =>
    exact fun _ => by simp [recordCompletionWithoutCancellation, Server.goto]
  | cancelled =>
    have hstate : s.state = .graceful := hstage.2.1
    exact fun _ hrunning => absurd (hstate.symm.trans hrunning) (by simp)
  | cleaned message => exact absurd rfl (hpoint message)
  | recorded exit =>
    intro htoken
    rw [recordDroppedCancellation] at htoken ⊢
    split
    · simp [Server.goto]
    · assumption
  | released exit => exact fun _ => hstage.2.1
  | _ => exact h.recorded

/-- A step that is no panic of the supervisor leaves the server undisturbed. -/
theorem Undisturbed.step (h : Undisturbed s) (hlifecycle : Lifecycle s) {event : ServerEvent}
    (hstep : s.step event = some t) (hevent : ∀ message, event ≠ .supervisor (.panic message)) :
    Undisturbed t := by
  cases move_of_step hstep with
  | supervisor event hmove =>
    refine ⟨fun message hcleaning => ?_, h.recorded_supervisorMove hlifecycle hmove⟩
    have hpanic := panic_of_cleaning hstep hcleaning
    exact hevent message (congrArg ServerEvent.supervisor hpanic)
  | loop _ hloop hmove =>
    have hsame := hmove.sameSupervision
    exact ⟨hsame.supervisor ▸ h.point, hsame.token ▸ hsame.state ▸ h.recorded⟩
  | connection _ htask hmove =>
    have hsame := sameSupervision_of_connectionStep hmove
    exact ⟨hsame.supervisor ▸ h.point, hsame.token ▸ hsame.state ▸ h.recorded⟩
  | control _ hmove =>
    have hsame := hmove.sameTasks
    exact ⟨hsame.supervisor ▸ h.point, hsame.token ▸ hsame.state ▸ h.recorded⟩

/-- What a run tells of its supervisor: it panicked, or nothing was disturbed. -/
structure Explained (events : List ServerEvent) (s : Server) : Prop where
  supervised : Supervised s
  panicked : (∃ message, .supervisor (.panic message) ∈ events) ∨ Undisturbed s

/-- One more step is a panic of the supervisor, or leaves things as they were. -/
theorem Explained.step {past : List ServerEvent} (h : Explained past s) {event : ServerEvent}
    (hstep : s.step event = some t) : Explained (past ++ [event]) t := by
  refine ⟨h.supervised.step hstep, ?_⟩
  rcases h.panicked with ⟨message, hmem⟩ | hundisturbed
  · exact Or.inl ⟨message, List.mem_append_left _ hmem⟩
  · by_cases hevent : ∃ message, event = .supervisor (.panic message)
    · obtain ⟨message, rfl⟩ := hevent
      exact Or.inl ⟨message, List.mem_append_right _ (List.mem_singleton_self _)⟩
    · exact Or.inr (hundisturbed.step h.supervised.lifecycle hstep
        fun message heq => hevent ⟨message, heq⟩)

/-- Every run explains how its supervisor stands. -/
theorem explained_of_exec {mode : ServerMode} {workers : ℕ} {backoff : BackoffConfig}
    {events : List ServerEvent}
    (h : Trace.exec Server.step (start mode workers backoff) events = some s) :
    Explained events s := by
  have hstart : Undisturbed (start mode workers backoff) :=
    ⟨fun message => by simp [start], fun htoken => absurd htoken Bool.false_ne_true⟩
  exact Trace.exec_history (fun _ _ _ _ hs => hs.step)
    ⟨supervised_start mode workers backoff, Or.inr hstart⟩ h

/-! ## Connections accepted late -/

/-- Which loops accepted a connection after the token was cancelled, one entry per connection. -/
def lateLoops (s : Server) : List ℕ :=
  (s.connections.filter (·.late)).map (·.acceptedBy)

/-- Each loop accepts at most one connection late, and is then past all others. -/
structure Punctual (s : Server) : Prop where
  nodup : s.lateLoops.Nodup
  past : ∀ worker ∈ s.lateLoops, s.token = true ∧
    ∃ loop, s.loops[worker]? = some loop ∧ loop.point.isPast = true

theorem punctual_start (mode : ServerMode) (workers : ℕ) (backoff : BackoffConfig) :
    Punctual (start mode workers backoff) where
  nodup := List.nodup_nil
  past := fun _ hworker => absurd hworker List.not_mem_nil

/-! ### The loops -/

/-- A loop that is past its last connection stays so once the token is cancelled. -/
theorem LoopMove.isPast (h : LoopMove s worker attempts point t) (htoken : s.token = true)
    (hpast : point.isPast = true) (hloop : s.loops[worker]? = some ⟨point, attempts⟩) :
    ∃ loop, t.loops[worker]? = some loop ∧ loop.point.isPast = true := by
  have hlt : worker < s.loops.length := (List.getElem?_eq_some_iff.mp hloop).1
  cases h with
  | cancelled delay _ | left => exact ⟨_, List.getElem?_set_self hlt, rfl⟩
  | uncancelled delay hfalse => exact absurd (hfalse.symm.trans htoken) Bool.false_ne_true
  | _ => exact absurd hpast Bool.false_ne_true

/-- A move of one loop leaves the others where they are. -/
theorem LoopMove.getElem?_of_ne (h : LoopMove s worker attempts point t) (hne : worker ≠ i) :
    t.loops[i]? = s.loops[i]? := by
  cases h <;> exact List.getElem?_set_ne hne

/-- Only an accepted connection can be a late one. -/
theorem LoopMove.lateLoops_eq (h : LoopMove s worker attempts point t) :
    t.lateLoops = s.lateLoops ∨
      (point.isPast = false ∧ s.token = true ∧ t.lateLoops = s.lateLoops ++ [worker] ∧
        ∃ delay, t.loops = s.loops.set worker ⟨.polling delay, attempts ++ [.connection]⟩) := by
  cases h with
  | accepted delay =>
    have hlate : ((s.spawnConnectionTask worker).setLoop worker
        ⟨.polling s.backoff.normalized.initialDelay, attempts ++ [.connection]⟩).lateLoops =
        s.lateLoops ++ ([(⟨worker, s.token, .reading⟩ : ConnectionTask)].filter (·.late)).map
          (·.acceptedBy) := by
      rw [lateLoops, lateLoops, ← List.map_append, ← List.filter_append]
      rfl
    rw [hlate]
    cases htoken : s.token with
    | false => exact Or.inl (List.append_nil _)
    | true => exact Or.inr ⟨rfl, rfl, rfl, _, rfl⟩
  | _ => exact Or.inl rfl

/-- A loop that accepts late sees the cancelled token next. -/
theorem Punctual.loopMove (h : Punctual s) (hloop : s.loops[worker]? = some ⟨point, attempts⟩)
    (hmove : LoopMove s worker attempts point t) : Punctual t := by
  have htoken' := hmove.sameSupervision.token
  have hkept : ∀ w ∈ s.lateLoops, t.token = true ∧
      ∃ loop, t.loops[w]? = some loop ∧ loop.point.isPast = true := by
    intro w hw
    obtain ⟨htoken, loop, hget, hpast⟩ := h.past w hw
    refine ⟨htoken'.trans htoken, ?_⟩
    rcases eq_or_ne worker w with rfl | hne
    · obtain rfl := Option.some.inj (hloop.symm.trans hget)
      exact hmove.isPast htoken hpast hloop
    · exact ⟨loop, (hmove.getElem?_of_ne hne).trans hget, hpast⟩
  rcases hmove.lateLoops_eq with heq | ⟨hnot, htoken, heq, delay, hloops⟩
  · exact ⟨heq ▸ h.nodup, heq ▸ hkept⟩
  · -- the loop was about to accept, so it had accepted none late before
    have hfresh : worker ∉ s.lateLoops := by
      intro hmem
      obtain ⟨-, loop, hget, hpast⟩ := h.past worker hmem
      obtain rfl := Option.some.inj (hloop.symm.trans hget)
      exact absurd (hnot.symm.trans hpast) Bool.false_ne_true
    have hlt : worker < s.loops.length := (List.getElem?_eq_some_iff.mp hloop).1
    refine ⟨?_, ?_⟩
    · rw [heq]
      exact h.nodup.append (List.nodup_singleton _) (List.disjoint_singleton.mpr hfresh)
    · rw [heq]
      refine TaskTable.forall_mem_concat hkept ⟨htoken'.trans htoken, ?_⟩
      rw [hloops]
      exact ⟨_, List.getElem?_set_self hlt, rfl⟩

/-- The late connections are accounted for by the token, the loops and the connections alone. -/
theorem Punctual.congr (h : Punctual s) (htoken : s.token = true → t.token = true)
    (hloops : ∀ (worker : ℕ) loop, s.loops[worker]? = some loop → t.loops[worker]? = some loop)
    (hlate : t.lateLoops = s.lateLoops) : Punctual t := by
  refine ⟨hlate ▸ h.nodup, ?_⟩
  rw [hlate]
  intro worker hworker
  obtain ⟨hcancelled, loop, hget, hpast⟩ := h.past worker hworker
  exact ⟨htoken hcancelled, loop, hloops worker loop hget, hpast⟩

/-- The supervisor cancels the token for good, and keeps all tasks. -/
theorem SupervisorMove.keeps_tasks {from' : SupervisorPoint} (h : SupervisorMove s from' t) :
    (s.token = true → t.token = true) ∧
      (∀ (worker : ℕ) loop, s.loops[worker]? = some loop → t.loops[worker]? = some loop) ∧
      t.connections = s.connections := by
  cases h with
  | spawned hroom =>
    refine ⟨id, fun worker loop hget => ?_, rfl⟩
    exact (List.getElem?_append_left (List.getElem?_eq_some_iff.mp hget).1).trans hget
  | cancelled | cleaned message | released exit => exact ⟨fun _ => rfl, fun _ _ => id, rfl⟩
  | recorded exit =>
    rw [recordDroppedCancellation]
    split <;> exact ⟨id, fun _ _ => id, rfl⟩
  | _ => exact ⟨id, fun _ _ => id, rfl⟩

theorem Punctual.step (h : Punctual s) {event : ServerEvent} (hstep : s.step event = some t) :
    Punctual t := by
  cases move_of_step hstep with
  | supervisor _ hmove =>
    obtain ⟨htoken, hloops, hconnections⟩ := hmove.keeps_tasks
    exact h.congr htoken hloops (by rw [lateLoops, lateLoops, hconnections])
  | loop _ hloop hmove => exact h.loopMove hloop hmove
  | connection _ htask hmove =>
    obtain ⟨next, -, rfl⟩ := connectionStep_cases hmove
    exact h.congr id (fun _ _ => id) (TaskTable.map_filter_set htask rfl rfl)
  | control _ hmove =>
    have hsame := hmove.sameTasks
    exact h.congr hsame.token.trans (fun _ _ hget => by rwa [hsame.loops])
      (by rw [lateLoops, lateLoops, hsame.connections])

/-! ## How much is left to do -/

/-- An accept loop may still accept a connection before it looks at the token. -/
def loopRank (loop : AcceptLoop) : ℕ :=
  match loop.point with
  | .exited | .panicked => 0
  | .leaving => 1
  | .polling _ => 2
  | .sleeping _ => 3
  | .accepting _ => 6

def connectionRank (task : ConnectionTask) : ℕ := task.point.rank

def supervisorRank : SupervisorPoint → ℕ
  | .ended _ => 0
  | .settling _ | .releasing _ => 1
  | .closing _ | .guarding _ => 2
  | .cleaning _ => 3
  | .draining => 4
  | .cancelling | .selecting | .spawning | .preparing => 5

def observerRank : ObserverPoint → ℕ
  | .absent | .done | .aborted => 0
  | .publishing _ => 1
  | .joining => 2

/-- The steps the server can still take once the token is cancelled. -/
def rank (s : Server) : ℕ :=
  total loopRank s.loops + total connectionRank s.connections +
    (supervisorRank s.supervisor + observerRank s.observer)

/-- What is left is bounded by the workers and the connections. -/
theorem rank_le (h : Lifecycle s) :
    s.rank ≤ 6 * s.workers + 3 * s.connections.length + 7 := by
  have hloops : total loopRank s.loops ≤ 6 * s.loops.length :=
    TaskTable.total_le fun loop => by
      rw [loopRank]
      split <;> omega
  have hconnections : total connectionRank s.connections ≤ 3 * s.connections.length :=
    TaskTable.total_le fun task => by
      rw [connectionRank]
      cases task.point <;> decide
  have hsupervisor : supervisorRank s.supervisor ≤ 5 := by
    cases s.supervisor <;> simp [supervisorRank]
  have hobserver : observerRank s.observer ≤ 2 := by
    cases s.observer <;> simp [observerRank]
  have hbounded := h.bounded
  rw [rank]
  omega

/-! ### Every step takes from it -/

/-- The token is cancelled for good. -/
structure Stopping (s : Server) : Prop where
  supervised : Supervised s
  token : s.token = true

theorem rank_lt_of_loop {loop next : AcceptLoop} (hsame : SameSupervision s t)
    (hloop : s.loops[worker]? = some loop) (hloops : t.loops = s.loops.set worker next)
    (hconnections : t.connections = s.connections) (hlt : loopRank next < loopRank loop) :
    t.rank < s.rank := by
  have hset := total_set (f := loopRank) (b := next) hloop
  rw [rank, rank, hloops, hconnections, hsame.supervisor, hsame.observer]
  omega

/-- Once the token is cancelled, a loop comes closer to its end. -/
theorem LoopMove.rank_lt (h : LoopMove s worker attempts point t) (htoken : s.token = true)
    (hloop : s.loops[worker]? = some ⟨point, attempts⟩) : t.rank < s.rank := by
  have hsame := h.sameSupervision
  cases h with
  | uncancelled delay hfalse => exact absurd (hfalse.symm.trans htoken) Bool.false_ne_true
  | accepted delay =>
    -- the connection is paid for by the loop, which was about to accept
    have hset := total_set (f := loopRank)
      (b := ⟨.polling s.backoff.normalized.initialDelay, attempts ++ [.connection]⟩) hloop
    have hconcat : total connectionRank (s.connections ++ [⟨worker, s.token, .reading⟩]) =
        total connectionRank s.connections + 3 := total_concat
    simp only [loopRank] at hset
    simp only [rank, setLoop, spawnConnectionTask]
    omega
  | cancelled delay _ => exact rank_lt_of_loop hsame hloop rfl rfl (Nat.lt_succ_self 1)
  | pending delay | failed delay | overflowed delay _ =>
    exact rank_lt_of_loop hsame hloop rfl rfl (by simp [loopRank])
  | woke delay next _ => exact rank_lt_of_loop hsame hloop rfl rfl (Nat.lt_succ_self 2)
  | left => exact rank_lt_of_loop hsame hloop rfl rfl Nat.zero_lt_one

theorem rank_lt_of_connectionStep {task : ConnectionTask} {event : ConnectionEvent}
    (htask : s.connections[i]? = some task) (h : s.connectionStep i task event = some t) :
    t.rank < s.rank := by
  obtain ⟨next, hnext, rfl⟩ := connectionStep_cases h
  have hset := total_set (f := connectionRank) (b := { task with point := next }) htask
  have hlt := ConnectionPoint.rank_lt hnext
  simp only [connectionRank] at hset
  simp only [rank]
  omega

theorem supervisorRank_exitPoint (exit : SupervisorExit) :
    supervisorRank (s.exitPoint exit) ≤ 2 := by
  rw [exitPoint]
  cases s.mode <;> simp [supervisorRank]

theorem supervisorRank_panicPoint (message : String) :
    supervisorRank (s.panicPoint message) ≤ 3 := by
  rw [panicPoint]
  cases s.mode <;> simp [supervisorRank]

theorem rank_lt_of_supervisor (hloops : t.loops = s.loops)
    (hconnections : t.connections = s.connections) (hobserver : t.observer = s.observer)
    (hlt : supervisorRank t.supervisor < supervisorRank s.supervisor) : t.rank < s.rank := by
  rw [rank, rank, hloops, hconnections, hobserver]
  omega

/-- Once the token is cancelled, every move of the supervisor takes it closer to its end. -/
theorem SupervisorMove.rank_lt {at' : SupervisorPoint} (h : SupervisorMove s at' t)
    (hat : s.supervisor = at') (hstage : s.StageOk at') (htoken : s.token = true) :
    t.rank < s.rank := by
  have hearly : s.token ≠ false := by rw [htoken]; simp
  cases h with
  | started | refused err | forestalled hmode hstop | forgotten | spawned hroom | ready hfull
  | shutdown hstop | completed hdrained | cancelled => exact absurd hstage.1 hearly
  | drained hdrained =>
    have hle := supervisorRank_exitPoint (s := s) (.returned (.ok ()))
    refine rank_lt_of_supervisor rfl rfl rfl ?_
    rw [hat]
    exact Nat.lt_of_le_of_lt hle (by simp [supervisorRank])
  | panicked _ message hpoint =>
    have hle := supervisorRank_panicPoint (s := s) message
    refine rank_lt_of_supervisor rfl rfl rfl (Nat.lt_of_le_of_lt hle ?_)
    rw [hat]
    rcases hpoint with rfl | rfl | rfl <;> simp [supervisorRank]
  | abandoned _ hpoint =>
    have hle := supervisorRank_exitPoint (s := s) .cancelled
    refine rank_lt_of_supervisor rfl rfl rfl (Nat.lt_of_le_of_lt hle ?_)
    rw [hat]
    rcases hpoint with rfl | rfl <;> simp [supervisorRank]
  | cleaned message => exact rank_lt_of_supervisor rfl rfl rfl (hat ▸ Nat.lt_succ_self 2)
  | closed message => exact rank_lt_of_supervisor rfl rfl rfl (hat ▸ Nat.lt_succ_self 1)
  | settled message hdrained | aborted message =>
    exact rank_lt_of_supervisor rfl rfl rfl (hat ▸ Nat.zero_lt_one)
  | recorded exit =>
    rw [recordDroppedCancellation]
    split <;> exact rank_lt_of_supervisor rfl rfl rfl (hat ▸ Nat.lt_succ_self 1)
  | released exit => exact rank_lt_of_supervisor rfl rfl rfl (hat ▸ Nat.zero_lt_one)

theorem ControlMove.rank_le {event : ControlEvent} (h : ControlMove s event t) :
    t.rank + (if (ServerEvent.control event).isOwn then 1 else 0) ≤ s.rank := by
  cases h with
  | joined exit hobserver hsupervisor | published terminal hobserver =>
    simp only [rank, hobserver, observerRank, ServerEvent.isOwn, if_true]
    omega
  | aborted hobserver =>
    rcases hobserver with hobserver | ⟨terminal, hobserver⟩
    · simp only [rank, hobserver, observerRank, ServerEvent.isOwn, if_true]
      omega
    · simp only [rank, hobserver, observerRank, ServerEvent.isOwn, if_true]
      omega
  | _ => exact le_rfl

theorem Stopping.step (h : Stopping s) {event : ServerEvent} (hstep : s.step event = some t) :
    Stopping t := by
  refine ⟨h.supervised.step hstep, ?_⟩
  cases move_of_step hstep with
  | supervisor _ hmove => exact hmove.keeps_tasks.1 h.token
  | loop _ hloop hmove => exact hmove.sameSupervision.token.trans h.token
  | connection _ htask hmove => exact (sameSupervision_of_connectionStep hmove).token.trans h.token
  | control _ hmove => exact hmove.sameTasks.token.trans h.token

/-- Every step of the server's own lowers the rank, and none of its callers raises it. -/
theorem Stopping.rank_le (h : Stopping s) {event : ServerEvent} (hstep : s.step event = some t) :
    t.rank + (if event.isOwn then 1 else 0) ≤ s.rank := by
  cases move_of_step hstep with
  | supervisor _ hmove => exact hmove.rank_lt rfl h.supervised.lifecycle.stage h.token
  | loop _ hloop hmove => exact hmove.rank_lt h.token hloop
  | connection _ htask hmove => exact rank_lt_of_connectionStep htask hmove
  | control _ hmove => exact hmove.rank_le

/-! ## A server that can do no more -/

/-- None of the server's tasks can go on. -/
def Quiescent (s : Server) : Prop := ∀ event : ServerEvent, event.isProgress = true →
  s.step event = none

/-- A server whose tasks are over, with its outcome published, can do no more. -/
theorem quiescent_of_dead (hloops : ∀ loop ∈ s.loops, loop.isLive = false)
    (hconnections : ∀ task ∈ s.connections, task.isLive = false) {exit : SupervisorExit}
    (hended : s.supervisor = .ended exit) (hobserver : s.observer = .done) : Quiescent s := by
  intro event hprogress
  by_contra hstep
  obtain ⟨t, ht⟩ := Option.ne_none_iff_exists'.mp hstep
  cases move_of_step ht with
  | supervisor _ hmove => exact hmove.not_ended exit hended
  | loop _ hloop hmove =>
    have hdead := hloops _ (List.mem_of_getElem? hloop)
    exact absurd (hdead.symm.trans hmove.isLive) Bool.false_ne_true
  | connection _ htask hmove =>
    have hdead := hconnections _ (List.mem_of_getElem? htask)
    exact absurd (hdead.symm.trans (isLive_of_connectionStep hmove)) Bool.false_ne_true
  | control _ hmove =>
    cases hmove with
    | joined _ hjoining _ => exact absurd (hobserver.symm.trans hjoining) (by simp)
    | published _ hpublishing => exact absurd (hobserver.symm.trans hpublishing) (by simp)
    | _ => exact absurd hprogress (by simp [ServerEvent.isProgress])

/-- A loop that can do nothing has ended. -/
theorem Quiescent.loop_dead (h : Quiescent s) {loop : AcceptLoop} (hmem : loop ∈ s.loops) :
    loop.isLive = false := by
  obtain ⟨w, hget⟩ := List.mem_iff_getElem?.mp hmem
  have hstuck : ∀ event, s.loopStep w loop event = none := by
    intro event
    have hnone := h (.loop w event) rfl
    rwa [step, hget] at hnone
  obtain ⟨point, attempts⟩ := loop
  cases point with
  | polling delay =>
    have hnone := hstuck .pollToken
    simp only [loopStep] at hnone
    split at hnone <;> exact absurd hnone (by simp)
  | accepting delay => exact absurd (hstuck (.pollAccept none)) (by simp [loopStep])
  | sleeping delay =>
    have hnone := hstuck .wake
    simp only [loopStep] at hnone
    split at hnone <;> exact absurd hnone (by simp)
  | leaving => exact absurd (hstuck .exit) (by simp [loopStep])
  | exited | panicked => rfl

theorem Quiescent.connection_dead (h : Quiescent s) {task : ConnectionTask}
    (hmem : task ∈ s.connections) : task.isLive = false := by
  obtain ⟨i, hget⟩ := List.mem_iff_getElem?.mp hmem
  have hstuck : ∀ event, (ServerEvent.connection i event).isProgress = true →
      s.connectionStep i task event = none := by
    intro event hprogress
    have hnone := h (.connection i event) hprogress
    rwa [step, hget] at hnone
  obtain ⟨acceptedBy, late, point⟩ := task
  cases point with
  | reading => exact absurd (hstuck (.preamble true) rfl) (by simp [connectionStep, ConnectionPoint.next])
  | welcoming | refusing =>
    exact absurd (hstuck (.hook true) rfl) (by simp [connectionStep, ConnectionPoint.next])
  | serving => exact absurd (hstuck .served rfl) (by simp [connectionStep, ConnectionPoint.next])
  | closed | panicked => rfl

/-- With all tasks over, the tracker lets the supervisor through. -/
theorem Quiescent.isDrained (h : Quiescent s) (haccounted : Accounted s)
    (hclosed : s.tracker.isClosed = true) : s.tracker.isDrained = true := by
  have hloops : s.liveLoops = 0 := TaskTable.total_eq_zero_iff.mpr fun loop hmem => by
    rw [h.loop_dead hmem]
    rfl
  have hconnections : s.liveConnections = 0 := TaskTable.total_eq_zero_iff.mpr fun task hmem => by
    rw [h.connection_dead hmem]
    rfl
  have htracked := haccounted.tracked
  rw [hloops, hconnections] at htracked
  rw [TaskTracker.isDrained, hclosed, htracked]
  rfl

/-- A stopping server that can do no more has ended. -/
theorem Quiescent.ended (h : Quiescent s) (hstopping : Stopping s) :
    ∃ exit, s.supervisor = .ended exit := by
  have hearly : s.token ≠ false := by rw [hstopping.token]; simp
  have hstage := hstopping.supervised.lifecycle.stage
  have hdrains := h.isDrained hstopping.supervised.accounted
  have hstuck : ∀ event, (ServerEvent.supervisor event).isProgress = true →
      s.supervisorStep event = none := fun event hprogress => h (.supervisor event) hprogress
  cases hpoint : s.supervisor with
  | preparing | spawning | selecting | cancelling =>
    rw [hpoint] at hstage
    exact absurd hstage.1 hearly
  | draining | settling message =>
    rw [hpoint] at hstage
    have hnone := hstuck .drained rfl
    simp only [supervisorStep, hpoint, hdrains hstage.2, if_true] at hnone
    cases hnone
  | cleaning message | releasing exit =>
    have hnone := hstuck .cancelToken rfl
    simp only [supervisorStep, hpoint] at hnone
    cases hnone
  | closing message =>
    have hnone := hstuck .closeTracker rfl
    simp only [supervisorStep, hpoint] at hnone
    cases hnone
  | guarding exit =>
    have hnone := hstuck .guardRecords rfl
    simp only [supervisorStep, hpoint] at hnone
    cases hnone
  | ended exit => exact ⟨exit, rfl⟩

/-! ### The observer -/

/-- A run in a task of its own is watched from its start. -/
def Watched (s : Server) : Prop :=
  s.mode = .spawned → s.observer = .absent →
    s.token = false ∧ (s.supervisor = .preparing ∨ ∃ exit, s.supervisor = .ended exit)

theorem watched_start (mode : ServerMode) (workers : ℕ) (backoff : BackoffConfig) :
    Watched (start mode workers backoff) := fun _ _ => ⟨rfl, Or.inl rfl⟩

/-- A spawned supervisor starts with its observer. -/
theorem Watched.supervisorMove (h : Watched s) (hmove : SupervisorMove s s.supervisor t) :
    Watched t := by
  intro hmode habsent
  rcases hmove.outcome_frame with ⟨hpoint, rfl⟩ | ⟨hsame, hobserver, -, -, -⟩
  · have hjoining : s.startRun.observer = .joining := if_pos hmode
    exact absurd (hjoining.symm.trans habsent) (by simp)
  · obtain ⟨htoken, hpoint | ⟨exit, hexit⟩⟩ :=
      h (hsame.symm.trans hmode) (hobserver.symm.trans habsent)
    · rw [hpoint] at hmove
      cases hmove with
      | started =>
        have hjoining : s.startRun.observer = .joining := if_pos hmode
        exact absurd (hjoining.symm.trans habsent) (by simp)
      | refused err | forestalled _ hstop | forgotten => exact ⟨htoken, Or.inr ⟨_, rfl⟩⟩
      | panicked _ _ hat => rcases hat with hat | hat | hat <;> exact absurd hat (by simp)
      | abandoned _ hat => rcases hat with hat | hat <;> exact absurd hat (by simp)
    · exact absurd hexit (hmove.not_ended exit)

theorem ControlMove.observer_ne_absent {event : ControlEvent} (h : ControlMove s event t) :
    t.observer = .absent → s.observer = .absent := by
  cases h with
  | joined exit _ _ | published terminal _ | aborted _ =>
    exact fun habsent => absurd habsent (by simp)
  | _ => exact id

theorem Watched.step (h : Watched s) {event : ServerEvent} (hstep : s.step event = some t) :
    Watched t := by
  cases move_of_step hstep with
  | supervisor _ hmove => exact h.supervisorMove hmove
  | loop _ hloop hmove =>
    have hsame := hmove.sameSupervision
    rw [Watched, hsame.mode, hsame.observer, hsame.token, hsame.supervisor]
    exact h
  | connection _ htask hmove =>
    have hsame := sameSupervision_of_connectionStep hmove
    rw [Watched, hsame.mode, hsame.observer, hsame.token, hsame.supervisor]
    exact h
  | control _ hmove =>
    have hsame := hmove.sameTasks
    rw [Watched, hsame.mode, hsame.token, hsame.supervisor]
    exact fun hmode habsent => h hmode (hmove.observer_ne_absent habsent)

/-- The outcome of a run that has ended is published, unless the observer was aborted. -/
theorem Quiescent.published (h : Quiescent s) (hwatched : Watched s) (hpublished : Published s)
    (htoken : s.token = true) (hmode : s.mode = .spawned) {exit : SupervisorExit}
    (hexit : s.supervisor = .ended exit) :
    s.terminal = some (classifySupervisorResult exit) ∨ s.observer = .aborted := by
  have houtcome := hpublished.outcome
  cases hobserver : s.observer with
  | absent =>
    have hfalse := (hwatched hmode hobserver).1
    exact absurd (hfalse.symm.trans htoken) Bool.false_ne_true
  | joining =>
    have hnone : s.controlStep .join = none := h (.control .join) rfl
    simp only [controlStep, hobserver, hexit] at hnone
    cases hnone
  | publishing terminal =>
    have hnone : s.controlStep .publish = none := h (.control .publish) rfl
    simp only [controlStep, hobserver] at hnone
    cases hnone
  | done =>
    rw [hobserver] at houtcome
    obtain ⟨exit', hexit', hsome⟩ := houtcome
    obtain rfl := SupervisorPoint.ended.inj (hexit.symm.trans hexit')
    exact Or.inl hsome
  | aborted => exact Or.inr rfl

/-! ## The results -/

/-- No step changes how the server was set up. -/
theorem settings_of_step {event : ServerEvent} (hstep : s.step event = some t) :
    t.mode = s.mode ∧ t.workers = s.workers ∧ t.backoff = s.backoff := by
  cases move_of_step hstep with
  | supervisor _ hmove =>
    generalize s.supervisor = point at hmove
    cases hmove with
    | recorded exit =>
      rw [recordDroppedCancellation]
      split <;> exact ⟨rfl, rfl, rfl⟩
    | _ => exact ⟨rfl, rfl, rfl⟩
  | loop _ hloop hmove =>
    have hsame := hmove.sameSupervision
    exact ⟨hsame.mode, hsame.workers, hsame.backoff⟩
  | connection _ htask hmove =>
    have hsame := sameSupervision_of_connectionStep hmove
    exact ⟨hsame.mode, hsame.workers, hsame.backoff⟩
  | control _ hmove =>
    have hsame := hmove.sameTasks
    exact ⟨hsame.mode, hsame.workers, hsame.backoff⟩

section Results

variable {mode : ServerMode} {workers : ℕ} {backoff : BackoffConfig} {events : List ServerEvent}

theorem supervised_of_exec (h : Trace.exec step (start mode workers backoff) events = some s) :
    Supervised s :=
  Trace.exec_invariant (fun _ _ _ hs => hs.step) (supervised_start mode workers backoff) h

theorem settings_of_exec (h : Trace.exec step (start mode workers backoff) events = some s) :
    s.mode = mode ∧ s.workers = workers ∧ s.backoff = backoff := by
  have hkeep : ∀ u event v, (u.mode = mode ∧ u.workers = workers ∧ u.backoff = backoff) →
      step u event = some v → v.mode = mode ∧ v.workers = workers ∧ v.backoff = backoff := by
    intro u event v hu hstep
    obtain ⟨h₁, h₂, h₃⟩ := settings_of_step hstep
    exact ⟨h₁.trans hu.1, h₂.trans hu.2.1, h₃.trans hu.2.2⟩
  have hlast := Trace.exec_invariant hkeep ⟨rfl, rfl, rfl⟩ h
  exact hlast

/-! ### Back-off delays -/

/-- **Back-off.**  Whenever a loop sleeps, its last attempts have failed, say `k + 1` in a row, and
it sleeps for the initial delay doubled `k` times, at most the longest delay and never less than a
millisecond. -/
theorem sleeping_delay (h : Trace.exec step (start mode workers backoff) events = some s)
    {loop : AcceptLoop} (hloop : loop ∈ s.loops) {delay : ℕ} (hpoint : loop.point = .sleeping delay) :
    ∃ k, trailingFailures loop.attempts = k + 1 ∧
      delay = min (backoff.normalized.initialDelay * 2 ^ k) backoff.normalized.maxDelay ∧
      10 ^ 6 ≤ delay := by
  have hpaced := (supervised_of_exec h).paced loop hloop
  obtain ⟨point, attempts⟩ := loop
  obtain rfl : point = .sleeping delay := hpoint
  rw [(settings_of_exec h).2.2] at hpaced
  obtain ⟨k, hk, rfl⟩ := hpaced
  exact ⟨k, hk, rfl, backoff.minDelay_le_delayAfter k⟩

/-- A server whose only loop has failed twice. -/
def failingRun : List ServerEvent :=
  [.supervisor (.prepared (.ok ())), .supervisor .spawnLoop, .loop 0 .pollToken,
    .loop 0 (.pollAccept (some .failed)), .loop 0 .wake, .loop 0 .pollToken,
    .loop 0 (.pollAccept (some .failed))]

theorem sleeping_delay_failingRun :
    ∃ s, Trace.exec step (start .spawned 1 .default) failingRun = some s ∧
      ∃ loop ∈ s.loops, loop.point = .sleeping 20000000 ∧
        ∃ k, trailingFailures loop.attempts = k + 1 ∧
          20000000 = min (BackoffConfig.default.normalized.initialDelay * 2 ^ k)
            BackoffConfig.default.normalized.maxDelay ∧ 10 ^ 6 ≤ 20000000 := by
  have hview : (Trace.exec step (start .spawned 1 .default) failingRun).map (·.loops) =
      some [⟨.sleeping 20000000, [.failed, .failed]⟩] := by decide
  obtain ⟨s, hs, hloops⟩ := Option.map_eq_some_iff.mp hview
  have hmem : ⟨.sleeping 20000000, [.failed, .failed]⟩ ∈ s.loops := by
    rw [hloops]
    exact List.mem_singleton_self _
  exact ⟨s, hs, _, hmem, rfl, sleeping_delay hs hmem rfl⟩

/-! ### Stopping -/

/-- **A server does not stop by itself.**  As long as the longest delay can be doubled, a server
with an accept loop returns `Ok` only after a stop was requested. -/
theorem requested_of_returned (h : Trace.exec step (start mode workers backoff) events = some s)
    (hworkers : 0 < workers)
    (hdelay : backoff.normalized.maxDelay * 2 ≤ BackoffConfig.durationMax)
    (hreturned : s.supervisor = .ended (.returned (.ok ()))) : s.stopRequested = true := by
  have hlifecycle := (supervised_of_exec h).lifecycle
  obtain ⟨-, hsettings, hbackoff⟩ := settings_of_exec h
  have hstage := hlifecycle.stage
  rw [hreturned] at hstage
  rcases hstage rfl with hstop | hfinished
  · exact hstop
  · have hcause := (hlifecycle.unprompted hfinished).2.2
    rw [hsettings, hbackoff] at hcause
    omega

theorem requested_of_returned_stoppedRun :
    ∃ s, Trace.exec step (start .spawned 1 .default) stoppedRun = some s ∧
      s.supervisor = .ended (.returned (.ok ())) ∧ s.stopRequested = true := by
  have hview : (Trace.exec step (start .spawned 1 .default) stoppedRun).map (·.supervisor) =
      some (.ended (.returned (.ok ()))) := rfl
  obtain ⟨s, hs, hended⟩ := Option.map_eq_some_iff.mp hview
  exact ⟨s, hs, hended, requested_of_returned hs (by decide) (by decide) hended⟩

/-- **One reason.**  The server records at most one cancellation, and every accept loop that
reports why it stopped reports that one.  The one exception is a panic of a supervisor in a task of
its own: its loops report a drop that nobody has recorded. -/
theorem loopExits_agree (h : Trace.exec step (start mode workers backoff) events = some s) :
    s.cancellations.length ≤ 1 ∧ ∀ reason ∈ s.loopExits, s.cancellations = [reason] ∨
      (mode = .spawned ∧ (∃ message, .supervisor (.panic message) ∈ events) ∧
        s.cancellations = [] ∧ reason = .dropped) := by
  have hlifecycle := (supervised_of_exec h).lifecycle
  have hmode := (settings_of_exec h).1
  have hrecorded := hlifecycle.recorded
  refine ⟨?_, fun reason hreason => ?_⟩
  · rw [hrecorded]
    cases s.state <;> decide
  · obtain ⟨htoken, hcause⟩ := hlifecycle.exits reason hreason
    have hforeground := hlifecycle.foreground
    rw [hrecorded, hcause]
    rw [hmode] at hforeground
    cases hstate : s.state with
    | graceful | dropped => exact Or.inl rfl
    | running =>
      right
      cases hm : mode with
      | foreground => exact absurd hstate (hforeground hm htoken)
      | spawned =>
        -- nothing is recorded, so the token was cancelled in the clean-up after a panic
        rcases (explained_of_exec h).panicked with hpanic | hundisturbed
        · exact ⟨rfl, hpanic, rfl, rfl⟩
        · exact absurd hstate (hundisturbed.recorded htoken)
    | finished =>
      rw [(hlifecycle.unprompted hstate).2.1] at hreason
      exact absurd hreason List.not_mem_nil

/-- A foreground server with one loop whose future is dropped. -/
def droppedRun : List ServerEvent :=
  [.supervisor (.prepared (.ok ())), .supervisor .spawnLoop, .supervisor .ready,
    .supervisor .abandon, .supervisor .guardRecords, .supervisor .cancelToken, .loop 0 .pollToken,
    .loop 0 .exit]

theorem loopExits_agree_droppedRun :
    ∃ s, Trace.exec step (start .foreground 1 .default) droppedRun = some s ∧
      s.loopExits = [.dropped] ∧ s.cancellations.length ≤ 1 ∧ ∀ reason ∈ s.loopExits,
        s.cancellations = [reason] ∨
          (ServerMode.foreground = .spawned ∧
            (∃ message, .supervisor (.panic message) ∈ droppedRun) ∧
            s.cancellations = [] ∧ reason = .dropped) := by
  have hview : (Trace.exec step (start .foreground 1 .default) droppedRun).map (·.loopExits) =
      some [.dropped] := rfl
  obtain ⟨s, hs, hexits⟩ := Option.map_eq_some_iff.mp hview
  exact ⟨s, hs, hexits, loopExits_agree hs⟩

/-- **Late connections.**  After the token was cancelled each accept loop accepts at most one more
connection, so at most as many are accepted as there are loops. -/
theorem lateLoops_le_workers (h : Trace.exec step (start mode workers backoff) events = some s) :
    s.lateLoops.Nodup ∧ s.lateLoops.length ≤ workers := by
  have hpunctual : Punctual s :=
    Trace.exec_invariant (fun _ _ _ hs => hs.step) (punctual_start mode workers backoff) h
  have hbounded := (supervised_of_exec h).lifecycle.bounded
  rw [(settings_of_exec h).2.1] at hbounded
  refine ⟨hpunctual.nodup, ?_⟩
  have hsubset : s.lateLoops ⊆ List.range workers := by
    intro w hw
    obtain ⟨-, loop, hget, -⟩ := hpunctual.past w hw
    have hlt := (List.getElem?_eq_some_iff.mp hget).1
    exact List.mem_range.mpr (by omega)
  have hlength := (List.subperm_of_subset hpunctual.nodup hsubset).length_le
  rwa [List.length_range] at hlength

/-- A server with two loops, one of which is about to accept when the token is cancelled. -/
def lateRun : List ServerEvent :=
  [.supervisor (.prepared (.ok ())), .supervisor .spawnLoop, .supervisor .spawnLoop,
    .supervisor .ready, .loop 1 .pollToken, .control .stop, .supervisor .shutdown,
    .supervisor .cancelToken, .loop 1 (.pollAccept (some .connection))]

theorem lateLoops_le_workers_lateRun :
    ∃ s, Trace.exec step (start .spawned 2 .default) lateRun = some s ∧ s.lateLoops = [1] ∧
      s.lateLoops.Nodup ∧ s.lateLoops.length ≤ 2 := by
  have hview : (Trace.exec step (start .spawned 2 .default) lateRun).map (·.lateLoops) =
      some [1] := rfl
  obtain ⟨s, hs, hlate⟩ := Option.map_eq_some_iff.mp hview
  exact ⟨s, hs, hlate, lateLoops_le_workers hs⟩

/-! ### Completion -/

/-- **A shutdown completes.**  Once the token is cancelled, the server's own tasks take at most six
steps per loop, three per connection and seven more, whatever its callers do meanwhile; and when
none of them can go on, no loop and no connection is left, the supervisor has ended, and a server in
a task of its own has published how, unless its observer was aborted. -/
theorem shutdown_completes (h : Trace.exec step (start mode workers backoff) events = some s)
    (htoken : s.token = true) {more : List ServerEvent} (hmore : Trace.exec step s more = some t) :
    more.countP ServerEvent.isOwn ≤ 6 * workers + 3 * s.connections.length + 7 ∧
      (Quiescent t → (∀ loop ∈ t.loops, loop.isLive = false) ∧
        (∀ task ∈ t.connections, task.isLive = false) ∧
        ∃ exit, t.supervisor = .ended exit ∧ (mode = .spawned →
          t.terminal = some (classifySupervisorResult exit) ∨ t.observer = .aborted)) := by
  have hstopping : Stopping s := ⟨supervised_of_exec h, htoken⟩
  have hwhole : Trace.exec step (start mode workers backoff) (events ++ more) = some t := by
    rw [Trace.exec_append, h]
    exact hmore
  have hrank := TaskTable.exec_add_rank_le (Q := ServerEvent.isOwn) (fun _ _ _ hs => hs.step)
    (fun _ _ _ hs => hs.rank_le) hstopping hmore
  have hbound := rank_le hstopping.supervised.lifecycle
  rw [(settings_of_exec h).2.1] at hbound
  refine ⟨by omega, fun hquiet => ?_⟩
  have hlast : Stopping t := Trace.exec_invariant (fun _ _ _ hs => hs.step) hstopping hmore
  obtain ⟨exit, hexit⟩ := hquiet.ended hlast
  refine ⟨fun loop => hquiet.loop_dead, fun task => hquiet.connection_dead, exit, hexit,
    fun hmode => ?_⟩
  have hwatched : Watched t := Trace.exec_invariant (fun _ _ _ hs => hs.step)
    (watched_start mode workers backoff) hwhole
  exact hquiet.published hwatched (published_of_exec hwhole) hlast.token
    ((settings_of_exec hwhole).1.trans hmode) hexit

/-- The two parts of a run: up to the cancelled token, and from there to the published outcome. -/
theorem shutdown_completes_stoppedRun :
    ∃ s t, Trace.exec step (start .spawned 1 .default) (stoppedRun.take 9) = some s ∧
      s.token = true ∧ Trace.exec step s (stoppedRun.drop 9) = some t ∧ Quiescent t ∧
      (stoppedRun.drop 9).countP ServerEvent.isOwn ≤ 6 * 1 + 3 * s.connections.length + 7 ∧
      ∃ exit, t.supervisor = .ended exit ∧
        (t.terminal = some (classifySupervisorResult exit) ∨ t.observer = .aborted) := by
  have hview : (Trace.exec step (start .spawned 1 .default) (stoppedRun.take 9)).map (·.token) =
      some true := rfl
  obtain ⟨s, hs, htoken⟩ := Option.map_eq_some_iff.mp hview
  have hlast : (Trace.exec step (start .spawned 1 .default) stoppedRun).map
      (fun t => (t.supervisor, t.observer, t.loops.map (·.isLive), t.connections.map (·.isLive))) =
      some (.ended (.returned (.ok ())), .done, [false], [false]) := rfl
  obtain ⟨t, ht, hfields⟩ := Option.map_eq_some_iff.mp hlast
  obtain ⟨hended, hrest⟩ := Prod.mk.inj hfields
  obtain ⟨hdone, hrest⟩ := Prod.mk.inj hrest
  obtain ⟨hloops, hconnections⟩ := Prod.mk.inj hrest
  have hmore : Trace.exec step s (stoppedRun.drop 9) = some t := by
    refine Trace.exec_append_eq_some ?_ hs
    rwa [List.take_append_drop]
  have hquiet : Quiescent t := by
    refine quiescent_of_dead (fun loop hmem => ?_) (fun task hmem => ?_) hended hdone
    · have := List.mem_map_of_mem (f := AcceptLoop.isLive) hmem
      rw [hloops] at this
      exact List.mem_singleton.mp this
    · have := List.mem_map_of_mem (f := ConnectionTask.isLive) hmem
      rw [hconnections] at this
      exact List.mem_singleton.mp this
  obtain ⟨hcount, hrest⟩ := shutdown_completes hs htoken hmore
  obtain ⟨-, -, exit, hexit, hpublished⟩ := hrest hquiet
  exact ⟨s, t, hs, htoken, hmore, hquiet, hcount, exit, hexit, hpublished rfl⟩

end Results

end Server

end Wireframe
