/-
# The pool scheduler and its callers

One scheduler task serves a pool (`src/client/pool/scheduler/actor.rs`): it owns the waiter
queues, takes commands from a mailbox, reserves slot permits and answers each acquisition on
its reply channel.  Callers (`scheduler/handle.rs`), lease drops and `close`
(`client_pool.rs`) run beside it.

The task's code is cut at every access to something the others can change: a semaphore, a
reply channel, the lifecycle, the shutdown flag or the mailbox.  `TaskPoint` is where the
task stands between two such accesses, `taskStep` is the next one, and an event of
`PoolSystem.step` is one step of the task or of anyone else.

Tokio's parts behave as documented: a released permit goes to a queued waiter first and is
free otherwise, a dropped `acquire` gives back what it was assigned, a `oneshot` sender is
used once, and a closed mailbox refuses new commands and keeps those already sent.  A parked
task is woken when one of the things it waits for is ready.
-/
import Mathlib.Tactic
import Wireframe.MachineWord
import Wireframe.PoolSlot
import Wireframe.SchedulerState

namespace Wireframe

/-! ## Shared state -/

/-- Lifecycle of the scheduler task behind one pool. -/
inductive SchedulerLifecycle where
  | running
  | closed
  | failed
  deriving DecidableEq, Repr

namespace SchedulerLifecycle

/-- Publish an orderly closure without overwriting an earlier failure. -/
def markClosed : SchedulerLifecycle → SchedulerLifecycle
  | .running => .closed
  | .closed => .closed
  | .failed => .failed

/-- Typed error describing why a refused acquisition cannot proceed. -/
def closeError : SchedulerLifecycle → ClientError
  | .failed => .schedulerFailed
  | .running | .closed => .poolClosed

end SchedulerLifecycle

abbrev SlotIndex := ℕ

/-- The permit race's place in a semaphore's queue. -/
inductive RaceWaiter where
  | absent
  | queued
  | assigned
  deriving DecidableEq, Repr

/-- A slot's admission semaphore; the task runs one race at a time, so it has at most one
queued waiter. -/
structure Semaphore where
  free : ℕ
  waiter : RaceWaiter
  deriving DecidableEq, Repr

namespace Semaphore

/-- A permit comes back: a queued waiter is served first. -/
def release (sem : Semaphore) : Semaphore :=
  match sem.waiter with
  | .queued => { sem with waiter := .assigned }
  | .absent | .assigned => { sem with free := sem.free + 1 }

def tryAcquire (sem : Semaphore) : Option Semaphore :=
  if 0 < sem.free then some { sem with free := sem.free - 1 } else none

/-- The race's `acquire` is dropped: an assigned permit comes back. -/
def dropWaiter (sem : Semaphore) : Semaphore :=
  match sem.waiter with
  | .assigned => ⟨sem.free + 1, .absent⟩
  | .absent | .queued => ⟨sem.free, .absent⟩

end Semaphore

/-- One message delivered to the pool scheduler task. -/
inductive SchedulerCommand where
  | acquire (handleId : HandleId) (reply : AcquireId)
  | deregisterHandle (handleId : HandleId)
  deriving DecidableEq, Repr

/-- The reply sender a command carries. -/
def SchedulerCommand.reply? : SchedulerCommand → Option AcquireId
  | .acquire _ reply => some reply
  | .deregisterHandle _ => none

/-- How far one call of `acquire` has come; a call that waits shares its reply channel with
the scheduler. -/
inductive Acquisition where
  | unused
  /-- the scheduler was seen running, the command is not sent yet -/
  | sending (handleId : HandleId)
  /-- the command is sent and the reply channel is empty -/
  | waiting
  /-- a lease is in the reply channel -/
  | leased (slot : SlotIndex)
  /-- an error is in the reply channel -/
  | refused (err : ClientError)
  /-- the sender was dropped without an outcome -/
  | abandoned
  | returned (result : Except ClientError SlotIndex)
  /-- the caller's future was dropped -/
  | cancelled
  deriving DecidableEq

/-- The in-flight race for slot capacity. -/
inductive PendingGrant where
  /-- not polled yet -/
  | started
  /-- queued on every slot's semaphore -/
  | racing
  deriving DecidableEq, Repr

/-- Where the scheduler task stands. -/
inductive TaskPoint where
  /-- the head of the loop -/
  | top
  /-- the three arms of the biased `select!` -/
  | pollShutdown
  | pollPermit
  | pollCommand
  /-- no arm was ready -/
  | parked
  /-- inside the race: slots still to probe -/
  | probing (slots : List SlotIndex)
  /-- inside the race: slots whose queue is still to be entered -/
  | entering (slots : List SlotIndex)
  /-- the race holds a permit -/
  | raceWon (slot : SlotIndex)
  /-- `on_permit_won` -/
  | wonTake (slot : SlotIndex)
  /-- `handle_acquire` -/
  | acquiring (handleId : HandleId) (reply : AcquireId)
  | enqueueing (handleId : HandleId) (reply : AcquireId)
  /-- `grant_sweep` -/
  | sweepCheck
  | sweepStart
  | sweepProbe (slots : List SlotIndex)
  | sweepGot (slot : SlotIndex)
  | sweepTake (slot : SlotIndex)
  /-- `deliver` -/
  | deliver (waiter : AcquireId) (slot : SlotIndex)
  /-- `fail_on_race_error` -/
  | failing
  /-- `drain_for_shutdown` -/
  | drainQueue
  | drainMailbox
  | ended
  deriving DecidableEq, Repr

/-- The permit the task holds in a local variable. -/
def TaskPoint.permit : TaskPoint → Option SlotIndex
  | .raceWon slot | .wonTake slot | .sweepGot slot | .sweepTake slot | .deliver _ slot => some slot
  | _ => none

/-- The reply sender the task holds in a local variable. -/
def TaskPoint.reply : TaskPoint → Option AcquireId
  | .acquiring _ reply | .enqueueing _ reply | .deliver reply _ => some reply
  | _ => none

/-- How many times `x` is what a local variable holds. -/
def inHand (held : Option ℕ) (x : ℕ) : ℕ := if held = some x then 1 else 0

@[simp] theorem inHand_none (x : ℕ) : inHand none x = 0 := rfl

@[simp] theorem inHand_some (y x : ℕ) : inHand (some y) x = if y = x then 1 else 0 := by
  simp [inHand]

/-- The pool core, the scheduler task and the callers.  `answered` records every outcome
given to a call, and `leases` the leases that are alive, in a reply channel or with their
caller. -/
structure PoolSystem where
  size : ℕ
  admission : WaiterAdmission
  slots : SlotIndex → Semaphore
  nextSlot : ℕ
  shutdown : Bool
  lifecycle : SchedulerLifecycle
  mailbox : List SchedulerCommand
  mailboxOpen : Bool
  handlesAlive : Bool
  calls : AcquireId → Acquisition
  answered : List AcquireId
  leases : List (AcquireId × SlotIndex)
  state : SchedulerState
  pending : Option PendingGrant
  point : TaskPoint

namespace PoolSystem

/-- A pool as `connect_pool` leaves it, before the task's first step. -/
def new (size maxInFlightPerSocket : ℕ) (admission : WaiterAdmission) : PoolSystem where
  size := size
  admission := admission
  slots := fun _ => ⟨maxInFlightPerSocket, .absent⟩
  nextSlot := 0
  shutdown := false
  lifecycle := .running
  mailbox := []
  mailboxOpen := true
  handlesAlive := true
  calls := fun _ => .unused
  answered := []
  leases := []
  state := .new
  pending := none
  point := .top

/-! ## The pool core -/

section Core

variable (s : PoolSystem)

def setSlot (slot : SlotIndex) (sem : Semaphore) : PoolSystem :=
  { s with slots := Function.update s.slots slot sem }

/-- A permit of `slot` is dropped. -/
def releasePermit (slot : SlotIndex) : PoolSystem :=
  s.setSlot slot (s.slots slot).release

/-- The race's futures are dropped. -/
def dropRace : PoolSystem :=
  { s with slots := fun slot => (s.slots slot).dropWaiter }

/-- Reduce a raw cursor into a valid first slot index for `len` slots. -/
def rotationStart (len cursor : ℕ) : SlotIndex := if len = 0 then 0 else cursor % len

/-- Visit every slot index once, starting at `start` and wrapping once. -/
def rotationIndices (len start : ℕ) : List SlotIndex :=
  (List.range len).map fun offset => (start + offset) % max len 1

/-- The slots in rotation order; the cursor has moved on when the attempt starts. -/
def orderedSlotIndices : List SlotIndex :=
  rotationIndices s.size (rotationStart s.size s.nextSlot)

def advanceCursor : PoolSystem := { s with nextSlot := (s.nextSlot + 1) % (usizeMax + 1) }

/-- Some slot has assigned a permit to the race. -/
def raceReady : Bool := (List.range s.size).any fun slot => (s.slots slot).waiter == .assigned

end Core

/-! ## Reply channels -/

section Replies

variable (s : PoolSystem)

/-- `is_closed`: the receiver of the reply channel is gone. -/
def isClosed (a : AcquireId) : Bool := s.calls a == .cancelled

/-- `reply.send`: the outcome reaches the channel unless the receiver is gone. -/
def send (a : AcquireId) (outcome : Acquisition) : PoolSystem :=
  if s.isClosed a then s
  else { s with calls := Function.update s.calls a outcome, answered := s.answered ++ [a] }

/-- Senders dropped without an outcome. -/
def dropSenders (senders : List AcquireId) : PoolSystem :=
  { s with
    calls := fun a => if a ∈ senders ∧ s.isClosed a = false then .abandoned else s.calls a
    answered := s.answered ++ senders.filter fun a => !s.isClosed a }

/-- The queues become `state`; the senders that are neither kept nor handed out are dropped. -/
def setState (state : SchedulerState) (taken : Option AcquireId) : PoolSystem :=
  { s with state := state }.dropSenders
    (s.state.senders.filter fun a => a ∉ state.senders ∧ taken ≠ some a)

def hasLiveWaiters : Bool := s.state.hasLiveWaiters s.isClosed

end Replies

/-! ## The scheduler task -/

section Task

variable (s : PoolSystem)

def goto (point : TaskPoint) : PoolSystem := { s with point := point }

/-- The race ended without a permit (`fail_on_race_error`). -/
def failOnRaceError : PoolSystem :=
  { s with
    pending := none
    lifecycle := if s.lifecycle = .running then .failed else s.lifecycle
    point := .failing }

/-- Take the next waiter; `found` is told who it is, and `otherwise` that there is none. -/
def takeWaiter (found : AcquireId → PoolSystem → PoolSystem) (otherwise : PoolSystem → PoolSystem) :
    PoolSystem :=
  match s.state.takeNextWaiter s.isClosed s.admission.fairnessPolicy with
  | (some waiter, state) => found waiter (s.setState state (some waiter))
  | (none, state) => otherwise (s.setState state none)

/-- Build a lease and send it, releasing it when the caller is gone. -/
def deliver (waiter : AcquireId) (slot : SlotIndex) : PoolSystem :=
  if slot < s.size then
    if s.isClosed waiter then s.releasePermit slot
    else { s.send waiter (.leased slot) with leases := s.leases ++ [(waiter, slot)] }
  else (s.send waiter (.refused .schedulerFailed)).releasePermit slot

/-- The task returns: the race, the queues and the mailbox are dropped with it. -/
def finish : PoolSystem :=
  let s := s.dropRace
  let s := s.setState .new none
  let s := s.dropSenders (s.mailbox.filterMap SchedulerCommand.reply?)
  { s with pending := none, mailbox := [], mailboxOpen := false, point := .ended }

/-- Something a parked task waits for is ready. -/
def Woken : Prop :=
  s.shutdown = true ∨ s.pending = some .started ∨
    (s.pending = some .racing ∧ s.raceReady = true) ∨ s.mailbox ≠ [] ∨
    s.handlesAlive = false ∨ s.mailboxOpen = false

instance : Decidable s.Woken :=
  inferInstanceAs (Decidable (_ ∨ _ ∨ (_ ∧ _) ∨ _ ∨ _ ∨ _))

/-- One step of the task.  `choice` is the slot whose future the race polls next, where the
order is not specified. -/
def taskStep (choice : SlotIndex) : Option PoolSystem :=
  match s.point with
  | .top =>
    if s.pending = none ∧ s.hasLiveWaiters then
      some { s with pending := some .started, point := .pollShutdown }
    else some (s.goto .pollShutdown)
  | .pollShutdown =>
    if s.shutdown then some { s with lifecycle := s.lifecycle.markClosed, point := .drainQueue }
    else some (s.goto .pollPermit)
  | .pollPermit =>
    match s.pending with
    | none => some (s.goto .pollCommand)
    | some .started =>
      if s.shutdown ∨ s.size = 0 then some s.failOnRaceError
      else some (s.advanceCursor.goto (.probing s.orderedSlotIndices))
    | some .racing =>
      if s.raceReady then
        if choice < s.size ∧ (s.slots choice).waiter = .assigned then
          some { (s.setSlot choice ⟨(s.slots choice).free, .absent⟩).dropRace with
            pending := none, point := .raceWon choice }
        else none
      else some (s.goto .pollCommand)
  | .probing [] => some (s.goto (.entering (List.range s.size)))
  | .probing (slot :: rest) =>
    match (s.slots slot).tryAcquire with
    | some sem => some { s.setSlot slot sem with pending := none, point := .raceWon slot }
    | none => some (s.goto (.probing rest))
  | .entering [] => some { s with pending := some .racing, point := .pollCommand }
  | .entering (slot :: rest) =>
    if choice ∈ slot :: rest then
      match (s.slots choice).tryAcquire with
      | some sem =>
        some { (s.setSlot choice sem).dropRace with pending := none, point := .raceWon choice }
      | none =>
        some ((s.setSlot choice { s.slots choice with waiter := .queued }).goto
          (.entering ((slot :: rest).erase choice)))
    else none
  | .raceWon slot =>
    if s.shutdown then some (s.releasePermit slot).failOnRaceError
    else some (s.goto (.wonTake slot))
  | .wonTake slot =>
    some (s.takeWaiter (fun waiter s => s.goto (.deliver waiter slot))
      (fun s => (s.releasePermit slot).goto .sweepCheck))
  | .pollCommand =>
    match s.mailbox with
    | .acquire handleId reply :: rest =>
      some ({ s with mailbox := rest }.goto (.acquiring handleId reply))
    | .deregisterHandle handleId :: rest =>
      some (({ s with mailbox := rest }.setState (s.state.deregisterHandle handleId) none).goto .top)
    | [] =>
      if s.handlesAlive ∧ s.mailboxOpen then some (s.goto .parked)
      else some { s with lifecycle := s.lifecycle.markClosed }.finish
  | .parked => if s.Woken then some (s.goto .pollShutdown) else none
  | .acquiring handleId reply =>
    if s.lifecycle = .running then some (s.goto (.enqueueing handleId reply))
    else some ((s.send reply (.refused s.lifecycle.closeError)).goto .top)
  | .enqueueing handleId reply =>
    match s.state.enqueueWaiter s.isClosed handleId reply s.admission with
    | (.enqueued, state) => some ((s.setState state none).goto .sweepCheck)
    | (.saturated rejected, state) =>
      some (((s.setState state (some rejected)).send rejected
        (.refused (.poolSaturated s.admission.maxWaiters))).goto .top)
  | .sweepCheck => if s.hasLiveWaiters then some (s.goto .sweepStart) else some (s.goto .top)
  | .sweepStart =>
    if s.shutdown then some (s.goto .top)
    else some (s.advanceCursor.goto (.sweepProbe s.orderedSlotIndices))
  | .sweepProbe [] => some (s.goto .top)
  | .sweepProbe (slot :: rest) =>
    match (s.slots slot).tryAcquire with
    | some sem => some ((s.setSlot slot sem).goto (.sweepGot slot))
    | none => some (s.goto (.sweepProbe rest))
  | .sweepGot slot =>
    if s.shutdown then some ((s.releasePermit slot).goto .top)
    else some (s.goto (.sweepTake slot))
  | .sweepTake slot =>
    some (s.takeWaiter (fun waiter s => s.goto (.deliver waiter slot))
      (fun s => (s.releasePermit slot).goto .top))
  | .deliver waiter slot => some ((s.deliver waiter slot).goto .sweepCheck)
  | .failing =>
    some (s.takeWaiter (fun waiter s => s.send waiter (.refused s.lifecycle.closeError))
      (fun s => { s with mailboxOpen := false }.goto .top))
  | .drainQueue =>
    some (s.takeWaiter (fun waiter s => s.send waiter (.refused .poolClosed))
      (fun s => { s with mailboxOpen := false }.goto .drainMailbox))
  | .drainMailbox =>
    match s.mailbox with
    | .acquire _ reply :: rest =>
      some (({ s with mailbox := rest }.goto .drainMailbox).send reply (.refused .poolClosed))
    | .deregisterHandle _ :: rest => some ({ s with mailbox := rest }.goto .drainMailbox)
    | [] => some s.finish
  | .ended => none

end Task

end PoolSystem

/-! ## Events -/

/-- What can happen next: a step of the task, of a caller or of `close`. -/
inductive PoolEvent where
  /-- a call of `acquire` reads the lifecycle -/
  | acquireStarted (a : AcquireId) (handleId : HandleId)
  /-- it sends its command -/
  | acquireSent (a : AcquireId)
  /-- it returns what its reply channel holds -/
  | acquireReturned (a : AcquireId)
  /-- its future is dropped -/
  | acquireCancelled (a : AcquireId)
  /-- a lease is dropped by its caller -/
  | leaseReleased (a : AcquireId)
  /-- a logical session is dropped and asks to be forgotten -/
  | handleDropped (handleId : HandleId)
  /-- the last sender of the mailbox is dropped -/
  | handlesGone
  /-- `close` marks the lifecycle -/
  | closeMarked
  /-- `close` publishes shutdown -/
  | shutdownPublished
  /-- the scheduler task makes a step -/
  | task (choice : SlotIndex)
  deriving DecidableEq, Repr

namespace PoolSystem

/-- One event, when it can happen in this state. -/
def step (s : PoolSystem) : PoolEvent → Option PoolSystem
  | .acquireStarted a handleId =>
    if s.handlesAlive ∧ s.calls a = .unused then
      if s.lifecycle = .running then
        some { s with calls := Function.update s.calls a (.sending handleId) }
      else some (s.send a (.returned (.error s.lifecycle.closeError)))
    else none
  | .acquireSent a =>
    match s.calls a with
    | .sending handleId =>
      if s.mailboxOpen then
        some { s with
          calls := Function.update s.calls a .waiting
          mailbox := s.mailbox ++ [.acquire handleId a] }
      else some (s.send a (.returned (.error s.lifecycle.closeError)))
    | _ => none
  | .acquireReturned a =>
    match s.calls a with
    | .leased slot => some { s with calls := Function.update s.calls a (.returned (.ok slot)) }
    | .refused err => some { s with calls := Function.update s.calls a (.returned (.error err)) }
    | .abandoned =>
      some { s with
        calls := Function.update s.calls a (.returned (.error s.lifecycle.closeError)) }
    | _ => none
  | .acquireCancelled a =>
    match s.calls a with
    | .sending _ | .waiting | .refused _ | .abandoned =>
      some { s with calls := Function.update s.calls a .cancelled }
    | .leased slot =>
      -- the lease is dropped with the channel
      some ({ s with
        calls := Function.update s.calls a .cancelled
        leases := s.leases.erase (a, slot) }.releasePermit slot)
    | _ => none
  | .leaseReleased a =>
    match s.calls a with
    | .returned (.ok slot) =>
      if (a, slot) ∈ s.leases then
        some ({ s with leases := s.leases.erase (a, slot) }.releasePermit slot)
      else none
    | _ => none
  | .handleDropped handleId =>
    if s.handlesAlive then
      if s.mailboxOpen then some { s with mailbox := s.mailbox ++ [.deregisterHandle handleId] }
      else some s
    else none
  | .handlesGone => if s.handlesAlive then some { s with handlesAlive := false } else none
  | .closeMarked => some { s with lifecycle := s.lifecycle.markClosed }
  | .shutdownPublished =>
    -- `close` marks the lifecycle before it publishes shutdown
    if s.lifecycle = .running then none else some { s with shutdown := true }
  | .task choice => s.taskStep choice

end PoolSystem

end Wireframe
