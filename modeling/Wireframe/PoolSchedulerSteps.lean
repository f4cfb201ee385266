/-
# What a step of the scheduler task can do

`TaskStep` lists the steps of the task with what each of them found; the pure control moves
are kept apart in `Move`.  Every invariant of the scheduler is proved by cases on these
relations (`taskStep_cases`), never by unfolding `taskStep`.
-/
import Mathlib.Tactic
import Wireframe.PoolScheduler

namespace Wireframe

namespace PoolSystem

/-! ## What the task can do -/

/-- The control moves of the task, with what was checked. -/
inductive Move (s : PoolSystem) : TaskPoint → TaskPoint → Prop where
  | select (hrace : s.pending ≠ none ∨ s.hasLiveWaiters = false) : Move s .top .pollShutdown
  | noShutdown (hshutdown : s.shutdown = false) : Move s .pollShutdown .pollPermit
  | noRace (hpending : s.pending = none) : Move s .pollPermit .pollCommand
  | probe (hpending : s.pending = some .started) (hopen : ¬ (s.shutdown = true ∨ s.size = 0)) :
      Move s .pollPermit (.probing s.orderedSlotIndices)
  | notReady (hpending : s.pending = some .racing) (hready : s.raceReady = false) :
      Move s .pollPermit .pollCommand
  | probed : Move s (.probing []) (.entering (List.range s.size))
  | probeMiss {slot : SlotIndex} {rest : List SlotIndex} :
      Move s (.probing (slot :: rest)) (.probing rest)
  | won {slot : SlotIndex} (hshutdown : s.shutdown = false) : Move s (.raceWon slot) (.wonTake slot)
  | park (hmailbox : s.mailbox = []) (hopen : s.handlesAlive = true ∧ s.mailboxOpen = true) :
      Move s .pollCommand .parked
  | wake (hready : s.Woken) : Move s .parked .pollShutdown
  | stillRunning {handleId : HandleId} {reply : AcquireId} (hrunning : s.lifecycle = .running) :
      Move s (.acquiring handleId reply) (.enqueueing handleId reply)
  | sweepLive (hlive : s.hasLiveWaiters = true) : Move s .sweepCheck .sweepStart
  | sweepDone (hlive : s.hasLiveWaiters = false) : Move s .sweepCheck .top
  | sweepShutdown (hshutdown : s.shutdown = true) : Move s .sweepStart .top
  | sweep (hshutdown : s.shutdown = false) : Move s .sweepStart (.sweepProbe s.orderedSlotIndices)
  | sweepEmpty : Move s (.sweepProbe []) .top
  | sweepMiss {slot : SlotIndex} {rest : List SlotIndex} :
      Move s (.sweepProbe (slot :: rest)) (.sweepProbe rest)
  | got {slot : SlotIndex} (hshutdown : s.shutdown = false) : Move s (.sweepGot slot) (.sweepTake slot)

/-- The queues hand out `taken`, or nobody, and become `state`. -/
def Takes (s : PoolSystem) (taken : Option AcquireId) (state : SchedulerState) : Prop :=
  s.state.takeNextWaiter s.isClosed s.admission.fairnessPolicy = (taken, state)

/-- The steps of the task. -/
inductive TaskStep (s : PoolSystem) : PoolSystem → Prop where
  | moved {point : TaskPoint} (cursor : ℕ) (hmove : Move s s.point point) :
      TaskStep s { s with point := point, nextSlot := cursor }
  | raceStarted (hpoint : s.point = .top) (hpending : s.pending = none)
      (hlive : s.hasLiveWaiters = true) :
      TaskStep s { s with pending := some .started, point := .pollShutdown }
  | shutdownSeen (hpoint : s.point = .pollShutdown) (hshutdown : s.shutdown = true) :
      TaskStep s { s with lifecycle := s.lifecycle.markClosed, point := .drainQueue }
  | raceRefused (hpoint : s.point = .pollPermit) (hpending : s.pending = some .started)
      (hwhy : s.shutdown = true ∨ s.size = 0) : TaskStep s s.failOnRaceError
  | raceFinished {slot : SlotIndex} (hpoint : s.point = .pollPermit)
      (hpending : s.pending = some .racing) (hslot : slot < s.size)
      (hwaiter : (s.slots slot).waiter = .assigned) :
      TaskStep s { (s.setSlot slot ⟨(s.slots slot).free, .absent⟩).dropRace with
        pending := none, point := .raceWon slot }
  | probeHit {slot : SlotIndex} {rest : List SlotIndex} {sem : Semaphore}
      (hpoint : s.point = .probing (slot :: rest)) (hsem : (s.slots slot).tryAcquire = some sem) :
      TaskStep s { s.setSlot slot sem with pending := none, point := .raceWon slot }
  | entered (hpoint : s.point = .entering []) :
      TaskStep s { s with pending := some .racing, point := .pollCommand }
  | enterHit {slot : SlotIndex} {slots : List SlotIndex} {sem : Semaphore}
      (hpoint : s.point = .entering slots) (hslot : slot ∈ slots)
      (hsem : (s.slots slot).tryAcquire = some sem) :
      TaskStep s { (s.setSlot slot sem).dropRace with pending := none, point := .raceWon slot }
  | enterMiss {slot : SlotIndex} {slots : List SlotIndex} (hpoint : s.point = .entering slots)
      (hslot : slot ∈ slots) (hsem : (s.slots slot).tryAcquire = none) :
      TaskStep s ((s.setSlot slot { s.slots slot with waiter := .queued }).goto
        (.entering (slots.erase slot)))
  | wonTooLate {slot : SlotIndex} (hpoint : s.point = .raceWon slot)
      (hshutdown : s.shutdown = true) : TaskStep s (s.releasePermit slot).failOnRaceError
  | picked {slot : SlotIndex} {waiter : AcquireId} {state : SchedulerState}
      (hpoint : s.point = .wonTake slot ∨ s.point = .sweepTake slot)
      (htake : s.Takes (some waiter) state) :
      TaskStep s ((s.setState state (some waiter)).goto (.deliver waiter slot))
  | nobody {slot : SlotIndex} {next : TaskPoint} {state : SchedulerState}
      (hpoint : (s.point = .wonTake slot ∧ next = .sweepCheck) ∨
        (s.point = .sweepTake slot ∧ next = .top)) (htake : s.Takes none state) :
      TaskStep s (((s.setState state none).releasePermit slot).goto next)
  | received {handleId : HandleId} {reply : AcquireId} {rest : List SchedulerCommand}
      (hpoint : s.point = .pollCommand) (hmailbox : s.mailbox = .acquire handleId reply :: rest) :
      TaskStep s ({ s with mailbox := rest }.goto (.acquiring handleId reply))
  | forgot {handleId : HandleId} {rest : List SchedulerCommand} (hpoint : s.point = .pollCommand)
      (hmailbox : s.mailbox = .deregisterHandle handleId :: rest) :
      TaskStep s
        (({ s with mailbox := rest }.setState (s.state.deregisterHandle handleId) none).goto .top)
  | mailboxEnded (hpoint : s.point = .pollCommand) (hmailbox : s.mailbox = [])
      (hwhy : s.handlesAlive = false ∨ s.mailboxOpen = false) :
      TaskStep s { s with lifecycle := s.lifecycle.markClosed }.finish
  | refused {handleId : HandleId} {reply : AcquireId} (hpoint : s.point = .acquiring handleId reply)
      (hclosed : s.lifecycle ≠ .running) :
      TaskStep s ((s.send reply (.refused s.lifecycle.closeError)).goto .top)
  | queued {handleId : HandleId} {reply : AcquireId} {state : SchedulerState}
      (hpoint : s.point = .enqueueing handleId reply)
      (henqueue : s.state.enqueueWaiter s.isClosed handleId reply s.admission = (.enqueued, state)) :
      TaskStep s ((s.setState state none).goto .sweepCheck)
  | saturated {handleId : HandleId} {reply rejected : AcquireId} {state : SchedulerState}
      (hpoint : s.point = .enqueueing handleId reply)
      (henqueue : s.state.enqueueWaiter s.isClosed handleId reply s.admission =
        (.saturated rejected, state)) :
      TaskStep s (((s.setState state (some rejected)).send rejected
        (.refused (.poolSaturated s.admission.maxWaiters))).goto .top)
  | sweepHit {slot : SlotIndex} {rest : List SlotIndex} {sem : Semaphore}
      (hpoint : s.point = .sweepProbe (slot :: rest))
      (hsem : (s.slots slot).tryAcquire = some sem) :
      TaskStep s ((s.setSlot slot sem).goto (.sweepGot slot))
  | gotTooLate {slot : SlotIndex} (hpoint : s.point = .sweepGot slot)
      (hshutdown : s.shutdown = true) :
      TaskStep s ((s.releasePermit slot).goto .top)
  | delivered {waiter : AcquireId} {slot : SlotIndex} (hpoint : s.point = .deliver waiter slot) :
      TaskStep s ((s.deliver waiter slot).goto .sweepCheck)
  | dismissed {waiter : AcquireId} {state : SchedulerState} {err : ClientError}
      (hpoint : (s.point = .failing ∧ err = s.lifecycle.closeError) ∨
        (s.point = .drainQueue ∧ err = .poolClosed)) (htake : s.Takes (some waiter) state) :
      TaskStep s ((s.setState state (some waiter)).send waiter (.refused err))
  | emptied {next : TaskPoint} {state : SchedulerState}
      (hpoint : (s.point = .failing ∧ next = .top) ∨
        (s.point = .drainQueue ∧ next = .drainMailbox)) (htake : s.Takes none state) :
      TaskStep s ({ s.setState state none with mailboxOpen := false }.goto next)
  | drainedAcquire {handleId : HandleId} {reply : AcquireId} {rest : List SchedulerCommand}
      (hpoint : s.point = .drainMailbox) (hmailbox : s.mailbox = .acquire handleId reply :: rest) :
      TaskStep s
        (({ s with mailbox := rest }.goto .drainMailbox).send reply (.refused .poolClosed))
  | drainedDeregister {handleId : HandleId} {rest : List SchedulerCommand}
      (hpoint : s.point = .drainMailbox)
      (hmailbox : s.mailbox = .deregisterHandle handleId :: rest) :
      TaskStep s ({ s with mailbox := rest }.goto .drainMailbox)
  | drained (hpoint : s.point = .drainMailbox) (hmailbox : s.mailbox = []) : TaskStep s s.finish

/-! ### What is left alone -/

variable {s s' : PoolSystem}

/-- A reply touches the call it answers and the record of answers, nothing else. -/
theorem send_eq (s : PoolSystem) (a : AcquireId) (outcome : Acquisition) :
    ∃ calls answered, s.send a outcome = { s with calls := calls, answered := answered } := by
  rw [send]
  split_ifs
  · exact ⟨s.calls, s.answered, rfl⟩
  · exact ⟨_, _, rfl⟩

/-- Where the task stands, its queues and its race, and what `close` and the handles have
done: everything but the calls, the slots and the leases. -/
structure SameControl (s s' : PoolSystem) : Prop where
  size : s'.size = s.size
  point : s'.point = s.point
  pending : s'.pending = s.pending
  state : s'.state = s.state
  lifecycle : s'.lifecycle = s.lifecycle
  shutdown : s'.shutdown = s.shutdown
  handlesAlive : s'.handlesAlive = s.handlesAlive
  mailboxOpen : s'.mailboxOpen = s.mailboxOpen

theorem send_control (s : PoolSystem) (a : AcquireId) (outcome : Acquisition) :
    s.SameControl (s.send a outcome) := by
  obtain ⟨calls, answered, heq⟩ := s.send_eq a outcome
  rw [heq]
  constructor <;> rfl

theorem send_point (a : AcquireId) (outcome : Acquisition) : (s.send a outcome).point = s.point :=
  (s.send_control a outcome).point

theorem deliver_control (s : PoolSystem) (waiter : AcquireId) (slot : SlotIndex) :
    s.SameControl (s.deliver waiter slot) := by
  unfold deliver
  split_ifs
  · constructor <;> rfl
  · obtain ⟨calls, answered, heq⟩ := s.send_eq waiter (.leased slot)
    rw [heq]
    constructor <;> rfl
  · obtain ⟨calls, answered, heq⟩ := s.send_eq waiter (.refused .schedulerFailed)
    rw [heq]
    constructor <;> rfl

/-! ### Inversion -/

/-- A step that takes a waiter found one or found none. -/
theorem takeWaiter_cases {found : AcquireId → PoolSystem → PoolSystem}
    {otherwise : PoolSystem → PoolSystem} (h : s.takeWaiter found otherwise = s') :
    (∃ waiter state, s.Takes (some waiter) state ∧
        s' = found waiter (s.setState state (some waiter))) ∨
      ∃ state, s.Takes none state ∧ s' = otherwise (s.setState state none) := by
  rw [takeWaiter] at h
  split at h
  · rename_i waiter state htake
    exact Or.inl ⟨waiter, state, htake, h.symm⟩
  · rename_i state htake
    exact Or.inr ⟨state, htake, h.symm⟩

theorem TaskStep.of_move {p q : TaskPoint} (hpoint : s.point = p) (h : Move s p q) :
    s.TaskStep (s.goto q) := by
  subst hpoint
  exact .moved s.nextSlot h

/-- A move that also advances the cursor over the slots. -/
theorem TaskStep.of_move_cursor {p q : TaskPoint} (hpoint : s.point = p) (h : Move s p q) :
    s.TaskStep (s.advanceCursor.goto q) := by
  subst hpoint
  exact .moved _ h

/-- **Inversion**: a step of the task is one of the cases of `TaskStep`. -/
theorem taskStep_cases {choice : SlotIndex} (h : s.taskStep choice = some s') : s.TaskStep s' := by
  cases hpoint : s.point with simp only [taskStep, hpoint] at h
  | top =>
    rcases ite_eq_iff.mp h with ⟨hrace, ⟨⟩⟩ | ⟨hrace, ⟨⟩⟩
    · exact .raceStarted hpoint hrace.1 hrace.2
    · refine .of_move hpoint (.select ?_)
      rw [not_and_or] at hrace
      simpa using hrace
  | pollShutdown =>
    rcases ite_eq_iff.mp h with ⟨hshutdown, ⟨⟩⟩ | ⟨hshutdown, ⟨⟩⟩
    · exact .shutdownSeen hpoint hshutdown
    · exact .of_move hpoint (.noShutdown (by simpa using hshutdown))
  | pollPermit =>
    split at h
    · rename_i hpending
      cases h
      exact .of_move hpoint (.noRace hpending)
    · rename_i hpending
      rcases ite_eq_iff.mp h with ⟨hwhy, ⟨⟩⟩ | ⟨hopen, ⟨⟩⟩
      · exact .raceRefused hpoint hpending hwhy
      · exact .of_move_cursor hpoint (.probe hpending hopen)
    · rename_i hpending
      rcases ite_eq_iff.mp h with ⟨hready, h⟩ | ⟨hready, ⟨⟩⟩
      · rcases ite_eq_iff.mp h with ⟨hslot, ⟨⟩⟩ | ⟨_, ⟨⟩⟩
        exact .raceFinished hpoint hpending hslot.1 hslot.2
      · exact .of_move hpoint (.notReady hpending (by simpa using hready))
  | parked =>
    rcases ite_eq_iff.mp h with ⟨hready, ⟨⟩⟩ | ⟨_, ⟨⟩⟩
    exact .of_move hpoint (.wake hready)
  | pollCommand =>
    split at h
    · rename_i hmailbox
      cases h
      exact .received hpoint hmailbox
    · rename_i hmailbox
      cases h
      exact .forgot hpoint hmailbox
    · rename_i hmailbox
      rcases ite_eq_iff.mp h with ⟨hopen, ⟨⟩⟩ | ⟨hwhy, ⟨⟩⟩
      · exact .of_move hpoint (.park hmailbox hopen)
      · refine .mailboxEnded hpoint hmailbox ?_
        rw [not_and_or] at hwhy
        simpa using hwhy
  | probing slots =>
    cases slots with
    | nil =>
      simp only at h
      cases h
      exact .of_move hpoint .probed
    | cons slot rest =>
      simp only at h
      split at h
      · rename_i sem hsem
        cases h
        exact .probeHit hpoint hsem
      · cases h
        exact .of_move hpoint .probeMiss
  | entering slots =>
    cases slots with
    | nil =>
      simp only at h
      cases h
      exact .entered hpoint
    | cons slot rest =>
      simp only at h
      rcases ite_eq_iff.mp h with ⟨hslot, h⟩ | ⟨_, ⟨⟩⟩
      split at h
      · rename_i sem hsem
        cases h
        exact .enterHit hpoint hslot hsem
      · rename_i hsem
        cases h
        exact .enterMiss hpoint hslot hsem
  | raceWon slot =>
    rcases ite_eq_iff.mp h with ⟨hshutdown, ⟨⟩⟩ | ⟨hshutdown, ⟨⟩⟩
    · exact .wonTooLate hpoint hshutdown
    · exact .of_move hpoint (.won (by simpa using hshutdown))
  | acquiring handleId reply =>
    rcases ite_eq_iff.mp h with ⟨hrunning, ⟨⟩⟩ | ⟨hclosed, ⟨⟩⟩
    · exact .of_move hpoint (.stillRunning hrunning)
    · exact .refused hpoint hclosed
  | enqueueing handleId reply =>
    split at h
    · rename_i state henqueue
      cases h
      exact .queued hpoint henqueue
    · rename_i rejected state henqueue
      cases h
      exact .saturated hpoint henqueue
  | sweepCheck =>
    rcases ite_eq_iff.mp h with ⟨hlive, ⟨⟩⟩ | ⟨hlive, ⟨⟩⟩
    · exact .of_move hpoint (.sweepLive hlive)
    · exact .of_move hpoint (.sweepDone (by simpa using hlive))
  | sweepStart =>
    rcases ite_eq_iff.mp h with ⟨hshutdown, ⟨⟩⟩ | ⟨hshutdown, ⟨⟩⟩
    · exact .of_move hpoint (.sweepShutdown hshutdown)
    · exact .of_move_cursor hpoint (.sweep (by simpa using hshutdown))
  | sweepProbe slots =>
    cases slots with
    | nil =>
      simp only at h
      cases h
      exact .of_move hpoint .sweepEmpty
    | cons slot rest =>
      simp only at h
      split at h
      · rename_i sem hsem
        cases h
        exact .sweepHit hpoint hsem
      · cases h
        exact .of_move hpoint .sweepMiss
  | sweepGot slot =>
    rcases ite_eq_iff.mp h with ⟨hshutdown, ⟨⟩⟩ | ⟨hshutdown, ⟨⟩⟩
    · exact .gotTooLate hpoint hshutdown
    · exact .of_move hpoint (.got (by simpa using hshutdown))
  | deliver waiter slot =>
    cases h
    exact .delivered hpoint
  -- the steps that take the next waiter off the queues
  | wonTake slot =>
    rcases takeWaiter_cases (Option.some.inj h) with ⟨waiter, state, htake, rfl⟩ |
      ⟨state, htake, rfl⟩
    · exact .picked (Or.inl hpoint) htake
    · exact .nobody (Or.inl ⟨hpoint, rfl⟩) htake
  | sweepTake slot =>
    rcases takeWaiter_cases (Option.some.inj h) with ⟨waiter, state, htake, rfl⟩ |
      ⟨state, htake, rfl⟩
    · exact .picked (Or.inr hpoint) htake
    · exact .nobody (Or.inr ⟨hpoint, rfl⟩) htake
  | failing =>
    rcases takeWaiter_cases (Option.some.inj h) with ⟨waiter, state, htake, rfl⟩ |
      ⟨state, htake, rfl⟩
    · exact .dismissed (Or.inl ⟨hpoint, rfl⟩) htake
    · exact .emptied (Or.inl ⟨hpoint, rfl⟩) htake
  | drainQueue =>
    rcases takeWaiter_cases (Option.some.inj h) with ⟨waiter, state, htake, rfl⟩ |
      ⟨state, htake, rfl⟩
    · exact .dismissed (Or.inr ⟨hpoint, rfl⟩) htake
    · exact .emptied (Or.inr ⟨hpoint, rfl⟩) htake
  | drainMailbox =>
    split at h
    · rename_i hmailbox
      cases h
      exact .drainedAcquire hpoint hmailbox
    · rename_i hmailbox
      cases h
      exact .drainedDeregister hpoint hmailbox
    · rename_i hmailbox
      cases h
      exact .drained hpoint hmailbox
  | ended =>
    cases h

/-! ## What the others can do -/

/-- The steps of callers, leases and `close`. -/
inductive EnvStep (s : PoolSystem) : PoolSystem → Prop where
  | called {a : AcquireId} {handleId : HandleId} (hcall : s.calls a = .unused)
      (hrunning : s.lifecycle = .running) :
      EnvStep s { s with calls := Function.update s.calls a (.sending handleId) }
  | refusedEarly {a : AcquireId} (hcall : s.calls a = .unused ∨ ∃ h, s.calls a = .sending h) :
      EnvStep s (s.send a (.returned (.error s.lifecycle.closeError)))
  | sent {a : AcquireId} {handleId : HandleId} (hcall : s.calls a = .sending handleId)
      (hopen : s.mailboxOpen = true) :
      EnvStep s { s with
        calls := Function.update s.calls a .waiting
        mailbox := s.mailbox ++ [.acquire handleId a] }
  | returnedLease {a : AcquireId} {slot : SlotIndex} (hcall : s.calls a = .leased slot) :
      EnvStep s { s with calls := Function.update s.calls a (.returned (.ok slot)) }
  | returnedError {a : AcquireId} {err : ClientError}
      (hcall : s.calls a = .refused err ∨ (s.calls a = .abandoned ∧ err = s.lifecycle.closeError)) :
      EnvStep s { s with calls := Function.update s.calls a (.returned (.error err)) }
  | cancelled {a : AcquireId} (hcall : (∃ h, s.calls a = .sending h) ∨ s.calls a = .waiting ∨
        (∃ err, s.calls a = .refused err) ∨ s.calls a = .abandoned) :
      EnvStep s { s with calls := Function.update s.calls a .cancelled }
  | cancelledLeased {a : AcquireId} {slot : SlotIndex} (hcall : s.calls a = .leased slot) :
      EnvStep s ({ s with
        calls := Function.update s.calls a .cancelled
        leases := s.leases.erase (a, slot) }.releasePermit slot)
  | leaseReleased {a : AcquireId} {slot : SlotIndex} (hcall : s.calls a = .returned (.ok slot))
      (hlease : (a, slot) ∈ s.leases) :
      EnvStep s ({ s with leases := s.leases.erase (a, slot) }.releasePermit slot)
  | handleDropped {handleId : HandleId} (hopen : s.mailboxOpen = true) :
      EnvStep s { s with mailbox := s.mailbox ++ [.deregisterHandle handleId] }
  | handleDroppedLate (hclosed : s.mailboxOpen = false) : EnvStep s s
  | handlesGone : EnvStep s { s with handlesAlive := false }
  | closeMarked : EnvStep s { s with lifecycle := s.lifecycle.markClosed }
  | shutdownPublished (hlifecycle : s.lifecycle ≠ .running) : EnvStep s { s with shutdown := true }

/-! ### Inversion of the others -/

/-- **Inversion**: an event that is no step of the task is one of the cases of `EnvStep`. -/
theorem envStep_cases {e : PoolEvent} (h : s.step e = some s')
    (he : ∀ choice, e ≠ .task choice) : s.EnvStep s' := by
  cases e with
  | acquireStarted a handleId =>
    simp only [step, Option.ite_none_right_eq_some] at h
    obtain ⟨⟨-, hcall⟩, h⟩ := h
    split at h
    · rename_i hrunning
      cases h
      exact .called hcall hrunning
    · cases h
      exact .refusedEarly (Or.inl hcall)
  | acquireSent a =>
    simp only [step] at h
    split at h
    · rename_i handleId hcall
      split at h
      · rename_i hopen
        cases h
        exact .sent hcall hopen
      · cases h
        exact .refusedEarly (Or.inr ⟨handleId, hcall⟩)
    · cases h
  | acquireReturned a =>
    simp only [step] at h
    split at h
    · rename_i slot hcall
      cases h
      exact .returnedLease hcall
    · rename_i err hcall
      cases h
      exact .returnedError (Or.inl hcall)
    · rename_i hcall
      cases h
      exact .returnedError (Or.inr ⟨hcall, rfl⟩)
    · cases h
  | acquireCancelled a =>
    have hcancel : ((∃ h, s.calls a = .sending h) ∨ s.calls a = .waiting ∨
        (∃ err, s.calls a = .refused err) ∨ s.calls a = .abandoned) →
        { s with calls := Function.update s.calls a .cancelled } = s' →
        s.EnvStep s' := by
      rintro hcall rfl
      exact .cancelled hcall
    simp only [step] at h
    split at h
    · rename_i handleId hcall
      exact hcancel (Or.inl ⟨handleId, hcall⟩) (Option.some.inj h)
    · rename_i hcall
      exact hcancel (Or.inr (Or.inl hcall)) (Option.some.inj h)
    · rename_i err hcall
      exact hcancel (Or.inr (Or.inr (Or.inl ⟨err, hcall⟩))) (Option.some.inj h)
    · rename_i hcall
      exact hcancel (Or.inr (Or.inr (Or.inr hcall))) (Option.some.inj h)
    · rename_i slot hcall
      cases h
      exact .cancelledLeased hcall
    · cases h
  | leaseReleased a =>
    simp only [step] at h
    split at h
    · rename_i slot hcall
      rw [Option.ite_none_right_eq_some] at h
      obtain ⟨hlease, h⟩ := h
      cases h
      exact .leaseReleased hcall hlease
    · cases h
  | handleDropped handleId =>
    simp only [step, Option.ite_none_right_eq_some] at h
    obtain ⟨-, h⟩ := h
    split at h
    · rename_i hopen
      cases h
      exact .handleDropped hopen
    · rename_i hclosed
      cases h
      exact .handleDroppedLate (by simpa using hclosed)
  | handlesGone =>
    simp only [step, Option.ite_none_right_eq_some] at h
    obtain ⟨-, h⟩ := h
    cases h
    exact .handlesGone
  | closeMarked =>
    simp only [step] at h
    cases h
    exact .closeMarked
  | shutdownPublished =>
    simp only [step, Option.ite_none_left_eq_some] at h
    obtain ⟨hlifecycle, h⟩ := h
    cases h
    exact .shutdownPublished hlifecycle
  | task choice => exact absurd rfl (he choice)

/-! ### Both together -/

/-- An event is a step of the task or of the others. -/
theorem step_cases {e : PoolEvent} (h : s.step e = some s') : s.EnvStep s' ∨ s.TaskStep s' := by
  by_cases he : ∃ choice, e = .task choice
  · obtain ⟨choice, rfl⟩ := he
    exact Or.inr (taskStep_cases h)
  · exact Or.inl (envStep_cases h (not_exists.mp he))

end PoolSystem

end Wireframe
