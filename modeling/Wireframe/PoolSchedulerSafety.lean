/-
# The scheduler serves every caller

The invariants of the replies, the permits and the race hold together in every state the
pool can reach, whatever callers, leases and `close` do between two steps of the task.  From
them: every call that is not cancelled has exactly one outcome when the task has ended, the
permits of every slot are conserved between steps, a task with nothing left to do leaves no
live waiter beside a free permit, and nobody is told that the scheduler failed.
-/
import Mathlib.Tactic
import Wireframe.PoolPermits
import Wireframe.PoolReplies
import Wireframe.Trace

namespace Wireframe

/-- The task is at, or between, the arms of its `select!`. -/
def TaskPoint.selecting : TaskPoint → Bool
  | .pollShutdown | .pollPermit | .pollCommand | .parked => true
  | _ => false

/-- The task is on its way out. -/
def TaskPoint.ending : TaskPoint → Bool
  | .failing | .drainQueue | .drainMailbox | .ended => true
  | _ => false

namespace PoolSystem

/-! ## What a step does to a call -/

section Answers

variable {s s' : PoolSystem} {leases : List (AcquireId × SlotIndex)}

/-- The outcomes the task gives to the call `a`; a lease is one of the live ones. -/
inductive Answer (leases : List (AcquireId × SlotIndex)) (a : AcquireId) : Acquisition → Prop where
  | abandoned : Answer leases a .abandoned
  | closed : Answer leases a (.refused .poolClosed)
  | saturated (limit : ℕ) : Answer leases a (.refused (.poolSaturated limit))
  | leased (slot : SlotIndex) (hlease : (a, slot) ∈ leases) : Answer leases a (.leased slot)

/-- Every call is where it was, or has been given such an outcome. -/
def Answers (leases : List (AcquireId × SlotIndex)) (s s' : PoolSystem) : Prop :=
  ∀ a, s'.calls a = s.calls a ∨ Answer leases a (s'.calls a)

theorem Answers.refl (s : PoolSystem) : Answers leases s s := fun _ => Or.inl rfl

theorem Answers.trans {t : PoolSystem} (h : Answers leases s t) (h' : Answers leases t s') :
    Answers leases s s' := by
  intro a
  rcases h' a with hsame | hanswer
  · rw [hsame]
    exact h a
  · exact Or.inr hanswer

theorem answers_send {b : AcquireId} {outcome : Acquisition} (h : Answer leases b outcome) :
    Answers leases s (s.send b outcome) := by
  intro a
  rw [send]
  split_ifs with hclosed
  · exact Or.inl rfl
  · by_cases hab : a = b
    · subst hab
      refine Or.inr ?_
      show Answer leases a (Function.update s.calls a outcome a)
      rw [Function.update_self]
      exact h
    · exact Or.inl (Function.update_of_ne hab _ _)

theorem answers_dropSenders (dropped : List AcquireId) :
    Answers leases s (s.dropSenders dropped) := by
  intro a
  simp only [dropSenders]
  split_ifs
  · exact Or.inr .abandoned
  · exact Or.inl rfl

theorem answers_setState (state : SchedulerState) (taken : Option AcquireId) :
    Answers leases s (s.setState state taken) :=
  answers_dropSenders (s := { s with state := state }) _

theorem answers_finish : Answers leases s s.finish :=
  Answers.trans (answers_setState (s := s.dropRace) .new none) (answers_dropSenders _)

theorem closeError_of_ne_failed {lifecycle : SchedulerLifecycle} (h : lifecycle ≠ .failed) :
    lifecycle.closeError = .poolClosed := by
  cases lifecycle <;> first | rfl | exact absurd rfl h

/-- The lease that is sent is alive. -/
theorem answers_deliver {waiter : AcquireId} {slot : SlotIndex} (hslot : slot < s.size) :
    Answers (s.deliver waiter slot).leases s (s.deliver waiter slot) := by
  rw [deliver, if_pos hslot]
  split_ifs with hclosed
  · exact .refl s
  · exact answers_send (.leased slot (by simp))

theorem send_leases (b : AcquireId) (outcome : Acquisition) :
    (s.send b outcome).leases = s.leases := by
  obtain ⟨calls, answered, heq⟩ := s.send_eq b outcome
  rw [heq]

/-- The task ends no lease. -/
theorem TaskStep.leases_subset (h : s.TaskStep s') : s.leases ⊆ s'.leases := by
  cases h with
  | refused _ _ | saturated _ _ | dismissed _ _ | drainedAcquire _ _ =>
    intro lease hlease
    show lease ∈ (PoolSystem.send _ _ _).leases
    rw [send_leases]
    exact hlease
  | delivered _ =>
    intro lease hlease
    simp only [goto, deliver]
    split_ifs
    · exact hlease
    · exact List.mem_append_left _ hlease
    · show lease ∈ (PoolSystem.send _ _ _).leases
      rw [send_leases]
      exact hlease
  | _ => exact List.Subset.refl _

/-- **What the task tells its callers.** -/
theorem TaskStep.answers (h : s.TaskStep s') (hok : PointOk s.size s.pending s.point)
    (hlife : s.lifecycle ≠ .failed) : Answers s'.leases s s' := by
  have hclosed := closeError_of_ne_failed hlife
  cases h with
  | moved _ _ | raceStarted _ _ _ | shutdownSeen _ _ | raceRefused _ _ _ | raceFinished _ _ _ _
  | probeHit _ _ | entered _ | enterHit _ _ _ | enterMiss _ _ _ | wonTooLate _ _ | sweepHit _ _
  | gotTooLate _ _ | received _ _ | drainedDeregister _ _ => exact .refl s
  | picked _ _ | nobody _ _ | queued _ _ | emptied _ _ => exact answers_setState _ _
  | forgot _ _ => exact answers_setState (s := { s with mailbox := _ }) _ _
  | mailboxEnded _ _ _ | drained _ _ => exact answers_finish
  | refused _ _ =>
    rw [hclosed]
    exact answers_send .closed
  | saturated _ _ =>
    exact (answers_setState _ _).trans (answers_send (.saturated _))
  | delivered hpoint =>
    rw [hpoint] at hok
    exact answers_deliver hok
  | dismissed hpoint _ =>
    rcases hpoint with ⟨-, rfl⟩ | ⟨-, rfl⟩
    · rw [hclosed]
      exact (answers_setState _ _).trans (answers_send .closed)
    · exact (answers_setState _ _).trans (answers_send .closed)
  | drainedAcquire _ _ =>
    exact answers_send .closed

theorem TaskStep.leasesLive (h : s.TaskStep s') (hok : PointOk s.size s.pending s.point)
    (hlife : s.lifecycle ≠ .failed) (hs : s.LeasesLive) : s'.LeasesLive := by
  intro a slot ha
  rcases h.answers hok hlife a with hsame | hanswer
  · exact h.leases_subset (hs a slot (hsame.symm.trans ha))
  · rw [ha] at hanswer
    cases hanswer with
    | leased _ hlease => exact hlease

/-- A lease ends after its caller has received it, or with the call. -/
theorem EnvStep.leasesLive (h : s.EnvStep s') (hs : s.LeasesLive) : s'.LeasesLive := by
  -- a call that changes is not left with a lease in its channel
  have hupdate : ∀ (b : AcquireId) (c : Acquisition), (∀ slot, c ≠ .leased slot) →
      ∀ a slot, Function.update s.calls b c a = .leased slot → a ≠ b ∧ (a, slot) ∈ s.leases := by
    intro b c hc a slot ha
    by_cases hab : a = b
    · subst hab
      rw [Function.update_self] at ha
      exact absurd ha (hc slot)
    · rw [Function.update_of_ne hab] at ha
      exact ⟨hab, hs a slot ha⟩
  cases h with
  | called _ _ | sent _ _ | returnedLease _ | returnedError _ | cancelled _ =>
    exact fun a slot ha => (hupdate _ _ (by simp) a slot ha).2
  | refusedEarly _ =>
    intro a slot ha
    rw [send_leases]
    rw [send] at ha
    split_ifs at ha
    · exact hs a slot ha
    · exact (hupdate _ _ (by simp) a slot ha).2
  | cancelledLeased _ =>
    intro a slot ha
    obtain ⟨hab, hmem⟩ := hupdate _ _ (by simp) a slot ha
    refine (List.mem_erase_of_ne ?_).mpr hmem
    simp [hab]
  | leaseReleased hcall _ =>
    intro a slot ha
    refine (List.mem_erase_of_ne ?_).mpr (hs a slot ha)
    rintro heq
    cases heq
    exact absurd (hcall.symm.trans ha) (by simp)
  | handleDropped _ | handleDroppedLate _ | handlesGone | closeMarked | shutdownPublished _ =>
    exact hs

end Answers

/-! ## Where the task is heading -/

section Control

variable {s s' : PoolSystem}

/-- Nobody but the task moves the task, its queues or its race. -/
theorem EnvStep.frame (h : s.EnvStep s') :
    s'.size = s.size ∧ s'.point = s.point ∧ s'.pending = s.pending ∧ s'.state = s.state := by
  cases h with
  | @refusedEarly a _ =>
    have hcontrol := s.send_control a (.returned (.error s.lifecycle.closeError))
    exact ⟨hcontrol.size, hcontrol.point, hcontrol.pending, hcontrol.state⟩
  | _ => exact ⟨rfl, rfl, rfl, rfl⟩

theorem SameControl.frame (h : s.SameControl s') :
    s'.size = s.size ∧ s'.shutdown = s.shutdown ∧ s'.handlesAlive = s.handlesAlive :=
  ⟨h.size, h.shutdown, h.handlesAlive⟩

/-- The task leaves the size of the pool, `close` and the handles alone. -/
theorem TaskStep.frame (h : s.TaskStep s') :
    s'.size = s.size ∧ s'.shutdown = s.shutdown ∧ s'.handlesAlive = s.handlesAlive := by
  cases h with
  | refused _ _ | saturated _ _ | dismissed _ _ | drainedAcquire _ _ =>
    exact (send_control _ _ _).frame
  | @delivered waiter slot _ => exact (s.deliver_control waiter slot).frame
  | _ => exact ⟨rfl, rfl, rfl⟩

theorem Move.pointOk {p q : TaskPoint} (h : Move s p q) (hok : PointOk s.size s.pending p) :
    PointOk s.size s.pending q := by
  cases h with
  | probe hpending _ => exact ⟨hpending, s.orderedSlotIndices_lt⟩
  | probed =>
    refine ⟨hok.1, List.nodup_range, fun slot hslot => ?_⟩
    exact List.mem_range.mp hslot
  | probeMiss => exact ⟨hok.1, fun slot hslot => hok.2 slot (List.mem_cons_of_mem _ hslot)⟩
  | won _ => exact hok.2
  | sweep _ => exact s.orderedSlotIndices_lt
  | sweepMiss => exact fun slot hslot => hok slot (List.mem_cons_of_mem _ hslot)
  | got _ => exact hok
  | _ => trivial

/-- Every slot the task names is a slot of the pool. -/
theorem TaskStep.pointOk (h : s.TaskStep s') (hok : PointOk s.size s.pending s.point) :
    PointOk s'.size s'.pending s'.point := by
  cases h with
  | moved cursor hmove => exact hmove.pointOk hok
  | raceFinished _ _ hslot _ => exact ⟨rfl, hslot⟩
  | probeHit hpoint _ =>
    rw [hpoint] at hok
    exact ⟨rfl, hok.2 _ List.mem_cons_self⟩
  | enterHit hpoint hslot _ =>
    rw [hpoint] at hok
    exact ⟨rfl, hok.2.2 _ hslot⟩
  | enterMiss hpoint _ _ =>
    rw [hpoint] at hok
    refine ⟨hok.1, hok.2.1.erase _, fun slot hslot => ?_⟩
    exact hok.2.2 slot (List.mem_of_mem_erase hslot)
  | picked hpoint _ =>
    rcases hpoint with hp | hp
    · rw [hp] at hok
      exact hok
    · rw [hp] at hok
      exact hok
  | nobody hpoint _ | emptied hpoint _ => rcases hpoint with ⟨-, rfl⟩ | ⟨-, rfl⟩ <;> trivial
  | sweepHit hpoint _ =>
    rw [hpoint] at hok
    exact hok _ List.mem_cons_self
  | dismissed hpoint _ =>
    rw [send_point]
    show PointOk _ _ s.point
    rcases hpoint with ⟨hp, -⟩ | ⟨hp, -⟩ <;> rw [hp] <;> trivial
  | drainedAcquire _ _ =>
    rw [send_point]
    trivial
  | _ => trivial

/-! ## A task that waits without a race has nobody to serve -/

/-- At its `select!` the task runs a race, or has no live waiter. -/
def Attentive (s : PoolSystem) : Prop :=
  s.point.selecting = true → s.pending = none → s.hasLiveWaiters = false

theorem Move.attentive {p : TaskPoint} {cursor : ℕ} (h : Move s s.point p) (hs : s.Attentive) :
    Attentive { s with point := p, nextSlot := cursor } := by
  intro hp hpending
  generalize hq : s.point = q at h
  have hsame : q.selecting = true → s.hasLiveWaiters = false := by
    rw [← hq]
    exact fun hselecting => hs hselecting hpending
  cases h with
  | select hrace =>
    rcases hrace with hrace | hlive
    · exact absurd hpending hrace
    · exact hlive
  | noShutdown _ | noRace _ | notReady _ _ | park _ _ | wake _ => exact hsame rfl
  | _ => exact absurd hp Bool.false_ne_true

/-- The task selects without a race only while nobody waits. -/
theorem TaskStep.attentive (h : s.TaskStep s') (hs : s.Attentive) : s'.Attentive := by
  cases h with
  | moved cursor hmove => exact hmove.attentive hs
  | raceStarted _ _ _ | entered _ => exact fun _ hpending => absurd hpending (by simp)
  | nobody hpoint _ | emptied hpoint _ =>
    rcases hpoint with ⟨-, rfl⟩ | ⟨-, rfl⟩ <;> exact fun hp => absurd hp Bool.false_ne_true
  | dismissed hpoint _ =>
    intro hp
    rw [send_point] at hp
    change s.point.selecting = true at hp
    rcases hpoint with ⟨hq, -⟩ | ⟨hq, -⟩ <;> rw [hq] at hp <;>
      exact absurd hp Bool.false_ne_true
  | drainedAcquire _ _ =>
    intro hp
    rw [send_point] at hp
    exact absurd hp Bool.false_ne_true
  | _ => exact fun hp => absurd hp Bool.false_ne_true

/-- A caller that is gone stays gone. -/
theorem EnvStep.isClosed (h : s.EnvStep s') {a : AcquireId} (ha : s.isClosed a = true) :
    s'.isClosed a = true := by
  have hcall : s.calls a = .cancelled := by simpa [PoolSystem.isClosed] using ha
  have hupdate : ∀ (b : AcquireId) (c : Acquisition), s.calls b ≠ .cancelled →
      Function.update s.calls b c a = .cancelled := by
    intro b c hb
    rw [Function.update_of_ne, hcall]
    rintro rfl
    exact hb hcall
  suffices s'.calls a = .cancelled by simpa [PoolSystem.isClosed] using this
  cases h with
  | called hb _ | sent hb _ | returnedLease hb | cancelledLeased hb =>
    exact hupdate _ _ (by simp [hb])
  | refusedEarly hb =>
    rw [send]
    split_ifs
    · exact hcall
    · refine hupdate _ _ ?_
      rcases hb with hb | ⟨handleId, hb⟩ <;> simp [hb]
  | returnedError hb =>
    refine hupdate _ _ ?_
    rcases hb with hb | ⟨hb, -⟩ <;> simp [hb]
  | @cancelled b _ =>
    by_cases hab : a = b
    · subst hab
      exact Function.update_self _ _ _
    · exact (Function.update_of_ne hab _ _).trans hcall
  | leaseReleased _ _ | handleDropped _ | handleDroppedLate _ | handlesGone | closeMarked
  | shutdownPublished _ => exact hcall

/-- A waiter that is live after a step of the others was live before it. -/
theorem EnvStep.attentive (h : s.EnvStep s') (hs : s.Attentive) : s'.Attentive := by
  obtain ⟨-, hpoint, hpending, hstate⟩ := h.frame
  intro hp hnone
  rw [hpoint] at hp
  rw [hpending] at hnone
  have hdead := hs hp hnone
  -- a waiter that is live after the step was live before it
  by_contra hlive
  rw [Bool.not_eq_false, hasLiveWaiters, SchedulerState.hasLiveWaiters_iff, hstate] at hlive
  obtain ⟨a, hmem, ha⟩ := hlive
  have hbefore : s.isClosed a = false := by
    by_contra hclosed
    rw [h.isClosed (by simpa using hclosed)] at ha
    cases ha
  have : s.hasLiveWaiters = true := SchedulerState.hasLiveWaiters_iff.mpr ⟨a, hmem, hbefore⟩
  rw [hdead] at this
  cases this

end Control

/-! ## The scheduler does not fail -/

section Status

variable {s s' : PoolSystem}

/-- The lifecycle of a pool whose task meets no fault, and what its callers were told. -/
structure Status (s : PoolSystem) : Prop where
  not_failed : s.lifecycle ≠ .failed
  closed_of_shutdown : s.shutdown = true → s.lifecycle ≠ .running
  told : ∀ a, s.calls a ≠ .refused .schedulerFailed ∧ s.calls a ≠ .returned (.error .schedulerFailed)
  closing : s.point.ending = true ∨ s.mailboxOpen = false →
    s.shutdown = true ∨ s.handlesAlive = false

theorem markClosed_of_ne_failed {lifecycle : SchedulerLifecycle}
    (h : lifecycle ≠ .failed) : lifecycle.markClosed = .closed := by
  cases lifecycle <;> first | rfl | exact absurd rfl h

/-- The task closes the lifecycle; it fails it only after a race that found the pool without
slots, or open and shut down. -/
theorem TaskStep.lifecycle (h : s.TaskStep s') :
    s'.lifecycle = s.lifecycle ∨ s'.lifecycle = s.lifecycle.markClosed ∨
      ((s.shutdown = true ∨ s.size = 0) ∧
        s'.lifecycle = if s.lifecycle = .running then .failed else s.lifecycle) := by
  cases h with
  | shutdownSeen _ _ | mailboxEnded _ _ _ => exact Or.inr (Or.inl rfl)
  | raceRefused _ _ hwhy => exact Or.inr (Or.inr ⟨hwhy, rfl⟩)
  | wonTooLate _ hshutdown => exact Or.inr (Or.inr ⟨Or.inl hshutdown, rfl⟩)
  | refused _ _ | saturated _ _ | dismissed _ _ | drainedAcquire _ _ =>
    exact Or.inl (send_control _ _ _).lifecycle
  | delivered _ => exact Or.inl (deliver_control _ _ _).lifecycle
  | _ => exact Or.inl rfl

theorem Move.not_ending {p q : TaskPoint} (h : Move s p q) : q.ending = false := by
  cases h <;> rfl

/-- The task starts to end, or closes its mailbox, only for a reason. -/
theorem TaskStep.closing (h : s.TaskStep s')
    (h' : s'.point.ending = true ∨ s'.mailboxOpen = false) :
    (s.point.ending = true ∨ s.mailboxOpen = false) ∨
      s.shutdown = true ∨ s.handlesAlive = false ∨ s.size = 0 := by
  -- a step that neither ends the task nor touches the mailbox
  have hsame : s'.point.ending = false → s'.mailboxOpen = s.mailboxOpen →
      (s.point.ending = true ∨ s.mailboxOpen = false) ∨
        s.shutdown = true ∨ s.handlesAlive = false ∨ s.size = 0 := by
    intro hpoint hopen
    rw [hpoint, hopen] at h'
    exact Or.inl (Or.inr (h'.resolve_left Bool.false_ne_true))
  cases h with
  | moved cursor hmove => exact hsame hmove.not_ending rfl
  | shutdownSeen _ hshutdown | wonTooLate _ hshutdown => exact Or.inr (Or.inl hshutdown)
  | raceRefused _ _ hwhy =>
    rcases hwhy with hshutdown | hsize
    · exact Or.inr (Or.inl hshutdown)
    · exact Or.inr (Or.inr (Or.inr hsize))
  | nobody hpoint _ => rcases hpoint with ⟨-, rfl⟩ | ⟨-, rfl⟩ <;> exact hsame rfl rfl
  | mailboxEnded _ _ hwhy =>
    rcases hwhy with hgone | hclosed
    · exact Or.inr (Or.inr (Or.inl hgone))
    · exact Or.inl (Or.inr hclosed)
  | refused _ _ | saturated _ _ => exact hsame rfl (send_control _ _ _).mailboxOpen
  | delivered _ => exact hsame rfl (deliver_control _ _ _).mailboxOpen
  | dismissed hpoint _ | emptied hpoint _ =>
    refine Or.inl (Or.inl ?_)
    rcases hpoint with ⟨hp, -⟩ | ⟨hp, -⟩ <;> rw [hp] <;> rfl
  | drainedAcquire hpoint _ | drainedDeregister hpoint _ | drained hpoint _ =>
    refine Or.inl (Or.inl ?_)
    rw [hpoint]
    rfl
  | _ => exact hsame rfl rfl

/-- A race is refused only after `close` has marked the lifecycle, so nothing fails it. -/
theorem TaskStep.status (h : s.TaskStep s') (hok : PointOk s.size s.pending s.point)
    (hsize : 0 < s.size) (hs : s.Status) : s'.Status := by
  obtain ⟨-, hshutdown, hhandles⟩ := h.frame
  have hlifecycle : s'.lifecycle = s.lifecycle ∨ s'.lifecycle = .closed := by
    rcases h.lifecycle with hsame | hclosed | ⟨hwhy, hfailed⟩
    · exact Or.inl hsame
    · exact Or.inr (hclosed.trans (markClosed_of_ne_failed hs.not_failed))
    · -- the race is refused only after `close` has marked the lifecycle
      have hshut := hwhy.resolve_right (by omega)
      rw [if_neg (hs.closed_of_shutdown hshut)] at hfailed
      exact Or.inl hfailed
  constructor
  · rcases hlifecycle with heq | heq
    · rw [heq]
      exact hs.not_failed
    · rw [heq]
      simp
  · intro hshut
    rw [hshutdown] at hshut
    rcases hlifecycle with heq | heq
    · rw [heq]
      exact hs.closed_of_shutdown hshut
    · rw [heq]
      simp
  · intro a
    rcases h.answers hok hs.not_failed a with hsame | hanswer
    · rw [hsame]
      exact hs.told a
    · generalize s'.calls a = c at hanswer
      cases hanswer <;> simp
  · intro hclosing
    rw [hshutdown, hhandles]
    rcases h.closing hclosing with hbefore | hshut | hgone | hzero
    · exact hs.closing hbefore
    · exact Or.inl hshut
    · exact Or.inr hgone
    · omega

/-- A call changes its stage to one that is not a failure report. -/
theorem Status.updateCall (hs : s.Status) (a : AcquireId) {c : Acquisition}
    (hc : c ≠ .refused .schedulerFailed ∧ c ≠ .returned (.error .schedulerFailed)) :
    Status { s with calls := Function.update s.calls a c } where
  not_failed := hs.not_failed
  closed_of_shutdown := hs.closed_of_shutdown
  closing := hs.closing
  told := by
    intro b
    show Function.update s.calls a c b ≠ _ ∧ Function.update s.calls a c b ≠ _
    by_cases hab : b = a
    · subst hab
      rw [Function.update_self]
      exact hc
    · rw [Function.update_of_ne hab]
      exact hs.told b

/-- The callers close the pool, and are told of no failure. -/
theorem EnvStep.status (h : s.EnvStep s') (hs : s.Status) : s'.Status := by
  have hclosed := closeError_of_ne_failed hs.not_failed
  cases h with
  | called _ _ | returnedLease _ | cancelled _ => exact hs.updateCall _ (by simp)
  | refusedEarly _ =>
    rw [hclosed, PoolSystem.send]
    split_ifs
    · exact hs
    · exact ⟨hs.not_failed, hs.closed_of_shutdown, (hs.updateCall _ (by simp)).told, hs.closing⟩
  | sent _ _ | cancelledLeased _ =>
    exact ⟨hs.not_failed, hs.closed_of_shutdown, (hs.updateCall _ (by simp)).told, hs.closing⟩
  | @returnedError a err hcall =>
    refine hs.updateCall a ⟨by simp, ?_⟩
    rcases hcall with hcall | ⟨-, rfl⟩
    · -- the error in the channel was none
      rintro ⟨⟩
      exact (hs.told a).1 hcall
    · simp [hclosed]
  | leaseReleased _ _ | handleDropped _ =>
    exact ⟨hs.not_failed, hs.closed_of_shutdown, hs.told, hs.closing⟩
  | handleDroppedLate _ => exact hs
  | handlesGone =>
    exact ⟨hs.not_failed, hs.closed_of_shutdown, hs.told, fun _ => Or.inr rfl⟩
  | closeMarked =>
    have hmarked := markClosed_of_ne_failed hs.not_failed
    refine ⟨?_, fun _ => ?_, hs.told, hs.closing⟩
    · show s.lifecycle.markClosed ≠ _
      simp [hmarked]
    · show s.lifecycle.markClosed ≠ _
      simp [hmarked]
  | shutdownPublished hlifecycle =>
    exact ⟨hs.not_failed, fun _ => hlifecycle, hs.told, fun _ => Or.inl rfl⟩

end Status

/-! ## A task that has ended leaves nothing behind -/

section Ended

variable {s s' : PoolSystem}

/-- Nothing is left in the queues or the mailbox of a task that has ended. -/
def Drained (s : PoolSystem) : Prop :=
  s.point = .ended → s.mailboxOpen = false ∧ s.mailbox = [] ∧ s.state = .new

/-- A task that has ended leaves nothing behind. -/
theorem TaskStep.drainedState (h : s.TaskStep s') : s'.Drained := by
  cases h with
  | moved cursor hmove =>
    rintro rfl
    exact absurd hmove.not_ending (by simp [TaskPoint.ending])
  | mailboxEnded _ _ _ | drained _ _ => exact fun _ => ⟨rfl, rfl, rfl⟩
  | nobody hpoint _ | emptied hpoint _ =>
    rcases hpoint with ⟨-, rfl⟩ | ⟨-, rfl⟩ <;> exact fun hp => TaskPoint.noConfusion hp
  | dismissed hpoint _ =>
    intro hp
    rw [send_point] at hp
    change s.point = .ended at hp
    rcases hpoint with ⟨hq, -⟩ | ⟨hq, -⟩ <;> rw [hq] at hp <;> exact TaskPoint.noConfusion hp
  | drainedAcquire _ _ =>
    intro hp
    rw [send_point] at hp
    exact TaskPoint.noConfusion hp
  | _ => exact fun hp => TaskPoint.noConfusion hp

/-- A closed mailbox takes no more commands. -/
theorem EnvStep.drainedState (h : s.EnvStep s') (hs : s.Drained) : s'.Drained := by
  cases h with
  | sent _ hopen | handleDropped hopen =>
    intro hp
    rw [(hs hp).1] at hopen
    cases hopen
  | @refusedEarly a _ =>
    obtain ⟨calls, answered, heq⟩ := s.send_eq a (.returned (.error s.lifecycle.closeError))
    rw [heq]
    exact hs
  | _ => exact hs

end Ended

/-! ## Every reachable state -/

section Reachable

variable {s s' : PoolSystem} {capacity : ℕ}

/-- Everything that holds in every reachable state. -/
structure Inv (capacity : ℕ) (s : PoolSystem) : Prop where
  size_pos : 0 < s.size
  accounted : s.Accounted s.point.reply
  conserved : s.Conserved capacity s.point.permit
  leasesLive : s.LeasesLive
  waiters : s.Waiters
  pointOk : PointOk s.size s.pending s.point
  attentive : s.Attentive
  status : s.Status
  drained : s.Drained

theorem inv_new {size : ℕ} (hsize : 0 < size) (admission : WaiterAdmission) :
    (new size capacity admission).Inv capacity where
  size_pos := hsize
  accounted := fun _ => ⟨rfl, rfl⟩
  conserved := fun _ => rfl
  leasesLive := fun a slot h => absurd h (by simp [new])
  waiters := waiters_of_absent (fun _ => rfl) fun slot h => absurd h.1 (by simp [new])
  pointOk := trivial
  attentive := fun h => absurd h Bool.false_ne_true
  status := ⟨by simp [new], fun h => absurd h Bool.false_ne_true, by simp [new],
    by simp [new, TaskPoint.ending]⟩
  drained := fun h => TaskPoint.noConfusion h

theorem TaskStep.inv (h : s.TaskStep s') (hs : s.Inv capacity) : s'.Inv capacity where
  size_pos := h.frame.1 ▸ hs.size_pos
  accounted := h.accounted hs.accounted
  conserved := h.conserved hs.waiters hs.conserved
  leasesLive := h.leasesLive hs.pointOk hs.status.not_failed hs.leasesLive
  waiters := h.waiters hs.waiters hs.pointOk
  pointOk := h.pointOk hs.pointOk
  attentive := h.attentive hs.attentive
  status := h.status hs.pointOk hs.size_pos hs.status
  drained := h.drainedState

theorem EnvStep.inv (h : s.EnvStep s') (hs : s.Inv capacity) : s'.Inv capacity := by
  obtain ⟨hsize, hpoint, hpending, -⟩ := h.frame
  constructor
  · rw [hsize]
    exact hs.size_pos
  · exact h.accounted hs.accounted
  · exact h.conserved hs.leasesLive hs.conserved
  · exact h.leasesLive hs.leasesLive
  · exact h.waiters hs.waiters
  · rw [hsize, hpoint, hpending]
    exact hs.pointOk
  · exact h.attentive hs.attentive
  · exact h.status hs.status
  · exact h.drainedState hs.drained

/-- The invariant holds after every run. -/
theorem exec_inv {size : ℕ} {admission : WaiterAdmission} {events : List PoolEvent}
    (hsize : 0 < size) (h : Trace.exec step (new size capacity admission) events = some s) :
    s.Inv capacity := by
  refine Trace.exec_invariant (fun t e t' ht hstep => ?_) (inv_new hsize admission) h
  rcases step_cases hstep with henv | htask
  · exact henv.inv ht
  · exact htask.inv ht

end Reachable

/-! ## A task with nothing to do -/

section Quiescent

variable {s : PoolSystem} {capacity : ℕ}

/-- No step of the task is enabled. -/
def Quiescent (s : PoolSystem) : Prop := ∀ choice, s.step (.task choice) = none

/-- The task stands still only when it has ended, or is parked and nothing wakes it. -/
theorem Quiescent.point (h : s.Quiescent) :
    s.point = .ended ∨ (s.point = .parked ∧ ¬ s.Woken) := by
  have hstuck : ∀ choice, s.taskStep choice = none := h
  cases hpoint : s.point with
  | ended => exact Or.inl rfl
  | parked =>
    have h0 := hstuck 0
    simp only [taskStep, hpoint] at h0
    refine Or.inr ⟨rfl, fun hwoken => ?_⟩
    rw [if_pos hwoken] at h0
    cases h0
  | pollPermit =>
    -- a race that is ready can be finished at the slot that is
    have h0 := hstuck 0
    simp only [taskStep, hpoint] at h0 hstuck
    split at h0
    · cases h0
    · split at h0 <;> exact absurd h0 (by simp)
    · rename_i hpending
      rw [hpending] at hstuck
      by_cases hready : s.raceReady = true
      · obtain ⟨slot, hslot, hassigned⟩ := List.any_eq_true.mp hready
        have hs := hstuck slot
        simp only [if_pos hready] at hs
        rw [if_pos ⟨List.mem_range.mp hslot, by simpa using hassigned⟩] at hs
        cases hs
      · rw [if_neg hready] at h0
        cases h0
  | entering slots =>
    cases slots with
    | nil =>
      have h0 := hstuck 0
      simp only [taskStep, hpoint] at h0
      cases h0
    | cons slot rest =>
      have h0 := hstuck slot
      simp only [taskStep, hpoint] at h0
      rw [if_pos List.mem_cons_self] at h0
      split at h0 <;> exact absurd h0 (by simp)
  | probing slots | sweepProbe slots =>
    have h0 := hstuck 0
    cases slots with
    | nil =>
      simp only [taskStep, hpoint] at h0
      cases h0
    | cons slot rest =>
      simp only [taskStep, hpoint] at h0
      split at h0 <;> exact absurd h0 (by simp)
  | pollCommand =>
    have h0 := hstuck 0
    simp only [taskStep, hpoint] at h0
    split at h0
    · cases h0
    · cases h0
    · split at h0 <;> exact absurd h0 (by simp)
  | drainMailbox | enqueueing _ _ | top | pollShutdown | raceWon _ | acquiring _ _ | sweepCheck
  | sweepStart | sweepGot _ =>
    have h0 := hstuck 0
    simp only [taskStep, hpoint] at h0
    split at h0 <;> exact absurd h0 (by simp)
  | wonTake _ | sweepTake _ | deliver _ _ | failing | drainQueue =>
    have h0 := hstuck 0
    simp only [taskStep, hpoint] at h0
    cases h0

/-- A parked task that nothing wakes has no live waiter, or there is no free permit. -/
theorem Inv.nothing_to_do (hs : s.Inv capacity) (hpoint : s.point = .parked) (hwoken : ¬ s.Woken)
    (hlive : s.hasLiveWaiters = true) : ∀ slot < s.size, (s.slots slot).free = 0 := by
  intro slot hslot
  cases hpending : s.pending with
  | none =>
    have hdead := hs.attentive (by rw [hpoint]; rfl) hpending
    rw [hdead] at hlive
    cases hlive
  | some race =>
    cases race with
    | started => exact absurd (Or.inr (Or.inl hpending)) hwoken
    | racing =>
      -- the race is queued on every slot and no slot has assigned it a permit
      have hentered : (s.slots slot).waiter ≠ .absent := by
        rw [hs.waiters.entered slot, entered_of_unentered (by rw [hpoint]; rfl)]
        exact ⟨hpending, hslot⟩
      have hassigned : (s.slots slot).waiter ≠ .assigned := by
        intro hassigned
        refine hwoken (Or.inr (Or.inr (Or.inl ⟨hpending, ?_⟩)))
        exact List.any_eq_true.mpr ⟨slot, List.mem_range.mpr hslot, by simp [hassigned]⟩
      refine hs.waiters.queued slot ?_
      cases hwaiter : (s.slots slot).waiter with
      | queued => rfl
      | absent => exact absurd hwaiter hentered
      | assigned => exact absurd hwaiter hassigned

end Quiescent

/-! ## What every caller gets -/

section Outcome

variable {s : PoolSystem} {capacity : ℕ} {a : AcquireId}

/-- What the caller of `a` finds in its reply channel, or has returned with already.  A
channel whose sender was dropped is reported as the lifecycle says. -/
def outcome (s : PoolSystem) (a : AcquireId) : Option (Except ClientError SlotIndex) :=
  match s.calls a with
  | .leased slot => some (.ok slot)
  | .refused err => some (.error err)
  | .abandoned => some (.error s.lifecycle.closeError)
  | .returned result => some result
  | .unused | .sending _ | .waiting | .cancelled => none

theorem Status.outcome_ne_schedulerFailed (hs : s.Status) (a : AcquireId) :
    s.outcome a ≠ some (.error .schedulerFailed) := by
  obtain ⟨hrefused, hreturned⟩ := hs.told a
  rw [outcome]
  split
  · simp
  · rename_i err hcall
    rintro ⟨⟩
    exact hrefused hcall
  · rw [closeError_of_ne_failed hs.not_failed]
    simp
  · rename_i result hcall
    rintro ⟨⟩
    exact hreturned hcall
  all_goals simp

/-- When the task has ended, a call that was sent and not cancelled has its one outcome. -/
theorem Inv.outcome_of_ended (hs : s.Inv capacity) (hpoint : s.point = .ended)
    (hcall : s.calls a ≠ .unused ∧ s.calls a ≠ .cancelled ∧ ∀ handleId, s.calls a ≠ .sending handleId) :
    (∃ result, s.outcome a = some result) ∧ s.answered.count a = 1 := by
  obtain ⟨-, hmailbox, hstate⟩ := hs.drained hpoint
  have hbooks := hs.accounted a
  have hnone : s.queuedReplies a = 0 := by
    rw [queuedReplies, hmailbox, hstate]
    rfl
  rw [hnone, hpoint] at hbooks
  obtain ⟨hunused, hcancelled, hsending⟩ := hcall
  simp only [outcome]
  cases hc : s.calls a with
  | unused => exact absurd hc hunused
  | sending handleId => exact absurd hc (hsending handleId)
  | cancelled => exact absurd hc hcancelled
  | waiting =>
    -- its sender would have to be somewhere
    rw [hc] at hbooks
    exact absurd hbooks.1 (by simp [TaskPoint.reply])
  | leased _ | refused _ | abandoned | returned _ =>
    rw [hc] at hbooks
    exact ⟨⟨_, rfl⟩, hbooks.2⟩

/-- A call that sends its command after the task has ended is refused at once. -/
theorem Inv.refused_of_ended (hs : s.Inv capacity) (hpoint : s.point = .ended)
    {handleId : HandleId} (hcall : s.calls a = .sending handleId) :
    ∃ s', s.step (.acquireSent a) = some s' ∧ s'.outcome a = some (.error .poolClosed) ∧
      s'.answered.count a = 1 := by
  have hbooks := hs.accounted a
  rw [hcall] at hbooks
  have hopen : s.isClosed a = false := by simp [isClosed, hcall]
  refine ⟨s.send a (.returned (.error .poolClosed)), ?_, ?_, ?_⟩
  · simp only [step, hcall]
    rw [(hs.drained hpoint).1, if_neg Bool.false_ne_true,
      closeError_of_ne_failed hs.status.not_failed]
  · simp [outcome, send, hopen]
  · simp [send, hopen, hbooks.2]

end Outcome

/-- **The scheduler serves every caller.**  In every state the pool can reach: no call has
two outcomes, and when the task has ended every call that was not cancelled has one, or has
yet to send its command and is then refused; every permit of every slot is free, held by a
live lease, assigned to the race, or in the task's hands between two of its steps; a task
that cannot move, in a pool that is not closing, has no live waiter beside a free permit; and
nobody is told that the scheduler failed. -/
theorem serves_every_caller {size maxInFlight : ℕ} {admission : WaiterAdmission}
    {events : List PoolEvent} {s : PoolSystem} (hsize : 0 < size)
    (hrun : Trace.exec step (new size maxInFlight admission) events = some s) :
    (∀ a, s.answered.count a ≤ 1) ∧
    (s.point = .ended → ∀ a, s.calls a ≠ .unused → s.calls a ≠ .cancelled →
      ((∃ result, s.outcome a = some result) ∧ s.answered.count a = 1) ∨
      ∃ s', s.step (.acquireSent a) = some s' ∧ s'.outcome a = some (.error .poolClosed) ∧
        s'.answered.count a = 1) ∧
    (∀ slot, (s.slots slot).free + s.leasesOn slot +
      (if (s.slots slot).waiter = .assigned then 1 else 0) + inHand s.point.permit slot =
        maxInFlight) ∧
    (s.Quiescent → s.shutdown = false → s.handlesAlive = true →
      ¬ (s.hasLiveWaiters = true ∧ ∃ slot < s.size, 0 < (s.slots slot).free)) ∧
    ∀ a, s.outcome a ≠ some (.error .schedulerFailed) := by
  have hs : s.Inv maxInFlight := exec_inv hsize hrun
  refine ⟨fun a => ?_, fun hpoint a hunused hcancelled => ?_, fun slot => ?_, ?_,
    hs.status.outcome_ne_schedulerFailed⟩
  · have hle := (hs.accounted a).le_one
    omega
  · by_cases hsending : ∃ handleId, s.calls a = .sending handleId
    · obtain ⟨handleId, hcall⟩ := hsending
      exact Or.inr (hs.refused_of_ended hpoint hcall)
    · rw [not_exists] at hsending
      exact Or.inl (hs.outcome_of_ended hpoint ⟨hunused, hcancelled, hsending⟩)
  · have hslot := hs.conserved slot
    rw [Semaphore.permits] at hslot
    omega
  · rintro hquiet hopen halive ⟨hlive, slot, hslot, hfree⟩
    rcases hquiet.point with hended | ⟨hparked, hwoken⟩
    · -- the task ends only when the pool is closing
      rcases hs.status.closing (Or.inl (by rw [hended]; rfl)) with hshut | hgone
      · rw [hopen] at hshut
        cases hshut
      · rw [halive] at hgone
        cases hgone
    · have hzero := hs.nothing_to_do hparked hwoken hlive slot hslot
      omega

/-- Two calls for the only permit of the only slot: the first gets it, and `close` finds the
second still in the mailbox. -/
def lateCall : List PoolEvent :=
  ([.acquireStarted 0 7, .acquireSent 0, .acquireStarted 1 8, .acquireSent 1] : List PoolEvent) ++
    (List.replicate 12 (.task 0) : List PoolEvent) ++
    ([.acquireReturned 0, .closeMarked, .shutdownPublished] : List PoolEvent) ++
    (List.replicate 6 (.task 0) : List PoolEvent)

theorem serves_every_caller_lateCall :
    ∃ s, Trace.exec step (new 1 1 ⟨.fifo, 10⟩) lateCall = some s ∧ s.point = .ended ∧
      s.calls 0 = .returned (.ok 0) ∧ s.calls 1 = .refused .poolClosed ∧
      (∀ a, s.answered.count a ≤ 1) ∧
      ∀ slot, (s.slots slot).free + s.leasesOn slot +
        (if (s.slots slot).waiter = .assigned then 1 else 0) + inHand s.point.permit slot = 1 := by
  have hend : (Trace.exec step (new 1 1 ⟨.fifo, 10⟩) lateCall).map
      (fun s => (s.point, s.calls 0, s.calls 1)) =
      some (.ended, .returned (.ok 0), .refused .poolClosed) := by decide +kernel
  obtain ⟨s, hrun, hs⟩ := Option.map_eq_some_iff.mp hend
  simp only [Prod.mk.injEq] at hs
  obtain ⟨hpoint, h0, h1⟩ := hs
  obtain ⟨honce, -, hpermits, -⟩ := serves_every_caller (by decide) hrun
  exact ⟨s, hrun, hpoint, h0, h1, honce, hpermits⟩

end PoolSystem

end Wireframe
