/-
# Permits are conserved and no wakeup is lost

Two invariants of the scheduler task.  `Conserved`: the permits of a slot are free, assigned
to the race, in a live lease, or in the task's hands.  `Waiters`: the race is queued on a slot
exactly where the task says it is, and a slot it is queued on has no free permit; that is why
a parked task that nobody wakes leaves no permit for a waiter.
-/
import Mathlib.Tactic
import Wireframe.PoolSchedulerSteps

namespace Wireframe

/-! ## Semaphores -/

namespace Semaphore

/-- The permits a semaphore still accounts for. -/
def permits (sem : Semaphore) : ℕ := sem.free + if sem.waiter = .assigned then 1 else 0

variable {sem sem' : Semaphore}

theorem permits_release (sem : Semaphore) : sem.release.permits = sem.permits + 1 := by
  obtain ⟨free, waiter⟩ := sem
  cases waiter <;> simp [release, permits]

theorem permits_dropWaiter (sem : Semaphore) : sem.dropWaiter.permits = sem.permits := by
  obtain ⟨free, waiter⟩ := sem
  cases waiter <;> simp [dropWaiter, permits]

theorem tryAcquire_eq_some (h : sem.tryAcquire = some sem') :
    0 < sem.free ∧ sem' = ⟨sem.free - 1, sem.waiter⟩ := by
  simp only [tryAcquire, Option.ite_none_right_eq_some, Option.some.injEq] at h
  exact ⟨h.1, h.2.symm⟩

theorem tryAcquire_eq_none (h : sem.tryAcquire = none) : sem.free = 0 := by
  simpa [tryAcquire] using h

theorem permits_tryAcquire (h : sem.tryAcquire = some sem') : sem'.permits + 1 = sem.permits := by
  obtain ⟨hpos, rfl⟩ := tryAcquire_eq_some h
  simp only [permits]
  omega

/-- Releasing a permit neither queues a waiter nor removes one. -/
theorem release_waiter (sem : Semaphore) :
    sem.release.waiter ≠ .queued ∧ (sem.release.waiter ≠ .absent ↔ sem.waiter ≠ .absent) := by
  obtain ⟨free, waiter⟩ := sem
  cases waiter <;> simp [release]

theorem dropWaiter_waiter (sem : Semaphore) : sem.dropWaiter.waiter = .absent := by
  obtain ⟨free, waiter⟩ := sem
  cases waiter <;> rfl

end Semaphore

/-- The slots whose queues the race is about to enter. -/
def TaskPoint.unentered : TaskPoint → Option (List SlotIndex)
  | .entering slots => some slots
  | _ => none

namespace PoolSystem

/-! ## Where the race is queued -/

/-- The race has entered the queue of this slot. -/
def Entered (s : PoolSystem) (slot : SlotIndex) : Prop :=
  match s.point.unentered with
  | some slots => slot < s.size ∧ slot ∉ slots
  | none => s.pending = some .racing ∧ slot < s.size

theorem entered_entering {s : PoolSystem} {slots : List SlotIndex} {slot : SlotIndex}
    (h : s.point = .entering slots) : s.Entered slot ↔ slot < s.size ∧ slot ∉ slots := by
  rw [Entered, h]
  exact Iff.rfl

theorem entered_of_unentered {s : PoolSystem} {slot : SlotIndex} (h : s.point.unentered = none) :
    s.Entered slot ↔ s.pending = some .racing ∧ slot < s.size := by
  rw [Entered, h]

/-- The semaphores agree with the task about the race, and serve a queued waiter first. -/
structure Waiters (s : PoolSystem) : Prop where
  entered : ∀ slot, (s.slots slot).waiter ≠ .absent ↔ s.Entered slot
  queued : ∀ slot, (s.slots slot).waiter = .queued → (s.slots slot).free = 0

/-- What a point of the task says about the slots it names. -/
def PointOk (size : ℕ) (pending : Option PendingGrant) : TaskPoint → Prop
  | .probing slots => pending = some .started ∧ ∀ slot ∈ slots, slot < size
  | .entering slots => pending = some .started ∧ slots.Nodup ∧ ∀ slot ∈ slots, slot < size
  | .raceWon slot => pending = none ∧ slot < size
  | .sweepProbe slots => ∀ slot ∈ slots, slot < size
  | .wonTake slot | .sweepGot slot | .sweepTake slot | .deliver _ slot => slot < size
  | _ => True

/-! ## Conservation -/

section Conservation

variable {s s' : PoolSystem} {capacity : ℕ} {held held' : Option SlotIndex} {slot : SlotIndex}

/-- Live leases on a slot. -/
def leasesOn (s : PoolSystem) (slot : SlotIndex) : ℕ :=
  s.leases.countP fun lease => lease.2 = slot

/-- **Conservation**: every permit of every slot is accounted for, with one in the task's
hands. -/
def Conserved (capacity : ℕ) (s : PoolSystem) (held : Option SlotIndex) : Prop :=
  ∀ slot, (s.slots slot).permits + s.leasesOn slot + inHand held slot = capacity

/-- One semaphore changes by what moves into or out of the task's hands. -/
theorem Conserved.setSlot {sem : Semaphore} (h : s.Conserved capacity held)
    (hsem : sem.permits + inHand held' slot = (s.slots slot).permits + inHand held slot)
    (hother : ∀ i, i ≠ slot → inHand held' i = inHand held i) :
    (s.setSlot slot sem).Conserved capacity held' := by
  intro i
  have hi := h i
  have hleases : (s.setSlot slot sem).leasesOn i = s.leasesOn i := rfl
  rw [hleases]
  by_cases heq : i = slot
  · subst heq
    simp only [PoolSystem.setSlot, Function.update_self]
    omega
  · simp only [PoolSystem.setSlot, Function.update_of_ne heq]
    rw [hother i heq]
    exact hi

theorem Conserved.releasePermit (h : s.Conserved capacity (some slot)) :
    (s.releasePermit slot).Conserved capacity none := by
  refine h.setSlot ?_ fun i hi => ?_
  · rw [Semaphore.permits_release]
    simp
  · simp [Ne.symm hi]

theorem Conserved.tryAcquire {sem : Semaphore} (h : s.Conserved capacity none)
    (hsem : (s.slots slot).tryAcquire = some sem) :
    (s.setSlot slot sem).Conserved capacity (some slot) := by
  refine h.setSlot ?_ fun i hi => ?_
  · rw [← Semaphore.permits_tryAcquire hsem]
    simp
  · simp [Ne.symm hi]

theorem Conserved.dropRace (h : s.Conserved capacity held) :
    s.dropRace.Conserved capacity held := by
  intro i
  have hi := h i
  rw [← Semaphore.permits_dropWaiter] at hi
  exact hi

theorem Conserved.send (h : s.Conserved capacity held) (a : AcquireId) (outcome : Acquisition) :
    (s.send a outcome).Conserved capacity held := by
  rw [PoolSystem.send]
  split_ifs <;> exact h

/-- A delivery turns the permit in hand into a lease, or gives it back. -/
theorem Conserved.deliver {waiter : AcquireId} (h : s.Conserved capacity (some slot)) :
    (s.deliver waiter slot).Conserved capacity none := by
  rw [PoolSystem.deliver]
  split_ifs with hslot hclosed
  · exact h.releasePermit
  · intro i
    have hi := h i
    rw [PoolSystem.send, if_neg hclosed]
    show (s.slots i).permits + (s.leases ++ [(waiter, slot)]).countP _ + 0 = capacity
    rw [List.countP_append, List.countP_singleton]
    simp only [leasesOn, inHand_some] at hi
    simp only [decide_eq_true_eq]
    omega
  · exact Conserved.releasePermit (h.send waiter _)

/-- A lease ends and its permit comes back. -/
theorem Conserved.endLease {a : AcquireId} (h : s.Conserved capacity held)
    (hmem : (a, slot) ∈ s.leases) (calls : AcquireId → Acquisition) :
    (PoolSystem.releasePermit { s with calls := calls, leases := s.leases.erase (a, slot) }
      slot).Conserved capacity held := by
  intro i
  have hi := h i
  have hcount : (s.leases.erase (a, slot)).countP (fun lease => lease.2 = i) +
      (if slot = i then 1 else 0) = s.leases.countP fun lease => lease.2 = i := by
    have hperm := (List.perm_cons_erase hmem).countP_eq fun lease => decide (lease.2 = i)
    rw [List.countP_cons] at hperm
    simpa using hperm.symm
  simp only [PoolSystem.releasePermit, PoolSystem.setSlot, leasesOn] at hi ⊢
  by_cases heq : i = slot
  · subst heq
    rw [Function.update_self, Semaphore.permits_release]
    rw [if_pos rfl] at hcount
    omega
  · rw [Function.update_of_ne heq]
    rw [if_neg (Ne.symm heq)] at hcount
    omega

theorem Move.permit {p q : TaskPoint} (h : Move s p q) : p.permit = q.permit := by
  cases h <;> rfl

/-- A step of the task conserves the permits, with the one it holds. -/
theorem TaskStep.conserved (h : s.TaskStep s') (hwaiters : s.Waiters)
    (hs : s.Conserved capacity s.point.permit) : s'.Conserved capacity s'.point.permit := by
  cases h with
  | moved cursor hmove =>
    rw [hmove.permit] at hs
    exact hs
  | raceStarted hpoint _ _ | shutdownSeen hpoint _ | raceRefused hpoint _ _ | entered hpoint
  | received hpoint _ | forgot hpoint _ | queued hpoint _ | drainedDeregister hpoint _ =>
    rw [hpoint] at hs
    exact hs
  | raceFinished hpoint _ _ hwaiter =>
    rw [hpoint] at hs
    refine Conserved.dropRace (hs.setSlot ?_ fun i hi => ?_)
    · simp [Semaphore.permits, hwaiter, TaskPoint.permit]
    · simp [Ne.symm hi, TaskPoint.permit]
  | probeHit hpoint hsem | sweepHit hpoint hsem =>
    rw [hpoint] at hs
    exact hs.tryAcquire hsem
  | enterHit hpoint _ hsem =>
    rw [hpoint] at hs
    exact (hs.tryAcquire hsem).dropRace
  | @enterMiss slot slots hpoint hslot _ =>
    -- the race is not on this slot yet, so no permit is assigned to it here
    have habsent : (s.slots slot).waiter = .absent := by
      by_contra hne
      have hentered := (hwaiters.entered slot).mp hne
      rw [entered_entering hpoint] at hentered
      exact hentered.2 hslot
    rw [hpoint] at hs
    have hqueued : (s.setSlot slot { s.slots slot with waiter := .queued }).Conserved
        capacity none := by
      refine hs.setSlot ?_ fun i _ => rfl
      simp [Semaphore.permits, habsent, TaskPoint.permit]
    exact hqueued
  | wonTooLate hpoint _ | gotTooLate hpoint _ =>
    rw [hpoint] at hs
    exact hs.releasePermit
  | picked hpoint _ =>
    rcases hpoint with hp | hp
    · rw [hp] at hs
      exact hs
    · rw [hp] at hs
      exact hs
  | nobody hpoint _ =>
    rcases hpoint with ⟨hp, rfl⟩ | ⟨hp, rfl⟩
    · rw [hp] at hs
      exact Conserved.releasePermit (s := s.setState _ none) hs
    · rw [hp] at hs
      exact Conserved.releasePermit (s := s.setState _ none) hs
  | mailboxEnded hpoint _ _ | drained hpoint _ =>
    rw [hpoint] at hs
    exact hs.dropRace
  | refused hpoint _ =>
    rw [hpoint] at hs
    exact hs.send _ _
  | saturated hpoint _ =>
    rw [hpoint] at hs
    exact Conserved.send (s := s.setState _ _) hs _ _
  | delivered hpoint =>
    rw [hpoint] at hs
    exact hs.deliver
  | dismissed hpoint _ =>
    rw [send_point]
    exact Conserved.send (s := s.setState _ _) hs _ _
  | emptied hpoint _ =>
    rcases hpoint with ⟨hp, rfl⟩ | ⟨hp, rfl⟩
    · rw [hp] at hs
      exact hs
    · rw [hp] at hs
      exact hs
  | @drainedAcquire handleId reply rest hpoint _ =>
    rw [hpoint] at hs
    have hrest : ({ s with mailbox := rest }.goto .drainMailbox).Conserved capacity none := hs
    rw [send_point]
    exact hrest.send _ _

/-- Every lease in a reply channel is a live lease. -/
def LeasesLive (s : PoolSystem) : Prop :=
  ∀ a slot, s.calls a = .leased slot → (a, slot) ∈ s.leases

/-- A step of a caller conserves the permits. -/
theorem EnvStep.conserved (h : s.EnvStep s') (hlive : s.LeasesLive)
    (hs : s.Conserved capacity s.point.permit) : s'.Conserved capacity s'.point.permit := by
  cases h with
  | cancelledLeased hcall => exact hs.endLease (hlive _ _ hcall) _
  | leaseReleased _ hlease => exact hs.endLease hlease s.calls
  | refusedEarly _ =>
    rw [send_point]
    exact hs.send _ _
  | called _ _ | sent _ _ | returnedLease _ | returnedError _ | cancelled _ | handleDropped _
  | handleDroppedLate _ | handlesGone | closeMarked | shutdownPublished _ => exact hs

end Conservation

/-! ## The race and the task agree -/

section Waiters

variable {s s' : PoolSystem} {slot : SlotIndex}

theorem orderedSlotIndices_lt (s : PoolSystem) : ∀ i ∈ s.orderedSlotIndices, i < s.size := by
  intro i hi
  simp only [orderedSlotIndices, rotationIndices, List.mem_map, List.mem_range] at hi
  obtain ⟨offset, hoffset, rfl⟩ := hi
  rw [Nat.max_eq_left (by omega)]
  exact Nat.mod_lt _ (by omega)

/-- The semaphores keep their waiters and nobody new is queued. -/
theorem Waiters.keep (h : s.Waiters)
    (hslots : ∀ i, ((s'.slots i).waiter ≠ .absent ↔ (s.slots i).waiter ≠ .absent))
    (hqueued : ∀ i, (s'.slots i).waiter = .queued → (s'.slots i).free = 0)
    (hentered : ∀ i, s'.Entered i ↔ s.Entered i) : s'.Waiters where
  entered := by
    intro i
    rw [hslots i, hentered i]
    exact h.entered i
  queued := hqueued

/-- Outside the first poll of the race, `Entered` looks at the pending race only. -/
theorem entered_congr (h : s.point.unentered = none) (h' : s'.point.unentered = none)
    (hpending : s'.pending = s.pending) (hsize : s'.size = s.size) (i : SlotIndex) :
    s'.Entered i ↔ s.Entered i := by
  rw [entered_of_unentered h, entered_of_unentered h', hpending, hsize]

theorem Waiters.same (h : s.Waiters) (hslots : s'.slots = s.slots)
    (hentered : ∀ i, s'.Entered i ↔ s.Entered i) : s'.Waiters := by
  refine h.keep (fun i => by rw [hslots]) (fun i hi => ?_) hentered
  rw [hslots] at hi ⊢
  exact h.queued i hi

/-- One semaphore changes, and the race stays on it or off it. -/
theorem Waiters.update {sem : Semaphore} (h : s.Waiters) (slot : SlotIndex)
    (hslots : s'.slots = Function.update s.slots slot sem)
    (hwaiter : sem.waiter ≠ .absent ↔ (s.slots slot).waiter ≠ .absent)
    (hqueued : sem.waiter = .queued → sem.free = 0)
    (hentered : ∀ i, s'.Entered i ↔ s.Entered i) : s'.Waiters := by
  refine h.keep (fun i => ?_) (fun i hi => ?_) hentered
  · rw [hslots]
    by_cases heq : i = slot
    · subst heq
      rw [Function.update_self]
      exact hwaiter
    · rw [Function.update_of_ne heq]
  · rw [hslots] at hi ⊢
    by_cases heq : i = slot
    · subst heq
      rw [Function.update_self] at hi ⊢
      exact hqueued hi
    · rw [Function.update_of_ne heq] at hi ⊢
      exact h.queued i hi

/-- A permit comes back to a slot. -/
theorem Waiters.release (h : s.Waiters) (slot : SlotIndex)
    (hslots : s'.slots = Function.update s.slots slot (s.slots slot).release)
    (hentered : ∀ i, s'.Entered i ↔ s.Entered i) : s'.Waiters := by
  -- the permit goes to the race if it is queued, so it is not queued afterwards
  obtain ⟨hnot, hwaiter⟩ := (s.slots slot).release_waiter
  exact h.update slot hslots hwaiter (fun hi => absurd hi hnot) hentered

/-- A free permit is taken from a slot; then nobody is queued on it. -/
theorem Waiters.tryAcquire {sem : Semaphore} (h : s.Waiters)
    (hsem : (s.slots slot).tryAcquire = some sem)
    (hslots : s'.slots = Function.update s.slots slot sem)
    (hentered : ∀ i, s'.Entered i ↔ s.Entered i) : s'.Waiters := by
  obtain ⟨hpos, rfl⟩ := Semaphore.tryAcquire_eq_some hsem
  refine h.update slot hslots Iff.rfl (fun hi => ?_) hentered
  have hzero := h.queued slot hi
  omega

/-- The race is over. -/
theorem waiters_of_absent (hslots : ∀ i, (s.slots i).waiter = .absent)
    (hentered : ∀ i, ¬ s.Entered i) : s.Waiters where
  entered := by
    intro i
    exact ⟨fun hne => absurd (hslots i) hne, fun hi => absurd hi (hentered i)⟩
  queued := by
    intro i hi
    exact absurd ((hslots i).symm.trans hi) (by simp)

/-- The moves of the task do not touch the race. -/
theorem Move.waiters {p : TaskPoint} {cursor : ℕ} (h : Move s s.point p) (hs : s.Waiters)
    (hok : PointOk s.size s.pending s.point) :
    Waiters { s with point := p, nextSlot := cursor } := by
  refine hs.same rfl ?_
  generalize hp : s.point = q at h hok
  cases h with
  | probed =>
    intro i
    -- the race has probed every slot and entered no queue yet
    have hstarted : s.pending = some .started := hok.1
    rw [entered_entering rfl, entered_of_unentered (by rw [hp]; rfl), hstarted]
    simp
  | _ => exact entered_congr (by rw [hp]; rfl) rfl rfl rfl

/-- A delivery keeps the semaphores, or releases the permit in hand. -/
theorem Waiters.deliver {waiter : AcquireId} {p : TaskPoint} (h : s.Waiters)
    (hentered : ∀ i, ((s.deliver waiter slot).goto p).Entered i ↔ s.Entered i) :
    ((s.deliver waiter slot).goto p).Waiters := by
  by_cases hslot : slot < s.size
  · by_cases hclosed : s.isClosed waiter = true
    · refine h.release slot ?_ hentered
      simp only [PoolSystem.deliver, if_pos hslot, if_pos hclosed]
      rfl
    · refine h.same ?_ hentered
      simp only [PoolSystem.deliver, if_pos hslot, if_neg hclosed, PoolSystem.send]
      rfl
  · refine h.release slot ?_ hentered
    simp only [PoolSystem.deliver, if_neg hslot, PoolSystem.send]
    split_ifs <;> rfl

/-- The race enters the queue of a slot that has no free permit. -/
theorem Waiters.enter {slots : List SlotIndex} (h : s.Waiters) (hpoint : s.point = .entering slots)
    (hnodup : slots.Nodup) (hsize : slot < s.size) (hslot : slot ∈ slots)
    (hsem : (s.slots slot).tryAcquire = none) :
    ((s.setSlot slot { s.slots slot with waiter := .queued }).goto
      (.entering (slots.erase slot))).Waiters := by
  have hentered : ∀ i, (s.slots i).waiter ≠ .absent ↔ i < s.size ∧ i ∉ slots := by
    intro i
    have hi := h.entered i
    rwa [entered_entering hpoint] at hi
  constructor
  · intro i
    rw [entered_entering rfl]
    show (Function.update s.slots slot _ i).waiter ≠ .absent ↔ i < s.size ∧ i ∉ slots.erase slot
    by_cases heq : i = slot
    · subst heq
      rw [Function.update_self]
      simp [hsize, hnodup.not_mem_erase]
    · rw [Function.update_of_ne heq, hentered i, List.mem_erase_of_ne heq]
  · intro i hi
    simp only [goto, PoolSystem.setSlot] at hi ⊢
    by_cases heq : i = slot
    · subst heq
      rw [Function.update_self]
      show (s.slots i).free = 0
      exact Semaphore.tryAcquire_eq_none hsem
    · rw [Function.update_of_ne heq] at hi ⊢
      exact h.queued i hi

/-- A step of the task keeps the semaphores and the race in agreement. -/
theorem TaskStep.waiters (h : s.TaskStep s') (hs : s.Waiters)
    (hok : PointOk s.size s.pending s.point) : s'.Waiters := by
  cases h with
  | moved cursor hmove => exact hmove.waiters hs hok
  | raceStarted hpoint hpending _ =>
    refine hs.same rfl fun i => ?_
    rw [entered_of_unentered rfl, entered_of_unentered (by rw [hpoint]; rfl), hpending]
    simp
  | shutdownSeen hpoint _ | received hpoint _ | forgot hpoint _ | queued hpoint _
  | drainedDeregister hpoint _ =>
    exact hs.same rfl (entered_congr (by rw [hpoint]; rfl) rfl rfl rfl)
  | raceRefused hpoint hpending _ =>
    refine hs.same rfl fun i => ?_
    rw [entered_of_unentered rfl, entered_of_unentered (by rw [hpoint]; rfl), hpending]
    simp [failOnRaceError]
  | raceFinished _ _ _ _ | enterHit _ _ _ | mailboxEnded _ _ _ | drained _ _ =>
    refine waiters_of_absent (fun i => Semaphore.dropWaiter_waiter _) fun i hi => ?_
    rw [entered_of_unentered rfl] at hi
    exact absurd hi.1 (by simp [finish])
  | probeHit hpoint hsem =>
    rw [hpoint] at hok
    refine hs.tryAcquire hsem rfl fun i => ?_
    rw [entered_of_unentered rfl, entered_of_unentered (by rw [hpoint]; rfl), hok.1]
    simp
  | entered hpoint =>
    refine hs.same rfl fun i => ?_
    rw [entered_of_unentered rfl, entered_entering hpoint]
    simp
  | @enterMiss slot slots hpoint hslot hsem =>
    rw [hpoint] at hok
    exact hs.enter hpoint hok.2.1 (hok.2.2 slot hslot) hslot hsem
  | wonTooLate hpoint _ =>
    rw [hpoint] at hok
    exact hs.release _ rfl (entered_congr (by rw [hpoint]; rfl) rfl hok.1.symm rfl)
  | picked hpoint _ =>
    have hp : s.point.unentered = none := by rcases hpoint with hp | hp <;> rw [hp] <;> rfl
    exact hs.same rfl (entered_congr hp rfl rfl rfl)
  | nobody hpoint _ =>
    rcases hpoint with ⟨hp, rfl⟩ | ⟨hp, rfl⟩
    · exact hs.release _ rfl (entered_congr (by rw [hp]; rfl) rfl rfl rfl)
    · exact hs.release _ rfl (entered_congr (by rw [hp]; rfl) rfl rfl rfl)
  | @refused handleId reply hpoint _ =>
    obtain ⟨calls, answered, heq⟩ := s.send_eq reply (.refused s.lifecycle.closeError)
    rw [heq]
    exact hs.same rfl (entered_congr (by rw [hpoint]; rfl) rfl rfl rfl)
  | @saturated handleId reply rejected state hpoint _ =>
    obtain ⟨calls, answered, heq⟩ := (s.setState state (some rejected)).send_eq rejected
      (.refused (.poolSaturated s.admission.maxWaiters))
    rw [heq]
    exact hs.same rfl (entered_congr (by rw [hpoint]; rfl) rfl rfl rfl)
  | sweepHit hpoint hsem =>
    exact hs.tryAcquire hsem rfl (entered_congr (by rw [hpoint]; rfl) rfl rfl rfl)
  | gotTooLate hpoint _ =>
    exact hs.release _ rfl (entered_congr (by rw [hpoint]; rfl) rfl rfl rfl)
  | @delivered waiter slot hpoint =>
    have hcontrol := s.deliver_control waiter slot
    exact hs.deliver (entered_congr (by rw [hpoint]; rfl) rfl hcontrol.pending hcontrol.size)
  | @dismissed waiter state err hpoint _ =>
    obtain ⟨calls, answered, heq⟩ := (s.setState state (some waiter)).send_eq waiter (.refused err)
    rw [heq]
    exact hs.same rfl fun i => Iff.rfl
  | emptied hpoint _ =>
    rcases hpoint with ⟨hp, rfl⟩ | ⟨hp, rfl⟩
    · exact hs.same rfl (entered_congr (by rw [hp]; rfl) rfl rfl rfl)
    · exact hs.same rfl (entered_congr (by rw [hp]; rfl) rfl rfl rfl)
  | @drainedAcquire handleId reply rest hpoint _ =>
    obtain ⟨calls, answered, heq⟩ := ({ s with mailbox := rest }.goto .drainMailbox).send_eq reply
      (.refused .poolClosed)
    rw [heq]
    exact hs.same rfl (entered_congr (by rw [hpoint]; rfl) rfl rfl rfl)

/-- A step of a caller keeps the semaphores and the race in agreement. -/
theorem EnvStep.waiters (h : s.EnvStep s') (hs : s.Waiters) : s'.Waiters := by
  cases h with
  | cancelledLeased _ | leaseReleased _ _ => exact hs.release _ rfl fun i => Iff.rfl
  | @refusedEarly a _ =>
    obtain ⟨calls, answered, heq⟩ := s.send_eq a (.returned (.error s.lifecycle.closeError))
    rw [heq]
    exact hs.same rfl fun i => Iff.rfl
  | called _ _ | sent _ _ | returnedLease _ | returnedError _ | cancelled _ | handleDropped _
  | handleDroppedLate _ | handlesGone | closeMarked | shutdownPublished _ =>
    exact hs.same rfl fun i => Iff.rfl

end Waiters

end PoolSystem

end Wireframe
