/-
# Every acquisition is answered once

A reply sender is in one place at a time: in the mailbox, in a waiter queue or in a local
variable of the task.  `Accounted` keeps the books for each call of `acquire`: while it
waits, exactly one copy of its sender exists and nothing has been answered; once it has an
outcome, no copy is left and the outcome is its only one.  When the task has ended no sender
is left anywhere, so every call that was not cancelled has its one outcome.
-/
import Mathlib.Tactic
import Wireframe.PoolSchedulerSteps

namespace Wireframe

/-! ## The books of one call -/

/-- A call with `inFlight` copies of its sender and `answers` outcomes given to it. -/
def Acquisition.Accounts : Acquisition → ℕ → ℕ → Prop
  | .unused, inFlight, answers => inFlight = 0 ∧ answers = 0
  | .sending _, inFlight, answers => inFlight = 0 ∧ answers = 0
  | .waiting, inFlight, answers => inFlight = 1 ∧ answers = 0
  | .leased _, inFlight, answers => inFlight = 0 ∧ answers = 1
  | .refused _, inFlight, answers => inFlight = 0 ∧ answers = 1
  | .abandoned, inFlight, answers => inFlight = 0 ∧ answers = 1
  | .returned _, inFlight, answers => inFlight = 0 ∧ answers = 1
  | .cancelled, inFlight, answers => inFlight + answers ≤ 1

/-- The outcomes that can be put into a reply channel, or returned at once. -/
def Acquisition.IsOutcome : Acquisition → Prop
  | .leased _ | .refused _ | .abandoned | .returned _ => True
  | .unused | .sending _ | .waiting | .cancelled => False

section Accounts

variable {c : Acquisition} {inFlight answers : ℕ}

theorem Acquisition.Accounts.le_one (h : c.Accounts inFlight answers) :
    inFlight + answers ≤ 1 := by
  cases c <;> simp only [Acquisition.Accounts] at h <;> omega

/-- Only a waiting call has a sender in flight, unless its caller is gone. -/
theorem Acquisition.Accounts.waiting_of_pos (h : c.Accounts inFlight answers) (hpos : 0 < inFlight)
    (hc : c ≠ .cancelled) : c = .waiting ∧ answers = 0 := by
  cases c <;> simp only [Acquisition.Accounts] at h
  case waiting => exact ⟨rfl, h.2⟩
  case cancelled => exact absurd rfl hc
  all_goals omega

theorem Acquisition.IsOutcome.accounts (h : c.IsOutcome) : c.Accounts 0 1 := by
  cases c <;> simp_all [Acquisition.IsOutcome, Acquisition.Accounts]

end Accounts

namespace PoolSystem

/-- Copies of the sender of `a` in the mailbox and the queues. -/
def queuedReplies (s : PoolSystem) (a : AcquireId) : ℕ :=
  (s.mailbox.filterMap SchedulerCommand.reply?).count a + s.state.senders.count a

/-- **The books of every call**, with one sender in the task's hands. -/
def Accounted (s : PoolSystem) (held : Option AcquireId) : Prop :=
  ∀ a, (s.calls a).Accounts (s.queuedReplies a + inHand held a) (s.answered.count a)

/-! ### The operations -/

section Books

variable {s t : PoolSystem} {held held' : Option AcquireId} {a : AcquireId}

/-- Senders that are dropped answer their calls, once each. -/
theorem Accounted.dropSenders {dropped : List AcquireId} (h : s.Accounted held)
    (hcalls : t.calls = s.calls) (hanswered : t.answered = s.answered)
    (hcount : ∀ a, t.queuedReplies a + inHand held' a + dropped.count a =
      s.queuedReplies a + inHand held a) :
    (t.dropSenders dropped).Accounted held' := by
  intro a
  have ha := h a
  rw [← hcount a] at ha
  have hanswers : (t.dropSenders dropped).answered.count a =
      s.answered.count a + if t.isClosed a then 0 else dropped.count a := by
    rw [PoolSystem.dropSenders, List.count_append, hanswered,
      SchedulerState.count_filter_live t.isClosed]
  have hqueued : (t.dropSenders dropped).queuedReplies a = t.queuedReplies a := rfl
  rw [hanswers, hqueued]
  simp only [PoolSystem.dropSenders, hcalls]
  by_cases hclosed : s.calls a = .cancelled
  · have hc : t.isClosed a = true := by simp [isClosed, hcalls, hclosed]
    rw [if_neg (by simp [hc]), if_pos hc, hclosed]
    rw [hclosed] at ha
    have hle := ha.le_one
    show _ ≤ 1
    omega
  · have hc : t.isClosed a = false := by simpa [isClosed, hcalls] using hclosed
    rw [hc, if_neg Bool.false_ne_true]
    by_cases hmem : a ∈ dropped
    · -- the last copy of its sender is gone
      have hpos := List.count_pos_iff.mpr hmem
      obtain ⟨-, hzero⟩ := ha.waiting_of_pos (by omega) hclosed
      have hle := ha.le_one
      rw [if_pos ⟨hmem, rfl⟩]
      exact ⟨by omega, by omega⟩
    · have hnone := List.count_eq_zero.mpr hmem
      rw [if_neg (fun hm => hmem hm.1), hnone, Nat.add_zero]
      rwa [hnone, Nat.add_zero] at ha

/-- The queues change: what they no longer hold was handed out or is dropped. -/
theorem Accounted.setState {state : SchedulerState} (h : s.Accounted held)
    (hcount : ∀ a, state.senders.count a + inHand held' a ≤
      s.state.senders.count a + inHand held a)
    (hkeep : ∀ a, held = some a → 0 < state.senders.count a + inHand held' a) :
    (s.setState state held').Accounted held' := by
  refine h.dropSenders rfl rfl fun a => ?_
  have hle := (h a).le_one
  have hc := hcount a
  have hk := hkeep a
  rw [queuedReplies] at hle
  simp only [queuedReplies]
  by_cases hgone : a ∉ state.senders ∧ held' ≠ some a
  · have hzero := List.count_eq_zero.mpr hgone.1
    have hnone : inHand held' a = 0 := if_neg hgone.2
    have hheld : inHand held a = 0 := by
      refine if_neg fun heq => ?_
      have := hk heq
      omega
    rw [List.count_filter (by simpa using hgone), hzero, hnone, hheld]
    omega
  · have hdrop : (s.state.senders.filter fun a =>
        decide (a ∉ state.senders ∧ held' ≠ some a)).count a = 0 := by
      rw [List.count_eq_zero, List.mem_filter, not_and]
      intro _ hcond
      exact hgone (by simpa using hcond)
    have hpos : 0 < state.senders.count a + inHand held' a := by
      rw [not_and_or, not_not, not_not] at hgone
      rcases hgone with hmem | heq
      · have := List.count_pos_iff.mpr hmem
        omega
      · rw [heq]
        simp
    rw [hdrop]
    omega

/-- Sending an outcome uses up the sender in the task's hands. -/
theorem Accounted.send {outcome : Acquisition} (h : s.Accounted (some a))
    (houtcome : outcome.IsOutcome) : (s.send a outcome).Accounted none := by
  intro b
  have hb := h b
  by_cases hclosed : s.isClosed a = true
  · -- the receiver is gone and the outcome with it
    rw [PoolSystem.send, if_pos hclosed]
    by_cases hab : a = b
    · subst hab
      have hcall : s.calls a = .cancelled := by simpa [isClosed] using hclosed
      rw [hcall] at hb ⊢
      have hle := hb.le_one
      rw [inHand_some, if_pos rfl] at hle
      show _ ≤ 1
      rw [inHand_none]
      omega
    · rw [inHand_some, if_neg hab] at hb
      exact hb
  · rw [PoolSystem.send, if_neg hclosed]
    by_cases hab : a = b
    · subst hab
      have hle := hb.le_one
      rw [inHand_some, if_pos rfl] at hle hb
      obtain ⟨-, hzero⟩ := hb.waiting_of_pos (by omega) (by simpa [isClosed] using hclosed)
      have hqueued : s.queuedReplies a = 0 := by omega
      show (Function.update s.calls a outcome a).Accounts (s.queuedReplies a + _) _
      rw [Function.update_self, hqueued, List.count_append, hzero]
      simpa using houtcome.accounts
    · rw [inHand_some, if_neg hab] at hb
      simpa [queuedReplies, Function.update_of_ne (Ne.symm hab), List.count_append, hab] using hb

/-- A command leaves the mailbox. -/
theorem Accounted.receive {command : SchedulerCommand} {rest : List SchedulerCommand}
    (h : s.Accounted none) (hmailbox : s.mailbox = command :: rest) :
    PoolSystem.Accounted { s with mailbox := rest } command.reply? := by
  intro b
  have hb := h b
  have hcount : s.queuedReplies b + inHand none b =
      queuedReplies { s with mailbox := rest } b + inHand command.reply? b := by
    simp only [queuedReplies, hmailbox, List.filterMap_cons]
    cases hreply : command.reply? with
    | none => rfl
    | some a =>
      simp only [List.count_cons, inHand_none, inHand_some, beq_iff_eq]
      omega
  rwa [hcount] at hb

/-- When the task returns, whatever is left is dropped. -/
theorem Accounted.finish (h : s.Accounted none) : s.finish.Accounted none := by
  have hqueues : (s.dropRace.setState .new none).Accounted none :=
    Accounted.setState (s := s.dropRace) h (by simp [SchedulerState.senders, SchedulerState.new])
      (by simp)
  have hmailbox : ({ s.dropRace.setState .new none with mailbox := [] }.dropSenders
      (s.mailbox.filterMap SchedulerCommand.reply?)).Accounted none := by
    refine hqueues.dropSenders rfl rfl fun a => ?_
    show 0 + 0 + 0 + _ = _ + 0 + 0
    rw [Nat.zero_add, Nat.add_zero]
    rfl
  exact hmailbox

end Books

/-! ## Every step keeps the books -/

section Steps

variable {s s' : PoolSystem}

theorem Move.reply {p q : TaskPoint} (h : Move s p q) : p.reply = q.reply := by
  cases h <;> rfl

/-- A waiter taken off the queues is in the task's hands. -/
theorem Accounted.takes {taken : Option AcquireId} {state : SchedulerState}
    (h : s.Accounted none) (htake : s.Takes taken state) :
    (s.setState state taken).Accounted taken := by
  obtain ⟨-, hcount⟩ := SchedulerState.takeNextWaiter_spec htake
  exact h.setState hcount (by simp)

/-- An admitted sender is in the queues. -/
theorem Accounted.enqueued {handleId : HandleId} {reply : AcquireId} {state : SchedulerState}
    (h : s.Accounted (some reply))
    (henqueue : s.state.enqueueWaiter s.isClosed handleId reply s.admission = (.enqueued, state)) :
    (s.setState state none).Accounted none := by
  have hcount := SchedulerState.count_senders_enqueue henqueue
  have hadded : ∀ a, state.senders.count a =
      (if s.isClosed a then 0 else s.state.senders.count a) + if reply = a then 1 else 0 := by
    intro a
    rcases hcount a with ⟨-, heq⟩ | ⟨hsaturated, -⟩
    · exact heq
    · cases hsaturated
  refine h.setState (fun a => ?_) (fun a ha => ?_)
  · rw [hadded, inHand_none, inHand_some]
    split_ifs <;> omega
  · rw [hadded, if_pos (Option.some.inj ha)]
    omega

/-- A rejected sender is handed back. -/
theorem Accounted.saturated {handleId : HandleId} {reply rejected : AcquireId}
    {state : SchedulerState} (h : s.Accounted (some reply))
    (henqueue : s.state.enqueueWaiter s.isClosed handleId reply s.admission =
      (.saturated rejected, state)) :
    rejected = reply ∧ (s.setState state (some rejected)).Accounted (some rejected) := by
  have hcount := SchedulerState.count_senders_enqueue henqueue
  obtain rfl : rejected = reply := by
    rcases hcount reply with ⟨henqueued, -⟩ | ⟨hsaturated, -⟩
    · cases henqueued
    · exact WaiterEnqueueResult.saturated.inj hsaturated
  refine ⟨rfl, h.setState (fun a => Nat.add_le_add_right ?_ _) (fun a ha => ?_)⟩
  · rcases hcount a with ⟨henqueued, -⟩ | ⟨-, heq⟩
    · cases henqueued
    · rw [heq]
      split_ifs <;> omega
  · rw [ha, inHand_some, if_pos rfl]
    omega

/-- A delivery uses up the waiter's sender, whether or not its caller is still there. -/
theorem Accounted.deliver {waiter : AcquireId} {slot : SlotIndex} (h : s.Accounted (some waiter)) :
    (s.deliver waiter slot).Accounted none := by
  have hleased : (s.send waiter (.leased slot)).Accounted none := h.send trivial
  rw [PoolSystem.deliver]
  split_ifs with hslot hclosed
  · rw [PoolSystem.send, if_pos hclosed] at hleased
    exact hleased
  · exact hleased
  · have hfailed : (s.send waiter (.refused .schedulerFailed)).Accounted none := h.send trivial
    exact hfailed

/-! ### The task -/

/-- A step of the task keeps the books, with the sender it holds. -/
theorem TaskStep.accounted (h : s.TaskStep s') (hs : s.Accounted s.point.reply) :
    s'.Accounted s'.point.reply := by
  cases h with
  | moved cursor hmove =>
    rw [hmove.reply] at hs
    exact hs
  | raceStarted hpoint _ _ | shutdownSeen hpoint _ | raceRefused hpoint _ _
  | raceFinished hpoint _ _ _ | probeHit hpoint _ | entered hpoint | enterHit hpoint _ _
  | enterMiss hpoint _ _ | wonTooLate hpoint _ | sweepHit hpoint _ | gotTooLate hpoint _ =>
    rw [hpoint] at hs
    exact hs
  | picked hpoint htake =>
    have hnone : s.point.reply = none := by rcases hpoint with hp | hp <;> rw [hp] <;> rfl
    rw [hnone] at hs
    exact hs.takes htake
  | nobody hpoint htake | emptied hpoint htake =>
    rcases hpoint with ⟨hp, rfl⟩ | ⟨hp, rfl⟩
    · rw [hp] at hs
      exact hs.takes htake
    · rw [hp] at hs
      exact hs.takes htake
  | received hpoint hmailbox | drainedDeregister hpoint hmailbox =>
    rw [hpoint] at hs
    exact hs.receive hmailbox
  | forgot hpoint hmailbox =>
    rw [hpoint] at hs
    refine Accounted.setState (hs.receive hmailbox) (fun a => ?_) (by simp [SchedulerCommand.reply?])
    exact Nat.add_le_add (SchedulerState.count_senders_deregister_le _) le_rfl
  | mailboxEnded hpoint _ _ | drained hpoint _ =>
    rw [hpoint] at hs
    exact Accounted.finish hs
  | refused hpoint _ =>
    rw [hpoint] at hs
    exact hs.send trivial
  | queued hpoint henqueue =>
    rw [hpoint] at hs
    exact hs.enqueued henqueue
  | saturated hpoint henqueue =>
    rw [hpoint] at hs
    obtain ⟨rfl, hrejected⟩ := hs.saturated henqueue
    exact hrejected.send trivial
  | delivered hpoint =>
    rw [hpoint] at hs
    exact hs.deliver
  | dismissed hpoint htake =>
    have hnone : s.point.reply = none := by
      rcases hpoint with ⟨hp, -⟩ | ⟨hp, -⟩ <;> rw [hp] <;> rfl
    rw [send_point]
    show PoolSystem.Accounted _ s.point.reply
    rw [hnone] at hs ⊢
    exact (hs.takes htake).send trivial
  | drainedAcquire hpoint hmailbox =>
    rw [hpoint] at hs
    rw [send_point]
    exact Accounted.send (hs.receive hmailbox) trivial

/-! ### The callers -/

/-- A call changes its own stage, and its books fit the new one as well. -/
theorem Accounted.updateCall {held : Option AcquireId} {a : AcquireId} {c : Acquisition}
    (h : s.Accounted held)
    (hbooks : ∀ {inFlight answers : ℕ}, (s.calls a).Accounts inFlight answers →
      c.Accounts inFlight answers) :
    PoolSystem.Accounted { s with calls := Function.update s.calls a c } held := by
  intro b
  by_cases hab : b = a
  · subst hab
    show (Function.update s.calls b c b).Accounts _ _
    rw [Function.update_self]
    exact hbooks (h b)
  · show (Function.update s.calls a c b).Accounts _ _
    rw [Function.update_of_ne hab]
    exact h b

/-- A call is refused before its command was sent. -/
theorem Accounted.sendEarly {held : Option AcquireId} {a : AcquireId} {outcome : Acquisition}
    (h : s.Accounted held) (hcall : s.calls a = .unused ∨ ∃ handleId, s.calls a = .sending handleId)
    (houtcome : outcome.IsOutcome) : (s.send a outcome).Accounted held := by
  intro b
  have hb := h b
  have hopen : s.isClosed a = false := by
    rcases hcall with hcall | ⟨handleId, hcall⟩ <;> simp [isClosed, hcall]
  rw [PoolSystem.send, if_neg (by simp [hopen])]
  show (Function.update s.calls a outcome b).Accounts (s.queuedReplies b + _)
    ((s.answered ++ [a]).count b)
  rw [List.count_append, List.count_singleton]
  by_cases hab : b = a
  · subst hab
    have hzero : s.queuedReplies b + inHand held b = 0 ∧ s.answered.count b = 0 := by
      rcases hcall with hcall | ⟨handleId, hcall⟩ <;> rw [hcall] at hb <;> exact hb
    rw [Function.update_self, hzero.1, hzero.2]
    simpa using houtcome.accounts
  · rw [Function.update_of_ne hab]
    simpa [Ne.symm hab] using hb

/-- A command enters the mailbox with the sender of its call. -/
theorem Accounted.submit {held : Option AcquireId} {a : AcquireId} {handleId : HandleId}
    (h : s.Accounted held) (hcall : s.calls a = .sending handleId) :
    PoolSystem.Accounted { s with
      calls := Function.update s.calls a .waiting
      mailbox := s.mailbox ++ [.acquire handleId a] } held := by
  intro b
  have hb := h b
  have hqueued : ((s.mailbox ++ [SchedulerCommand.acquire handleId a]).filterMap
      SchedulerCommand.reply?).count b =
      (s.mailbox.filterMap SchedulerCommand.reply?).count b + if a = b then 1 else 0 := by
    rw [List.filterMap_append, List.count_append,
      show [SchedulerCommand.acquire handleId a].filterMap SchedulerCommand.reply? = [a] from rfl,
      List.count_singleton]
    simp
  simp only [queuedReplies] at hb ⊢
  rw [hqueued]
  by_cases hab : b = a
  · subst hab
    rw [hcall] at hb
    obtain ⟨hzero, hnone⟩ := hb
    rw [Function.update_self, if_pos rfl]
    exact ⟨by omega, hnone⟩
  · rw [Function.update_of_ne hab, if_neg (Ne.symm hab)]
    exact hb

/-- A step of a caller keeps the books. -/
theorem EnvStep.accounted (h : s.EnvStep s') (hs : s.Accounted s.point.reply) :
    s'.Accounted s'.point.reply := by
  cases h with
  | called hcall _ =>
    exact hs.updateCall (by rw [hcall]; exact id)
  | refusedEarly hcall =>
    rw [send_point]
    refine hs.sendEarly ?_ trivial
    rcases hcall with hcall | ⟨handleId, hcall⟩ <;> rw [hcall] <;> simp
  | sent hcall _ => exact hs.submit hcall
  | returnedLease hcall => exact hs.updateCall (by rw [hcall]; exact id)
  | returnedError hcall =>
    refine hs.updateCall ?_
    rcases hcall with hcall | ⟨hcall, -⟩ <;> rw [hcall] <;> exact id
  | cancelled hcall =>
    refine hs.updateCall fun hbooks => hbooks.le_one
  | cancelledLeased hcall => exact hs.updateCall fun hbooks => hbooks.le_one
  | handleDropped _ =>
    intro b
    have hb := hs b
    simp only [queuedReplies, List.filterMap_append] at hb ⊢
    rw [show [SchedulerCommand.deregisterHandle _].filterMap SchedulerCommand.reply? = [] from rfl,
      List.append_nil]
    exact hb
  | leaseReleased _ _ | handleDroppedLate _ | handlesGone | closeMarked | shutdownPublished _ =>
    exact hs

end Steps

end PoolSystem

end Wireframe
