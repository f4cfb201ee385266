/-
# The pool drives its queues fairly

The queues of the scheduler were studied on their own, under any sequence of operations
(`QueueRun`).  Here the pool is shown to be such a sequence: whatever callers, leases and `close`
do between two steps of the task, the queues of the pool are those of a run of operations in
which every acquisition is enqueued at most once (`Follows`).  So the queues of a pool are in step
in every state it can reach, and the callers it serves are served in the order of the policy.
-/
import Mathlib.Tactic
import Wireframe.PoolSchedulerSafety
import Wireframe.SchedulerFairness

namespace Wireframe

/-! ## Who has not asked yet -/

/-- The command of the call has not been sent. -/
def Acquisition.Unsent : Acquisition → Prop
  | .unused | .sending _ => True
  | _ => False

/-- The task neither asks its queues for anything here nor has it ended. -/
def TaskPoint.idle : TaskPoint → Bool
  | .wonTake _ | .sweepTake _ | .failing | .drainQueue | .enqueueing _ _ | .ended => false
  | _ => true

/-- The sender that the task is about to put before its queues. -/
def TaskPoint.asks : TaskPoint → Option AcquireId
  | .acquiring _ reply | .enqueueing _ reply => some reply
  | _ => none

namespace PoolSystem

variable {s s' t : PoolSystem}

/-- The sender of `a` has not been put before the queues yet. -/
def Unasked (s : PoolSystem) (a : AcquireId) : Prop :=
  (s.calls a).Unsent ∨ a ∈ s.mailbox.filterMap SchedulerCommand.reply? ∨ s.point.asks = some a

/-- No caller goes away, and nobody becomes one who has not asked. -/
structure Quiet (s s' : PoolSystem) : Prop where
  admission : s'.admission = s.admission
  closed : s'.isClosed = s.isClosed
  unasked : ∀ a, s'.Unasked a → s.Unasked a

theorem Quiet.trans (h : s.Quiet t) (h' : t.Quiet s') : s.Quiet s' where
  admission := h'.admission.trans h.admission
  closed := h'.closed.trans h.closed
  unasked := fun a ha => h.unasked a (h'.unasked a ha)

/-! ### Quiet changes -/

/-- A change that touches none of these fields is quiet. -/
theorem Quiet.of_frame (hadmission : s'.admission = s.admission) (hcalls : s'.calls = s.calls)
    (hmailbox : s'.mailbox ⊆ s.mailbox)
    (hpoint : s'.point.asks = none ∨ s'.point.asks = s.point.asks) : s.Quiet s' where
  admission := hadmission
  closed := by
    funext a
    rw [isClosed, isClosed, hcalls]
  unasked := by
    rintro a (ha | ha | ha)
    · rw [hcalls] at ha
      exact Or.inl ha
    · obtain ⟨command, hcommand, hreply⟩ := List.mem_filterMap.mp ha
      exact Or.inr (Or.inl (List.mem_filterMap.mpr ⟨command, hmailbox hcommand, hreply⟩))
    · rcases hpoint with hnone | hsame
      · rw [hnone] at ha
        cases ha
      · exact Or.inr (Or.inr (hsame ▸ ha))

theorem quiet_goto {point : TaskPoint} (hpoint : point.asks = none) : s.Quiet (s.goto point) :=
  .of_frame rfl rfl (List.Subset.refl _) (Or.inl hpoint)

/-- The calls change, but none is cancelled and none has its command back. -/
theorem Quiet.of_calls (hadmission : s'.admission = s.admission) (hmailbox : s'.mailbox = s.mailbox)
    (hpoint : s'.point = s.point)
    (hcalls : ∀ a, s'.calls a = s.calls a ∨ (s.calls a ≠ .cancelled ∧ s'.calls a ≠ .cancelled ∧
      ((s'.calls a).Unsent → (s.calls a).Unsent))) :
    s.Quiet s' where
  admission := hadmission
  closed := by
    funext a
    rw [isClosed, isClosed]
    rcases hcalls a with hsame | ⟨hlive, hlive', -⟩
    · rw [hsame]
    · rw [beq_eq_false_iff_ne.mpr hlive, beq_eq_false_iff_ne.mpr hlive']
  unasked := by
    rintro a (ha | ha | ha)
    · rcases hcalls a with hsame | ⟨-, -, hsent⟩
      · exact Or.inl (hsame ▸ ha)
      · exact Or.inl (hsent ha)
    · exact Or.inr (Or.inl (hmailbox ▸ ha))
    · exact Or.inr (Or.inr (hpoint ▸ ha))

theorem quiet_update {a : AcquireId} {c : Acquisition} (hlive : s.calls a ≠ .cancelled)
    (hlive' : c ≠ .cancelled) (hunsent : c.Unsent → (s.calls a).Unsent) :
    s.Quiet { s with calls := Function.update s.calls a c } := by
  refine .of_calls rfl rfl rfl fun b => ?_
  by_cases hab : b = a
  · subst hab
    have hcall : Function.update s.calls b c b = c := Function.update_self _ _ _
    simp only [hcall]
    exact Or.inr ⟨hlive, hlive', hunsent⟩
  · exact Or.inl (Function.update_of_ne hab _ _)

/-- An outcome is put into a reply channel that somebody listens to. -/
theorem quiet_send (a : AcquireId) (outcome : Acquisition) (h : outcome.IsOutcome) :
    s.Quiet (s.send a outcome) := by
  rw [send]
  split_ifs with hclosed
  · exact .of_frame rfl rfl (List.Subset.refl _) (Or.inr rfl)
  · have hlive : s.calls a ≠ .cancelled := by simpa [isClosed] using hclosed
    have houtcome : outcome ≠ .cancelled ∧ ¬ outcome.Unsent := by
      cases outcome <;> simp_all [Acquisition.IsOutcome, Acquisition.Unsent]
    have hcall := quiet_update hlive houtcome.1 fun hunsent => absurd hunsent houtcome.2
    exact hcall.trans (.of_frame rfl rfl (List.Subset.refl _) (Or.inr rfl))

theorem quiet_dropSenders (dropped : List AcquireId) : s.Quiet (s.dropSenders dropped) := by
  refine .of_calls rfl rfl rfl fun a => ?_
  simp only [dropSenders]
  split_ifs with hdropped
  · exact Or.inr ⟨by simpa [isClosed] using hdropped.2, by simp, False.elim⟩
  · exact Or.inl rfl

theorem quiet_setState (state : SchedulerState) (taken : Option AcquireId) :
    s.Quiet (s.setState state taken) := by
  have hstate : s.Quiet { s with state := state } :=
    .of_frame rfl rfl (List.Subset.refl _) (Or.inr rfl)
  exact hstate.trans (quiet_dropSenders _)

theorem quiet_deliver (waiter : AcquireId) (slot : SlotIndex) :
    s.Quiet (s.deliver waiter slot) := by
  rw [deliver]
  split_ifs
  · exact .of_frame rfl rfl (List.Subset.refl _) (Or.inr rfl)
  · exact (quiet_send waiter (.leased slot) trivial).trans
      (.of_frame rfl rfl (List.Subset.refl _) (Or.inr rfl))
  · exact (quiet_send waiter (.refused .schedulerFailed) trivial).trans
      (.of_frame rfl rfl (List.Subset.refl _) (Or.inr rfl))

theorem quiet_finish : s.Quiet s.finish := by
  have hrace : s.Quiet s.dropRace := .of_frame rfl rfl (List.Subset.refl _) (Or.inr rfl)
  have hqueues := hrace.trans (quiet_setState .new none)
  have hmailbox := hqueues.trans (quiet_dropSenders (s.mailbox.filterMap SchedulerCommand.reply?))
  exact hmailbox.trans (.of_frame rfl rfl (List.nil_subset _) (Or.inl rfl))

/-! ## A step of the task -/

/-- A control move asks for nobody new. -/
theorem Move.asks {p q : TaskPoint} (h : Move s p q) : q.asks = none ∨ q.asks = p.asks := by
  cases h with
  | stillRunning _ => exact Or.inr rfl
  | _ => exact Or.inl rfl

theorem goto_send (a : AcquireId) (outcome : Acquisition) (point : TaskPoint) :
    (s.send a outcome).goto point = (s.goto point).send a outcome := by
  have hclosed : (s.goto point).isClosed a = s.isClosed a := rfl
  rw [send, send, hclosed]
  split_ifs <;> rfl

/-- The first command leaves the mailbox. -/
theorem quiet_received {command : SchedulerCommand} {rest : List SchedulerCommand}
    (hmailbox : s.mailbox = command :: rest) {point : TaskPoint} (hpoint : point.asks = none) :
    s.Quiet ({ s with mailbox := rest }.goto point) := by
  refine .of_frame rfl rfl ?_ (Or.inl hpoint)
  rw [hmailbox]
  exact List.subset_cons_self _ _

/-- A command of a call that has not asked yet, or of none, enters the mailbox. -/
theorem quiet_push {command : SchedulerCommand}
    (h : ∀ a, command.reply? = some a → s.Unasked a) :
    s.Quiet { s with mailbox := s.mailbox ++ [command] } := by
  refine ⟨rfl, rfl, ?_⟩
  rintro a (ha | ha | ha)
  · exact Or.inl ha
  · change a ∈ (s.mailbox ++ [command]).filterMap SchedulerCommand.reply? at ha
    rw [List.filterMap_append, List.mem_append] at ha
    rcases ha with ha | ha
    · exact Or.inr (Or.inl ha)
    · obtain ⟨_, hcommand, hreply⟩ := List.mem_filterMap.mp ha
      obtain rfl := List.mem_singleton.mp hcommand
      exact h a hreply
  · exact Or.inr (Or.inr ha)

/-- The task cancels nobody, and asks for those whose commands it has received. -/
theorem TaskStep.quiet (h : s.TaskStep s') : s.Quiet s' := by
  cases h with
  | moved cursor hmove => exact .of_frame rfl rfl (List.Subset.refl _) hmove.asks
  | picked _ _ | queued _ _ => exact (quiet_setState _ _).trans (quiet_goto rfl)
  | nobody hpoint _ =>
    have hpermit : ∀ t : PoolSystem, ∀ slot, t.Quiet (t.releasePermit slot) :=
      fun t slot => .of_frame rfl rfl (List.Subset.refl _) (Or.inr rfl)
    refine ((quiet_setState _ _).trans (hpermit _ _)).trans (quiet_goto ?_)
    rcases hpoint with ⟨-, rfl⟩ | ⟨-, rfl⟩ <;> rfl
  | @received handleId reply rest _ hmailbox =>
    refine ⟨rfl, rfl, ?_⟩
    rintro a (ha | ha | ha)
    · exact Or.inl ha
    · refine Or.inr (Or.inl ?_)
      rw [hmailbox]
      exact List.mem_cons_of_mem _ ha
    · -- the command that is received is the mailbox's first
      obtain rfl : reply = a := Option.some.inj ha
      refine Or.inr (Or.inl ?_)
      rw [hmailbox]
      exact List.mem_cons_self
  | @forgot handleId rest _ hmailbox =>
    have hrest : s.Quiet ({ s with mailbox := rest }.goto .top) := quiet_received hmailbox rfl
    exact hrest.trans (quiet_setState _ _)
  | mailboxEnded _ _ _ =>
    have hclosing : s.Quiet { s with lifecycle := s.lifecycle.markClosed } :=
      .of_frame rfl rfl (List.Subset.refl _) (Or.inr rfl)
    exact hclosing.trans quiet_finish
  | @refused _ reply _ _ =>
    exact (quiet_send reply (.refused s.lifecycle.closeError) trivial).trans (quiet_goto rfl)
  | @saturated _ _ rejected _ _ _ =>
    exact ((quiet_setState _ _).trans (quiet_send rejected
      (.refused (.poolSaturated s.admission.maxWaiters)) trivial)).trans (quiet_goto rfl)
  | delivered _ => exact (quiet_deliver _ _).trans (quiet_goto rfl)
  | dismissed _ _ => exact (quiet_setState _ _).trans (quiet_send _ _ trivial)
  | emptied hpoint _ =>
    have hopen : ∀ t : PoolSystem, t.Quiet { t with mailboxOpen := false } :=
      fun t => .of_frame rfl rfl (List.Subset.refl _) (Or.inr rfl)
    refine ((quiet_setState _ _).trans (hopen _)).trans (quiet_goto ?_)
    rcases hpoint with ⟨-, rfl⟩ | ⟨-, rfl⟩ <;> rfl
  | drainedAcquire _ hmailbox =>
    exact (quiet_received hmailbox rfl).trans (quiet_send _ _ trivial)
  | drainedDeregister _ hmailbox => exact quiet_received hmailbox rfl
  | drained _ _ => exact quiet_finish
  | _ => exact .of_frame rfl rfl (List.Subset.refl _) (Or.inl rfl)

/-! ## The pool as a run of the queues -/

/-- **The queues of the pool are those of the run**, as long as the task has not ended, and a
sender that was put before the queues is not put before them again. -/
structure Follows (s : PoolSystem) (run : QueueRun) : Prop where
  state : s.point ≠ .ended → s.state = run.state
  closed : s.isClosed = run.isClosed
  asked : ∀ entry ∈ run.asked, ¬ s.Unasked entry.2

theorem follows_new (size maxInFlight : ℕ) (admission : WaiterAdmission) :
    (new size maxInFlight admission).Follows .new where
  state := fun _ => rfl
  closed := by
    funext a
    rfl
  asked := fun entry hentry => absurd hentry (by simp [QueueRun.new])

/-- The call that the event puts before the queues. -/
def admits (s : PoolSystem) : PoolEvent → List (HandleId × AcquireId)
  | .task _ =>
    match s.point with
    | .enqueueing handleId reply => [(handleId, reply)]
    | _ => []
  | _ => []

/-- The waiter that the event takes off the queues, to be given a lease or an error. -/
def handsOut (s : PoolSystem) : PoolEvent → List AcquireId
  | .task _ =>
    match s.point with
    | .wonTake _ | .sweepTake _ | .failing | .drainQueue =>
      (s.state.takeNextWaiter s.isClosed s.admission.fairnessPolicy).1.toList
    | _ => []
  | _ => []

variable {run run' : QueueRun} {e : PoolEvent}

/-- At an idle point nobody is admitted or handed out. -/
theorem noted_of_idle (h : s.point.idle = true) : s.admits e = [] ∧ s.handsOut e = [] := by
  cases e with
  | task choice =>
    simp only [admits, handsOut]
    cases hpoint : s.point <;> simp_all [TaskPoint.idle]
  | _ => exact ⟨rfl, rfl⟩

/-- Only the task admits and hands out. -/
theorem noted_of_not_task (he : ∀ choice, e ≠ .task choice) :
    s.admits e = [] ∧ s.handsOut e = [] := by
  cases e with
  | task choice => exact absurd rfl (he choice)
  | _ => exact ⟨rfl, rfl⟩

/-- The event is matched by operations on the queues that admit and grant the same calls. -/
def Matched (s : PoolSystem) (e : PoolEvent) (s' : PoolSystem) (run : QueueRun) : Prop :=
  ∃ ops run', Trace.exec (QueueRun.step s.admission) run ops = some run' ∧ s'.Follows run' ∧
    run'.asked = run.asked ++ s.admits e ∧
    (QueueRun.grantsOf s.admission run ops).map Prod.snd = s.handsOut e

/-! ### One operation each -/

/-- Nothing happens to the queues. -/
theorem Follows.idle (h : s.Follows run) (hquiet : s.Quiet s')
    (hpoint : s'.point ≠ .ended → s.point ≠ .ended ∧ s'.state = s.state)
    (hadmits : s.admits e = []) (hhandsOut : s.handsOut e = []) : s.Matched e s' run := by
  refine ⟨[], run, rfl, ⟨fun hp => ?_, hquiet.closed.trans h.closed, fun entry hentry ha => ?_⟩,
    ?_, ?_⟩
  · obtain ⟨hp', hstate⟩ := hpoint hp
    exact hstate.trans (h.state hp')
  · exact h.asked entry hentry (hquiet.unasked _ ha)
  · rw [hadmits, List.append_nil]
  · rw [hhandsOut]
    rfl

/-- What the queues hand out is what the run grants. -/
theorem granted_sender (h : QueueRun.Tracks s.admission run) :
    (run.granted s.admission.fairnessPolicy).map Prod.snd =
      (run.state.takeNextWaiter run.isClosed s.admission.fairnessPolicy).1 := by
  cases hpolicy : s.admission.fairnessPolicy with
  | fifo =>
    obtain ⟨hgranted, htaken, -⟩ := h.granted_fifo hpolicy
    rw [hgranted, htaken]
  | roundRobin =>
    rcases h.granted_roundRobin hpolicy with ⟨hgranted, htaken, -⟩ |
      ⟨_, _, _, _, _, hgranted, htaken, -⟩
    · rw [hgranted, htaken]
      rfl
    · rw [hgranted, htaken]
      rfl

/-- The next waiter is taken. -/
theorem Follows.taken (h : s.Follows run) (htracks : QueueRun.Tracks s.admission run)
    (hquiet : s.Quiet s') (hpoint : s.point ≠ .ended) {taken : Option AcquireId}
    {state : SchedulerState} (htake : s.Takes taken state) (hstate : s'.state = state)
    (hadmits : s.admits e = [])
    (hhandsOut : s.handsOut e =
      (s.state.takeNextWaiter s.isClosed s.admission.fairnessPolicy).1.toList) :
    s.Matched e s' run := by
  have hsame := h.state hpoint
  rw [Takes, hsame, h.closed] at htake
  refine ⟨[.takeNext], _, rfl,
    ⟨fun _ => ?_, hquiet.closed.trans h.closed, fun entry hentry ha => ?_⟩, ?_, ?_⟩
  · show s'.state = (run.state.takeNextWaiter run.isClosed s.admission.fairnessPolicy).2
    rw [htake, hstate]
  · exact h.asked entry hentry (hquiet.unasked _ ha)
  · rw [hadmits, List.append_nil]
  · have hgrants : QueueRun.grantsOf s.admission run [.takeNext] =
        (run.granted s.admission.fairnessPolicy).toList := by
      rw [QueueRun.grantsOf_cons_of_some rfl]
      exact List.append_nil _
    rw [hgrants, hhandsOut, hsame, h.closed, ← granted_sender htracks]
    cases run.granted s.admission.fairnessPolicy <;> rfl

/-- A sender in the task's hands has left the mailbox, and its call has been sent. -/
theorem Accounted.not_unasked {handleId : HandleId} {reply : AcquireId} {point : TaskPoint}
    (h : s.Accounted s.point.reply) (hpoint : s.point = .enqueueing handleId reply)
    (hnext : point.asks = none) : ¬ (s.goto point).Unasked reply := by
  have hbooks := h reply
  rw [hpoint] at hbooks
  have hhand : inHand (TaskPoint.enqueueing handleId reply).reply reply = 1 := if_pos rfl
  rw [hhand] at hbooks
  rintro (hunsent | hmailbox | hasks)
  · change (s.calls reply).Unsent at hunsent
    cases hcall : s.calls reply <;> rw [hcall] at hbooks hunsent <;>
      simp only [Acquisition.Accounts, Acquisition.Unsent] at hbooks hunsent
    · omega
    · omega
  · have hpos := List.count_pos_iff.mpr hmailbox
    have hle := hbooks.le_one
    change 0 < (s.mailbox.filterMap SchedulerCommand.reply?).count reply at hpos
    rw [queuedReplies] at hle
    omega
  · rw [show (s.goto point).point.asks = none from hnext] at hasks
    cases hasks

/-- A waiter is put before the queues, for the first and last time. -/
theorem Follows.asks (h : s.Follows run) (hbooks : s.Accounted s.point.reply)
    {handleId : HandleId} {reply : AcquireId} (hpoint : s.point = .enqueueing handleId reply)
    (point : TaskPoint) (hnext : point.asks = none) (hquiet : (s.goto point).Quiet s')
    (hstate : s'.state = (s.state.enqueueWaiter s.isClosed handleId reply s.admission).2)
    (choice : SlotIndex) : s.Matched (.task choice) s' run := by
  have hlive : s.point ≠ .ended := by
    rw [hpoint]
    exact TaskPoint.noConfusion
  have hasking : s.Unasked reply := by
    refine Or.inr (Or.inr ?_)
    rw [hpoint]
    rfl
  have hfresh : reply ∉ run.asked.map Prod.snd := by
    intro hmem
    obtain ⟨entry, hentry, rfl⟩ := List.mem_map.mp hmem
    exact h.asked entry hentry hasking
  obtain ⟨run', hstep⟩ : ∃ run', run.step s.admission (.enqueue handleId reply) = some run' := by
    simp only [QueueRun.step, if_neg hfresh]
    split
    · exact ⟨_, rfl⟩
    · exact ⟨_, rfl⟩
  obtain ⟨-, hclosed, hstate', hasked, -⟩ := QueueRun.step_enqueue_eq_some hstep
  refine ⟨[.enqueue handleId reply], run', ?_, ⟨fun _ => ?_, ?_, fun entry hentry ha => ?_⟩, ?_, ?_⟩
  · rw [Trace.exec, hstep]
    rfl
  · rw [hstate, hstate', h.state hlive, h.closed]
  · rw [hquiet.closed, hclosed, ← h.closed]
    rfl
  · have hbefore := hquiet.unasked _ ha
    rw [hasked, List.mem_append, List.mem_singleton] at hentry
    rcases hentry with hentry | rfl
    · exact h.asked entry hentry ((quiet_goto hnext).unasked _ hbefore)
    · exact hbooks.not_unasked hpoint hnext hbefore
  · rw [hasked]
    simp only [admits, hpoint]
  · rw [QueueRun.grantsOf_cons_of_some hstep]
    simp only [handsOut, hpoint]
    rfl

/-- A handle's queue is dropped. -/
theorem Follows.forgets (h : s.Follows run) (hquiet : s.Quiet s') (hpoint : s.point ≠ .ended)
    {handleId : HandleId} (hstate : s'.state = s.state.deregisterHandle handleId)
    (hadmits : s.admits e = []) (hhandsOut : s.handsOut e = []) : s.Matched e s' run := by
  refine ⟨[.deregister handleId], _, rfl,
    ⟨fun _ => ?_, hquiet.closed.trans h.closed, fun entry hentry ha => ?_⟩, ?_, ?_⟩
  · rw [hstate, h.state hpoint]
  · exact h.asked entry hentry (hquiet.unasked _ ha)
  · rw [hadmits, List.append_nil]
  · rw [hhandsOut]
    rfl

/-- A caller goes away. -/
theorem Follows.cancels (h : s.Follows run) {a : AcquireId}
    (hcalls : s'.calls = Function.update s.calls a .cancelled) (hmailbox : s'.mailbox = s.mailbox)
    (hpoint : s'.point = s.point) (hstate : s'.state = s.state)
    (hadmits : s.admits e = []) (hhandsOut : s.handsOut e = []) : s.Matched e s' run := by
  refine ⟨[.cancel a], _, rfl, ⟨fun hp => ?_, ?_, fun entry hentry => ?_⟩, ?_, ?_⟩
  · rw [hpoint] at hp
    exact hstate.trans (h.state hp)
  · show s'.isClosed = Function.update run.isClosed a true
    rw [← h.closed]
    funext b
    rw [isClosed, hcalls]
    by_cases hb : b = a
    · subst hb
      rw [Function.update_self, Function.update_self]
      rfl
    · rw [Function.update_of_ne hb, Function.update_of_ne hb]
      rfl
  · rintro (ha | ha | ha)
    · refine h.asked entry hentry (Or.inl ?_)
      rw [hcalls] at ha
      by_cases hb : entry.2 = a
      · rw [hb, Function.update_self] at ha
        exact ha.elim
      · rwa [Function.update_of_ne hb] at ha
    · exact h.asked entry hentry (Or.inr (Or.inl (hmailbox ▸ ha)))
    · exact h.asked entry hentry (Or.inr (Or.inr (hpoint ▸ ha)))
  · rw [hadmits, List.append_nil]
  · rw [hhandsOut]
    rfl

/-- A step of the task that does not touch the queues, unless it is the last. -/
theorem Follows.idleTask (h : s.Follows run) (hquiet : s.Quiet s') (hidle : s.point.idle = true)
    (hstate : s'.point ≠ .ended → s'.state = s.state) : s.Matched e s' run := by
  obtain ⟨hadmits, hhandsOut⟩ := noted_of_idle (e := e) hidle
  refine h.idle hquiet (fun hp => ⟨fun hended => ?_, hstate hp⟩) hadmits hhandsOut
  rw [hended] at hidle
  exact absurd hidle Bool.false_ne_true

theorem Move.idle {p q : TaskPoint} (h : Move s p q) : p.idle = true := by
  cases h <;> rfl

/-! ### Steps -/

/-- **A step of the task is matched.** -/
theorem TaskStep.matched (h : s.TaskStep s') (choice : SlotIndex) (hf : s.Follows run)
    (htracks : QueueRun.Tracks s.admission run) (hbooks : s.Accounted s.point.reply) :
    s.Matched (.task choice) s' run := by
  have hquiet := h.quiet
  have hidle : ∀ {p : TaskPoint}, s.point = p → p.idle = true → s'.state = s.state →
      s.Matched (.task choice) s' run := by
    rintro p rfl hp hstate
    exact hf.idleTask hquiet hp fun _ => hstate
  have htake : ∀ {taken : Option AcquireId} {state : SchedulerState}, s.Takes taken state →
      s'.state = state → ((∃ slot, s.point = .wonTake slot) ∨ (∃ slot, s.point = .sweepTake slot) ∨
        s.point = .failing ∨ s.point = .drainQueue) → s.Matched (.task choice) s' run := by
    intro taken state htake hstate hpoint
    have hp : s.point ≠ .ended ∧ s.admits (.task choice) = [] ∧ s.handsOut (.task choice) =
        (s.state.takeNextWaiter s.isClosed s.admission.fairnessPolicy).1.toList := by
      rcases hpoint with ⟨slot, hp⟩ | ⟨slot, hp⟩ | hp | hp <;> simp [admits, handsOut, hp]
    exact hf.taken htracks hquiet hp.1 htake hstate hp.2.1 hp.2.2
  cases h with
  | moved cursor hmove => exact hidle rfl hmove.idle rfl
  -- the steps that take the next waiter
  | picked hpoint htaken =>
    refine htake htaken rfl ?_
    rcases hpoint with hp | hp
    · exact Or.inl ⟨_, hp⟩
    · exact Or.inr (Or.inl ⟨_, hp⟩)
  | nobody hpoint htaken =>
    refine htake htaken rfl ?_
    rcases hpoint with ⟨hp, -⟩ | ⟨hp, -⟩
    · exact Or.inl ⟨_, hp⟩
    · exact Or.inr (Or.inl ⟨_, hp⟩)
  | dismissed hpoint htaken =>
    refine htake htaken (send_control _ _ _).state ?_
    rcases hpoint with ⟨hp, -⟩ | ⟨hp, -⟩
    · exact Or.inr (Or.inr (Or.inl hp))
    · exact Or.inr (Or.inr (Or.inr hp))
  | emptied hpoint htaken =>
    refine htake htaken rfl ?_
    rcases hpoint with ⟨hp, -⟩ | ⟨hp, -⟩
    · exact Or.inr (Or.inr (Or.inl hp))
    · exact Or.inr (Or.inr (Or.inr hp))
  -- the commands
  | forgot hpoint _ =>
    have hpolling : s.point.idle = true := by
      rw [hpoint]
      rfl
    obtain ⟨hadmits, hhandsOut⟩ := noted_of_idle (e := .task choice) hpolling
    exact hf.forgets hquiet (by simp [hpoint]) rfl hadmits hhandsOut
  | queued hpoint henqueue =>
    refine hf.asks hbooks hpoint .sweepCheck rfl (quiet_setState _ none) ?_ choice
    rw [henqueue]
    rfl
  | @saturated handleId reply rejected state hpoint henqueue =>
    refine hf.asks hbooks hpoint .top rfl ?_ ?_ choice
    · rw [goto_send]
      exact (quiet_setState state (some rejected)).trans (quiet_send rejected
        (.refused (.poolSaturated s.admission.maxWaiters)) trivial)
    · rw [henqueue]
      exact (send_control _ _ _).state
  -- the last steps
  | mailboxEnded hpoint _ _ | drained hpoint _ =>
    exact hf.idleTask hquiet (by rw [hpoint]; rfl) fun hp => absurd rfl hp
  | refused hpoint _ | drainedAcquire hpoint _ =>
    exact hidle hpoint rfl (send_control _ _ _).state
  | delivered hpoint => exact hidle hpoint rfl (deliver_control _ _ _).state
  | _ => exact hidle ‹_› rfl rfl

/-- **What the others do is matched**: only a caller that goes away touches the queues. -/
theorem EnvStep.matched (h : s.EnvStep s') (he : ∀ choice, e ≠ .task choice)
    (hf : s.Follows run) : s.Matched e s' run := by
  obtain ⟨hadmits, hhandsOut⟩ := noted_of_not_task (s := s) he
  obtain ⟨-, hpoint, -, hstate⟩ := h.frame
  have hquiet : s.Quiet s' → s.Matched e s' run := by
    intro hquiet
    refine hf.idle hquiet (fun hp => ⟨?_, hstate⟩) hadmits hhandsOut
    rwa [hpoint] at hp
  cases h with
  | cancelled _ | cancelledLeased _ => exact hf.cancels rfl rfl rfl rfl hadmits hhandsOut
  | refusedEarly _ => exact hquiet (quiet_send _ (.returned _) trivial)
  | called hcall _ =>
    refine hquiet (quiet_update (by simp [hcall]) (by simp) fun _ => ?_)
    rw [hcall]
    trivial
  | @sent a handleId hcall _ =>
    -- the command is in the mailbox from now on
    have hunsent : s.Unasked a := by
      refine Or.inl ?_
      rw [hcall]
      trivial
    have hpush : s.Quiet { s with mailbox := s.mailbox ++ [.acquire handleId a] } := by
      refine quiet_push fun b hb => ?_
      obtain rfl : a = b := Option.some.inj hb
      exact hunsent
    exact hquiet (hpush.trans (quiet_update (by simp [hcall]) (by simp) False.elim))
  | returnedLease hcall => exact hquiet (quiet_update (by simp [hcall]) (by simp) False.elim)
  | returnedError hcall =>
    refine hquiet (quiet_update ?_ (by simp) False.elim)
    rcases hcall with hcall | ⟨hcall, -⟩ <;> simp [hcall]
  | handleDropped _ =>
    refine hquiet (quiet_push fun b hreply => ?_)
    exact absurd hreply (by simp [SchedulerCommand.reply?])
  | _ => exact hquiet (.of_frame rfl rfl (List.Subset.refl _) (Or.inr rfl))

/-! ## Whole runs -/

theorem EnvStep.admission (h : s.EnvStep s') : s'.admission = s.admission := by
  cases h with
  | @refusedEarly a _ => exact (quiet_send a (.returned _) trivial).admission
  | _ => rfl

theorem step_matched (hstep : s.step e = some s') (hf : s.Follows run)
    (htracks : QueueRun.Tracks s.admission run) (hbooks : s.Accounted s.point.reply) :
    s'.admission = s.admission ∧ s.Matched e s' run := by
  by_cases he : ∃ choice, e = .task choice
  · obtain ⟨choice, rfl⟩ := he
    have htask := taskStep_cases hstep
    exact ⟨htask.quiet.admission, htask.matched choice hf htracks hbooks⟩
  · have henv := envStep_cases hstep (not_exists.mp he)
    exact ⟨henv.admission, henv.matched (not_exists.mp he) hf⟩

/-- A run of the pool goes on with a run of its queues that admits and grants the same calls. -/
theorem Follows.exec {capacity : ℕ} {events : List PoolEvent} (hf : s.Follows run)
    (hs : s.Inv capacity) (htracks : QueueRun.Tracks s.admission run)
    (hexec : Trace.exec step s events = some s') :
    s'.admission = s.admission ∧
    ∃ ops run', Trace.exec (QueueRun.step s.admission) run ops = some run' ∧ s'.Follows run' ∧
      run'.asked = run.asked ++ Trace.log step admits s events ∧
      (QueueRun.grantsOf s.admission run ops).map Prod.snd = Trace.log step handsOut s events := by
  induction events generalizing s run with
  | nil =>
    cases hexec
    exact ⟨rfl, [], run, rfl, hf, (List.append_nil _).symm, rfl⟩
  | cons e events ih =>
    obtain ⟨t, hstep, hrest⟩ := Trace.exec_cons_eq_some hexec
    obtain ⟨hadmission, ops, next, hops, hnext, hasked, hgrants⟩ :=
      step_matched hstep hf htracks hs.accounted
    have htracks' : QueueRun.Tracks s.admission next :=
      Trace.exec_invariant (fun _ _ _ hr hop => hr.step hop) htracks hops
    rw [← hadmission] at htracks' hops hgrants
    have ht : t.Inv capacity := (step_cases hstep).elim (·.inv hs) (·.inv hs)
    obtain ⟨hlast, later, run', hlater, hf', hasked', hgrants'⟩ := ih hnext ht htracks' hrest
    rw [← hadmission]
    refine ⟨hlast, ops ++ later, run', ?_, hf', ?_, ?_⟩
    · rw [Trace.exec_append, hops]
      exact hlater
    · rw [hasked', hasked, Trace.log_cons_of_some hstep, List.append_assoc]
    · rw [QueueRun.grantsOf_append hops, List.map_append, hgrants, hgrants',
        Trace.log_cons_of_some hstep]

section Reachable

variable {size maxInFlight : ℕ} {admission : WaiterAdmission} {events : List PoolEvent}

/-- **The pool refines its queues**: every run of the pool is a run of operations on the queues. -/
theorem exec_follows (hsize : 0 < size)
    (hrun : Trace.exec step (new size maxInFlight admission) events = some s) :
    s.admission = admission ∧
    ∃ ops run, Trace.exec (QueueRun.step admission) .new ops = some run ∧ s.Follows run ∧
      run.asked = Trace.log step admits (new size maxInFlight admission) events ∧
      (QueueRun.grantsOf admission .new ops).map Prod.snd =
        Trace.log step handsOut (new size maxInFlight admission) events :=
  (follows_new size maxInFlight admission).exec (inv_new hsize admission)
    (QueueRun.tracks_new admission) hrun

/-- The queues are in step in every state of the pool. -/
theorem exec_wellQueued (hsize : 0 < size)
    (hrun : Trace.exec step (new size maxInFlight admission) events = some s) :
    s.state.WellQueued admission.maxWaiters := by
  obtain ⟨-, ops, run, hops, hf, -⟩ := exec_follows hsize hrun
  by_cases hpoint : s.point = .ended
  · rw [((exec_inv hsize hrun).drained hpoint).2.2]
    exact SchedulerState.wellQueued_new _
  · rw [hf.state hpoint]
    exact QueueRun.exec_wellQueued hops

/-- **The pool serves in the order of its policy**: under FIFO the waiters come off the queues in
the order in which their commands were handled, and under either policy those of one handle do. -/
theorem handsOut_in_order (hsize : 0 < size)
    (hrun : Trace.exec step (new size maxInFlight admission) events = some s) :
    ∃ grants : List (HandleId × AcquireId),
      grants.map Prod.snd = Trace.log step handsOut (new size maxInFlight admission) events ∧
      (admission.fairnessPolicy = .fifo →
        grants.Sublist (Trace.log step admits (new size maxInFlight admission) events)) ∧
      ∀ handleId, (grants.filter fun entry => entry.1 == handleId).Sublist
        ((Trace.log step admits (new size maxInFlight admission) events).filter
          fun entry => entry.1 == handleId) := by
  obtain ⟨-, ops, run, hops, -, hasked, hgrants⟩ := exec_follows hsize hrun
  rw [← hasked]
  have hfifo : admission.fairnessPolicy = .fifo →
      (QueueRun.grantsOf admission .new ops).Sublist run.asked := by
    intro hpolicy
    have hall := QueueRun.grantsOf_new_sublist (QueueRun.servesFirst_fifo hpolicy) hops
    rwa [List.filter_true, List.filter_true] at hall
  refine ⟨QueueRun.grantsOf admission .new ops, hgrants, hfifo, fun handleId => ?_⟩
  cases hpolicy : admission.fairnessPolicy with
  | fifo => exact (hfifo hpolicy).filter _
  | roundRobin =>
    exact QueueRun.grantsOf_new_sublist (QueueRun.servesFirst_roundRobin hpolicy handleId) hops

end Reachable

end PoolSystem

end Wireframe
