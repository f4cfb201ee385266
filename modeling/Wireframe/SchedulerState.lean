/-
# The scheduler's waiter queues

The fairness and waiter state of `src/client/pool/scheduler/state.rs`.  A waiter is the
sending half of a reply channel; here it is the identity of the acquisition it belongs to,
and whether the receiver has gone away (`is_closed`) is a parameter, since it is the
callers who decide it.

What the scheduler's correctness needs from the queues is how many copies of a sender they
hold: `count_senders` of each operation says which senders it adds, hands out or drops.
-/
import Mathlib.Tactic
import Wireframe.KeyedMap

namespace Wireframe

/-! ## Settings and queues -/

/-- Fairness ordering for blocked acquisitions. -/
inductive PoolFairnessPolicy where
  | roundRobin
  | fifo
  deriving DecidableEq, Repr

/-- Fairness and capacity settings applied to one waiter admission attempt. -/
structure WaiterAdmission where
  fairnessPolicy : PoolFairnessPolicy
  maxWaiters : ℕ
  deriving DecidableEq, Repr

abbrev HandleId := ℕ

/-- One acquisition, and with it the two halves of its reply channel. -/
abbrev AcquireId := ℕ

/-- Fairness queues owned exclusively by the scheduler task. -/
structure SchedulerState where
  fifoQueue : List (HandleId × AcquireId)
  roundRobinOrder : List HandleId
  handleWaiters : KeyedMap HandleId (List AcquireId)

/-- Result of admitting one acquisition to the waiter queues. -/
inductive WaiterEnqueueResult where
  | enqueued
  | saturated (rejected : AcquireId)
  deriving DecidableEq, Repr

/-- Pop the oldest request whose caller still listens, discarding abandoned ones. -/
def popLiveWaiter (isClosed : AcquireId → Bool) : List AcquireId → Option AcquireId × List AcquireId
  | [] => (none, [])
  | sender :: queue => if isClosed sender then popLiveWaiter isClosed queue else (some sender, queue)

namespace SchedulerState

/-- Empty queues and no known logical sessions. -/
def new : SchedulerState := ⟨[], [], ∅⟩

/-! ## Operations -/

section Operations

variable (isClosed : AcquireId → Bool)

/-- Register a handle the first time it acquires capacity. -/
def registerHandle (st : SchedulerState) (handleId : HandleId) : SchedulerState :=
  match st.handleWaiters.lookup handleId with
  | some _ => st
  | none =>
    { st with
      handleWaiters := st.handleWaiters.insert handleId []
      roundRobinOrder := st.roundRobinOrder ++ [handleId] }

/-- Remove a handle and abandon its queued requests. -/
def deregisterHandle (st : SchedulerState) (handleId : HandleId) : SchedulerState where
  handleWaiters := st.handleWaiters.erase handleId
  roundRobinOrder := st.roundRobinOrder.filter fun queuedId => queuedId != handleId
  fifoQueue := st.fifoQueue.filter fun entry => entry.1 != handleId

/-- Remove abandoned acquisitions from every policy queue. -/
def pruneCancelledWaiters (st : SchedulerState) : SchedulerState :=
  { st with
    fifoQueue := st.fifoQueue.filter fun entry => !isClosed entry.2
    handleWaiters := st.handleWaiters.mapValues fun queue => queue.filter fun sender => !isClosed sender }

/-- Count queued requests, including ones already cancelled but not pruned. -/
def waiterCount (st : SchedulerState) : ℕ :=
  st.fifoQueue.length + st.handleWaiters.sumBy fun _ queue => queue.length

/-- Whether any queue holds a request whose caller still listens. -/
def hasLiveWaiters (st : SchedulerState) : Bool :=
  st.fifoQueue.any (fun entry => !isClosed entry.2) ||
    st.handleWaiters.entries.any fun entry => entry.2.any fun sender => !isClosed sender

/-- Admit one acquisition, or hand the sender back when the pool is full. -/
def enqueueWaiter (st : SchedulerState) (handleId : HandleId) (sender : AcquireId)
    (admission : WaiterAdmission) : WaiterEnqueueResult × SchedulerState :=
  let st := (st.pruneCancelledWaiters isClosed).registerHandle handleId
  if admission.maxWaiters ≤ st.waiterCount then (.saturated sender, st)
  else
    match admission.fairnessPolicy with
    | .fifo => (.enqueued, { st with fifoQueue := st.fifoQueue ++ [(handleId, sender)] })
    | .roundRobin =>
      match st.handleWaiters.lookup handleId with
      | some queue =>
        (.enqueued,
          { st with handleWaiters := st.handleWaiters.replace handleId (queue ++ [sender]) })
      | none => (.saturated sender, st)

/-- Pop FIFO arrivals, skipping abandoned requests: the sender and what is left. -/
def takeNextFifoWaiter (registered : HandleId → Bool) :
    List (HandleId × AcquireId) → Option AcquireId × List (HandleId × AcquireId)
  | [] => (none, [])
  | (handleId, sender) :: queue =>
    if isClosed sender || !registered handleId then takeNextFifoWaiter registered queue
    else (some sender, queue)

/-- Visit up to `turns` handles of the rotation and pop the oldest live request of the
first that has one. -/
def takeNextRoundRobinWaiter : ℕ → SchedulerState → Option AcquireId × SchedulerState
  | 0, st => (none, st)
  | turns + 1, st =>
    match st.roundRobinOrder with
    | [] => (none, st)
    | handleId :: order =>
      let st := { st with roundRobinOrder := order ++ [handleId] }
      match st.handleWaiters.lookup handleId with
      | none => takeNextRoundRobinWaiter turns st
      | some queue =>
        let st := { st with
          handleWaiters := st.handleWaiters.replace handleId (popLiveWaiter isClosed queue).2 }
        match (popLiveWaiter isClosed queue).1 with
        | some sender => (some sender, st)
        | none => takeNextRoundRobinWaiter turns st

/-- Select one waiter according to the configured ordering policy. -/
def takeNextWaiter (st : SchedulerState) (policy : PoolFairnessPolicy) :
    Option AcquireId × SchedulerState :=
  match policy with
  | .roundRobin => takeNextRoundRobinWaiter isClosed st.roundRobinOrder.length st
  | .fifo =>
    let taken := takeNextFifoWaiter isClosed (fun h => (st.handleWaiters.lookup h).isSome) st.fifoQueue
    (taken.1, { st with fifoQueue := taken.2 })

end Operations

/-! ## Which senders the queues hold -/

/-- Every sender in a queue. -/
def senders (st : SchedulerState) : List AcquireId :=
  st.fifoQueue.map Prod.snd ++ st.handleWaiters.entries.flatMap fun entry => entry.2

section Senders

variable {isClosed : AcquireId → Bool} {st : SchedulerState} {a : AcquireId}

theorem count_senders (st : SchedulerState) (a : AcquireId) :
    st.senders.count a = (st.fifoQueue.map Prod.snd).count a +
      st.handleWaiters.sumBy fun _ queue => queue.count a := by
  rw [senders, List.count_append, AList.sumBy, List.count_flatMap]
  rfl

theorem hasLiveWaiters_iff :
    st.hasLiveWaiters isClosed = true ↔ ∃ a ∈ st.senders, isClosed a = false := by
  simp only [hasLiveWaiters, senders, Bool.or_eq_true, List.any_eq_true, Bool.not_eq_true',
    List.mem_append, List.mem_map, List.mem_flatMap]
  constructor
  · rintro (⟨entry, hmem, hlive⟩ | ⟨entry, hmem, sender, hsender, hlive⟩)
    · exact ⟨entry.2, Or.inl ⟨entry, hmem, rfl⟩, hlive⟩
    · exact ⟨sender, Or.inr ⟨entry, hmem, hsender⟩, hlive⟩
  · rintro ⟨sender, ⟨entry, hmem, rfl⟩ | ⟨entry, hmem, hsender⟩, hlive⟩
    · exact Or.inl ⟨entry, hmem, hlive⟩
    · exact Or.inr ⟨entry, hmem, sender, hsender, hlive⟩

theorem count_filter_live (isClosed : AcquireId → Bool) (queue : List AcquireId) (a : AcquireId) :
    (queue.filter fun sender => !isClosed sender).count a =
      if isClosed a then 0 else queue.count a := by
  by_cases ha : isClosed a = true
  · rw [if_pos ha, List.count_eq_zero]
    simp [ha]
  · rw [if_neg ha, List.count_filter (by simpa using ha)]

/-- Pruning drops exactly the abandoned senders. -/
theorem count_senders_prune (a : AcquireId) :
    (st.pruneCancelledWaiters isClosed).senders.count a =
      if isClosed a then 0 else st.senders.count a := by
  have hfifo : (st.fifoQueue.filter fun entry => !isClosed entry.2).map Prod.snd =
      (st.fifoQueue.map Prod.snd).filter (fun sender => !isClosed sender) := by
    rw [List.filter_map]
    rfl
  rw [count_senders, count_senders]
  simp only [pruneCancelledWaiters, AList.sumBy_mapValues, hfifo, count_filter_live]
  by_cases ha : isClosed a = true
  · simp [ha, AList.sumBy]
  · simp [ha]

theorem senders_registerHandle (handleId : HandleId) :
    (st.registerHandle handleId).senders.count a = st.senders.count a := by
  rw [registerHandle]
  cases hlookup : st.handleWaiters.lookup handleId with
  | some queue => rfl
  | none =>
    rw [count_senders, count_senders]
    simp [AList.sumBy_insert_of_lookup_none _ _ _ _ hlookup]

/-- Deregistering only drops senders. -/
theorem count_senders_deregister_le (handleId : HandleId) :
    (st.deregisterHandle handleId).senders.count a ≤ st.senders.count a := by
  rw [count_senders, count_senders]
  refine Nat.add_le_add ?_ ?_
  · exact (List.filter_sublist.map Prod.snd).count_le a
  · exact AList.sumBy_erase_le _ _ _

/-- Admission prunes the queues, and a sender is either queued once or handed back. -/
theorem count_senders_enqueue {handleId : HandleId} {sender : AcquireId}
    {admission : WaiterAdmission} {result : WaiterEnqueueResult} {st' : SchedulerState}
    (h : st.enqueueWaiter isClosed handleId sender admission = (result, st')) (a : AcquireId) :
    (result = .enqueued ∧ st'.senders.count a =
        (if isClosed a then 0 else st.senders.count a) + (if sender = a then 1 else 0)) ∨
      (result = .saturated sender ∧
        st'.senders.count a = if isClosed a then 0 else st.senders.count a) := by
  have hpruned : ((st.pruneCancelledWaiters isClosed).registerHandle handleId).senders.count a =
      if isClosed a then 0 else st.senders.count a := by
    rw [senders_registerHandle, count_senders_prune]
  rw [← hpruned]
  simp only [enqueueWaiter] at h
  generalize (st.pruneCancelledWaiters isClosed).registerHandle handleId = pruned at h
  split at h
  · cases h
    exact Or.inr ⟨rfl, rfl⟩
  · split at h
    · cases h
      refine Or.inl ⟨rfl, ?_⟩
      rw [count_senders, count_senders]
      simp only [List.map_append, List.map_cons, List.map_nil, List.count_append,
        List.count_singleton, beq_iff_eq]
      omega
    · split at h
      · rename_i queue hlookup
        cases h
        refine Or.inl ⟨rfl, ?_⟩
        rw [count_senders, count_senders]
        have hsum := AList.sumBy_replace (fun _ queue => List.count a queue)
          pruned.handleWaiters handleId queue (queue ++ [sender]) hlookup
        simp only [List.count_append, List.count_singleton, beq_iff_eq] at hsum ⊢
        omega
      · cases h
        exact Or.inr ⟨rfl, rfl⟩

/-- Popping a queue skips the abandoned requests at its front. -/
theorem popLiveWaiter_eq (isClosed : AcquireId → Bool) (queue : List AcquireId) :
    popLiveWaiter isClosed queue =
      ((queue.dropWhile isClosed).head?, (queue.dropWhile isClosed).tail) := by
  induction queue with
  | nil => rfl
  | cons sender queue ih =>
    rw [popLiveWaiter, List.dropWhile_cons]
    split_ifs
    · exact ih
    · rfl

/-- Taking an arrival skips the abandoned ones and those of unknown handles. -/
theorem takeNextFifoWaiter_eq (isClosed : AcquireId → Bool) (registered : HandleId → Bool)
    (queue : List (HandleId × AcquireId)) :
    takeNextFifoWaiter isClosed registered queue =
      ((queue.dropWhile fun entry => isClosed entry.2 || !registered entry.1).head?.map Prod.snd,
        (queue.dropWhile fun entry => isClosed entry.2 || !registered entry.1).tail) := by
  induction queue with
  | nil => rfl
  | cons entry queue ih =>
    obtain ⟨handleId, sender⟩ := entry
    rw [takeNextFifoWaiter, List.dropWhile_cons]
    split_ifs
    · exact ih
    · rfl

/-- What is left behind the first member that is not skipped, and that member, were there. -/
theorem count_dropWhile_le {α β : Type*} [DecidableEq β] (skip : α → Bool) (f : α → β)
    (l : List α) (b : β) :
    ((l.dropWhile skip).tail.map f).count b +
      (if (l.dropWhile skip).head?.map f = some b then 1 else 0) ≤ (l.map f).count b := by
  have hle := ((List.dropWhile_suffix (l := l) skip).sublist.map f).count_le b
  cases hdrop : l.dropWhile skip with
  | nil => simp
  | cons x rest =>
    rw [hdrop, List.map_cons, List.count_cons] at hle
    simpa using hle

theorem not_skip_of_head {α : Type*} {skip : α → Bool} {l : List α} {x : α}
    (h : (l.dropWhile skip).head? = some x) : skip x = false := by
  have hhead := List.head?_dropWhile_not skip l
  rwa [h] at hhead

/-- Popping a queue hands out a live sender and only drops others. -/
theorem popLiveWaiter_spec {queue rest : List AcquireId} {out : Option AcquireId}
    (h : popLiveWaiter isClosed queue = (out, rest)) :
    (∀ sender, out = some sender → isClosed sender = false) ∧
      ∀ a, rest.count a + (if out = some a then 1 else 0) ≤ queue.count a := by
  rw [popLiveWaiter_eq] at h
  cases h
  refine ⟨fun sender => not_skip_of_head, fun a => ?_⟩
  simpa using count_dropWhile_le isClosed id queue a

theorem takeNextFifoWaiter_spec {registered : HandleId → Bool}
    {queue rest : List (HandleId × AcquireId)} {out : Option AcquireId}
    (h : takeNextFifoWaiter isClosed registered queue = (out, rest)) :
    (∀ sender, out = some sender → isClosed sender = false) ∧
      ∀ a, (rest.map Prod.snd).count a + (if out = some a then 1 else 0) ≤
        (queue.map Prod.snd).count a := by
  rw [takeNextFifoWaiter_eq] at h
  cases h
  refine ⟨fun sender hout => ?_, count_dropWhile_le _ Prod.snd queue⟩
  obtain ⟨entry, hhead, rfl⟩ := Option.map_eq_some_iff.mp hout
  have hkept := not_skip_of_head hhead
  exact (Bool.or_eq_false_iff.mp hkept).1

/-- The waiter taken is live, and it is gone from the queues. -/
theorem takeNextRoundRobinWaiter_spec {turns : ℕ} {st st' : SchedulerState}
    {out : Option AcquireId} (h : takeNextRoundRobinWaiter isClosed turns st = (out, st')) :
    (∀ sender, out = some sender → isClosed sender = false) ∧
      ∀ a, st'.senders.count a + (if out = some a then 1 else 0) ≤ st.senders.count a := by
  induction turns generalizing st with
  | zero =>
    cases h
    simp
  | succ turns ih =>
    simp only [takeNextRoundRobinWaiter] at h
    split at h
    · cases h
      simp
    · rename_i handleId order horder
      split at h
      · have hrest := ih h
        exact hrest
      · rename_i queue hlookup
        -- what this handle's turn takes off its queue
        rcases hpop : popLiveWaiter isClosed queue with ⟨popped, rest⟩
        obtain ⟨hlive, hcount⟩ := popLiveWaiter_spec hpop
        have hturn : ∀ a, (SchedulerState.mk st.fifoQueue (order ++ [handleId])
            (st.handleWaiters.replace handleId rest)).senders.count a +
            (if popped = some a then 1 else 0) ≤ st.senders.count a := by
          intro a
          have hsum := AList.sumBy_replace (fun _ queue => List.count a queue)
            st.handleWaiters handleId queue rest hlookup
          have ha := hcount a
          rw [count_senders, count_senders]
          simp only at hsum ⊢
          omega
        rw [hpop] at h
        cases popped with
        | some sender =>
          cases h
          exact ⟨hlive, hturn⟩
        | none =>
          refine ⟨(ih h).1, fun a => ((ih h).2 a).trans ?_⟩
          have ha := hturn a
          simpa using ha

/-- A selected waiter is live and leaves the queues; nothing is added to them. -/
theorem takeNextWaiter_spec {policy : PoolFairnessPolicy} {out : Option AcquireId}
    {st' : SchedulerState} (h : st.takeNextWaiter isClosed policy = (out, st')) :
    (∀ sender, out = some sender → isClosed sender = false) ∧
      ∀ a, st'.senders.count a + (if out = some a then 1 else 0) ≤ st.senders.count a := by
  cases policy with
  | roundRobin => exact takeNextRoundRobinWaiter_spec h
  | fifo =>
    rcases htake : takeNextFifoWaiter isClosed (fun h => (st.handleWaiters.lookup h).isSome)
      st.fifoQueue with ⟨taken, rest⟩
    rw [takeNextWaiter, htake] at h
    cases h
    obtain ⟨hlive, hcount⟩ := takeNextFifoWaiter_spec htake
    refine ⟨hlive, fun a => ?_⟩
    have ha := hcount a
    rw [count_senders, count_senders]
    simp only at ha ⊢
    omega

end Senders

end SchedulerState

end Wireframe
