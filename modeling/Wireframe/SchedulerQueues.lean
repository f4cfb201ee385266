/-
# The scheduler's queues stay in step

A waiting acquisition stands in the arrival queue or in the queue of its handle, depending on the
policy, and the rotation lists the handles that have a queue.  `WellQueued` says how the three
containers fit together; every operation keeps it, so it holds after any sequence of them
(`queues_in_step`).

`liveQueue` is what a handle's queue amounts to: abandoned requests stay in it until something
prunes or skips them, but nobody is served differently because of them.  The lemmas on taking the
next waiter say what happens to the live queues and to the rotation, and later modules use nothing
else about the loops.
-/
import Mathlib.Tactic
import Wireframe.SchedulerState
import Wireframe.Trace

namespace Wireframe

namespace SchedulerState

variable {isClosed : AcquireId → Bool} {st st' : SchedulerState} {maxWaiters : ℕ}

/-! ## What the queues are -/

/-- The handle has a queue for its waiters. -/
def Registered (st : SchedulerState) (handleId : HandleId) : Prop :=
  (st.handleWaiters.lookup handleId).isSome = true

/-- The queued requests of a handle whose callers still listen, oldest first. -/
def liveQueue (isClosed : AcquireId → Bool) (st : SchedulerState) (handleId : HandleId) :
    List AcquireId :=
  ((st.handleWaiters.lookup handleId).getD []).filter fun sender => !isClosed sender

/-- **How the three containers fit together.** -/
structure WellQueued (maxWaiters : ℕ) (st : SchedulerState) : Prop where
  /-- no more waiters than were admitted -/
  count_le : st.waiterCount ≤ maxWaiters
  /-- no handle has two turns in one round -/
  order_nodup : st.roundRobinOrder.Nodup
  /-- the handles with a queue are those of the rotation -/
  mem_order : ∀ handleId, handleId ∈ st.roundRobinOrder ↔ st.Registered handleId
  /-- an arrival belongs to a registered handle -/
  fifo_registered : ∀ entry ∈ st.fifoQueue, st.Registered entry.1

theorem wellQueued_new (maxWaiters : ℕ) : WellQueued maxWaiters .new where
  count_le := Nat.zero_le _
  order_nodup := List.nodup_nil
  mem_order := by simp [new, Registered]
  fifo_registered := by simp [new]

theorem waiterCount_eq_length (st : SchedulerState) : st.waiterCount = st.senders.length := by
  rw [waiterCount, senders, List.length_append, List.length_map, List.length_flatMap]
  rfl

theorem liveQueue_of_not_registered {handleId : HandleId} (h : ¬ st.Registered handleId) :
    st.liveQueue isClosed handleId = [] := by
  have hnone : st.handleWaiters.lookup handleId = none := by
    simpa [Registered] using h
  rw [liveQueue, hnone]
  rfl

/-! ## Pruning and registration -/

theorem senders_prune (isClosed : AcquireId → Bool) (st : SchedulerState) :
    (st.pruneCancelledWaiters isClosed).senders =
      st.senders.filter fun sender => !isClosed sender := by
  simp only [senders, pruneCancelledWaiters, AList.mapValues, List.filter_append,
    List.filter_flatMap, List.flatMap_map]
  rw [List.filter_map]
  rfl

theorem registered_prune {handleId : HandleId} :
    (st.pruneCancelledWaiters isClosed).Registered handleId ↔ st.Registered handleId := by
  simp [Registered, pruneCancelledWaiters, AList.lookup_mapValues]

/-- Pruning drops nobody who is served. -/
theorem liveQueue_prune (handleId : HandleId) :
    (st.pruneCancelledWaiters isClosed).liveQueue isClosed handleId =
      st.liveQueue isClosed handleId := by
  simp only [liveQueue, pruneCancelledWaiters, AList.lookup_mapValues]
  cases st.handleWaiters.lookup handleId with
  | none => rfl
  | some queue => simp [List.filter_filter]

theorem WellQueued.prune (h : WellQueued maxWaiters st) (isClosed : AcquireId → Bool) :
    WellQueued maxWaiters (st.pruneCancelledWaiters isClosed) where
  count_le := by
    rw [waiterCount_eq_length, senders_prune]
    refine (List.length_filter_le _ _).trans ?_
    rw [← waiterCount_eq_length]
    exact h.count_le
  order_nodup := h.order_nodup
  mem_order handleId := (h.mem_order handleId).trans registered_prune.symm
  fifo_registered entry hentry :=
    registered_prune.mpr (h.fifo_registered entry (List.mem_of_mem_filter hentry))

/-- Registration is for handles that have no queue yet. -/
theorem registerHandle_cases (st : SchedulerState) (handleId : HandleId) :
    (st.Registered handleId ∧ st.registerHandle handleId = st) ∨
    (st.handleWaiters.lookup handleId = none ∧ st.registerHandle handleId =
      { st with
        handleWaiters := st.handleWaiters.insert handleId []
        roundRobinOrder := st.roundRobinOrder ++ [handleId] }) := by
  unfold registerHandle
  cases hlookup : st.handleWaiters.lookup handleId with
  | none => exact Or.inr ⟨rfl, rfl⟩
  | some queue => exact Or.inl ⟨by rw [Registered, hlookup]; rfl, rfl⟩

theorem registered_registerHandle {handleId other : HandleId} :
    (st.registerHandle handleId).Registered other ↔ other = handleId ∨ st.Registered other := by
  rcases st.registerHandle_cases handleId with ⟨hreg, heq⟩ | ⟨-, heq⟩
  · rw [heq]
    constructor
    · exact Or.inr
    · rintro (rfl | hother)
      · exact hreg
      · exact hother
  · rw [heq]
    simp only [Registered, AList.lookup_insert_eq]
    by_cases hother : other = handleId
    · simp [hother]
    · simp [hother]

theorem waiterCount_registerHandle (handleId : HandleId) :
    (st.registerHandle handleId).waiterCount = st.waiterCount := by
  rcases st.registerHandle_cases handleId with ⟨-, heq⟩ | ⟨hnone, heq⟩
  · rw [heq]
  · rw [heq]
    simp only [waiterCount, AList.sumBy_insert_of_lookup_none _ _ _ _ hnone, List.length_nil,
      Nat.add_zero]

theorem fifoQueue_registerHandle (handleId : HandleId) :
    (st.registerHandle handleId).fifoQueue = st.fifoQueue := by
  rcases st.registerHandle_cases handleId with ⟨-, heq⟩ | ⟨-, heq⟩
  · rw [heq]
  · rw [heq]

theorem liveQueue_registerHandle (handleId other : HandleId) :
    (st.registerHandle handleId).liveQueue isClosed other = st.liveQueue isClosed other := by
  rcases st.registerHandle_cases handleId with ⟨-, heq⟩ | ⟨hnone, heq⟩
  · rw [heq]
  · rw [heq]
    simp only [liveQueue, AList.lookup_insert_eq]
    by_cases hother : other = handleId
    · subst hother
      simp [hnone]
    · simp [hother]

/-- A handle is registered with no waiters. -/
theorem WellQueued.registerHandle (h : WellQueued maxWaiters st) (handleId : HandleId) :
    WellQueued maxWaiters (st.registerHandle handleId) where
  count_le := (waiterCount_registerHandle handleId).trans_le h.count_le
  order_nodup := by
    rcases st.registerHandle_cases handleId with ⟨-, heq⟩ | ⟨hnone, heq⟩
    · rw [heq]
      exact h.order_nodup
    · rw [heq]
      have hnew : handleId ∉ st.roundRobinOrder := by
        rw [h.mem_order, Registered, hnone]
        simp
      exact List.nodup_append_comm.mpr (List.nodup_cons.mpr ⟨hnew, h.order_nodup⟩)
  mem_order other := by
    rw [registered_registerHandle, ← h.mem_order]
    rcases st.registerHandle_cases handleId with ⟨hreg, heq⟩ | ⟨-, heq⟩
    · rw [heq]
      constructor
      · exact Or.inr
      · rintro (rfl | hother)
        · exact (h.mem_order _).mpr hreg
        · exact hother
    · rw [heq, List.mem_append, List.mem_singleton, or_comm]
  fifo_registered entry hentry := by
    rw [fifoQueue_registerHandle] at hentry
    exact registered_registerHandle.mpr (Or.inr (h.fifo_registered entry hentry))

/-! ## Admission and deregistration -/

/-- Admission finds the queues full, or adds the sender where the policy has it. -/
theorem enqueueWaiter_cases (isClosed : AcquireId → Bool) (st : SchedulerState)
    (handleId : HandleId) (sender : AcquireId) (admission : WaiterAdmission)
    {pruned : SchedulerState}
    (hpruned : pruned = (st.pruneCancelledWaiters isClosed).registerHandle handleId) :
    (admission.maxWaiters ≤ pruned.waiterCount ∧
      st.enqueueWaiter isClosed handleId sender admission = (.saturated sender, pruned)) ∨
    pruned.waiterCount < admission.maxWaiters ∧
      ((admission.fairnessPolicy = .fifo ∧
        st.enqueueWaiter isClosed handleId sender admission =
          (.enqueued, { pruned with fifoQueue := pruned.fifoQueue ++ [(handleId, sender)] })) ∨
      admission.fairnessPolicy = .roundRobin ∧ ∃ queue,
        pruned.handleWaiters.lookup handleId = some queue ∧
        st.enqueueWaiter isClosed handleId sender admission =
          (.enqueued, { pruned with
            handleWaiters := pruned.handleWaiters.replace handleId (queue ++ [sender]) })) := by
  simp only [enqueueWaiter, ← hpruned]
  by_cases hfull : admission.maxWaiters ≤ pruned.waiterCount
  · exact Or.inl ⟨hfull, if_pos hfull⟩
  · refine Or.inr ⟨not_le.mp hfull, ?_⟩
    rw [if_neg hfull]
    cases admission.fairnessPolicy with
    | fifo => exact Or.inl ⟨rfl, rfl⟩
    | roundRobin =>
      -- the handle was registered just before
      have hreg : pruned.Registered handleId := by
        rw [hpruned]
        exact registered_registerHandle.mpr (Or.inl rfl)
      obtain ⟨queue, hlookup⟩ := Option.isSome_iff_exists.mp hreg
      exact Or.inr ⟨rfl, queue, hlookup, by simp only [hlookup]⟩

/-- Admission registers the handle and leaves the rotation otherwise alone. -/
theorem roundRobinOrder_enqueue (isClosed : AcquireId → Bool) (st : SchedulerState)
    (handleId : HandleId) (sender : AcquireId) (admission : WaiterAdmission) :
    (st.enqueueWaiter isClosed handleId sender admission).2.roundRobinOrder =
      ((st.pruneCancelledWaiters isClosed).registerHandle handleId).roundRobinOrder := by
  rcases enqueueWaiter_cases isClosed st handleId sender admission rfl with
    ⟨-, hout⟩ | ⟨-, ⟨-, hout⟩ | ⟨-, queue, -, hout⟩⟩
  · rw [hout]
  · rw [hout]
  · rw [hout]

theorem registered_replace {handleId other : HandleId} {queue queue' : List AcquireId}
    (hlookup : st.handleWaiters.lookup handleId = some queue) (order : List HandleId) :
    (SchedulerState.mk st.fifoQueue order (st.handleWaiters.replace handleId queue')).Registered
      other ↔ st.Registered other := by
  simp only [Registered, AList.lookup_replace_eq _ _ _ _ _ hlookup]
  by_cases hother : other = handleId
  · subst hother
    simp [hlookup]
  · simp [hother]

theorem waiterCount_replace {handleId : HandleId} {queue : List AcquireId}
    (hlookup : st.handleWaiters.lookup handleId = some queue) (order : List HandleId)
    (queue' : List AcquireId) :
    (SchedulerState.mk st.fifoQueue order (st.handleWaiters.replace handleId queue')).waiterCount +
      queue.length = st.waiterCount + queue'.length := by
  have hsum := AList.sumBy_replace (fun _ queue => List.length queue) st.handleWaiters handleId
    queue queue' hlookup
  simp only [waiterCount]
  omega

theorem liveQueue_replace {handleId other : HandleId} {queue queue' : List AcquireId}
    (hlookup : st.handleWaiters.lookup handleId = some queue) (order : List HandleId) :
    (SchedulerState.mk st.fifoQueue order (st.handleWaiters.replace handleId queue')).liveQueue
      isClosed other =
      if other = handleId then queue'.filter fun sender => !isClosed sender
      else st.liveQueue isClosed other := by
  simp only [liveQueue, AList.lookup_replace_eq _ _ _ _ _ hlookup]
  by_cases hother : other = handleId
  · simp [hother]
  · simp [hother]

/-- A waiter is queued once, and only while there is room. -/
theorem WellQueued.enqueue {admission : WaiterAdmission} (h : WellQueued admission.maxWaiters st)
    (isClosed : AcquireId → Bool) (handleId : HandleId) (sender : AcquireId) :
    WellQueued admission.maxWaiters (st.enqueueWaiter isClosed handleId sender admission).2 := by
  have hbase := (h.prune isClosed).registerHandle handleId
  rcases enqueueWaiter_cases isClosed st handleId sender admission rfl with
    ⟨-, hout⟩ | ⟨hroom, ⟨-, hout⟩ | ⟨-, queue, hlookup, hout⟩⟩
  · rw [hout]
    exact hbase
  · rw [hout]
    refine ⟨?_, hbase.order_nodup, hbase.mem_order, ?_⟩
    · simp only [waiterCount, List.length_append, List.length_singleton] at hroom ⊢
      omega
    · intro entry hentry
      rcases List.mem_append.mp hentry with hold | hnew
      · exact hbase.fifo_registered entry hold
      · rw [List.mem_singleton.mp hnew]
        exact registered_registerHandle.mpr (Or.inl rfl)
  · rw [hout]
    refine ⟨?_, hbase.order_nodup, fun other => ?_, fun entry hentry => ?_⟩
    · have hcount := waiterCount_replace hlookup
        ((st.pruneCancelledWaiters isClosed).registerHandle handleId).roundRobinOrder
        (queue ++ [sender])
      rw [List.length_append, List.length_singleton] at hcount
      simp only at hcount ⊢
      omega
    · exact (hbase.mem_order other).trans (registered_replace hlookup _).symm
    · exact (registered_replace hlookup _).mpr (hbase.fifo_registered entry hentry)

theorem registered_deregister {handleId other : HandleId} :
    (st.deregisterHandle handleId).Registered other ↔ other ≠ handleId ∧ st.Registered other := by
  simp only [Registered, deregisterHandle, AList.lookup_erase_eq]
  by_cases hother : other = handleId
  · simp [hother]
  · simp [hother]

theorem liveQueue_deregister (handleId other : HandleId) :
    (st.deregisterHandle handleId).liveQueue isClosed other =
      if other = handleId then [] else st.liveQueue isClosed other := by
  simp only [liveQueue, deregisterHandle, AList.lookup_erase_eq]
  by_cases hother : other = handleId
  · simp [hother]
  · simp [hother]

/-- A handle leaves all three containers. -/
theorem WellQueued.deregister (h : WellQueued maxWaiters st) (handleId : HandleId) :
    WellQueued maxWaiters (st.deregisterHandle handleId) where
  count_le := by
    have hfifo : (st.fifoQueue.filter fun entry => entry.1 != handleId).length ≤
        st.fifoQueue.length := List.length_filter_le _ _
    have hqueues := AList.sumBy_erase_le (fun _ queue => List.length queue) st.handleWaiters
      handleId
    have hcount := h.count_le
    simp only [waiterCount, deregisterHandle] at hcount ⊢
    omega
  order_nodup := h.order_nodup.filter _
  mem_order other := by
    rw [registered_deregister, ← h.mem_order]
    simp only [deregisterHandle, List.mem_filter, bne_iff_ne]
    exact and_comm
  fifo_registered entry hentry := by
    simp only [deregisterHandle, List.mem_filter, bne_iff_ne] at hentry
    exact registered_deregister.mpr ⟨hentry.2, h.fifo_registered entry hentry.1⟩

/-! ## Taking the next waiter -/

/-- Skipping from the front and keeping only what is not skipped agree on the first member and on
what is kept behind it. -/
theorem filter_not_skip {α : Type*} (skip : α → Bool) (l : List α) :
    (l.filter fun x => !skip x).head? = (l.dropWhile skip).head? ∧
    (l.filter fun x => !skip x).tail = (l.dropWhile skip).tail.filter fun x => !skip x := by
  induction l with
  | nil => exact ⟨rfl, rfl⟩
  | cons x l ih =>
    rw [List.dropWhile_cons]
    by_cases hskip : skip x = true
    · rw [if_pos hskip, List.filter_cons_of_neg (by simp [hskip])]
      exact ih
    · rw [if_neg hskip, List.filter_cons_of_pos (by simpa using hskip)]
      exact ⟨rfl, rfl⟩

/-- Popping a queue takes the first request whose caller listens. -/
theorem popLiveWaiter_live (isClosed : AcquireId → Bool) (queue : List AcquireId) :
    (popLiveWaiter isClosed queue).1 = (queue.filter fun sender => !isClosed sender).head? ∧
    (popLiveWaiter isClosed queue).2.filter (fun sender => !isClosed sender) =
      (queue.filter fun sender => !isClosed sender).tail ∧
    (popLiveWaiter isClosed queue).2 <:+ queue := by
  obtain ⟨hhead, htail⟩ := filter_not_skip isClosed queue
  rw [popLiveWaiter_eq]
  exact ⟨hhead.symm, htail.symm, (List.tail_suffix _).trans (List.dropWhile_suffix _)⟩

/-- Taking an arrival takes the first one whose caller listens. -/
theorem takeNextFifoWaiter_live (isClosed : AcquireId → Bool) (registered : HandleId → Bool)
    {queue : List (HandleId × AcquireId)} (hreg : ∀ entry ∈ queue, registered entry.1 = true) :
    (takeNextFifoWaiter isClosed registered queue).1 =
      ((queue.filter fun entry => !isClosed entry.2).head?).map Prod.snd ∧
    (takeNextFifoWaiter isClosed registered queue).2.filter (fun entry => !isClosed entry.2) =
      (queue.filter fun entry => !isClosed entry.2).tail ∧
    (takeNextFifoWaiter isClosed registered queue).2 <:+ queue := by
  rw [takeNextFifoWaiter_eq]
  set skip := fun entry : HandleId × AcquireId => isClosed entry.2 || !registered entry.1
  have hsuffix : (queue.dropWhile skip).tail <:+ queue :=
    (List.tail_suffix _).trans (List.dropWhile_suffix _)
  -- every handle is known, so only abandoned requests are skipped
  have hlive : ∀ {l : List (HandleId × AcquireId)}, l ⊆ queue →
      (l.filter fun entry => !isClosed entry.2) = l.filter fun entry => !skip entry := by
    intro l hl
    refine List.filter_congr fun entry hentry => ?_
    simp [skip, hreg entry (hl hentry)]
  obtain ⟨hhead, htail⟩ := filter_not_skip skip queue
  rw [hlive (List.Subset.refl queue), hlive hsuffix.subset, hhead, htail]
  exact ⟨rfl, rfl, hsuffix⟩

/-- What is left of the queues when `served`, if any, has lost its oldest live request. -/
structure Serves (isClosed : AcquireId → Bool) (served : Option HandleId)
    (st st' : SchedulerState) : Prop where
  fifo : st'.fifoQueue = st.fifoQueue
  registered : ∀ handleId, st'.Registered handleId ↔ st.Registered handleId
  count_le : st'.waiterCount ≤ st.waiterCount
  live : ∀ handleId, st'.liveQueue isClosed handleId =
    if served = some handleId then (st.liveQueue isClosed handleId).tail
    else st.liveQueue isClosed handleId

/-- One turn of a handle: the rotation moves on and the handle's queue is popped. -/
theorem turn_serves (isClosed : AcquireId → Bool) {handleId : HandleId} {queue : List AcquireId}
    (hlookup : st.handleWaiters.lookup handleId = some queue) (order : List HandleId) :
    (popLiveWaiter isClosed queue).1 = (st.liveQueue isClosed handleId).head? ∧
    Serves isClosed (some handleId) st ⟨st.fifoQueue, order,
      st.handleWaiters.replace handleId (popLiveWaiter isClosed queue).2⟩ := by
  obtain ⟨hout, hrest, hsuffix⟩ := popLiveWaiter_live isClosed queue
  have hlive : st.liveQueue isClosed handleId = queue.filter fun sender => !isClosed sender := by
    rw [liveQueue, hlookup, Option.getD_some]
  refine ⟨hout.trans (congrArg List.head? hlive.symm), rfl, ?_, ?_, fun other => ?_⟩
  · exact fun other => registered_replace hlookup order
  · have hcount := waiterCount_replace hlookup order (popLiveWaiter isClosed queue).2
    have hle := hsuffix.length_le
    omega
  · rw [liveQueue_replace hlookup, hrest, ← hlive]
    by_cases hother : other = handleId
    · rw [if_pos hother, if_pos (congrArg some hother.symm), hother]
    · rw [if_neg hother, if_neg fun h => hother (Option.some.inj h).symm]

/-- A turn that finds nobody serves nobody. -/
theorem Serves.of_idle {handleId : HandleId} (h : Serves isClosed (some handleId) st st')
    (hidle : st.liveQueue isClosed handleId = []) : Serves isClosed none st st' := by
  refine { h with live := fun other => ?_ }
  rw [h.live other, if_neg (show none ≠ some other by simp)]
  by_cases hother : some handleId = some other
  · rw [if_pos hother, ← Option.some.inj hother, hidle]
    rfl
  · rw [if_neg hother]

theorem Serves.live_of_none (h : Serves isClosed none st st') (handleId : HandleId) :
    st'.liveQueue isClosed handleId = st.liveQueue isClosed handleId :=
  (h.live handleId).trans (if_neg (by simp))

theorem Serves.trans {served : Option HandleId} {st'' : SchedulerState}
    (h : Serves isClosed none st st') (h' : Serves isClosed served st' st'') :
    Serves isClosed served st st'' where
  fifo := h'.fifo.trans h.fifo
  registered handleId := (h'.registered handleId).trans (h.registered handleId)
  count_le := h'.count_le.trans h.count_le
  live handleId := by
    rw [h'.live handleId, h.live_of_none handleId]

/-- **What the rotation does**, from where the handles of `todo` are still to be visited in this
round and those of `passed` have been: it serves the first that has somebody waiting. -/
theorem takeNextRoundRobinWaiter_turns (isClosed : AcquireId → Bool) {todo passed : List HandleId}
    (horder : st.roundRobinOrder = todo ++ passed) (hreg : ∀ g ∈ todo, st.Registered g) :
    (∃ st', takeNextRoundRobinWaiter isClosed todo.length st = (none, st') ∧
      (∀ g ∈ todo, st.liveQueue isClosed g = []) ∧ st'.roundRobinOrder = passed ++ todo ∧
      Serves isClosed none st st') ∨
    ∃ pre handleId post sender st',
      takeNextRoundRobinWaiter isClosed todo.length st = (some sender, st') ∧
      todo = pre ++ handleId :: post ∧ (∀ g ∈ pre, st.liveQueue isClosed g = []) ∧
      (st.liveQueue isClosed handleId).head? = some sender ∧
      st'.roundRobinOrder = post ++ passed ++ pre ++ [handleId] ∧
      Serves isClosed (some handleId) st st' := by
  induction todo generalizing st passed with
  | nil =>
    refine Or.inl ⟨st, rfl, by simp, by rw [horder, List.nil_append, List.append_nil], ?_⟩
    exact ⟨rfl, fun _ => Iff.rfl, le_rfl, fun _ => by rw [if_neg (by simp)]⟩
  | cons handleId todo ih =>
    obtain ⟨queue, hlookup⟩ := Option.isSome_iff_exists.mp (hreg handleId List.mem_cons_self)
    obtain ⟨hpop, hturn⟩ := turn_serves isClosed hlookup
      (todo ++ passed ++ [handleId])
    simp only [List.length_cons, takeNextRoundRobinWaiter, horder, List.cons_append, hlookup]
    cases hout : (popLiveWaiter isClosed queue).1 with
    | some sender =>
      refine Or.inr ⟨[], handleId, todo, sender, _, rfl, rfl, by simp, ?_, ?_, hturn⟩
      · rw [← hpop, hout]
      · simp only [List.append_nil]
    | none =>
      have hidle : st.liveQueue isClosed handleId = [] :=
        List.head?_eq_none_iff.mp (hpop.symm.trans hout)
      have hskip := hturn.of_idle hidle
      simp only
      have horder' : todo ++ passed ++ [handleId] = todo ++ (passed ++ [handleId]) :=
        List.append_assoc _ _ _
      have hnext := ih horder'
        fun g hg => (hskip.registered g).mpr (hreg g (List.mem_cons_of_mem _ hg))
      -- what was found behind this handle was there before its turn
      have hlive := hskip.live_of_none
      rcases hnext with ⟨st', htake, hidle', horder', hserves⟩ |
        ⟨pre, other, post, sender, st', htake, hsplit, hidle', hhead, horder', hserves⟩
      · refine Or.inl ⟨st', htake, ?_, ?_, hskip.trans hserves⟩
        · rintro g hg
          rcases List.mem_cons.mp hg with rfl | hg
          · exact hidle
          · exact (hlive g).symm.trans (hidle' g hg)
        · rw [horder', List.append_assoc, List.singleton_append]
      · refine Or.inr ⟨handleId :: pre, other, post, sender, st', htake, ?_, ?_, ?_, ?_,
          hskip.trans hserves⟩
        · rw [hsplit, List.cons_append]
        · rintro g hg
          rcases List.mem_cons.mp hg with rfl | hg
          · exact hidle
          · exact (hlive g).symm.trans (hidle' g hg)
        · rw [← hlive other]
          exact hhead
        · rw [horder']
          simp only [List.append_assoc, List.cons_append, List.nil_append]

/-- Under round robin the next waiter is the oldest live one of the first handle of the rotation
that has any. -/
theorem WellQueued.takeNext_roundRobin (h : WellQueued maxWaiters st)
    (isClosed : AcquireId → Bool) :
    (∃ st', st.takeNextWaiter isClosed .roundRobin = (none, st') ∧
      (∀ handleId, st.liveQueue isClosed handleId = []) ∧
      st'.roundRobinOrder = st.roundRobinOrder ∧ Serves isClosed none st st') ∨
    ∃ pre handleId post sender st',
      st.takeNextWaiter isClosed .roundRobin = (some sender, st') ∧
      st.roundRobinOrder = pre ++ handleId :: post ∧
      (∀ g ∈ pre, st.liveQueue isClosed g = []) ∧
      (st.liveQueue isClosed handleId).head? = some sender ∧
      st'.roundRobinOrder = post ++ pre ++ [handleId] ∧ Serves isClosed (some handleId) st st' := by
  have hturns := takeNextRoundRobinWaiter_turns isClosed
    (List.append_nil st.roundRobinOrder).symm fun g hg => (h.mem_order g).mp hg
  rcases hturns with ⟨st', htake, hidle, horder, hserves⟩ |
    ⟨pre, handleId, post, sender, st', htake, hsplit, hidle, hhead, horder, hserves⟩
  · refine Or.inl ⟨st', htake, fun handleId => ?_, horder, hserves⟩
    by_cases hreg : st.Registered handleId
    · exact hidle handleId ((h.mem_order handleId).mpr hreg)
    · exact liveQueue_of_not_registered hreg
  · rw [List.append_nil] at horder
    exact Or.inr ⟨pre, handleId, post, sender, st', htake, hsplit, hidle, hhead, horder, hserves⟩

/-- Under FIFO it is the first live arrival. -/
theorem WellQueued.takeNext_fifo (h : WellQueued maxWaiters st) (isClosed : AcquireId → Bool) :
    ∃ rest, st.takeNextWaiter isClosed .fifo =
        (((st.fifoQueue.filter fun entry => !isClosed entry.2).head?).map Prod.snd,
          { st with fifoQueue := rest }) ∧
      rest.filter (fun entry => !isClosed entry.2) =
        (st.fifoQueue.filter fun entry => !isClosed entry.2).tail ∧ rest <:+ st.fifoQueue := by
  obtain ⟨hout, hrest, hsuffix⟩ := takeNextFifoWaiter_live isClosed
    (fun h => (st.handleWaiters.lookup h).isSome) h.fifo_registered
  refine ⟨_, ?_, hrest, hsuffix⟩
  rw [takeNextWaiter, ← hout]

/-- Taking a waiter, under either policy, keeps the containers in step. -/
theorem WellQueued.takeNext (h : WellQueued maxWaiters st) (isClosed : AcquireId → Bool)
    (policy : PoolFairnessPolicy) :
    WellQueued maxWaiters (st.takeNextWaiter isClosed policy).2 := by
  cases policy with
  | fifo =>
    obtain ⟨rest, htake, -, hsuffix⟩ := h.takeNext_fifo isClosed
    rw [htake]
    refine ⟨?_, h.order_nodup, h.mem_order, ?_⟩
    · have hcount := h.count_le
      have hle := hsuffix.length_le
      simp only [waiterCount] at hcount ⊢
      omega
    · intro entry hentry
      exact h.fifo_registered entry (hsuffix.subset hentry)
  | roundRobin =>
    -- the rotation is the same handles in another order
    have hrotated : ∀ {served st'}, st'.roundRobinOrder.Perm st.roundRobinOrder →
        Serves isClosed served st st' → WellQueued maxWaiters st' := by
      rintro served st' hperm hserves
      refine ⟨hserves.count_le.trans h.count_le, hperm.nodup_iff.mpr h.order_nodup,
        fun handleId => ?_, fun entry hentry => ?_⟩
      · rw [hperm.mem_iff, h.mem_order, hserves.registered]
      · rw [hserves.fifo] at hentry
        exact (hserves.registered entry.1).mpr (h.fifo_registered entry hentry)
    rcases h.takeNext_roundRobin isClosed with ⟨st', htake, -, horder, hserves⟩ |
      ⟨pre, handleId, post, sender, st', htake, hsplit, -, -, horder, hserves⟩
    · rw [htake]
      exact hrotated (List.Perm.of_eq horder) hserves
    · rw [htake]
      refine hrotated ?_ hserves
      have hsame : pre ++ [handleId] ++ post = pre ++ handleId :: post := by
        rw [List.append_assoc, List.singleton_append]
      rw [horder, hsplit, List.append_assoc, ← hsame]
      exact List.perm_append_comm

/-- Admission is refused exactly when as many callers as allowed wait and listen. -/
theorem WellQueued.saturated_iff {admission : WaiterAdmission}
    (h : WellQueued admission.maxWaiters st) (isClosed : AcquireId → Bool) (handleId : HandleId)
    (sender : AcquireId) :
    (st.enqueueWaiter isClosed handleId sender admission).1 = .saturated sender ↔
      (st.senders.filter fun sender => !isClosed sender).length = admission.maxWaiters := by
  have hlive : ((st.pruneCancelledWaiters isClosed).registerHandle handleId).waiterCount =
      (st.senders.filter fun sender => !isClosed sender).length := by
    rw [waiterCount_registerHandle, waiterCount_eq_length, senders_prune]
  have hle := ((h.prune isClosed).registerHandle handleId).count_le
  rcases enqueueWaiter_cases isClosed st handleId sender admission rfl with
    ⟨hfull, hout⟩ | ⟨hroom, ⟨-, hout⟩ | ⟨-, queue, -, hout⟩⟩
  · rw [hout]
    exact iff_of_true rfl (by omega)
  · rw [hout]
    exact iff_of_false (by simp) (by omega)
  · rw [hout]
    exact iff_of_false (by simp) (by omega)

end SchedulerState

/-! ## Runs of the queues -/

/-- The queues with their callers.  `asked` are all acquisitions that reached the queues so far,
and `waiting` those among them that are owed an answer, both in order of arrival: admitted, and
since then neither granted, nor given up by their caller, nor abandoned with their handle. -/
structure QueueRun where
  state : SchedulerState
  isClosed : AcquireId → Bool
  asked : List (HandleId × AcquireId)
  waiting : List (HandleId × AcquireId)

/-- The operations on the queues, and the callers' part in them. -/
inductive QueueOp where
  | enqueue (handleId : HandleId) (sender : AcquireId)
  | takeNext
  | deregister (handleId : HandleId)
  | prune
  /-- a caller's future is dropped -/
  | cancel (sender : AcquireId)
  deriving DecidableEq, Repr

namespace QueueRun

open SchedulerState

def new : QueueRun := ⟨.new, fun _ => false, [], []⟩

/-- The grant that taking the next waiter makes: the acquisition the sender belongs to. -/
def granted (policy : PoolFairnessPolicy) (run : QueueRun) : Option (HandleId × AcquireId) :=
  (run.state.takeNextWaiter run.isClosed policy).1.bind fun sender =>
    run.asked.find? fun entry => entry.2 == sender

/-- One operation.  An acquisition has a reply channel of its own, so it is enqueued once. -/
def step (admission : WaiterAdmission) (run : QueueRun) : QueueOp → Option QueueRun
  | .enqueue handleId sender =>
    if sender ∈ run.asked.map Prod.snd then none
    else
      match run.state.enqueueWaiter run.isClosed handleId sender admission with
      | (.enqueued, state) =>
        some { run with
          state
          asked := run.asked ++ [(handleId, sender)]
          waiting := if run.isClosed sender then run.waiting
            else run.waiting ++ [(handleId, sender)] }
      | (.saturated _, state) =>
        some { run with state, asked := run.asked ++ [(handleId, sender)] }
  | .takeNext =>
    let taken := run.state.takeNextWaiter run.isClosed admission.fairnessPolicy
    some { run with
      state := taken.2
      waiting := run.waiting.filter fun entry => taken.1 != some entry.2 }
  | .deregister handleId =>
    some { run with
      state := run.state.deregisterHandle handleId
      waiting := run.waiting.filter fun entry => entry.1 != handleId }
  | .prune => some { run with state := run.state.pruneCancelledWaiters run.isClosed }
  | .cancel sender =>
    some { run with
      isClosed := Function.update run.isClosed sender true
      waiting := run.waiting.filter fun entry => entry.2 != sender }

variable {admission : WaiterAdmission} {run run' : QueueRun} {op : QueueOp}

/-- An admission leaves the queues as `enqueueWaiter` does, whatever it answers. -/
theorem step_enqueue_eq_some {handleId : HandleId} {sender : AcquireId}
    (h : run.step admission (.enqueue handleId sender) = some run') :
    sender ∉ run.asked.map Prod.snd ∧ run'.isClosed = run.isClosed ∧
      run'.state = (run.state.enqueueWaiter run.isClosed handleId sender admission).2 ∧
      run'.asked = run.asked ++ [(handleId, sender)] ∧
      run'.waiting =
        if (run.state.enqueueWaiter run.isClosed handleId sender admission).1 = .enqueued ∧
            run.isClosed sender = false
        then run.waiting ++ [(handleId, sender)] else run.waiting := by
  simp only [step] at h
  split at h
  · cases h
  · rename_i hfresh
    refine ⟨hfresh, ?_⟩
    split at h
    · rename_i state hout
      cases h
      rw [hout]
      refine ⟨rfl, rfl, rfl, ?_⟩
      cases hclosed : run.isClosed sender with
      | true | false => simp
    · rename_i rejected state hout
      cases h
      rw [hout]
      exact ⟨rfl, rfl, rfl, by simp⟩

/-- **Step lemma** of the containers. -/
theorem step_wellQueued (h : run.state.WellQueued admission.maxWaiters)
    (hstep : run.step admission op = some run') : run'.state.WellQueued admission.maxWaiters := by
  cases op with
  | enqueue handleId sender =>
    obtain ⟨-, -, hstate, -⟩ := step_enqueue_eq_some hstep
    rw [hstate]
    exact h.enqueue run.isClosed handleId sender
  | takeNext =>
    cases hstep
    exact h.takeNext run.isClosed admission.fairnessPolicy
  | deregister handleId =>
    cases hstep
    exact h.deregister handleId
  | prune =>
    cases hstep
    exact h.prune run.isClosed
  | cancel sender =>
    cases hstep
    exact h

theorem exec_wellQueued {ops : List QueueOp}
    (h : Trace.exec (step admission) new ops = some run) :
    run.state.WellQueued admission.maxWaiters := by
  have hkeeps : ∀ r e r', SchedulerState.WellQueued admission.maxWaiters (QueueRun.state r) →
      step admission r e = some r' → r'.state.WellQueued admission.maxWaiters :=
    fun _ _ _ hr hstep => step_wellQueued hr hstep
  have hnew : (new : QueueRun).state.WellQueued admission.maxWaiters := wellQueued_new _
  have hrun := Trace.exec_invariant hkeeps hnew h
  exact hrun

/-- **The queues are in step after every sequence of operations**, and admission is refused
exactly when `maxWaiters` callers wait and listen. -/
theorem queues_in_step {ops : List QueueOp} (h : Trace.exec (step admission) new ops = some run) :
    run.state.waiterCount ≤ admission.maxWaiters ∧
    run.state.roundRobinOrder.Nodup ∧
    (∀ handleId, handleId ∈ run.state.roundRobinOrder ↔
      (run.state.handleWaiters.lookup handleId).isSome) ∧
    (∀ entry ∈ run.state.fifoQueue, (run.state.handleWaiters.lookup entry.1).isSome) ∧
    ∀ handleId sender,
      (run.state.enqueueWaiter run.isClosed handleId sender admission).1 = .saturated sender ↔
        (run.state.senders.filter fun sender => !run.isClosed sender).length =
          admission.maxWaiters := by
  have hwell := exec_wellQueued h
  exact ⟨hwell.count_le, hwell.order_nodup, hwell.mem_order, hwell.fifo_registered,
    hwell.saturated_iff run.isClosed⟩

/-- A request given up by its caller makes room for one other, and a third is refused. -/
theorem queues_in_step_full :
    ∃ run, Trace.exec (step ⟨.roundRobin, 1⟩) new [.enqueue 1 10, .cancel 10, .enqueue 2 11] =
        some run ∧
      run.state.waiterCount ≤ 1 ∧
      (run.state.enqueueWaiter run.isClosed 1 12 ⟨.roundRobin, 1⟩).1 = .saturated 12 := by
  have hrun : (Trace.exec (step ⟨.roundRobin, 1⟩) new
      [.enqueue 1 10, .cancel 10, .enqueue 2 11]).isSome = true := by decide
  have hexec := (Option.some_get hrun).symm
  obtain ⟨hcount, -, -, -, hfull⟩ := queues_in_step hexec
  exact ⟨_, hexec, hcount, (hfull 1 12).mpr rfl⟩

end QueueRun

end Wireframe
