/-
# Who is granted next

A run of the scheduler's queues keeps, beside the queues, the acquisitions that are owed an answer
in order of arrival (`QueueRun.waiting`).  `Tracks` says that the queues are an implementation of
that list: under FIFO the live arrivals are the list itself, under round robin the live queue of a
handle is the list's part for that handle.  A grant is then the first of the list, or the first of
one handle's part.

Which handle has its turn is decided by the rotation.  While a handle waits, nobody gets ahead of
it, and each grant to another handle takes at least one handle from those ahead
(`Tracks.step_ahead`).  Bounded bypass is induction over the run.
-/
import Mathlib.Tactic
import Wireframe.Rotation
import Wireframe.SchedulerQueues

namespace Wireframe

/-! ## Lists with distinct keys -/

section Distinct

variable {α β : Type*} [DecidableEq β] {f : α → β} {l : List α} {x y : α}

theorem find?_key_of_mem (hnodup : (l.map f).Nodup) (hx : x ∈ l) :
    (l.find? fun y => f y == f x) = some x := by
  cases hfind : l.find? fun y => f y == f x with
  | none =>
    have hno := List.find?_eq_none.mp hfind x hx
    exact absurd (beq_self_eq_true (f x)) hno
  | some y =>
    have hy := List.mem_of_find?_eq_some hfind
    have hkey : f y = f x := by simpa using List.find?_some hfind
    rw [List.inj_on_of_nodup_map hnodup hy hx hkey]

/-- Dropping the key of the first member drops that member. -/
theorem filter_key_of_head (hnodup : ((x :: l).map f).Nodup) :
    ((x :: l).filter fun y => f y != f x) = l := by
  rw [List.map_cons, List.nodup_cons] at hnodup
  rw [List.filter_cons_of_neg (by simp), List.filter_eq_self]
  intro y hy
  have hne : f y ≠ f x := fun hkey => hnodup.1 (hkey ▸ List.mem_map_of_mem hy)
  simpa using hne

/-- Of two members of a list without duplicates, one comes first. -/
theorem not_sublist_swap (hnodup : l.Nodup) (h : [x, y].Sublist l) : ¬ [y, x].Sublist l := by
  intro h'
  induction l with
  | nil => exact absurd h (by simp)
  | cons z l ih =>
    obtain ⟨hz, hnodup⟩ := List.nodup_cons.mp hnodup
    cases h with
    | cons _ h =>
      cases h' with
      | cons _ h' => exact ih hnodup h h'
      | cons_cons _ h' => exact hz (h.subset (by simp))
    | cons_cons _ h =>
      cases h' with
      | cons _ h' => exact hz (h'.subset (by simp))
      | cons_cons _ h' => exact hz (h.subset (by simp))

end Distinct

namespace QueueRun

open SchedulerState

variable {admission : WaiterAdmission} {run run' : QueueRun} {op : QueueOp}

/-! ## The queues implement the list of those waiting -/

/-- The part of the list that belongs to one handle. -/
def waitingOf (run : QueueRun) (handleId : HandleId) : List (HandleId × AcquireId) :=
  run.waiting.filter fun entry => entry.1 == handleId

/-- **The queues hold, in order, those who wait.** -/
structure Tracks (admission : WaiterAdmission) (run : QueueRun) : Prop where
  wellQueued : run.state.WellQueued admission.maxWaiters
  asked_nodup : (run.asked.map Prod.snd).Nodup
  waiting_sublist : run.waiting.Sublist run.asked
  fifo : admission.fairnessPolicy = .fifo →
    (run.state.fifoQueue.filter fun entry => !run.isClosed entry.2) = run.waiting
  roundRobin : admission.fairnessPolicy = .roundRobin → ∀ handleId,
    run.state.liveQueue run.isClosed handleId = (run.waitingOf handleId).map Prod.snd

theorem Tracks.waiting_nodup (h : Tracks admission run) : (run.waiting.map Prod.snd).Nodup :=
  h.asked_nodup.sublist (h.waiting_sublist.map Prod.snd)

theorem Tracks.waitingOf_nodup (h : Tracks admission run) (handleId : HandleId) :
    ((run.waitingOf handleId).map Prod.snd).Nodup :=
  h.waiting_nodup.sublist (List.filter_sublist.map Prod.snd)

/-- A sender belongs to the acquisition that waits with it. -/
theorem Tracks.find_waiting (h : Tracks admission run) {entry : HandleId × AcquireId}
    (hentry : entry ∈ run.waiting) :
    (run.asked.find? fun other => other.2 == entry.2) = some entry :=
  find?_key_of_mem h.asked_nodup (h.waiting_sublist.subset hentry)

theorem tracks_new (admission : WaiterAdmission) : Tracks admission new where
  wellQueued := wellQueued_new _
  asked_nodup := List.nodup_nil
  waiting_sublist := List.Sublist.refl _
  fifo _ := rfl
  roundRobin _ _ := rfl

/-- A handle waits. -/
def Waits (run : QueueRun) (handleId : HandleId) : Prop :=
  ∃ sender, (handleId, sender) ∈ run.waiting

theorem waits_iff {handleId : HandleId} : run.Waits handleId ↔ run.waitingOf handleId ≠ [] := by
  rw [Waits, waitingOf, ne_eq, List.filter_eq_nil_iff]
  push Not
  constructor
  · rintro ⟨sender, hmem⟩
    exact ⟨_, hmem, beq_self_eq_true _⟩
  · rintro ⟨⟨other, sender⟩, hmem, hother⟩
    obtain rfl : other = handleId := by simpa using hother
    exact ⟨sender, hmem⟩

/-! ## A grant -/

/-- **A grant under FIFO** is the first of those who wait. -/
theorem Tracks.granted_fifo (h : Tracks admission run)
    (hpolicy : admission.fairnessPolicy = .fifo) :
    run.granted .fifo = run.waiting.head? ∧
    (run.state.takeNextWaiter run.isClosed .fifo).1 = run.waiting.head?.map Prod.snd ∧
    ((run.state.takeNextWaiter run.isClosed .fifo).2.fifoQueue.filter
      fun entry => !run.isClosed entry.2) = run.waiting.tail := by
  obtain ⟨rest, htake, hrest, -⟩ := h.wellQueued.takeNext_fifo run.isClosed
  rw [h.fifo hpolicy] at htake hrest
  rw [granted, htake]
  refine ⟨?_, rfl, hrest⟩
  cases hwaiting : run.waiting with
  | nil => rfl
  | cons entry rest =>
    have hentry : entry ∈ run.waiting := by
      rw [hwaiting]
      exact List.mem_cons_self
    exact h.find_waiting hentry

/-- **A grant under round robin** is the first of those who wait with the handle whose turn it
is: the first handle of the rotation that has somebody waiting. -/
theorem Tracks.granted_roundRobin (h : Tracks admission run)
    (hpolicy : admission.fairnessPolicy = .roundRobin) :
    (run.granted .roundRobin = none ∧
      (run.state.takeNextWaiter run.isClosed .roundRobin).1 = none ∧
      (∀ handleId, ¬ run.Waits handleId) ∧
      (run.state.takeNextWaiter run.isClosed .roundRobin).2.roundRobinOrder =
        run.state.roundRobinOrder ∧
      Serves run.isClosed none run.state
        (run.state.takeNextWaiter run.isClosed .roundRobin).2) ∨
    ∃ pre handleId post sender rest,
      run.granted .roundRobin = some (handleId, sender) ∧
      (run.state.takeNextWaiter run.isClosed .roundRobin).1 = some sender ∧
      run.waitingOf handleId = (handleId, sender) :: rest ∧
      run.state.roundRobinOrder = pre ++ handleId :: post ∧
      (∀ g ∈ pre, ¬ run.Waits g) ∧
      (run.state.takeNextWaiter run.isClosed .roundRobin).2.roundRobinOrder =
        post ++ pre ++ [handleId] ∧
      Serves run.isClosed (some handleId) run.state
        (run.state.takeNextWaiter run.isClosed .roundRobin).2 := by
  have hlive := h.roundRobin hpolicy
  have hidle : ∀ g, run.state.liveQueue run.isClosed g = [] → ¬ run.Waits g := by
    intro g hnil
    rw [waits_iff, not_not, ← List.map_eq_nil_iff (f := Prod.snd), ← hlive g, hnil]
  rcases h.wellQueued.takeNext_roundRobin run.isClosed with ⟨st', htake, hnone, horder, hserves⟩ |
    ⟨pre, handleId, post, sender, st', htake, hsplit, hpre, hhead, horder, hserves⟩
  · rw [granted, htake]
    exact Or.inl ⟨rfl, rfl, fun g => hidle g (hnone g), horder, hserves⟩
  · rw [granted, htake]
    -- the sender is the first of the handle's part
    rw [hlive handleId, List.head?_map, Option.map_eq_some_iff] at hhead
    obtain ⟨⟨other, sender⟩, hentry, rfl⟩ := hhead
    obtain ⟨rest, hpart⟩ : ∃ rest, run.waitingOf handleId = (other, sender) :: rest :=
      List.head?_eq_some_iff.mp hentry
    have hmem : (other, sender) ∈ run.waitingOf handleId := by
      rw [hpart]
      exact List.mem_cons_self
    obtain ⟨hwaiting, hother⟩ := List.mem_filter.mp hmem
    obtain rfl : other = handleId := by simpa using hother
    exact Or.inr ⟨pre, other, post, sender, rest, h.find_waiting hwaiting, rfl, hpart, hsplit,
      fun g hg => hidle g (hpre g hg), horder, hserves⟩

/-! ## Every operation keeps the queues and the list in step -/

/-- Nobody with another handle shares the sender that is granted. -/
theorem Tracks.filter_other (h : Tracks admission run) {handleId other : HandleId}
    {sender : AcquireId} (hmem : (handleId, sender) ∈ run.waiting) (hother : other ≠ handleId) :
    ((run.waitingOf other).filter fun entry => entry.2 != sender) = run.waitingOf other := by
  rw [List.filter_eq_self]
  rintro entry hentry
  obtain ⟨hwaiting, hhandle⟩ := List.mem_filter.mp hentry
  have hne : entry.2 ≠ sender := by
    intro hsame
    have heq : entry = (handleId, sender) :=
      List.inj_on_of_nodup_map h.waiting_nodup hwaiting hmem hsame
    rw [heq] at hhandle
    exact hother (by simpa using hhandle : handleId = other).symm
  simpa using hne

theorem filter_taken_none (l : List (HandleId × AcquireId)) :
    (l.filter fun entry => (none : Option AcquireId) != some entry.2) = l :=
  List.filter_eq_self.mpr fun _ _ => rfl

theorem filter_taken_some (l : List (HandleId × AcquireId)) (sender : AcquireId) :
    (l.filter fun entry => some sender != some entry.2) =
      l.filter fun entry => entry.2 != sender := by
  refine List.filter_congr fun entry _ => ?_
  rw [Bool.eq_iff_iff, bne_iff_ne, bne_iff_ne, ne_eq, Option.some.injEq, eq_comm]

/-- The waiter taken is the first of its queue. -/
theorem Tracks.takeNext (h : Tracks admission run)
    (hstep : run.step admission .takeNext = some run') : Tracks admission run' := by
  cases hstep
  refine ⟨h.wellQueued.takeNext run.isClosed _, h.asked_nodup,
    List.filter_sublist.trans h.waiting_sublist, fun hpolicy => ?_, fun hpolicy handleId => ?_⟩
  · obtain ⟨-, htaken, hrest⟩ := h.granted_fifo hpolicy
    simp only [hpolicy, htaken, hrest]
    have hnodup := h.waiting_nodup
    cases hwaiting : run.waiting with
    | nil => rfl
    | cons entry rest =>
      rw [hwaiting] at hnodup
      rw [List.head?_cons, Option.map_some, filter_taken_some, filter_key_of_head hnodup,
        List.tail_cons]
  · rcases h.granted_roundRobin hpolicy with ⟨-, htaken, -, -, hserves⟩ |
      ⟨pre, served, post, sender, rest, -, htaken, hpart, -, -, -, hserves⟩
    · simp only [hpolicy, htaken, waitingOf, filter_taken_none]
      rw [hserves.live_of_none handleId]
      exact h.roundRobin hpolicy handleId
    · simp only [hpolicy, htaken, waitingOf, filter_taken_some]
      rw [List.filter_comm, hserves.live handleId, h.roundRobin hpolicy handleId]
      change _ = ((run.waitingOf handleId).filter fun entry => entry.2 != sender).map Prod.snd
      by_cases hserved : some served = some handleId
      · obtain rfl := Option.some.inj hserved
        have hnodup := h.waitingOf_nodup served
        rw [hpart] at hnodup ⊢
        rw [if_pos rfl, filter_key_of_head hnodup, List.map_cons, List.tail_cons]
      · have hmem : (served, sender) ∈ run.waiting := by
          refine (List.mem_filter.mp (show (served, sender) ∈ run.waitingOf served from ?_)).1
          rw [hpart]
          exact List.mem_cons_self
        rw [if_neg hserved, h.filter_other hmem fun heq => hserved (congrArg some heq.symm)]

/-- Pruning and registration change nothing for those who wait. -/
theorem Tracks.pruned_fifo (h : Tracks admission run)
    (hpolicy : admission.fairnessPolicy = .fifo) (handleId : HandleId) :
    ((run.state.pruneCancelledWaiters run.isClosed).registerHandle handleId).fifoQueue =
      run.waiting := by
  rw [fifoQueue_registerHandle, ← h.fifo hpolicy]
  rfl

theorem Tracks.pruned_roundRobin (h : Tracks admission run)
    (hpolicy : admission.fairnessPolicy = .roundRobin) (handleId other : HandleId) :
    ((run.state.pruneCancelledWaiters run.isClosed).registerHandle handleId).liveQueue
      run.isClosed other = (run.waitingOf other).map Prod.snd := by
  rw [liveQueue_registerHandle, liveQueue_prune, h.roundRobin hpolicy]

theorem Tracks.waiting_live_fifo (h : Tracks admission run)
    (hpolicy : admission.fairnessPolicy = .fifo) :
    (run.waiting.filter fun entry => !run.isClosed entry.2) = run.waiting := by
  rw [← h.fifo hpolicy, List.filter_filter]
  simp only [Bool.and_self]

/-- A waiter is appended to the queue of its handle. -/
theorem Tracks.enqueue (h : Tracks admission run) {handleId : HandleId} {sender : AcquireId}
    (hstep : run.step admission (.enqueue handleId sender) = some run') :
    Tracks admission run' := by
  have hwell := step_wellQueued h.wellQueued hstep
  obtain ⟨hfresh, hclosed, hstate, hasked, hwaiting⟩ := step_enqueue_eq_some hstep
  have hcases := enqueueWaiter_cases run.isClosed run.state handleId sender admission rfl
  refine ⟨hwell, ?_, ?_, fun hpolicy => ?_, fun hpolicy other => ?_⟩
  · rw [hasked, List.map_append]
    exact List.nodup_append_comm.mpr (List.nodup_cons.mpr ⟨hfresh, h.asked_nodup⟩)
  · rw [hasked, hwaiting]
    split_ifs
    · exact h.waiting_sublist.append (List.Sublist.refl _)
    · exact h.waiting_sublist.trans (List.sublist_append_left _ _)
  · rw [hstate, hwaiting, hclosed]
    rcases hcases with ⟨-, hout⟩ | ⟨-, ⟨-, hout⟩ | ⟨hother, -⟩⟩
    · rw [hout, if_neg (by simp), h.pruned_fifo hpolicy]
      exact h.waiting_live_fifo hpolicy
    · rw [hout]
      simp only [h.pruned_fifo hpolicy, List.filter_append, h.waiting_live_fifo hpolicy, true_and]
      cases hsender : run.isClosed sender with
      | true | false => simp [hsender]
    · exact absurd (hpolicy.symm.trans hother) (by simp)
  · have hbefore := h.pruned_roundRobin hpolicy handleId
    rw [hstate, waitingOf, hwaiting, hclosed]
    rcases hcases with ⟨-, hout⟩ | ⟨-, ⟨hother, -⟩ | ⟨-, queue, hlookup, hout⟩⟩
    · rw [hout, if_neg (by simp)]
      exact hbefore other
    · exact absurd (hpolicy.symm.trans hother) (by simp)
    · -- the queue that is appended to is the handle's live part
      have hqueue := hbefore handleId
      rw [liveQueue, hlookup, Option.getD_some] at hqueue
      rw [hout]
      simp only [true_and]
      rw [liveQueue_replace hlookup]
      by_cases hother : other = handleId
      · subst hother
        rw [if_pos rfl, List.filter_append, hqueue]
        cases hsender : run.isClosed sender with
        | true | false => simp [hsender, waitingOf]
      · rw [if_neg hother, hbefore other]
        cases hsender : run.isClosed sender with
        | true => simp [waitingOf]
        | false => simp [waitingOf, Ne.symm hother]

theorem not_update_closed (isClosed : AcquireId → Bool) (sender other : AcquireId) :
    (!Function.update isClosed sender true other) = (!isClosed other && other != sender) := by
  rw [Function.update_apply]
  by_cases hsame : other = sender
  · simp [hsame]
  · simp [hsame]

/-- **Step lemma** of the refinement. -/
theorem Tracks.step (h : Tracks admission run) (hstep : run.step admission op = some run') :
    Tracks admission run' := by
  cases op with
  | enqueue handleId sender => exact h.enqueue hstep
  | takeNext => exact h.takeNext hstep
  | deregister handleId =>
    cases hstep
    refine ⟨h.wellQueued.deregister handleId, h.asked_nodup,
      List.filter_sublist.trans h.waiting_sublist, fun hpolicy => ?_, fun hpolicy other => ?_⟩
    · rw [← h.fifo hpolicy]
      exact List.filter_comm _ _ _
    · simp only [waitingOf]
      rw [liveQueue_deregister, h.roundRobin hpolicy other, waitingOf, List.filter_filter]
      by_cases hother : other = handleId
      · -- nobody waits with the handle that is gone
        rw [if_pos hother, List.filter_eq_nil_iff.mpr, List.map_nil]
        simp [hother]
      · rw [if_neg hother]
        congr 1
        refine List.filter_congr fun entry _ => ?_
        by_cases hentry : entry.1 = other
        · simp [hentry, hother]
        · simp [hentry]
  | prune =>
    cases hstep
    refine ⟨h.wellQueued.prune run.isClosed, h.asked_nodup, h.waiting_sublist,
      fun hpolicy => ?_, fun hpolicy other => ?_⟩
    · rw [← h.fifo hpolicy]
      simp only [pruneCancelledWaiters, List.filter_filter, Bool.and_self]
    · rw [liveQueue_prune]
      exact h.roundRobin hpolicy other
  | cancel sender =>
    cases hstep
    refine ⟨h.wellQueued, h.asked_nodup, List.filter_sublist.trans h.waiting_sublist,
      fun hpolicy => ?_, fun hpolicy other => ?_⟩
    · simp only [not_update_closed]
      rw [← h.fifo hpolicy, List.filter_filter]
      exact List.filter_congr fun entry _ => Bool.and_comm _ _
    · have hlive := h.roundRobin hpolicy other
      simp only [liveQueue, waitingOf, not_update_closed] at hlive ⊢
      have hmap : ∀ l : List (HandleId × AcquireId),
          (l.filter fun entry => entry.2 != sender).map Prod.snd =
            (l.map Prod.snd).filter fun other => other != sender := by
        intro l
        rw [List.filter_map]
        rfl
      rw [List.filter_comm, hmap, ← hlive, List.filter_filter]
      exact List.filter_congr fun _ _ => Bool.and_comm _ _

theorem exec_tracks {ops : List QueueOp}
    (h : Trace.exec (QueueRun.step admission) new ops = some run) : Tracks admission run :=
  Trace.exec_invariant (fun _ _ _ hr hstep => hr.step hstep) (tracks_new admission) h

/-! ## The handles ahead -/

/-- The grants an operation makes: one at most. -/
def grantsAt (admission : WaiterAdmission) (run : QueueRun) :
    QueueOp → List (HandleId × AcquireId)
  | .takeNext => (run.granted admission.fairnessPolicy).toList
  | _ => []

/-- The grants a sequence of operations makes, in order. -/
def grantsOf (admission : WaiterAdmission) : QueueRun → List QueueOp → List (HandleId × AcquireId)
  | _, [] => []
  | run, op :: ops =>
    run.grantsAt admission op ++
      match run.step admission op with
      | none => []
      | some run' => grantsOf admission run' ops

/-- The handle waits before every operation, up to the one that grants it. -/
def WaitsUntilGranted (admission : WaiterAdmission) (handleId : HandleId) :
    QueueRun → List QueueOp → Prop
  | run, [] => run.Waits handleId
  | run, op :: ops => run.Waits handleId ∧
    ((∃ sender, (handleId, sender) ∈ run.grantsAt admission op) ∨
      ∀ run', run.step admission op = some run' → WaitsUntilGranted admission handleId run' ops)

theorem WaitsUntilGranted.waits {handleId : HandleId} {ops : List QueueOp}
    (h : run.WaitsUntilGranted admission handleId ops) : run.Waits handleId := by
  cases ops with
  | nil => exact h
  | cons op ops => exact h.1

/-- The handles that have their turn before this one. -/
def handlesAhead (run : QueueRun) (handleId : HandleId) : List HandleId :=
  Rotation.ahead handleId run.state.roundRobinOrder

theorem Tracks.mem_order (h : Tracks admission run)
    (hpolicy : admission.fairnessPolicy = .roundRobin) {handleId : HandleId}
    (hwaits : run.Waits handleId) : handleId ∈ run.state.roundRobinOrder := by
  rw [h.wellQueued.mem_order]
  by_contra hnot
  have hlive := h.roundRobin hpolicy handleId
  rw [liveQueue_of_not_registered hnot] at hlive
  exact waits_iff.mp hwaits (List.map_eq_nil_iff.mp hlive.symm)

/-- A grant to another handle: that handle was ahead and is so no longer. -/
theorem Tracks.takeNext_ahead (h : Tracks admission run)
    (hpolicy : admission.fairnessPolicy = .roundRobin)
    (hstep : run.step admission .takeNext = some run') {handleId : HandleId}
    (hwaits : run.Waits handleId)
    (hother : ∀ sender, run.granted .roundRobin ≠ some (handleId, sender)) :
    ∃ served sender before, run.granted .roundRobin = some (served, sender) ∧
      run.handlesAhead handleId = before ++ served :: run'.handlesAhead handleId ∧
      served ∉ run'.handlesAhead handleId := by
  have hmem := h.mem_order hpolicy hwaits
  have hnodup := (h.takeNext hstep).wellQueued.order_nodup
  cases hstep
  rcases h.granted_roundRobin hpolicy with ⟨-, -, hnobody, -⟩ |
    ⟨pre, served, post, sender, rest, hgranted, -, -, hsplit, hpre, horder, -⟩
  · exact absurd hwaits (hnobody handleId)
  · have hne : served ≠ handleId := by
      rintro rfl
      exact hother sender hgranted
    -- the handles that were passed over had nobody waiting
    have hnotpre : handleId ∉ pre := fun hin => hpre handleId hin hwaits
    have hpost : handleId ∈ post := by
      rw [hsplit, List.mem_append, List.mem_cons] at hmem
      exact (hmem.resolve_left hnotpre).resolve_left (Ne.symm hne)
    simp only [hpolicy] at hnodup ⊢
    simp only [handlesAhead]
    rw [horder] at hnodup ⊢
    refine ⟨served, sender, pre, hgranted, ?_, ?_⟩
    · rw [hsplit, Rotation.ahead_of_behind hnotpre hne, Rotation.ahead_turn hpost]
    · exact Rotation.notMem_ahead_turn hnodup (List.mem_append_left _ hpost)

/-- **While a handle waits, nobody gets ahead of it**, and each grant to another handle takes at
least one from those ahead. -/
theorem Tracks.step_ahead (h : Tracks admission run)
    (hpolicy : admission.fairnessPolicy = .roundRobin)
    (hstep : run.step admission op = some run') {handleId : HandleId}
    (hwaits : run.Waits handleId) (hwaits' : run'.Waits handleId)
    (hother : ∀ sender, (handleId, sender) ∉ run.grantsAt admission op) :
    (run'.handlesAhead handleId).Sublist (run.handlesAhead handleId) ∧
    (run'.handlesAhead handleId).length + (run.grantsAt admission op).length ≤
      (run.handlesAhead handleId).length := by
  have hmem := h.mem_order hpolicy hwaits
  cases op with
  | enqueue other sender =>
    obtain ⟨-, -, hstate, -⟩ := step_enqueue_eq_some hstep
    have hsame : run'.handlesAhead handleId = run.handlesAhead handleId := by
      unfold handlesAhead
      rw [hstate, roundRobinOrder_enqueue]
      rcases registerHandle_cases (run.state.pruneCancelledWaiters run.isClosed) other with
        ⟨-, heq⟩ | ⟨-, heq⟩
      · rw [heq]
        rfl
      · rw [heq]
        exact Rotation.ahead_append_of_mem hmem _
    rw [hsame]
    exact ⟨List.Sublist.refl _, le_rfl⟩
  | takeNext =>
    have hnot : ∀ sender, run.granted .roundRobin ≠ some (handleId, sender) := by
      intro sender hgranted
      refine hother sender ?_
      simp [grantsAt, hpolicy, hgranted]
    obtain ⟨served, sender, before, hgranted, hahead, -⟩ :=
      h.takeNext_ahead hpolicy hstep hwaits hnot
    have hone : (run.grantsAt admission .takeNext).length = 1 := by
      simp [grantsAt, hpolicy, hgranted]
    rw [hahead, hone]
    refine ⟨(List.sublist_cons_self _ _).trans (List.sublist_append_right _ _), ?_⟩
    rw [List.length_append, List.length_cons]
    omega
  | deregister other =>
    cases hstep
    -- it is not this handle that leaves
    have hne : handleId ≠ other := by
      obtain ⟨sender, hin⟩ := hwaits'
      have hkept := (List.mem_filter.mp hin).2
      simpa using hkept
    have hstays : (handleId != other) = true := by simpa using hne
    have hsub : (Rotation.ahead handleId
        (run.state.roundRobinOrder.filter fun queuedId => queuedId != other)).Sublist
        (run.handlesAhead handleId) := by
      rw [Rotation.ahead_filter (p := fun queuedId => queuedId != other) hstays]
      exact List.filter_sublist
    exact ⟨hsub, hsub.length_le⟩
  | prune | cancel sender =>
    cases hstep
    exact ⟨List.Sublist.refl _, le_rfl⟩

/-! ## Bounded bypass -/

theorem grantsOf_cons_of_some {ops : List QueueOp} (hstep : run.step admission op = some run') :
    grantsOf admission run (op :: ops) =
      run.grantsAt admission op ++ grantsOf admission run' ops := by
  rw [grantsOf, hstep]

theorem grantsOf_append {ops : List QueueOp}
    (hexec : Trace.exec (QueueRun.step admission) run ops = some run') (later : List QueueOp) :
    grantsOf admission run (ops ++ later) =
      grantsOf admission run ops ++ grantsOf admission run' later := by
  induction ops generalizing run with
  | nil =>
    cases hexec
    rfl
  | cons op ops ih =>
    obtain ⟨next, hstep, hrest⟩ := Trace.exec_cons_eq_some hexec
    rw [List.cons_append, grantsOf_cons_of_some hstep, grantsOf_cons_of_some hstep, ih hrest,
      List.append_assoc]

/-- An operation that cannot happen grants nothing. -/
theorem grantsOf_cons_of_none {ops : List QueueOp} (hstep : run.step admission op = none) :
    grantsOf admission run (op :: ops) = [] := by
  rw [grantsOf, hstep, List.append_nil]
  cases op with
  | takeNext => exact absurd hstep (by simp [QueueRun.step])
  | enqueue handleId sender | deregister handleId | prune | cancel sender => rfl

/-- A handle that waits is granted within one grant more than there are handles ahead. -/
theorem Tracks.granted_within (h : Tracks admission run)
    (hpolicy : admission.fairnessPolicy = .roundRobin) {handleId : HandleId} {ops : List QueueOp}
    (hwaits : run.WaitsUntilGranted admission handleId ops)
    (hmany : (run.handlesAhead handleId).length + 1 ≤ (grantsOf admission run ops).length) :
    ∃ sender, (handleId, sender) ∈
      (grantsOf admission run ops).take ((run.handlesAhead handleId).length + 1) := by
  induction ops generalizing run with
  | nil => exact absurd hmany (by simp [grantsOf])
  | cons op ops ih =>
    cases hstep : run.step admission op with
    | none =>
      rw [grantsOf_cons_of_none hstep] at hmany
      cases hmany
    | some run' =>
      rw [grantsOf_cons_of_some hstep] at hmany ⊢
      rw [List.length_append] at hmany
      rw [List.take_append]
      have hone : (run.grantsAt admission op).length ≤ 1 := by
        cases op with
        | takeNext =>
          rw [grantsAt]
          cases run.granted admission.fairnessPolicy with
          | none => exact Nat.zero_le _
          | some entry => exact le_rfl
        | enqueue handleId sender | deregister handleId | prune | cancel sender =>
          exact Nat.zero_le _
      by_cases hnow : ∃ sender, (handleId, sender) ∈ run.grantsAt admission op
      · obtain ⟨sender, hsender⟩ := hnow
        refine ⟨sender, List.mem_append_left _ ?_⟩
        rwa [List.take_of_length_le (by omega)]
      · have hlater := (hwaits.2.resolve_left hnow) run' hstep
        obtain ⟨-, hless⟩ := h.step_ahead hpolicy hstep hwaits.1 hlater.waits
          fun sender hsender => hnow ⟨sender, hsender⟩
        obtain ⟨sender, hsender⟩ := ih (h.step hstep) hlater (by omega)
        refine ⟨sender, List.mem_append_right _ ?_⟩
        exact List.take_subset_take_left _ (by omega) hsender

/-- Until it is granted, a handle that waits has nobody new ahead. -/
theorem Tracks.ahead_of_not_granted (h : Tracks admission run)
    (hpolicy : admission.fairnessPolicy = .roundRobin) {handleId : HandleId} {ops : List QueueOp}
    (hwaits : run.WaitsUntilGranted admission handleId ops)
    (hexec : Trace.exec (QueueRun.step admission) run ops = some run')
    (hnone : ∀ sender, (handleId, sender) ∉ grantsOf admission run ops) :
    run'.Waits handleId ∧
      (run'.handlesAhead handleId).Sublist (run.handlesAhead handleId) := by
  induction ops generalizing run with
  | nil =>
    cases hexec
    exact ⟨hwaits, List.Sublist.refl _⟩
  | cons op ops ih =>
    obtain ⟨next, hstep, hrest⟩ := Trace.exec_cons_eq_some hexec
    rw [grantsOf_cons_of_some hstep] at hnone
    have hnow : ∀ sender, (handleId, sender) ∉ run.grantsAt admission op :=
      fun sender hsender => hnone sender (List.mem_append_left _ hsender)
    have hlater := (hwaits.2.resolve_left fun ⟨sender, hsender⟩ => hnow sender hsender) next hstep
    obtain ⟨hsub, -⟩ := h.step_ahead hpolicy hstep hwaits.1 hlater.waits hnow
    obtain ⟨hwaits', hsub'⟩ := ih (h.step hstep) hlater hrest
      fun sender hsender => hnone sender (List.mem_append_right _ hsender)
    exact ⟨hwaits', hsub'.trans hsub⟩

/-- Between two grants to one handle, every other handle that waits is granted. -/
theorem Tracks.granted_between (h : Tracks admission run)
    (hpolicy : admission.fairnessPolicy = .roundRobin) {served other : HandleId}
    {first last : AcquireId} {next last' : QueueRun} {ops : List QueueOp}
    (hfirst : run.granted .roundRobin = some (served, first))
    (hstep : run.step admission .takeNext = some next)
    (hexec : Trace.exec (QueueRun.step admission) next ops = some last')
    (hlast : last'.granted .roundRobin = some (served, last)) (hne : other ≠ served)
    (hwaits : next.WaitsUntilGranted admission other ops) :
    ∃ sender, (other, sender) ∈ grantsOf admission next ops := by
  by_contra hnone
  push Not at hnone
  -- taking a waiter makes nobody wait, so the other handle waited before the first grant
  have hbefore : run.Waits other := by
    cases hstep
    obtain ⟨sender, hin⟩ := hwaits.waits
    exact ⟨sender, List.mem_of_mem_filter hin⟩
  have hturn : ∀ {r : QueueRun} {a : AcquireId}, r.granted .roundRobin = some (served, a) →
      ∀ sender, r.granted .roundRobin ≠ some (other, sender) := by
    rintro r a hr sender hr'
    rw [hr] at hr'
    exact hne (Prod.mk.inj (Option.some.inj hr')).1.symm
  obtain ⟨g, a, -, hg, -, hbehind⟩ := h.takeNext_ahead hpolicy hstep hbefore (hturn hfirst)
  obtain ⟨rfl, -⟩ := Prod.mk.inj (Option.some.inj (hg.symm.trans hfirst))
  have hnext := h.step hstep
  have htracks : Tracks admission last' :=
    Trace.exec_invariant (fun _ _ _ hr hs => hr.step hs) hnext hexec
  obtain ⟨hstill, hsub⟩ := hnext.ahead_of_not_granted hpolicy hwaits hexec hnone
  -- so it would still be ahead of the handle that is granted again
  obtain ⟨g', b, before, hg', hahead, -⟩ := htracks.takeNext_ahead hpolicy rfl hstill (hturn hlast)
  obtain ⟨rfl, -⟩ := Prod.mk.inj (Option.some.inj (hg'.symm.trans hlast))
  apply hbehind
  apply hsub.subset
  rw [hahead]
  exact List.mem_append_right _ List.mem_cons_self

/-! ## The order of grants -/

/-- Grants among the acquisitions with `p` go to the first of those who wait. -/
def ServesFirst (admission : WaiterAdmission) (p : HandleId × AcquireId → Bool) : Prop :=
  ∀ run entry, Tracks admission run → run.granted admission.fairnessPolicy = some entry →
    p entry = true → (run.waiting.filter p).head? = some entry

theorem servesFirst_fifo (hpolicy : admission.fairnessPolicy = .fifo) :
    ServesFirst admission fun _ => true := by
  rintro run entry h hgranted -
  rw [hpolicy, (h.granted_fifo hpolicy).1] at hgranted
  rwa [List.filter_true]

theorem servesFirst_roundRobin (hpolicy : admission.fairnessPolicy = .roundRobin)
    (handleId : HandleId) : ServesFirst admission fun entry => entry.1 == handleId := by
  rintro run entry h hgranted hentry
  rw [hpolicy] at hgranted
  rcases h.granted_roundRobin hpolicy with ⟨hnone, -⟩ |
    ⟨pre, served, post, sender, rest, hserved, -, hpart, -⟩
  · exact absurd (hnone.symm.trans hgranted) (by simp)
  · obtain rfl := Option.some.inj (hserved.symm.trans hgranted)
    obtain rfl : served = handleId := by simpa using hentry
    rw [waitingOf] at hpart
    rw [hpart, List.head?_cons]

/-- Nobody is granted while an earlier arrival waits. -/
theorem Tracks.not_waiting_of_granted (h : Tracks admission run)
    {p : HandleId × AcquireId → Bool} (hp : ServesFirst admission p)
    {earlier later : HandleId × AcquireId} (horder : [earlier, later].Sublist run.asked)
    (hgranted : run.granted admission.fairnessPolicy = some later)
    (hearlier : p earlier = true) (hlater : p later = true) : earlier ∉ run.waiting := by
  intro hwaiting
  obtain ⟨rest, hpart⟩ : ∃ rest, run.waiting.filter p = later :: rest :=
    List.head?_eq_some_iff.mp (hp run later h hgranted hlater)
  have hnodup : run.asked.Nodup := h.asked_nodup.of_map Prod.snd
  have hin : earlier ∈ later :: rest := by
    rw [← hpart]
    exact List.mem_filter.mpr ⟨hwaiting, hearlier⟩
  rcases List.mem_cons.mp hin with rfl | hrest
  · exact not_sublist_swap hnodup horder horder
  · -- then it would have arrived later as well
    have hsub : [later, earlier].Sublist (run.waiting.filter p) := by
      rw [hpart]
      exact (List.singleton_sublist.mpr hrest).cons_cons later
    exact not_sublist_swap hnodup horder
      ((hsub.trans List.filter_sublist).trans h.waiting_sublist)

/-- An operation extends the grants and shortens the list of those who wait at the front, or
extends the list at the back. -/
theorem Tracks.step_sequence (h : Tracks admission run)
    {p : HandleId × AcquireId → Bool} (hp : ServesFirst admission p)
    (hstep : run.step admission op = some run') {granted : List (HandleId × AcquireId)}
    (hsub : (granted ++ run.waiting.filter p).Sublist (run.asked.filter p)) :
    (granted ++ (run.grantsAt admission op).filter p ++ run'.waiting.filter p).Sublist
      (run'.asked.filter p) := by
  -- those who wait get fewer unless somebody asks
  have hfewer : ∀ {waiting : List (HandleId × AcquireId)}, waiting.Sublist run.waiting →
      (granted ++ [] ++ waiting.filter p).Sublist (run.asked.filter p) := by
    rintro waiting hwaiting
    rw [List.append_nil]
    exact ((List.Sublist.refl granted).append (hwaiting.filter p)).trans hsub
  cases op with
  | enqueue handleId sender =>
    obtain ⟨-, -, -, hasked, hwaiting⟩ := step_enqueue_eq_some hstep
    have hnone : (run.grantsAt admission (.enqueue handleId sender)).filter p = [] := rfl
    rw [hasked, hwaiting, hnone, List.filter_append]
    split_ifs
    · rw [List.append_nil, List.filter_append, ← List.append_assoc]
      exact hsub.append (List.Sublist.refl _)
    · exact (hfewer (List.Sublist.refl _)).trans (List.sublist_append_left _ _)
  | takeNext =>
    cases hstep
    rw [grantsAt]
    cases hgranted : run.granted admission.fairnessPolicy with
    | none => exact hfewer List.filter_sublist
    | some entry =>
      cases hentry : p entry with
      | false =>
        rw [Option.toList_some, List.filter_cons_of_neg (by simp [hentry])]
        exact hfewer List.filter_sublist
      | true =>
        obtain ⟨rest, hpart⟩ := List.head?_eq_some_iff.mp (hp run entry h hgranted hentry)
        have hnodup : ((run.waiting.filter p).map Prod.snd).Nodup :=
          h.waiting_nodup.sublist (List.filter_sublist.map Prod.snd)
        -- the sender that is taken is the one of this acquisition
        rw [QueueRun.granted, Option.bind_eq_some_iff] at hgranted
        obtain ⟨sender, htaken, hfind⟩ := hgranted
        obtain rfl : entry.2 = sender := by simpa using List.find?_some hfind
        simp only [htaken, filter_taken_some]
        rw [List.filter_comm, hpart]
        rw [hpart] at hnodup hsub
        rw [filter_key_of_head hnodup, Option.toList_some, List.filter_cons_of_pos hentry,
          List.filter_nil, List.append_assoc, List.singleton_append]
        exact hsub
  | deregister handleId | cancel sender =>
    cases hstep
    exact hfewer List.filter_sublist
  | prune =>
    cases hstep
    exact hfewer (List.Sublist.refl _)

/-- Grants come in the order of arrival. -/
theorem Tracks.grants_sublist (h : Tracks admission run)
    {p : HandleId × AcquireId → Bool} (hp : ServesFirst admission p) {ops : List QueueOp}
    (hexec : Trace.exec (QueueRun.step admission) run ops = some run')
    {granted : List (HandleId × AcquireId)}
    (hsub : (granted ++ run.waiting.filter p).Sublist (run.asked.filter p)) :
    (granted ++ (grantsOf admission run ops).filter p).Sublist (run'.asked.filter p) := by
  induction ops generalizing run granted with
  | nil =>
    cases hexec
    rw [grantsOf, List.filter_nil, List.append_nil]
    exact (List.sublist_append_left _ _).trans hsub
  | cons op ops ih =>
    obtain ⟨next, hstep, hrest⟩ := Trace.exec_cons_eq_some hexec
    have hnext := ih (h.step hstep) hrest (h.step_sequence hp hstep hsub)
    rw [grantsOf_cons_of_some hstep, List.filter_append, ← List.append_assoc]
    exact hnext

theorem grantsOf_new_sublist {p : HandleId × AcquireId → Bool} (hp : ServesFirst admission p)
    {ops : List QueueOp} (hexec : Trace.exec (QueueRun.step admission) new ops = some run) :
    ((grantsOf admission new ops).filter p).Sublist (run.asked.filter p) := by
  have hstart : (([] : List (HandleId × AcquireId)) ++ (new : QueueRun).waiting.filter p).Sublist
      ((new : QueueRun).asked.filter p) := List.Sublist.refl _
  have hall := (tracks_new admission).grants_sublist hp hexec hstart
  rwa [List.nil_append] at hall

/-- **Fairness.**  In any state the queues can reach: under round robin a handle that keeps
waiting with `k` handles ahead is among the next `k + 1` grants, every handle that waits all the
time between two grants to another one is granted in between, and the grants of a handle come in
the order of its requests; under FIFO all grants come in the order of arrival, and nobody is
granted while somebody who came earlier waits. -/
theorem grants_fair {ops : List QueueOp}
    (hexec : Trace.exec (QueueRun.step admission) new ops = some run) :
    (admission.fairnessPolicy = .roundRobin →
      (∀ handleId later, run.WaitsUntilGranted admission handleId later →
        (run.handlesAhead handleId).length + 1 ≤ (grantsOf admission run later).length →
        ∃ sender, (handleId, sender) ∈
          (grantsOf admission run later).take ((run.handlesAhead handleId).length + 1)) ∧
      (∀ served other first last next later run',
        run.granted .roundRobin = some (served, first) →
        run.step admission .takeNext = some next →
        Trace.exec (QueueRun.step admission) next later = some run' →
        run'.granted .roundRobin = some (served, last) → other ≠ served →
        next.WaitsUntilGranted admission other later →
        ∃ sender, (other, sender) ∈ grantsOf admission next later) ∧
      (∀ handleId, ((grantsOf admission new ops).filter fun entry => entry.1 == handleId).Sublist
        (run.asked.filter fun entry => entry.1 == handleId)) ∧
      ∀ earlier later, [earlier, later].Sublist run.asked → earlier.1 = later.1 →
        run.granted .roundRobin = some later → earlier ∉ run.waiting) ∧
    (admission.fairnessPolicy = .fifo →
      (grantsOf admission new ops).Sublist run.asked ∧
      ∀ earlier later, [earlier, later].Sublist run.asked →
        run.granted .fifo = some later → earlier ∉ run.waiting) := by
  have htracks := exec_tracks hexec
  constructor
  · intro hpolicy
    refine ⟨fun handleId later hwaits hmany => htracks.granted_within hpolicy hwaits hmany, ?_, ?_,
      ?_⟩
    · rintro served other first last next later run' hfirst hstep hexec' hlast hne hwaits
      exact htracks.granted_between hpolicy hfirst hstep hexec' hlast hne hwaits
    · intro handleId
      exact grantsOf_new_sublist (servesFirst_roundRobin hpolicy handleId) hexec
    · intro earlier later horder hsame hgranted
      rw [← hpolicy] at hgranted
      exact htracks.not_waiting_of_granted (servesFirst_roundRobin hpolicy later.1) horder hgranted
        (by simpa using hsame) (by simp)
  · intro hpolicy
    constructor
    · have hall := grantsOf_new_sublist (servesFirst_fifo hpolicy) hexec
      rwa [List.filter_true, List.filter_true] at hall
    · intro earlier later horder hgranted
      rw [← hpolicy] at hgranted
      exact htracks.not_waiting_of_granted (servesFirst_fifo hpolicy) horder hgranted rfl rfl

/-- Two requests of one handle and then one of another: the other is granted second. -/
theorem grants_fair_two_handles :
    ∃ run, Trace.exec (QueueRun.step ⟨.roundRobin, 3⟩) new
        [.enqueue 1 10, .enqueue 1 11, .enqueue 2 20] = some run ∧
      (run.handlesAhead 2).length = 1 ∧
      ∃ sender, (2, sender) ∈
        (grantsOf ⟨.roundRobin, 3⟩ run [.takeNext, .takeNext, .takeNext]).take 2 := by
  have hrun : (Trace.exec (QueueRun.step ⟨.roundRobin, 3⟩) new
      [.enqueue 1 10, .enqueue 1 11, .enqueue 2 20]).isSome = true := by decide
  have hexec := (Option.some_get hrun).symm
  obtain ⟨hturns, -⟩ := (grants_fair hexec).1 rfl
  have hmany : Nat.ble 2 3 = true := rfl
  refine ⟨_, hexec, rfl, hturns 2 [.takeNext, .takeNext, .takeNext] ?_
    (Nat.le_of_ble_eq_true hmany)⟩
  -- the second handle waits before both grants
  have hthird : (2, 20) ∈ [(1, 10), (1, 11), (2, 20)] := by decide
  have hsecond : (2, 20) ∈ [(1, 11), (2, 20)] := by decide
  refine ⟨⟨20, hthird⟩, Or.inr fun next hstep => ?_⟩
  cases hstep
  exact ⟨⟨20, hsecond⟩, Or.inl ⟨20, List.mem_singleton_self (2, 20)⟩⟩

end QueueRun

end Wireframe
