/-
# What the receiver of the push queues gets

Producers and the receiver of `PushQueues` run in any order.  The slots of both queues are in the
right hands (`Claimed`), whoever is inside a call has a handle (`Manned`), and the flags with which
`recv` remembers an ended queue are never wrong (`Told`).

* `accepted_eq_received`: nothing that was accepted is lost, duplicated or reordered, and once the
  receiver was told the end, everything has been received and nothing will be accepted any more.
* `high_before_low`: a call of `recv` that returns a frame of low priority has left behind no frame
  of high priority that was accepted before the call, unless a poll of the queue of high priority
  failed spuriously.
-/
import Mathlib.Tactic
import Wireframe.PushQueues

namespace Wireframe

namespace PushQueues

variable {Producer F : Type} [DecidableEq Producer]
variable {s t : PushQueues Producer F} {p : Producer} {frame : F} {priority : PushPriority}
variable {skips : Bool}

/-! ## Who has the slots -/

/-- The queues are sound, whoever is in a line of one has come for it, and whoever sends has the
slot it needs. -/
structure Claimed (queues : PushPriority → BoundedChannel Producer F)
    (producers : Producer → PushPoint F) : Prop where
  sound : ∀ priority, (queues priority).Sound
  claims : ∀ priority, ∀ p ∈ (queues priority).holders ++ (queues priority).waiting,
    (producers p).claim = some priority
  slots : ∀ p frame priority, producers p = .sending frame priority →
    p ∈ (queues priority).holders

/-- A producer moves on without touching a queue. -/
theorem Claimed.goto {point : PushPoint F} (h : Claimed s.queues s.producers)
    (hclaim : point.claim = (s.producers p).claim)
    (hslot : ∀ frame priority, point = .sending frame priority →
      p ∈ (s.queues priority).holders) :
    Claimed s.queues (Function.update s.producers p point) := by
  refine ⟨h.sound, ?_, ?_⟩
  · intro priority q hq
    by_cases hqp : q = p
    · subst hqp
      rw [Function.update_self, hclaim]
      exact h.claims priority q hq
    · rw [Function.update_of_ne hqp]
      exact h.claims priority q hq
  · intro q frame priority hq
    by_cases hqp : q = p
    · subst hqp
      rw [Function.update_self] at hq
      exact hslot frame priority hq
    · rw [Function.update_of_ne hqp] at hq
      exact h.slots q frame priority hq

omit [DecidableEq Producer] in
/-- A queue changes on its own. -/
theorem Claimed.channel {c : BoundedChannel Producer F} (h : Claimed s.queues s.producers)
    (hsound : c.Sound)
    (hline : c.holders ++ c.waiting ⊆ (s.queues priority).holders ++ (s.queues priority).waiting)
    (hholders : (s.queues priority).holders ⊆ c.holders) :
    Claimed (Function.update s.queues priority c) s.producers := by
  refine ⟨?_, ?_, ?_⟩
  · intro other
    by_cases hother : other = priority
    · subst hother
      rwa [Function.update_self]
    · rw [Function.update_of_ne hother]
      exact h.sound other
  · intro other q hq
    by_cases hother : other = priority
    · subst hother
      rw [Function.update_self] at hq
      exact h.claims other q (hline hq)
    · rw [Function.update_of_ne hother] at hq
      exact h.claims other q hq
  · intro q frame other hq
    have hmem := h.slots q frame other hq
    by_cases hother : other = priority
    · subst hother
      rw [Function.update_self]
      exact hholders hmem
    · rwa [Function.update_of_ne hother]

/-- A producer with no claim on another queue moves on, and its queue changes with it. -/
theorem Claimed.change {c : BoundedChannel Producer F} {point : PushPoint F}
    (h : Claimed s.queues s.producers)
    (hfrom : ∀ other, (s.producers p).claim = some other → other = priority) (hsound : c.Sound)
    (hline : ∀ q ∈ c.holders ++ c.waiting,
      q ≠ p → q ∈ (s.queues priority).holders ++ (s.queues priority).waiting)
    (hholders : ∀ q ∈ (s.queues priority).holders, q ≠ p → q ∈ c.holders)
    (hself : p ∈ c.holders ++ c.waiting → point.claim = some priority)
    (hslot : ∀ frame other, point = .sending frame other → other = priority ∧ p ∈ c.holders) :
    Claimed (Function.update s.queues priority c) (Function.update s.producers p point) := by
  refine ⟨?_, ?_, ?_⟩
  · intro other
    by_cases hother : other = priority
    · subst hother
      rwa [Function.update_self]
    · rw [Function.update_of_ne hother]
      exact h.sound other
  · intro other q hq
    by_cases hother : other = priority
    · subst hother
      rw [Function.update_self] at hq
      by_cases hqp : q = p
      · subst hqp
        rw [Function.update_self]
        exact hself hq
      · rw [Function.update_of_ne hqp]
        exact h.claims other q (hline q hq hqp)
    · rw [Function.update_of_ne hother] at hq
      have hclaim := h.claims other q hq
      -- the producer that moves is in no line but that of its own queue
      have hqp : q ≠ p := by
        rintro rfl
        exact hother (hfrom other hclaim)
      rwa [Function.update_of_ne hqp]
  · intro q frame other hq
    by_cases hqp : q = p
    · subst hqp
      rw [Function.update_self] at hq
      obtain ⟨rfl, hmem⟩ := hslot frame other hq
      rwa [Function.update_self]
    · rw [Function.update_of_ne hqp] at hq
      have hmem := h.slots q frame other hq
      by_cases hother : other = priority
      · subst hother
        rw [Function.update_self]
        exact hholders q hmem hqp
      · rwa [Function.update_of_ne hother]

omit [DecidableEq Producer] in
/-- Whoever has no claim is in no line. -/
theorem Claimed.notMem (h : Claimed s.queues s.producers) (hp : (s.producers p).claim = none) :
    p ∉ (s.queues priority).holders ++ (s.queues priority).waiting := by
  intro hmem
  have hclaim := h.claims priority p hmem
  rw [hp] at hclaim
  cases hclaim

/-- Every move keeps the slots in the right hands. -/
theorem Move.claimed (hmove : s.Move skips t) (h : Claimed s.queues s.producers) :
    Claimed t.queues t.producers := by
  cases hmove with
  | stayed | cloned _ _ | dropped _ _ | turned _ | skipped _ => exact h
  | walked _ hold hnew _ =>
    refine h.goto (hnew.trans hold.symm) ?_
    intro frame priority hpoint
    rw [hpoint] at hnew
    exact absurd hnew (by simp [PushPoint.claim])
  | probed hp | recorded hp => exact h.goto (by rw [hp]; rfl) (by simp)
  | @reserved p frame priority _ hold _ hfree =>
    refine h.change ?_ ((h.sound priority).reserved hfree (h.notMem hold)) ?_ ?_ ?_ ?_
    · intro other hother
      rw [hold] at hother
      cases hother
    · intro q hq hqp
      simp only [List.mem_append, List.mem_singleton] at hq ⊢
      tauto
    · exact fun q hq _ => List.mem_append_left _ hq
    · exact fun _ => rfl
    · intro frame' other hpoint
      cases hpoint
      exact ⟨rfl, by simp⟩
  | @suspended p frame priority hp hopen hfree =>
    have hold : (s.producers p).claim = none := by rw [hp]; rfl
    refine h.change ?_ ((h.sound priority).parked hopen hfree (h.notMem hold)) ?_ ?_ ?_ ?_
    · intro other hother
      rw [hold] at hother
      cases hother
    · intro q hq hqp
      simp only [List.mem_append, List.mem_singleton] at hq ⊢
      tauto
    · exact fun q hq _ => hq
    · exact fun _ => rfl
    · exact fun frame' other hpoint => absurd hpoint (by simp)
  | @granted p frame priority hp hslot =>
    refine h.goto (by rw [hp]; rfl) ?_
    intro frame' other hpoint
    cases hpoint
    exact hslot
  | @gaveUp p frame priority returned hp =>
    have hsound := h.sound priority
    have hline := (s.queues priority).line_giveUp p
    refine h.change ?_ (hsound.giveUp p) ?_ ?_ ?_ ?_
    · intro other hother
      rw [hp] at hother
      exact (Option.some.inj hother).symm
    · intro q hq _
      rw [hline] at hq
      exact List.mem_of_mem_erase hq
    · exact fun q hq hqp => BoundedChannel.holders_giveUp hq hqp
    · intro hmem
      rw [hline] at hmem
      exact absurd hmem (hsound.nodup.not_mem_erase)
    · exact fun frame' other hpoint => absurd hpoint (by simp)
  | @committed p frame priority hp =>
    have hsound := h.sound priority
    have hslot := h.slots p frame priority hp
    have hline := BoundedChannel.line_commit (a := frame) hslot
    refine h.change ?_ (hsound.commit hslot) ?_ ?_ ?_ ?_
    · intro other hother
      rw [hp] at hother
      exact (Option.some.inj hother).symm
    · intro q hq _
      rw [hline] at hq
      exact List.mem_of_mem_erase hq
    · exact fun q hq hqp => (List.mem_erase_of_ne hqp).mpr hq
    · intro hmem
      rw [hline] at hmem
      exact absurd hmem (hsound.nodup.not_mem_erase)
    · exact fun frame' other hpoint => absurd hpoint (by simp)
  | @delivered priority frame rest _ hqueue =>
    refine h.channel ((h.sound priority).received hqueue) ?_ ?_
    · rw [BoundedChannel.line_handOver]
      exact fun _ hq => hq
    · exact BoundedChannel.holders_subset_handOver { s.queues priority with queue := rest }
  | @shut priority receiver _ _ =>
    refine h.channel (h.sound priority).close ?_ (fun _ hq => hq)
    exact List.append_subset.mpr ⟨List.subset_append_left _ _, List.nil_subset _⟩

/-! ## Who has a handle -/

/-- Whoever is inside a call has a handle, and no handle is listed twice. -/
structure Manned (s : PushQueues Producer F) : Prop where
  nodup : s.handles.Nodup
  inside : ∀ p, s.producers p ≠ .outside → p ∈ s.handles

omit [DecidableEq Producer] in
/-- Whoever takes part in a move has a handle. -/
theorem Manned.mem (h : s.Manned) (hin : s.producers p ≠ .outside ∨ p ∈ s.handles) :
    p ∈ s.handles :=
  hin.elim (h.inside p) id

/-- A producer with a handle moves on. -/
theorem Manned.goto (h : s.Manned) (hmem : p ∈ s.handles) {point : PushPoint F}
    (hproducers : t.producers = Function.update s.producers p point)
    (hhandles : t.handles = s.handles) : t.Manned := by
  refine ⟨hhandles ▸ h.nodup, ?_⟩
  intro q hq
  rw [hhandles]
  by_cases hqp : q = p
  · rwa [hqp]
  · rw [hproducers, Function.update_of_ne hqp] at hq
    exact h.inside q hq

/-- Every move keeps the callers among those with a handle. -/
theorem Move.manned (hmove : s.Move skips t) (h : s.Manned) : t.Manned := by
  cases hmove with
  | stayed => exact h
  | cloned _ hq =>
    refine ⟨?_, fun p hp => List.mem_append_left _ (h.inside p hp)⟩
    show (s.handles ++ [_]).Nodup
    rw [← List.concat_eq_append]
    exact h.nodup.concat hq
  | @dropped p hp _ =>
    refine ⟨h.nodup.erase p, ?_⟩
    intro q hq
    have hqp : q ≠ p := by
      rintro rfl
      exact hq hp
    exact (List.mem_erase_of_ne hqp).mpr (h.inside q hq)
  | walked hin _ _ _ | reserved hin _ _ _ => exact h.goto (h.mem hin) rfl rfl
  | probed hp => exact h.goto (h.inside _ (by simp [hp])) rfl rfl
  | suspended hp _ _ | recorded hp | granted hp _ | gaveUp hp | committed hp =>
    exact h.goto (h.inside _ (by simp [hp])) rfl rfl
  | delivered _ _ | turned _ | skipped _ | shut _ _ => exact ⟨h.nodup, h.inside⟩

/-! ## The end of a queue -/

/-- A finished queue stays finished, and nothing is accepted into it or received from it. -/
theorem Move.finished (hmove : s.Move skips t) (hclaimed : Claimed s.queues s.producers)
    (hmanned : s.Manned) (h : s.Finished priority) :
    t.Finished priority ∧ t.accepted priority = s.accepted priority ∧
      t.received priority = s.received priority := by
  obtain ⟨hempty, hend⟩ := h
  -- with a handle left, the queue is closed and all its slots are free
  have hclosed (hne : s.handles ≠ []) : (s.queues priority).closed = true ∧
      (s.queues priority).free = (s.queues priority).capacity := hend.resolve_left hne
  have hholders (hne : s.handles ≠ []) : (s.queues priority).holders = [] :=
    ((hclaimed.sound priority).idle (hclosed hne).2).1
  have hne {p : Producer} (hp : p ∈ s.handles) : s.handles ≠ [] := List.ne_nil_of_mem hp
  cases hmove with
  | stayed | walked _ _ _ _ | probed _ | recorded _ | granted _ _ | turned _ | skipped _ =>
    exact ⟨⟨hempty, hend⟩, rfl, rfl⟩
  | cloned hp _ => exact ⟨⟨hempty, Or.inr (hclosed (hne hp))⟩, rfl, rfl⟩
  | dropped _ hmem => exact ⟨⟨hempty, Or.inr (hclosed (hne hmem))⟩, rfl, rfl⟩
  | @reserved p frame other hin _ hopen _ =>
    have hother : priority ≠ other := by
      rintro rfl
      have hshut := (hclosed (hne (hmanned.mem hin))).1
      exact absurd (hopen.symm.trans hshut) Bool.false_ne_true
    refine ⟨?_, rfl, rfl⟩
    simp only [Finished, goto, setQueue, Function.update_of_ne hother]
    exact ⟨hempty, hend⟩
  | @suspended p frame other hp hopen _ =>
    have hother : priority ≠ other := by
      rintro rfl
      have hshut := (hclosed (hne (hmanned.inside p (by simp [hp])))).1
      exact absurd (hopen.symm.trans hshut) Bool.false_ne_true
    refine ⟨?_, rfl, rfl⟩
    simp only [Finished, goto, setQueue, Function.update_of_ne hother]
    exact ⟨hempty, hend⟩
  | @gaveUp p frame other returned hp =>
    refine ⟨?_, rfl, rfl⟩
    by_cases hother : priority = other
    · subst hother
      have hsome := hne (hmanned.inside p (by simp [hp]))
      have hnone : p ∉ (s.queues priority).holders := by
        rw [hholders hsome]
        exact List.not_mem_nil
      simp only [Finished, goto, setQueue, Function.update_self, BoundedChannel.giveUp,
        if_neg hnone]
      exact ⟨hempty, Or.inr (hclosed hsome)⟩
    · simp only [Finished, goto, setQueue, Function.update_of_ne hother]
      exact ⟨hempty, hend⟩
  | @committed p frame other hp =>
    have hother : priority ≠ other := by
      rintro rfl
      have hslot := hclaimed.slots p frame priority hp
      rw [hholders (hne (hmanned.inside p (by simp [hp])))] at hslot
      exact absurd hslot List.not_mem_nil
    refine ⟨?_, Function.update_of_ne hother _ _, rfl⟩
    simp only [Finished, finish, goto, setQueue, Function.update_of_ne hother]
    exact ⟨hempty, hend⟩
  | @delivered other frame rest _ hqueue =>
    have hother : priority ≠ other := by
      rintro rfl
      rw [hqueue] at hempty
      cases hempty
    refine ⟨?_, rfl, Function.update_of_ne hother _ _⟩
    simp only [Finished, deliver, setQueue, Function.update_of_ne hother]
    exact ⟨hempty, hend⟩
  | @shut other receiver _ _ =>
    refine ⟨?_, rfl, rfl⟩
    by_cases hother : priority = other
    · subst hother
      simp only [Finished, setQueue, Function.update_self, BoundedChannel.close]
      exact ⟨hempty, hend.imp_right fun hshut => ⟨trivial, hshut.2⟩⟩
    · simp only [Finished, setQueue, Function.update_of_ne hother]
      exact ⟨hempty, hend⟩

/-! ## What the receiver knows -/

/-- The flags of a call of `recv`. -/
def flags : RecvPoint → Bool × Bool
  | .high highClosed lowClosed | .low highClosed lowClosed | .suspended highClosed lowClosed =>
    (highClosed, lowClosed)
  | .idle | .closing => (false, false)

/-- Accepted frames are received or still queued, in order; a flag is set only for a queue that is
finished, and the end is returned only when both are. -/
structure Told (s : PushQueues Producer F) : Prop where
  fifo : ∀ priority, s.accepted priority = s.received priority ++ (s.queues priority).queue
  high : (flags s.receiver).1 = true → s.Finished .high
  low : (flags s.receiver).2 = true → s.Finished .low
  ended : s.ended = true → ∀ priority, s.Finished priority

omit [DecidableEq Producer] in
/-- A queue changes, but not what it holds. -/
theorem fifo_update {other : PushPriority} {c : BoundedChannel Producer F}
    (h : ∀ priority, s.accepted priority = s.received priority ++ (s.queues priority).queue)
    (priority : PushPriority) (hc : c.queue = (s.queues other).queue) :
    s.accepted priority
      = s.received priority ++ (Function.update s.queues other c priority).queue := by
  by_cases hother : priority = other
  · subst hother
    rw [Function.update_self, hc]
    exact h priority
  · rw [Function.update_of_ne hother]
    exact h priority

/-- Every move keeps the order of what was accepted. -/
theorem Move.fifo (hmove : s.Move skips t)
    (h : ∀ priority, s.accepted priority = s.received priority ++ (s.queues priority).queue) :
    ∀ priority, t.accepted priority = t.received priority ++ (t.queues priority).queue := by
  intro priority
  cases hmove with
  | stayed | cloned _ _ | dropped _ _ | walked _ _ _ _ | probed _ | recorded _ | granted _ _
  | turned _ | skipped _ => exact h priority
  | reserved _ _ _ _ | suspended _ _ _ | shut _ _ => exact fifo_update h priority (by rfl)
  | gaveUp _ => exact fifo_update h priority (by simp)
  | @committed p frame other _ =>
    by_cases hother : priority = other
    · subst hother
      simp [finish, goto, setQueue, BoundedChannel.commit, h priority]
    · simpa [finish, goto, setQueue, Function.update_of_ne hother] using h priority
  | @delivered other frame rest _ hqueue =>
    by_cases hother : priority = other
    · subst hother
      simp [deliver, setQueue, h priority, hqueue]
    · simpa [deliver, setQueue, Function.update_of_ne hother] using h priority

/-- Every move keeps the flags right: a queue they call ended is finished, and stays so. -/
theorem Move.told (hmove : s.Move skips t) (hclaimed : Claimed s.queues s.producers)
    (hmanned : s.Manned) (h : s.Told) : t.Told := by
  have hkeep (priority : PushPriority) (hfinished : s.Finished priority) :
      t.Finished priority := (hmove.finished hclaimed hmanned hfinished).1
  have hended (hs : s.ended = true) (priority : PushPriority) : t.Finished priority :=
    hkeep priority (h.ended hs priority)
  have hsame (hreceiver : t.receiver = s.receiver) (hs : t.ended = s.ended) : t.Told := by
    refine ⟨hmove.fifo h.fifo, ?_, ?_, ?_⟩
    · rw [hreceiver]
      exact fun hflag => hkeep .high (h.high hflag)
    · rw [hreceiver]
      exact fun hflag => hkeep .low (h.low hflag)
    · rw [hs]
      exact hended
  have hidle (hreceiver : flags t.receiver = (false, false)) (hs : t.ended = s.ended) :
      t.Told := by
    refine ⟨hmove.fifo h.fifo, ?_, ?_, ?_⟩
    · rw [hreceiver]
      exact fun hflag => absurd hflag Bool.false_ne_true
    · rw [hreceiver]
      exact fun hflag => absurd hflag Bool.false_ne_true
    · rw [hs]
      exact hended
  have hfifo := hmove.fifo h.fifo
  cases hmove with
  | stayed => exact h
  | cloned _ _ | dropped _ _ | walked _ _ _ _ | probed _ | reserved _ _ _ _ | suspended _ _ _
  | recorded _ | granted _ _ | gaveUp _ | committed _ => exact hsame rfl rfl
  | delivered _ _ => exact hidle rfl rfl
  | shut _ hafter =>
    refine hidle ?_ rfl
    rcases hafter with rfl | rfl
    · rfl
    · rfl
  | skipped hreceiver =>
    have hhigh := h.high
    have hlow := h.low
    rw [hreceiver] at hhigh hlow
    exact ⟨hfifo, hhigh, hlow, h.ended⟩
  | turned hturn =>
    have hhigh := h.high
    have hlow := h.low
    cases hturn with
    | started _ | abandoned _ => exact hidle rfl rfl
    | highEnded hreceiver hend =>
      rw [hreceiver] at hlow
      exact ⟨hfifo, fun _ => hend, hlow, h.ended⟩
    | highPassed hreceiver _ | slept hreceiver | woken hreceiver =>
      rw [hreceiver] at hhigh hlow
      exact ⟨hfifo, hhigh, hlow, h.ended⟩
    | lowEnded hreceiver hend =>
      rw [hreceiver] at hhigh
      exact ⟨hfifo, hhigh, fun _ => hend, h.ended⟩
    | finished hreceiver =>
      rw [hreceiver] at hhigh hlow
      refine ⟨hfifo, fun hflag => absurd hflag Bool.false_ne_true,
        fun hflag => absurd hflag Bool.false_ne_true, ?_⟩
      intro _ priority
      cases priority with
      | high => exact hhigh rfl
      | low => exact hlow rfl

/-! ## Runs -/

omit [DecidableEq Producer] in
/-- A queue changes, but not its capacity. -/
theorem capacity_update {other : PushPriority} {c : BoundedChannel Producer F}
    (priority : PushPriority) (hc : c.capacity = (s.queues other).capacity) :
    (Function.update s.queues other c priority).capacity = (s.queues priority).capacity := by
  by_cases hother : priority = other
  · subst hother
    rw [Function.update_self, hc]
  · rw [Function.update_of_ne hother]

/-- No move changes a capacity. -/
theorem Move.capacity (hmove : s.Move skips t) (priority : PushPriority) :
    (t.queues priority).capacity = (s.queues priority).capacity := by
  cases hmove with
  | reserved _ _ _ _ | suspended _ _ _ | committed _ | shut _ _ =>
    exact capacity_update priority (by rfl)
  | gaveUp _ | delivered _ _ => exact capacity_update priority (by simp)
  | _ => rfl

/-- What holds in every state of a run of queues with these capacities. -/
structure Orderly (high low : ℕ) (s : PushQueues Producer F) : Prop where
  claimed : Claimed s.queues s.producers
  manned : s.Manned
  told : s.Told
  high : (s.queues .high).capacity = high
  low : (s.queues .low).capacity = low

variable {high low : ℕ} {rate : Option ℕ} {owner : Producer}
variable {s₀ : PushQueues Producer F} {events later : List (QueueEvent Producer F)}

omit [DecidableEq Producer] in
/-- New queues are orderly. -/
theorem orderly_buildWithConfig (h : buildWithConfig high low rate owner = .ok s₀) :
    Orderly high low s₀ := by
  unfold buildWithConfig at h
  split at h
  · cases h
  · split at h
    · cases h
    · cases h
      refine ⟨⟨?_, ?_, ?_⟩, ⟨List.nodup_singleton _, ?_⟩, ⟨?_, ?_, ?_, ?_⟩, rfl, rfl⟩
      · intro priority
        cases priority with
        | high => exact BoundedChannel.sound_new high
        | low => exact BoundedChannel.sound_new low
      · intro priority p hp
        cases priority <;> exact absurd hp List.not_mem_nil
      · exact fun p frame priority hp => absurd hp (by simp)
      · exact fun p hp => absurd rfl hp
      · intro priority
        cases priority <;> rfl
      · exact fun hflag => absurd hflag Bool.false_ne_true
      · exact fun hflag => absurd hflag Bool.false_ne_true
      · exact fun hflag => absurd hflag Bool.false_ne_true

/-- Every move keeps a state orderly. -/
theorem Orderly.move (h : Orderly high low s) (hmove : s.Move skips t) : Orderly high low t :=
  ⟨hmove.claimed h.claimed, hmove.manned h.manned, hmove.told h.claimed h.manned h.told,
    (hmove.capacity .high).trans h.high, (hmove.capacity .low).trans h.low⟩

/-- Every run keeps a state orderly. -/
theorem Orderly.exec (h : Orderly high low s) (hrun : Trace.exec step s events = some t) :
    Orderly high low t :=
  Trace.exec_invariant (fun _ _ _ hs hstep => hs.move (step_move hstep)) h hrun

/-- What the moves from such states keep is kept by a whole run. -/
theorem Orderly.exec_invariant {P : PushQueues Producer F → Prop} (h : Orderly high low s)
    (hmove : ∀ t u skips, Orderly high low t → t.Move skips u → P t → P u) (hs : P s)
    (hrun : Trace.exec step s events = some t) : P t := by
  refine (@Trace.exec_invariant _ _ step s t (fun u => Orderly high low u ∧ P u)
    ?_ events ⟨h, hs⟩ hrun).2
  rintro t e u ⟨ht, hP⟩ hstep
  exact ⟨ht.move (step_move hstep), hmove t u _ ht (step_move hstep) hP⟩

/-- The same for a run that never passes over a frame of high priority. -/
theorem Orderly.never_invariant {P : PushQueues Producer F → Prop} (h : Orderly high low s)
    (hmove : ∀ t u, Orderly high low t → t.Move false u → P t → P u) (hs : P s)
    (hnever : Trace.Never step (fun u e => u.skipsHigh e) s events)
    (hrun : Trace.exec step s events = some t) : P t := by
  refine (@Trace.Never.invariant _ _ step s t (fun u => Orderly high low u ∧ P u)
    (fun u e => u.skipsHigh e) ?_ events ⟨h, hs⟩ hnever hrun).2
  rintro t e u hskips ⟨ht, hP⟩ hstep
  have hstepped := step_move hstep
  rw [Bool.eq_false_of_not_eq_true hskips] at hstepped
  exact ⟨ht.move hstepped, hmove t u ht hstepped hP⟩

omit [DecidableEq Producer] in
/-- A queue holds no more than its capacity. -/
theorem Orderly.length_le (h : Orderly high low s) (priority : PushPriority) :
    (s.queues priority).queue.length ≤ (s.queues priority).capacity := by
  have hconserved := (h.claimed.sound priority).conserved
  omega

/-- Nothing happens any more in a queue that is finished. -/
theorem Orderly.exec_finished (h : Orderly high low s) (hfinished : s.Finished priority)
    (hrun : Trace.exec step s events = some t) :
    t.Finished priority ∧ t.accepted priority = s.accepted priority ∧
      t.received priority = s.received priority := by
  refine h.exec_invariant (P := fun u => u.Finished priority ∧
    u.accepted priority = s.accepted priority ∧ u.received priority = s.received priority)
    ?_ ⟨hfinished, rfl, rfl⟩ hrun
  rintro t u skips horderly hmove ⟨hdone, haccepted, hreceived⟩
  obtain ⟨hdone', haccepted', hreceived'⟩ :=
    hmove.finished horderly.claimed horderly.manned hdone
  exact ⟨hdone', haccepted'.trans haccepted, hreceived'.trans hreceived⟩

/-- **Nothing is lost, and the end is the end.**  In every run the frames accepted into a queue are
those received from it followed by those it still holds, and it holds no more than its capacity.
Once `recv` has returned the end, all accepted frames have been received, and whatever happens
after that, no frame is accepted any more. -/
theorem accepted_eq_received (hbuild : buildWithConfig high low rate owner = .ok s₀)
    (hrun : Trace.exec step s₀ events = some s) :
    (∀ priority, s.accepted priority = s.received priority ++ (s.queues priority).queue) ∧
      (s.queues .high).queue.length ≤ high ∧ (s.queues .low).queue.length ≤ low ∧
      (s.ended = true → ∀ later t, Trace.exec step s later = some t →
        ∀ priority, t.accepted priority = s.received priority ∧
          t.received priority = s.received priority) := by
  have horderly := (orderly_buildWithConfig hbuild).exec hrun
  refine ⟨horderly.told.fifo, ?_, ?_, ?_⟩
  · exact horderly.high ▸ horderly.length_le .high
  · exact horderly.low ▸ horderly.length_le .low
  · intro hended later t hlater priority
    have hfinished := horderly.told.ended hended priority
    obtain ⟨-, haccepted, hreceived⟩ := horderly.exec_finished hfinished hlater
    refine ⟨?_, hreceived⟩
    rw [haccepted, horderly.told.fifo priority, hfinished.1, List.append_nil]

/-- A push that has its slot when the queues are closed, and the calls of `recv` up to the end. -/
def closingRun : List (QueueEvent Bool ℕ) :=
  [.push true 7 .high, .probe true, .reserve true, .close, .closeLow, .commit true, .recv,
    .look false, .recv, .look false, .look false, .look false, .look false, .look false]

/-- The push that had its slot is received, and nothing is accepted after that. -/
theorem accepted_eq_received_closing : ∃ s₀ s : PushQueues Bool ℕ,
    buildWithConfig 1 1 none true = .ok s₀ ∧ Trace.exec step s₀ closingRun = some s ∧
      s.ended = true ∧ s.received .high = [7] ∧
      ∀ later t, Trace.exec step s later = some t → t.accepted .high = [7] := by
  obtain ⟨s₀, s, hbuild, hrun, hended, hreceived⟩ : ∃ s₀ s : PushQueues Bool ℕ,
      buildWithConfig 1 1 none true = .ok s₀ ∧ Trace.exec step s₀ closingRun = some s ∧
        s.ended = true ∧ s.received .high = [7] := ⟨_, _, rfl, rfl, rfl, rfl⟩
  refine ⟨s₀, s, hbuild, hrun, hended, hreceived, ?_⟩
  intro later t hlater
  have hend := (accepted_eq_received hbuild hrun).2.2.2 hended later t hlater .high
  exact hend.1.trans hreceived

/-! ## High priority first -/

/-- What was accepted and received stays so. -/
theorem Move.grows (hmove : s.Move skips t) (priority : PushPriority) :
    s.accepted priority <+: t.accepted priority ∧ s.received priority <+: t.received priority := by
  have hrefl (l : List F) : l <+: l := List.prefix_rfl
  have hconcat (log : PushPriority → List F) (other : PushPriority) (frame : F) :
      log priority <+: Function.update log other (log other ++ [frame]) priority := by
    by_cases hother : priority = other
    · subst hother
      rw [Function.update_self]
      exact List.prefix_append _ _
    · rw [Function.update_of_ne hother]
  cases hmove with
  | committed _ => exact ⟨hconcat s.accepted _ _, hrefl _⟩
  | delivered _ _ => exact ⟨hrefl _, hconcat s.received _ _⟩
  | _ => exact ⟨hrefl _, hrefl _⟩

/-- A frame of low priority is received only in the second branch of the loop. -/
theorem Move.takes_low (hmove : s.Move skips t) (h : t.received .low ≠ s.received .low) :
    s.Takes .low := by
  cases hmove with
  | @delivered priority frame rest htakes _ =>
    cases priority with
    | low => exact htakes
    | high => exact absurd (by simp [deliver]) h
  | _ => exact absurd rfl h

/-- The frames `accepted` are not behind the receiver's back: in the second branch of the loop,
all of them have been received. -/
def Ahead (accepted : List F) (s : PushQueues Producer F) : Prop :=
  accepted <+: s.accepted .high ∧
    ∀ highClosed lowClosed, s.receiver = .low highClosed lowClosed → accepted <+: s.received .high

/-- Every move that does not pass over a frame keeps the receiver from getting ahead. -/
theorem Ahead.move {accepted : List F} (h : Ahead accepted s) (htold : s.Told)
    (hmove : s.Move false t) : Ahead accepted t := by
  obtain ⟨haccepted, hlow⟩ := h
  have hgrows := hmove.grows .high
  refine ⟨haccepted.trans hgrows.1, ?_⟩
  intro highClosed lowClosed hreceiver
  -- either the receiver was in that branch before, or it has just found the other queue empty
  by_cases hbefore : s.receiver = .low highClosed lowClosed
  · exact (hlow _ _ hbefore).trans hgrows.2
  · have hempty : (s.queues .high).queue = [] := by
      cases hmove with
      | turned hturn =>
        cases hturn with
        | highPassed hhigh hempty =>
          rcases hempty with rfl | hempty
          · exact (htold.high (by rw [hhigh]; rfl)).1
          · exact hempty
        | _ => exact absurd hreceiver (by simp)
      | delivered _ _ => exact absurd hreceiver (by simp [deliver])
      | shut _ hafter => exact absurd hreceiver (by rcases hafter with rfl | rfl <;> simp)
      | _ => exact absurd hreceiver hbefore
    have hall : s.accepted .high = s.received .high := by
      rw [htold.fifo .high, hempty, List.append_nil]
    exact (hall ▸ haccepted).trans hgrows.2

/-- **High priority goes first.**  Take any state between two calls of `recv`, and any run from it
to a step that receives a frame of low priority, in which no poll of the queue of high priority fails
spuriously: every frame of high priority that was accepted by then has been received before. -/
theorem high_before_low {u : PushQueues Producer F} {e : QueueEvent Producer F}
    (hbuild : buildWithConfig high low rate owner = .ok s₀)
    (hrun : Trace.exec step s₀ events = some s) (hidle : s.receiver = .idle)
    (hnever : Trace.Never step (fun u e => u.skipsHigh e) s later)
    (hlater : Trace.exec step s later = some t) (hstep : t.step e = some u)
    (hlow : u.received .low ≠ t.received .low) : s.accepted .high <+: t.received .high := by
  have horderly := (orderly_buildWithConfig hbuild).exec hrun
  have hstart : Ahead (s.accepted .high) s := by
    refine ⟨List.prefix_rfl, ?_⟩
    intro highClosed lowClosed hreceiver
    rw [hidle] at hreceiver
    cases hreceiver
  have hahead := horderly.never_invariant (P := Ahead (s.accepted .high))
    (fun t u ht hmove hbefore => hbefore.move ht.told hmove) hstart hnever hlater
  obtain ⟨highClosed, hreceiver⟩ := (step_move hstep).takes_low hlow
  exact hahead.2 _ _ hreceiver

/-- A low frame waits in its queue, a high one comes, and the low one is received after it. -/
theorem high_before_low_overtaken : ∃ s₀ s t u : PushQueues Bool ℕ,
    buildWithConfig 1 1 none true = .ok s₀ ∧
      Trace.exec step s₀ [.tryPush true 1 .low .dropIfFull, .commit true,
        .tryPush true 2 .high .dropIfFull, .commit true] = some s ∧
      Trace.exec step s [.recv, .look false, .recv, .look false] = some t ∧
      t.step (.look false) = some u ∧ u.received .low = [1] ∧ [2] <+: t.received .high := by
  obtain ⟨s₀, s, t, u, hbuild, hrun, hlater, hstep, haccepted, hreceived, hbefore, hidle, hnever⟩ :
      ∃ s₀ s t u : PushQueues Bool ℕ, buildWithConfig 1 1 none true = .ok s₀ ∧
        Trace.exec step s₀ [.tryPush true 1 .low .dropIfFull, .commit true,
          .tryPush true 2 .high .dropIfFull, .commit true] = some s ∧
        Trace.exec step s [.recv, .look false, .recv, .look false] = some t ∧
        t.step (.look false) = some u ∧ s.accepted .high = [2] ∧ u.received .low = [1] ∧
        t.received .low = [] ∧ s.receiver = .idle ∧
        Trace.Never step (fun u e => u.skipsHigh e) s [.recv, .look false, .recv, .look false] :=
    ⟨_, _, _, _, rfl, rfl, rfl, rfl, rfl, rfl, rfl, rfl, by decide⟩
  refine ⟨s₀, s, t, u, hbuild, hrun, hlater, hstep, hreceived, ?_⟩
  rw [← haccepted]
  exact high_before_low hbuild hrun hidle hnever hlater hstep (by rw [hreceived, hbefore]; simp)

end PushQueues

end Wireframe
