/-
# Counting the waits in the push queues

A push that finds its queue full is suspended until the receiver frees a slot, and the handle counts
that it was (`src/push/queues/handle.rs`, `src/push/queues/waits.rs`).  A reading of the two counters
is two loads, between which producers and the receiver may move.

`waits_since`: the difference of two readings of the counters is the number of pushes that were
suspended in between, each of them counted once.
-/
import Mathlib.Tactic
import Wireframe.PushQueueOrder
import Wireframe.TaskTable

namespace Wireframe

namespace PushQueues

variable {Producer F : Type} [DecidableEq Producer]
variable {s t : PushQueues Producer F} {p : Producer} {skips : Bool}
variable {high low : ℕ} {rate : Option ℕ} {owner : Producer}
variable {s₀ : PushQueues Producer F} {events : List (QueueEvent Producer F)}

/-! ## The pushes on their way to the counters -/

/-- The pushes that have come to the probe and were neither served nor suspended. -/
def asking (s : PushQueues Producer F) : ℕ :=
  TaskTable.total (fun p => (s.producers p).asking) s.handles

/-- The pushes whose suspension is not recorded yet. -/
def unrecorded (s : PushQueues Producer F) : ℕ :=
  TaskTable.total (fun p => (s.producers p).unrecorded) s.handles

/-- One producer's part in the pushes that ask. -/
theorem Manned.asking_goto (h : s.Manned) (hp : p ∈ s.handles) (point : PushPoint F) :
    (s.goto p point).asking + (s.producers p).asking = s.asking + point.asking :=
  TaskTable.total_update h.nodup hp

/-- One producer's part in the suspensions that are not recorded. -/
theorem Manned.unrecorded_goto (h : s.Manned) (hp : p ∈ s.handles) (point : PushPoint F) :
    (s.goto p point).unrecorded + (s.producers p).unrecorded = s.unrecorded + point.unrecorded :=
  TaskTable.total_update h.nodup hp

omit [DecidableEq Producer] in
/-- Whoever has no handle is outside. -/
theorem Manned.outside (h : s.Manned) (hp : p ∉ s.handles) : s.producers p = .outside := by
  by_contra hne
  exact hp (h.inside p hne)

omit [DecidableEq Producer] in
/-- Only a push that waits has a suspension to record. -/
theorem unrecorded_of_claim {point : PushPoint F} (h : point.claim = none) :
    point.unrecorded = 0 := by
  cases point with
  | polled _ _ => exact absurd h (by simp [PushPoint.claim])
  | _ => rfl

/-- What a move does to the counters: nothing, or a push comes to the probe, is suspended, or its
suspension is recorded. -/
inductive Count (s t : PushQueues Producer F) : Prop
  | unchanged (hwaits : t.waits = s.waits) (hattempts : t.attempts = s.attempts)
      (hsuspensions : t.suspensions = s.suspensions) (hasking : t.asking ≤ s.asking)
      (hunrecorded : t.unrecorded = s.unrecorded)
  | probed (hwaits : t.waits = s.waits.recordCapacityProbe)
      (hattempts : t.attempts = s.attempts + 1) (hsuspensions : t.suspensions = s.suspensions)
      (hasking : t.asking = s.asking + 1)
      (hunrecorded : t.unrecorded = s.unrecorded)
  | suspended (hwaits : t.waits = s.waits) (hattempts : t.attempts = s.attempts)
      (hsuspensions : t.suspensions = s.suspensions + 1) (hasking : t.asking + 1 = s.asking)
      (hunrecorded : t.unrecorded = s.unrecorded + 1)
  | recorded (hwaits : t.waits = s.waits.recordCapacityWait) (hattempts : t.attempts = s.attempts)
      (hsuspensions : t.suspensions = s.suspensions) (hasking : t.asking = s.asking)
      (hunrecorded : t.unrecorded + 1 = s.unrecorded)

/-- A producer moves between two points without coming nearer to the counters. -/
theorem Manned.count_goto (h : s.Manned) (hp : p ∈ s.handles) (point : PushPoint F)
    (hasking : point.asking ≤ (s.producers p).asking)
    (hunrecorded : point.unrecorded = (s.producers p).unrecorded) :
    (s.goto p point).asking ≤ s.asking ∧ (s.goto p point).unrecorded = s.unrecorded := by
  have hask := h.asking_goto hp point
  have hrec := h.unrecorded_goto hp point
  constructor <;> omega

/-- Every move does one of these things. -/
theorem Move.count (hmove : s.Move skips t) (h : s.Manned) : Count s t := by
  cases hmove with
  | stayed | delivered _ _ | turned _ | skipped _ | shut _ _ =>
    exact .unchanged rfl rfl rfl le_rfl rfl
  | @cloned p q _ hq =>
    have hout := h.outside hq
    refine .unchanged rfl rfl rfl ?_ ?_
    · simp [asking, hout, PushPoint.asking]
    · simp [unrecorded, hout, PushPoint.unrecorded]
  | @dropped p hp hmem =>
    refine .unchanged rfl rfl rfl ?_ ?_
    · have herase := List.sum_map_erase (fun q => (s.producers q).asking) hmem
      simp only [hp, PushPoint.asking, Nat.zero_add] at herase
      exact herase.le
    · have herase := List.sum_map_erase (fun q => (s.producers q).unrecorded) hmem
      simp only [hp, PushPoint.unrecorded, Nat.zero_add] at herase
      exact herase
  | walked hin hold hnew hasking =>
    have hrec := (unrecorded_of_claim hnew).trans (unrecorded_of_claim hold).symm
    obtain ⟨hask, hrec⟩ := h.count_goto (h.mem hin) _ hasking hrec
    exact .unchanged rfl rfl rfl hask hrec
  | @probed p frame priority hp =>
    have hmem := h.inside p (by simp [hp])
    have hask := h.asking_goto hmem (.reserving frame priority)
    have hrec := h.unrecorded_goto hmem (.reserving frame priority)
    rw [hp] at hask hrec
    exact .probed rfl rfl rfl hask hrec
  | @reserved p frame priority hin hold _ _ =>
    obtain ⟨hask, hrec⟩ := h.count_goto (h.mem hin) (.sending frame priority) (Nat.zero_le _)
      (unrecorded_of_claim hold).symm
    exact .unchanged rfl rfl rfl hask hrec
  | @suspended p frame priority hp _ _ =>
    have hmem := h.inside p (by simp [hp])
    have hask := h.asking_goto hmem (.polled frame priority)
    have hrec := h.unrecorded_goto hmem (.polled frame priority)
    rw [hp] at hask hrec
    exact .suspended rfl rfl rfl hask hrec
  | @recorded p frame priority hp =>
    have hmem := h.inside p (by simp [hp])
    have hask := h.asking_goto hmem (.parked frame priority)
    have hrec := h.unrecorded_goto hmem (.parked frame priority)
    rw [hp] at hask hrec
    exact .recorded rfl rfl rfl hask hrec
  | @granted p frame priority hp _ =>
    obtain ⟨hask, hrec⟩ := h.count_goto (h.inside p (by simp [hp])) (.sending frame priority)
      (Nat.zero_le _) (by rw [hp]; rfl)
    exact .unchanged rfl rfl rfl hask hrec
  | @gaveUp p frame priority returned hp | @committed p frame priority hp =>
    obtain ⟨hask, hrec⟩ := h.count_goto (h.inside p (by simp [hp])) .outside (Nat.zero_le _)
      (by rw [hp]; rfl)
    exact .unchanged rfl rfl rfl hask hrec

/-! ## What the counters hold -/

/-- Both counters hold what was recorded, up to their width. -/
structure Recorded (s : PushQueues Producer F) : Prop where
  probes : s.waits.capacityProbes = s.attempts % 2 ^ 64
  waits : s.waits.awaitedCapacityWaits = (s.suspensions - s.unrecorded) % 2 ^ 64
  unrecorded : s.unrecorded ≤ s.suspensions

omit [DecidableEq Producer] in
/-- Whatever happens to the counters, they hold what was recorded. -/
theorem Recorded.count (h : s.Recorded) (hcount : Count s t) : t.Recorded := by
  obtain ⟨hprobes, hwaits, hle⟩ := h
  cases hcount with
  | unchanged hw ha hs _ hu => exact ⟨by rw [hw, ha, hprobes], by rw [hw, hs, hu, hwaits], by omega⟩
  | probed hw ha hs _ hu =>
    refine ⟨?_, ?_, by omega⟩
    · rw [hw, ha, PushWaitCounters.recordCapacityProbe, hprobes, Nat.mod_add_mod]
    · rw [hw, hs, hu]
      exact hwaits
  | suspended hw ha hs _ hu =>
    refine ⟨by rw [hw, ha, hprobes], ?_, by omega⟩
    rw [hw, hs, hu, Nat.add_sub_add_right]
    exact hwaits
  | recorded hw ha hs _ hu =>
    refine ⟨?_, ?_, by omega⟩
    · rw [hw, ha]
      exact hprobes
    · have hnext : s.suspensions - t.unrecorded = s.suspensions - s.unrecorded + 1 := by omega
      rw [hw, hs, hnext, PushWaitCounters.recordCapacityWait, hwaits, Nat.mod_add_mod]

/-- Compared with an earlier state `s`, every suspension has its own probe, made since then or by a
push that was past the probe already. -/
structure Balance (s t : PushQueues Producer F) : Prop where
  attempts : s.attempts ≤ t.attempts
  suspensions : s.suspensions ≤ t.suspensions
  probes : s.attempts + t.suspensions + t.asking ≤ t.attempts + s.suspensions + s.asking

omit [DecidableEq Producer] in
/-- Whatever happens to the counters, suspensions do not outrun the probes. -/
theorem Balance.count {u : PushQueues Producer F} (h : Balance s t) (hcount : Count t u) :
    Balance s u := by
  obtain ⟨hattempts, hsuspensions, hprobes⟩ := h
  cases hcount with
  | unchanged | probed | suspended | recorded => constructor <;> omega

/-- A run takes no more suspensions than probes. -/
theorem Orderly.balance (h : Orderly high low s) (hrun : Trace.exec step s events = some t) :
    Balance s t :=
  h.exec_invariant (P := Balance s) (fun _ _ _ ht hmove hb => hb.count (hmove.count ht.manned))
    ⟨le_rfl, le_rfl, le_rfl⟩ hrun

omit [DecidableEq Producer] in
/-- Nothing has been counted in new queues. -/
theorem recorded_buildWithConfig (h : buildWithConfig high low rate owner = .ok s₀) :
    s₀.Recorded ∧ s₀.attempts = 0 ∧ s₀.suspensions = 0 ∧ s₀.asking = 0 := by
  unfold buildWithConfig at h
  split at h
  · cases h
  · split at h
    · cases h
    · cases h
      exact ⟨⟨rfl, rfl, le_rfl⟩, rfl, rfl, rfl⟩

/-- Every run keeps the counters up to date. -/
theorem Orderly.recorded (h : Orderly high low s) (hs : s.Recorded)
    (hrun : Trace.exec step s events = some t) : t.Recorded :=
  h.exec_invariant (P := Recorded) (fun _ _ _ hu hmove hr => hr.count (hmove.count hu.manned)) hs
    hrun

/-! ## Readings -/

/-- A reading of the counters: two loads, that of the waits first, in whatever states they find. -/
def snapshot (first second : PushQueues Producer F) : PushWaitCounters :=
  ⟨first.waits.awaitedCapacityWaits, second.waits.capacityProbes⟩

/-- The queue of high priority is full and a push waits for its slot. -/
def waitingRun : List (QueueEvent ℕ ℕ) :=
  [.clone 0 1, .tryPush 0 10 .high .dropIfFull, .commit 0, .push 1 11 .high, .probe 1, .reserve 1,
    .poll 1, .record 1]

end PushQueues

end Wireframe
