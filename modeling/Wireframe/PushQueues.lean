/-
# The push queues

Producers push frames into one of two bounded queues, and a receiver takes them out, those of high
priority first (`src/push/queues/mod.rs`, `src/push/queues/handle.rs`, `src/push/queues/waits.rs`).
A push that must not block may be refused (`DeadLetters` follows it from there); the others wait
until the rate limiter lets them pass and their queue has a slot.  Producers run concurrently with
each other and with the receiver, which outlives them.  The code is cut at every access to something
the others can change, and where a call can be suspended it can also be dropped.  When the limiter
grants a permit is up to the event.

`Move` says once what a step can do (`step_move`).
-/
import Mathlib.Tactic
import Wireframe.BoundedChannel
import Wireframe.DeadLetters

namespace Wireframe

/-! ## Configuration -/

/-- The largest supported number of pushes per second. -/
def maxPushRate : ℕ := 10000

/-- Errors of a configuration. -/
inductive PushConfigError where
  | invalidRate (rate : ℕ)
  | invalidCapacity (high low : ℕ)
  deriving DecidableEq, Repr

/-- A rate that cannot be supported. -/
def invalidRate : Option ℕ → Option ℕ
  | some rate => if rate = 0 ∨ maxPushRate < rate then some rate else none
  | none => none

/-! ## The wait counters -/

/-- What the awaited pushes had to wait for; both counters are 64 bits wide and wrap. -/
structure PushWaitCounters where
  awaitedCapacityWaits : ℕ
  capacityProbes : ℕ
  deriving DecidableEq, Repr

namespace PushWaitCounters

/-- Record that an awaited push probed its channel for capacity. -/
def recordCapacityProbe (w : PushWaitCounters) : PushWaitCounters :=
  { w with capacityProbes := (w.capacityProbes + 1) % 2 ^ 64 }

/-- Record that an awaited push found the channel full and had to park. -/
def recordCapacityWait (w : PushWaitCounters) : PushWaitCounters :=
  { w with awaitedCapacityWaits := (w.awaitedCapacityWaits + 1) % 2 ^ 64 }

/-- The counters since an earlier reading, zero where that one is larger. -/
def since (w before : PushWaitCounters) : PushWaitCounters :=
  ⟨w.awaitedCapacityWaits - before.awaitedCapacityWaits, w.capacityProbes - before.capacityProbes⟩

end PushWaitCounters

/-! ## The system -/

/-- Where a call of a producer stands. -/
inductive PushPoint (F : Type) where
  | outside
  /-- waiting for the rate limiter -/
  | limiting (frame : F) (priority : PushPriority)
  /-- about to count the probe -/
  | probing (frame : F) (priority : PushPriority)
  /-- about to ask for a slot -/
  | reserving (frame : F) (priority : PushPriority)
  /-- the queue was full; about to poll the send for the first time -/
  | awaiting (frame : F) (priority : PushPriority)
  /-- that poll was suspended, which is not recorded yet -/
  | polled (frame : F) (priority : PushPriority)
  | parked (frame : F) (priority : PushPriority)
  /-- with a slot, about to put the frame into it -/
  | sending (frame : F) (priority : PushPriority)
  deriving DecidableEq, Repr

/-- Where the receiver stands: outside of a call, before one of the two branches of the loop of
`recv`, suspended, or between the two halves of `close`.  The flags say which queue has ended. -/
inductive RecvPoint where
  | idle
  | high (highClosed lowClosed : Bool)
  | low (highClosed lowClosed : Bool)
  | suspended (highClosed lowClosed : Bool)
  | closing
  deriving DecidableEq, Repr

/-- The queues, who has a handle, and where everyone stands.  Kept besides: the frames that were
accepted and received, what the calls returned, how many pushes came to the probe and how many were
suspended after it, and whether a call of `recv` has returned the end. -/
structure PushQueues (Producer F : Type) where
  queues : PushPriority → BoundedChannel Producer F
  limited : Bool
  handles : List Producer
  producers : Producer → PushPoint F
  receiver : RecvPoint
  waits : PushWaitCounters
  accepted : PushPriority → List F
  received : PushPriority → List F
  returned : List (Producer × Except PushError Unit)
  attempts : ℕ
  suspensions : ℕ
  ended : Bool

/-- What can happen next. -/
inductive QueueEvent (Producer F : Type) where
  /-- a handle is cloned, or dropped -/
  | clone (p q : Producer)
  | dropHandle (p : Producer)
  /-- a call of `push_high_priority` or `push_low_priority` -/
  | push (p : Producer) (frame : F) (priority : PushPriority)
  /-- the rate limiter is asked for a permit -/
  | acquire (p : Producer) (granted : Bool)
  | probe (p : Producer)
  | reserve (p : Producer)
  | poll (p : Producer)
  | record (p : Producer)
  | commit (p : Producer)
  /-- a suspended push is dropped -/
  | cancel (p : Producer)
  /-- a call of `try_push` asks for a slot -/
  | tryPush (p : Producer) (frame : F) (priority : PushPriority) (policy : PushPolicy)
  /-- a call of `recv`, and one look at one of its branches, which may fail spuriously -/
  | recv
  | look (spurious : Bool)
  | wake
  /-- a suspended `recv` is dropped -/
  | abandon
  | close
  | closeLow
  deriving DecidableEq, Repr

namespace PushQueues

variable {Producer F : Type} [DecidableEq Producer]

/-- Queues of these capacities, and a handle for one producer. -/
def buildWithConfig (highCapacity lowCapacity : ℕ) (rate : Option ℕ) (owner : Producer) :
    Except PushConfigError (PushQueues Producer F) :=
  match invalidRate rate with
  | some rate => .error (.invalidRate rate)
  | none =>
    if highCapacity = 0 ∨ lowCapacity = 0 then .error (.invalidCapacity highCapacity lowCapacity)
    else .ok {
      queues := fun
        | .high => .new highCapacity
        | .low => .new lowCapacity
      limited := rate.isSome
      handles := [owner]
      producers := fun _ => .outside
      receiver := .idle
      waits := ⟨0, 0⟩
      accepted := fun _ => []
      received := fun _ => []
      returned := []
      attempts := 0
      suspensions := 0
      ended := false }

/-! ### The operations -/

variable (s : PushQueues Producer F)

/-- A producer moves on. -/
def goto (p : Producer) (point : PushPoint F) : PushQueues Producer F :=
  { s with producers := Function.update s.producers p point }

/-- A queue changes. -/
def setQueue (priority : PushPriority) (c : BoundedChannel Producer F) : PushQueues Producer F :=
  { s with queues := Function.update s.queues priority c }

/-- A call returns. -/
def finish (p : Producer) (result : Except PushError Unit) : PushQueues Producer F :=
  { s.goto p .outside with returned := s.returned ++ [(p, result)] }

/-- All handles are gone. -/
def gone : Bool := s.handles.isEmpty

/-- The middle of `push_with_priority`: ask for a slot without waiting. -/
def reserveStep (p : Producer) (frame : F) (priority : PushPriority) : PushQueues Producer F :=
  match (s.queues priority).tryReserve p with
  | (.reserved, c) => (s.setQueue priority c).goto p (.sending frame priority)
  | (.full, _) => s.goto p (.awaiting frame priority)
  | (.closed, _) => s.finish p (.error .closed)

/-- The first poll of a send that waits for capacity. -/
def pollStep (p : Producer) (frame : F) (priority : PushPriority) : PushQueues Producer F :=
  match (s.queues priority).reserve p with
  | (.reserved, c) => (s.setQueue priority c).goto p (.sending frame priority)
  | (.full, c) =>
    { (s.setQueue priority c).goto p (.polled frame priority) with
      suspensions := s.suspensions + 1 }
  | (.closed, _) => s.finish p (.error .closed)

/-- A later poll. -/
def repollStep (p : Producer) (frame : F) (priority : PushPriority) : PushQueues Producer F :=
  match (s.queues priority).poll p with
  | (.reserved, _) => s.goto p (.sending frame priority)
  | (.full, _) => s
  | (.closed, c) => (s.setQueue priority c).finish p (.error .closed)

/-- `try_push` up to the dead letters: a frame that is dropped counts as pushed. -/
def tryPushStep (p : Producer) (frame : F) (priority : PushPriority) (policy : PushPolicy) :
    PushQueues Producer F :=
  match (s.queues priority).tryReserve p with
  | (.reserved, c) => (s.setQueue priority c).goto p (.sending frame priority)
  | (.full, _) =>
    match policy with
    | .returnErrorIfFull => s.finish p (.error .queueFull)
    | .dropIfFull | .warnAndDropIfFull => s.finish p (.ok ())
  | (.closed, _) => s.finish p (.error .closed)

/-- A frame is received, which ends the call. -/
def deliver (priority : PushPriority) (c : BoundedChannel Producer F) (frame : F) :
    PushQueues Producer F :=
  { s.setQueue priority c with
    received := Function.update s.received priority (s.received priority ++ [frame])
    receiver := .idle }

/-- One branch of the loop of `recv`. -/
def lookStep (spurious : Bool) : RecvPoint → Option (PushQueues Producer F)
  | .high true lowClosed => some { s with receiver := .low true lowClosed }
  | .high false lowClosed =>
    match (s.queues .high).recv s.gone spurious with
    | (.item frame, c) => some (s.deliver .high c frame)
    | (.ended, _) => some { s with receiver := .high true lowClosed }
    | (.pending, _) => some { s with receiver := .low false lowClosed }
  | .low highClosed true =>
    -- with both branches disabled the call returns `None`
    if highClosed then some { s with receiver := .idle, ended := true }
    else some { s with receiver := .suspended false true }
  | .low highClosed false =>
    match (s.queues .low).recv s.gone spurious with
    | (.item frame, c) => some (s.deliver .low c frame)
    | (.ended, _) => some { s with receiver := .high highClosed true }
    | (.pending, _) => some { s with receiver := .suspended highClosed false }
  | _ => none

/-- One step of a producer or of the receiver. -/
def step : QueueEvent Producer F → Option (PushQueues Producer F)
  | .clone p q =>
    if p ∈ s.handles ∧ q ∉ s.handles then some { s with handles := s.handles ++ [q] } else none
  | .dropHandle p =>
    match s.producers p with
    | .outside => if p ∈ s.handles then some { s with handles := s.handles.erase p } else none
    | _ => none
  | .push p frame priority =>
    match s.producers p with
    | .outside =>
      if p ∈ s.handles then
        some (s.goto p (if s.limited then .limiting frame priority else .probing frame priority))
      else none
    | _ => none
  | .acquire p granted =>
    match s.producers p with
    | .limiting frame priority =>
      -- without a permit the call sleeps and asks again
      some (if granted then s.goto p (.probing frame priority) else s)
    | _ => none
  | .probe p =>
    match s.producers p with
    | .probing frame priority =>
      some { s.goto p (.reserving frame priority) with
        waits := s.waits.recordCapacityProbe
        attempts := s.attempts + 1 }
    | _ => none
  | .reserve p =>
    match s.producers p with
    | .reserving frame priority => some (s.reserveStep p frame priority)
    | _ => none
  | .poll p =>
    match s.producers p with
    | .awaiting frame priority => some (s.pollStep p frame priority)
    | .parked frame priority => some (s.repollStep p frame priority)
    | _ => none
  | .record p =>
    match s.producers p with
    | .polled frame priority =>
      some { s.goto p (.parked frame priority) with waits := s.waits.recordCapacityWait }
    | _ => none
  | .commit p =>
    match s.producers p with
    | .sending frame priority =>
      some { (s.setQueue priority ((s.queues priority).commit p frame)).finish p (.ok ()) with
        accepted := Function.update s.accepted priority (s.accepted priority ++ [frame]) }
    | _ => none
  | .cancel p =>
    match s.producers p with
    | .limiting _ _ => some (s.goto p .outside)
    | .parked _ priority =>
      some ((s.setQueue priority ((s.queues priority).giveUp p)).goto p .outside)
    | _ => none
  | .tryPush p frame priority policy =>
    match s.producers p with
    | .outside => if p ∈ s.handles then some (s.tryPushStep p frame priority policy) else none
    | _ => none
  | .recv =>
    match s.receiver with
    | .idle => some { s with receiver := .high false false }
    | _ => none
  | .look spurious => s.lookStep spurious s.receiver
  | .wake =>
    match s.receiver with
    | .suspended highClosed lowClosed => some { s with receiver := .high highClosed lowClosed }
    | _ => none
  | .abandon =>
    match s.receiver with
    | .suspended _ _ => some { s with receiver := .idle }
    | _ => none
  | .close =>
    match s.receiver with
    | .idle => some { s.setQueue .high (s.queues .high).close with receiver := .closing }
    | _ => none
  | .closeLow =>
    match s.receiver with
    | .closing => some { s.setQueue .low (s.queues .low).close with receiver := .idle }
    | _ => none

/-! ## What a step can do -/

end PushQueues

section Points

variable {F : Type}

/-- The queue in which a producer has a slot or waits for one. -/
def PushPoint.claim : PushPoint F → Option PushPriority
  | .polled _ priority | .parked _ priority | .sending _ priority => some priority
  | _ => none

/-- One for a push that has come to the probe and was neither served nor suspended. -/
def PushPoint.asking : PushPoint F → ℕ
  | .reserving _ _ | .awaiting _ _ => 1
  | _ => 0

/-- One for a push whose suspension is not recorded yet. -/
def PushPoint.unrecorded : PushPoint F → ℕ
  | .polled _ _ => 1
  | _ => 0

end Points

namespace PushQueues

/-! ### Moves -/

variable {Producer F : Type} [DecidableEq Producer]

/-- Nothing is left in a queue, and nobody can put anything into it any more. -/
def Finished (s : PushQueues Producer F) (priority : PushPriority) : Prop :=
  (s.queues priority).queue = [] ∧
    (s.handles = [] ∨
      (s.queues priority).closed = true ∧ (s.queues priority).free = (s.queues priority).capacity)

/-- What the receiver can do besides taking a frame: where it goes, and whether the end has been
returned. -/
inductive Turn (s : PushQueues Producer F) : RecvPoint → Bool → Prop
  | started (h : s.receiver = .idle) : Turn s (.high false false) s.ended
  | highEnded {lowClosed : Bool} (h : s.receiver = .high false lowClosed)
      (hend : s.Finished .high) : Turn s (.high true lowClosed) s.ended
  | highPassed {highClosed lowClosed : Bool} (h : s.receiver = .high highClosed lowClosed)
      (hempty : highClosed = true ∨ (s.queues .high).queue = []) :
      Turn s (.low highClosed lowClosed) s.ended
  | lowEnded {highClosed : Bool} (h : s.receiver = .low highClosed false)
      (hend : s.Finished .low) : Turn s (.high highClosed true) s.ended
  | finished (h : s.receiver = .low true true) : Turn s .idle true
  | slept {highClosed lowClosed : Bool} (h : s.receiver = .low highClosed lowClosed) :
      Turn s (.suspended highClosed lowClosed) s.ended
  | woken {highClosed lowClosed : Bool} (h : s.receiver = .suspended highClosed lowClosed) :
      Turn s (.high highClosed lowClosed) s.ended
  | abandoned {highClosed lowClosed : Bool}
      (h : s.receiver = .suspended highClosed lowClosed) : Turn s .idle s.ended

/-- The receiver takes a frame: the branch it is in. -/
def Takes (s : PushQueues Producer F) : PushPriority → Prop
  | .high => ∃ lowClosed, s.receiver = .high false lowClosed
  | .low => ∃ highClosed, s.receiver = .low highClosed false

/-- The poll of the queue of high priority fails spuriously: it is passed over although it holds a
frame. -/
def skipsHigh (s : PushQueues Producer F) : QueueEvent Producer F → Bool
  | .look true =>
    match s.receiver with
    | .high false _ => !(s.queues .high).queue.isEmpty
    | _ => false
  | _ => false

/-- What a step can do, and whether it passes over a frame of high priority. -/
inductive Move (s : PushQueues Producer F) : Bool → PushQueues Producer F → Prop
  | stayed : Move s false s
  | cloned {p q : Producer} (hp : p ∈ s.handles) (hq : q ∉ s.handles) :
      Move s false { s with handles := s.handles ++ [q] }
  | dropped {p : Producer} (hp : s.producers p = .outside) (hmem : p ∈ s.handles) :
      Move s false { s with handles := s.handles.erase p }
  | walked {p : Producer} {point : PushPoint F} {returned : List (Producer × Except PushError Unit)}
      (hin : s.producers p ≠ .outside ∨ p ∈ s.handles) (hold : (s.producers p).claim = none)
      (hnew : point.claim = none) (hasking : point.asking ≤ (s.producers p).asking) :
      Move s false { s.goto p point with returned := returned }
  | probed {p : Producer} {frame : F} {priority : PushPriority}
      (hp : s.producers p = .probing frame priority) :
      Move s false { s.goto p (.reserving frame priority) with
        waits := s.waits.recordCapacityProbe
        attempts := s.attempts + 1 }
  | reserved {p : Producer} {frame : F} {priority : PushPriority}
      (hin : s.producers p ≠ .outside ∨ p ∈ s.handles) (hold : (s.producers p).claim = none)
      (hopen : (s.queues priority).closed = false) (hfree : 0 < (s.queues priority).free) :
      Move s false ((s.setQueue priority
        { s.queues priority with
          free := (s.queues priority).free - 1
          holders := (s.queues priority).holders ++ [p] }).goto p (.sending frame priority))
  | suspended {p : Producer} {frame : F} {priority : PushPriority}
      (hp : s.producers p = .awaiting frame priority)
      (hopen : (s.queues priority).closed = false) (hfree : (s.queues priority).free = 0) :
      Move s false { (s.setQueue priority
        { s.queues priority with waiting := (s.queues priority).waiting ++ [p] }).goto p
          (.polled frame priority) with suspensions := s.suspensions + 1 }
  | recorded {p : Producer} {frame : F} {priority : PushPriority}
      (hp : s.producers p = .polled frame priority) :
      Move s false { s.goto p (.parked frame priority) with waits := s.waits.recordCapacityWait }
  | granted {p : Producer} {frame : F} {priority : PushPriority}
      (hp : s.producers p = .parked frame priority) (hslot : p ∈ (s.queues priority).holders) :
      Move s false (s.goto p (.sending frame priority))
  | gaveUp {p : Producer} {frame : F} {priority : PushPriority}
      {returned : List (Producer × Except PushError Unit)}
      (hp : s.producers p = .parked frame priority) :
      Move s false { (s.setQueue priority ((s.queues priority).giveUp p)).goto p .outside with
        returned := returned }
  | committed {p : Producer} {frame : F} {priority : PushPriority}
      (hp : s.producers p = .sending frame priority) :
      Move s false { (s.setQueue priority ((s.queues priority).commit p frame)).finish p (.ok ()) with
        accepted := Function.update s.accepted priority (s.accepted priority ++ [frame]) }
  | delivered {priority : PushPriority} {frame : F} {rest : List F} (htakes : s.Takes priority)
      (hqueue : (s.queues priority).queue = frame :: rest) :
      Move s false (s.deliver priority { s.queues priority with queue := rest }.handOver frame)
  | turned {receiver : RecvPoint} {ended : Bool} (hturn : s.Turn receiver ended) :
      Move s false { s with receiver := receiver, ended := ended }
  | skipped {lowClosed : Bool} (h : s.receiver = .high false lowClosed) :
      Move s true { s with receiver := .low false lowClosed }
  | shut {priority : PushPriority} {receiver : RecvPoint}
      (hbefore : s.receiver = .idle ∨ s.receiver = .closing)
      (hafter : receiver = .idle ∨ receiver = .closing) :
      Move s false { s.setQueue priority (s.queues priority).close with receiver := receiver }

/-! ### Inversion -/

variable {s t : PushQueues Producer F} {p : Producer} {frame : F} {priority : PushPriority}

/-- The slot is there, or the push has to wait, or the queue is closed. -/
theorem reserveStep_move (hp : s.producers p = .reserving frame priority) :
    s.Move false (s.reserveStep p frame priority) := by
  have hin : s.producers p ≠ .outside ∨ p ∈ s.handles := Or.inl (by simp [hp])
  have hold : (s.producers p).claim = none := by rw [hp]; rfl
  unfold reserveStep
  obtain ⟨-, h⟩ | ⟨-, -, h⟩ | ⟨hopen, hfree, h⟩ := (s.queues priority).tryReserve_cases p
  · rw [h]
    exact Move.walked hin hold rfl (Nat.zero_le _)
  · rw [h]
    exact Move.walked hin hold rfl (by rw [hp]; exact le_rfl)
  · rw [h]
    exact Move.reserved hin hold hopen hfree

/-- The first poll gets a slot or joins the line, unless the queue is closed. -/
theorem pollStep_move (hp : s.producers p = .awaiting frame priority) :
    s.Move false (s.pollStep p frame priority) := by
  have hin : s.producers p ≠ .outside ∨ p ∈ s.handles := Or.inl (by simp [hp])
  have hold : (s.producers p).claim = none := by rw [hp]; rfl
  unfold pollStep
  obtain ⟨-, h⟩ | ⟨hopen, hfree, h⟩ | ⟨hopen, hfree, h⟩ := (s.queues priority).reserve_cases p
  · rw [h]
    exact Move.walked hin hold rfl (Nat.zero_le _)
  · rw [h]
    exact Move.suspended hp hopen hfree
  · rw [h]
    exact Move.reserved hin hold hopen hfree

/-- A later poll finds the slot that was handed over, or waits on. -/
theorem repollStep_move (hp : s.producers p = .parked frame priority) :
    s.Move false (s.repollStep p frame priority) := by
  unfold repollStep BoundedChannel.poll
  by_cases hclosed : (s.queues priority).closed = true
  · rw [if_pos hclosed]
    exact Move.gaveUp hp
  · rw [if_neg hclosed]
    by_cases hslot : p ∈ (s.queues priority).holders
    · rw [if_pos hslot]
      exact Move.granted hp hslot
    · rw [if_neg hslot]
      exact Move.stayed

/-- A push that must not block gets a slot or returns. -/
theorem tryPushStep_move {policy : PushPolicy} (hp : s.producers p = .outside)
    (hmem : p ∈ s.handles) : s.Move false (s.tryPushStep p frame priority policy) := by
  have hold : (s.producers p).claim = none := by rw [hp]; rfl
  unfold tryPushStep
  obtain ⟨-, h⟩ | ⟨-, -, h⟩ | ⟨hopen, hfree, h⟩ := (s.queues priority).tryReserve_cases p
  · rw [h]
    exact Move.walked (Or.inr hmem) hold rfl (Nat.zero_le _)
  · rw [h]
    cases policy with
    | returnErrorIfFull | dropIfFull | warnAndDropIfFull =>
      exact Move.walked (Or.inr hmem) hold rfl (Nat.zero_le _)
  · rw [h]
    exact Move.reserved (Or.inr hmem) hold hopen hfree

/-- One look at the queue of high priority. -/
theorem lookStep_high_move {lowClosed spurious : Bool} (hreceiver : s.receiver = .high false lowClosed)
    (h : s.lookStep spurious s.receiver = some t) : s.Move (s.skipsHigh (.look spurious)) t := by
  rw [hreceiver] at h
  obtain ⟨frame, rest, hqueue, hrecv⟩ | ⟨hqueue, rfl, hrecv⟩ | ⟨hempty, hrecv⟩ |
    ⟨hempty, hend, hrecv⟩ := (s.queues .high).recv_cases s.gone spurious
  · have hskips : s.skipsHigh (.look spurious) = false := by
      cases spurious with
      | true => simp [BoundedChannel.recv, hqueue] at hrecv
      | false => rfl
    simp only [lookStep, hrecv, Option.some.injEq] at h
    obtain rfl := h
    rw [hskips]
    exact Move.delivered ⟨lowClosed, hreceiver⟩ hqueue
  · have hskips : s.skipsHigh (.look true) = true := by simp [skipsHigh, hreceiver, hqueue]
    simp only [lookStep, hrecv, Option.some.injEq] at h
    obtain rfl := h
    rw [hskips]
    exact Move.skipped hreceiver
  · have hskips : s.skipsHigh (.look spurious) = false := by
      cases spurious <;> simp [skipsHigh, hreceiver, hempty]
    simp only [lookStep, hrecv, Option.some.injEq] at h
    obtain rfl := h
    rw [hskips]
    exact Move.turned (.highPassed hreceiver (Or.inr hempty))
  · have hskips : s.skipsHigh (.look spurious) = false := by
      cases spurious <;> simp [skipsHigh, hreceiver, hempty]
    simp only [lookStep, hrecv, Option.some.injEq] at h
    obtain rfl := h
    rw [hskips]
    exact Move.turned (.highEnded hreceiver ⟨hempty, hend.imp_left List.isEmpty_iff.mp⟩)

/-- One look of the receiver, in the branch it is in. -/
theorem lookStep_move {spurious : Bool} (h : s.lookStep spurious s.receiver = some t) :
    s.Move (s.skipsHigh (.look spurious)) t := by
  rcases hreceiver : s.receiver with _ | ⟨highClosed, lowClosed⟩ | ⟨highClosed, lowClosed⟩ | _ | _
  · exact absurd h (by simp [hreceiver, lookStep])
  · cases highClosed with
    | true =>
      have hskips : s.skipsHigh (.look spurious) = false := by
        cases spurious <;> simp [skipsHigh, hreceiver]
      rw [hreceiver] at h
      cases h
      rw [hskips]
      exact Move.turned (.highPassed hreceiver (Or.inl rfl))
    | false => exact lookStep_high_move hreceiver h
  · have hskips : s.skipsHigh (.look spurious) = false := by
      cases spurious <;> simp [skipsHigh, hreceiver]
    rw [hreceiver] at h
    rw [hskips]
    cases lowClosed with
    | true =>
      cases highClosed with
      | true =>
        cases h
        exact Move.turned (.finished hreceiver)
      | false =>
        cases h
        exact Move.turned (.slept hreceiver)
    | false =>
      obtain ⟨frame, rest, hqueue, hrecv⟩ | ⟨-, -, hrecv⟩ | ⟨-, hrecv⟩ | ⟨hempty, hend, hrecv⟩ :=
        (s.queues .low).recv_cases s.gone spurious
      · simp only [lookStep, hrecv, Option.some.injEq] at h
        obtain rfl := h
        exact Move.delivered ⟨highClosed, hreceiver⟩ hqueue
      · simp only [lookStep, hrecv, Option.some.injEq] at h
        obtain rfl := h
        exact Move.turned (.slept hreceiver)
      · simp only [lookStep, hrecv, Option.some.injEq] at h
        obtain rfl := h
        exact Move.turned (.slept hreceiver)
      · simp only [lookStep, hrecv, Option.some.injEq] at h
        obtain rfl := h
        exact Move.turned (.lowEnded hreceiver ⟨hempty, hend.imp_left List.isEmpty_iff.mp⟩)
  · exact absurd h (by simp [hreceiver, lookStep])
  · exact absurd h (by simp [hreceiver, lookStep])

/-- **What a step can do.** -/
theorem step_move {e : QueueEvent Producer F} (h : s.step e = some t) :
    s.Move (s.skipsHigh e) t := by
  cases e with simp only [step] at h
  | clone p q =>
    split at h
    · next hguard =>
        cases h
        exact Move.cloned hguard.1 hguard.2
    · cases h
  | dropHandle p =>
    split at h
    · next hp =>
        split at h
        · next hmem =>
            cases h
            exact Move.dropped hp hmem
        · cases h
    · cases h
  | push p frame priority =>
    split at h
    · next hp =>
        split at h
        · next hmem =>
            cases h
            refine Move.walked (Or.inr hmem) (by rw [hp]; rfl) ?_ ?_
            · split <;> rfl
            · split <;> exact Nat.zero_le _
        · cases h
    · cases h
  | acquire p granted =>
    split at h
    · next frame priority hp =>
        cases h
        cases granted with
        | true => exact Move.walked (Or.inl (by simp [hp])) (by rw [hp]; rfl) rfl (Nat.zero_le _)
        | false => exact Move.stayed
    · cases h
  | probe p =>
    split at h
    · next hp =>
        cases h
        exact Move.probed hp
    · cases h
  | reserve p =>
    split at h
    · next hp =>
        cases h
        exact reserveStep_move hp
    · cases h
  | poll p =>
    split at h
    · next hp =>
        cases h
        exact pollStep_move hp
    · next hp =>
        cases h
        exact repollStep_move hp
    · cases h
  | record p =>
    split at h
    · next hp =>
        cases h
        exact Move.recorded hp
    · cases h
  | commit p =>
    split at h
    · next hp =>
        cases h
        exact Move.committed hp
    · cases h
  | cancel p =>
    split at h
    · next hp =>
        cases h
        exact Move.walked (Or.inl (by simp [hp])) (by rw [hp]; rfl) rfl (Nat.zero_le _)
    · next hp =>
        cases h
        exact Move.gaveUp hp
    · cases h
  | tryPush p frame priority policy =>
    split at h
    · next hp =>
        split at h
        · next hmem =>
            cases h
            exact tryPushStep_move hp hmem
        · cases h
    · cases h
  | recv =>
    split at h
    · next hreceiver =>
        cases h
        exact Move.turned (.started hreceiver)
    · cases h
  | look spurious => exact lookStep_move h
  | wake =>
    split at h
    · next hreceiver =>
        cases h
        exact Move.turned (.woken hreceiver)
    · cases h
  | abandon =>
    split at h
    · next hreceiver =>
        cases h
        exact Move.turned (.abandoned hreceiver)
    · cases h
  | close =>
    split at h
    · next hreceiver =>
        cases h
        exact Move.shut (Or.inl hreceiver) (Or.inr rfl)
    · cases h
  | closeLow =>
    split at h
    · next hreceiver =>
        cases h
        exact Move.shut (Or.inr hreceiver) (Or.inl rfl)
    · cases h

end PushQueues

end Wireframe
