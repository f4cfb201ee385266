/-
# Dropped frames and the dead-letter queue

A push that must not block discards its frame when the queue is full (`PushHandle::try_push` in
`src/push/queues/handle.rs`) and offers it to a dead-letter queue first; a frame that queue refuses
too is lost, and counted (`src/push/queues/dlq.rs`).  Producers share one handle: the counter is
incremented outside the lock that guards the diagnostic, and taken inside it.

A producer's code is cut at every access to something the others can change: a queue, the counter,
the lock.  `ProducerPoint` is where a producer stands between two of them.  What a queue answers and
what a clock reads is up to the event.

The counter is a machine word that `fetch_add` wraps around.  Up to there it is a `TicketCounter`
(`Move.ledger`), and the results are read off its rules; `never_wrapsDrops` says when there is no
wrap, and `endlessLoss_uncounted` what one does.
-/
import Mathlib.Data.Nat.Factorization.Basic
import Mathlib.Tactic
import Wireframe.Fragment
import Wireframe.MachineWord
import Wireframe.TicketCounter
import Wireframe.Trace

namespace Wireframe

/-! ## The handle -/

inductive PushPriority where
  | high
  | low
  deriving DecidableEq, Repr

/-- What a push does when its queue is full. -/
inductive PushPolicy where
  | returnErrorIfFull
  | dropIfFull
  | warnAndDropIfFull
  deriving DecidableEq, Repr

inductive PushError where
  | queueFull
  | closed
  deriving DecidableEq, Repr

/-- What `try_send` on a bounded queue answers. -/
inductive TrySend where
  | sent
  | full
  | closed
  deriving DecidableEq, Repr

/-- Why the dead-letter queue refused a frame. -/
inductive DlqState where
  | full
  | closed
  deriving DecidableEq, Repr

/-- Bounded description of a refused dead-letter send. -/
structure DropReport where
  dropped : ℕ
  priority : PushPriority
  policy : PushPolicy
  dlqState : DlqState
  deriving DecidableEq, Repr

/-- The warnings the handle logs. -/
inductive PushWarning where
  | queueFull (priority : PushPriority) (policy : PushPolicy) (dlq : Bool)
  | droppedFrames (triggerDlqState : DlqState) (triggerPriority : PushPriority)
      (triggerPolicy : PushPolicy) (dropped logEveryN logInterval : ℕ)
  deriving DecidableEq, Repr

/-- The drops a warning reports. -/
def PushWarning.reported : PushWarning → ℕ
  | .queueFull _ _ _ => 0
  | .droppedFrames _ _ _ dropped _ _ => dropped

/-- Shared dead-letter drop state; `holder` has the lock of `lastLog`. -/
structure DeadLetterState (Producer : Type) where
  hasQueue : Bool
  drops : ℕ
  lastLog : Instant
  holder : Option Producer
  logEveryN : ℕ
  logInterval : ℕ

/-- Where a producer stands. -/
inductive ProducerPoint (F : Type) where
  /-- not in `try_push` -/
  | outside
  /-- about to offer the frame to the dead-letter queue -/
  | routing (frame : F) (priority : PushPriority) (policy : PushPolicy)
  /-- the frame is lost and not counted yet -/
  | refused (dlqState : DlqState) (priority : PushPriority) (policy : PushPolicy)
  /-- counted, about to take the lock -/
  | counted (report : DropReport)
  /-- with the lock, about to look whether the diagnostic is due -/
  | checking (report : DropReport)
  /-- with the lock, about to take the count -/
  | taking (report : DropReport)

/-- A handle with its producers.  The frames each queue accepted, what the calls returned and the
warnings are kept in order, and so is who was refused by the dead-letter queue and who has counted
a drop. -/
structure PushSystem (Producer F : Type) where
  deadLetter : DeadLetterState Producer
  producers : Producer → ProducerPoint F
  high : List F
  low : List F
  deadLetters : List F
  returned : List (Producer × Except PushError Unit)
  warnings : List PushWarning
  refusals : List Producer
  increments : List Producer

/-- What can happen next. -/
inductive PushEvent (Producer F : Type) where
  /-- a call of `try_push` offers the frame to its queue -/
  | tryPush (p : Producer) (frame : F) (priority : PushPriority) (policy : PushPolicy)
      (answer : TrySend)
  /-- the frame is offered to the dead-letter queue -/
  | route (p : Producer) (answer : TrySend)
  /-- the counter is incremented -/
  | count (p : Producer)
  /-- the lock is taken -/
  | lock (p : Producer)
  /-- the clock is read and the cadence checked -/
  | check (p : Producer) (now : Instant)
  /-- the count is taken and the lock released -/
  | take (p : Producer) (now : Instant)

/-- A step of a call that is inside, not the start of a new one. -/
def PushEvent.isInside {Producer F : Type} : PushEvent Producer F → Bool
  | .tryPush _ _ _ _ _ => false
  | _ => true

namespace DeadLetterState

variable {Producer : Type}

/-- Wrap the dead-letter sender with zeroed counters and the given cadence. -/
def new (hasQueue : Bool) (logEveryN logInterval : ℕ) (now : Instant) :
    DeadLetterState Producer where
  hasQueue := hasQueue
  drops := 0
  lastLog := now
  holder := none
  logEveryN := logEveryN
  logInterval := logInterval

/-- The cadence that decides when the diagnostic fires. -/
def shouldLog (state : DeadLetterState Producer) (report : DropReport) (now : Instant) : Bool :=
  (state.logEveryN != 0 && report.dropped % state.logEveryN == 0) ||
    decide (state.logInterval < saturatingDurationSince now state.lastLog)

end DeadLetterState

namespace PushSystem

variable {Producer F : Type}

/-- A handle nobody has used. -/
def start (hasQueue : Bool) (logEveryN logInterval : ℕ) (now : Instant) :
    PushSystem Producer F where
  deadLetter := .new hasQueue logEveryN logInterval now
  producers := fun _ => .outside
  high := []
  low := []
  deadLetters := []
  returned := []
  warnings := []
  refusals := []
  increments := []

variable [DecidableEq Producer] (s : PushSystem Producer F)

def goto (p : Producer) (point : ProducerPoint F) : PushSystem Producer F :=
  { s with producers := Function.update s.producers p point }

/-- A call returns. -/
def finish (p : Producer) (result : Except PushError Unit) : PushSystem Producer F :=
  { s with
    producers := Function.update s.producers p .outside
    returned := s.returned ++ [(p, result)] }

/-- The queue of this priority accepts the frame. -/
def enqueue (priority : PushPriority) (frame : F) : PushSystem Producer F :=
  match priority with
  | .high => { s with high := s.high ++ [frame] }
  | .low => { s with low := s.low ++ [frame] }

def warn (warning : PushWarning) : PushSystem Producer F :=
  { s with warnings := s.warnings ++ [warning] }

/-- Hand the frame to the dead-letter queue, if there is one. -/
def routeOrCount (p : Producer) (frame : F) (priority : PushPriority) (policy : PushPolicy) :
    PushSystem Producer F :=
  if s.deadLetter.hasQueue then s.goto p (.routing frame priority policy) else s.finish p (.ok ())

/-- Attempt to push a frame with the given priority and policy, up to the dead-letter queue. -/
def tryPush (p : Producer) (frame : F) (priority : PushPriority) (policy : PushPolicy) :
    TrySend → PushSystem Producer F
  | .sent => (s.enqueue priority frame).finish p (.ok ())
  | .closed => s.finish p (.error .closed)
  | .full =>
    match policy with
    | .returnErrorIfFull => s.finish p (.error .queueFull)
    | .dropIfFull => s.routeOrCount p frame priority policy
    | .warnAndDropIfFull =>
      (s.warn (.queueFull priority policy s.deadLetter.hasQueue)).routeOrCount p frame priority
        policy

/-- The dead-letter queue refuses the frame, which is lost. -/
def refuse (p : Producer) (dlqState : DlqState) (priority : PushPriority) (policy : PushPolicy) :
    PushSystem Producer F :=
  { s with
    producers := Function.update s.producers p (.refused dlqState priority policy)
    refusals := s.refusals ++ [p] }

def setDeadLetter (state : DeadLetterState Producer) : PushSystem Producer F :=
  { s with deadLetter := state }

/-- `fetch_add` on the counter of lost frames, which wraps around. -/
def increment (p : Producer) : PushSystem Producer F :=
  { s.setDeadLetter { s.deadLetter with drops := wrappingAdd s.deadLetter.drops 1 } with
    increments := s.increments ++ [p] }

/-- Take the count and report exactly what was taken. -/
def takeCount (report : DropReport) (now : Instant) : PushSystem Producer F :=
  let reported := s.deadLetter.drops
  let taken := s.setDeadLetter { s.deadLetter with drops := 0, lastLog := now, holder := none }
  -- another producer may have taken the count before
  if reported = 0 then taken
  else taken.warn (.droppedFrames report.dlqState report.priority report.policy reported
    s.deadLetter.logEveryN s.deadLetter.logInterval)

/-- One event, when it can happen in this state. -/
def step : PushEvent Producer F → Option (PushSystem Producer F)
  | .tryPush p frame priority policy answer =>
    match s.producers p with
    | .outside => some (s.tryPush p frame priority policy answer)
    | _ => none
  | .route p answer =>
    match s.producers p with
    | .routing frame priority policy =>
      match answer with
      | .sent => some ({ s with deadLetters := s.deadLetters ++ [frame] }.finish p (.ok ()))
      | .full => some (s.refuse p .full priority policy)
      | .closed => some (s.refuse p .closed priority policy)
    | _ => none
  | .count p =>
    match s.producers p with
    | .refused dlqState priority policy =>
      -- the addition to what `fetch_add` returned is checked, the increment itself is not
      match checkedAdd s.deadLetter.drops 1 with
      | none => some ((s.increment p).goto p .outside)
      | some dropped =>
        some ((s.increment p).goto p (.counted ⟨dropped, priority, policy, dlqState⟩))
    | _ => none
  | .lock p =>
    match s.producers p with
    | .counted report =>
      if s.deadLetter.holder.isNone then
        some ((s.setDeadLetter { s.deadLetter with holder := some p }).goto p (.checking report))
      else none
    | _ => none
  | .check p now =>
    match s.producers p with
    | .checking report =>
      if s.deadLetter.shouldLog report now then some (s.goto p (.taking report))
      else some ((s.setDeadLetter { s.deadLetter with holder := none }).finish p (.ok ()))
    | _ => none
  | .take p now =>
    match s.producers p with
    | .taking report => some ((s.takeCount report now).finish p (.ok ()))
    | _ => none

/-- The drops reported so far. -/
def reported (s : PushSystem Producer F) : ℕ := (s.warnings.map PushWarning.reported).sum

end PushSystem

/-! ## Where a producer stands -/

/-- The count a producer that is inside has seen. -/
def ProducerPoint.ticket {F : Type} : ProducerPoint F → Option ℕ
  | .outside | .routing _ _ _ | .refused _ _ _ => none
  | .counted report | .checking report | .taking report => some report.dropped

/-- Whether a lost frame is still to be counted. -/
def ProducerPoint.owes {F : Type} : ProducerPoint F → Bool
  | .refused _ _ _ => true
  | _ => false

/-- Whether the producer has the lock. -/
def ProducerPoint.locks {F : Type} : ProducerPoint F → Bool
  | .checking _ | .taking _ => true
  | _ => false

/-- Whether the producer is before any accounting. -/
def ProducerPoint.plain {F : Type} : ProducerPoint F → Bool
  | .outside | .routing _ _ _ => true
  | _ => false

namespace PushSystem

section Count

variable {Producer F : Type}

/-! ## Taking the count -/

/-- The tickets that make a producer take the count. -/
def Due (logEveryN k : ℕ) : Prop := logEveryN ≠ 0 ∧ logEveryN ∣ k

instance (logEveryN : ℕ) : DecidablePred (Due logEveryN) := fun k =>
  inferInstanceAs (Decidable (logEveryN ≠ 0 ∧ logEveryN ∣ k))

theorem reported_warn_queueFull (s : PushSystem Producer F) (priority : PushPriority)
    (policy : PushPolicy) (dlq : Bool) :
    (s.warn (.queueFull priority policy dlq)).reported = s.reported := by
  simp [warn, reported, PushWarning.reported]

/-- What taking the count leaves alone. -/
theorem takeCount_fields (s : PushSystem Producer F) (report : DropReport) (now : Instant) :
    (s.takeCount report now).producers = s.producers ∧
      (s.takeCount report now).deadLetter =
        { s.deadLetter with drops := 0, lastLog := now, holder := none } ∧
      (s.takeCount report now).refusals = s.refusals ∧
      (s.takeCount report now).increments = s.increments := by
  rw [takeCount]
  split_ifs <;> exact ⟨rfl, rfl, rfl, rfl⟩

/-- A diagnostic that is not due is not due by count. -/
theorem not_due_of_shouldLog {state : DeadLetterState Producer} {report : DropReport}
    {now : Instant} (h : state.shouldLog report now = false) :
    ¬ Due state.logEveryN report.dropped := by
  rintro ⟨hne, hdvd⟩
  have hmod := Nat.mod_eq_zero_of_dvd hdvd
  simp [DeadLetterState.shouldLog, hne, hmod] at h

/-- Taking the count reports all of it. -/
theorem reported_takeCount (s : PushSystem Producer F) (report : DropReport) (now : Instant) :
    (s.takeCount report now).reported = s.reported + s.deadLetter.drops := by
  rw [takeCount]
  split_ifs with hzero
  · rw [hzero]
    rfl
  · simp [warn, setDeadLetter, reported, PushWarning.reported]

end Count

variable {Producer F : Type} [DecidableEq Producer] {s s' : PushSystem Producer F}

/-! ## What one step does -/

/-- The event increments the counter at its largest value, so that it starts again at zero. -/
def wrapsDrops (s : PushSystem Producer F) : PushEvent Producer F → Bool
  | .count p => (s.producers p).owes && decide (usizeMax ≤ s.deadLetter.drops)
  | _ => false

/-- The steps of a handle and its producers, by what they do to the accounting, and whether they
wrap the counter around. -/
inductive Move (s s' : PushSystem Producer F) : Bool → Prop where
  /-- a push that is not lost, up to the dead-letter queue -/
  | quiet {p : Producer} (point : ProducerPoint F) (hfrom : (s.producers p).plain = true)
      (hto : point.plain = true) (hproducers : s'.producers = Function.update s.producers p point)
      (hstate : s'.deadLetter = s.deadLetter) (hreported : s'.reported = s.reported)
      (hrefusals : s'.refusals = s.refusals) (hincrements : s'.increments = s.increments) :
      Move s s' false
  | refused {p : Producer} {dlqState : DlqState} {priority : PushPriority} {policy : PushPolicy}
      (hfrom : (s.producers p).plain = true) (hs' : s' = s.refuse p dlqState priority policy) :
      Move s s' false
  | counted {p : Producer} {dlqState : DlqState} {priority : PushPriority} {policy : PushPolicy}
      (hfrom : s.producers p = .refused dlqState priority policy)
      (hroom : s.deadLetter.drops + 1 ≤ usizeMax)
      (hs' : s' = (s.increment p).goto p
        (.counted ⟨s.deadLetter.drops + 1, priority, policy, dlqState⟩)) :
      Move s s' false
  /-- an increment of a full counter, which panics once it is made -/
  | wrapped {p : Producer} {dlqState : DlqState} {priority : PushPriority} {policy : PushPolicy}
      (hfrom : s.producers p = .refused dlqState priority policy)
      (hs' : s' = (s.increment p).goto p .outside) :
      Move s s' true
  | locked {p : Producer} {report : DropReport} (hfrom : s.producers p = .counted report)
      (hfree : s.deadLetter.holder = none)
      (hs' : s' = (s.setDeadLetter { s.deadLetter with holder := some p }).goto p
        (.checking report)) :
      Move s s' false
  | due {p : Producer} {report : DropReport} (hfrom : s.producers p = .checking report)
      (hs' : s' = s.goto p (.taking report)) :
      Move s s' false
  | passed {p : Producer} {report : DropReport} {now : Instant}
      (hfrom : s.producers p = .checking report)
      (hnot : s.deadLetter.shouldLog report now = false)
      (hs' : s' = (s.setDeadLetter { s.deadLetter with holder := none }).finish p (.ok ())) :
      Move s s' false
  | taken {p : Producer} {report : DropReport} {now : Instant}
      (hfrom : s.producers p = .taking report)
      (hs' : s' = (s.takeCount report now).finish p (.ok ())) :
      Move s s' false

/-- A frame for the dead-letter queue is offered to it next, or dropped if there is none. -/
theorem routeOrCount_move {t : PushSystem Producer F} {p : Producer} {frame : F}
    {priority : PushPriority} {policy : PushPolicy} (hfrom : (s.producers p).plain = true)
    (hproducers : t.producers = s.producers) (hstate : t.deadLetter = s.deadLetter)
    (hreported : t.reported = s.reported) (hrefusals : t.refusals = s.refusals)
    (hincrements : t.increments = s.increments) :
    Move s (t.routeOrCount p frame priority policy) false := by
  rw [routeOrCount]
  split_ifs
  · exact .quiet (.routing frame priority policy) hfrom rfl
      (by rw [← hproducers]; rfl) hstate hreported hrefusals hincrements
  · exact .quiet .outside hfrom rfl (by rw [← hproducers]; rfl) hstate hreported
      hrefusals hincrements

/-- The first access of a push loses no frame yet. -/
theorem tryPush_move {p : Producer} (hfrom : s.producers p = .outside) (frame : F)
    (priority : PushPriority) (policy : PushPolicy) (answer : TrySend) :
    Move s (s.tryPush p frame priority policy answer) false := by
  have hplain : (s.producers p).plain = true := by rw [hfrom]; rfl
  cases answer with
  | sent =>
    cases priority <;> exact .quiet .outside hplain rfl rfl rfl rfl rfl rfl
  | closed => exact .quiet .outside hplain rfl rfl rfl rfl rfl rfl
  | full =>
    cases policy with
    | returnErrorIfFull => exact .quiet .outside hplain rfl rfl rfl rfl rfl rfl
    | dropIfFull => exact routeOrCount_move hplain rfl rfl rfl rfl rfl
    | warnAndDropIfFull =>
      exact routeOrCount_move hplain rfl rfl (s.reported_warn_queueFull _ _ _) rfl rfl

/-- **One step** is one of these moves. -/
theorem step_move {event : PushEvent Producer F} (h : s.step event = some s') :
    Move s s' (s.wrapsDrops event) := by
  cases event with simp only [step] at h
  | tryPush p frame priority policy answer =>
    split at h
    · rename_i hfrom
      cases h
      exact tryPush_move hfrom frame priority policy answer
    · cases h
  | route p answer =>
    split at h
    · rename_i frame priority policy hfrom
      have hplain : (s.producers p).plain = true := by rw [hfrom]; rfl
      cases answer with
      | sent =>
        cases h
        exact .quiet .outside hplain rfl rfl rfl rfl rfl rfl
      | full | closed => exact .refused hplain (Option.some.inj h).symm
    · cases h
  | count p =>
    split at h
    · rename_i dlqState priority policy hfrom
      split at h
      · rename_i hadd
        have hfull := checkedAdd_eq_none_iff.mp hadd
        have hwraps : s.wrapsDrops (.count p) = true := by
          simp [wrapsDrops, hfrom, ProducerPoint.owes, Nat.le_of_lt_succ hfull]
        rw [hwraps]
        exact .wrapped hfrom (Option.some.inj h).symm
      · rename_i dropped hadd
        obtain ⟨hroom, rfl⟩ := checkedAdd_eq_some_iff.mp hadd
        have hwraps : s.wrapsDrops (.count p) = false := by
          simp [wrapsDrops, Nat.lt_of_succ_le hroom]
        rw [hwraps]
        exact .counted hfrom hroom (Option.some.inj h).symm
    · cases h
  | lock p =>
    split at h
    · rename_i report hfrom
      split at h
      · rename_i hfree
        exact .locked hfrom (by simpa using hfree) (Option.some.inj h).symm
      · cases h
    · cases h
  | check p now =>
    split at h
    · rename_i report hfrom
      split at h
      · exact .due hfrom (Option.some.inj h).symm
      · rename_i hnot
        exact .passed hfrom (by simpa using hnot) (Option.some.inj h).symm
    · cases h
  | take p now =>
    split at h
    · rename_i report hfrom
      exact .taken hfrom (Option.some.inj h).symm
    · cases h

/-- The cadence never changes. -/
theorem Move.logEveryN {wraps : Bool} (h : Move s s' wraps) :
    s'.deadLetter.logEveryN = s.deadLetter.logEveryN := by
  cases h with
  | quiet _ _ _ _ hstate => rw [hstate]
  | @taken p report now _ hs' =>
    subst hs'
    show (s.takeCount report now).deadLetter.logEveryN = s.deadLetter.logEveryN
    rw [(s.takeCount_fields report now).2.1]
  | refused _ hs' | counted _ _ hs' | wrapped _ hs' | locked _ _ hs' | due _ hs'
  | passed _ _ hs' =>
    subst hs'
    rfl

/-! ## The counter's ledger -/

/-- The drop counter as a counter with tickets. -/
def ledger (s : PushSystem Producer F) : TicketCounter Producer where
  pending := s.deadLetter.drops
  taken := s.reported
  added := s.increments.length
  ticket p := (s.producers p).ticket

theorem ticket_update (producers : Producer → ProducerPoint F) (p : Producer)
    (point : ProducerPoint F) :
    (fun q => (Function.update producers p point q).ticket) =
      Function.update (fun q => (producers q).ticket) p point.ticket :=
  Function.comp_update ProducerPoint.ticket producers p point

/-- A producer that moves with its ticket, while nothing is counted or taken, leaves the ledger
alone. -/
theorem ledger_eq_of_ticket {p : Producer} {point : ProducerPoint F}
    (hproducers : s'.producers = Function.update s.producers p point)
    (hticket : point.ticket = (s.producers p).ticket)
    (hdrops : s'.deadLetter.drops = s.deadLetter.drops) (hreported : s'.reported = s.reported)
    (hincrements : s'.increments = s.increments) : s'.ledger = s.ledger := by
  have htickets : (fun q => (s'.producers q).ticket) = fun q => (s.producers q).ticket := by
    rw [hproducers, ticket_update, hticket]
    exact Function.update_eq_self p _
  simp only [ledger, hdrops, hreported, hincrements, htickets]

/-- Before the accounting a producer has no ticket, owes nothing and has no lock. -/
theorem accounts_of_plain {point : ProducerPoint F} (h : point.plain = true) :
    point.ticket = none ∧ point.owes = false ∧ point.locks = false := by
  cases point with
  | outside | routing => exact ⟨rfl, rfl, rfl⟩
  | refused | counted | checking | taking => exact absurd h (by simp [ProducerPoint.plain])

/-- A producer that has yet to count its lost frame has no ticket. -/
theorem ticket_eq_none_of_owes {point : ProducerPoint F} (h : point.owes = true) :
    point.ticket = none := by
  cases point with
  | refused => rfl
  | outside | routing | counted | checking | taking => exact absurd h (by simp [ProducerPoint.owes])

/-- **Refinement**: a step of the handle that does not wrap the counter is a step of its ledger, or
leaves it alone. -/
theorem Move.ledger (h : Move s s' false) :
    TicketCounter.Step (Due s.deadLetter.logEveryN) s.ledger s'.ledger ∨ s'.ledger = s.ledger := by
  cases h with
  | @quiet p point hfrom hto hproducers hstate hreported _ hincrements =>
    right
    have hticket := (accounts_of_plain hto).1.trans (accounts_of_plain hfrom).1.symm
    exact ledger_eq_of_ticket hproducers hticket (by rw [hstate]) hreported hincrements
  | @refused p dlqState priority policy hfrom hs' =>
    right
    subst hs'
    exact ledger_eq_of_ticket rfl (accounts_of_plain hfrom).1.symm rfl rfl rfl
  | @counted p dlqState priority policy hfrom hroom hs' =>
    left
    subst hs'
    have hfree : s.ledger.ticket p = none := by
      show (s.producers p).ticket = none
      rw [hfrom]
      rfl
    have hadd : TicketCounter.Step (Due s.deadLetter.logEveryN) s.ledger _ := .add hfree
    convert hadd using 1
    simp only [PushSystem.ledger, goto, increment, setDeadLetter, wrappingAdd_of_le hroom,
      ticket_update, List.length_append, List.length_singleton]
    rfl
  | @locked p report hfrom _ hs' | @due p report hfrom hs' =>
    right
    subst hs'
    exact ledger_eq_of_ticket rfl (by rw [hfrom]; rfl) rfl rfl rfl
  | @passed p report now hfrom hnot hs' =>
    left
    subst hs'
    have hticket : s.ledger.ticket p = some report.dropped := by
      show (s.producers p).ticket = some report.dropped
      rw [hfrom]
      rfl
    have hleave := TicketCounter.Step.leave hticket (not_due_of_shouldLog hnot)
    convert hleave using 1
    simp only [PushSystem.ledger, finish, setDeadLetter, ticket_update]
    rfl
  | @taken p report now hfrom hs' =>
    left
    subst hs'
    have htake : TicketCounter.Step (Due s.deadLetter.logEveryN) s.ledger _ := .take p
    convert htake using 1
    obtain ⟨hproducers, hstate, -, hincrements⟩ := s.takeCount_fields report now
    have hreported : ((s.takeCount report now).finish p (.ok ())).reported =
        s.reported + s.deadLetter.drops := s.reported_takeCount report now
    simp only [PushSystem.ledger, hreported]
    simp only [finish, hproducers, hstate, hincrements, ticket_update]
    rfl

/-! ## Whole runs -/

/-- The ledger of a handle is sound for its own cadence. -/
def Accounted (logEveryN : ℕ) (s : PushSystem Producer F) : Prop :=
  s.deadLetter.logEveryN = logEveryN ∧ TicketCounter.Sound (Due logEveryN) s.ledger

/-- A step that does not wrap the counter keeps the ledger sound. -/
theorem Move.accounted {logEveryN : ℕ} (h : Move s s' false) (hs : s.Accounted logEveryN) :
    s'.Accounted logEveryN := by
  obtain ⟨rfl, hsound⟩ := hs
  refine ⟨h.logEveryN, ?_⟩
  rcases h.ledger with hstep | hsame
  · exact hstep.sound hsound
  · rw [hsame]
    exact hsound

/-- The same, for an event. -/
theorem step_accounted {logEveryN : ℕ} {event : PushEvent Producer F}
    (hwraps : ¬ s.wrapsDrops event) (hs : s.Accounted logEveryN) (h : s.step event = some s') :
    s'.Accounted logEveryN := by
  have hmove := step_move h
  rw [Bool.eq_false_iff.mpr hwraps] at hmove
  exact hmove.accounted hs

omit [DecidableEq Producer] in
theorem accounted_start (hasQueue : Bool) (logEveryN logInterval : ℕ) (created : Instant) :
    (start hasQueue logEveryN logInterval created : PushSystem Producer F).Accounted logEveryN :=
  ⟨rfl, TicketCounter.sound_new⟩

omit [DecidableEq Producer] in
/-- **The count** stays below the cadence times one more than the producers that have counted and
are still inside: each multiple of the cadence it has passed is the ticket of one of them. -/
theorem Accounted.drops_lt_mul [Fintype Producer] {logEveryN : ℕ} (hs : s.Accounted logEveryN)
    (hne : logEveryN ≠ 0) :
    s.deadLetter.drops <
      logEveryN * ((Finset.univ.filter fun p => (s.producers p).ticket ≠ none).card + 1) := by
  have hcard := hs.2.card_due_le
  have hmultiples : (Finset.Ioc 0 s.ledger.pending).filter (Due logEveryN) =
      (Finset.Ioc 0 s.deadLetter.drops).filter fun k => logEveryN ∣ k :=
    Finset.filter_congr fun k _ => and_iff_right hne
  rw [hmultiples, Nat.Ioc_filter_dvd_card_eq_div] at hcard
  calc s.deadLetter.drops
      < logEveryN * (s.deadLetter.drops / logEveryN + 1) :=
        Nat.lt_mul_div_succ _ (Nat.pos_of_ne_zero hne)
    _ ≤ _ := Nat.mul_le_mul_left _ (Nat.succ_le_succ hcard)

omit [DecidableEq Producer] in
/-- An increment finds room in the counter if the cadence times the number of producers fits. -/
theorem Accounted.not_wrapsDrops [Fintype Producer] {logEveryN : ℕ} (hs : s.Accounted logEveryN)
    (hne : logEveryN ≠ 0) (hfits : logEveryN * Fintype.card Producer ≤ usizeMax)
    (event : PushEvent Producer F) : ¬ s.wrapsDrops event := by
  intro hwraps
  cases event with
  | tryPush | route | lock | check | take => exact absurd hwraps (by simp [wrapsDrops])
  | count p =>
    obtain ⟨howes, hfull⟩ : (s.producers p).owes = true ∧ usizeMax ≤ s.deadLetter.drops := by
      simpa [wrapsDrops] using hwraps
    have hlt := hs.drops_lt_mul hne
    -- the producer itself has no ticket yet
    have hcard : (Finset.univ.filter fun q => (s.producers q).ticket ≠ none).card + 1 ≤
        Fintype.card Producer := by
      refine Finset.card_lt_univ_of_notMem (x := p) ?_
      rw [Finset.mem_filter, ticket_eq_none_of_owes howes]
      simp
    have hle := Nat.mul_le_mul_left logEveryN hcard
    omega

section Runs

variable {hasQueue : Bool} {logEveryN logInterval : ℕ} {created : Instant}
  {events : List (PushEvent Producer F)}

/-- The ledger is sound along every run that does not wrap the counter. -/
theorem exec_accounted
    (hwraps : Trace.Never step (wrapsDrops · ·) (start hasQueue logEveryN logInterval created) events)
    (h : Trace.exec step (start hasQueue logEveryN logInterval created) events = some s) :
    s.Accounted logEveryN :=
  hwraps.invariant (fun _ _ _ => step_accounted) (accounted_start _ _ _ _) h

/-- **No wrap**: with a cadence, and if the cadence times the number of producers fits a machine
word, no run wraps the counter. -/
theorem never_wrapsDrops [Fintype Producer] (hne : logEveryN ≠ 0)
    (hfits : logEveryN * Fintype.card Producer ≤ usizeMax) :
    Trace.Never step (wrapsDrops · ·)
      (start hasQueue logEveryN logInterval created : PushSystem Producer F) events :=
  Trace.never_of_invariant (fun _ event hs => hs.not_wrapsDrops hne hfits event)
    (fun _ _ _ => step_accounted) (accounted_start _ _ _ _) events

/-- **Drops are accounted for**: for any producers, in every state they can reach together and with
any clock readings, as long as no increment finds the counter at its largest value, what was
reported and what is pending make up the completed increments; and when no producer is inside the
routine, the count is below the cadence.  No increment finds it there if there is a cadence and the
cadence times the number of producers fits a machine word. -/
theorem drops_accounted (hasQueue : Bool) (logEveryN logInterval : ℕ) (created : Instant)
    (events : List (PushEvent Producer F)) :
    (∀ s, Trace.Never step (wrapsDrops · ·) (start hasQueue logEveryN logInterval created) events →
      Trace.exec step (start hasQueue logEveryN logInterval created) events = some s →
      s.reported + s.deadLetter.drops = s.increments.length ∧
        ((∀ p, s.producers p = .outside) → logEveryN ≠ 0 → s.deadLetter.drops < logEveryN)) ∧
    ∀ [Fintype Producer], logEveryN ≠ 0 → logEveryN * Fintype.card Producer ≤ usizeMax →
      Trace.Never step (wrapsDrops · ·) (start hasQueue logEveryN logInterval created) events := by
  refine ⟨fun s hwraps h => ?_, fun hne hfits => never_wrapsDrops hne hfits⟩
  obtain ⟨-, hsound⟩ := exec_accounted hwraps h
  refine ⟨hsound.conserved, fun hquiet hne => ?_⟩
  refine hsound.pending_lt (fun p => ?_) ⟨hne, dvd_rfl⟩ (Nat.pos_of_ne_zero hne)
  show (s.producers p).ticket = none
  rw [hquiet p]
  rfl

/-- Two producers lose a frame each while the dead-letter queue is full; the second to count takes
the count of both, between the other's increment and its check. -/
def twoLost : List (PushEvent Bool ℕ) :=
  [.tryPush false 1 .high .dropIfFull .full, .tryPush true 2 .low .warnAndDropIfFull .full,
    .route false .full, .route true .closed, .count false, .count true, .lock true, .check true 5,
    .take true 6, .lock false, .check false 7]

theorem drops_accounted_twoLost :
    ∃ s, Trace.exec step (start true 2 60 0 : PushSystem Bool ℕ) twoLost = some s ∧
      s.reported = 2 ∧ s.increments = [false, true] ∧
      s.reported + s.deadLetter.drops = s.increments.length ∧
      (∀ p, s.producers p = .outside) ∧ s.deadLetter.drops < 2 := by
  obtain ⟨s, hexec, hreported, hincrements, hquiet⟩ :
      ∃ s, Trace.exec step (start true 2 60 0 : PushSystem Bool ℕ) twoLost = some s ∧
        s.reported = 2 ∧ s.increments = [false, true] ∧ ∀ p, s.producers p = .outside :=
    ⟨_, rfl, rfl, rfl, by rintro (_ | _) <;> rfl⟩
  obtain ⟨haccounts, hnever⟩ := drops_accounted true 2 60 0 twoLost
  obtain ⟨hsum, hbelow⟩ := haccounts s (hnever (by decide) (by decide)) hexec
  exact ⟨s, hexec, hreported, hincrements, hsum, hquiet, hbelow hquiet (by decide)⟩

/-! ## A counter that wraps around -/

/-- A producer loses a frame and counts it; no report is due. -/
def oneLost : List (PushEvent Unit ℕ) :=
  [.tryPush () 7 .high .dropIfFull .full, .route () .full, .count (), .lock (), .check () 0]

/-- The same frame is lost `n` times. -/
def lostAgain (n : ℕ) : List (PushEvent Unit ℕ) := (List.replicate n oneLost).flatten

/-- The handle after `n` losses, none of which was reported. -/
structure Lost (n : ℕ) (s : PushSystem Unit ℕ) : Prop where
  state : s.deadLetter = ⟨true, n, 0, none, 0, 60⟩
  outside : s.producers () = .outside
  silent : s.warnings = []
  counted : s.increments.length = n

/-- One more loss is counted as long as there is room. -/
theorem Lost.again {n : ℕ} {s : PushSystem Unit ℕ} (h : Lost n s) (hroom : n < usizeMax) :
    ∃ t, Trace.exec step s oneLost = some t ∧ Lost (n + 1) t := by
  have hadd : checkedAdd n 1 = some (n + 1) := checkedAdd_eq_some_iff.mpr ⟨hroom, rfl⟩
  have hword : wrappingAdd n 1 = n + 1 := wrappingAdd_of_le hroom
  refine ⟨{ s with
    deadLetter := ⟨true, n + 1, 0, none, 0, 60⟩
    producers := Function.update s.producers () .outside
    returned := s.returned ++ [((), .ok ())]
    refusals := s.refusals ++ [()]
    increments := s.increments ++ [()] }, ?_, rfl, rfl, h.silent, ?_⟩
  · simp [Trace.exec, oneLost, step, h.outside, tryPush, routeOrCount, h.state, goto, refuse, hadd,
      increment, setDeadLetter, hword, DeadLetterState.shouldLog, saturatingDurationSince, finish]
  · rw [List.length_append, h.counted]
    rfl

/-- Without a cadence, and as long as the interval does not pass, losses are only counted. -/
theorem exec_lostAgain {n : ℕ} (hn : n ≤ usizeMax) :
    ∃ s, Trace.exec step (start true 0 60 0 : PushSystem Unit ℕ) (lostAgain n) = some s ∧
      Lost n s := by
  induction n with
  | zero => exact ⟨_, rfl, rfl, rfl, rfl, rfl⟩
  | succ n ih =>
    obtain ⟨s, hs, hlost⟩ := ih (Nat.le_of_succ_le hn)
    obtain ⟨t, ht, hnext⟩ := hlost.again (Nat.lt_of_succ_le hn)
    refine ⟨t, ?_, hnext⟩
    rw [lostAgain, List.replicate_succ', List.flatten_append, Trace.exec_append]
    rw [lostAgain] at hs
    rw [hs]
    simpa using ht

/-- One loss more than the counter holds, up to its increment. -/
def endlessLoss : List (PushEvent Unit ℕ) := lostAgain usizeMax ++ oneLost.take 3

/-- **A counter that wraps around forgets**: after `2 ^ 64` lost frames nothing was reported and
nothing is pending. -/
theorem endlessLoss_uncounted :
    ∃ s, Trace.exec step (start true 0 60 0 : PushSystem Unit ℕ) endlessLoss = some s ∧
      s.reported + s.deadLetter.drops = 0 ∧ s.increments.length = usizeMax + 1 := by
  obtain ⟨s, hs, hlost⟩ := exec_lostAgain le_rfl
  have hadd : checkedAdd usizeMax 1 = none := checkedAdd_eq_none_iff.mpr (Nat.lt_succ_self _)
  have hword : wrappingAdd usizeMax 1 = 0 := Nat.mod_self _
  refine ⟨{ s with
    deadLetter := ⟨true, 0, 0, none, 0, 60⟩
    producers := Function.update s.producers () .outside
    refusals := s.refusals ++ [()]
    increments := s.increments ++ [()] }, ?_, ?_, ?_⟩
  · rw [endlessLoss, Trace.exec_append, hs]
    simp [Trace.exec, oneLost, step, hlost.outside, tryPush, routeOrCount, hlost.state, goto, refuse,
      hadd, increment, setDeadLetter, hword]
  · simp [reported, hlost.silent]
  · rw [List.length_append, hlost.counted]
    rfl

/-! ## Lost frames and the lock -/

/-- A refused frame is counted once by the producer that lost it, or is still to be counted. -/
def Owed (s : PushSystem Producer F) : Prop :=
  ∀ p, s.refusals.count p = s.increments.count p + if (s.producers p).owes then 1 else 0

/-- Who has the lock is in the section it guards. -/
def Guarded (s : PushSystem Producer F) : Prop :=
  ∀ p, s.deadLetter.holder = some p ↔ (s.producers p).locks = true

/-- Who moves, and what becomes of the records of lost frames. -/
theorem Move.records {wraps : Bool} (h : Move s s' wraps) :
    ∃ p point, s'.producers = Function.update s.producers p point ∧
      ((s'.refusals = s.refusals ∧ s'.increments = s.increments ∧
          point.owes = (s.producers p).owes) ∨
        (s'.refusals = s.refusals ++ [p] ∧ s'.increments = s.increments ∧
          (s.producers p).owes = false ∧ point.owes = true) ∨
        (s'.refusals = s.refusals ∧ s'.increments = s.increments ++ [p] ∧
          (s.producers p).owes = true ∧ point.owes = false)) := by
  cases h with
  | @quiet p point hfrom hto hproducers _ _ hrefusals hincrements =>
    exact ⟨p, point, hproducers, Or.inl ⟨hrefusals, hincrements,
      (accounts_of_plain hto).2.1.trans (accounts_of_plain hfrom).2.1.symm⟩⟩
  | @refused p dlqState priority policy hfrom hs' =>
    subst hs'
    exact ⟨p, _, rfl, Or.inr (Or.inl ⟨rfl, rfl, (accounts_of_plain hfrom).2.1, rfl⟩)⟩
  | @counted p dlqState priority policy hfrom _ hs' | @wrapped p dlqState priority policy hfrom hs' =>
    subst hs'
    exact ⟨p, _, rfl, Or.inr (Or.inr ⟨rfl, rfl, by rw [hfrom]; rfl, rfl⟩)⟩
  | @locked p report hfrom _ hs' | @due p report hfrom hs' | @passed p report _ hfrom _ hs' =>
    subst hs'
    exact ⟨p, _, rfl, Or.inl ⟨rfl, rfl, by rw [hfrom]; rfl⟩⟩
  | @taken p report now hfrom hs' =>
    subst hs'
    obtain ⟨hproducers, -, hrefusals, hincrements⟩ := s.takeCount_fields report now
    refine ⟨p, .outside, ?_, Or.inl ⟨hrefusals, hincrements, by rw [hfrom]; rfl⟩⟩
    rw [← hproducers]
    rfl

/-- Who moves, and what becomes of the lock. -/
theorem Move.lock {wraps : Bool} (h : Move s s' wraps) :
    ∃ p point, s'.producers = Function.update s.producers p point ∧
      ((s'.deadLetter.holder = s.deadLetter.holder ∧ point.locks = (s.producers p).locks) ∨
        (s.deadLetter.holder = none ∧ s'.deadLetter.holder = some p ∧ point.locks = true) ∨
        (s'.deadLetter.holder = none ∧ (s.producers p).locks = true ∧ point.locks = false)) := by
  cases h with
  | @quiet p point hfrom hto hproducers hstate _ _ _ =>
    exact ⟨p, point, hproducers, Or.inl ⟨by rw [hstate],
      (accounts_of_plain hto).2.2.trans (accounts_of_plain hfrom).2.2.symm⟩⟩
  | @refused p dlqState priority policy hfrom hs' =>
    subst hs'
    exact ⟨p, _, rfl, Or.inl ⟨rfl, (accounts_of_plain hfrom).2.2.symm⟩⟩
  | @counted p dlqState priority policy hfrom _ hs'
  | @wrapped p dlqState priority policy hfrom hs' | @due p report hfrom hs' =>
    subst hs'
    exact ⟨p, _, rfl, Or.inl ⟨rfl, by rw [hfrom]; rfl⟩⟩
  | @locked p report hfrom hfree hs' =>
    subst hs'
    exact ⟨p, _, rfl, Or.inr (Or.inl ⟨hfree, rfl, rfl⟩)⟩
  | @passed p report now hfrom _ hs' =>
    subst hs'
    exact ⟨p, _, rfl, Or.inr (Or.inr ⟨rfl, by rw [hfrom]; rfl, rfl⟩)⟩
  | @taken p report now hfrom hs' =>
    subst hs'
    obtain ⟨hproducers, hstate, -, -⟩ := s.takeCount_fields report now
    refine ⟨p, .outside, ?_, Or.inr (Or.inr ⟨?_, by rw [hfrom]; rfl, rfl⟩)⟩
    · rw [← hproducers]
      rfl
    · show (s.takeCount report now).deadLetter.holder = none
      rw [hstate]

/-- Every step keeps the account of lost frames. -/
theorem Move.owed {wraps : Bool} (h : Move s s' wraps) (hs : s.Owed) : s'.Owed := by
  obtain ⟨p, point, hproducers, hrecords⟩ := h.records
  intro q
  have hq := hs q
  rw [hproducers]
  by_cases hqp : q = p
  · subst hqp
    rw [Function.update_self]
    rcases hrecords with ⟨hrefusals, hincrements, howes⟩ |
      ⟨hrefusals, hincrements, hbefore, hafter⟩ | ⟨hrefusals, hincrements, hbefore, hafter⟩
    · rw [hrefusals, hincrements, howes]
      exact hq
    · rw [hbefore, if_neg Bool.false_ne_true] at hq
      rw [hrefusals, hincrements, hafter, if_pos rfl, List.count_append, List.count_singleton_self]
      omega
    · rw [hbefore, if_pos rfl] at hq
      rw [hrefusals, hincrements, hafter, if_neg Bool.false_ne_true, List.count_append,
        List.count_singleton_self]
      omega
  · have hother : [p].count q = 0 := List.count_eq_zero.mpr (by simpa using hqp)
    rw [Function.update_of_ne hqp]
    rcases hrecords with ⟨hrefusals, hincrements, -⟩ | ⟨hrefusals, hincrements, -⟩ |
      ⟨hrefusals, hincrements, -⟩
    · rw [hrefusals, hincrements]
      exact hq
    · rw [hrefusals, hincrements, List.count_append, hother]
      exact hq
    · rw [hrefusals, hincrements, List.count_append, hother]
      exact hq

/-- Every step keeps the lock with the producer that is in the section. -/
theorem Move.guarded {wraps : Bool} (h : Move s s' wraps) (hs : s.Guarded) : s'.Guarded := by
  obtain ⟨p, point, hproducers, hlock⟩ := h.lock
  intro q
  have hq := hs q
  have hp := hs p
  rw [hproducers]
  by_cases hqp : q = p
  · subst hqp
    rw [Function.update_self]
    rcases hlock with ⟨hholder, hlocks⟩ | ⟨-, hholder, hlocks⟩ | ⟨hholder, -, hlocks⟩
    · rw [hholder, hlocks]
      exact hq
    · simp [hholder, hlocks]
    · simp [hholder, hlocks]
  · rw [Function.update_of_ne hqp]
    rcases hlock with ⟨hholder, -⟩ | ⟨hfree, hholder, -⟩ | ⟨hholder, hlocks, -⟩
    · rw [hholder]
      exact hq
    · rw [hfree] at hq
      rw [hholder, ← hq]
      simp [Ne.symm hqp]
    · rw [hp.mpr hlocks] at hq
      rw [hholder, ← hq]
      simp [Ne.symm hqp]

theorem exec_owed
    (h : Trace.exec step (start hasQueue logEveryN logInterval created) events = some s) :
    s.Owed := by
  have hstart : (start hasQueue logEveryN logInterval created : PushSystem Producer F).Owed :=
    fun _ => rfl
  exact Trace.exec_invariant (fun _ _ _ hs hstep => (step_move hstep).owed hs) hstart h

theorem exec_guarded
    (h : Trace.exec step (start hasQueue logEveryN logInterval created) events = some s) :
    s.Guarded := by
  have hstart :
      (start hasQueue logEveryN logInterval created : PushSystem Producer F).Guarded := by
    intro p
    simp [start, DeadLetterState.new, ProducerPoint.locks]
  exact Trace.exec_invariant (fun _ _ _ hs hstep => (step_move hstep).guarded hs) hstart h

/-- A producer in the guarded section can go on. -/
theorem section_progress {q : Producer} (hq : (s.producers q).locks = true) :
    ∃ event, event.isInside = true ∧ (s.step event).isSome = true := by
  cases hpoint : s.producers q with
  | checking report =>
    refine ⟨.check q 0, rfl, ?_⟩
    simp only [step, hpoint]
    split_ifs <;> rfl
  | taking report =>
    refine ⟨.take q 0, rfl, ?_⟩
    simp only [step, hpoint]
    rfl
  | outside | routing _ _ _ | refused _ _ _ | counted _ =>
    exact absurd hq (by simp [hpoint, ProducerPoint.locks])

/-- While a producer is inside the routine, some producer inside it can go on. -/
theorem inside_progress (hguarded : s.Guarded) {p : Producer} (hinside : s.producers p ≠ .outside) :
    ∃ event, event.isInside = true ∧ (s.step event).isSome = true := by
  cases hpoint : s.producers p with
  | outside => exact absurd hpoint hinside
  | routing frame priority policy =>
    refine ⟨.route p .full, rfl, ?_⟩
    simp only [step, hpoint]
    rfl
  | refused dlqState priority policy =>
    refine ⟨.count p, rfl, ?_⟩
    simp only [step, hpoint]
    split <;> rfl
  | counted report =>
    cases hholder : s.deadLetter.holder with
    | none =>
      refine ⟨.lock p, rfl, ?_⟩
      simp only [step, hpoint, hholder]
      rfl
    | some q => exact section_progress ((hguarded q).mp hholder)
  | checking report | taking report => exact section_progress (q := p) (by rw [hpoint]; rfl)

/-- **Lost frames are reported**: in every state that producers can reach together without wrapping
the counter, some producer inside the routine can go on as long as there is one; and when there is
none, what was reported and what is pending make up the frames the dead-letter queue refused, each
counted by the producer that lost it. -/
theorem lost_frames_accounted (hasQueue : Bool) (logEveryN logInterval : ℕ) (created : Instant)
    (events : List (PushEvent Producer F)) (s : PushSystem Producer F)
    (hwraps : Trace.Never step (wrapsDrops · ·) (start hasQueue logEveryN logInterval created) events)
    (h : Trace.exec step (start hasQueue logEveryN logInterval created) events = some s) :
    ((∃ p, s.producers p ≠ .outside) →
      ∃ event, event.isInside = true ∧ (s.step event).isSome = true) ∧
    ((∀ p, s.producers p = .outside) →
      s.refusals.Perm s.increments ∧ s.reported + s.deadLetter.drops = s.refusals.length) := by
  refine ⟨fun ⟨p, hinside⟩ => inside_progress (exec_guarded h) hinside, fun hquiet => ?_⟩
  have hperm : s.refusals.Perm s.increments := by
    rw [List.perm_iff_count]
    intro p
    have hp := exec_owed h p
    rw [hquiet p] at hp
    exact hp
  refine ⟨hperm, ?_⟩
  rw [hperm.length_eq]
  exact (exec_accounted hwraps h).2.conserved

/-- The two lost frames of `twoLost` are reported once both producers have left. -/
theorem lost_frames_accounted_twoLost :
    ∃ s, Trace.exec step (start true 2 60 0 : PushSystem Bool ℕ) twoLost = some s ∧
      s.refusals.Perm s.increments ∧ s.reported + s.deadLetter.drops = 2 := by
  obtain ⟨s, hexec, hrefusals, hquiet⟩ :
      ∃ s, Trace.exec step (start true 2 60 0 : PushSystem Bool ℕ) twoLost = some s ∧
        s.refusals = [false, true] ∧ ∀ p, s.producers p = .outside :=
    ⟨_, rfl, rfl, by rintro (_ | _) <;> rfl⟩
  have hwraps : Trace.Never step (wrapsDrops · ·) (start true 2 60 0 : PushSystem Bool ℕ) twoLost :=
    never_wrapsDrops (by decide) (by decide)
  obtain ⟨hperm, hsum⟩ := (lost_frames_accounted true 2 60 0 twoLost s hwraps hexec).2 hquiet
  exact ⟨s, hexec, hperm, by rw [hsum, hrefusals]; rfl⟩

end Runs

end PushSystem

end Wireframe
