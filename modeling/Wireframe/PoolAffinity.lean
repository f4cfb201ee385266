/-
# Which connection a receive reads from

A split-phase send leaves its reply on the connection it was written on.  The connection goes
back to the pool in between, and two mechanisms look at how long it has been there: the slot's
own recycle check, which a pending reply switches off, and the reaper of the connection pool,
which knows of no pending reply.

`LeaseRun` keeps, next to the slot, the connection of every unread send.  In the runs without a
failure or a cancellation, and in which no count of unread responses wraps around, a receive reads
where its oldest unread send was written exactly when the pool has not closed a connection in
between (`receive_connection_iff`).
-/
import Mathlib.Tactic
import Wireframe.PoolOwnership

namespace Wireframe

/-! ## Runs that remember where the sends were written -/

/-- A split-phase send whose reply has not been read: the connection it was written on, whether
the pool has closed its connection since, and how long at most that connection has been checked
in without a break. -/
structure UnreadSend where
  conn : ConnId
  closed : Bool
  longestIdle : ℕ
  deriving DecidableEq, Repr

/-- How many split-phase sends of the lease have been written and not been read. -/
def Lease.unreadSends (x : Lease) : ℕ :=
  match x.operation with
  | some ⟨.send, .running _ .written⟩ => x.pendingResponses + 1
  | some ⟨.receive, .running _ .replied⟩ => x.pendingResponses - 1
  | _ => x.pendingResponses

/-- How long the connection has been checked in. -/
def SlotState.idleFor (s : SlotState) : ℕ :=
  match s.pool, s.lastReturnedAt with
  | .idle _, some returnedAt => saturatingDurationSince s.now returnedAt
  | _, _ => 0

/-- No operation fails or is cancelled, and the pool closes a connection only once it has been
idle for `idle_timeout`. -/
def SlotState.smooth (s : SlotState) : SlotEvent → Bool
  | .checkoutFailed _ | .failed _ _ | .cancelled _ | .unqueued _ _ => false
  | .locked l =>
    match (s.leases l).waiting with
    -- a whole exchange on top of a pending reply is refused
    | kind :: _ => !(decide (0 < (s.leases l).pendingResponses) && decide (kind.change = .none))
    | [] => true
  | .replaced => s.shouldRecycleIdle
  | _ => true

/-- A slot and the unread sends of its leases, the oldest first. -/
structure LeaseRun where
  slot : SlotState
  unread : LeaseId → List UnreadSend

namespace LeaseRun

/-- The unread sends after an event. -/
def note (r : LeaseRun) : SlotEvent → LeaseId → List UnreadSend
  | .wrote l =>
    match (r.slot.leases l).operation with
    | some ⟨.send, .running conn _⟩ => Function.update r.unread l (r.unread l ++ [⟨conn, false, 0⟩])
    | _ => r.unread
  | .received l =>
    match (r.slot.leases l).operation with
    | some ⟨.receive, _⟩ => Function.update r.unread l (r.unread l).tail
    | _ => r.unread
  | .leaseDropped l => Function.update r.unread l []
  | .replaced => fun l => (r.unread l).map fun u => { u with closed := true }
  | .elapsed duration =>
    let slot := { r.slot with now := r.slot.now + duration }
    fun l => (r.unread l).map fun u => { u with longestIdle := max u.longestIdle slot.idleFor }
  | _ => r.unread

/-- One event of a run without failures and cancellations. -/
def step (r : LeaseRun) (e : SlotEvent) : Option LeaseRun :=
  if r.slot.smooth e then (r.slot.step e).map fun s => ⟨s, r.note e⟩ else none

/-- A slot nobody has used. -/
def start (idleTimeout : ℕ) : LeaseRun := ⟨.new idleTimeout, fun _ => []⟩

theorem step_eq_some {r r' : LeaseRun} {e : SlotEvent} (h : r.step e = some r') :
    r.slot.smooth e = true ∧ r.slot.step e = some r'.slot ∧ r'.unread = r.note e := by
  obtain ⟨hsmooth, h⟩ := Option.ite_none_right_eq_some.mp h
  obtain ⟨s, hs, rfl⟩ := Option.map_eq_some_iff.mp h
  exact ⟨hsmooth, hs, rfl⟩

/-! ## The invariant -/

/-- Where an unread send stands: its connection is the one of the pool as long as the pool has
closed none, and never again afterwards. -/
structure Placed (s : SlotState) (u : UnreadSend) : Prop where
  opened : u.conn < s.nextConn
  here : u.closed = false → s.pool = .idle u.conn ∨ s.pool = .out u.conn
  gone : u.closed = true → s.pool ≠ .idle u.conn ∧ s.pool ≠ .out u.conn
  waited : u.closed = false → s.idleFor ≤ u.longestIdle
  overdue : u.closed = true → s.idleTimeout ≤ u.longestIdle

/-- **The affinity invariant**: every unread send is accounted for and stands where it should, and
a connection that owes a reply is not marked for discard. -/
structure Affine (r : LeaseRun) : Prop where
  inv : r.slot.Inv
  count : ∀ l, (r.unread l).length = (r.slot.leases l).unreadSends
  kept : ∀ l, r.unread l ≠ [] → r.slot.discardOnNextCheckout = false
  placed : ∀ l, ∀ u ∈ r.unread l, Placed r.slot u

/-- What the unread sends look at. -/
def view (s : SlotState) : Resource × ConnId × Option Instant × Instant × ℕ × Bool :=
  (s.pool, s.nextConn, s.lastReturnedAt, s.now, s.idleTimeout, s.discardOnNextCheckout)

variable {r r' : LeaseRun} {s' : SlotState} {l : LeaseId} {e : SlotEvent}

theorem Placed.congr {s : SlotState} {u : UnreadSend} (h : Placed s u) (hview : view s' = view s) :
    Placed s' u := by
  simp only [view, Prod.mk.injEq] at hview
  obtain ⟨hpool, hnext, hreturned, hnow, htimeout, -⟩ := hview
  refine ⟨?_, ?_, ?_, ?_, ?_⟩
  · rw [hnext]
    exact h.opened
  · rw [hpool]
    exact h.here
  · rw [hpool]
    exact h.gone
  · unfold SlotState.idleFor
    rw [hpool, hreturned, hnow]
    exact h.waited
  · rw [htimeout]
    exact h.overdue

/-- A step that changes neither the connection nor the number of unread sends. -/
theorem Affine.frame (h : Affine r) (hinv : s'.Inv) (hview : view s' = view r.slot)
    (hcount : ∀ l, (s'.leases l).unreadSends = (r.slot.leases l).unreadSends) :
    Affine ⟨s', r.unread⟩ where
  inv := hinv
  count := fun l => (h.count l).trans (hcount l).symm
  kept := by
    intro l hne
    have hdiscard : s'.discardOnNextCheckout = r.slot.discardOnNextCheckout :=
      congrArg (fun v => v.2.2.2.2.2) hview
    exact hdiscard.trans (h.kept l hne)
  placed := fun l u hu => (h.placed l u hu).congr hview

/-- Only one lease changes, and its number of unread sends does not. -/
theorem Affine.frame_lease (h : Affine r) (hinv : s'.Inv) (hview : view s' = view r.slot)
    (hothers : ∀ l', l' ≠ l → s'.leases l' = r.slot.leases l')
    (hcount : (s'.leases l).unreadSends = (r.slot.leases l).unreadSends) :
    Affine ⟨s', r.unread⟩ := by
  refine h.frame hinv hview fun l' => ?_
  by_cases hl : l' = l
  · rw [hl]
    exact hcount
  · rw [hothers l' hl]

theorem unreadSends_outside {x : Lease} (h : x.Outside) : x.unreadSends = 0 := by
  obtain ⟨status, pending, permit, operation, waiting⟩ := x
  have hpending : pending = 0 := h.pending
  rcases operation with _ | ⟨kind, phase⟩
  · exact hpending
  · obtain rfl : phase = .gate := h.phase _ rfl
    cases kind <;> exact hpending

/-- A lease outside the gate has no unread send. -/
theorem Affine.outside (h : Affine r) (hl : (r.slot.leases l).Outside) : r.unread l = [] := by
  rw [← List.length_eq_zero_iff, h.count l, unreadSends_outside hl]

/-- A step of the lease inside the gate, while all others are outside. -/
theorem Affine.inside {unread : LeaseId → List UnreadSend} (h : Affine r) (hinv : s'.Inv)
    (hout : ∀ l', l' ≠ l → (r.slot.leases l').Outside)
    (hothers : ∀ l', l' ≠ l → s'.leases l' = r.slot.leases l')
    (hunread : ∀ l', l' ≠ l → unread l' = r.unread l')
    (hcount : (unread l).length = (s'.leases l).unreadSends)
    (hkept : unread l ≠ [] → s'.discardOnNextCheckout = false)
    (hplaced : ∀ u ∈ unread l, Placed s' u) : Affine ⟨s', unread⟩ := by
  have hnil : ∀ l', l' ≠ l → unread l' = [] := fun l' hl' =>
    (hunread l' hl').trans (h.outside (hout l' hl'))
  refine ⟨hinv, fun l' => ?_, fun l' => ?_, fun l' => ?_⟩
  all_goals by_cases hl : l' = l
  · rw [hl]
    exact hcount
  · show (unread l').length = (s'.leases l').unreadSends
    rw [hnil l' hl, hothers l' hl, unreadSends_outside (hout l' hl)]
    rfl
  · rw [hl]
    exact hkept
  · intro hne
    exact absurd (hnil l' hl) hne
  · rw [hl]
    exact hplaced
  · intro u hu
    rw [show (LeaseRun.mk s' unread).unread l' = [] from hnil l' hl] at hu
    cases hu

/-! ## The events that touch the connection -/

/-- Checking out takes the connection of the pool, or a new one. -/
theorem Placed.getConnection {s t : SlotState} {u : UnreadSend} {conn : ConnId}
    (h : Placed s u) (hget : s.getConnection = some (conn, t)) : Placed t u := by
  unfold SlotState.getConnection at hget
  rcases hpool : s.pool with _ | c | c
  · -- nothing is checked in, so the connection of the send is gone and the new one is another
    simp only [hpool, Option.some.injEq, Prod.mk.injEq] at hget
    obtain ⟨-, rfl⟩ := hget
    have hclosed : u.closed ≠ false := by
      intro hopen
      rcases h.here hopen with hidle | hout
      · exact absurd (hpool.symm.trans hidle) (by simp)
      · exact absurd (hpool.symm.trans hout) (by simp)
    have hne : s.nextConn ≠ u.conn := h.opened.ne'
    refine ⟨Nat.lt_succ_of_lt h.opened, fun hopen => absurd hopen hclosed, fun _ => ?_,
      fun hopen => absurd hopen hclosed, h.overdue⟩
    simpa using hne
  · simp only [hpool, Option.some.injEq, Prod.mk.injEq] at hget
    obtain ⟨-, rfl⟩ := hget
    refine ⟨h.opened, fun hopen => Or.inr ?_, fun hclosed => ?_, fun _ => Nat.zero_le _, h.overdue⟩
    · have hhere := h.here hopen
      simpa [hpool] using hhere
    · have hgone := h.gone hclosed
      simpa [hpool] using hgone
  · simp only [hpool] at hget
    cases hget

/-- The connection goes back to the pool, and its time there starts now. -/
theorem Placed.returned {s t : SlotState} {u : UnreadSend} {conn : ConnId} (h : Placed s u)
    (hpool : s.pool = .out conn) (hview : view t = view (s.dropConnection conn false)) :
    Placed t u := by
  have hplaced : Placed (s.dropConnection conn false) u := by
    refine ⟨h.opened, fun hopen => Or.inl ?_, fun hclosed => ?_, fun _ => ?_, h.overdue⟩
    · have hhere := h.here hopen
      rw [hpool] at hhere
      simpa [SlotState.dropConnection] using hhere
    · have hgone := h.gone hclosed
      rw [hpool] at hgone
      simpa [SlotState.dropConnection] using hgone
    · simp [SlotState.dropConnection, SlotState.idleFor, saturatingDurationSince]
  exact hplaced.congr hview

/-- The pool closes its connection, which has been idle long enough. -/
theorem Placed.replaced {s : SlotState} {u : UnreadSend} {conn : ConnId} (h : Placed s u)
    (hpool : s.pool = .idle conn) (hidle : s.shouldRecycleIdle = true) :
    Placed { s with pool := .absent } { u with closed := true } := by
  refine ⟨h.opened, nofun, fun _ => by simp, nofun, fun _ => ?_⟩
  cases hclosed : u.closed with
  | true => exact h.overdue hclosed
  | false =>
    refine le_trans ?_ (h.waited hclosed)
    unfold SlotState.shouldRecycleIdle at hidle
    unfold SlotState.idleFor
    rw [hpool]
    split at hidle
    · rename_i returnedAt hreturned
      rw [hreturned]
      simpa using hidle
    · cases hidle

theorem Placed.elapsed {s : SlotState} {u : UnreadSend} {t : SlotState} (h : Placed s u)
    (ht : ∃ duration, t = { s with now := s.now + duration }) :
    Placed t { u with longestIdle := max u.longestIdle t.idleFor } := by
  obtain ⟨duration, rfl⟩ := ht
  exact ⟨h.opened, h.here, h.gone, fun _ => le_max_right _ _,
    fun hclosed => le_trans (h.overdue hclosed) (le_max_left _ _)⟩

/-- What finishing an operation leaves of the connection and of its lease. -/
theorem finishOperation_ok (s : SlotState) (l : LeaseId) (kind : OperationKind) (conn : ConnId) :
    view (s.finishOperation l kind conn (.ok ())) = view (s.dropConnection conn false) ∧
      ((s.finishOperation l kind conn (.ok ())).leases l).unreadSends =
        ((s.recordResponseChange l kind.change).leases l).pendingResponses := by
  have hview : view ((s.recordResponseChange l kind.change).dropConnection conn false) =
      view (s.dropConnection conn false) := by
    cases kind <;> rfl
  unfold SlotState.finishOperation SlotState.finishProtocolPermit
  simp only
  split_ifs
  · refine ⟨hview, ?_⟩
    simp [SlotState.endOperation, SlotState.setLease, Lease.unreadSends, SlotState.dropConnection]
  · refine ⟨hview, ?_⟩
    simp [SlotState.endOperation, SlotState.takePermit, SlotState.setLease, Lease.unreadSends,
      SlotState.dropConnection]

/-- The checkout keeps a connection that owes a reply. -/
theorem inspectConnection_of_pending {s : SlotState} {kind : OperationKind} {conn : ConnId}
    (hdiscard : s.discardOnNextCheckout = false) (hpending : 0 < (s.leases l).pendingResponses) :
    s.inspectConnection l kind conn = s.suspend l kind (.running conn .fresh) := by
  have hkeep : (s.discardOnNextCheckout || (decide ((s.leases l).pendingResponses = 0) &&
      SlotState.shouldRecycleIdle { s with discardOnNextCheckout := false })) = false := by
    simp [hdiscard, hpending.ne']
  unfold SlotState.inspectConnection
  simp only [hkeep, Bool.false_eq_true, if_false]
  rw [← hdiscard]

/-- Before the first byte of an operation only the pending count matters. -/
theorem unreadSends_fresh {x : Lease} {kind : OperationKind} {phase : Phase}
    (hop : x.operation = some ⟨kind, phase⟩)
    (hphase : ∀ conn progress, phase = .running conn progress → progress = .fresh) :
    x.unreadSends = x.pendingResponses := by
  unfold Lease.unreadSends
  rw [hop]
  split
  · rename_i heq
    obtain ⟨-, rfl⟩ := Operation.mk.inj (Option.some.inj heq)
    exact absurd (hphase _ _ rfl) (by simp)
  · rename_i heq
    obtain ⟨-, rfl⟩ := Operation.mk.inj (Option.some.inj heq)
    exact absurd (hphase _ _ rfl) (by simp)
  · rfl

theorem unreadSends_none {x : Lease} (hop : x.operation = none) :
    x.unreadSends = x.pendingResponses := by
  unfold Lease.unreadSends
  rw [hop]

theorem suspend_unreadSends {s : SlotState} {kind : OperationKind} {phase : Phase}
    (hphase : ∀ conn progress, phase = .running conn progress → progress = .fresh) :
    ((s.suspend l kind phase).leases l).unreadSends = (s.leases l).pendingResponses := by
  have hlease : (s.suspend l kind phase).leases l =
      { s.leases l with operation := some ⟨kind, phase⟩ } := SlotState.setLease_self
  rw [hlease]
  exact unreadSends_fresh rfl hphase

theorem getConnection_keeps {s t : SlotState} {conn : ConnId}
    (hget : s.getConnection = some (conn, t)) :
    t.leases = s.leases ∧ t.discardOnNextCheckout = s.discardOnNextCheckout ∧
      t.idleTimeout = s.idleTimeout := by
  unfold SlotState.getConnection at hget
  rcases hpool : s.pool with _ | c | c
  all_goals simp only [hpool, Option.some.injEq, Prod.mk.injEq, reduceCtorEq] at hget
  · obtain ⟨-, rfl⟩ := hget
    exact ⟨rfl, rfl, rfl⟩
  · obtain ⟨-, rfl⟩ := hget
    exact ⟨rfl, rfl, rfl⟩

/-! ### One lemma an event -/

/-- A lease that checks out its connection. -/
theorem Affine.connected {kind : OperationKind} {phase : Phase} {conn : ConnId} {t : SlotState}
    (h : Affine r) (hinv : s'.Inv) (hop : (r.slot.leases l).operation = some ⟨kind, phase⟩)
    (hphase : phase = .checkout ∨ phase = .recheckout)
    (hget : r.slot.getConnection = some (conn, t))
    (hs' : s' = t.inspectConnection l kind conn ∨ s' = t.suspend l kind (.running conn .fresh)) :
    Affine ⟨s', r.unread⟩ := by
  obtain ⟨hleases, hdiscard, -⟩ := getConnection_keeps hget
  have hwaiting : ∀ c progress, phase = .running c progress → progress = .fresh := by
    rintro c progress rfl
    exact absurd hphase (by simp)
  have hsends : (r.unread l).length = (t.leases l).pendingResponses := by
    rw [hleases]
    exact (h.count l).trans (unreadSends_fresh hop hwaiting)
  obtain ⟨-, -, hout, -⟩ := h.inv.inside hop (by rcases hphase with rfl | rfl <;> simp)
  have hothers : ∀ l', l' ≠ l → s'.leases l' = r.slot.leases l' := by
    intro l' hl'
    rw [← hleases]
    rcases hs' with rfl | rfl
    · exact (SlotState.inspectConnection_local kind conn).others l' hl'
    · exact SlotState.setLease_of_ne l' hl'
  have hcount : (s'.leases l).unreadSends = (t.leases l).pendingResponses := by
    rcases hs' with rfl | rfl
    · unfold SlotState.inspectConnection
      simp only
      split_ifs
      · exact suspend_unreadSends (by simp)
      · exact suspend_unreadSends (by simp)
    · exact suspend_unreadSends (by simp)
  -- while a reply is owed, the slot keeps what it has checked out
  have hview : r.unread l ≠ [] → view s' = view t := by
    intro hne
    have hpending : 0 < (t.leases l).pendingResponses := by
      rw [← hsends]
      exact List.length_pos_iff.mpr hne
    rcases hs' with rfl | rfl
    · rw [inspectConnection_of_pending (hdiscard.trans (h.kept l hne)) hpending]
      rfl
    · rfl
  refine h.inside hinv hout hothers (fun _ _ => rfl) (hsends.trans hcount.symm) ?_ ?_
  · intro hne
    exact (congrArg (fun v => v.2.2.2.2.2) (hview hne)).trans (hdiscard.trans (h.kept l hne))
  · intro u hu
    exact ((h.placed l u hu).getConnection hget).congr (hview (List.ne_nil_of_mem hu))

/-- An operation that the lock admits has written and read nothing yet. -/
theorem Affine.locked {kind : OperationKind} {rest : List OperationKind} (h : Affine r)
    (hinv : SlotState.Inv
      ((r.slot.setLease l { r.slot.leases l with waiting := rest }).admitOperation l kind))
    (hop : (r.slot.leases l).operation = none)
    (hadmitted : ¬ (0 < (r.slot.leases l).pendingResponses ∧ kind.change = .none)) :
    Affine ⟨(r.slot.setLease l { r.slot.leases l with waiting := rest }).admitOperation l kind,
      r.unread⟩ := by
  have hlease : (r.slot.setLease l { r.slot.leases l with waiting := rest }).leases l =
      { r.slot.leases l with waiting := rest } := SlotState.setLease_self
  have hpending : ((r.slot.setLease l { r.slot.leases l with waiting := rest }).leases
      l).pendingResponses = (r.slot.leases l).pendingResponses := by rw [hlease]
  have hothers := ((SlotState.setLease_local (s := r.slot) (l := l)
    { r.slot.leases l with waiting := rest }).trans (SlotState.admitOperation_local kind)).others
  unfold SlotState.admitOperation at hinv hothers ⊢
  rw [hpending, if_neg hadmitted] at hinv hothers ⊢
  split_ifs at hinv hothers ⊢
  all_goals
    refine h.frame_lease hinv rfl hothers ?_
    rw [suspend_unreadSends (by simp), hpending, unreadSends_none hop]

/-- A send that has been written is unread on the connection of its lease. -/
theorem Affine.wrote {kind : OperationKind} {conn : ConnId} (h : Affine r)
    (hinv : SlotState.Inv ((r.slot.writeRequest l conn).suspend l kind (.running conn .written)))
    (hop : (r.slot.leases l).operation = some ⟨kind, .running conn .fresh⟩)
    (hkind : kind ≠ .receive) :
    Affine ⟨(r.slot.writeRequest l conn).suspend l kind (.running conn .written),
      r.note (.wrote l)⟩ := by
  obtain ⟨-, -, hout, hdiscard, hpool, hconn, -⟩ := h.inv.inside hop (by simp)
  have hlength := (h.count l).trans (unreadSends_fresh hop (by simp))
  have hplaced : ∀ u ∈ r.unread l,
      Placed ((r.slot.writeRequest l conn).suspend l kind (.running conn .written)) u :=
    fun u hu => (h.placed l u hu).congr rfl
  cases kind with
  | receive => exact absurd rfl hkind
  | call =>
    simp only [note, hop]
    refine h.inside hinv hout SlotState.setLease_of_ne (fun _ _ => rfl) ?_ (fun _ => hdiscard)
      hplaced
    rw [hlength, SlotState.suspend, SlotState.setLease_self]
    rfl
  | send =>
    simp only [note, hop]
    refine h.inside hinv hout SlotState.setLease_of_ne
      (fun l' hl' => Function.update_of_ne hl' _ _) ?_ (fun _ => hdiscard) ?_
    · rw [Function.update_self, List.length_append, hlength, SlotState.suspend,
        SlotState.setLease_self]
      rfl
    · intro u hu
      rw [Function.update_self] at hu
      rcases List.mem_append.mp hu with hbefore | hnew
      · exact hplaced u hbefore
      · obtain rfl := List.mem_singleton.mp hnew
        refine ⟨hconn, fun _ => Or.inr hpool, by simp, fun _ => ?_, by simp⟩
        show SlotState.idleFor _ ≤ 0
        simp [SlotState.idleFor, SlotState.suspend, SlotState.writeRequest, SlotState.setLease,
          hpool]

/-- A receive that has read a reply has read the oldest one. -/
theorem Affine.received {kind : OperationKind} {conn : ConnId} {progress : Progress}
    {reply : Request} {rest : List Request} (h : Affine r)
    (hinv : SlotState.Inv ((r.slot.readReply l conn reply rest).suspend l kind
      (.running conn .replied)))
    (hop : (r.slot.leases l).operation = some ⟨kind, .running conn progress⟩)
    (hreads : kind.readsAt progress = true) :
    Affine ⟨(r.slot.readReply l conn reply rest).suspend l kind (.running conn .replied),
      r.note (.received l)⟩ := by
  obtain ⟨-, -, hout, hdiscard, -⟩ := h.inv.inside hop (by simp)
  have hlength := h.count l
  have hplaced : ∀ u ∈ r.unread l,
      Placed ((r.slot.readReply l conn reply rest).suspend l kind (.running conn .replied)) u :=
    fun u hu => (h.placed l u hu).congr rfl
  unfold Lease.unreadSends at hlength
  cases kind with
  | send => exact absurd hreads (by cases progress <;> decide)
  | call =>
    simp only [note, hop] at hlength ⊢
    refine h.inside hinv hout SlotState.setLease_of_ne (fun _ _ => rfl) ?_ (fun _ => hdiscard)
      hplaced
    rw [hlength, SlotState.suspend, SlotState.setLease_self]
    rfl
  | receive =>
    obtain rfl : progress = .fresh := by
      cases progress
      · rfl
      all_goals exact absurd hreads (by decide)
    simp only [note, hop] at hlength ⊢
    refine h.inside hinv hout SlotState.setLease_of_ne
      (fun l' hl' => Function.update_of_ne hl' _ _) ?_ (fun _ => hdiscard) ?_
    · rw [Function.update_self, List.length_tail, hlength, SlotState.suspend,
        SlotState.setLease_self]
      rfl
    · intro u hu
      rw [Function.update_self] at hu
      exact hplaced u (List.mem_of_mem_tail hu)

/-- A finished operation returns the connection and counts what it left unread. -/
theorem Affine.finished {kind : OperationKind} {conn : ConnId} {progress : Progress} (h : Affine r)
    (hinv : SlotState.Inv (r.slot.finishOperation l kind conn (.ok ())))
    (hop : (r.slot.leases l).operation = some ⟨kind, .running conn progress⟩)
    (hdone : kind.doneAt progress = true)
    (hroom : kind = .send → (r.slot.leases l).pendingResponses < usizeMax) :
    Affine ⟨r.slot.finishOperation l kind conn (.ok ()), r.unread⟩ := by
  obtain ⟨-, -, hout, hdiscard, hpool, -⟩ := h.inv.inside hop (by simp)
  obtain ⟨hview, hsends⟩ := finishOperation_ok r.slot l kind conn
  refine h.inside hinv hout (SlotState.finishOperation_local kind conn _).others (fun _ _ => rfl)
    ?_ (fun _ => ?_) ?_
  · rw [hsends, h.count l, SlotState.recordResponseChange_eq hdone hroom, SlotState.setLease_self]
    unfold Lease.unreadSends
    rw [hop]
    cases kind <;> cases progress <;> first | rfl | exact absurd hdone (by decide)
  · exact (congrArg (fun v => v.2.2.2.2.2) hview).trans hdiscard
  · intro u hu
    exact (h.placed l u hu).returned hpool hview

/-- A dropped lease leaves nothing unread behind. -/
theorem Affine.leaseDropped (h : Affine r) (hinv : SlotState.Inv (r.slot.dropLease l))
    (hop : (r.slot.leases l).operation = none) :
    Affine ⟨r.slot.dropLease l, r.note (.leaseDropped l)⟩ := by
  have hnone : ((r.slot.dropLease l).leases l).unreadSends = 0 := by
    unfold SlotState.dropLease
    simp only
    split_ifs with hpending
    · rw [SlotState.setLease_self, unreadSends_none]
      · simp [SlotState.discardConnectionWithPendingResponse, SlotState.takePermit,
          SlotState.setLease]
      · simp [SlotState.discardConnectionWithPendingResponse, SlotState.takePermit,
          SlotState.setLease, hop]
    · rw [SlotState.setLease_self, unreadSends_none]
      · simp only [SlotState.takePermit, SlotState.setLease, Function.update_self]
        omega
      · simp [SlotState.takePermit, SlotState.setLease, hop]
  by_cases hl : (r.slot.leases l).Outside
  · have hunread : r.note (.leaseDropped l) = r.unread := by
      show Function.update r.unread l [] = r.unread
      rw [← h.outside hl, Function.update_eq_self]
    have hview : view (r.slot.dropLease l) = view r.slot := by
      simp [SlotState.dropLease, hl.pending, view, SlotState.takePermit, SlotState.setLease]
    rw [hunread]
    refine h.frame_lease hinv hview SlotState.dropLease_local.others ?_
    rw [hnone, unreadSends_outside hl]
  · obtain ⟨-, -, hout, -⟩ := h.inv.gate.held_of_not_outside hl
    have hunread : r.note (.leaseDropped l) l = [] := Function.update_self _ _ _
    refine h.inside hinv hout SlotState.dropLease_local.others
      (fun l' hl' => Function.update_of_ne hl' _ _) ?_ ?_ ?_
    · rw [hunread, hnone]
      rfl
    · exact fun hne => absurd hunread hne
    · rw [hunread]
      simp

/-- The pool or the clock moves: nobody's sends are read, and each is placed anew. -/
theorem Affine.moved {move : UnreadSend → UnreadSend} (h : Affine r) (hinv : s'.Inv)
    (hleases : s'.leases = r.slot.leases)
    (hdiscard : s'.discardOnNextCheckout = r.slot.discardOnNextCheckout)
    (hplaced : ∀ u, Placed r.slot u → Placed s' (move u)) :
    Affine ⟨s', fun l => (r.unread l).map move⟩ where
  inv := hinv
  count l := by rw [hleases, List.length_map, h.count l]
  kept l hne := by
    refine hdiscard.trans (h.kept l fun hnil => hne ?_)
    show (r.unread l).map move = []
    rw [hnil, List.map_nil]
  placed l u hu := by
    obtain ⟨v, hv, rfl⟩ := List.mem_map.mp hu
    exact hplaced v (h.placed l v hv)

/-- **Every event keeps the affinity invariant**, unless it wraps a count around. -/
theorem step_affine (hwraps : ¬ r.slot.wrapsCount e) (h : Affine r) (hstep : r.step e = some r') :
    Affine r' := by
  obtain ⟨s', unread'⟩ := r'
  obtain ⟨hsmooth, hslot, hnote⟩ := step_eq_some hstep
  simp only at hslot hnote
  subst hnote
  have hinv := SlotState.step_inv hwraps h.inv hslot
  cases SlotState.step_cases hslot with
  | leaseAcquired hunused =>
    refine h.frame_lease hinv rfl SlotState.setLease_of_ne ?_
    rw [SlotState.setLease_self, hunused]
    rfl
  | @started l kind _ =>
    refine h.frame_lease hinv rfl SlotState.setLease_of_ne ?_
    rw [SlotState.setLease_self]
    rfl
  | @locked l kind rest hop hwaiting =>
    have hadmitted : ¬ (0 < (r.slot.leases l).pendingResponses ∧ kind.change = .none) := by
      rintro ⟨hpending, hchange⟩
      simp [SlotState.smooth, hwaiting, hpending, hchange] at hsmooth
    exact h.locked hinv hop hadmitted
  | @gateGranted l kind hop _ =>
    refine h.frame_lease hinv rfl
      (SlotState.storePermit_local.trans (SlotState.setLease_local _)).others ?_
    rw [suspend_unreadSends (by simp), unreadSends_fresh hop (by simp)]
    simp [SlotState.storePermit, SlotState.setLease]
  | connected hop hget => exact h.connected hinv hop (Or.inl rfl) hget (Or.inl rfl)
  | reconnected hop hget => exact h.connected hinv hop (Or.inr rfl) hget (Or.inr rfl)
  | wrote hop hkind => exact h.wrote hinv hop hkind
  | received hop hreads _ => exact h.received hinv hop hreads
  | finished hop hdone => exact h.finished hinv hop hdone (SlotState.room_of_not_wrapsCount hwraps hop)
  | leaseDropped hop _ _ => exact h.leaseDropped hinv hop
  | replaced hpool =>
    exact h.moved hinv rfl rfl fun u hu => hu.replaced hpool hsmooth
  | answered _ => exact h.frame hinv rfl fun _ => rfl
  | elapsed => exact h.moved hinv rfl rfl fun u hu => hu.elapsed ⟨_, rfl⟩
  | checkoutFailed _ _ | failed _ _ | cancelled _ | unqueued _ =>
    exact absurd hsmooth Bool.false_ne_true

/-! ## Whole runs -/

/-- The idle time-out is a setting. -/
theorem step_idleTimeout (h : r.step e = some r') : r'.slot.idleTimeout = r.slot.idleTimeout := by
  obtain ⟨hsmooth, hslot, -⟩ := step_eq_some h
  generalize r'.slot = s' at hslot
  cases SlotState.step_cases hslot with
  | leaseAcquired _ | started _ | gateGranted _ _ | wrote _ _ | received _ _ _ | replaced _
  | answered _ | elapsed => rfl
  | locked _ _ =>
    unfold SlotState.admitOperation
    split_ifs <;> rfl
  | connected _ hget =>
    refine Eq.trans ?_ (getConnection_keeps hget).2.2
    unfold SlotState.inspectConnection
    simp only
    split_ifs <;> rfl
  | reconnected _ hget => exact (getConnection_keeps hget).2.2
  | finished _ _ => exact congrArg (fun v => v.2.2.2.2.1) (finishOperation_ok _ _ _ _).1
  | leaseDropped _ _ _ =>
    unfold SlotState.dropLease
    simp only
    split_ifs <;> rfl
  | checkoutFailed _ _ | failed _ _ | cancelled _ | unqueued _ =>
    exact absurd hsmooth Bool.false_ne_true

theorem affine_start (idleTimeout : ℕ) : Affine (start idleTimeout) where
  inv := SlotState.inv_new idleTimeout
  count := fun _ => rfl
  kept := fun _ hne => absurd rfl hne
  placed := fun _ _ hu => absurd hu (by simp [start])

/-! ### The connection of a receive -/

/-- **Where a receive reads.**  In every run without failures and cancellations and in which no
count wraps around, a receive of a lease that is owed a reply reads from the connection on which
the oldest unread send of the lease was written exactly when the pool has closed no connection
since.  The pool can only have done so if that connection was checked in for `idle_timeout` without
a break. -/
theorem receive_connection_iff {idleTimeout : ℕ} {events : List SlotEvent} {conn : ConnId}
    (hwraps : Trace.Never step (fun r e => r.slot.wrapsCount e) (start idleTimeout) events)
    (hrun : Trace.exec step (start idleTimeout) events = some r)
    (hreceive : (r.slot.leases l).operation = some ⟨.receive, .running conn .fresh⟩)
    (hpending : 0 < (r.slot.leases l).pendingResponses) :
    ∃ oldest rest, r.unread l = oldest :: rest ∧
      (conn = oldest.conn ↔ oldest.closed = false) ∧
      (oldest.closed = true → idleTimeout ≤ oldest.longestIdle) := by
  have htimeout : r.slot.idleTimeout = idleTimeout := by
    have hkeeps : ∀ r e r', r.slot.idleTimeout = idleTimeout → step r e = some r' →
        r'.slot.idleTimeout = idleTimeout := fun _ _ _ hr hstep => (step_idleTimeout hstep).trans hr
    have hkept := Trace.exec_invariant hkeeps rfl hrun
    exact hkept
  have haffine : Affine r :=
    hwraps.invariant (fun _ _ _ => step_affine) (affine_start _) hrun
  have hlength := (haffine.count l).trans (unreadSends_fresh hreceive (by simp))
  obtain ⟨-, -, -, -, hpool, -⟩ := haffine.inv.inside hreceive (by simp)
  cases hunread : r.unread l with
  | nil =>
    rw [hunread, List.length_nil] at hlength
    omega
  | cons oldest rest =>
    have hplaced := haffine.placed l oldest (by simp [hunread])
    refine ⟨oldest, rest, rfl, ⟨?_, ?_⟩, htimeout ▸ hplaced.overdue⟩
    · rintro rfl
      cases hclosed : oldest.closed with
      | false => rfl
      | true => exact absurd hpool (hplaced.gone hclosed).2
    · intro hopen
      have hhere := hplaced.here hopen
      rw [hpool] at hhere
      simpa using hhere

/-- A send, a delay, and the receive of its reply. -/
def delayedReceive (delay : ℕ) (closes : Bool) : List SlotEvent :=
  ([.leaseAcquired 0, .started 0 .send, .locked 0, .gateGranted 0, .connected 0, .wrote 0,
    .finished 0, .answered 0, .elapsed delay] : List SlotEvent) ++
    (if closes then [.replaced] else [] : List SlotEvent) ++
    ([.started 0 .receive, .locked 0, .connected 0] : List SlotEvent)

/-- Within the idle time-out the receive finds the connection of its send. -/
theorem receive_connection_iff_in_time :
    ∃ r oldest rest, Trace.exec step (start 50) (delayedReceive 49 false) = some r ∧
      (r.slot.leases 0).operation = some ⟨.receive, .running 0 .fresh⟩ ∧
      r.unread 0 = oldest :: rest ∧ oldest.closed = false ∧ 0 = oldest.conn := by
  have hrun : (Trace.exec step (start 50) (delayedReceive 49 false)).isSome = true := by decide
  obtain ⟨oldest, rest, hunread, hiff, -⟩ :=
    receive_connection_iff (l := 0) (by decide) (Option.some_get hrun).symm rfl Nat.one_pos
  have hclosed : oldest.closed = false := by
    have hhead : [⟨0, false, 49⟩] = oldest :: rest := hunread
    rw [← (List.cons.inj hhead).1]
  exact ⟨_, oldest, rest, (Option.some_get hrun).symm, rfl, hunread, hclosed, hiff.mpr hclosed⟩

/-- **A pending reply does not keep its connection.**  After an idle time-out between the send and
the receive the pool closes the connection, and the receive reads from a new one. -/
theorem delayedReceive_moves :
    ∃ r oldest, Trace.exec step (start 50) (delayedReceive 50 true) = some r ∧
      0 < (r.slot.leases 0).pendingResponses ∧
      (r.slot.leases 0).operation = some ⟨.receive, .running 1 .fresh⟩ ∧
      (r.unread 0).head? = some oldest ∧ oldest.conn = 0 := by
  have hrun : (Trace.exec step (start 50) (delayedReceive 50 true)).isSome = true := by decide
  exact ⟨_, ⟨0, true, 50⟩, (Option.some_get hrun).symm, Nat.one_pos, rfl, rfl, rfl⟩

end LeaseRun

end Wireframe
