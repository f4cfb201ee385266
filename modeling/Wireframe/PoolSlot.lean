/-
# One slot of the client pool

A slot is one physical socket behind a connection pool of size one, shared by any number
of leases (`src/client/pool/slot.rs`, `src/client/pool/lease.rs`).  A lease runs one
operation at a time: it takes its own lock, is admitted through the slot's protocol gate,
checks the connection out and talks to the server.  Every `await` is a phase in which the
operation can be cancelled, and between two phases the code runs without interruption; so
an event of the model is one such uninterrupted piece, a cancellation, or a move of the
environment (the server answers, the pool replaces an idle connection, time passes).

The connection pool and the server are the environment's: the pool hands out the
connection it holds or a new one, to one holder at a time and never a broken one, and the
server answers requests in order on the socket they arrived on.
-/
import Mathlib.Tactic
import Wireframe.Fragment

namespace Wireframe

/-! ## Errors -/

/-- Errors emitted by the client (the causes the source wraps are left out). -/
inductive ClientError where
  | wireframe
  | serialize
  | preambleEncode
  | preambleWrite
  | preambleRead
  | preambleTimeout
  | correlationMismatch (expected received : Option UInt64)
  | streamCorrelationMismatch (expected received : Option UInt64)
  | poolSaturated (limit : ℕ)
  | poolClosed
  | schedulerFailed
  deriving DecidableEq, Repr

/-- Whether a pooled connection must be replaced after this error. -/
def ClientError.shouldRecycleConnection : ClientError → Bool
  | .wireframe | .preambleWrite | .preambleRead | .preambleTimeout
  | .correlationMismatch _ _ | .streamCorrelationMismatch _ _ => true
  | .serialize | .preambleEncode | .poolSaturated _ | .poolClosed | .schedulerFailed => false

/-! ## The state of a slot -/

/-- How a completed lease operation changes its split-phase response state. -/
inductive PendingResponseChange where
  | add
  | remove
  | none
  deriving DecidableEq, Repr

/-- The operations of a lease; the envelope variants behave like these. -/
inductive OperationKind where
  | send
  | receive
  | call
  deriving DecidableEq, Repr

/-- The response change each operation is dispatched with. -/
def OperationKind.change : OperationKind → PendingResponseChange
  | .send => .add
  | .receive => .remove
  | .call => .none

abbrev LeaseId := ℕ

abbrev ConnId := ℕ

/-- A request on the wire, or the reply to it: the lease that wrote it and a serial number. -/
structure Request where
  lease : LeaseId
  serial : ℕ
  deriving DecidableEq, Repr

/-- One socket: requests the server has not answered yet and replies nobody has read. -/
structure Wire where
  unanswered : List Request
  unread : List Request
  deriving DecidableEq, Repr

/-- The requests whose replies are still to be read, in the order they will be. -/
def Wire.outstanding (w : Wire) : List Request := w.unread ++ w.unanswered

/-- How far an operation has come on its connection. -/
inductive Progress where
  | fresh
  | written
  | replied
  deriving DecidableEq, Repr

/-- Where an operation that holds its lease's lock is suspended. -/
inductive Phase where
  /-- waiting for the slot's protocol gate -/
  | gate
  /-- waiting for a connection -/
  | checkout
  /-- waiting for the replacement of a discarded connection -/
  | recheckout
  /-- the client operation is in flight -/
  | running (conn : ConnId) (progress : Progress)
  deriving DecidableEq, Repr

/-- An operation in progress. -/
structure Operation where
  kind : OperationKind
  phase : Phase
  deriving DecidableEq, Repr

/-- The life of a lease. -/
inductive LeaseStatus where
  | unused
  | alive
  | dropped
  deriving DecidableEq, Repr

/-- One lease: its unread-response count (an atomic machine word), whether it stores the gate's
permit, the operation that holds its lock and those queued on it. -/
structure Lease where
  status : LeaseStatus
  pendingResponses : ℕ
  pendingResponsePermit : Bool
  operation : Option Operation
  waiting : List OperationKind
  deriving DecidableEq, Repr

/-- A lease that has not been handed out. -/
def Lease.unused : Lease := ⟨.unused, 0, false, none, []⟩

/-- A lease as the scheduler hands it out. -/
def Lease.new : Lease := ⟨.alive, 0, false, none, []⟩

/-- The connection pool of size one. -/
inductive Resource where
  | absent
  | idle (conn : ConnId)
  | out (conn : ConnId)
  deriving DecidableEq, Repr

/-- The slot, its leases and the sockets behind it; `reads` records who read which reply. -/
structure SlotState where
  idleTimeout : ℕ
  protocolGate : ℕ
  discardOnNextCheckout : Bool
  lastReturnedAt : Option Instant
  now : Instant
  pool : Resource
  nextConn : ConnId
  wires : ConnId → Wire
  leases : LeaseId → Lease
  nextSerial : ℕ
  reads : List (LeaseId × Request)

namespace SlotState

/-- A slot nobody has used: the gate is free and there is no connection yet. -/
def new (idleTimeout : ℕ) : SlotState where
  idleTimeout := idleTimeout
  protocolGate := 1
  discardOnNextCheckout := false
  lastReturnedAt := none
  now := 0
  pool := .absent
  nextConn := 0
  wires := fun _ => ⟨[], []⟩
  leases := fun _ => Lease.unused
  nextSerial := 0
  reads := []

/-! ## The pieces of a lease operation -/

/-- Replace the lease `l`. -/
def setLease (s : SlotState) (l : LeaseId) (lease : Lease) : SlotState :=
  { s with leases := Function.update s.leases l lease }

/-- Suspend the operation of `l` in a phase. -/
def suspend (s : SlotState) (l : LeaseId) (kind : OperationKind) (phase : Phase) : SlotState :=
  s.setLease l { s.leases l with operation := some ⟨kind, phase⟩ }

/-- The operation of `l` returns or is dropped: the lease's lock is free again. -/
def endOperation (s : SlotState) (l : LeaseId) : SlotState :=
  s.setLease l { s.leases l with operation := none }

/-- `drop(pending_response_permit.take())`: a stored permit goes back to the gate. -/
def takePermit (s : SlotState) (l : LeaseId) : SlotState :=
  { s with protocolGate := s.protocolGate + (if (s.leases l).pendingResponsePermit then 1 else 0) }.setLease
    l { s.leases l with pendingResponsePermit := false }

/-- Retire the socket because this lease will not read its reply. -/
def discardConnectionWithPendingResponse (s : SlotState) (l : LeaseId) : SlotState :=
  { s with discardOnNextCheckout := true }.setLease l { s.leases l with pendingResponses := 0 }

/-- Reserve the socket before checkout while an earlier response is pending. -/
def admitOperation (s : SlotState) (l : LeaseId) (kind : OperationKind) : SlotState :=
  if 0 < (s.leases l).pendingResponses ∧ kind.change = .none then
    (s.discardConnectionWithPendingResponse l).takePermit l
  else if (s.leases l).pendingResponses = 0 then s.suspend l kind .gate
  else s.suspend l kind .checkout

/-- The gate's permit arrives and is stored; a permit stored before is dropped. -/
def storePermit (s : SlotState) (l : LeaseId) : SlotState :=
  { (s.takePermit l) with protocolGate := (s.takePermit l).protocolGate - 1 }.setLease l
    { s.leases l with pendingResponsePermit := true }

/-- Obtain the pooled connection, or a new one when the pool has none. -/
def getConnection (s : SlotState) : Option (ConnId × SlotState) :=
  match s.pool with
  | .absent => some (s.nextConn, { s with pool := .out s.nextConn, nextConn := s.nextConn + 1 })
  | .idle conn => some (conn, { s with pool := .out conn })
  | .out _ => none

/-- Determine whether the last healthy return exceeded the idle lifetime. -/
def shouldRecycleIdle (s : SlotState) : Bool :=
  match s.lastReturnedAt with
  | some returnedAt => decide (s.idleTimeout ≤ saturatingDurationSince s.now returnedAt)
  | none => false

/-- The part of `checkout` behind the first connection: claim a requested discard, check
the idle time, and either keep the connection or break it and ask for another. -/
def inspectConnection (s : SlotState) (l : LeaseId) (kind : OperationKind) (conn : ConnId) : SlotState :=
  let discardRequested := s.discardOnNextCheckout
  let s := { s with discardOnNextCheckout := false }
  let isIdleExpired := decide ((s.leases l).pendingResponses = 0) && s.shouldRecycleIdle
  if discardRequested || isIdleExpired then
    { s with pool := .absent, lastReturnedAt := none }.suspend l kind .recheckout
  else s.suspend l kind (.running conn .fresh)

/-- A failed checkout: a reply still owed is given up, and the gate returns to the slot. -/
def failCheckout (s : SlotState) (l : LeaseId) : SlotState :=
  let s := if 0 < (s.leases l).pendingResponses then s.discardConnectionWithPendingResponse l else s
  (s.takePermit l).endOperation l

/-- Dropping the checked-out connection returns it to the pool unless it is broken. -/
def dropConnection (s : SlotState) (conn : ConnId) (isBroken : Bool) : SlotState :=
  if isBroken then { s with pool := .absent, lastReturnedAt := none }
  else { s with pool := .idle conn, lastReturnedAt := some s.now }

/-- Record whether a split-phase exchange still has an unread response. -/
def recordResponseChange (s : SlotState) (l : LeaseId) : PendingResponseChange → SlotState
  -- `fetch_add` wraps around in every build, `saturating_sub` stops at zero
  | .add =>
    s.setLease l
      { s.leases l with pendingResponses := wrappingAdd (s.leases l).pendingResponses 1 }
  | .remove => s.setLease l { s.leases l with pendingResponses := (s.leases l).pendingResponses - 1 }
  | .none => s

/-- Forget every response `l` is waiting for. -/
def clearPending (s : SlotState) (l : LeaseId) : SlotState :=
  s.setLease l { s.leases l with pendingResponses := 0 }

/-- Release the gate unless the socket must stay reserved for a reply. -/
def finishProtocolPermit (s : SlotState) (l : LeaseId) : SlotState :=
  if 0 < (s.leases l).pendingResponses then s else s.takePermit l

/-- The end of `dispatch_on_connection`: update the pending count, return the connection,
and keep the gate exactly while a response is pending. -/
def finishOperation (s : SlotState) (l : LeaseId) (kind : OperationKind) (conn : ConnId)
    (result : Except ClientError Unit) : SlotState :=
  match result with
  | .ok () =>
    (((s.recordResponseChange l kind.change).dropConnection conn false).finishProtocolPermit
      l).endOperation l
  | .error err =>
    if err.shouldRecycleConnection then
      (((s.clearPending l).dropConnection conn true).takePermit l).endOperation l
    else ((s.dropConnection conn false).finishProtocolPermit l).endOperation l

/-- Dropping an operation that holds the lease's lock: only a checked-out connection has
a guard, which breaks it and clears the pending count. -/
def cancelOperation (s : SlotState) (l : LeaseId) : Phase → SlotState
  | .running conn _ => ((s.clearPending l).dropConnection conn true).endOperation l
  | .gate | .checkout | .recheckout => s.endOperation l

/-- Dropping the lease itself. -/
def dropLease (s : SlotState) (l : LeaseId) : SlotState :=
  let s := if 0 < (s.leases l).pendingResponses then s.discardConnectionWithPendingResponse l else s
  let s := s.takePermit l
  s.setLease l { s.leases l with status := .dropped }

end SlotState

/-! ## Events -/

/-- What can happen next: a piece of one lease's code, a cancellation, or a move of the
connection pool, the server or the clock. -/
inductive SlotEvent where
  /-- a lease on this slot is handed out, under an identifier never used before -/
  | leaseAcquired (l : LeaseId)
  /-- an operation is started and queues for its lease's lock -/
  | started (l : LeaseId) (kind : OperationKind)
  /-- the first queued operation takes the lock and is admitted -/
  | locked (l : LeaseId)
  /-- the protocol gate is granted -/
  | gateGranted (l : LeaseId)
  /-- the pool hands out a connection -/
  | connected (l : LeaseId)
  /-- the pool fails to hand out a connection -/
  | checkoutFailed (l : LeaseId)
  /-- the request has been written -/
  | wrote (l : LeaseId)
  /-- one reply has been read -/
  | received (l : LeaseId)
  /-- the client operation returns `Ok` -/
  | finished (l : LeaseId)
  /-- the client operation returns an error -/
  | failed (l : LeaseId) (err : ClientError)
  /-- the operation that holds the lock is dropped -/
  | cancelled (l : LeaseId)
  /-- a queued operation is dropped -/
  | unqueued (l : LeaseId) (position : ℕ)
  /-- the lease is dropped -/
  | leaseDropped (l : LeaseId)
  /-- the pool closes its idle connection -/
  | replaced
  /-- the server answers the oldest request on a socket -/
  | answered (conn : ConnId)
  /-- time passes -/
  | elapsed (duration : ℕ)
  deriving DecidableEq, Repr

/-- Whether an operation of this kind reads a reply at this point. -/
def OperationKind.readsAt : OperationKind → Progress → Bool
  | .receive, .fresh => true
  | .call, .written => true
  | _, _ => false

/-- Whether an operation of this kind is through. -/
def OperationKind.doneAt : OperationKind → Progress → Bool
  | .send, .written => true
  | .receive, .replied => true
  | .call, .replied => true
  | _, _ => false

namespace SlotState

/-- Append a request of lease `l` to a socket. -/
def writeRequest (s : SlotState) (l : LeaseId) (conn : ConnId) : SlotState :=
  { s with
    wires := Function.update s.wires conn
      { s.wires conn with unanswered := (s.wires conn).unanswered ++ [⟨l, s.nextSerial⟩] }
    nextSerial := s.nextSerial + 1 }

/-- Lease `l` takes the reply off a socket and leaves the others. -/
def readReply (s : SlotState) (l : LeaseId) (conn : ConnId) (reply : Request)
    (rest : List Request) : SlotState :=
  { s with
    wires := Function.update s.wires conn { s.wires conn with unread := rest }
    reads := s.reads ++ [(l, reply)] }

/-- One event, when it can happen in this state. -/
def step (s : SlotState) : SlotEvent → Option SlotState
  | .leaseAcquired l =>
    if s.leases l = Lease.unused then some (s.setLease l Lease.new) else none
  | .started l kind =>
    if (s.leases l).status = .alive then
      some (s.setLease l { s.leases l with waiting := (s.leases l).waiting ++ [kind] })
    else none
  | .locked l =>
    match (s.leases l).operation, (s.leases l).waiting with
    | none, kind :: rest =>
      some ((s.setLease l { s.leases l with waiting := rest }).admitOperation l kind)
    | _, _ => none
  | .gateGranted l =>
    match (s.leases l).operation with
    | some ⟨kind, .gate⟩ =>
      if 0 < s.protocolGate then some ((s.storePermit l).suspend l kind .checkout) else none
    | _ => none
  | .connected l =>
    match (s.leases l).operation with
    | some ⟨kind, .checkout⟩ =>
      s.getConnection.map fun out => out.2.inspectConnection l kind out.1
    | some ⟨kind, .recheckout⟩ =>
      s.getConnection.map fun out => out.2.suspend l kind (.running out.1 .fresh)
    | _ => none
  | .checkoutFailed l =>
    match (s.leases l).operation with
    | some ⟨_, .checkout⟩ => some (s.failCheckout l)
    | some ⟨_, .recheckout⟩ => some (s.failCheckout l)
    | _ => none
  | .wrote l =>
    match (s.leases l).operation with
    | some ⟨kind, .running conn .fresh⟩ =>
      if kind = .receive then none
      else some ((s.writeRequest l conn).suspend l kind (.running conn .written))
    | _ => none
  | .received l =>
    match (s.leases l).operation with
    | some ⟨kind, .running conn progress⟩ =>
      if kind.readsAt progress then
        match (s.wires conn).unread with
        | reply :: rest =>
          some ((s.readReply l conn reply rest).suspend l kind (.running conn .replied))
        | [] => none
      else none
    | _ => none
  | .finished l =>
    match (s.leases l).operation with
    | some ⟨kind, .running conn progress⟩ =>
      if kind.doneAt progress then some (s.finishOperation l kind conn (.ok ())) else none
    | _ => none
  | .failed l err =>
    match (s.leases l).operation with
    | some ⟨kind, .running conn progress⟩ =>
      -- only serialization fails without recycling, and it comes before the first byte
      if err.shouldRecycleConnection || decide (progress = .fresh) then
        some (s.finishOperation l kind conn (.error err))
      else none
    | _ => none
  | .cancelled l =>
    match (s.leases l).operation with
    | some ⟨_, phase⟩ => some (s.cancelOperation l phase)
    | none => none
  | .unqueued l position =>
    if position < (s.leases l).waiting.length then
      some (s.setLease l { s.leases l with waiting := (s.leases l).waiting.eraseIdx position })
    else none
  | .leaseDropped l =>
    -- every operation borrows the lease, so none can be in progress
    match (s.leases l).operation, (s.leases l).waiting with
    | none, [] => if (s.leases l).status = .alive then some (s.dropLease l) else none
    | _, _ => none
  | .replaced =>
    match s.pool with
    | .idle _ => some { s with pool := .absent }
    | _ => none
  | .answered conn =>
    match (s.wires conn).unanswered with
    | request :: rest =>
      some { s with
        wires := Function.update s.wires conn ⟨rest, (s.wires conn).unread ++ [request]⟩ }
    | [] => none
  | .elapsed duration => some { s with now := s.now + duration }

/-! ## What an event can do -/

/-- The events again, each with what it found in the state; every fact about a step is
proved by cases on this relation. -/
inductive Step (s : SlotState) : SlotEvent → SlotState → Prop where
  | leaseAcquired {l : LeaseId} (hunused : s.leases l = Lease.unused) :
      Step s (.leaseAcquired l) (s.setLease l Lease.new)
  | started {l : LeaseId} {kind : OperationKind} (halive : (s.leases l).status = .alive) :
      Step s (.started l kind)
        (s.setLease l { s.leases l with waiting := (s.leases l).waiting ++ [kind] })
  | locked {l : LeaseId} {kind : OperationKind} {rest : List OperationKind}
      (hop : (s.leases l).operation = none) (hwaiting : (s.leases l).waiting = kind :: rest) :
      Step s (.locked l) ((s.setLease l { s.leases l with waiting := rest }).admitOperation l kind)
  | gateGranted {l : LeaseId} {kind : OperationKind}
      (hop : (s.leases l).operation = some ⟨kind, .gate⟩) (hgate : 0 < s.protocolGate) :
      Step s (.gateGranted l) ((s.storePermit l).suspend l kind .checkout)
  | connected {l : LeaseId} {kind : OperationKind} {conn : ConnId} {t : SlotState}
      (hop : (s.leases l).operation = some ⟨kind, .checkout⟩)
      (hget : s.getConnection = some (conn, t)) :
      Step s (.connected l) (t.inspectConnection l kind conn)
  | reconnected {l : LeaseId} {kind : OperationKind} {conn : ConnId} {t : SlotState}
      (hop : (s.leases l).operation = some ⟨kind, .recheckout⟩)
      (hget : s.getConnection = some (conn, t)) :
      Step s (.connected l) (t.suspend l kind (.running conn .fresh))
  | checkoutFailed {l : LeaseId} {kind : OperationKind} {phase : Phase}
      (hop : (s.leases l).operation = some ⟨kind, phase⟩)
      (hphase : phase = .checkout ∨ phase = .recheckout) :
      Step s (.checkoutFailed l) (s.failCheckout l)
  | wrote {l : LeaseId} {kind : OperationKind} {conn : ConnId}
      (hop : (s.leases l).operation = some ⟨kind, .running conn .fresh⟩)
      (hkind : kind ≠ .receive) :
      Step s (.wrote l) ((s.writeRequest l conn).suspend l kind (.running conn .written))
  | received {l : LeaseId} {kind : OperationKind} {conn : ConnId} {progress : Progress}
      {reply : Request} {rest : List Request}
      (hop : (s.leases l).operation = some ⟨kind, .running conn progress⟩)
      (hreads : kind.readsAt progress = true) (hunread : (s.wires conn).unread = reply :: rest) :
      Step s (.received l)
        ((s.readReply l conn reply rest).suspend l kind (.running conn .replied))
  | finished {l : LeaseId} {kind : OperationKind} {conn : ConnId} {progress : Progress}
      (hop : (s.leases l).operation = some ⟨kind, .running conn progress⟩)
      (hdone : kind.doneAt progress = true) :
      Step s (.finished l) (s.finishOperation l kind conn (.ok ()))
  | failed {l : LeaseId} {err : ClientError} {kind : OperationKind} {conn : ConnId}
      {progress : Progress}
      (hop : (s.leases l).operation = some ⟨kind, .running conn progress⟩)
      (hwhen : err.shouldRecycleConnection = true ∨ progress = .fresh) :
      Step s (.failed l err) (s.finishOperation l kind conn (.error err))
  | cancelled {l : LeaseId} {op : Operation} (hop : (s.leases l).operation = some op) :
      Step s (.cancelled l) (s.cancelOperation l op.phase)
  | unqueued {l : LeaseId} {position : ℕ} (hposition : position < (s.leases l).waiting.length) :
      Step s (.unqueued l position)
        (s.setLease l { s.leases l with waiting := (s.leases l).waiting.eraseIdx position })
  | leaseDropped {l : LeaseId} (hop : (s.leases l).operation = none)
      (hwaiting : (s.leases l).waiting = []) (halive : (s.leases l).status = .alive) :
      Step s (.leaseDropped l) (s.dropLease l)
  | replaced {conn : ConnId} (hpool : s.pool = .idle conn) :
      Step s .replaced { s with pool := .absent }
  | answered {conn : ConnId} {request : Request} {rest : List Request}
      (hunanswered : (s.wires conn).unanswered = request :: rest) :
      Step s (.answered conn)
        { s with wires := Function.update s.wires conn ⟨rest, (s.wires conn).unread ++ [request]⟩ }
  | elapsed {duration : ℕ} : Step s (.elapsed duration) { s with now := s.now + duration }

/-- **Inversion**: an event that happens is one of the cases of `Step`. -/
theorem step_cases {s s' : SlotState} {e : SlotEvent} (h : s.step e = some s') : s.Step e s' := by
  cases e with
  | leaseAcquired l =>
    obtain ⟨hunused, rfl⟩ : s.leases l = Lease.unused ∧ _ = s' := by simpa [step] using h
    exact .leaseAcquired hunused
  | started l kind =>
    obtain ⟨halive, rfl⟩ : (s.leases l).status = .alive ∧ _ = s' := by simpa [step] using h
    exact .started halive
  | locked l =>
    simp only [step] at h
    split at h
    · rename_i kind rest hop hwaiting
      cases h
      exact .locked hop hwaiting
    · cases h
  | gateGranted l =>
    rcases hop : (s.leases l).operation with _ | ⟨kind, _ | _ | _ | _⟩ <;>
      simp only [step, hop, Option.ite_none_right_eq_some, Option.some.injEq, reduceCtorEq] at h
    obtain ⟨hgate, rfl⟩ := h
    exact .gateGranted hop hgate
  | connected l =>
    rcases hop : (s.leases l).operation with _ | ⟨kind, _ | _ | _ | _⟩ <;>
      simp only [step, hop, Option.map_eq_some_iff, reduceCtorEq] at h
    · obtain ⟨⟨conn, t⟩, hget, rfl⟩ := h
      exact .connected hop hget
    · obtain ⟨⟨conn, t⟩, hget, rfl⟩ := h
      exact .reconnected hop hget
  | checkoutFailed l =>
    rcases hop : (s.leases l).operation with _ | ⟨kind, _ | _ | _ | _⟩ <;>
      simp only [step, hop, Option.some.injEq, reduceCtorEq] at h
    · subst h
      exact .checkoutFailed hop (Or.inl rfl)
    · subst h
      exact .checkoutFailed hop (Or.inr rfl)
  | wrote l =>
    rcases hop : (s.leases l).operation with _ | ⟨kind, _ | _ | _ | ⟨conn, _ | _ | _⟩⟩ <;>
      simp only [step, hop, Option.ite_none_left_eq_some, Option.some.injEq, reduceCtorEq] at h
    obtain ⟨hkind, rfl⟩ := h
    exact .wrote hop hkind
  | received l =>
    rcases hop : (s.leases l).operation with _ | ⟨kind, _ | _ | _ | ⟨conn, progress⟩⟩ <;>
      simp only [step, hop, Option.ite_none_right_eq_some, reduceCtorEq] at h
    obtain ⟨hreads, h⟩ := h
    rcases hunread : (s.wires conn).unread with _ | ⟨reply, rest⟩ <;>
      simp only [hunread, Option.some.injEq, reduceCtorEq] at h
    subst h
    exact .received hop hreads hunread
  | finished l =>
    rcases hop : (s.leases l).operation with _ | ⟨kind, _ | _ | _ | ⟨conn, progress⟩⟩ <;>
      simp only [step, hop, Option.ite_none_right_eq_some, Option.some.injEq, reduceCtorEq] at h
    obtain ⟨hdone, rfl⟩ := h
    exact .finished hop hdone
  | failed l err =>
    rcases hop : (s.leases l).operation with _ | ⟨kind, _ | _ | _ | ⟨conn, progress⟩⟩ <;>
      simp only [step, hop, Option.ite_none_right_eq_some, Option.some.injEq, Bool.or_eq_true,
        decide_eq_true_eq, reduceCtorEq] at h
    obtain ⟨hwhen, rfl⟩ := h
    exact .failed hop hwhen
  | cancelled l =>
    rcases hop : (s.leases l).operation with _ | op <;>
      simp only [step, hop, Option.some.injEq, reduceCtorEq] at h
    subst h
    exact .cancelled hop
  | unqueued l position =>
    obtain ⟨hposition, rfl⟩ : position < (s.leases l).waiting.length ∧ _ = s' := by
      simpa [step] using h
    exact .unqueued hposition
  | leaseDropped l =>
    rcases hop : (s.leases l).operation with _ | op <;>
      rcases hwaiting : (s.leases l).waiting with _ | ⟨kind, rest⟩ <;>
      simp only [step, hop, hwaiting, Option.ite_none_right_eq_some, Option.some.injEq,
        reduceCtorEq] at h
    obtain ⟨halive, rfl⟩ := h
    exact .leaseDropped hop hwaiting halive
  | replaced =>
    rcases hpool : s.pool with _ | conn | conn <;>
      simp only [step, hpool, Option.some.injEq, reduceCtorEq] at h
    subst h
    exact .replaced hpool
  | answered conn =>
    rcases hunanswered : (s.wires conn).unanswered with _ | ⟨request, rest⟩ <;>
      simp only [step, hunanswered, Option.some.injEq, reduceCtorEq] at h
    subst h
    exact .answered hunanswered
  | elapsed duration =>
    obtain rfl : _ = s' := by simpa [step] using h
    exact .elapsed

end SlotState

end Wireframe
