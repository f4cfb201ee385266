/-
# Who reads which reply

The protocol gate has a single permit.  The lease that stores it is the only one past the
gate, and the only one that may be owed replies; every other lease is *outside*.  While a
connection sits in the pool, every reply still to come on it is owed to the lease inside
the gate, or the connection is marked to be discarded before anyone uses it.

`GateState` is this invariant.  It survives every event (`step_inv`), cancellations at
every point included, so no lease ever reads a reply to another lease's request, as long as
no count of unread responses wraps around (`wrapsCount`).  A count that does starts again at
zero, and the gate is released with every reply still to come (`overrun_misreads`).
-/
import Mathlib.Tactic
import Wireframe.PoolSlot
import Wireframe.Trace

namespace Wireframe

/-- A lease that stores no permit and is owed no reply, and whose operation, if it has
one, still waits for the gate. -/
structure Lease.Outside (x : Lease) : Prop where
  permit : x.pendingResponsePermit = false
  pending : x.pendingResponses = 0
  phase : ∀ op, x.operation = some op → op.phase = .gate

/-- How many replies may be outstanding on its connection while an operation of a lease
with `pending` unread responses is in flight. -/
def OperationKind.owed : OperationKind → Progress → ℕ → ℕ
  | _, .fresh, pending => pending
  | _, .written, pending => pending + 1
  | .receive, .replied, pending => pending - 1
  | _, .replied, pending => pending

namespace SlotState

/-! ## The invariant -/

/-- Every reply still to be read on `conn` is owed to `l`, and there are at most `n`. -/
def OwedTo (s : SlotState) (conn : ConnId) (l : LeaseId) (n : ℕ) : Prop :=
  (∀ r ∈ (s.wires conn).outstanding, r.lease = l) ∧ (s.wires conn).outstanding.length ≤ n

/-- The connection in the pool owes replies to `l` alone, unless it is to be discarded. -/
def IdleOwedTo (s : SlotState) (l : LeaseId) (n : ℕ) : Prop :=
  ∀ conn, s.pool = .idle conn →
    conn < s.nextConn ∧ (s.discardOnNextCheckout = true ∨ s.OwedTo conn l n)

/-- What the slot looks like while `l` stores the permit, has `n` unread responses, and its
operation is where the last argument says. -/
def Consistent (s : SlotState) (l : LeaseId) (n : ℕ) : Option Operation → Prop
  | some ⟨kind, .running conn progress⟩ =>
    s.discardOnNextCheckout = false ∧ s.pool = .out conn ∧ conn < s.nextConn ∧
      s.OwedTo conn l (kind.owed progress n)
  | some ⟨_, .recheckout⟩ => s.discardOnNextCheckout = false ∧ s.IdleOwedTo l n
  | some ⟨_, .checkout⟩ => s.IdleOwedTo l n
  | some ⟨_, .gate⟩ => s.IdleOwedTo l n
  | none => s.IdleOwedTo l n

/-- Either the gate is free and every lease is outside, or one lease stores its permit and
every other lease is outside. -/
inductive GateState (s : SlotState) : Prop where
  | free (hgate : s.protocolGate = 1) (hout : ∀ l, (s.leases l).Outside)
      (hidle : ∀ l, s.IdleOwedTo l 0)
  | held (l : LeaseId) (hgate : s.protocolGate = 0)
      (hpermit : (s.leases l).pendingResponsePermit = true)
      (hout : ∀ l', l' ≠ l → (s.leases l').Outside)
      (hcons : s.Consistent l (s.leases l).pendingResponses (s.leases l).operation)

/-- The event completes a send of a lease that already counts as many unread responses as a
machine word holds, so that the count starts again at zero. -/
def wrapsCount (s : SlotState) : SlotEvent → Bool
  | .finished l =>
    decide ((s.leases l).operation.map Operation.kind = some .send) &&
      decide (usizeMax ≤ (s.leases l).pendingResponses)
  | _ => false

/-- **The ownership invariant** of a slot. -/
structure Inv (s : SlotState) : Prop where
  gate : s.GateState
  unopened : ∀ conn, s.nextConn ≤ conn → (s.wires conn).outstanding = []
  own : ∀ r ∈ s.reads, r.2.lease = r.1

theorem inv_new (idleTimeout : ℕ) : (new idleTimeout).Inv where
  gate := .free rfl (fun _ => ⟨rfl, rfl, by simp [new, Lease.unused]⟩) (by simp [IdleOwedTo, new])
  unopened := fun _ _ => rfl
  own := by simp [new]

/-! ## What a piece of a lease's code leaves alone -/

section Local

variable {s s' : SlotState} {l : LeaseId}

/-- Only the lease `l` changes: the other leases, the sockets and the record of reads are
untouched, up to new connections. -/
structure Local (l : LeaseId) (s s' : SlotState) : Prop where
  others : ∀ l', l' ≠ l → s'.leases l' = s.leases l'
  wires : s'.wires = s.wires
  conn : s.nextConn ≤ s'.nextConn
  reads : s'.reads = s.reads

theorem setLease_self {x : Lease} : (s.setLease l x).leases l = x := Function.update_self _ _ _

theorem setLease_of_ne {x : Lease} (l' : LeaseId) (h : l' ≠ l) :
    (s.setLease l x).leases l' = s.leases l' :=
  Function.update_of_ne h _ _

theorem setLease_local (x : Lease) : Local l s (s.setLease l x) :=
  ⟨setLease_of_ne, rfl, le_rfl, rfl⟩

theorem Local.trans {s₁ s₂ s₃ : SlotState} (h₁ : Local l s₁ s₂) (h₂ : Local l s₂ s₃) :
    Local l s₁ s₃ where
  others := fun l' hl' => (h₂.others l' hl').trans (h₁.others l' hl')
  wires := h₂.wires.trans h₁.wires
  conn := h₁.conn.trans h₂.conn
  reads := h₂.reads.trans h₁.reads

theorem takePermit_local : Local l s (s.takePermit l) := ⟨setLease_of_ne, rfl, le_rfl, rfl⟩

theorem discardConnectionWithPendingResponse_local :
    Local l s (s.discardConnectionWithPendingResponse l) :=
  ⟨setLease_of_ne, rfl, le_rfl, rfl⟩

theorem dropConnection_local (conn : ConnId) (isBroken : Bool) :
    Local l s (s.dropConnection conn isBroken) := by
  cases isBroken <;> exact ⟨fun _ _ => rfl, rfl, le_rfl, rfl⟩

theorem recordResponseChange_local (change : PendingResponseChange) :
    Local l s (s.recordResponseChange l change) := by
  cases change with
  | add | remove => exact setLease_local _
  | none => exact ⟨fun _ _ => rfl, rfl, le_rfl, rfl⟩

theorem admitOperation_local (kind : OperationKind) : Local l s (s.admitOperation l kind) := by
  rw [admitOperation]
  split_ifs
  · exact discardConnectionWithPendingResponse_local.trans takePermit_local
  · exact setLease_local _
  · exact setLease_local _

theorem storePermit_local : Local l s (s.storePermit l) :=
  takePermit_local.trans ⟨setLease_of_ne, rfl, le_rfl, rfl⟩

theorem getConnection_local {conn : ConnId} (h : s.getConnection = some (conn, s')) :
    Local l s s' := by
  rcases hpool : s.pool with _ | c | c
  · rw [getConnection, hpool] at h
    obtain ⟨-, rfl⟩ : s.nextConn = conn ∧ _ = s' := by simpa using h
    exact ⟨fun _ _ => rfl, rfl, Nat.le_succ _, rfl⟩
  · rw [getConnection, hpool] at h
    obtain ⟨-, rfl⟩ : c = conn ∧ _ = s' := by simpa using h
    exact ⟨fun _ _ => rfl, rfl, le_rfl, rfl⟩
  · rw [getConnection, hpool] at h
    cases h

/-- Handing out a connection touches no lease. -/
theorem getConnection_leases {conn : ConnId} (h : s.getConnection = some (conn, s')) :
    s'.leases = s.leases := by
  funext l
  exact (getConnection_local (l := l + 1) h).others l (Nat.lt_succ_self l).ne

theorem inspectConnection_local (kind : OperationKind) (conn : ConnId) :
    Local l s (s.inspectConnection l kind conn) := by
  rw [inspectConnection]
  split_ifs <;> exact ⟨setLease_of_ne, rfl, le_rfl, rfl⟩

theorem failCheckout_local : Local l s (s.failCheckout l) := by
  rw [failCheckout]
  split_ifs
  · exact (discardConnectionWithPendingResponse_local.trans takePermit_local).trans
      (setLease_local _)
  · exact takePermit_local.trans (setLease_local _)

theorem finishProtocolPermit_local : Local l s (s.finishProtocolPermit l) := by
  rw [finishProtocolPermit]
  split_ifs
  · exact ⟨fun _ _ => rfl, rfl, le_rfl, rfl⟩
  · exact takePermit_local

theorem finishOperation_local (kind : OperationKind) (conn : ConnId)
    (result : Except ClientError Unit) : Local l s (s.finishOperation l kind conn result) := by
  rcases result with err | _
  · rw [finishOperation]
    split_ifs
    · exact (((setLease_local _).trans (dropConnection_local conn true)).trans
        takePermit_local).trans (setLease_local _)
    · exact ((dropConnection_local conn false).trans finishProtocolPermit_local).trans
        (setLease_local _)
  · exact (((recordResponseChange_local _).trans (dropConnection_local conn false)).trans
      finishProtocolPermit_local).trans (setLease_local _)

theorem cancelOperation_local (phase : Phase) : Local l s (s.cancelOperation l phase) := by
  cases phase with
  | gate | checkout | recheckout => exact setLease_local _
  | running conn progress =>
    exact ((setLease_local _).trans (dropConnection_local conn true)).trans (setLease_local _)

theorem dropLease_local : Local l s (s.dropLease l) := by
  rw [dropLease]
  split_ifs
  · exact (discardConnectionWithPendingResponse_local.trans takePermit_local).trans
      (setLease_local _)
  · exact takePermit_local.trans (setLease_local _)

end Local

/-! ## How the gate changes hands -/

section Gate

variable {s s' : SlotState} {l : LeaseId} {x : Lease}

/-- After a step of the lease inside the gate that keeps the permit. -/
theorem GateState.hold (hout : ∀ l', l' ≠ l → (s.leases l').Outside) (hlocal : Local l s s')
    (hgate : s'.protocolGate = 0)
    (hpermit : (s'.leases l).pendingResponsePermit = true)
    (hcons : s'.Consistent l (s'.leases l).pendingResponses (s'.leases l).operation) :
    s'.GateState := by
  refine .held l hgate hpermit ?_ hcons
  intro l' hl'
  rw [hlocal.others l' hl']
  exact hout l' hl'

/-- After a step that leaves every lease outside the gate. -/
theorem GateState.release (hout : ∀ l', l' ≠ l → (s.leases l').Outside) (hlocal : Local l s s')
    (hgate : s'.protocolGate = 1) (hl : (s'.leases l).Outside) (hidle : ∀ l, s'.IdleOwedTo l 0) :
    s'.GateState := by
  refine .free hgate ?_ hidle
  intro l'
  by_cases h : l' = l
  · rw [h]
    exact hl
  · rw [hlocal.others l' h]
    exact hout l' h

/-- An update of the lease inside the gate that keeps the permit. -/
theorem GateState.hold_setLease (hout : ∀ l', l' ≠ l → (s.leases l').Outside)
    (hgate : s.protocolGate = 0) (hpermit : x.pendingResponsePermit = true)
    (hcons : s.Consistent l x.pendingResponses x.operation) : (s.setLease l x).GateState := by
  refine .hold hout (setLease_local x) hgate ?_ ?_
  · rw [setLease_self]
    exact hpermit
  · rw [setLease_self]
    exact hcons

/-- An update of a lease outside the gate that stays outside changes nothing else. -/
theorem GateState.setLease_outside (h : s.GateState) (hl : (s.leases l).Outside) (hx : x.Outside) :
    (s.setLease l x).GateState := by
  have hx' : ((s.setLease l x).leases l).Outside := by
    rw [setLease_self]
    exact hx
  cases h with
  | free hgate hout hidle => exact .release (fun l' _ => hout l') (setLease_local x) hgate hx' hidle
  | held l₀ hgate hpermit hout hcons =>
    have hne : l₀ ≠ l := by
      rintro rfl
      exact absurd (hl.permit.symm.trans hpermit) (by decide)
    have hsame : (s.setLease l x).leases l₀ = s.leases l₀ := setLease_of_ne l₀ hne
    refine .held l₀ hgate (by rw [hsame]; exact hpermit) ?_ (by rw [hsame]; exact hcons)
    intro l' hl'
    by_cases h : l' = l
    · rw [h]
      exact hx'
    · rw [setLease_of_ne l' h]
      exact hout l' hl'

/-- An update that touches neither the permit, the pending count nor the operation. -/
theorem GateState.setLease_same (h : s.GateState)
    (hpermit : x.pendingResponsePermit = (s.leases l).pendingResponsePermit)
    (hpending : x.pendingResponses = (s.leases l).pendingResponses)
    (hop : x.operation = (s.leases l).operation) : (s.setLease l x).GateState := by
  by_cases hl : (s.leases l).Outside
  · refine h.setLease_outside hl ⟨hpermit.trans hl.permit, hpending.trans hl.pending, ?_⟩
    rw [hop]
    exact hl.phase
  · cases h with
    | free hgate hout hidle => exact absurd (hout l) hl
    | held l₀ hgate hstored hout hcons =>
      obtain rfl : l = l₀ := by
        by_contra hne
        exact hl (hout l hne)
      exact .hold_setLease hout hgate (hpermit.trans hstored) (by rw [hpending, hop]; exact hcons)

/-- A lease that is not outside is the one inside. -/
theorem GateState.held_of_not_outside (h : s.GateState) (hl : ¬ (s.leases l).Outside) :
    s.protocolGate = 0 ∧ (s.leases l).pendingResponsePermit = true ∧
      (∀ l', l' ≠ l → (s.leases l').Outside) ∧
      s.Consistent l (s.leases l).pendingResponses (s.leases l).operation := by
  cases h with
  | free hgate hout hidle => exact absurd (hout l) hl
  | held l₀ hgate hpermit hout hcons =>
    by_cases h : l = l₀
    · subst h
      exact ⟨hgate, hpermit, hout, hcons⟩
    · exact absurd (hout l h) hl

theorem not_outside_of_phase {op : Operation} (hop : (s.leases l).operation = some op)
    (hphase : op.phase ≠ .gate) : ¬ (s.leases l).Outside := fun ho => hphase (ho.phase op hop)

theorem not_outside_of_pending (h : 0 < (s.leases l).pendingResponses) :
    ¬ (s.leases l).Outside := fun ho => h.ne' ho.pending

end Gate

/-! ## The events that move the gate -/

section Events

variable {s s' : SlotState} {l : LeaseId} {kind : OperationKind} {conn : ConnId}

/-- A connection that is to be discarded owes nothing to the next lease. -/
theorem IdleOwedTo.of_discard {n : ℕ} (h : s.IdleOwedTo l n) (hpool : s'.pool = s.pool)
    (hconn : s'.nextConn = s.nextConn) (hdiscard : s'.discardOnNextCheckout = true)
    (l' : LeaseId) (m : ℕ) : s'.IdleOwedTo l' m := by
  intro conn hidle
  rw [hpool] at hidle
  rw [hconn]
  exact ⟨(h conn hidle).1, Or.inl hdiscard⟩

/-- A connection that owes nothing owes nothing to anyone. -/
theorem IdleOwedTo.of_zero (h : s.IdleOwedTo l 0) (l' : LeaseId) : s.IdleOwedTo l' 0 := by
  intro conn hidle
  obtain ⟨hconn, hdiscard | ⟨-, hlen⟩⟩ := h conn hidle
  · exact ⟨hconn, Or.inl hdiscard⟩
  · have hnil : (s.wires conn).outstanding = [] := List.length_eq_zero_iff.mp (by omega)
    exact ⟨hconn, Or.inr ⟨by simp [hnil], by simp [hnil]⟩⟩

theorem IdleOwedTo.of_absent {n : ℕ} (h : s.pool = .absent) : s.IdleOwedTo l n := by
  intro conn hidle
  rw [h] at hidle
  cases hidle

/-- Admission: a whole exchange on top of a pending reply discards the socket and leaves
the gate; everything else waits, inside with a reply pending and outside without. -/
theorem admitOperation_gate (h : s.GateState) (hop : (s.leases l).operation = none) :
    (s.admitOperation l kind).GateState := by
  by_cases hp : 0 < (s.leases l).pendingResponses
  · obtain ⟨hgate, hpermit, hout, hcons⟩ := h.held_of_not_outside (not_outside_of_pending hp)
    rw [hop] at hcons
    by_cases hchange : kind.change = .none
    · rw [admitOperation, if_pos ⟨hp, hchange⟩]
      refine .release hout (discardConnectionWithPendingResponse_local.trans takePermit_local) ?_
        ⟨?_, ?_, ?_⟩ (hcons.of_discard ?_ ?_ ?_ · 0)
      all_goals simp [discardConnectionWithPendingResponse, takePermit, setLease, *]
    · rw [admitOperation, if_neg (fun hc => hchange hc.2), if_neg hp.ne']
      exact .hold_setLease hout hgate hpermit hcons
  · rw [admitOperation, if_neg (fun hc => hp hc.1), if_pos (by omega)]
    by_cases hl : (s.leases l).Outside
    · refine h.setLease_outside hl ⟨hl.permit, hl.pending, ?_⟩
      rintro op hop'
      rw [← Option.some.inj hop']
    · obtain ⟨hgate, hpermit, hout, hcons⟩ := h.held_of_not_outside hl
      rw [hop] at hcons
      exact .hold_setLease hout hgate hpermit hcons

/-- The gate is granted to a lease outside it, while nobody is inside. -/
theorem gateGranted_gate (h : s.GateState) (hgate : 0 < s.protocolGate) :
    ((s.storePermit l).suspend l kind .checkout).GateState := by
  cases h with
  | held l₀ hzero hpermit hout hcons => omega
  | free hone hout hidle =>
    have hl := hout l
    refine .hold (fun l' _ => hout l') (storePermit_local.trans (setLease_local _)) ?_ ?_ ?_
    · simp [storePermit, takePermit, suspend, setLease, hl.permit, hone]
    · simp [storePermit, takePermit, suspend, setLease]
    · simp only [storePermit, takePermit, suspend, setLease, Function.update_self, hl.pending]
      exact hidle l

/-- A lease at the checkout receives a connection that owes replies to it alone, or one
that is to be discarded. -/
theorem getConnection_owedTo {s' : SlotState} {n : ℕ} (hidle : s.IdleOwedTo l n)
    (hfresh : ∀ conn, s.nextConn ≤ conn → (s.wires conn).outstanding = [])
    (h : s.getConnection = some (conn, s')) :
    conn < s'.nextConn ∧ (s'.discardOnNextCheckout = true ∨ s'.OwedTo conn l n) ∧
      ∃ k, s' = { s with pool := .out conn, nextConn := s.nextConn + k } := by
  rcases hpool : s.pool with _ | c | c
  · rw [getConnection, hpool] at h
    obtain ⟨rfl, rfl⟩ : s.nextConn = conn ∧ _ = s' := by simpa using h
    have hnil := hfresh s.nextConn le_rfl
    exact ⟨Nat.lt_succ_self _, Or.inr ⟨by simp [hnil], by simp [hnil]⟩, 1, rfl⟩
  · rw [getConnection, hpool] at h
    obtain ⟨rfl, rfl⟩ : c = conn ∧ _ = s' := by simpa using h
    exact ⟨(hidle c hpool).1, (hidle c hpool).2, 0, rfl⟩
  · rw [getConnection, hpool] at h
    cases h

/-- The connection is kept unless it is stale or to be discarded. -/
theorem inspectConnection_gate (hgate : s.protocolGate = 0)
    (hpermit : (s.leases l).pendingResponsePermit = true)
    (hout : ∀ l', l' ≠ l → (s.leases l').Outside) (hpool : s.pool = .out conn)
    (hconn : conn < s.nextConn)
    (howed : s.discardOnNextCheckout = true ∨ s.OwedTo conn l (s.leases l).pendingResponses) :
    (s.inspectConnection l kind conn).GateState := by
  rw [inspectConnection]
  split_ifs with hbreak
  · refine .hold hout ⟨setLease_of_ne, rfl, le_rfl, rfl⟩ hgate ?_ ?_
    · simpa [suspend, setLease] using hpermit
    · simp only [suspend, setLease, Function.update_self]
      exact ⟨rfl, .of_absent rfl⟩
  · have hkeep : s.discardOnNextCheckout = false := by
      simp only [Bool.or_eq_true, not_or] at hbreak
      simpa using hbreak.1
    refine .hold hout ⟨setLease_of_ne, rfl, le_rfl, rfl⟩ hgate ?_ ?_
    · simpa [suspend, setLease] using hpermit
    · simp only [suspend, setLease, Function.update_self]
      exact ⟨rfl, hpool, hconn, howed.resolve_left (by simp [hkeep])⟩

/-- A failed checkout leaves the gate, discarding a socket that still owes a reply. -/
theorem failCheckout_gate (hgate : s.protocolGate = 0)
    (hpermit : (s.leases l).pendingResponsePermit = true)
    (hout : ∀ l', l' ≠ l → (s.leases l').Outside)
    (hidle : s.IdleOwedTo l (s.leases l).pendingResponses) : (s.failCheckout l).GateState := by
  by_cases hp : 0 < (s.leases l).pendingResponses
  · refine .release hout failCheckout_local ?_ ⟨?_, ?_, ?_⟩ (hidle.of_discard ?_ ?_ ?_ · 0)
    all_goals
      simp [failCheckout, discardConnectionWithPendingResponse, takePermit, endOperation, setLease, *]
  · have hzero : (s.leases l).pendingResponses = 0 := by omega
    have heq : s.failCheckout l = (s.takePermit l).endOperation l := by
      rw [failCheckout, if_neg hp]
    rw [hzero] at hidle
    rw [heq]
    refine .release hout (takePermit_local.trans (setLease_local _)) ?_ ⟨?_, ?_, ?_⟩ hidle.of_zero
    all_goals simp [takePermit, endOperation, setLease, *]

/-- The connection goes back to the pool, still reserved while a reply is pending. -/
theorem returnConnection_gate {n : ℕ} (hgate : s.protocolGate = 0)
    (hpermit : (s.leases l).pendingResponsePermit = true)
    (hout : ∀ l', l' ≠ l → (s.leases l').Outside) (hconn : conn < s.nextConn)
    (hpending : (s.leases l).pendingResponses = n) (howed : s.OwedTo conn l n) :
    (((s.dropConnection conn false).finishProtocolPermit l).endOperation l).GateState := by
  have hidle : (s.dropConnection conn false).IdleOwedTo l n := by
    intro c hc
    obtain rfl : conn = c := by simpa [dropConnection] using hc
    exact ⟨hconn, Or.inr howed⟩
  by_cases hp : 0 < (s.leases l).pendingResponses
  · have heq : (s.dropConnection conn false).finishProtocolPermit l =
        s.dropConnection conn false := if_pos hp
    rw [heq]
    refine .hold_setLease hout hgate hpermit ?_
    show (s.dropConnection conn false).IdleOwedTo l (s.leases l).pendingResponses
    rw [hpending]
    exact hidle
  · have heq : (s.dropConnection conn false).finishProtocolPermit l =
        (s.dropConnection conn false).takePermit l := if_neg hp
    obtain rfl : n = 0 := by omega
    rw [heq]
    refine .release hout (((dropConnection_local conn false).trans takePermit_local).trans
      (setLease_local _)) ?_ ⟨?_, ?_, ?_⟩ hidle.of_zero
    all_goals simp [dropConnection, takePermit, endOperation, setLease, *]

/-- An operation that is through changes the pending count by what it left on the wire, as long
as there is room for it in the count. -/
theorem recordResponseChange_eq {progress : Progress} (hdone : kind.doneAt progress = true)
    (hroom : kind = .send → (s.leases l).pendingResponses < usizeMax) :
    s.recordResponseChange l kind.change = s.setLease l
      { s.leases l with pendingResponses := kind.owed progress (s.leases l).pendingResponses } := by
  cases kind with
  | send => cases progress with
    | written =>
      have hadd : wrappingAdd (s.leases l).pendingResponses 1 = (s.leases l).pendingResponses + 1 :=
        wrappingAdd_of_le (Nat.succ_le_of_lt (hroom rfl))
      simp only [OperationKind.change, recordResponseChange, hadd, OperationKind.owed]
    | fresh | replied => exact absurd hdone (by decide)
  | receive => cases progress with
    | replied => rfl
    | fresh | written => exact absurd hdone (by decide)
  | call => cases progress with
    | replied =>
      show s = s.setLease l (s.leases l)
      rw [setLease, Function.update_eq_self]
    | fresh | written => exact absurd hdone (by decide)

/-- A send that does not wrap its count finds room in it. -/
theorem room_of_not_wrapsCount {phase : Phase} (hwraps : ¬ s.wrapsCount (.finished l))
    (hop : (s.leases l).operation = some ⟨kind, phase⟩) (hsend : kind = .send) :
    (s.leases l).pendingResponses < usizeMax := by
  by_contra hfull
  exact hwraps (by simp [wrapsCount, hop, hsend, not_lt.mp hfull])

/-- A successful operation returns its connection and counts the reply it left on the wire. -/
theorem finishOperation_ok_gate {progress : Progress} (hdone : kind.doneAt progress = true)
    (hroom : kind = .send → (s.leases l).pendingResponses < usizeMax)
    (hgate : s.protocolGate = 0) (hpermit : (s.leases l).pendingResponsePermit = true)
    (hout : ∀ l', l' ≠ l → (s.leases l').Outside) (hconn : conn < s.nextConn)
    (howed : s.OwedTo conn l (kind.owed progress (s.leases l).pendingResponses)) :
    (s.finishOperation l kind conn (.ok ())).GateState := by
  rw [finishOperation, recordResponseChange_eq hdone hroom]
  refine returnConnection_gate hgate ?_ ?_ hconn ?_ howed
  · rw [setLease_self]
    exact hpermit
  · intro l' hl'
    rw [setLease_of_ne l' hl']
    exact hout l' hl'
  · rw [setLease_self]

/-- An error either breaks the connection and clears the pending count, or came before the
first byte and leaves both as they were. -/
theorem finishOperation_error_gate {err : ClientError} (hgate : s.protocolGate = 0)
    (hpermit : (s.leases l).pendingResponsePermit = true)
    (hout : ∀ l', l' ≠ l → (s.leases l').Outside) (hconn : conn < s.nextConn)
    (howed : err.shouldRecycleConnection = false →
      s.OwedTo conn l (s.leases l).pendingResponses) :
    (s.finishOperation l kind conn (.error err)).GateState := by
  by_cases hrecycle : err.shouldRecycleConnection = true
  · refine .release hout (finishOperation_local kind conn _) ?_ ⟨?_, ?_, ?_⟩
      (fun _ => .of_absent ?_)
    all_goals
      simp [finishOperation, clearPending, dropConnection, takePermit, endOperation, setLease, *]
  · rw [finishOperation, if_neg hrecycle]
    exact returnConnection_gate hgate hpermit hout hconn rfl (howed (by simpa using hrecycle))

/-- A cancelled operation leaves the stored permit where it is; if it held the connection,
the connection is broken. -/
theorem cancelOperation_gate {op : Operation} (h : s.GateState)
    (hop : (s.leases l).operation = some op) : (s.cancelOperation l op.phase).GateState := by
  by_cases hl : (s.leases l).Outside
  · rw [hl.phase op hop]
    exact h.setLease_outside hl ⟨hl.permit, hl.pending, by simp⟩
  · obtain ⟨hgate, hpermit, hout, hcons⟩ := h.held_of_not_outside hl
    rw [hop] at hcons
    obtain ⟨kind, phase⟩ := op
    cases phase with
    | gate | checkout => exact .hold_setLease hout hgate hpermit hcons
    | recheckout => exact .hold_setLease hout hgate hpermit hcons.2
    | running conn progress =>
      refine .hold hout (cancelOperation_local _) hgate ?_ ?_
      · simpa [cancelOperation, clearPending, dropConnection, endOperation, setLease] using hpermit
      · simp only [cancelOperation, clearPending, dropConnection, endOperation, setLease,
          Function.update_self]
        exact .of_absent rfl

/-- A dropped lease leaves the gate, discarding a socket that still owes it a reply. -/
theorem dropLease_gate (h : s.GateState) (hop : (s.leases l).operation = none) :
    (s.dropLease l).GateState := by
  by_cases hl : (s.leases l).Outside
  · have hsame : s.dropLease l = s.setLease l { s.leases l with status := .dropped } := by
      simp [dropLease, takePermit, setLease, hl.pending, hl.permit]
    rw [hsame]
    exact h.setLease_outside hl ⟨hl.permit, hl.pending, hl.phase⟩
  · obtain ⟨hgate, hpermit, hout, hcons⟩ := h.held_of_not_outside hl
    rw [hop] at hcons
    by_cases hp : 0 < (s.leases l).pendingResponses
    · refine .release hout dropLease_local ?_ ⟨?_, ?_, ?_⟩ (hcons.of_discard ?_ ?_ ?_ · 0)
      all_goals simp [dropLease, discardConnectionWithPendingResponse, takePermit, setLease, *]
    · have hzero : (s.leases l).pendingResponses = 0 := by omega
      have heq : s.dropLease l = (s.takePermit l).setLease l
          { (s.takePermit l).leases l with status := .dropped } := by
        rw [dropLease, if_neg hp]
      rw [hzero] at hcons
      rw [heq]
      refine .release hout (takePermit_local.trans (setLease_local _)) ?_ ⟨?_, ?_, ?_⟩ hcons.of_zero
      all_goals simp [takePermit, setLease, *]

/-- The gate does not see how far the server has come on a socket. -/
theorem GateState.congr (h : s.GateState) (hgate : s'.protocolGate = s.protocolGate)
    (hleases : s'.leases = s.leases) (hdiscard : s'.discardOnNextCheckout = s.discardOnNextCheckout)
    (hpool : s'.pool = s.pool) (hconn : s'.nextConn = s.nextConn)
    (hwires : ∀ conn, (s'.wires conn).outstanding = (s.wires conn).outstanding) :
    s'.GateState := by
  have howed : s'.OwedTo = s.OwedTo := by
    funext conn l n
    rw [OwedTo, OwedTo, hwires]
  have hidle : s'.IdleOwedTo = s.IdleOwedTo := by
    funext l n
    rw [IdleOwedTo, IdleOwedTo, hpool, hconn, hdiscard, howed]
  have hcons : s'.Consistent = s.Consistent := by
    funext l n op
    rcases op with _ | ⟨kind, _ | _ | _ | _⟩ <;>
      simp only [Consistent, hidle, howed, hdiscard, hpool, hconn]
  cases h with
  | free hone hout hidle' =>
    exact .free (hgate.trans hone) (by rw [hleases]; exact hout) (by rw [hidle]; exact hidle')
  | held l hzero hpermit hout hcons' =>
    refine .held l (hgate.trans hzero) ?_ ?_ ?_
    · rw [hleases]
      exact hpermit
    · rw [hleases]
      exact hout
    · rw [hleases, hcons]
      exact hcons'

/-- The pool closes its idle connection: nobody is using it. -/
theorem replaced_gate (h : s.GateState) (hpool : s.pool = .idle conn) :
    GateState { s with pool := .absent } := by
  cases h with
  | free hgate hout hidle => exact .free hgate hout fun _ => .of_absent rfl
  | held l hgate hpermit hout hcons =>
    refine .held l hgate hpermit hout ?_
    revert hcons
    rcases (s.leases l).operation with _ | ⟨kind, _ | _ | _ | _⟩ <;> intro hcons
    · exact .of_absent rfl
    · exact .of_absent rfl
    · exact .of_absent rfl
    · exact ⟨hcons.1, .of_absent rfl⟩
    · exact absurd (hpool.symm.trans hcons.2.1) (by simp)

end Events

/-! ## Every event keeps the invariant -/

section Runs

variable {s s' : SlotState} {e : SlotEvent}

theorem Inv.of_gate {l : LeaseId} (hi : s.Inv) (hgate : s'.GateState) (hlocal : Local l s s') :
    s'.Inv where
  gate := hgate
  unopened := by
    intro conn h
    rw [hlocal.wires]
    exact hi.unopened conn (hlocal.conn.trans h)
  own := by
    rw [hlocal.reads]
    exact hi.own

/-- A lease past the gate is the one inside it. -/
theorem Inv.inside {l : LeaseId} {op : Operation} (hi : s.Inv)
    (hop : (s.leases l).operation = some op) (hphase : op.phase ≠ .gate) :
    s.protocolGate = 0 ∧ (s.leases l).pendingResponsePermit = true ∧
      (∀ l', l' ≠ l → (s.leases l').Outside) ∧
      s.Consistent l (s.leases l).pendingResponses (some op) := by
  have h := hi.gate.held_of_not_outside (not_outside_of_phase hop hphase)
  rw [hop] at h
  exact h

/-- Writing a request adds one reply owed to the writer. -/
theorem wrote_inv {l : LeaseId} {kind : OperationKind} {conn : ConnId} (hi : s.Inv)
    (hop : (s.leases l).operation = some ⟨kind, .running conn .fresh⟩) :
    ((s.writeRequest l conn).suspend l kind (.running conn .written)).Inv := by
  obtain ⟨hgate, hpermit, hout, hdiscard, hpool, hconn, hall, hlen⟩ := hi.inside hop (by simp)
  have houtstanding : ((s.writeRequest l conn).wires conn).outstanding =
      (s.wires conn).outstanding ++ [⟨l, s.nextSerial⟩] := by
    simp [writeRequest, Wire.outstanding]
  refine ⟨.hold_setLease hout hgate hpermit ⟨hdiscard, hpool, hconn, ?_, ?_⟩, ?_, hi.own⟩
  · intro r hr
    rw [houtstanding] at hr
    rcases List.mem_append.mp hr with hr | hr
    · exact hall r hr
    · rw [List.mem_singleton.mp hr]
  · rw [houtstanding, List.length_append]
    simpa [OperationKind.owed, writeRequest] using hlen
  · intro c hc
    have hne : c ≠ conn := by
      rintro rfl
      exact absurd hconn (by simpa [writeRequest, suspend, setLease] using hc)
    simp only [suspend, setLease, writeRequest, Function.update_of_ne hne]
    exact hi.unopened c hc

/-- The reply a lease reads is one it is owed. -/
theorem received_inv {l : LeaseId} {kind : OperationKind} {conn : ConnId} {progress : Progress}
    {reply : Request} {rest : List Request} (hi : s.Inv)
    (hop : (s.leases l).operation = some ⟨kind, .running conn progress⟩)
    (hreads : kind.readsAt progress = true) (hunread : (s.wires conn).unread = reply :: rest) :
    ((s.readReply l conn reply rest).suspend l kind (.running conn .replied)).Inv := by
  obtain ⟨hgate, hpermit, hout, hdiscard, hpool, hconn, hall, hlen⟩ := hi.inside hop (by simp)
  have houtstanding : (s.wires conn).outstanding =
      reply :: ((s.readReply l conn reply rest).wires conn).outstanding := by
    simp [readReply, Wire.outstanding, hunread]
  rw [houtstanding] at hall hlen
  refine ⟨.hold_setLease hout hgate hpermit ⟨hdiscard, hpool, hconn, ?_, ?_⟩, ?_, ?_⟩
  · intro r hr
    exact hall r (List.mem_cons_of_mem _ hr)
  · -- a receive takes one of the pending replies, a call the one it has just added
    rw [List.length_cons] at hlen
    cases kind <;> cases progress <;>
      simp only [OperationKind.readsAt, OperationKind.owed, readReply, reduceCtorEq]
        at hreads hlen ⊢ <;>
      omega
  · intro c hc
    have hne : c ≠ conn := by
      rintro rfl
      exact absurd hconn (by simpa [readReply, suspend, setLease] using hc)
    simp only [suspend, setLease, readReply, Function.update_of_ne hne]
    exact hi.unopened c hc
  · intro r hr
    rcases List.mem_append.mp hr with hr | hr
    · exact hi.own r hr
    · rw [List.mem_singleton.mp hr]
      exact hall reply List.mem_cons_self

/-- The server moves a request from unanswered to unread; the replies to come are the same. -/
theorem answered_inv {conn : ConnId} {request : Request} {rest : List Request} (hi : s.Inv)
    (hunanswered : (s.wires conn).unanswered = request :: rest) :
    Inv { s with
      wires := Function.update s.wires conn ⟨rest, (s.wires conn).unread ++ [request]⟩ } := by
  have hwires : ∀ c, (Function.update s.wires conn
      ⟨rest, (s.wires conn).unread ++ [request]⟩ c).outstanding = (s.wires c).outstanding := by
    intro c
    by_cases hc : c = conn
    · subst hc
      simp [Wire.outstanding, hunanswered]
    · rw [Function.update_of_ne hc]
  exact ⟨hi.gate.congr rfl rfl rfl rfl rfl hwires, fun c hc => (hwires c).trans (hi.unopened c hc),
    hi.own⟩

/-- **Every event keeps the ownership invariant**, unless it wraps a count around. -/
theorem step_inv (hwraps : ¬ s.wrapsCount e) (hi : s.Inv) (h : s.step e = some s') : s'.Inv := by
  cases step_cases h with
  | @leaseAcquired l hunused =>
    have hout : (s.leases l).Outside := by
      rw [hunused]
      exact ⟨rfl, rfl, by simp [Lease.unused]⟩
    have hnew : Lease.new.Outside := ⟨rfl, rfl, by simp [Lease.new]⟩
    exact hi.of_gate (hi.gate.setLease_outside hout hnew) (setLease_local _)
  | started _ | unqueued _ =>
    exact hi.of_gate (hi.gate.setLease_same rfl rfl rfl) (setLease_local _)
  | @locked l kind rest hop hwaiting =>
    have hunqueued : (s.setLease l { s.leases l with waiting := rest }).Inv :=
      hi.of_gate (hi.gate.setLease_same rfl rfl rfl) (setLease_local _)
    refine hunqueued.of_gate (admitOperation_gate hunqueued.gate ?_) (admitOperation_local kind)
    rw [setLease_self]
    exact hop
  | gateGranted hop hgate =>
    exact hi.of_gate (gateGranted_gate hi.gate hgate) (storePermit_local.trans (setLease_local _))
  | connected hop hget =>
    obtain ⟨hgate, hpermit, hout, hidle⟩ := hi.inside hop (by simp)
    obtain ⟨hconn, howed, k, rfl⟩ := getConnection_owedTo hidle hi.unopened hget
    exact hi.of_gate (inspectConnection_gate hgate hpermit hout rfl hconn howed)
      ((getConnection_local hget).trans (inspectConnection_local _ _))
  | reconnected hop hget =>
    obtain ⟨hgate, hpermit, hout, hdiscard, hidle⟩ := hi.inside hop (by simp)
    obtain ⟨hconn, howed, k, rfl⟩ := getConnection_owedTo hidle hi.unopened hget
    have hkept := howed.resolve_left (by simp [hdiscard])
    exact hi.of_gate (.hold_setLease hout hgate hpermit ⟨hdiscard, rfl, hconn, hkept⟩)
      ((getConnection_local hget).trans (setLease_local _))
  | @checkoutFailed l kind phase hop hphase =>
    have hinside := hi.inside hop (by rcases hphase with rfl | rfl <;> simp)
    obtain ⟨hgate, hpermit, hout, hcons⟩ := hinside
    have hidle : s.IdleOwedTo l (s.leases l).pendingResponses := by
      rcases hphase with rfl | rfl
      · exact hcons
      · exact hcons.2
    exact hi.of_gate (failCheckout_gate hgate hpermit hout hidle) failCheckout_local
  | wrote hop _ => exact wrote_inv hi hop
  | received hop hreads hunread => exact received_inv hi hop hreads hunread
  | finished hop hdone =>
    obtain ⟨hgate, hpermit, hout, -, -, hconn, howed⟩ := hi.inside hop (by simp)
    have hroom := room_of_not_wrapsCount hwraps hop
    exact hi.of_gate (finishOperation_ok_gate hdone hroom hgate hpermit hout hconn howed)
      (finishOperation_local _ _ _)
  | failed hop hwhen =>
    obtain ⟨hgate, hpermit, hout, -, -, hconn, howed⟩ := hi.inside hop (by simp)
    refine hi.of_gate (finishOperation_error_gate hgate hpermit hout hconn ?_)
      (finishOperation_local _ _ _)
    intro hrecycle
    obtain rfl := hwhen.resolve_left (by simp [hrecycle])
    exact howed
  | cancelled hop =>
    exact hi.of_gate (cancelOperation_gate hi.gate hop) (cancelOperation_local _)
  | leaseDropped hop _ _ => exact hi.of_gate (dropLease_gate hi.gate hop) dropLease_local
  | replaced hpool => exact ⟨replaced_gate hi.gate hpool, hi.unopened, hi.own⟩
  | answered hunanswered => exact answered_inv hi hunanswered
  | elapsed =>
    exact ⟨hi.gate.congr rfl rfl rfl rfl rfl fun _ => rfl, hi.unopened, hi.own⟩

/-- The ownership invariant holds in every state a slot can reach without wrapping a count. -/
theorem exec_inv {idleTimeout : ℕ} {events : List SlotEvent}
    (hwraps : Trace.Never step (wrapsCount · ·) (new idleTimeout) events)
    (h : Trace.exec step (new idleTimeout) events = some s) : s.Inv :=
  hwraps.invariant (fun _ _ _ => step_inv) (inv_new idleTimeout) h

/-- **Replies stay with their lease.**  However the operations, failures, cancellations,
replacements and drops on a slot are interleaved, every reply a lease has read answers a
request the same lease wrote, as long as no lease completes a send with its count full. -/
theorem reads_own_replies (idleTimeout : ℕ) (events : List SlotEvent) (s : SlotState)
    (hwraps : Trace.Never step (wrapsCount · ·) (new idleTimeout) events)
    (h : Trace.exec step (new idleTimeout) events = some s) :
    ∀ r ∈ s.reads, r.2.lease = r.1 :=
  (exec_inv hwraps h).own

/-- Lease 0 sends a request and is dropped before it reads the reply, while lease 1 waits
for the gate; lease 1 then gets a new socket and reads its own reply. -/
def lateReply : List SlotEvent :=
  [.leaseAcquired 0, .leaseAcquired 1, .started 0 .send, .locked 0, .gateGranted 0, .connected 0,
   .wrote 0, .finished 0, .started 1 .call, .locked 1, .answered 0, .leaseDropped 0,
   .gateGranted 1, .connected 1, .connected 1, .wrote 1, .answered 1, .received 1, .finished 1]

theorem reads_own_replies_lateReply :
    ∃ s, Trace.exec step (new 30) lateReply = some s ∧ s.reads = [(1, ⟨1, 1⟩)] ∧
      ∀ r ∈ s.reads, r.2.lease = r.1 := by
  have hrun : (Trace.exec step (new 30) lateReply).isSome = true := by decide
  have hwraps : Trace.Never step (wrapsCount · ·) (new 30) lateReply := by
    decide
  refine ⟨(Trace.exec step (new 30) lateReply).get hrun, (Option.some_get hrun).symm, ?_, ?_⟩
  · rfl
  · exact reads_own_replies 30 lateReply _ hwraps (Option.some_get hrun).symm

end Runs

/-! ## A count that wraps around -/

section Overrun

variable {s : SlotState} {n : ℕ}

/-- Another send of lease 0, which is inside the gate. -/
def anotherSend : List SlotEvent :=
  [.started 0 .send, .locked 0, .connected 0, .wrote 0, .finished 0]

/-- Lease 0 sends `n + 1` requests, the first of which is answered, and reads no reply. -/
def sends : ℕ → List SlotEvent
  | 0 =>
    [.leaseAcquired 0, .leaseAcquired 1, .started 0 .send, .locked 0, .gateGranted 0, .connected 0,
     .wrote 0, .finished 0, .answered 0]
  | n + 1 => sends n ++ anotherSend

/-- The slot after lease 0 has sent its requests: it counts `n` of them, the first reply is on the
wire and the connection has just come back.  The gate is closed exactly while the count is not
zero. -/
structure Sent (n : ℕ) (s : SlotState) : Prop where
  lease : s.leases 0 = ⟨.alive, n, decide (0 < n), none, []⟩
  other : s.leases 1 = Lease.new
  gate : s.protocolGate = if 0 < n then 0 else 1
  pool : s.pool = .idle 0
  kept : s.discardOnNextCheckout = false
  returned : s.lastReturnedAt = some s.now
  timeout : s.idleTimeout = 30
  reply : (s.wires 0).unread = [⟨0, 0⟩]

/-- A send of a lease that is owed `n` replies adds one to the count, or wraps it around. -/
theorem Sent.again (h : Sent n s) (hpos : 0 < n) :
    ∃ t, Trace.exec step s anotherSend = some t ∧ Sent (wrappingAdd n 1) t := by
  have hgate : s.protocolGate = 0 := h.gate.trans (if_pos hpos)
  have hlease : s.leases 0 = ⟨.alive, n, true, none, []⟩ := by simpa [hpos] using h.lease
  have hexec : Trace.exec step s anotherSend = some (finishOperation
      (({ s with pool := .out 0 }.writeRequest 0 0).setLease 0
        ⟨.alive, n, true, some ⟨.send, .running 0 .written⟩, []⟩) 0 .send 0 (.ok ())) := by
    simp [Trace.exec, anotherSend, step, hlease, admitOperation, setLease, hpos, hpos.ne',
      OperationKind.change, suspend, getConnection, h.pool, inspectConnection, h.kept,
      OperationKind.doneAt, writeRequest]
  refine ⟨_, hexec, ?_⟩
  by_cases hkeeps : 0 < wrappingAdd n 1
  · constructor
    all_goals
      simp [finishOperation, OperationKind.change, recordResponseChange, dropConnection,
        finishProtocolPermit, hkeeps, endOperation, setLease, writeRequest, h.other, h.kept,
        h.timeout, h.reply, hgate]
  · constructor
    all_goals
      simp [finishOperation, OperationKind.change, recordResponseChange, dropConnection,
        finishProtocolPermit, hkeeps, endOperation, takePermit, setLease, writeRequest, h.other,
        h.kept, h.timeout, h.reply, hgate]

/-- Up to the last value of the count, every send is counted. -/
theorem exec_sends (hn : n < usizeMax) :
    ∃ s, Trace.exec step (new 30) (sends n) = some s ∧ Sent (n + 1) s := by
  induction n with
  | zero => exact ⟨_, rfl, rfl, rfl, rfl, rfl, rfl, rfl, rfl, rfl⟩
  | succ n ih =>
    obtain ⟨s, hs, hsent⟩ := ih (Nat.lt_of_succ_lt hn)
    obtain ⟨t, ht, hnext⟩ := hsent.again (Nat.succ_pos n)
    rw [wrappingAdd_of_le (Nat.succ_le_of_lt hn)] at hnext
    exact ⟨t, by rw [sends, Trace.exec_append, hs]; exact ht, hnext⟩

/-- The call of another lease, up to the reply it reads. -/
def otherCall : List SlotEvent :=
  [.started 1 .call, .locked 1, .gateGranted 1, .connected 1, .wrote 1, .received 1]

/-- On a slot whose gate is free the call of another lease reads the reply that is on the wire. -/
theorem Sent.reads_otherCall (h : Sent 0 s) :
    (Trace.exec step s otherCall).map reads = some (s.reads ++ [(1, ⟨0, 0⟩)]) := by
  have hgate : s.protocolGate = 1 := h.gate
  simp [Trace.exec, otherCall, step, h.other, Lease.new, admitOperation, setLease, suspend, hgate,
    storePermit, takePermit, getConnection, h.pool, inspectConnection, h.kept, shouldRecycleIdle,
    h.returned, h.timeout, saturatingDurationSince, writeRequest, OperationKind.readsAt, h.reply,
    readReply]

/-- Lease 0 sends one request more than its count holds; then lease 1 makes a call. -/
def overrun : List SlotEvent := sends usizeMax ++ otherCall

/-- **A count that wraps around gives replies away.**  After `2 ^ 64` sends without a receive the
count is zero, the gate is released, and the call of another lease reads the first reply. -/
theorem overrun_misreads :
    ∃ s, Trace.exec step (new 30) overrun = some s ∧ (1, ⟨0, 0⟩) ∈ s.reads := by
  obtain ⟨n, hn⟩ : ∃ n, usizeMax = n + 1 := ⟨2 ^ 64 - 2, rfl⟩
  obtain ⟨s, hs, hsent⟩ := exec_sends (show n < usizeMax by omega)
  obtain ⟨t, ht, hfull⟩ := hsent.again (Nat.succ_pos n)
  have hzero : wrappingAdd (n + 1) 1 = 0 := by
    rw [← hn, wrappingAdd, Nat.mod_self]
  rw [hzero] at hfull
  obtain ⟨u, hu, hreads⟩ := Option.map_eq_some_iff.mp hfull.reads_otherCall
  refine ⟨u, ?_, by simp [hreads]⟩
  rw [overrun, hn, sends, Trace.exec_append, Trace.exec_append, hs, Option.bind_some, ht]
  exact hu

end Overrun

end SlotState

end Wireframe
