/-
# When a lease keeps the protocol gate

A lease is meant to keep the gate's permit between its operations exactly while a reply is
pending, so that no operation waits for a permit its own lease stores.  The stored permit
belongs to the lease and not to the operation, so dropping an operation does not give it
back; `StrandsGate` names the cancellations after which nothing else does.  The discipline
holds along a run exactly when the run has none of them (`gateDiscipline_iff`).
-/
import Mathlib.Tactic
import Wireframe.PoolOwnership

namespace Wireframe

/-! ## The discipline and the cancellations that break it -/

/-- Whether dropping an operation in this phase leaves its lease with the permit and no
reply to wait for. -/
def Phase.strands (pending : ℕ) : Phase → Bool
  -- the connection's guard clears the pending count but cannot reach the permit
  | .running _ _ => true
  -- before the checkout has succeeded there is no guard
  | .checkout | .recheckout => pending = 0
  | .gate => false

namespace SlotState

/-- Between its operations a lease stores the permit exactly while a reply is pending, and
no operation waits for the gate while its own lease stores the permit. -/
def GateDiscipline (s : SlotState) : Prop :=
  ∀ l, ((s.leases l).operation = none →
      ((s.leases l).pendingResponsePermit = true ↔ 0 < (s.leases l).pendingResponses)) ∧
    ∀ kind, (s.leases l).operation = some ⟨kind, .gate⟩ →
      (s.leases l).pendingResponsePermit = false

/-- The event cancels an operation at a point where its permit is stranded. -/
def StrandsGate (s : SlotState) (e : SlotEvent) : Prop :=
  ∃ l op, e = .cancelled l ∧ (s.leases l).operation = some op ∧
    op.phase.strands (s.leases l).pendingResponses = true

/-! ## What keeps the discipline -/

/-- The discipline of one lease; an operation that waits for the gate has no reply pending
either, and one that is past the gate runs under the permit. -/
structure Tidy (x : Lease) : Prop where
  between : x.operation = none → (x.pendingResponsePermit = true ↔ 0 < x.pendingResponses)
  waiting : ∀ kind, x.operation = some ⟨kind, .gate⟩ →
    x.pendingResponsePermit = false ∧ x.pendingResponses = 0
  inside : ∀ op, x.operation = some op → op.phase ≠ .gate → x.pendingResponsePermit = true

section Tidy

variable {s s' : SlotState} {l : LeaseId} {x : Lease}

/-- Past the gate the discipline asks for the permit alone. -/
theorem Tidy.of_phase {op : Operation} (hop : x.operation = some op) (hphase : op.phase ≠ .gate)
    (hpermit : x.pendingResponsePermit = true) : Tidy x where
  between := by
    intro h
    exact absurd (hop.symm.trans h) (by simp)
  waiting := by
    intro kind h
    obtain rfl := Option.some.inj (hop.symm.trans h)
    exact absurd rfl hphase
  inside := fun _ _ _ => hpermit

/-- Between two operations. -/
theorem Tidy.of_none (hop : x.operation = none)
    (h : x.pendingResponsePermit = true ↔ 0 < x.pendingResponses) : Tidy x where
  between := fun _ => h
  waiting := by
    intro kind hwaiting
    exact absurd (hop.symm.trans hwaiting) (by simp)
  inside := by
    intro op hinside
    exact absurd (hop.symm.trans hinside) (by simp)

/-- The queue of a lease does not matter to its discipline. -/
theorem Tidy.requeue (h : Tidy x) (waiting : List OperationKind) :
    Tidy { x with waiting := waiting } :=
  ⟨h.between, h.waiting, h.inside⟩

/-- A step of one lease has to keep the discipline of that lease only. -/
theorem tidy_of_local (ht : ∀ l, Tidy (s.leases l))
    (hothers : ∀ l', l' ≠ l → s'.leases l' = s.leases l') (hl : Tidy (s'.leases l)) :
    ∀ l, Tidy (s'.leases l) := by
  intro l'
  by_cases h : l' = l
  · rw [h]
    exact hl
  · rw [hothers l' h]
    exact ht l'

/-- An admitted operation waits outside the gate without a permit, or inside it. -/
theorem admitOperation_tidy {kind : OperationKind} (ht : Tidy (s.leases l))
    (hop : (s.leases l).operation = none) : Tidy ((s.admitOperation l kind).leases l) := by
  rw [admitOperation]
  split_ifs with hdiscard hzero
  · refine .of_none ?_ ?_
    all_goals simp [discardConnectionWithPendingResponse, takePermit, setLease, hop]
  · have hpermit : (s.leases l).pendingResponsePermit = false := by
      have := ht.between hop
      rw [hzero] at this
      simpa using this
    rw [suspend, setLease_self]
    refine ⟨by simp, fun _ _ => ⟨hpermit, hzero⟩, ?_⟩
    intro op hwaits hphase
    cases hwaits
    exact absurd rfl hphase
  · rw [suspend, setLease_self]
    exact .of_phase rfl (by simp) ((ht.between hop).mpr (Nat.pos_of_ne_zero hzero))

theorem failCheckout_tidy : Tidy ((s.failCheckout l).leases l) := by
  rw [failCheckout]
  split_ifs with hp
  · refine .of_none ?_ ?_
    all_goals simp [discardConnectionWithPendingResponse, takePermit, endOperation, setLease]
  · refine .of_none ?_ ?_
    all_goals simp [takePermit, endOperation, setLease]
    omega

/-- The gate is kept exactly while a reply is pending. -/
theorem finishProtocolPermit_tidy (hpermit : (s.leases l).pendingResponsePermit = true) :
    Tidy (((s.finishProtocolPermit l).endOperation l).leases l) := by
  rw [finishProtocolPermit]
  split_ifs with hp
  · refine .of_none ?_ ?_
    all_goals simp [endOperation, setLease, hpermit, hp]
  · refine .of_none ?_ ?_
    all_goals simp [takePermit, endOperation, setLease]
    omega

theorem finishOperation_tidy {kind : OperationKind} {conn : ConnId}
    {result : Except ClientError Unit} (hpermit : (s.leases l).pendingResponsePermit = true) :
    Tidy ((s.finishOperation l kind conn result).leases l) := by
  rcases result with err | _
  · rw [finishOperation]
    split_ifs with hrecycle
    · refine .of_none ?_ ?_
      all_goals simp [clearPending, dropConnection, takePermit, endOperation, setLease]
    · exact finishProtocolPermit_tidy hpermit
  · refine finishProtocolPermit_tidy ?_
    cases kind <;> simpa [OperationKind.change, recordResponseChange, dropConnection, setLease]

theorem dropLease_tidy (hop : (s.leases l).operation = none) :
    Tidy ((s.dropLease l).leases l) := by
  rw [dropLease]
  split_ifs with hp
  · refine .of_none ?_ ?_
    all_goals simp [discardConnectionWithPendingResponse, takePermit, setLease, hop]
  · refine .of_none ?_ ?_
    all_goals simp [takePermit, setLease, hop]
    omega

/-- A cancellation that strands no permit: the operation waited for the gate, or its lease
has a reply pending and keeps the permit for it. -/
theorem cancelOperation_tidy {op : Operation} (ht : Tidy (s.leases l))
    (hop : (s.leases l).operation = some op)
    (hstrands : ¬ op.phase.strands (s.leases l).pendingResponses = true) :
    Tidy ((s.cancelOperation l op.phase).leases l) := by
  obtain ⟨kind, phase⟩ := op
  cases phase with
  | running conn progress => exact absurd rfl hstrands
  | gate =>
    obtain ⟨hpermit, hzero⟩ := ht.waiting kind hop
    refine .of_none ?_ ?_
    all_goals simp [cancelOperation, endOperation, setLease, hpermit, hzero]
  | checkout | recheckout =>
    have hpermit := ht.inside _ hop (by simp)
    have hpos : 0 < (s.leases l).pendingResponses := by
      simpa [Phase.strands, Nat.pos_iff_ne_zero] using hstrands
    refine .of_none ?_ ?_
    all_goals simp [cancelOperation, endOperation, setLease, hpermit, hpos]

/-- Every event but a stranding cancellation keeps the discipline. -/
theorem step_tidy {e : SlotEvent} (ht : ∀ l, Tidy (s.leases l)) (hstrands : ¬ s.StrandsGate e)
    (h : s.step e = some s') : ∀ l, Tidy (s'.leases l) := by
  cases step_cases h with
  | leaseAcquired _ =>
    refine tidy_of_local ht setLease_of_ne ?_
    rw [setLease_self]
    exact .of_none rfl (by simp [Lease.new])
  | @started l kind _ | @unqueued l _ _ =>
    refine tidy_of_local ht setLease_of_ne ?_
    rw [setLease_self]
    exact (ht l).requeue _
  | @locked l kind rest hop _ =>
    refine tidy_of_local ht ((setLease_local _).trans (admitOperation_local kind)).others ?_
    refine admitOperation_tidy ?_ ?_
    · rw [setLease_self]
      exact (ht l).requeue _
    · rw [setLease_self]
      exact hop
  | gateGranted hop _ =>
    refine tidy_of_local ht (storePermit_local.trans (setLease_local _)).others ?_
    rw [suspend, setLease_self, storePermit, setLease_self]
    exact .of_phase rfl (by simp) rfl
  | @connected l kind conn t hop hget =>
    have hpermit := (ht l).inside _ hop (by simp)
    refine tidy_of_local ht
      ((getConnection_local hget).trans (inspectConnection_local _ _)).others ?_
    rw [← getConnection_leases hget] at hpermit
    rw [inspectConnection]
    split_ifs
    all_goals
      rw [suspend, setLease_self]
      exact .of_phase rfl (by simp) hpermit
  | @reconnected l kind conn t hop hget =>
    have hpermit := (ht l).inside _ hop (by simp)
    rw [← getConnection_leases hget] at hpermit
    refine tidy_of_local ht ((getConnection_local hget).trans (setLease_local _)).others ?_
    rw [suspend, setLease_self]
    exact .of_phase rfl (by simp) hpermit
  | checkoutFailed hop _ => exact tidy_of_local ht failCheckout_local.others failCheckout_tidy
  | @wrote l _ _ hop _ | @received l _ _ _ _ _ hop _ _ =>
    have hpermit := (ht l).inside _ hop (by simp)
    refine tidy_of_local ht setLease_of_ne ?_
    rw [suspend, setLease_self]
    exact .of_phase rfl (by simp) hpermit
  | @finished l _ _ _ hop _ | @failed l _ _ _ _ hop _ =>
    have hpermit := (ht l).inside _ hop (by simp)
    exact tidy_of_local ht (finishOperation_local _ _ _).others (finishOperation_tidy hpermit)
  | @cancelled l op hop =>
    refine tidy_of_local ht (cancelOperation_local _).others
      (cancelOperation_tidy (ht l) hop ?_)
    intro hphase
    exact hstrands ⟨l, op, rfl, hop, hphase⟩
  | leaseDropped hop _ _ => exact tidy_of_local ht dropLease_local.others (dropLease_tidy hop)
  | replaced _ | answered _ | elapsed => exact ht

end Tidy

/-! ## Whole runs -/

/-- The invariant of the runs that strand no permit. -/
def Disciplined (s : SlotState) : Prop := ∀ l, Tidy (s.leases l)

theorem disciplined_gateDiscipline (s : SlotState) (h : s.Disciplined) : s.GateDiscipline := by
  intro l
  exact ⟨(h l).between, fun kind hop => ((h l).waiting kind hop).1⟩

/-- A stranding cancellation leaves its lease with the permit and nothing to wait for. -/
theorem strandsGate_breaks {s : SlotState} {e : SlotEvent} (hd : s.Disciplined)
    (h : s.StrandsGate e) : ∃ t, s.step e = some t ∧ ¬ t.GateDiscipline := by
  obtain ⟨l, op, rfl, hop, hstrands⟩ := h
  have hstep : s.step (.cancelled l) = some (s.cancelOperation l op.phase) := by
    simp only [step, hop]
  have hphase : op.phase ≠ .gate := by
    intro hgate
    rw [hgate] at hstrands
    exact absurd hstrands (by simp [Phase.strands])
  have hpermit := (hd l).inside op hop hphase
  refine ⟨_, hstep, fun hkept => ?_⟩
  -- the lease is between operations again, with the permit and a pending count of zero
  suffices hstranded : ((s.cancelOperation l op.phase).leases l).operation = none ∧
      ((s.cancelOperation l op.phase).leases l).pendingResponsePermit = true ∧
      ((s.cancelOperation l op.phase).leases l).pendingResponses = 0 by
    obtain ⟨hnone, hstored, hzero⟩ := hstranded
    have hpos := ((hkept l).1 hnone).mp hstored
    omega
  obtain ⟨kind, phase⟩ := op
  cases phase with
  | gate => exact absurd rfl hphase
  | checkout | recheckout =>
    have hzero : (s.leases l).pendingResponses = 0 := by simpa [Phase.strands] using hstrands
    simp [cancelOperation, endOperation, setLease, hpermit, hzero]
  | running conn progress =>
    simp [cancelOperation, clearPending, dropConnection, endOperation, setLease, hpermit]

/-- **When the gate is kept.**  Along a run of a slot, every lease stores the permit between
its operations exactly while a reply is pending, and no operation waits for a permit its own
lease stores, if and only if no operation is cancelled while it runs on a connection, or
while it waits for one with no reply pending. -/
theorem gateDiscipline_iff (idleTimeout : ℕ) (events : List SlotEvent) :
    Trace.Always step GateDiscipline (new idleTimeout) events ↔
      Trace.Never step StrandsGate (new idleTimeout) events := by
  have hnew : (new idleTimeout).Disciplined :=
    fun _ => .of_none rfl (by simp [new, Lease.unused])
  exact Trace.always_iff_never disciplined_gateDiscipline
    (fun _ _ _ hd hstrands hstep => step_tidy hd hstrands hstep)
    (fun _ _ hd hstrands => strandsGate_breaks hd hstrands) hnew events

/-- A send is cancelled while it runs on its connection; the next one is started. -/
def cancelledSend : List SlotEvent :=
  [.leaseAcquired 0, .started 0 .send, .locked 0, .gateGranted 0, .connected 0, .cancelled 0,
   .started 0 .send, .locked 0]

/-- After the cancellation the lease stores the permit with no reply pending, and its next
operation waits for that permit. -/
theorem cancelledSend_strands_gate :
    (∃ s, Trace.exec step (new 30) (cancelledSend.take 6) = some s ∧ ¬ s.GateDiscipline ∧
      s.leases 0 = ⟨.alive, 0, true, none, []⟩) ∧
    ∃ s, Trace.exec step (new 30) cancelledSend = some s ∧ ¬ s.GateDiscipline ∧
      s.leases 0 = ⟨.alive, 0, true, some ⟨.send, .gate⟩, []⟩ ∧
      s.step (.gateGranted 0) = none := by
  have hcancelled : (Trace.exec step (new 30) (cancelledSend.take 6)).isSome = true := by decide
  have hrun : (Trace.exec step (new 30) cancelledSend).isSome = true := by decide
  constructor
  · refine ⟨(Trace.exec step (new 30) (cancelledSend.take 6)).get hcancelled,
      (Option.some_get hcancelled).symm, ?_, rfl⟩
    intro hd
    have hpos : 0 < 0 := ((hd 0).1 rfl).mp rfl
    omega
  · refine ⟨(Trace.exec step (new 30) cancelledSend).get hrun, (Option.some_get hrun).symm,
      ?_, rfl, rfl⟩
    intro hd
    have hfree : true = false := (hd 0).2 .send rfl
    exact absurd hfree (by decide)

end SlotState

end Wireframe
