/-
# The reassembler

The inbound half of the fragmentation layer (`src/fragment/reassembler/`): a map of
partial messages keyed by message id, a byte counter maintained next to it, and
admission limits on message size, number of partials and buffered bytes.

These functions panic in two places: `release_bytes` asserts that the counter holds
the bytes it gives back, and a map cannot grow past the address space.
-/
import Mathlib.Tactic
import Wireframe.KeyedMap
import Wireframe.Fragment

namespace Wireframe

/-- Errors produced while re-assembling inbound fragments. -/
inductive ReassemblyError where
  | fragment (err : FragmentError)
  | messageTooLarge (messageId : MessageId) (attempted : ℕ) (limit : NonZeroUsize)
  | tooManyConcurrentPartials (attempted : ℕ) (limit : NonZeroUsize)
  | aggregateBufferCapExceeded (attempted : ℕ) (limit : NonZeroUsize)
  deriving DecidableEq, Repr

/-! ## The budget -/

/-- Per-connection limits and exact accounting for retained partial payloads. -/
structure ReassemblyBudget where
  maxMessageSize : NonZeroUsize
  maxConcurrentPartials : Option NonZeroUsize
  maxBufferedBytes : Option NonZeroUsize
  bufferedBytes : ℕ
  deriving DecidableEq, Repr

namespace ReassemblyBudget

/-- A fresh budget with no retained payload bytes. -/
def new (maxMessageSize : NonZeroUsize)
    (maxConcurrentPartials maxBufferedBytes : Option NonZeroUsize) : ReassemblyBudget :=
  ⟨maxMessageSize, maxConcurrentPartials, maxBufferedBytes, 0⟩

/-- Reject a message that exceeds the configured per-message cap. -/
def assertWithinMessageLimit (b : ReassemblyBudget) (messageId : MessageId) (attempted : ℕ) :
    Except ReassemblyError Unit :=
  if b.maxMessageSize.get < attempted then
    .error (.messageTooLarge messageId attempted b.maxMessageSize)
  else .ok ()

/-- Reject a newly retained message when the concurrent partial cap is full. -/
def assertWithinPartialLimit (b : ReassemblyBudget) (bufferedPartials : ℕ) :
    Except ReassemblyError Unit :=
  match b.maxConcurrentPartials with
  | some limit =>
    let attempted := saturatingAdd bufferedPartials 1
    if limit.get < attempted then .error (.tooManyConcurrentPartials attempted limit) else .ok ()
  | none => .ok ()

/-- Add retained bytes when the aggregate cap permits the growth. -/
def addBytes (b : ReassemblyBudget) (additional : ℕ) : Except ReassemblyError ReassemblyBudget :=
  match checkedAdd b.bufferedBytes additional with
  | none =>
    .error (.aggregateBufferCapExceeded usizeMax (b.maxBufferedBytes.getD NonZeroUsize.max))
  | some attempted =>
    match b.maxBufferedBytes with
    | some limit =>
      if limit.get < attempted then .error (.aggregateBufferCapExceeded attempted limit)
      else .ok { b with bufferedBytes := attempted }
    | none => .ok { b with bufferedBytes := attempted }

/-- Release bytes when a partial leaves the in-flight map. -/
def releaseBytes (b : ReassemblyBudget) (bytes : ℕ) : Except Panic ReassemblyBudget :=
  if bytes ≤ b.bufferedBytes then .ok { b with bufferedBytes := b.bufferedBytes - bytes }
  else .error .arithmeticUnderflow

theorem releaseBytes_eq_ok (b : ReassemblyBudget) {bytes : ℕ} (h : bytes ≤ b.bufferedBytes) :
    b.releaseBytes bytes = .ok { b with bufferedBytes := b.bufferedBytes - bytes } := by
  rw [releaseBytes, if_pos h]

/-- The byte cap in force: the configured one, or the width of the counter. -/
def byteCap (b : ReassemblyBudget) : NonZeroUsize := b.maxBufferedBytes.getD NonZeroUsize.max

/-- The counter grows exactly when the cap in force admits the growth. -/
theorem addBytes_eq (b : ReassemblyBudget) (additional : ℕ) :
    b.addBytes additional =
      if b.bufferedBytes + additional ≤ b.byteCap.get then
        .ok { b with bufferedBytes := b.bufferedBytes + additional }
      else .error (.aggregateBufferCapExceeded (saturatingAdd b.bufferedBytes additional) b.byteCap) := by
  have hcap := b.byteCap.le_max
  unfold addBytes saturatingAdd
  rcases hadd : checkedAdd b.bufferedBytes additional with _ | attempted
  · have hover := checkedAdd_eq_none_iff.mp hadd
    rw [if_neg (by omega), Nat.min_eq_right (by omega)]
    rfl
  · obtain ⟨hle, rfl⟩ := checkedAdd_eq_some_iff.mp hadd
    rw [Nat.min_eq_left hle]
    rcases hmax : b.maxBufferedBytes with _ | limit
    · have hmax' : b.byteCap = NonZeroUsize.max := by simp [byteCap, hmax]
      rw [if_pos (by rw [hmax']; exact hle)]
    · have hmax' : b.byteCap = limit := by simp [byteCap, hmax]
      rw [hmax']
      by_cases h : b.bufferedBytes + additional ≤ limit.get
      · simp only [if_neg (Nat.not_lt.mpr h), if_pos h]
      · simp only [if_pos (Nat.not_le.mp h), if_neg h]

end ReassemblyBudget

/-! ## Partial messages and the reassembler -/

/-- Owned state retained while a message's remaining fragments arrive. -/
structure PartialMessage where
  series : FragmentSeries
  buffer : List Byte
  startedAt : Instant
  deriving DecidableEq, Repr

/-- The number of payload bytes currently buffered. -/
def PartialMessage.len (p : PartialMessage) : ℕ := p.buffer.length

/-- Append an ordered fragment payload to the owned reassembly buffer. -/
def PartialMessage.push (p : PartialMessage) (payload : List Byte) : PartialMessage :=
  { p with buffer := p.buffer ++ payload }

/-- Container for a fully re-assembled message payload. -/
structure ReassembledMessage where
  messageId : MessageId
  payload : List Byte
  deriving DecidableEq, Repr

/-- What one push returns to its caller. -/
abbrev PushResult := Except ReassemblyError (Option ReassembledMessage)

/-- Stateful fragment re-assembler with timeout-based eviction. -/
structure Reassembler where
  budget : ReassemblyBudget
  timeout : ℕ
  buffers : KeyedMap MessageId PartialMessage

namespace Reassembler

/-- A re-assembler with per-message and optional aggregate limits. -/
def new (maxMessageSize : NonZeroUsize) (timeout : ℕ)
    (maxConcurrentPartials maxBufferedBytes : Option NonZeroUsize) : Reassembler :=
  ⟨ReassemblyBudget.new maxMessageSize maxConcurrentPartials maxBufferedBytes, timeout, ∅⟩

/-- Number of payload bytes currently retained across all partial messages. -/
def bufferedBytes (r : Reassembler) : ℕ := r.budget.bufferedBytes

/-- Number of partial messages currently buffered. -/
def bufferedLen (r : Reassembler) : ℕ := r.buffers.size

/-- Whether a partial exceeded the configured timeout at the reading `now`. -/
def expired (timeout : ℕ) (now : Instant) (p : PartialMessage) : Bool :=
  decide (timeout ≤ saturatingDurationSince now p.startedAt)

/-- The closure of `retain`, run over the entries: release every expired partial and
collect its identifier. -/
def releaseExpired (timeout : ℕ) (now : Instant) :
    List (Σ _ : MessageId, PartialMessage) → ReassemblyBudget → List MessageId →
      Except Panic (ReassemblyBudget × List MessageId)
  | [], budget, evicted => .ok (budget, evicted)
  | e :: rest, budget, evicted =>
    if expired timeout now e.2 then
      match budget.releaseBytes e.2.len with
      | .error panic => .error panic
      | .ok budget => releaseExpired timeout now rest budget (evicted ++ [e.1])
    else releaseExpired timeout now rest budget evicted

/-- Remove any partial messages that exceeded the configured timeout using an explicit
clock reading. -/
def purgeExpiredAt (r : Reassembler) (now : Instant) : Except Panic (List MessageId × Reassembler) :=
  match releaseExpired r.timeout now r.buffers.entries r.budget [] with
  | .error panic => .error panic
  | .ok (budget, evicted) =>
    .ok (evicted,
      { r with budget := budget
               buffers := r.buffers.retain fun _ p => !expired r.timeout now p })

/-- Remove a partial and release its contribution from aggregate accounting. -/
def removePartial (r : Reassembler) (messageId : MessageId) (p : PartialMessage) :
    Except Panic Reassembler :=
  match r.budget.releaseBytes p.len with
  | .error panic => .error panic
  | .ok budget => .ok { r with budget := budget, buffers := r.buffers.erase messageId }

/-- Append an accepted payload and remove the entry when it completes. -/
def appendAndMaybeComplete (r : Reassembler) (messageId : MessageId) (p : PartialMessage)
    (payload : List Byte) (completes : Bool) : Except Panic (PushResult × Reassembler) :=
  match checkedAdd p.len payload.length with
  | none =>
    (r.removePartial messageId p).map fun r' =>
      (.error (.messageTooLarge messageId usizeMax r.budget.maxMessageSize), r')
  | some attempted =>
    match r.budget.assertWithinMessageLimit messageId attempted with
    | .error err => (r.removePartial messageId p).map fun r => (.error err, r)
    | .ok () =>
      match r.budget.addBytes payload.length with
      | .error err => (r.removePartial messageId p).map fun r => (.error err, r)
      | .ok budget =>
        let p := p.push payload
        if completes then
          ({ r with budget := budget }.removePartial messageId p).map fun r =>
            (.ok (some ⟨messageId, p.buffer⟩), r)
        else
          .ok (.ok none, { r with budget := budget, buffers := r.buffers.replace messageId p })

/-- Validate and append a fragment for an already-started series. -/
def pushExistingFragment (r : Reassembler) (p : PartialMessage) (header : FragmentHeader)
    (payload : List Byte) : Except Panic (PushResult × Reassembler) :=
  -- the occupied entry is keyed by the fragment's own message id
  let messageId := header.messageId
  match p.series.accept header with
  | (.ok .incomplete, series) =>
    r.appendAndMaybeComplete messageId { p with series := series } payload false
  | (.ok .duplicate, series) =>
    .ok (.ok none, { r with buffers := r.buffers.replace messageId { p with series := series } })
  | (.ok .complete, series) =>
    r.appendAndMaybeComplete messageId { p with series := series } payload true
  | (.error err, series) =>
    (r.removePartial messageId { p with series := series }).map fun r =>
      (.error (.fragment err), r)

/-- Validate limits before allocating state for a previously unseen message. -/
def pushFirstFragment (r : Reassembler) (header : FragmentHeader) (payload : List Byte)
    (now : Instant) : Except Panic (PushResult × Reassembler) :=
  match FragmentSeries.startWithFirst header with
  | .error err => .ok (.error (.fragment err), r)
  | .ok (series, isComplete) =>
    match r.budget.assertWithinMessageLimit header.messageId payload.length with
    | .error err => .ok (.error err, r)
    | .ok () =>
      if isComplete then .ok (.ok (some ⟨header.messageId, payload⟩), r)
      else
        match r.budget.assertWithinPartialLimit r.buffers.size with
        | .error err => .ok (.error err, r)
        | .ok () =>
          match r.budget.addBytes payload.length with
          | .error err => .ok (.error err, r)
          | .ok budget =>
            -- a table whose length no longer fits a word cannot be allocated
            if usizeMax < r.buffers.size + 1 then .error .capacityOverflow
            else
              .ok (.ok none,
                { r with budget := budget
                         buffers := r.buffers.insert header.messageId ⟨series, payload, now⟩ })

/-- Process a fragment using an explicit clock reading. -/
def pushAt (r : Reassembler) (header : FragmentHeader) (payload : List Byte) (now : Instant) :
    Except Panic (PushResult × Reassembler) :=
  match r.purgeExpiredAt now with
  | .error panic => .error panic
  | .ok (_, r) =>
    match r.buffers.lookup header.messageId with
    | some p => r.pushExistingFragment p header payload
    | none => r.pushFirstFragment header payload now

end Reassembler

end Wireframe
