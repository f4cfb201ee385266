/-
# Message assembly

The stateful tracker of concurrent message assemblies (`src/message_assembler/state.rs`,
`partial.rs`, `budget.rs`, `validation.rs`, `types.rs`): a map of partial assemblies keyed by
message key, with expiry, per-message and aggregate limits, and the declared-total contract.

Appending to a body panics when the body would outgrow an allocation; that is the only panic
here.  The sum of the buffered bytes wraps, as an unchecked `sum` does.
-/
import Mathlib.Tactic
import Wireframe.Fragment
import Wireframe.KeyedMap
import Wireframe.MachineWord
import Wireframe.MessageSeries

namespace Wireframe

/-! ## Inputs, messages and errors -/

structure EnvelopeId where
  get : UInt32
  deriving DecidableEq, Repr

structure CorrelationId where
  get : UInt64
  deriving DecidableEq, Repr

/-- Transport routing carried by the first frame of a message. -/
structure EnvelopeRouting where
  envelopeId : EnvelopeId
  correlationId : Option CorrelationId
  deriving DecidableEq, Repr

/-- Input data for a first frame. -/
structure FirstFrameInput where
  header : FirstFrameHeader
  routing : EnvelopeRouting
  metadata : ByteBuffer
  body : ByteBuffer
  deriving DecidableEq, Repr

/-- Container for a fully assembled message. -/
structure AssembledMessage where
  messageKey : MessageKey
  routing : EnvelopeRouting
  metadata : ByteBuffer
  body : ByteBuffer
  deriving DecidableEq, Repr

/-- Errors produced during message assembly. -/
inductive MessageAssemblyError where
  | series (err : MessageSeriesError)
  | duplicateFirstFrame (key : MessageKey)
  | messageTooLarge (key : MessageKey) (attempted : ℕ) (limit : NonZeroUsize)
  | connectionBudgetExceeded (key : MessageKey) (attempted : ℕ) (limit : NonZeroUsize)
  | inFlightBudgetExceeded (key : MessageKey) (attempted : ℕ) (limit : NonZeroUsize)
  | declaredTotalTooSmall (key : MessageKey) (declared bodyLen : ℕ)
  | declaredTotalExceeded (key : MessageKey) (declared attempted : ℕ)
  | declaredTotalMismatch (key : MessageKey) (declared actual : ℕ)
  deriving DecidableEq, Repr

/-! ## Limits -/

/-- Paired connection and in-flight budget limits. -/
structure AggregateBudgets where
  connection : Option NonZeroUsize
  inFlight : Option NonZeroUsize
  deriving DecidableEq, Repr

/-- Whether at least one aggregate budget limit is configured. -/
def AggregateBudgets.isEnabled (budgets : AggregateBudgets) : Bool :=
  budgets.connection.isSome || budgets.inFlight.isSome

/-- Every limit that governs whether a continuation body may be buffered. -/
structure ContinuationLimits where
  maxMessageSize : NonZeroUsize
  budgets : AggregateBudgets
  deriving DecidableEq, Repr

/-- Check whether `newTotal` bytes exceed one configured limit. -/
def checkBudget (limit : Option NonZeroUsize) (newTotal : ℕ)
    (exceeded : NonZeroUsize → MessageAssemblyError) : Except MessageAssemblyError Unit :=
  match limit with
  | some limit => if limit.get < newTotal then .error (exceeded limit) else .ok ()
  | none => .ok ()

/-- Check whether accepting `additionalBytes` for `key` would exceed the connection budget or
the in-flight budget. -/
def checkAggregateBudgets (key : MessageKey) (currentTotal additionalBytes : ℕ)
    (budgets : AggregateBudgets) : Except MessageAssemblyError Unit :=
  let newTotal := saturatingAdd currentTotal additionalBytes
  match checkBudget budgets.connection newTotal (.connectionBudgetExceeded key newTotal) with
  | .error err => .error err
  | .ok () => checkBudget budgets.inFlight newTotal (.inFlightBudgetExceeded key newTotal)

/-- Check if accumulated size plus new body would exceed the per-message size limit. -/
def checkSizeLimit (maxMessageSize : NonZeroUsize) (key : MessageKey) (accumulated bodyLen : ℕ) :
    Except MessageAssemblyError ℕ :=
  match checkedAdd accumulated bodyLen with
  | none => .error (.messageTooLarge key usizeMax maxMessageSize)
  | some newLen =>
    if maxMessageSize.get < newLen then .error (.messageTooLarge key newLen maxMessageSize)
    else .ok newLen

/-! ## Declared totals -/

/-- Validate the declaration carried by a first frame. -/
def validateFirstFrame (header : FirstFrameHeader) (bodyLen : ℕ) :
    Except MessageAssemblyError Unit :=
  match header.totalBodyLen with
  | none => .ok ()
  | some declared =>
    if declared < bodyLen then
      .error (.declaredTotalTooSmall header.messageKey declared bodyLen)
    else if header.isLast ∧ declared ≠ bodyLen then
      .error (.declaredTotalMismatch header.messageKey declared bodyLen)
    else .ok ()

/-- Validate that appending `bodyLen` bytes keeps the assembly within its declared total. -/
def validateContinuation (key : MessageKey) (declared accumulated bodyLen : ℕ) :
    Except MessageAssemblyError Unit :=
  match checkedAdd accumulated bodyLen with
  | none => .error (.declaredTotalExceeded key declared usizeMax)
  | some attempted =>
    if declared < attempted then .error (.declaredTotalExceeded key declared attempted) else .ok ()

/-- Validate that a completed assembly matches its declared total exactly. -/
def validateCompletion (key : MessageKey) (declared actual : ℕ) : Except MessageAssemblyError Unit :=
  if actual ≠ declared then .error (.declaredTotalMismatch key declared actual) else .ok ()

/-! ## Partial assemblies -/

/-- Partial message assembly in progress. -/
structure PartialAssembly where
  series : MessageSeries
  routing : EnvelopeRouting
  metadata : ByteBuffer
  body : ByteBuffer
  startedAt : Instant
  deriving DecidableEq, Repr

namespace PartialAssembly

/-- Start a new assembly from an admitted first frame. -/
def fromFirstFrame (input : FirstFrameInput) (startedAt : Instant) : PartialAssembly where
  series := MessageSeries.fromFirstFrame input.header
  routing := input.routing
  metadata := input.metadata
  body := input.body
  startedAt := startedAt

/-- Body bytes buffered so far, excluding metadata. -/
def bodyLen (p : PartialAssembly) : ℕ := p.body.length

/-- Declared total body length, if the first frame supplied one. -/
def declaredTotal (p : PartialAssembly) : Option ℕ := p.series.expectedTotal

/-- Validate continuity and report whether the series is now complete. -/
def acceptContinuation (p : PartialAssembly) (header : ContinuationFrameHeader) :
    Except MessageSeriesError MessageSeriesStatus × PartialAssembly :=
  match p.series.acceptContinuation header with
  | (result, series) => (result, { p with series := series })

/-- Apply size, budget and declared-total admission checks to a continuation body. -/
def admitContinuation (p : PartialAssembly) (bodyLen bufferedTotal : ℕ)
    (limits : ContinuationLimits) : Except MessageAssemblyError Unit :=
  let key := p.series.messageKey
  let accumulated := p.bodyLen
  match checkSizeLimit limits.maxMessageSize key accumulated bodyLen with
  | .error err => .error err
  | .ok _ =>
    match checkAggregateBudgets key bufferedTotal bodyLen limits.budgets with
    | .error err => .error err
    | .ok () =>
      match p.declaredTotal with
      | some declared => validateContinuation key declared accumulated bodyLen
      | none => .ok ()

/-- Append an admitted continuation body. -/
def pushBody (p : PartialAssembly) (body : ByteBuffer) : Except Panic PartialAssembly :=
  match p.body.extend body with
  | .error panic => .error panic
  | .ok extended => .ok { p with body := extended }

/-- Bytes retained for this assembly, including metadata. -/
def bufferedBytes (p : PartialAssembly) : ℕ := saturatingAdd p.metadata.length p.body.length

/-- Consume the assembly, enforcing any declared total. -/
def intoMessage (p : PartialAssembly) : Except MessageAssemblyError (Option AssembledMessage) :=
  let key := p.series.messageKey
  let message : AssembledMessage := ⟨key, p.routing, p.metadata, p.body⟩
  match p.series.expectedTotal with
  | some declared =>
    match validateCompletion key declared p.body.length with
    | .error err => .error err
    | .ok () => .ok (some message)
  | none => .ok (some message)

end PartialAssembly

/-! ## The state -/

/-- What accepting one frame returns to its caller. -/
abbrev AssemblyResult := Except MessageAssemblyError (Option AssembledMessage)

/-- Stateful manager for multiple concurrent message assemblies. -/
structure MessageAssemblyState where
  maxMessageSize : NonZeroUsize
  timeout : ℕ
  assemblies : KeyedMap MessageKey PartialAssembly
  budgets : AggregateBudgets

namespace MessageAssemblyState

/-- A state with optional aggregate budgets. -/
def withBudgets (maxMessageSize : NonZeroUsize) (timeout : ℕ)
    (connectionBudget inFlightBudget : Option NonZeroUsize) : MessageAssemblyState :=
  ⟨maxMessageSize, timeout, ∅, ⟨connectionBudget, inFlightBudget⟩⟩

/-- Whether a partial assembly exceeded the configured timeout at the reading `now`. -/
def expired (timeout : ℕ) (now : Instant) (p : PartialAssembly) : Bool :=
  decide (timeout ≤ saturatingDurationSince now p.startedAt)

/-- Remove expired assemblies using an explicit clock reading; returns the keys of evicted
assemblies. -/
def purgeExpiredAt (s : MessageAssemblyState) (now : Instant) :
    List MessageKey × MessageAssemblyState :=
  ((s.assemblies.entries.filter fun e => expired s.timeout now e.2).map fun e => e.1,
    { s with assemblies := s.assemblies.retain fun _ p => !expired s.timeout now p })

/-- Total bytes buffered across all in-flight assemblies. -/
def totalBufferedBytes (s : MessageAssemblyState) : ℕ :=
  (s.assemblies.sumBy fun _ p => p.bufferedBytes) % 2 ^ 64

/-- Whether a continuity error is unrecoverable and requires assembly removal. -/
def isUnrecoverableContinuityError : MessageSeriesError → Bool
  | .keyMismatch _ _ | .sequenceOverflow _ | .missingFirstFrame _ | .missingSequence _
  | .continuationBodyLengthMismatch _ _ _ => true
  | .sequenceMismatch _ _ | .seriesComplete | .duplicateFrame _ _ => false

/-- Process a first frame with an explicit timestamp. -/
def acceptFirstFrameAt (s : MessageAssemblyState) (input : FirstFrameInput) (now : Instant) :
    AssemblyResult × MessageAssemblyState :=
  let s := (s.purgeExpiredAt now).2
  let key := input.header.messageKey
  if (s.assemblies.lookup key).isSome then (.error (.duplicateFirstFrame key), s)
  else
    match validateFirstFrame input.header input.body.length with
    | .error err => (.error err, s)
    | .ok () =>
      -- prefer the declared total body length, include metadata
      let declaredBodyLen := input.header.totalBodyLen.getD input.body.length
      let totalMessageSize := saturatingAdd declaredBodyLen input.metadata.length
      if s.maxMessageSize.get < totalMessageSize then
        (.error (.messageTooLarge key totalMessageSize s.maxMessageSize), s)
      else if input.header.isLast then
        (.ok (some ⟨key, input.routing, input.metadata, input.body⟩), s)
      else
        let incomingBytes := saturatingAdd input.body.length input.metadata.length
        let admitted :=
          if s.budgets.isEnabled then
            checkAggregateBudgets key s.totalBufferedBytes incomingBytes s.budgets
          else .ok ()
        match admitted with
        | .error err => (.error err, s)
        | .ok () =>
          (.ok none, { s with
            assemblies := s.assemblies.insert key (PartialAssembly.fromFirstFrame input now) })

/-- The bytes a continuation is measured against: the scan is skipped without budgets. -/
def bufferedTotal (s : MessageAssemblyState) : ℕ :=
  if s.budgets.isEnabled then s.totalBufferedBytes else 0

/-- The rest of `accept_continuation_frame_at`, at the occupied entry of the frame's key. -/
def continueEntry (s : MessageAssemblyState) (p : PartialAssembly)
    (header : ContinuationFrameHeader) (body : ByteBuffer) :
    Except Panic (AssemblyResult × MessageAssemblyState) :=
  let key := header.messageKey
  let removed := { s with assemblies := s.assemblies.erase key }
  match p.acceptContinuation header with
  | (.error err, p) =>
    if isUnrecoverableContinuityError err then .ok (.error (.series err), removed)
    else .ok (.error (.series err), { s with assemblies := s.assemblies.replace key p })
  | (.ok status, p) =>
    match p.admitContinuation body.length s.bufferedTotal ⟨s.maxMessageSize, s.budgets⟩ with
    | .error err => .ok (.error err, removed)
    | .ok () =>
      match p.pushBody body with
      | .error panic => .error panic
      | .ok p =>
        match status with
        | .incomplete => .ok (.ok none, { s with assemblies := s.assemblies.replace key p })
        | .complete => .ok (p.intoMessage, removed)

/-- Process a continuation frame with an explicit timestamp. -/
def acceptContinuationFrameAt (s : MessageAssemblyState) (header : ContinuationFrameHeader)
    (body : ByteBuffer) (now : Instant) : Except Panic (AssemblyResult × MessageAssemblyState) :=
  let s := (s.purgeExpiredAt now).2
  let key := header.messageKey
  if header.bodyLen ≠ body.length then
    -- the entry is not looked at, so an assembly of this key stays
    .ok (.error (.series (.continuationBodyLengthMismatch key header.bodyLen body.length)), s)
  else
    match s.assemblies.lookup key with
    | none => .ok (.error (.series (.missingFirstFrame key)), s)
    | some p => s.continueEntry p header body

end MessageAssemblyState

/-! ## Calls -/

/-- One call on the state. -/
inductive AssemblyCall where
  | firstFrame (input : FirstFrameInput) (now : Instant)
  | continuationFrame (header : ContinuationFrameHeader) (body : ByteBuffer) (now : Instant)
  | purgeExpired (now : Instant)
  deriving DecidableEq, Repr

/-- What a call returns. -/
inductive AssemblyReturn where
  | frame (result : AssemblyResult)
  | evicted (keys : List MessageKey)

namespace MessageAssemblyState

def call (s : MessageAssemblyState) :
    AssemblyCall → Except Panic (AssemblyReturn × MessageAssemblyState)
  | .firstFrame input now =>
    let (result, s) := s.acceptFirstFrameAt input now
    .ok (.frame result, s)
  | .continuationFrame header body now =>
    (s.acceptContinuationFrameAt header body now).map fun r => (.frame r.1, r.2)
  | .purgeExpired now =>
    let (keys, s) := s.purgeExpiredAt now
    .ok (.evicted keys, s)

end MessageAssemblyState

end Wireframe
