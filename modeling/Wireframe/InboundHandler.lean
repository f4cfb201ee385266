/-
# The inbound handler of a connection

Frames read from a connection pass three stages: the envelope is decoded, fragments are
reassembled, and the frames of a multi-frame message are put together
(`src/app/inbound_handler/core.rs`, `src/app/frame_handling/`).  The stages share one counter of
malformed frames.  Before each read the buffered bytes are measured against the connection's
memory budgets (`backpressure.rs`), whose defaults derive from the frame length
(`src/app/builder_defaults.rs`).

The serializer, the frame codec and the message assembler are supplied by the application and
are functions here.  A stage that fails hands the text it logs to the counter.
-/
import Mathlib.Tactic
import Wireframe.FragmentAdapter
import Wireframe.MessageAssembly
import Wireframe.Trace

namespace Wireframe

/-- An envelope has the parts of a packet: a message id, an optional correlation id and bytes. -/
abbrev Envelope := FragmentParts

/-! ## What the application supplies -/

/-- What `parse` has learnt of a payload when the whole of it is deserialized. -/
structure DeserializeContext where
  frameMetadata : Option (List Byte)
  messageId : Option UInt32
  correlationId : Option UInt64
  metadataBytesConsumed : Option ℕ

/-- The application's serializer, with its errors. -/
structure Serializer (Err : Type) where
  parse : List Byte → Except Err (Envelope × ℕ)
  shouldDeserializeAfterParse : Bool
  deserializeWithContext : List Byte → DeserializeContext → Except Err (Envelope × ℕ)
  deserialize : List Byte → Except Err (Envelope × ℕ)
  /-- the error is a bincode decode error of the kind `LimitExceeded` -/
  isBincodeLimitExceeded : Err → Bool

/-- What the handler uses of a frame codec. -/
structure FrameCodec (Fr : Type) where
  framePayload : Fr → List Byte
  correlationId : Fr → Option UInt64
  maxFrameLength : ℕ

/-- Header of a frame of a multi-frame message. -/
inductive FrameHeader where
  | first (header : FirstFrameHeader)
  | continuation (header : ContinuationFrameHeader)

/-- Result of parsing a frame header from payload bytes. -/
structure ParsedFrameHeader where
  header : FrameHeader
  headerLen : ℕ

/-- The application's parser of message frame headers; an error is carried as its text. -/
structure MessageAssembler where
  parseFrameHeader : List Byte → Except String ParsedFrameHeader

/-! ## Limits and their defaults -/

def minFrameLength : ℕ := 64

def maxFrameLength : ℕ := 16 * 1024 * 1024

/-- Clamp a requested frame length to the supported range. -/
def clampFrameLength (value : ℕ) : ℕ := max minFrameLength (min value maxFrameLength)

/-- Fixed bytes required to wrap a fragment: marker, length prefix and a trivial header. -/
def fragmentOverhead : ℕ :=
  fragmentMagic.length + 2 + (encodeHeader ⟨⟨0⟩, FragmentIndex.zero, false⟩).length

def envelopeGuardBytes : ℕ := 32

def defaultMaxConcurrentPartials : ℕ := 64

def defaultFragmentBufferedBytesMultiplier : ℕ := 64

/-- Derive a configuration from the maximum frame body size. -/
def FragmentationConfig.forFrameBudget (frameBudget : ℕ) (maxMessageSize : NonZeroUsize)
    (reassemblyTimeout : ℕ) : Option FragmentationConfig :=
  if frameBudget ≤ fragmentOverhead then none
  else
    let available := frameBudget - (fragmentOverhead + envelopeGuardBytes)
    if available = 0 then none
    else
      match NonZeroUsize.new available with
      | none => none
      | some fragmentPayloadCap =>
        some {
          fragmentPayloadCap := fragmentPayloadCap
          maxMessageSize := maxMessageSize
          maxConcurrentPartials := NonZeroUsize.new (min frameBudget defaultMaxConcurrentPartials)
          maxBufferedBytes := NonZeroUsize.new
            (max (saturatingMul frameBudget defaultFragmentBufferedBytesMultiplier)
              maxMessageSize.get)
          reassemblyTimeout := reassemblyTimeout }

/-- Thirty seconds, in milliseconds. -/
def defaultFragmentTimeout : ℕ := 30000

def defaultMessageSizeMultiplier : ℕ := 16

def defaultMessageBudgetMultiplier : ℕ := defaultMessageSizeMultiplier

def defaultConnectionBudgetMultiplier : ℕ := 64

def defaultInFlightBudgetMultiplier : ℕ := 64

/-- Derive fragmentation defaults from the codec's frame budget. -/
def defaultFragmentation (frameBudget : ℕ) : Option FragmentationConfig :=
  let clamped := clampFrameLength frameBudget
  let maxMessage :=
    match NonZeroUsize.new (saturatingMul clamped defaultMessageSizeMultiplier) with
    | some limit => some limit
    | none => NonZeroUsize.new clamped
  maxMessage.bind fun limit =>
    FragmentationConfig.forFrameBudget clamped limit defaultFragmentTimeout

/-- Explicit byte caps for per-connection inbound buffering. -/
structure MemoryBudgets where
  bytesPerMessage : NonZeroUsize
  bytesPerConnection : NonZeroUsize
  bytesInFlight : NonZeroUsize
  deriving DecidableEq, Repr

def deriveBudget (frameBudget multiplier : ℕ) : NonZeroUsize :=
  (NonZeroUsize.new (saturatingMul frameBudget multiplier)).getD NonZeroUsize.min

/-- Derive memory budgets from the codec frame budget. -/
def defaultMemoryBudgets (frameBudget : ℕ) : MemoryBudgets :=
  let clamped := clampFrameLength frameBudget
  { bytesPerMessage := deriveBudget clamped defaultMessageBudgetMultiplier
    bytesPerConnection := deriveBudget clamped defaultConnectionBudgetMultiplier
    bytesInFlight := deriveBudget clamped defaultInFlightBudgetMultiplier }

/-- The explicit budgets, or the defaults for the frame budget. -/
def resolveEffectiveBudgets (explicit : Option MemoryBudgets) (frameBudget : ℕ) : MemoryBudgets :=
  explicit.getD (defaultMemoryBudgets frameBudget)

def defaultMessageAssemblyTimeout : ℕ := 30000

/-- Build a connection-scoped message assembly state from known budgets. -/
def newMessageAssemblyState (fragmentation : Option FragmentationConfig) (frameBudget : ℕ)
    (memoryBudgets : Option MemoryBudgets) : MessageAssemblyState :=
  let config := fragmentation.orElse fun _ => defaultFragmentation frameBudget
  let fragMax :=
    match config with
    | none => (NonZeroUsize.new (clampFrameLength frameBudget)).getD NonZeroUsize.min
    | some cfg => cfg.maxMessageSize
  let timeout :=
    match config with
    | none => defaultMessageAssemblyTimeout
    | some cfg => cfg.reassemblyTimeout
  match memoryBudgets with
  | none => .withBudgets fragMax timeout none none
  | some budgets =>
    .withBudgets (fragMax.stricter budgets.bytesPerMessage) timeout
      (some budgets.bytesPerConnection) (some budgets.bytesInFlight)

/-! ## Memory pressure -/

/-- Action to take based on current memory budget pressure; the pause is in milliseconds. -/
inductive MemoryPressureAction where
  | continue
  | pause (duration : ℕ)
  | abort
  deriving DecidableEq, Repr

/-- The stricter connection-wide or in-flight assembly cap. -/
def activeAggregateLimitBytes (budgets : MemoryBudgets) : ℕ :=
  min budgets.bytesPerConnection.get budgets.bytesInFlight.get

/-- What both stages have buffered. -/
def bufferedBytesOf (state : Option MessageAssemblyState) (fragmentBytes : ℕ) : ℕ :=
  saturatingAdd ((state.map MessageAssemblyState.totalBufferedBytes).getD 0) fragmentBytes

def hasHardCapBeenBreached (state : Option MessageAssemblyState) (budgets : Option MemoryBudgets)
    (fragmentBytes : ℕ) : Bool :=
  match budgets with
  | none => false
  | some budgets => activeAggregateLimitBytes budgets < bufferedBytesOf state fragmentBytes

/-- The comparison is made in a word wide enough for both products. -/
def isAtOrAboveSoftLimit (bufferedBytes aggregateLimit : ℕ) : Bool :=
  aggregateLimit * 4 ≤ bufferedBytes * 5

def shouldPauseInboundReads (state : Option MessageAssemblyState) (budgets : Option MemoryBudgets)
    (fragmentBytes : ℕ) : Bool :=
  match budgets with
  | none => false
  | some budgets =>
    isAtOrAboveSoftLimit (bufferedBytesOf state fragmentBytes) (activeAggregateLimitBytes budgets)

/-- Evaluate memory budget pressure: the hard cap first, then the soft limit. -/
def evaluateMemoryPressure (state : Option MessageAssemblyState) (budgets : Option MemoryBudgets)
    (fragmentBytes : ℕ) : MemoryPressureAction :=
  if hasHardCapBeenBreached state budgets fragmentBytes then .abort
  else if shouldPauseInboundReads state budgets fragmentBytes then .pause 5
  else .continue

/-! ## Malformed frames -/

/-- Errors that end the connection. -/
inductive InboundError where
  /-- `InvalidData`: too many deserialization failures -/
  | tooManyDeserializationFailures
  /-- `InvalidData`, carrying the reassembly error -/
  | fragmentCap (err : ReassemblyError)
  /-- `InvalidData`: per-connection memory budget hard cap exceeded -/
  | memoryBudgetHardCapExceeded
  /-- the frame decoder's error -/
  | transport (text : String)
  deriving DecidableEq, Repr

def maxDeserFailures : ℕ := 10

/-- The largest count a `u32` holds. -/
def u32Max : ℕ := 2 ^ 32 - 1

/-- Record one malformed frame; the threshold ends the connection. -/
def recordFailure (count limit : ℕ) : Except InboundError Unit × ℕ :=
  let count := min (count + 1) u32Max
  (if limit ≤ count then .error .tooManyDeserializationFailures else .ok (), count)

/-- What a stage makes of its input: it hands on a value or keeps it, it records a failure, or
it refuses to go on with the connection. -/
inductive StageOutcome (α : Type) where
  | passed (value : Option α)
  | failed (context : String)
  | refused (err : ReassemblyError)

/-- A failure is recorded, and the frame is dropped if the counter allows it. -/
def settle {α : Type} (count limit : ℕ) :
    StageOutcome α → Except InboundError (Option α) × ℕ
  | .passed value => (.ok value, count)
  | .failed _ =>
    match recordFailure count limit with
    | (.error err, count) => (.error err, count)
    | (.ok (), count) => (.ok none, count)
  | .refused err => (.error (.fragmentCap err), count)

/-! ## The stages -/

/-- Everything about a connection that does not change. -/
structure StreamSettings (Fr Err : Type) where
  serializer : Serializer Err
  codec : FrameCodec Fr
  headerCodec : HeaderCodec
  messageAssembler : Option MessageAssembler
  fragmentation : Option FragmentationConfig
  memoryBudgets : Option MemoryBudgets

/-- The state of a connection that the stages read and change. -/
structure InboundState where
  deserFailures : ℕ
  fragmentation : Option DefaultFragmentAdapter
  messageAssembly : Option MessageAssemblyState

variable {Fr Err : Type}

/-- An envelope could not be decoded. -/
inductive EnvelopeError (Err : Type) where
  | serializer (err : Err)
  /-- trailing bytes after envelope: frame must contain exactly one value -/
  | trailingBytes

/-- Decode exactly one envelope, using metadata to select full deserialization. -/
def parseEnvelope (serializer : Serializer Err) (payload : List Byte) :
    Except (EnvelopeError Err) (Envelope × ℕ) :=
  let decoded :=
    match serializer.parse payload with
    | .ok (parsed, consumed) =>
      if serializer.shouldDeserializeAfterParse then
        serializer.deserializeWithContext payload
          ⟨slice payload 0 consumed, some parsed.id, parsed.correlationId, some consumed⟩
      else .ok (parsed, consumed)
    | .error err =>
      if serializer.isBincodeLimitExceeded err then .error err else serializer.deserialize payload
  match decoded with
  | .error err => .error (.serializer err)
  | .ok (envelope, consumed) =>
    if consumed ≠ payload.length then .error .trailingBytes else .ok (envelope, consumed)

/-- Decode an envelope; a missing correlation id is taken from the frame. -/
def decodeEnvelope (cfg : StreamSettings Fr Err) (frame : Fr) : StageOutcome Envelope :=
  match parseEnvelope cfg.serializer (cfg.codec.framePayload frame) with
  | .ok (env, _) =>
    if env.correlationId.isNone then
      .passed (some { env with correlationId := cfg.codec.correlationId frame })
    else .passed (some env)
  | .error _ => .failed "failed to decode message"

/-- Convert fragment-processing errors into counted connection failures. -/
def handleReassemblyResult :
    Except FragmentAdapterError (Option Envelope) → StageOutcome Envelope
  | .ok envelope => .passed envelope
  | .error (.decode _) => .failed "failed to decode fragment header"
  | .error (.reassembly err) =>
    match err with
    | .tooManyConcurrentPartials _ _ | .aggregateBufferCapExceeded _ _ => .refused err
    | .fragment _ | .messageTooLarge _ _ _ => .failed "fragment reassembly failed"

/-- Attempt to reassemble a potentially fragmented envelope. -/
def reassembleIfNeeded (cfg : StreamSettings Fr Err) (state : Option DefaultFragmentAdapter)
    (env : Envelope) (now : Instant) :
    Except Panic (StageOutcome Envelope × Option DefaultFragmentAdapter) :=
  match state with
  | none => .ok (.passed (some env), none)
  | some adapter =>
    (adapter.reassemble cfg.headerCodec env now).map fun out =>
      (handleReassemblyResult out.1, some out.2)

/-- Validate and feed a first assembly frame into connection-local state. -/
def processFirstFrame (state : MessageAssemblyState) (header : FirstFrameHeader)
    (frameBytes : List Byte) (routing : EnvelopeRouting) (now : Instant) :
    Except Panic (StageOutcome AssembledMessage × MessageAssemblyState) :=
  match checkedAdd header.metadataLen header.bodyLen with
  | none => .ok (.failed "message assembly first frame length overflow", state)
  | some expectedLen =>
    if frameBytes.length ≠ expectedLen then
      .ok (.failed "message assembly first frame length mismatch", state)
    else if frameBytes.length < header.metadataLen then
      .ok (.failed "message assembly first frame metadata split failed", state)
    else
      match ByteBuffer.ofList (frameBytes.take header.metadataLen),
          ByteBuffer.ofList (frameBytes.drop header.metadataLen) with
      | .ok metadata, .ok body =>
        if header.metadataLen ≠ metadata.length ∨ header.bodyLen ≠ body.length then
          .ok (.failed "message assembly first frame input validation failed", state)
        else
          match state.acceptFirstFrameAt ⟨header, routing, metadata, body⟩ now with
          | (.ok result, state) => .ok (.passed result, state)
          | (.error _, state) => .ok (.failed "message assembly first frame rejected", state)
      -- a slice is never longer than an allocation
      | _, _ => .error .capacityOverflow

/-- Validate and append a continuation frame in sequence order. -/
def processContinuationFrame (state : MessageAssemblyState) (header : ContinuationFrameHeader)
    (frameBytes : List Byte) (now : Instant) :
    Except Panic (StageOutcome AssembledMessage × MessageAssemblyState) :=
  if frameBytes.length ≠ header.bodyLen then
    .ok (.failed "message assembly continuation frame length mismatch", state)
  else
    match ByteBuffer.ofList frameBytes with
    | .error panic => .error panic
    | .ok body =>
      match state.acceptContinuationFrameAt header body now with
      | .error panic => .error panic
      | .ok (.ok result, state) => .ok (.passed result, state)
      | .ok (.error _, state) =>
        .ok (.failed "message assembly continuation frame rejected", state)

/-- Construct an envelope from a completed message. -/
def fromAssembled (assembled : AssembledMessage) : Except Panic Envelope :=
  (assembled.metadata.extend assembled.body).map fun payload =>
    ⟨assembled.routing.envelopeId.get, assembled.routing.correlationId.map CorrelationId.get,
      payload.toList⟩

/-- A completed message is handed on as an envelope. -/
def handOn (out : StageOutcome AssembledMessage × MessageAssemblyState) :
    Except Panic (StageOutcome Envelope × Option MessageAssemblyState) :=
  match out with
  | (.passed (some assembled), state) =>
    (fromAssembled assembled).map fun env => (.passed (some env), some state)
  | (.passed none, state) => .ok (.passed none, some state)
  | (.failed context, state) => .ok (.failed context, some state)
  | (.refused err, state) => .ok (.refused err, some state)

/-- Apply protocol-level message assembly to a complete post-fragment envelope. -/
def assembleIfNeeded (cfg : StreamSettings Fr Err) (assembly : Option MessageAssemblyState)
    (env : Envelope) (now : Instant) :
    Except Panic (StageOutcome Envelope × Option MessageAssemblyState) :=
  match cfg.messageAssembler, assembly with
  | some assembler, some state =>
    match assembler.parseFrameHeader env.payload with
    | .error _ => .ok (.failed "failed to parse message assembly frame header", some state)
    | .ok parsed =>
      if env.payload.length < parsed.headerLen then
        .ok (.failed "message assembly header length exceeds payload length", some state)
      else
        let frameBytes := env.payload.drop parsed.headerLen
        let routing : EnvelopeRouting := ⟨⟨env.id⟩, env.correlationId.map CorrelationId.mk⟩
        match parsed.header with
        | .first header =>
          match processFirstFrame state header frameBytes routing now with
          | .error panic => .error panic
          | .ok out => handOn out
        | .continuation header =>
          match processContinuationFrame state header frameBytes now with
          | .error panic => .error panic
          | .ok out => handOn out
  | _, assembly => .ok (.passed (some env), assembly)

/-- Build a dispatchable envelope through decode, reassembly and assembly.  The two clock
readings are those of the reassembler and of the message assembly. -/
def buildDispatchableEnvelope (cfg : StreamSettings Fr Err) (s : InboundState) (frame : Fr)
    (reassembledAt assembledAt : Instant) :
    Except Panic (Except InboundError (Option Envelope) × InboundState) :=
  match settle s.deserFailures maxDeserFailures (decodeEnvelope cfg frame) with
  | (.error err, count) => .ok (.error err, { s with deserFailures := count })
  | (.ok none, count) => .ok (.ok none, { s with deserFailures := count })
  | (.ok (some envelope), count) =>
    match reassembleIfNeeded cfg s.fragmentation envelope reassembledAt with
    | .error panic => .error panic
    | .ok (outcome, fragmentation) =>
      match settle count maxDeserFailures outcome with
      | (.error err, count) =>
        .ok (.error err, { s with deserFailures := count, fragmentation := fragmentation })
      | (.ok none, count) =>
        .ok (.ok none, { s with deserFailures := count, fragmentation := fragmentation })
      | (.ok (some envelope), count) =>
        match assembleIfNeeded cfg s.messageAssembly envelope assembledAt with
        | .error panic => .error panic
        | .ok (outcome, messageAssembly) =>
          match settle count maxDeserFailures outcome with
          | (.error err, count) => .ok (.error err, ⟨count, fragmentation, messageAssembly⟩)
          | (.ok none, count) => .ok (.ok none, ⟨count, fragmentation, messageAssembly⟩)
          -- reset only after the entire pipeline succeeds
          | (.ok (some envelope), _) =>
            .ok (.ok (some envelope), ⟨0, fragmentation, messageAssembly⟩)

/-! ## The loop -/

/-- What one read of the loop yields.  A frame comes with the clock readings of its stages and
with what sending the response to it does to the outbound fragmenter. -/
inductive ReadOutcome (Fr : Type) where
  | frame (frame : Fr) (reassembledAt assembledAt : Instant) (respond : Fragmenter → Fragmenter)
  | timedOut (fragmentsAt assembliesAt : Instant)
  | ended
  | failed (text : String)

/-- One turn of the loop: the clock readings of the purge that a pause ends with, and the read. -/
structure Turn (Fr : Type) where
  fragmentsAt : Instant
  assembliesAt : Instant
  read : ReadOutcome Fr

/-- Remove stale fragment and message-assembly state. -/
def InboundState.purgeExpired (s : InboundState) (fragmentsAt assembliesAt : Instant) :
    Except Panic InboundState :=
  let messageAssembly := s.messageAssembly.map fun state => (state.purgeExpiredAt assembliesAt).2
  match s.fragmentation with
  | none => .ok { s with messageAssembly := messageAssembly }
  | some adapter =>
    (adapter.purgeExpired fragmentsAt).map fun out =>
      { s with fragmentation := some out.2, messageAssembly := messageAssembly }

/-- Bytes retained by incomplete fragments on this connection. -/
def InboundState.fragmentationBufferedBytes (s : InboundState) : ℕ :=
  (s.fragmentation.map DefaultFragmentAdapter.bufferedBytes).getD 0

/-- The response to a dispatched envelope goes through the outbound fragmenter. -/
def InboundState.responded (s : InboundState) (respond : Fragmenter → Fragmenter) : InboundState :=
  { s with fragmentation := s.fragmentation.map fun adapter =>
      { adapter with fragmenter := respond adapter.fragmenter } }

/-- Decode one frame, apply reassembly, and dispatch the resulting envelope. -/
def handleFrame (cfg : StreamSettings Fr Err) (s : InboundState) (frame : Fr)
    (reassembledAt assembledAt : Instant) (respond : Fragmenter → Fragmenter) :
    Except Panic (Except InboundError Unit × InboundState) :=
  match buildDispatchableEnvelope cfg s frame reassembledAt assembledAt with
  | .error panic => .error panic
  | .ok (.error err, s) => .ok (.error err, s)
  | .ok (.ok none, s) => .ok (.ok (), s)
  | .ok (.ok (some _), s) => .ok (.ok (), s.responded respond)

/-- What became of a frame. -/
inductive FrameVerdict where
  | failed (context : String)
  | refused (err : ReassemblyError)
  | incomplete
  | dispatched (envelope : Envelope)
  deriving DecidableEq, Repr

/-- A stage decides, or hands the envelope to the next. -/
def StageOutcome.decide (outcome : StageOutcome Envelope)
    (next : Envelope → Except Panic FrameVerdict) : Except Panic FrameVerdict :=
  match outcome with
  | .failed context => .ok (.failed context)
  | .refused err => .ok (.refused err)
  | .passed none => .ok .incomplete
  | .passed (some envelope) => next envelope

/-- What becomes of a frame, by the stages alone: the first one that does not hand it on decides. -/
def frameVerdict (cfg : StreamSettings Fr Err) (s : InboundState) (frame : Fr)
    (reassembledAt assembledAt : Instant) : Except Panic FrameVerdict :=
  (decodeEnvelope cfg frame).decide fun envelope =>
    match reassembleIfNeeded cfg s.fragmentation envelope reassembledAt with
    | .error panic => .error panic
    | .ok (outcome, _) =>
      outcome.decide fun envelope =>
        match assembleIfNeeded cfg s.messageAssembly envelope assembledAt with
        | .error panic => .error panic
        | .ok (outcome, _) => outcome.decide fun envelope => .ok (.dispatched envelope)

/-- The state of `process_stream`, how it returned, and what became of the frames so far. -/
structure InboundRun where
  state : InboundState
  result : Option (Except InboundError Unit)
  verdicts : List FrameVerdict

namespace InboundRun

def effectiveBudgets (cfg : StreamSettings Fr Err) : MemoryBudgets :=
  resolveEffectiveBudgets cfg.memoryBudgets cfg.codec.maxFrameLength

/-- A connection before its first read. -/
def start (cfg : StreamSettings Fr Err) : InboundRun where
  state :=
    { deserFailures := 0
      fragmentation := cfg.fragmentation.map DefaultFragmentAdapter.new
      messageAssembly := cfg.messageAssembler.map fun _ =>
        newMessageAssemblyState cfg.fragmentation cfg.codec.maxFrameLength
          (some (effectiveBudgets cfg)) }
  result := none
  verdicts := []

/-- The read of a turn and what is done with it; a panic ends the task. -/
def read (cfg : StreamSettings Fr Err) (r : InboundRun) : ReadOutcome Fr → Option InboundRun
  | .frame frame reassembledAt assembledAt respond =>
    match frameVerdict cfg r.state frame reassembledAt assembledAt,
        handleFrame cfg r.state frame reassembledAt assembledAt respond with
    | .ok v, .ok (.error err, s) => some ⟨s, some (.error err), r.verdicts ++ [v]⟩
    | .ok v, .ok (.ok (), s) => some ⟨s, none, r.verdicts ++ [v]⟩
    | _, _ => none
  | .timedOut fragmentsAt assembliesAt =>
    match r.state.purgeExpired fragmentsAt assembliesAt with
    | .error _ => none
    | .ok s => some { r with state := s }
  | .ended => some { r with result := some (.ok ()) }
  | .failed text => some { r with result := some (.error (.transport text)) }

/-- The pressure the loop acts on before it reads. -/
def pressure (cfg : StreamSettings Fr Err) (r : InboundRun) : MemoryPressureAction :=
  evaluateMemoryPressure r.state.messageAssembly (some (effectiveBudgets cfg))
    r.state.fragmentationBufferedBytes

/-- One turn of the loop; there is none after `process_stream` has returned. -/
def step (cfg : StreamSettings Fr Err) (r : InboundRun) (turn : Turn Fr) : Option InboundRun :=
  match r.result with
  | some _ => none
  | none =>
    match r.pressure cfg with
    | .abort => some { r with result := some (.error .memoryBudgetHardCapExceeded) }
    | .pause _ =>
      match r.state.purgeExpired turn.fragmentsAt turn.assembliesAt with
      | .error _ => none
      | .ok s => { r with state := s }.read cfg turn.read
    | .continue => r.read cfg turn.read

end InboundRun

end Wireframe
