/-
# The connection actor

The actor that writes a connection's outbound frames (`src/connection/`): it polls the
shutdown token, the high- and the low-priority queue and at most one active output (a
response stream or a multi-packet channel) in that order, and appends what it receives to
`out`.

An event of the model is one poll of one arm of the `select!` together with the handling of
what it returned (that code does not await), or a move of the environment: a frame is queued,
a source ends, the token is cancelled.  Every element of `out` is kept with the source it came
from, and `ActorRun` also records what was sent to each source, which sources were marked
closed and which hooks were called.
-/
import Mathlib.Tactic
import Wireframe.Channel
import Wireframe.FragmentAdapter

namespace Wireframe

/-! ## Fairness -/

/-- Configuration controlling fairness when draining push queues. -/
structure FairnessConfig where
  maxHighBeforeLow : ℕ
  timeSlice : Option ℕ
  deriving DecidableEq, Repr

/-- Scheduling state enforcing bounded high-priority bursts. -/
structure FairnessTracker where
  config : FairnessConfig
  highCounter : ℕ
  highStart : Option Instant
  deriving DecidableEq, Repr

namespace FairnessTracker

def new (config : FairnessConfig) : FairnessTracker := ⟨config, 0, none⟩

/-- Count one high-priority frame; the first of a burst starts its timer.  The counter is a machine
word and a count beyond it panics. -/
def recordHighPriority (f : FairnessTracker) (now : Instant) : Except Panic FairnessTracker :=
  match checkedAdd f.highCounter 1 with
  | none => .error .arithmeticOverflow
  | some counted =>
    .ok { f with
      highCounter := counted
      highStart := if counted = 1 then some now else f.highStart }

/-- The count goes up by one, and the policy stays. -/
theorem recordHighPriority_eq_ok {f f' : FairnessTracker} {now : Instant}
    (h : f.recordHighPriority now = .ok f') :
    f'.config = f.config ∧ f'.highCounter = f.highCounter + 1 := by
  unfold recordHighPriority at h
  split at h
  · cases h
  · rename_i counted hcounted
    cases h
    exact ⟨rfl, (checkedAdd_eq_some_iff.mp hcounted).2⟩

/-- Only a counter at the end of its word panics. -/
theorem le_of_recordHighPriority_error {f : FairnessTracker} {now : Instant} {panic : Panic}
    (h : f.recordHighPriority now = .error panic) :
    panic = .arithmeticOverflow ∧ usizeMax ≤ f.highCounter := by
  unfold recordHighPriority at h
  split at h
  · rename_i hnone
    have hover := checkedAdd_eq_none_iff.mp hnone
    exact ⟨(Except.error.inj h).symm, by omega⟩
  · cases h

/-- Whether the policy requires checking the low-priority queue. -/
def shouldYieldToLowPriority (f : FairnessTracker) (now : Instant) : Bool :=
  if 0 < f.config.maxHighBeforeLow ∧ f.config.maxHighBeforeLow ≤ f.highCounter then true
  else
    match f.config.timeSlice, f.highStart with
    | some slice, some start => decide (slice ≤ saturatingDurationSince now start)
    | _, _ => false

/-- End the current high-priority burst. -/
def reset (f : FairnessTracker) : FairnessTracker := { f with highCounter := 0, highStart := none }

end FairnessTracker

/-! ## Lifecycle state -/

inductive RunState where
  | active
  | shuttingDown
  | finished
  deriving DecidableEq, Repr

/-- Tracks progress through the actor lifecycle. -/
structure ActorState where
  runState : RunState
  closedSources : ℕ
  totalSources : ℕ
  deriving DecidableEq, Repr

namespace ActorState

/-- The shutdown token counts as a closed source from the start. -/
def new (hasResponse hasMultiPacket : Bool) : ActorState where
  runState := .active
  closedSources := 1
  totalSources := 3 + hasResponse.toNat + hasMultiPacket.toNat

def markClosed (s : ActorState) : ActorState where
  runState := if s.totalSources ≤ s.closedSources + 1 then .finished else s.runState
  closedSources := s.closedSources + 1
  totalSources := s.totalSources

def startShutdown (s : ActorState) : ActorState :=
  if s.runState = .active then { s with runState := .shuttingDown } else s

def isActive (s : ActorState) : Bool := s.runState = .active

def isShuttingDown (s : ActorState) : Bool := s.runState = .shuttingDown

def isDone (s : ActorState) : Bool := s.runState = .finished

end ActorState

/-! ## The active output -/

/-- Errors a response stream can yield; those of other layers are carried as their text. -/
inductive WireframeError (E : Type) where
  | duplicateRoute (id : UInt32)
  | io (text : String)
  | protocol (err : E)
  | codec (text : String)

/-- How frames of the multi-packet channel are stamped. -/
inductive MultiPacketStamp where
  | disabled
  | enabled (correlationId : Option UInt64)
  deriving DecidableEq, Repr

/-- Multi-packet channel state: the receiver and the stamp. -/
structure MultiPacketContext (F : Type) where
  channel : Option (Channel F)
  stamp : MultiPacketStamp

namespace MultiPacketContext

variable {F : Type}

/-- Stamping is enabled exactly with a channel. -/
def install (channel : Option (Channel F)) (correlationId : Option UInt64) :
    MultiPacketContext F where
  channel := channel
  stamp := if channel.isSome then .enabled correlationId else .disabled

def isStampingEnabled (ctx : MultiPacketContext F) : Bool :=
  match ctx.stamp with
  | .enabled _ => true
  | .disabled => false

def correlationId (ctx : MultiPacketContext F) : Option UInt64 :=
  match ctx.stamp with
  | .enabled value => value
  | .disabled => none

end MultiPacketContext

/-- Active output source: at most one at a time. -/
inductive ActiveOutput (F E : Type) where
  | none
  | response (stream : Channel (Except (WireframeError E) F))
  | multiPacket (ctx : MultiPacketContext F)

/-- Eligible active output source for the next poll. -/
inductive AvailableOutput where
  | none
  | multiPacket
  | response
  deriving DecidableEq, Repr

/-- Availability of event sources polled by the connection actor. -/
structure EventAvailability where
  high : Bool
  low : Bool
  output : AvailableOutput
  deriving DecidableEq, Repr

/-- Result of shutting down an active output source (the correlation id is only logged). -/
structure ShutdownResult where
  sourceClosed : Bool
  callOnCommandEnd : Bool
  deriving DecidableEq, Repr

namespace ActiveOutput

variable {F E : Type}

/-- No output is polled once shutdown has begun. -/
def availableOutput (output : ActiveOutput F E) (isShuttingDown : Bool) : AvailableOutput :=
  if isShuttingDown then .none
  else
    match output with
    | .none => .none
    | .response _ => .response
    | .multiPacket _ => .multiPacket

def isResponse : ActiveOutput F E → Bool
  | .response _ => true
  | _ => false

def isMultiPacket : ActiveOutput F E → Bool
  | .multiPacket _ => true
  | _ => false

def clearResponse : ActiveOutput F E → ActiveOutput F E
  | .response _ => .none
  | output => output

/-- Take the output and say what is left to do. -/
def shutdown : ActiveOutput F E → ShutdownResult
  | .multiPacket ctx => ⟨ctx.channel.isSome, true⟩
  | .response _ => ⟨true, false⟩
  | .none => ⟨false, false⟩

/-- Close the receiver; the context stays for the terminator's stamp. -/
def closeMultiPacket : ActiveOutput F E → ActiveOutput F E
  | .multiPacket ctx => .multiPacket { ctx with channel := ctx.channel.map Channel.close }
  | output => output

end ActiveOutput

/-! ## Hooks -/

/-- A frame with an optional correlation identifier. -/
class CorrelatableFrame (F : Type) where
  correlationId : F → Option UInt64
  setCorrelationId : F → Option UInt64 → F

instance : CorrelatableFrame FragmentParts where
  correlationId := FragmentParts.correlationId
  setCorrelationId parts correlationId := { parts with correlationId := correlationId }

/-- The callbacks a connection runs; `H` is whatever state they keep.  A callback that is not
registered leaves its arguments alone and supplies no frame. -/
structure ProtocolHooks (F E H : Type) where
  beforeSend : H → F → F × H
  onCommandEnd : H → H
  handleError : H → E → H
  streamEndFrame : H → Option F × H

/-- No callback is registered. -/
def ProtocolHooks.default (F E : Type) : ProtocolHooks F E Unit where
  beforeSend h f := (f, h)
  onCommandEnd h := h
  handleError h _ := h
  streamEndFrame h := (none, h)

/-- The calls of hooks, as they are recorded. -/
inductive HookCall where
  | beforeSend
  | onCommandEnd
  | handleError
  | streamEndFrame
  deriving DecidableEq, Repr

/-! ## A run of the actor -/

/-- Where a frame of `out` came from. -/
inductive Origin where
  | high
  | low
  | output
  | terminator
  deriving DecidableEq, Repr

/-- Queue variants processed by the connection actor. -/
inductive QueueKind where
  | high
  | low
  | multi
  deriving DecidableEq, Repr

def QueueKind.origin : QueueKind → Origin
  | .high => .high
  | .low => .low
  | .multi => .output

/-- Why the active output was closed. -/
inductive OutputEnd where
  | drained
  | disconnected
  | protocolError
  | shutdown
  deriving DecidableEq, Repr

/-- A source that was marked closed. -/
inductive Closure where
  | high
  | low
  | output (reason : OutputEnd)
  deriving DecidableEq, Repr

/-- Events returned by `next_event`. -/
inductive Event (F E : Type) where
  | shutdown
  | high (res : Option F)
  | low (res : Option F)
  | multiPacket (res : Option F)
  | response (res : Option (Except (WireframeError E) F))
  | idle

/-- Where `run` stands: before its first check, about to poll an arm of the `select!`, or at
its end. -/
inductive RunPoint (E : Type) where
  | notStarted
  | pollShutdown
  | pollHigh
  | pollLow
  | pollOutput
  | aborted
  | returned (result : Except (WireframeError E) Unit)
  | panicked (panic : Panic)

/-- The actor, the local variables of `run`, and the history of both. -/
structure ActorRun (F E H : Type) where
  highRx : Option (Channel F)
  lowRx : Option (Channel F)
  activeOutput : ActiveOutput F E
  /-- whether the token is cancelled -/
  shutdown : Bool
  hooks : H
  fairness : FairnessTracker
  fragmenter : Option Fragmenter
  state : ActorState
  out : List (Origin × F)
  point : RunPoint E
  sentHigh : List F
  sentLow : List F
  sentOutput : List (Except (WireframeError E) F)
  events : List (Event F E)
  closures : List Closure
  invoked : List HookCall

/-- What does not change during a run: the callbacks and the serializer of fragment headers. -/
structure ActorSettings (F E H : Type) where
  hooks : ProtocolHooks F E H
  headerCodec : HeaderCodec

namespace ActorRun

variable {F E H : Type} [CorrelatableFrame F] [Fragmentable F] (cfg : ActorSettings F E H)

/-! ### Emitting frames -/

/-- Push a single frame to `out` after the hook has seen it. -/
def pushFrame (origin : Origin) (r : ActorRun F E H) (frame : F) : ActorRun F E H :=
  let sent := cfg.hooks.beforeSend r.hooks frame
  { r with
    hooks := sent.2
    out := r.out ++ [(origin, sent.1)]
    invoked := r.invoked ++ [.beforeSend] }

/-- Fragment a frame if configured; a frame that cannot be fragmented is dropped. -/
def processFrame (origin : Origin) (r : ActorRun F E H) (frame : F) :
    Except Panic (ActorRun F E H) :=
  match r.fragmenter with
  | none => .ok (r.pushFrame cfg origin frame)
  | some fragmenter =>
    match fragmentPacket cfg.headerCodec fragmenter frame with
    | .error panic => .error panic
    | .ok (.ok frames, fragmenter) =>
      .ok (frames.foldl (pushFrame cfg origin) { r with fragmenter := some fragmenter })
    | .ok (.error _, fragmenter) => .ok { r with fragmenter := some fragmenter }

/-- Stamp a frame of the multi-packet channel. -/
def applyMultiPacketCorrelation (r : ActorRun F E H) (frame : F) : F :=
  match r.activeOutput with
  | .multiPacket ctx =>
    if ctx.isStampingEnabled then CorrelatableFrame.setCorrelationId frame ctx.correlationId
    else frame
  | _ => frame

def emitMultiPacketFrame (origin : Origin) (r : ActorRun F E H) (frame : F) :
    Except Panic (ActorRun F E H) :=
  r.processFrame cfg origin (r.applyMultiPacketCorrelation frame)

/-! ### Closing sources -/

/-- Mark a source as closed. -/
def markClosed (r : ActorRun F E H) (closure : Closure) : ActorRun F E H :=
  { r with state := r.state.markClosed, closures := r.closures ++ [closure] }

def onCommandEnd (r : ActorRun F E H) : ActorRun F E H :=
  { r with hooks := cfg.hooks.onCommandEnd r.hooks, invoked := r.invoked ++ [.onCommandEnd] }

/-- Ask the hook for a terminator. -/
def streamEndFrame (r : ActorRun F E H) : Option F × ActorRun F E H :=
  let asked := cfg.hooks.streamEndFrame r.hooks
  (asked.1, { r with hooks := asked.2, invoked := r.invoked ++ [.streamEndFrame] })

/-- Reset burst history after a frame that is not of high priority. -/
def afterLow (r : ActorRun F E H) : ActorRun F E H := { r with fairness := r.fairness.reset }

/-- The multi-packet channel has ended: emit the terminator and tell the hooks. -/
def handleMultiPacketClosed (reason : OutputEnd) (r : ActorRun F E H) :
    Except Panic (ActorRun F E H) :=
  let r := { r with activeOutput := r.activeOutput.closeMultiPacket }.markClosed (.output reason)
  match r.streamEndFrame cfg with
  | (none, r) => .ok ({ r with activeOutput := .none }.onCommandEnd cfg)
  | (some frame, r) =>
    match r.emitMultiPacketFrame cfg .terminator frame with
    | .error panic => .error panic
    | .ok r => .ok ({ r.afterLow with activeOutput := .none }.onCommandEnd cfg)

/-- Cancellation was observed: close the queues and abandon the active output. -/
def processShutdown (r : ActorRun F E H) : ActorRun F E H :=
  let result := r.activeOutput.shutdown
  let r := { r with
    state := r.state.startShutdown
    highRx := r.highRx.map Channel.close
    lowRx := r.lowRx.map Channel.close
    activeOutput := .none }
  let r := if result.sourceClosed then r.markClosed (.output .shutdown) else r
  if result.callOnCommandEnd then r.onCommandEnd cfg else r

/-! ### Draining queues -/

/-- Perform one low-priority drain that does not wait; `true` when a frame was forwarded. -/
def tryOpportunisticLowDrain (r : ActorRun F E H) : Except Panic (Bool × ActorRun F E H) :=
  match r.lowRx with
  | none => .ok (false, r)
  | some receiver =>
    match receiver.tryRecv with
    | (.ok frame, receiver) =>
      match { r with lowRx := some receiver }.processFrame cfg .low frame with
      | .error panic => .error panic
      | .ok r => .ok (true, r.afterLow)
    | (.error .empty, receiver) => .ok (false, { r with lowRx := some receiver })
    | (.error .disconnected, _) => .ok (false, { r with lowRx := none }.markClosed .low)

/-- Perform one multi-packet drain that does not wait. -/
def tryOpportunisticMultiDrain (r : ActorRun F E H) : Except Panic (Bool × ActorRun F E H) :=
  match r.activeOutput with
  | .multiPacket ctx =>
    match ctx.channel with
    | none => .ok (false, r)
    | some rx =>
      match rx.tryRecv with
      | (.ok frame, rx) =>
        let r := { r with activeOutput := .multiPacket { ctx with channel := some rx } }
        match r.emitMultiPacketFrame cfg .output frame with
        | .error panic => .error panic
        | .ok r => .ok (true, r.afterLow)
      | (.error .empty, rx) =>
        .ok (false, { r with activeOutput := .multiPacket { ctx with channel := some rx } })
      | (.error .disconnected, rx) =>
        let r := { r with activeOutput := .multiPacket { ctx with channel := some rx } }
        match r.handleMultiPacketClosed cfg .disconnected with
        | .error panic => .error panic
        | .ok r => .ok (false, r)
  | _ => .ok (false, r)

/-- Update counters and drain the low-priority and multi-packet queues when fairness asks for
it.  `recorded` and `asked` are the clock readings of the two steps of the tracker. -/
def afterHigh (recorded asked : Instant) (r : ActorRun F E H) : Except Panic (ActorRun F E H) :=
  match r.fairness.recordHighPriority recorded with
  | .error panic => .error panic
  | .ok fairness =>
    let r := { r with fairness := fairness }
    if r.fairness.shouldYieldToLowPriority asked then
      match r.tryOpportunisticLowDrain cfg with
      | .error panic => .error panic
      | .ok (true, r) => .ok r
      | .ok (false, r) =>
        match r.tryOpportunisticMultiDrain cfg with
        | .error panic => .error panic
        | .ok (_, r) => .ok r
    else .ok r

/-- Multi-packet output needs stamping. -/
def shouldEmitMultiPacketFrame (kind : QueueKind) (r : ActorRun F E H) : Bool :=
  match kind, r.activeOutput with
  | .multi, .multiPacket ctx => ctx.isStampingEnabled
  | _, _ => false

/-- Forward one frame, then update fairness and lifecycle bookkeeping. -/
def forwardQueueFrame (recorded asked : Instant) (kind : QueueKind) (frame : F)
    (r : ActorRun F E H) : Except Panic (ActorRun F E H) :=
  let emitted :=
    if r.shouldEmitMultiPacketFrame kind then r.emitMultiPacketFrame cfg kind.origin frame
    else r.processFrame cfg kind.origin frame
  match emitted with
  | .error panic => .error panic
  | .ok r =>
    match kind with
    | .high => r.afterHigh cfg recorded asked
    | .low | .multi => .ok r.afterLow

/-- Mark a source closed when polling reports no further frames. -/
def handleEmptyQueue (kind : QueueKind) (r : ActorRun F E H) : Except Panic (ActorRun F E H) :=
  match kind with
  | .high =>
    let r := { r with highRx := none }.markClosed .high
    .ok { r with fairness := r.fairness.reset }
  | .low => .ok ({ r with lowRx := none }.markClosed .low)
  | .multi => r.handleMultiPacketClosed cfg .drained

/-- Process a queue-backed source. -/
def processQueue (recorded asked : Instant) (kind : QueueKind) (res : Option F)
    (r : ActorRun F E H) : Except Panic (ActorRun F E H) :=
  match res with
  | some frame => r.forwardQueueFrame cfg recorded asked kind frame
  | none => r.handleEmptyQueue cfg kind

/-! ### The response stream -/

/-- Push a frame from the response stream into `out` or handle completion.  Protocol errors
end the stream, other errors end the run. -/
def handleResponse (res : Option (Except (WireframeError E) F)) (r : ActorRun F E H) :
    Except Panic (Except (WireframeError E) Bool × ActorRun F E H) :=
  match res with
  | some (.ok frame) => (r.processFrame cfg .output frame).map fun r => (.ok true, r)
  | some (.error (.protocol err)) =>
    let r : ActorRun F E H := { r with
      hooks := cfg.hooks.handleError r.hooks err
      invoked := r.invoked ++ [.handleError] }
    let r := r.markClosed (.output .protocolError)
    let r := { r with activeOutput := r.activeOutput.clearResponse }
    .ok (.ok false, r.onCommandEnd cfg)
  | some (.error err) => .ok (.error err, r)
  | none =>
    match (r.markClosed (.output .drained)).streamEndFrame cfg with
    | (none, r) => .ok (.ok false, r.onCommandEnd cfg)
    | (some frame, r) =>
      (r.processFrame cfg .terminator frame).map fun r => (.ok true, r.onCommandEnd cfg)

/-- Handle the next frame or error from the streaming response. -/
def processResponse (res : Option (Except (WireframeError E) F)) (r : ActorRun F E H) :
    Except Panic (Except (WireframeError E) Unit × ActorRun F E H) :=
  match r.handleResponse cfg res with
  | .error panic => .error panic
  | .ok (.error err, r) => .ok (.error err, r)
  | .ok (.ok produced, r) =>
    let r := if produced then r.afterLow else r
    .ok (.ok (), if res.isNone then { r with activeOutput := r.activeOutput.clearResponse } else r)

/-! ### The loop -/

/-- Dispatch the given event to the appropriate handler. -/
def dispatchEvent (recorded asked : Instant) (event : Event F E) (r : ActorRun F E H) :
    Except Panic (Except (WireframeError E) Unit × ActorRun F E H) :=
  match event with
  | .shutdown => .ok (.ok (), r.processShutdown cfg)
  | .high res => (r.processQueue cfg recorded asked .high res).map fun r => (.ok (), r)
  | .low res => (r.processQueue cfg recorded asked .low res).map fun r => (.ok (), r)
  | .multiPacket res => (r.processQueue cfg recorded asked .multi res).map fun r => (.ok (), r)
  | .response res => r.processResponse cfg res
  | .idle => .ok (.ok (), r)

/-- Which event sources are currently available for polling. -/
def computeAvailability (r : ActorRun F E H) : EventAvailability where
  high := r.highRx.isSome
  low := r.lowRx.isSome
  output := r.activeOutput.availableOutput r.state.isShuttingDown

/-- Some arm of the `select!` is enabled, so that an event other than `idle` can be selected. -/
def anyArmEnabled (r : ActorRun F E H) : Bool :=
  r.state.isActive || r.computeAvailability.high || r.computeAvailability.low ||
    r.computeAvailability.output != .none

/-- The event is dispatched and the loop starts again, unless it ends the run.  A panic unwinds
through `run`; what it leaves half done is not looked at any more. -/
def handleEvent (recorded asked : Instant) (before : ActorRun F E H) (event : Event F E)
    (r : ActorRun F E H) : ActorRun F E H :=
  let r := { r with events := r.events ++ [event] }
  match r.dispatchEvent cfg recorded asked event with
  | .error panic => { before with point := .panicked panic }
  | .ok (.error err, r) => { r with point := .returned (.error err) }
  | .ok (.ok (), r) => { r with point := .pollShutdown }

/-- Poll the next arm, in the biased order of the `select!`.  An arm that is not enabled or not
ready passes on to the next one, and the last one back to the first. -/
def poll (recorded asked : Instant) (r : ActorRun F E H) : Option (ActorRun F E H) :=
  match r.point with
  | .notStarted =>
    if r.shutdown then some { r with point := .aborted } else some { r with point := .pollShutdown }
  | .pollShutdown =>
    if r.state.isDone then some { r with point := .returned (.ok ()) }
    else if r.state.isActive && r.shutdown then some (r.handleEvent cfg recorded asked .shutdown r)
    else some { r with point := .pollHigh }
  | .pollHigh =>
    match r.highRx with
    | none => some { r with point := .pollLow }
    | some rx =>
      match rx.recv with
      | (.pending, rx) => some { r with highRx := some rx, point := .pollLow }
      | (.ready res, rx) =>
        some (r.handleEvent cfg recorded asked (.high res) { r with highRx := some rx })
  | .pollLow =>
    match r.lowRx with
    | none => some { r with point := .pollOutput }
    | some rx =>
      match rx.recv with
      | (.pending, rx) => some { r with lowRx := some rx, point := .pollOutput }
      | (.ready res, rx) =>
        some (r.handleEvent cfg recorded asked (.low res) { r with lowRx := some rx })
  | .pollOutput =>
    if r.anyArmEnabled then
      match r.computeAvailability.output, r.activeOutput with
      | .multiPacket, .multiPacket ⟨some rx, stamp⟩ =>
        match rx.recv with
        | (.pending, rx) =>
          some { r with activeOutput := .multiPacket ⟨some rx, stamp⟩, point := .pollShutdown }
        | (.ready res, rx) =>
          some (r.handleEvent cfg recorded asked (.multiPacket res)
            { r with activeOutput := .multiPacket ⟨some rx, stamp⟩ })
      | .multiPacket, _ => some (r.handleEvent cfg recorded asked (.multiPacket none) r)
      | .response, .response stream =>
        match stream.recv with
        | (.pending, stream) =>
          some { r with activeOutput := .response stream, point := .pollShutdown }
        | (.ready res, stream) =>
          some (r.handleEvent cfg recorded asked (.response res)
            { r with activeOutput := .response stream })
      | _, _ => some { r with point := .pollShutdown }
    else some (r.handleEvent cfg recorded asked .idle r)
  | .aborted | .returned _ | .panicked _ => none

end ActorRun

/-! ## Events -/

/-- What can happen next: the actor polls an arm, or the environment moves. -/
inductive ActorEvent (F E : Type) where
  /-- the actor polls; the clock readings are used if a high-priority frame is handled -/
  | polled (recorded asked : Instant)
  | highSent (frame : F)
  | lowSent (frame : F)
  /-- the response stream has an item ready, or a frame is sent to the multi-packet channel -/
  | outputSent (item : Except (WireframeError E) F)
  | highClosed
  | lowClosed
  | outputClosed
  | cancelled

/-- The active output a run is started with. -/
inductive OutputKind where
  | none
  | response
  | multiPacket (correlationId : Option UInt64)
  deriving DecidableEq, Repr

namespace ActorRun

variable {F E H : Type} [CorrelatableFrame F] [Fragmentable F]

/-- A freshly built actor, before `run` is called. -/
def start (kind : OutputKind) (fairness : FairnessConfig) (fragmenter : Option Fragmenter)
    (hooks : H) : ActorRun F E H :=
  let activeOutput : ActiveOutput F E :=
    match kind with
    | .none => .none
    | .response => .response Channel.new
    | .multiPacket correlationId =>
      .multiPacket (MultiPacketContext.install (some Channel.new) correlationId)
  { highRx := some Channel.new
    lowRx := some Channel.new
    activeOutput := activeOutput
    shutdown := false
    hooks := hooks
    fairness := FairnessTracker.new fairness
    fragmenter := fragmenter
    state := ActorState.new activeOutput.isResponse activeOutput.isMultiPacket
    out := []
    point := .notStarted
    sentHigh := []
    sentLow := []
    sentOutput := []
    events := []
    closures := []
    invoked := [] }

/-- Send to a receiver, when there is one and it is open. -/
def sendTo {α : Type} (rx : Option (Channel α)) (a : α) : Option (Channel α) :=
  rx.bind fun c => c.send a

/-- One event; `none` when it cannot happen. -/
def step (cfg : ActorSettings F E H) (r : ActorRun F E H) :
    ActorEvent F E → Option (ActorRun F E H)
  | .polled recorded asked => r.poll cfg recorded asked
  | .highSent frame =>
    (sendTo r.highRx frame).map fun rx =>
      { r with highRx := some rx, sentHigh := r.sentHigh ++ [frame] }
  | .lowSent frame =>
    (sendTo r.lowRx frame).map fun rx =>
      { r with lowRx := some rx, sentLow := r.sentLow ++ [frame] }
  | .outputSent item =>
    match r.activeOutput, item with
    | .response stream, item =>
      (stream.send item).map fun stream =>
        { r with activeOutput := .response stream, sentOutput := r.sentOutput ++ [item] }
    | .multiPacket ctx, .ok frame =>
      (sendTo ctx.channel frame).map fun rx =>
        { r with
          activeOutput := .multiPacket { ctx with channel := some rx }
          sentOutput := r.sentOutput ++ [.ok frame] }
    | _, _ => none
  | .highClosed => some { r with highRx := r.highRx.map Channel.close }
  | .lowClosed => some { r with lowRx := r.lowRx.map Channel.close }
  | .outputClosed =>
    match r.activeOutput with
    | .response stream => some { r with activeOutput := .response stream.close }
    | .multiPacket ctx =>
      some { r with activeOutput := .multiPacket { ctx with channel := ctx.channel.map Channel.close } }
    | .none => none
  | .cancelled => some { r with shutdown := true }

end ActorRun

end Wireframe
