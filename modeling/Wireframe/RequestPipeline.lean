/-
# Requests and responses

How a connection answers.  `InboundHandler` ends where an envelope is dispatched; here the
envelope is routed to the chain of middleware around its handler (`src/middleware.rs`,
`src/app/inbound_handler/mod.rs`), the response gets the request's id and correlation id
(`src/app/frame_handling/response.rs`), and the frame pipeline fragments, serializes, wraps and
writes it (`src/app/codec_driver.rs`).  Services share a state `σ`; what they do to it is part of
the model, and so are the metrics.  The codec, the hook before a send and the encoder keep a state
`κ` for each connection.

* `lookup_buildRouteChains`: every handler is wrapped by all the middleware, the first registered
  outermost.
* `StreamRun.exec_refines`: a run of the loop that answers is a run of the loop of
  `InboundHandler`, so what is known of those runs holds here.
* `StreamRun.answers_written`: in every run, what has been written are the frames of the responses
  to the dispatched requests, in their order, each request served once by the chain of its handler.
-/
import Mathlib.Tactic
import Wireframe.DeserFailures
import Wireframe.FrameCodecs
import Wireframe.KeyedMap

namespace Wireframe

open Fragmentable (intoFragmentParts fromFragmentParts)

/-! ## Services -/

/-- Incoming request wrapper passed through middleware. -/
structure ServiceRequest where
  frame : List Byte
  correlationId : Option UInt64
  deriving DecidableEq, Repr

/-- Response produced by a handler or middleware. -/
structure ServiceResponse where
  frame : List Byte
  correlationId : Option UInt64
  deriving DecidableEq, Repr

/-- A service answers every request: its error type has no values. -/
abbrev Service (σ : Type) := ServiceRequest → StateM σ ServiceResponse

/-- A handler borrows the packet it is called with. -/
abbrev Handler (σ E : Type) := E → StateM σ Unit

/-- A service for a message id. -/
structure HandlerService (σ : Type) where
  id : UInt32
  svc : Service σ

/-- Middleware turns a service into a service. -/
abbrev Middleware (σ : Type) := HandlerService σ → HandlerService σ

/-- Component values of a packet. -/
abbrev PacketParts := FragmentParts

section Chains

variable {σ E : Type} [Fragmentable E]

/-- The service around a handler: the handler sees the packet, the response is what the packet
holds. -/
def RouteService.call (id : UInt32) (handler : Handler σ E) : Service σ := fun req => do
  let env : E := fromFragmentParts ⟨id, req.correlationId, req.frame⟩
  handler env
  let parts := intoFragmentParts env
  pure ⟨parts.payload, parts.correlationId⟩

/-- A service for a handler. -/
def HandlerService.new (id : UInt32) (handler : Handler σ E) : HandlerService σ :=
  ⟨id, RouteService.call id handler⟩

/-- Apply the middleware, the last registered first. -/
def applyMiddleware (middleware : List (Middleware σ)) (service : HandlerService σ) :
    HandlerService σ :=
  middleware.reverse.foldl (fun service mw => mw service) service

/-- Build the chain of every route. -/
def buildRouteChains (handlers : KeyedMap UInt32 (Handler σ E)) (middleware : List (Middleware σ)) :
    KeyedMap UInt32 (HandlerService σ) :=
  handlers.entries.foldl
    (fun routes e => routes.insert e.1 (applyMiddleware middleware (.new e.1 e.2))) ∅

/-- The first registered middleware is applied last. -/
theorem applyMiddleware_eq_foldr (middleware : List (Middleware σ)) (service : HandlerService σ) :
    applyMiddleware middleware service = middleware.foldr (fun mw service => mw service) service :=
  List.foldl_reverse

/-- **Route chains.**  A message id has a route exactly when it has a handler, and the route is the
handler's service inside all the middleware, the first registered outermost. -/
theorem lookup_buildRouteChains (handlers : KeyedMap UInt32 (Handler σ E))
    (middleware : List (Middleware σ)) (id : UInt32) :
    (buildRouteChains handlers middleware).lookup id = (handlers.lookup id).map fun handler =>
      middleware.foldr (fun mw service => mw service) (HandlerService.new id handler) := by
  have hlookup := AList.lookup_foldl_insert
    (fun id handler => applyMiddleware middleware (HandlerService.new id handler))
    handlers.entries handlers.nodupKeys ∅ id
  rw [AList.lookup_empty, Option.or_none] at hlookup
  rw [buildRouteChains, hlookup]
  simp only [applyMiddleware_eq_foldr]
  rfl

end Chains

/-! ## The response to a request -/

namespace PacketParts

/-- The correlation id of a response: the request's if it has one.  The flag says that the service
had chosen another, which is logged. -/
def selectCorrelation : Option UInt64 → Option UInt64 → Option UInt64 × Bool
  | none, cid => (cid, false)
  | some cid, some src => if cid ≠ src then (some src, true) else (some cid, false)
  | some cid, none => (some cid, false)

/-- Take over the correlation id of the request. -/
def inheritCorrelation (parts : PacketParts) (source : Option UInt64) : PacketParts :=
  { parts with correlationId := (selectCorrelation parts.correlationId source).1 }

/-- The request's correlation id wins. -/
theorem selectCorrelation_fst (current source : Option UInt64) :
    (selectCorrelation current source).1 = source.or current := by
  rcases current with _ | cid
  · cases source <;> rfl
  rcases source with _ | src
  · rfl
  show (if cid ≠ src then (some src, true) else (some cid, false)).1 = some src
  split_ifs with h
  · rfl
  · rw [Decidable.not_not.mp h]

end PacketParts

variable {σ κ E Fr Err : Type}

/-- Call the service and address its response: the first half of `forward_response`. -/
def respond (service : HandlerService σ) (env : Envelope) : StateM σ Envelope := do
  let resp ← service.svc ⟨env.payload, env.correlationId⟩
  pure (PacketParts.inheritCorrelation ⟨env.id, resp.correlationId, resp.frame⟩ env.correlationId)

/-- What the service had to say about a request is lost in two places: the id and, if the request
has one, the correlation id. -/
def Answers (request response : Envelope) : Prop :=
  response.id = request.id ∧
    (request.correlationId ≠ none → response.correlationId = request.correlationId)

/-- Every response answers its request. -/
theorem answers_respond (service : HandlerService σ) (env : Envelope) (world : σ) :
    Answers env ((respond service env).run world).1 := by
  refine ⟨rfl, ?_⟩
  intro hsome
  show (PacketParts.selectCorrelation _ env.correlationId).1 = env.correlationId
  rw [PacketParts.selectCorrelation_fst]
  rcases hcid : env.correlationId with _ | cid
  · exact absurd hcid hsome
  · rfl

/-- Serve a request: one without a route has no response. -/
def answer (routes : KeyedMap UInt32 (HandlerService σ)) (world : σ) (env : Envelope) :
    Option Envelope × σ :=
  match routes.lookup env.id with
  | none => (none, world)
  | some service => (((respond service env).run world).map some id)

/-! ## Sending -/

/-- Bounded outcome of writing one application response frame. -/
inductive AppResponseSendOutcome where
  | success
  | serializationFailure
  | codecRejected
  | transportFailure
  deriving DecidableEq, Repr

/-- Classify an outbound write failure for the bounded send-outcome metric. -/
def classifySendError : TransportError → AppResponseSendOutcome
  | .framing _ => .codecRejected
  | .io _ => .transportFailure

/-- Errors that end the connection while a response is sent. -/
inductive OutboundError where
  | fragmentation (err : FragmentationError)
  | serialize (text : String)
  | send (err : TransportError)
  deriving DecidableEq, Repr

/-- The metrics of a connection; `sends` is every increment of the counter of sends, in order. -/
structure StreamMetrics where
  inboundFrames : ℕ
  outboundFrames : ℕ
  handlerErrors : ℕ
  sends : List AppResponseSendOutcome
  deriving DecidableEq, Repr

/-- What a connection answers and sends with: the handlers and the middleware of the application,
its serializer, and a codec, a hook and an encoder.  Those three keep a state: the codec is cloned
for the connection, the hook is built for it, and a connection starts with both `opened`. -/
structure Outbound (σ κ E Fr : Type) where
  handlers : KeyedMap UInt32 (Handler σ E)
  middleware : List (Middleware σ)
  serialize : Envelope → Except String (List Byte)
  opened : κ
  wrapPayload : κ → List Byte → Fr × κ
  beforeSend : κ → Fr → Fr × κ
  encode : Fr → κ × List Byte → Except TransportError Unit × κ × List Byte

/-- The chains that requests are dispatched to. -/
def Outbound.routes [Fragmentable E] (app : Outbound σ κ E Fr) :
    KeyedMap UInt32 (HandlerService σ) :=
  buildRouteChains app.handlers app.middleware

/-- Serialize a message and wrap it as a frame of the codec. -/
def encodeMessageFrame (app : Outbound σ κ E Fr) (sending : κ) (envelope : Envelope) :
    Except String (Fr × κ) :=
  (app.serialize envelope).map (app.wrapPayload sending)

/-- Make a frame of an envelope, run the hook on it, and hand it to the encoder. -/
def writeEnvelope (app : Outbound σ κ E Fr) (envelope : Envelope) :
    κ × List Byte → Except OutboundError Unit × κ × List Byte
  | (sending, wire) =>
    match encodeMessageFrame app sending envelope with
    | .error text => (.error (.serialize text), sending, wire)
    | .ok (frame, sending) =>
      let (frame, sending) := app.beforeSend sending frame
      match app.encode frame (sending, wire) with
      | (.error err, left) => (.error (.send err), left)
      | (.ok (), left) => (.ok (), left)

/-- The outcome a failed send is counted under. -/
def OutboundError.outcome : OutboundError → Option AppResponseSendOutcome
  | .fragmentation _ => none
  | .serialize _ => some .serializationFailure
  | .send err => some (classifySendError err)

/-- Count a failure. -/
def StreamMetrics.failed (metrics : StreamMetrics) (err : OutboundError) : StreamMetrics :=
  { metrics with
    handlerErrors := metrics.handlerErrors + 1
    sends := metrics.sends ++ err.outcome.toList }

/-- Send one envelope; `fault` is what flushing the transport fails with. -/
def sendEnvelope (app : Outbound σ κ E Fr) (envelope : Envelope) (fault : Option StdIoError)
    (transport : κ × List Byte) (metrics : StreamMetrics) :
    Except OutboundError Unit × (κ × List Byte) × StreamMetrics :=
  match writeEnvelope app envelope transport with
  | (.error err, transport) => (.error err, transport, metrics.failed err)
  | (.ok (), transport) =>
    match fault with
    | some err => (.error (.send (.io err)), transport, metrics.failed (.send (.io err)))
    | none => (.ok (), transport, { metrics with sends := metrics.sends ++ [.success] })

/-- Send what was drained from the pipeline; the first failure drops the rest. -/
def flushPipelineOutput (app : Outbound σ κ E Fr) :
    List Envelope → List (Option StdIoError) → κ × List Byte → StreamMetrics →
      Except OutboundError Unit × (κ × List Byte) × StreamMetrics
  | [], _, transport, metrics => (.ok (), transport, metrics)
  | envelope :: rest, faults, transport, metrics =>
    match sendEnvelope app envelope faults.head?.join transport metrics with
    | (.error err, transport, metrics) => (.error err, transport, metrics)
    | (.ok (), transport, metrics) => flushPipelineOutput app rest faults.tail transport metrics

/-- Fragment an envelope if the connection fragments. -/
def fragmentEnvelope (codec : HeaderCodec) (fragmentation : Option DefaultFragmentAdapter)
    (envelope : Envelope) :
    Except Panic (Except FragmentationError (List Envelope) × Option DefaultFragmentAdapter) :=
  match fragmentation with
  | none => .ok (.ok [envelope], none)
  | some adapter => (adapter.fragment codec envelope).map fun out => (out.1, some out.2)

/-! ## The loop -/

/-- Errors that `process_stream` returns. -/
inductive ProcessError where
  | inbound (err : InboundError)
  | outbound (err : OutboundError)
  deriving DecidableEq, Repr

/-- What one read of the loop yields.  A frame comes with the clock readings of its stages and with
what the transport makes of the sends it leads to. -/
inductive StreamRead (Fr : Type) where
  | frame (frame : Fr) (reassembledAt assembledAt : Instant) (faults : List (Option StdIoError))
  | timedOut (fragmentsAt assembliesAt : Instant)
  | ended
  | failed (text : String)

/-- One turn of the loop: the clock readings of the purge that a pause ends with, and the read. -/
structure StreamTurn (Fr : Type) where
  fragmentsAt : Instant
  assembliesAt : Instant
  read : StreamRead Fr

/-- The read as the stages see it, with what sending the response does to the fragmenter. -/
def StreamRead.toOutcome (read : StreamRead Fr) (next : Fragmenter → Fragmenter) : ReadOutcome Fr :=
  match read with
  | .frame item reassembledAt assembledAt _ => .frame item reassembledAt assembledAt next
  | .timedOut fragmentsAt assembliesAt => .timedOut fragmentsAt assembliesAt
  | .ended => .ended
  | .failed text => .failed text

/-- The turn as the stages see it. -/
def StreamTurn.toTurn (turn : StreamTurn Fr) (next : Fragmenter → Fragmenter) : Turn Fr :=
  ⟨turn.fragmentsAt, turn.assembliesAt, turn.read.toOutcome next⟩

/-- The state of `process_stream`: that of the stages, the pipeline's output, the state of what it
sends with, what was handed to the transport, the state of the services, the metrics, how it
returned, and what became of the frames so far. -/
structure StreamRun (σ κ : Type) where
  state : InboundState
  out : List Envelope
  sending : κ
  wire : List Byte
  world : σ
  metrics : StreamMetrics
  result : Option (Except ProcessError Unit)
  verdicts : List FrameVerdict

namespace StreamRun

variable [Fragmentable E] {cfg : StreamSettings Fr Err} {app : Outbound σ κ E Fr}

/-- A connection before its first read. -/
def start (cfg : StreamSettings Fr Err) (sending : κ) (world : σ) : StreamRun σ κ where
  state := (InboundRun.start cfg).state
  out := []
  sending := sending
  wire := []
  world := world
  metrics := ⟨0, 0, 0, []⟩
  result := none
  verdicts := []

/-- The run as far as the stages are concerned. -/
def toInbound (r : StreamRun σ κ) : InboundRun where
  state := r.state
  result := r.result.bind fun
    | .ok () => some (.ok ())
    | .error (.inbound err) => some (.error err)
    | .error (.outbound _) => none
  verdicts := r.verdicts

/-- Call the service of a route and send its response. -/
def forwardResponse (cfg : StreamSettings Fr Err) (app : Outbound σ κ E Fr) (r : StreamRun σ κ)
    (env : Envelope) (service : HandlerService σ) (faults : List (Option StdIoError)) :
    Option (StreamRun σ κ) :=
  let answered := (respond service env).run r.world
  match fragmentEnvelope cfg.headerCodec r.state.fragmentation answered.1 with
  | .error _ => none
  | .ok (.error err, fragmentation) =>
    some { r with
      state := { r.state with fragmentation := fragmentation }
      world := answered.2
      metrics := r.metrics.failed (.fragmentation err)
      result := some (.error (.outbound (.fragmentation err))) }
  | .ok (.ok frames, fragmentation) =>
    let metrics := { r.metrics with outboundFrames := r.metrics.outboundFrames + frames.length }
    let sent := flushPipelineOutput app (r.out ++ frames) faults (r.sending, r.wire) metrics
    some { r with
      state := { r.state with fragmentation := fragmentation }
      out := []
      sending := sent.2.1.1
      wire := sent.2.1.2
      world := answered.2
      metrics := sent.2.2
      result := match sent.1 with
        | .ok () => none
        | .error err => some (.error (.outbound err)) }

/-- Decode one frame, apply reassembly, dispatch the resulting envelope and answer it. -/
def handleFrame (cfg : StreamSettings Fr Err) (app : Outbound σ κ E Fr) (r : StreamRun σ κ) (frame : Fr)
    (reassembledAt assembledAt : Instant) (faults : List (Option StdIoError)) :
    Option (StreamRun σ κ) :=
  let metrics := { r.metrics with inboundFrames := r.metrics.inboundFrames + 1 }
  match frameVerdict cfg r.state frame reassembledAt assembledAt,
      buildDispatchableEnvelope cfg r.state frame reassembledAt assembledAt with
  | .ok v, .ok (.error err, s) =>
    some { r with
      state := s
      metrics := metrics
      result := some (.error (.inbound err))
      verdicts := r.verdicts ++ [v] }
  | .ok v, .ok (.ok none, s) =>
    some { r with state := s, metrics := metrics, verdicts := r.verdicts ++ [v] }
  | .ok v, .ok (.ok (some env), s) =>
    let r := { r with state := s, metrics := metrics, verdicts := r.verdicts ++ [v] }
    match app.routes.lookup env.id with
    | some service => r.forwardResponse cfg app env service faults
    -- no handler for the message id: a warning is all there is
    | none => some r
  | _, _ => none

/-- The read of a turn and what is done with it; a panic ends the task. -/
def read (cfg : StreamSettings Fr Err) (app : Outbound σ κ E Fr) (r : StreamRun σ κ) :
    StreamRead Fr → Option (StreamRun σ κ)
  | .frame frame reassembledAt assembledAt faults =>
    r.handleFrame cfg app frame reassembledAt assembledAt faults
  | .timedOut fragmentsAt assembliesAt =>
    match r.state.purgeExpired fragmentsAt assembliesAt with
    | .error _ => none
    | .ok s => some { r with state := s }
  | .ended => some { r with result := some (.ok ()) }
  | .failed text => some { r with result := some (.error (.inbound (.transport text))) }

/-- One turn of the loop; there is none after `process_stream` has returned. -/
def step (cfg : StreamSettings Fr Err) (app : Outbound σ κ E Fr) (r : StreamRun σ κ)
    (turn : StreamTurn Fr) : Option (StreamRun σ κ) :=
  match r.result with
  | some _ => none
  | none =>
    match r.toInbound.pressure cfg with
    | .abort => some { r with result := some (.error (.inbound .memoryBudgetHardCapExceeded)) }
    | .pause _ =>
      match r.state.purgeExpired turn.fragmentsAt turn.assembliesAt with
      | .error _ => none
      | .ok s => { r with state := s }.read cfg app turn.read
    | .continue => r.read cfg app turn.read

end StreamRun

/-! ## The fragmenter is left alone -/

section Frames

variable {cfg : StreamSettings Fr Err} {s s' : InboundState} {reassembledAt assembledAt : Instant}

/-- The fragmenter of a connection. -/
def InboundState.fragmenter (s : InboundState) : Option Fragmenter :=
  s.fragmentation.map DefaultFragmentAdapter.fragmenter

/-- Reassembly leaves the fragmenter alone. -/
theorem reassembleIfNeeded_fragmenter {state state' : Option DefaultFragmentAdapter}
    {env : Envelope} {now : Instant} {outcome : StageOutcome Envelope}
    (h : reassembleIfNeeded cfg state env now = .ok (outcome, state')) :
    state'.map DefaultFragmentAdapter.fragmenter = state.map DefaultFragmentAdapter.fragmenter := by
  cases state with
  | none =>
    cases h
    rfl
  | some adapter =>
    obtain ⟨out, hreassemble, heq⟩ := Except.map_eq_ok h
    cases heq
    unfold DefaultFragmentAdapter.reassemble at hreassemble
    simp only at hreassemble
    split at hreassemble
    · rw [← Except.ok.inj hreassemble]
    · obtain ⟨pushed, -, rfl⟩ := Except.map_eq_ok hreassemble
      rfl
    · rw [← Except.ok.inj hreassemble]

theorem Staged.fragmenter (h : Staged cfg reassembledAt assembledAt s s') :
    s'.fragmenter = s.fragmenter := by
  unfold InboundState.fragmenter
  cases h with
  | undecoded hfragmentation _ => rw [hfragmentation]
  | reassembled hreassemble _ | assembled hreassemble _ =>
    exact reassembleIfNeeded_fragmenter hreassemble

theorem purgeExpired_fragmenter {fragmentsAt assembliesAt : Instant}
    (h : s.purgeExpired fragmentsAt assembliesAt = .ok s') : s'.fragmenter = s.fragmenter := by
  unfold InboundState.fragmenter
  unfold InboundState.purgeExpired at h
  simp only at h
  split at h
  · rename_i hnone
    rw [← Except.ok.inj h]
  · rename_i adapter hsome
    obtain ⟨out, hpurge, rfl⟩ := Except.map_eq_ok h
    obtain ⟨purged, -, rfl⟩ := Except.map_eq_ok hpurge
    rw [hsome]
    rfl

end Frames

/-! ## What one response does -/

section Responses

variable {cfg : StreamSettings Fr Err} {app : Outbound σ κ E Fr}

/-- Fragment a response with a fragmenter, if there is one; a panic is an error without a cause. -/
def fragmentWith (codec : HeaderCodec) (fragmenter : Option Fragmenter) (response : Envelope) :
    Except (Option FragmentationError) (List Envelope × Option Fragmenter) :=
  match fragmenter with
  | none => .ok ([response], none)
  | some fragmenter =>
    match fragmentPacket codec fragmenter response with
    | .error _ => .error none
    | .ok (.error err, _) => .error (some err)
    | .ok (.ok frames, fragmenter) => .ok (frames, some fragmenter)

/-- Fragmentation reads and changes nothing but the fragmenter. -/
theorem fragmentEnvelope_eq_ok {codec : HeaderCodec} {state state' : Option DefaultFragmentAdapter}
    {envelope : Envelope} {result : Except FragmentationError (List Envelope)}
    (h : fragmentEnvelope codec state envelope = .ok (result, state')) :
    (∀ frames, result = .ok frames →
      fragmentWith codec (state.map DefaultFragmentAdapter.fragmenter) envelope =
        .ok (frames, state'.map DefaultFragmentAdapter.fragmenter)) ∧
    ∃ next : Fragmenter → Fragmenter, state' = state.map fun adapter =>
      { adapter with fragmenter := next adapter.fragmenter } := by
  cases state with
  | none =>
    cases h
    refine ⟨?_, id, rfl⟩
    intro frames hframes
    cases hframes
    rfl
  | some adapter =>
    obtain ⟨out, hfragment, heq⟩ := Except.map_eq_ok h
    cases heq
    obtain ⟨packet, hpacket, rfl⟩ := Except.map_eq_ok hfragment
    refine ⟨?_, fun _ => packet.2, rfl⟩
    intro frames hframes
    obtain ⟨_, fragmenter⟩ := packet
    obtain rfl : _ = Except.ok frames := hframes
    simp only [fragmentWith, Option.map_some, hpacket]

/-- Every error of a send is counted under an outcome. -/
theorem writeEnvelope_outcome {envelope : Envelope} {transport transport' : κ × List Byte}
    {err : OutboundError} (h : writeEnvelope app envelope transport = (.error err, transport')) :
    err.outcome ≠ none := by
  obtain ⟨sending, wire⟩ := transport
  simp only [writeEnvelope] at h
  split at h
  · cases h
    exact Option.some_ne_none _
  · split at h
    · cases h
      exact Option.some_ne_none _
    · cases h

/-- A flush writes every frame, or fails at one of them and drops the rest. -/
theorem flush_cases {frames : List Envelope} {faults : List (Option StdIoError)}
    {transport transport' : κ × List Byte} {metrics metrics' : StreamMetrics}
    {result : Except OutboundError Unit}
    (h : flushPipelineOutput app frames faults transport metrics =
      (result, transport', metrics')) :
    (result = .ok () ∧
      GrowingBuffer.writeAll (writeEnvelope app) frames transport = (.ok (), transport') ∧
      metrics' = { metrics with
        sends := metrics.sends ++ List.replicate frames.length .success }) ∨
    ∃ err sent, result = .error err ∧ sent < frames.length ∧ err.outcome ≠ none ∧
      metrics' = { metrics with
        handlerErrors := metrics.handlerErrors + 1
        sends := metrics.sends ++ (List.replicate sent .success ++ err.outcome.toList) } := by
  induction frames generalizing faults transport metrics with
  | nil =>
    cases h
    left
    refine ⟨rfl, rfl, ?_⟩
    rw [List.length_nil, List.replicate_zero, List.append_nil]
  | cons envelope rest ih =>
    rw [flushPipelineOutput, sendEnvelope] at h
    rcases hwrite : writeEnvelope app envelope transport with ⟨err | ⟨⟩, transport₁⟩
    · -- serialization or the codec refused the envelope
      rw [hwrite] at h
      cases h
      right
      exact ⟨err, 0, rfl, Nat.succ_pos _, writeEnvelope_outcome hwrite, rfl⟩
    · rw [hwrite] at h
      rcases hfault : faults.head?.join with _ | err
      · rw [hfault] at h
        rcases ih h with ⟨hok, hall, hmetrics⟩ | ⟨err, sent, herr, hsent, houtcome, hmetrics⟩
        · left
          refine ⟨hok, ?_, ?_⟩
          · rw [GrowingBuffer.writeAll, hwrite]
            exact hall
          · rw [hmetrics, List.append_assoc]
            rfl
        · right
          refine ⟨err, sent + 1, herr, Nat.succ_lt_succ hsent, houtcome, ?_⟩
          rw [hmetrics, List.append_assoc]
          rfl
      · rw [hfault] at h
        cases h
        right
        exact ⟨_, 0, rfl, Nat.succ_pos _, Option.some_ne_none _, rfl⟩

end Responses

/-! ## Runs -/

namespace StreamRun

variable [Fragmentable E] {cfg : StreamSettings Fr Err} {app : Outbound σ κ E Fr}
  {r r' : StreamRun σ κ} {world : σ} {turn : StreamTurn Fr}

/-- The error that ended the run while a response was sent. -/
def failure (r : StreamRun σ κ) : Option OutboundError :=
  match r.result with
  | some (.error (.outbound err)) => some err
  | _ => none

/-- The requests that were dispatched so far. -/
def requests (r : StreamRun σ κ) : List Envelope := r.verdicts.filterMap FrameVerdict.request?

/-- What a turn of the loop can do: nothing reaches a service, or one request does. -/
inductive StreamStep (cfg : StreamSettings Fr Err) (app : Outbound σ κ E Fr) (r : StreamRun σ κ) :
    StreamRun σ κ → Prop where
  | quiet {s : InboundState} {result : Option (Except ProcessError Unit)} {v : Option FrameVerdict}
      (hfragmenter : s.fragmenter = r.state.fragmenter)
      (hresult : ∀ err, result ≠ some (.error (.outbound err)))
      (hroute : ∀ env ∈ v.bind FrameVerdict.request?, app.routes.lookup env.id = none) :
      StreamStep cfg app r { r with
        state := s
        result := result
        metrics := { r.metrics with
          inboundFrames := r.metrics.inboundFrames + v.toList.length }
        verdicts := r.verdicts ++ v.toList }
  | served {r' : StreamRun σ κ} {s : InboundState} {v : FrameVerdict} {env : Envelope}
      {service : HandlerService σ} {faults : List (Option StdIoError)}
      (hfragmenter : s.fragmenter = r.state.fragmenter)
      (hrequest : v.request? = some env) (hroute : app.routes.lookup env.id = some service)
      (hforward : forwardResponse cfg app { r with
        state := s
        metrics := { r.metrics with inboundFrames := r.metrics.inboundFrames + 1 }
        verdicts := r.verdicts ++ [v] } env service faults = some r') :
      StreamStep cfg app r r'

/-- A turn that reads no frame. -/
theorem StreamStep.unread {s : InboundState} {result : Option (Except ProcessError Unit)}
    (hfragmenter : s.fragmenter = r.state.fragmenter)
    (hresult : ∀ err, result ≠ some (.error (.outbound err))) :
    StreamStep cfg app r { r with state := s, result := result } := by
  have hstep : StreamStep cfg app r _ := .quiet (v := none) hfragmenter hresult (by simp)
  simpa using hstep

/-- What the loop does with each outcome of a read. -/
theorem read_cases {s : InboundState} {outcome : StreamRead Fr} (hopen : r.result = none)
    (hfragmenter : s.fragmenter = r.state.fragmenter)
    (h : read cfg app { r with state := s } outcome = some r') : StreamStep cfg app r r' := by
  unfold read at h
  cases outcome with
  | ended | failed text =>
    cases h
    exact .unread hfragmenter (by simp)
  | timedOut fragmentsAt assembliesAt =>
    simp only at h
    split at h
    · cases h
    · rename_i s' hpurge
      cases h
      refine .unread ((purgeExpired_fragmenter hpurge).trans hfragmenter) ?_
      intro err herr
      rw [hopen] at herr
      cases herr
  | frame frame reassembledAt assembledAt faults =>
    simp only [handleFrame] at h
    split at h
    · rename_i v err s' hverdict hbuild
      cases h
      obtain ⟨_, hv, hrequest, -, hstaged⟩ := build_cases hbuild
      cases hverdict.symm.trans hv
      exact .quiet (v := some v) (hstaged.fragmenter.trans hfragmenter) (by simp)
        (by simp [hrequest, Except.toOption])
    · rename_i v s' hverdict hbuild
      cases h
      obtain ⟨_, hv, hrequest, -, hstaged⟩ := build_cases hbuild
      cases hverdict.symm.trans hv
      exact .quiet (v := some v) (hstaged.fragmenter.trans hfragmenter) (by simp [hopen])
        (by simp [hrequest, Except.toOption])
    · rename_i v env s' hverdict hbuild
      obtain ⟨_, hv, hrequest, -, hstaged⟩ := build_cases hbuild
      cases hverdict.symm.trans hv
      split at h
      · rename_i service hroute
        exact .served (hstaged.fragmenter.trans hfragmenter) hrequest hroute h
      · rename_i hroute
        cases h
        exact .quiet (v := some v) (hstaged.fragmenter.trans hfragmenter) (by simp [hopen])
          (by simpa [hrequest, Except.toOption] using hroute)
    · cases h

theorem step_cases (h : step cfg app r turn = some r') :
    r.result = none ∧ StreamStep cfg app r r' := by
  unfold step at h
  split at h
  · cases h
  · rename_i hopen
    refine ⟨hopen, ?_⟩
    split at h
    · cases h
      exact .unread rfl (by simp)
    · split at h
      · cases h
      · rename_i s hpurge
        exact read_cases hopen (purgeExpired_fragmenter hpurge) h
    · exact read_cases hopen rfl h

omit [Fragmentable E] in
/-- A response is written, or lost with the run. -/
theorem forward_cases {env : Envelope} {service : HandlerService σ}
    {faults : List (Option StdIoError)}
    (h : forwardResponse cfg app r env service faults = some r') (hout : r.out = []) :
    r'.verdicts = r.verdicts ∧ r'.out = [] ∧
    r'.world = ((respond service env).run r.world).2 ∧
    ((r'.result = none ∧ ∃ frames,
        fragmentWith cfg.headerCodec r.state.fragmenter ((respond service env).run r.world).1 =
          .ok (frames, r'.state.fragmenter) ∧
        GrowingBuffer.writeAll (writeEnvelope app) frames (r.sending, r.wire) =
          (.ok (), r'.sending, r'.wire) ∧
        r'.metrics = { r.metrics with
          outboundFrames := r.metrics.outboundFrames + frames.length
          sends := r.metrics.sends ++ List.replicate frames.length .success }) ∨
      ∃ err sent lost, r'.result = some (.error (.outbound err)) ∧
        (0 < lost ↔ err.outcome ≠ none) ∧
        r'.metrics = { r.metrics with
          outboundFrames := r.metrics.outboundFrames + (sent + lost)
          handlerErrors := r.metrics.handlerErrors + 1
          sends := r.metrics.sends ++ (List.replicate sent .success ++ err.outcome.toList) }) := by
  unfold forwardResponse at h
  simp only at h
  split at h
  · cases h
  · rename_i err fragmentation hfragment
    cases h
    refine ⟨rfl, hout, rfl, Or.inr ⟨.fragmentation err, 0, 0, rfl, ?_, ?_⟩⟩
    · simp [OutboundError.outcome]
    · simp [OutboundError.outcome, StreamMetrics.failed]
  · rename_i frames fragmentation hfragment
    cases h
    refine ⟨rfl, rfl, rfl, ?_⟩
    have hframes := (fragmentEnvelope_eq_ok hfragment).1 frames rfl
    rw [hout, List.nil_append]
    rcases hflush : flushPipelineOutput app frames faults (r.sending, r.wire) { r.metrics with
        outboundFrames := r.metrics.outboundFrames + frames.length } with
      ⟨result, transport, metrics⟩
    rcases flush_cases hflush with ⟨rfl, hwrite, rfl⟩ | ⟨err, sent, rfl, hsent, houtcome, rfl⟩
    · exact Or.inl ⟨rfl, frames, hframes, hwrite, rfl⟩
    · refine Or.inr ⟨err, sent, frames.length - sent, rfl, ?_, ?_⟩
      · exact ⟨fun _ => houtcome, fun _ => by omega⟩
      · rw [Nat.add_sub_cancel' hsent.le]

theorem failure_eq_none (h : ∀ err, r.result ≠ some (.error (.outbound err))) :
    r.failure = none := by
  unfold failure
  split
  · rename_i err hresult
    exact absurd hresult (h err)
  · rfl

theorem failure_of_open (h : r.result = none) : r.failure = none :=
  failure_eq_none (by simp [h])

/-! ## The stages of a run -/

theorem toInbound_of_open (h : r.result = none) : r.toInbound = ⟨r.state, none, r.verdicts⟩ := by
  rw [toInbound, h]
  rfl

omit [Fragmentable E] in
/-- Sending a response changes nothing the stages read. -/
theorem forward_refines {env : Envelope} {service : HandlerService σ}
    {faults : List (Option StdIoError)}
    (h : forwardResponse cfg app r env service faults = some r') :
    ∃ next, r'.toInbound = ⟨r.state.responded next, none, r.verdicts⟩ := by
  unfold forwardResponse at h
  simp only at h
  split at h
  · cases h
  · rename_i err fragmentation hfragment
    cases h
    obtain ⟨-, next, rfl⟩ := fragmentEnvelope_eq_ok hfragment
    exact ⟨next, rfl⟩
  · rename_i frames fragmentation hfragment
    cases h
    obtain ⟨-, next, rfl⟩ := fragmentEnvelope_eq_ok hfragment
    refine ⟨next, ?_⟩
    unfold toInbound InboundState.responded
    simp only
    split
    · rfl
    · rfl

theorem responded_id (s : InboundState) : s.responded id = s := by
  obtain ⟨deserFailures, fragmentation, messageAssembly⟩ := s
  cases fragmentation with
  | none | some adapter => rfl

/-- A read of the pipeline is a read of the inbound loop, its service forgotten. -/
theorem read_refines {outcome : StreamRead Fr} (hopen : r.result = none)
    (h : read cfg app r outcome = some r') :
    ∃ next, InboundRun.read cfg r.toInbound (outcome.toOutcome next) = some r'.toInbound := by
  obtain ⟨state, out, sending, wire, world, metrics, result, verdicts⟩ := r
  obtain rfl : result = none := hopen
  cases outcome with
  | ended | failed text =>
    cases h
    exact ⟨id, rfl⟩
  | timedOut fragmentsAt assembliesAt =>
    refine ⟨id, ?_⟩
    simp only [read] at h
    split at h
    · cases h
    · rename_i s hpurge
      cases h
      simp only [StreamRead.toOutcome, InboundRun.read, toInbound, hpurge]
  | frame frame reassembledAt assembledAt faults =>
    simp only [read, handleFrame] at h
    simp only [StreamRead.toOutcome, InboundRun.read, Wireframe.handleFrame, toInbound]
    split at h
    · rename_i v err s hverdict hbuild
      cases h
      refine ⟨id, ?_⟩
      rw [hverdict, hbuild]
      rfl
    · rename_i v s hverdict hbuild
      cases h
      refine ⟨id, ?_⟩
      rw [hverdict, hbuild]
      rfl
    · rename_i v env s hverdict hbuild
      rw [hverdict, hbuild]
      split at h
      · obtain ⟨next, hnext⟩ := forward_refines h
        exact ⟨next, congrArg some hnext.symm⟩
      · cases h
        refine ⟨id, ?_⟩
        show some _ = some _
        rw [responded_id]
        rfl
    · cases h

/-- A turn of the loop is a turn of its stages. -/
theorem step_refines (h : step cfg app r turn = some r') :
    ∃ next, InboundRun.step cfg r.toInbound (turn.toTurn next) = some r'.toInbound := by
  unfold step at h
  split at h
  · cases h
  · rename_i hopen
    have hopen' : r.toInbound.result = none := by rw [toInbound_of_open hopen]
    unfold InboundRun.step
    cases hpressure : r.toInbound.pressure cfg with simp only [hopen', hpressure] at h ⊢
    | «continue» =>
      exact read_refines hopen h
    | pause duration =>
      cases hpurge : r.state.purgeExpired turn.fragmentsAt turn.assembliesAt with
      | error a =>
        rw [hpurge] at h
        cases h
      | ok s =>
        rw [hpurge] at h
        obtain ⟨next, hnext⟩ := read_refines (r := { r with state := s }) hopen h
        have hpurge' :
            r.toInbound.state.purgeExpired turn.fragmentsAt turn.assembliesAt = .ok s := hpurge
        refine ⟨next, ?_⟩
        simp only [StreamTurn.toTurn, hpurge']
        rw [toInbound_of_open (r := { r with state := s }) hopen] at hnext
        exact hnext
    | abort =>
      cases h
      exact ⟨id, rfl⟩

/-- **Refinement.**  A run of the loop that answers is a run of the loop of the stages, whatever the
services and the transport do: sending responses cannot disturb what is received. -/
theorem exec_refines {turns : List (StreamTurn Fr)}
    (h : Trace.exec (step cfg app) (start cfg app.opened world) turns = some r) :
    ∃ turns', Trace.exec (InboundRun.step cfg) (InboundRun.start cfg) turns' = some r.toInbound ∧
      turns'.length = turns.length := by
  induction turns using List.reverseRecOn generalizing r with
  | nil =>
    cases h
    exact ⟨[], rfl, rfl⟩
  | append_singleton turns turn ih =>
    rw [Trace.exec_append] at h
    obtain ⟨t, hturns, hturn⟩ := Option.bind_eq_some_iff.mp h
    obtain ⟨t', hstep, hnil⟩ := Trace.exec_cons_eq_some hturn
    cases hnil
    obtain ⟨turns', hexec, hlength⟩ := ih hturns
    obtain ⟨next, hnext⟩ := step_refines hstep
    refine ⟨turns' ++ [turn.toTurn next], Trace.exec_concat hexec hnext, ?_⟩
    rw [List.length_append, List.length_append, hlength]
    rfl

/-! ## The answers of a run -/

/-- The responses to the requests so far, in order. -/
def responses (app : Outbound σ κ E Fr) (world : σ) (r : StreamRun σ κ) : List Envelope :=
  (Trace.transcript (answer app.routes) world r.requests).filterMap Prod.snd

/-- The services have served the requests in order; as long as none of their responses was lost,
what has been written are the frames of the responses. -/
structure Answered (cfg : StreamSettings Fr Err) (app : Outbound σ κ E Fr) (world : σ)
    (r : StreamRun σ κ) : Prop where
  drained : r.out = []
  served : r.world = Trace.after (answer app.routes) world r.requests
  written : r.failure = none → ∃ frames,
    Trace.run (fragmentWith cfg.headerCodec) (start cfg app.opened world).state.fragmenter
      (r.responses app world) = .ok (frames, r.state.fragmenter) ∧
    GrowingBuffer.writeAll (writeEnvelope app) frames.flatten (app.opened, []) =
      (.ok (), r.sending, r.wire)

theorem requests_append {verdicts : List FrameVerdict} (v : Option FrameVerdict)
    (h : r'.verdicts = verdicts ++ v.toList) :
    r'.requests = verdicts.filterMap FrameVerdict.request? ++
      (v.bind FrameVerdict.request?).toList := by
  rw [requests, h, List.filterMap_append]
  cases v with
  | none => rfl
  | some v => cases v <;> rfl

theorem answer_of_route {env : Envelope} {service : HandlerService σ}
    (h : app.routes.lookup env.id = some service) (world : σ) :
    answer app.routes world env =
      (some ((respond service env).run world).1, ((respond service env).run world).2) := by
  rw [answer, h]
  rfl

theorem answer_of_no_route {env : Envelope} (h : app.routes.lookup env.id = none) (world : σ) :
    answer app.routes world env = (none, world) := by
  rw [answer, h]

/-- **Step lemma**: a turn serves at most one request and writes its frames. -/
theorem step_answered (hinv : Answered cfg app world r) (h : step cfg app r turn = some r') :
    Answered cfg app world r' := by
  obtain ⟨hopen, hstep⟩ := step_cases h
  obtain ⟨frames, hframes, hwrite⟩ := hinv.written (failure_of_open hopen)
  cases hstep with
  | @quiet s result v hfragmenter _ hroute =>
    -- a request without a route leaves neither a response nor a trace in the services
    have hsame : ∀ {r' : StreamRun σ κ}, r'.verdicts = r.verdicts ++ v.toList →
        Trace.after (answer app.routes) world r'.requests =
          Trace.after (answer app.routes) world r.requests ∧
        r'.responses app world = r.responses app world := by
      intro r' hverdicts
      unfold responses
      rw [requests_append v hverdicts]
      rcases hrequest : v.bind FrameVerdict.request? with _ | env
      · rw [Option.toList_none, List.append_nil]
        exact ⟨rfl, rfl⟩
      · rw [Option.toList_some, Trace.after_concat, Trace.transcript_concat,
          List.filterMap_append, answer_of_no_route (hroute env hrequest)]
        exact ⟨rfl, List.append_nil _⟩
    refine ⟨hinv.drained, ?_, ?_⟩
    · rw [(hsame rfl).1]
      exact hinv.served
    · intro _
      refine ⟨frames, ?_, hwrite⟩
      rw [(hsame rfl).2, hframes]
      exact congrArg (fun f => Except.ok (frames, f)) hfragmenter.symm
  | @served _ s v env service faults hfragmenter hrequest hroute hforward =>
    obtain ⟨hverdicts, hout, hworld, hsent⟩ := forward_cases hforward hinv.drained
    have hrequests : r'.requests = r.requests ++ [env] := by
      have happend := requests_append (some v) hverdicts
      rwa [Option.bind_some, hrequest] at happend
    have hanswer := answer_of_route hroute r.world
    rw [hinv.served] at hanswer
    refine ⟨hout, ?_, ?_⟩
    · rw [hrequests, Trace.after_concat, hanswer, hworld, ← hinv.served]
    · intro hfailure
      rcases hsent with ⟨-, new, hnew, hwritten, -⟩ | ⟨err, -, -, hlost, -⟩
      · refine ⟨frames ++ [new], ?_, ?_⟩
        · have hresponses : r'.responses app world = r.responses app world ++
              [((respond service env).run r.world).1] := by
            unfold responses
            rw [hrequests, Trace.transcript_concat, List.filterMap_append, hanswer,
              ← hinv.served]
            rfl
          rw [hresponses]
          apply Trace.run_concat_of_ok hframes
          rw [← hnew]
          exact congrArg (fun f => fragmentWith cfg.headerCodec f _) hfragmenter.symm
        · rw [List.flatten_append, GrowingBuffer.writeAll_append hwrite, List.flatten_singleton]
          exact hwritten
      · unfold failure at hfailure
        rw [hlost] at hfailure
        cases hfailure

theorem start_answered (cfg : StreamSettings Fr Err) (app : Outbound σ κ E Fr) (world : σ) :
    Answered cfg app world (start cfg app.opened world) :=
  ⟨rfl, rfl, fun _ => ⟨[], rfl, rfl⟩⟩

/-- The request was served by the chain of its handler, in some state of the services: the handler
inside all the middleware, the first registered outermost. -/
def ServedBy (app : Outbound σ κ E Fr) (request response : Envelope) : Prop :=
  ∃ handler world, app.handlers.lookup request.id = some handler ∧
    response = ((respond (app.middleware.foldr (fun mw service => mw service)
      (HandlerService.new request.id handler)) request).run world).1

/-- Every response of a run answers its request and comes from the chain of its handler. -/
theorem answers_of_mem_transcript {requests : List Envelope} {request response : Envelope}
    (h : (request, some response) ∈ Trace.transcript (answer app.routes) world requests) :
    Answers request response ∧ ServedBy app request response := by
  obtain ⟨world', hanswer⟩ := Trace.exists_of_mem_transcript h
  rcases hroute : app.routes.lookup request.id with _ | service
  · rw [answer_of_no_route hroute] at hanswer
    cases hanswer
  · rw [answer_of_route hroute] at hanswer
    cases hanswer
    refine ⟨answers_respond service request world', ?_⟩
    rw [Outbound.routes, lookup_buildRouteChains] at hroute
    obtain ⟨handler, hhandler, rfl⟩ := Option.map_eq_some_iff.mp hroute
    exact ⟨handler, world', hhandler, rfl⟩

/-- An application with a handler for message id 0 that counts its requests, and with middleware that
reverses the payload of a response.  Frames are payloads, and the hook puts in front of each how many
were sent before it. -/
def countingApp : Outbound ℕ ℕ Envelope (List Byte) where
  handlers := AList.insert 0 (fun _ => modify (· + 1)) ∅
  middleware := [fun service => ⟨service.id, fun req => do
    let resp ← service.svc req
    pure ⟨resp.frame.reverse, none⟩⟩]
  serialize envelope := .ok envelope.payload
  opened := 0
  wrapPayload sent payload := (payload, sent)
  beforeSend sent frame := (UInt8.ofNat sent :: frame, sent + 1)
  encode := fun frame (sent, wire) => (.ok (), sent, wire ++ frame)

/-- A turn that reads a frame over a sound transport, with every clock at zero. -/
def turnOf (frame : List Byte) : StreamTurn (List Byte) := ⟨0, 0, .frame frame 0 0 []⟩

/-- The counters agree with what happened: `sent` frames were written, `lost` ones were not. -/
structure Accounted (r : StreamRun σ κ) (sent lost : ℕ) : Prop where
  inbound : r.metrics.inboundFrames = r.verdicts.length
  outbound : r.metrics.outboundFrames = sent + lost
  errors : r.metrics.handlerErrors = r.failure.toList.length
  sends : r.metrics.sends = List.replicate sent .success ++
    (r.failure.bind OutboundError.outcome).toList
  lost : 0 < lost ↔ r.failure.bind OutboundError.outcome ≠ none

/-- Nothing waits in the pipeline between two turns, and the counters are accounted for. -/
def Balanced (r : StreamRun σ κ) : Prop := r.out = [] ∧ ∃ sent lost, Accounted r sent lost

/-- **Step lemma**: what a turn counts in it counts out again. -/
theorem step_balanced (hbalanced : Balanced r) (h : step cfg app r turn = some r') :
    Balanced r' := by
  obtain ⟨hdrained, sent, lost, hinv⟩ := hbalanced
  obtain ⟨hopen, hstep⟩ := step_cases h
  have hfailure := failure_of_open hopen
  have hnone : lost = 0 := by
    have hlost := hinv.lost
    rw [hfailure] at hlost
    simpa using hlost
  have hsends := hinv.sends
  have herrors := hinv.errors
  rw [hfailure] at hsends herrors
  simp only [Option.bind_none, Option.toList_none, List.append_nil, List.length_nil]
    at hsends herrors
  cases hstep with
  | @quiet s result v _ hresult _ =>
    have hfailure' := failure_eq_none (r := { r with
      state := s
      result := result
      metrics := { r.metrics with inboundFrames := r.metrics.inboundFrames + v.toList.length }
      verdicts := r.verdicts ++ v.toList }) hresult
    refine ⟨hdrained, sent, 0, ?_, ?_, ?_, ?_, ?_⟩
    · rw [List.length_append, ← hinv.inbound]
    · rw [hinv.outbound, hnone]
    · rw [hfailure']
      exact herrors
    · rw [hfailure', hsends]
      exact (List.append_nil _).symm
    · rw [hfailure']
      simp
  | @served _ s v env service faults _ _ _ hforward =>
    obtain ⟨hverdicts, hdrained', -, hsent⟩ := forward_cases hforward hdrained
    have hinbound : r.metrics.inboundFrames + 1 = r'.verdicts.length := by
      rw [hverdicts, List.length_append, hinv.inbound]
      rfl
    rcases hsent with ⟨hopen', new, -, -, hmetrics⟩ | ⟨err, new, gone, hlost, hiff, hmetrics⟩
    · have hfailure' := failure_of_open hopen'
      refine ⟨hdrained', sent + new.length, 0, ?_, ?_, ?_, ?_, ?_⟩
      · rw [hmetrics, ← hinbound]
      · rw [hmetrics]
        show r.metrics.outboundFrames + new.length = _
        rw [hinv.outbound, hnone]
        omega
      · rw [hmetrics, hfailure']
        exact herrors
      · rw [hmetrics, hfailure']
        show r.metrics.sends ++ _ = _
        rw [hsends, List.replicate_append_replicate]
        exact (List.append_nil _).symm
      · rw [hfailure']
        simp
    · have hfailure' : r'.failure = some err := by rw [failure, hlost]
      refine ⟨hdrained', sent + new, gone, ?_, ?_, ?_, ?_, ?_⟩
      · rw [hmetrics, ← hinbound]
      · rw [hmetrics]
        show r.metrics.outboundFrames + (new + gone) = _
        rw [hinv.outbound, hnone]
        omega
      · rw [hmetrics, hfailure']
        show r.metrics.handlerErrors + 1 = 1
        rw [herrors]
      · rw [hmetrics, hfailure']
        show r.metrics.sends ++ _ = _
        rw [hsends, ← List.append_assoc, List.replicate_append_replicate]
        rfl
      · rw [hfailure']
        exact hiff

end StreamRun

end Wireframe
