/-
# A client and a server

A client (`src/client/messaging.rs`, `src/client/send_pipeline.rs`) makes one call after the other
to a connection with the default serializer and codec.  In each call it sends a request and waits
for the reply; the bytes of either side reach the other in any chunks, and the server's reads may
time out at any moment.  Both ends frame through the third-party codec, which is a parameter
(`Connects` collects what is assumed of it).

`calls_answered`: if the requests have handlers and both ends let everything pass, every call of
`call_correlated` returns the reply to its own request, and the server returns without an error when
the client closes.
-/
import Mathlib.Tactic
import Wireframe.EnvelopeCodec
import Wireframe.RequestPipeline
import Wireframe.SendStreaming

namespace Wireframe

open Bincode (LimitedError)
open LengthDelimitedEncoder (framed)
open LengthFraming (Inlet DecodeState)

/-! ## The client -/

/-- The errors of the client that a call can run into, with their causes; a message is always
serialized, and no hook is registered. -/
inductive CallError where
  | transport (err : StdIoError)
  | read (kind : IoErrorKind)
  | decode (err : LimitedError)
  | correlationMismatch (expected received : Option UInt64)
  deriving DecidableEq, Repr

/-- The counter of correlation ids, and the receiving end of the framed transport, whose codec also
encodes. -/
structure Client (inner : InnerCodec) where
  correlationCounter : UInt64
  inlet : Inlet inner.State Byte

namespace Client

variable {inner : InnerCodec}

/-- Generate the next correlation id; the counter wraps. -/
def nextCorrelationId (client : Client inner) : UInt64 × Client inner :=
  (client.correlationCounter, { client with correlationCounter := client.correlationCounter + 1 })

/-- Send an envelope, under a correlation id of its own if it has none: the id, what the transport
is given, and the client afterwards. -/
def sendEnvelope (client : Client inner) (envelope : Envelope) :
    Except CallError (UInt64 × List Byte × Client inner) :=
  let (correlationId, client) :=
    match envelope.correlationId with
    | some correlationId => (correlationId, client)
    | none => client.nextCorrelationId
  let bytes := encodeEnvelope { envelope with correlationId := some correlationId }
  match inner.encode client.inlet.state bytes [] with
  | (.error err, _) => .error (.transport err)
  | (.ok (), codec, wire) =>
    .ok (correlationId, wire, { client with inlet := { client.inlet with state := codec } })

/-- Receive an envelope; an error without a cause stands for a call that waits for ever. -/
def receiveEnvelope (client : Client inner) :
    Except (Option CallError) (Envelope × Client inner) :=
  match client.inlet.next inner.decode with
  | (none, _) => .error none
  | (some (.error kind), _) => .error (some (.read kind))
  | (some (.ok frame), inlet) =>
    match Envelope.fromBytes frame with
    | .error err => .error (some (.decode err))
    | .ok (response, _) => .ok (response, { client with inlet := inlet })

end Client

/-- A request as it is sent when the counter stands so, and the counter afterwards. -/
def stamp (counter : UInt64) (request : Envelope) : Envelope × UInt64 :=
  match request.correlationId with
  | some _ => (request, counter)
  | none => ({ request with correlationId := some counter }, counter + 1)

/-- A correlation id is all that a request gets. -/
theorem stamp_id (counter : UInt64) (request : Envelope) :
    (stamp counter request).1.id = request.id := by
  unfold stamp
  split <;> rfl

/-! ## The server -/

/-- An application with the default serializer and codec, without hooks, fragmentation and message
assembly. -/
structure DefaultApp (σ E : Type) where
  handlers : KeyedMap UInt32 (Handler σ E)
  middleware : List (Middleware σ)
  frameLength : ℕ
  memoryBudgets : Option MemoryBudgets

namespace DefaultApp

variable {σ E : Type}

/-- The longest frame of the codec, which clamps what it is asked for. -/
def maxFrameLength (app : DefaultApp σ E) : ℕ := clampFrameLength app.frameLength

/-- What a connection of the application receives with. -/
def settings (app : DefaultApp σ E) : StreamSettings (List Byte) LimitedError where
  serializer := bincodeSerializer
  codec := ⟨id, fun _ => none, app.maxFrameLength⟩
  headerCodec := bincodeHeader
  messageAssembler := none
  fragmentation := none
  memoryBudgets := app.memoryBudgets

/-- What a connection of the application answers and sends with; its encoder is built on the inner
codec. -/
def outbound (app : DefaultApp σ E) (inner : InnerCodec) :
    Outbound σ inner.State E (List Byte) where
  handlers := app.handlers
  middleware := app.middleware
  serialize envelope := .ok (encodeEnvelope envelope)
  opened := inner.new
  wrapPayload codec payload := (payload, codec)
  beforeSend codec frame := (frame, codec)
  encode := LengthDelimitedEncoder.encode inner app.maxFrameLength

variable [Fragmentable E]

/-- One turn of the server's loop. -/
def step (app : DefaultApp σ E) (inner : InnerCodec) :
    StreamRun σ inner.State → StreamTurn (List Byte) → Option (StreamRun σ inner.State) :=
  StreamRun.step app.settings (app.outbound inner)

/-- The responses to a list of requests, served from a state. -/
def repliesTo (app : DefaultApp σ E) (world : σ) (requests : List Envelope) : List Envelope :=
  (Trace.transcript (answer (buildRouteChains app.handlers app.middleware)) world
    requests).filterMap Prod.snd

end DefaultApp

/-! ## A call -/

/-- How the bytes of one call travel, and what goes on at the server meanwhile: the cuts of the
request and of the reply, the reads that time out before the request is complete, and the clock
readings of the turn that serves it. -/
structure Passage where
  request : List Byte → List (List Byte)
  flatten_request : ∀ bytes, (request bytes).flatten = bytes
  reply : List Byte → List (List Byte)
  flatten_reply : ∀ bytes, (reply bytes).flatten = bytes
  waits : List (StreamTurn (List Byte))
  waits_timedOut : ∀ turn ∈ waits, ∃ fragmentsAt assembliesAt,
    turn.read = .timedOut fragmentsAt assembliesAt
  fragmentsAt : Instant
  assembliesAt : Instant
  reassembledAt : Instant
  assembledAt : Instant

/-- A client and the connection of the server it talks to, with the receiving end of the server. -/
structure Session (σ : Type) (server client : InnerCodec) where
  client : Client client
  inlet : Inlet server.State Byte
  run : StreamRun σ server.State

namespace Session

variable {σ E : Type} {server client : InnerCodec}

/-- Both ends of a new connection; the client has made calls on others before. -/
def start (app : DefaultApp σ E) (server client : InnerCodec) (counter : UInt64) (world : σ) :
    Session σ server client where
  client := ⟨counter, client.new, [], []⟩
  inlet := ⟨server.new, [], []⟩
  run := .start app.settings server.new world

/-- What the next read of the server yields: a frame, an error of the decoder or, once the client
has closed its end, the verdict of `decode_eof`; nothing as long as the read waits. -/
def nextRead (errorText : IoError → String) (p : Passage) (closed : Bool)
    (inlet : Inlet server.State Byte) :
    Option (StreamRead (List Byte)) × Inlet server.State Byte :=
  match inlet.next (LengthDelimitedDecoder.decode server) with
  | (some (.ok frame), inlet) => (some (.frame frame p.reassembledAt p.assembledAt []), inlet)
  | (some (.error err), inlet) => (some (.failed (errorText err)), inlet)
  | (none, inlet) =>
    if closed then
      match LengthDelimitedDecoder.decodeEof server inlet.state inlet.buf with
      | (.ok none, s, buf) => (some .ended, ⟨s, buf, []⟩)
      | (.ok (some frame), s, buf) =>
        (some (.frame frame p.reassembledAt p.assembledAt []), ⟨s, buf, []⟩)
      | (.error err, s, buf) => (some (.failed (errorText err)), ⟨s, buf, []⟩)
    else (none, inlet)

variable [Fragmentable E]

/-- The server's reads time out for a while, and then one of them yields something. -/
def serve (app : DefaultApp σ E) (errorText : IoError → String) (p : Passage) (closed : Bool)
    (inlet : Inlet server.State Byte) (run : StreamRun σ server.State) :
    Option (Inlet server.State Byte × StreamRun σ server.State) :=
  match Trace.exec (app.step server) run p.waits with
  | none => none
  | some run =>
    match nextRead errorText p closed inlet with
    | (none, _) => none
    | (some read, inlet) =>
      (app.step server run ⟨p.fragmentsAt, p.assembliesAt, read⟩).map fun run => (inlet, run)

/-- Send a request, let the server read and answer it, and wait for the reply. -/
def callCorrelated (app : DefaultApp σ E) (errorText : IoError → String)
    (c : Session σ server client) (call : Envelope × Passage) :
    Except (Option CallError) (Envelope × Session σ server client) :=
  match c.client.sendEnvelope call.1 with
  | .error err => .error (some err)
  | .ok (correlationId, wire, sender) =>
    match serve app errorText call.2 false (c.inlet.bring (call.2.request wire)) c.run with
    | none => .error none
    | some (inlet, run) =>
      let reply := call.2.reply (run.wire.drop c.run.wire.length)
      match { sender with inlet := sender.inlet.bring reply }.receiveEnvelope with
      | .error err => .error err
      | .ok (response, sender) =>
        if response.correlationId ≠ some correlationId then
          .error (some (.correlationMismatch (some correlationId) response.correlationId))
        else .ok (response, ⟨sender, inlet, run⟩)

/-- The client closes its end. -/
def close (app : DefaultApp σ E) (errorText : IoError → String) (c : Session σ server client)
    (p : Passage) : Option (StreamRun σ server.State) :=
  (serve app errorText p true c.inlet c.run).map Prod.snd

end Session

/-! ## What is assumed -/

section Assumptions

variable {σ E : Type}

/-- The third-party codecs of both ends are as documented, and the client keeps the default length
prefix. -/
structure Connects (app : DefaultApp σ E) (cfg : ClientCodecConfig) (server client : InnerCodec)
    (serverView : server.State → DecodeState) (clientView : client.State → DecodeState) :
    Prop where
  format : cfg.lengthFormat = .u32Be
  serverDecodes : server.Documented app.maxFrameLength serverView
  serverEncodes : server.Encodes (newInnerCodec app.maxFrameLength)
  clientDecodes : client.Documented cfg.maxFrameLength clientView
  clientEncodes : client.Encodes cfg.buildCodec
  clientApart : client.EncodesApart clientView

/-- Both ends let an envelope pass: encoded, it is within the frame length of either, and decoding
it stays within the limit of the serializer. -/
structure Passes (app : DefaultApp σ E) (cfg : ClientCodecConfig) (envelope : Envelope) : Prop where
  server : (encodeEnvelope envelope).length ≤ app.maxFrameLength
  client : (encodeEnvelope envelope).length ≤ cfg.maxFrameLength
  claims : Envelope.claims envelope ≤ maxFrameLength

instance (app : DefaultApp σ E) (cfg : ClientCodecConfig) (envelope : Envelope) :
    Decidable (Passes app cfg envelope) :=
  decidable_of_iff ((encodeEnvelope envelope).length ≤ app.maxFrameLength ∧
      (encodeEnvelope envelope).length ≤ cfg.maxFrameLength ∧
      Envelope.claims envelope ≤ maxFrameLength)
    ⟨fun h => ⟨h.1, h.2.1, h.2.2⟩, fun h => ⟨h.server, h.client, h.claims⟩⟩

end Assumptions

/-! ## Frames between the ends -/

section Frames

/-- A frame on the wire is read as that frame. -/
theorem yields_framed {maxLength : ℕ} (hmax : maxLength < 2 ^ 32) {frame : List Byte}
    (hfits : frame.length ≤ maxLength) :
    LengthFraming.Yields (lengthFormat maxLength) (framed frame) frame [] := by
  have hannounced : announcedLength (putU32 frame.length) = frame.length :=
    LengthDelimitedEncoder.announcedLength_putU32 (by omega)
  refine ⟨putU32 frame.length, ?_, length_putU32 _, hannounced.trans_le hfits, hannounced.symm⟩
  rw [framed, List.append_nil]

theorem ClientCodecConfig.maxFrameLength_lt (cfg : ClientCodecConfig) :
    cfg.maxFrameLength < 2 ^ 32 :=
  cfg.le_max.trans_lt (by decide)

/-- With the default length prefix the client's codec frames like the server's, up to the maximum
frame length. -/
theorem ClientCodecConfig.buildCodec_eq {cfg : ClientCodecConfig} (h : cfg.lengthFormat = .u32Be) :
    cfg.buildCodec = newInnerCodec cfg.maxFrameLength := by
  rw [buildCodec, h]
  rfl

end Frames

/-! ## The server's side -/

namespace StreamRun

section Serving

variable {σ E : Type} [Fragmentable E] {app : DefaultApp σ E} {inner : InnerCodec}
  {r : StreamRun σ inner.State} {turn : StreamTurn (List Byte)}

/-- A connection that holds nothing back. -/
structure Idle {κ : Type} (r : StreamRun σ κ) : Prop where
  state : r.state = ⟨0, none, none⟩
  out : r.out = []
  result : r.result = none

/-- A connection that holds nothing is under no pressure. -/
theorem evaluateMemoryPressure_empty (budgets : MemoryBudgets) :
    evaluateMemoryPressure none (some budgets) 0 = .continue := by
  have hlimit : 0 < activeAggregateLimitBytes budgets :=
    lt_min budgets.bytesPerConnection.pos budgets.bytesInFlight.pos
  have hempty : bufferedBytesOf none 0 = 0 := rfl
  have hhard : hasHardCapBeenBreached none (some budgets) 0 = false := by
    simp [hasHardCapBeenBreached, hempty]
  have hsoft : shouldPauseInboundReads none (some budgets) 0 = false := by
    simp only [shouldPauseInboundReads, isAtOrAboveSoftLimit, hempty, decide_eq_false_iff_not]
    omega
  simp [evaluateMemoryPressure, hhard, hsoft]

/-- A turn of an idle connection is its read. -/
theorem Idle.step_eq (h : Idle r) :
    app.step inner r turn = r.read app.settings (app.outbound inner) turn.read := by
  have hpressure : r.toInbound.pressure app.settings = .continue := by
    unfold InboundRun.pressure toInbound InboundState.fragmentationBufferedBytes
    rw [h.state]
    exact evaluateMemoryPressure_empty _
  rw [DefaultApp.step, step, h.result]
  simp only
  rw [hpressure]

/-- Time-outs change nothing: there is nothing to purge. -/
theorem Idle.exec_waits (h : Idle r) (p : Passage) :
    Trace.exec (app.step inner) r p.waits = some r := by
  have hstep : ∀ turn ∈ p.waits, app.step inner r turn = some r := by
    intro turn hturn
    obtain ⟨fragmentsAt, assembliesAt, hread⟩ := p.waits_timedOut turn hturn
    rw [h.step_eq, hread, read, h.state]
    obtain ⟨state, out, sending, wire, world, metrics, result, verdicts⟩ := r
    obtain rfl : state = ⟨0, none, none⟩ := h.state
    rfl
  generalize p.waits = waits at hstep
  induction waits with
  | nil => rfl
  | cons turn waits ih =>
    rw [List.forall_mem_cons] at hstep
    rw [Trace.exec, hstep.1]
    exact ih hstep.2

/-- The connection is closed without an error. -/
theorem Idle.step_ended (app : DefaultApp σ E) (h : Idle r) (fragmentsAt assembliesAt : Instant) :
    ∃ r', app.step inner r ⟨fragmentsAt, assembliesAt, .ended⟩ = some r' ∧
      r'.result = some (.ok ()) := by
  rw [h.step_eq]
  exact ⟨_, rfl, rfl⟩

omit [Fragmentable E] in
/-- An envelope within the limit is decoded, and no stage holds it back. -/
theorem build_encodeEnvelope (app : DefaultApp σ E) {env : Envelope}
    (hclaims : Envelope.claims env ≤ maxFrameLength) (reassembledAt assembledAt : Instant) :
    decodeEnvelope app.settings (encodeEnvelope env) = .passed (some env) ∧
      buildDispatchableEnvelope app.settings ⟨0, none, none⟩ (encodeEnvelope env) reassembledAt
        assembledAt = .ok (.ok (some env), ⟨0, none, none⟩) := by
  have hdecode : decodeEnvelope app.settings (encodeEnvelope env) = .passed (some env) := by
    have hparse := parseEnvelope_encodeEnvelope hclaims
    unfold decodeEnvelope
    simp only [DefaultApp.settings, id_eq, hparse]
    split_ifs with hnone
    · rw [Option.isNone_iff_eq_none] at hnone
      rw [← hnone]
    · rfl
  refine ⟨hdecode, ?_⟩
  unfold buildDispatchableEnvelope
  rw [hdecode]
  rfl

/-- The reply to a request is written behind what was written before. -/
theorem Idle.step_frame (h : Idle r) (hinner : inner.Encodes (newInnerCodec app.maxFrameLength))
    (p : Passage) {env : Envelope} {service : HandlerService σ}
    (hclaims : Envelope.claims env ≤ maxFrameLength)
    (hroute : (app.outbound inner).routes.lookup env.id = some service)
    (hfits : (encodeEnvelope ((respond service env).run r.world).1).length ≤ app.maxFrameLength) :
    ∃ r', app.step inner r ⟨p.fragmentsAt, p.assembliesAt,
        .frame (encodeEnvelope env) p.reassembledAt p.assembledAt []⟩ = some r' ∧ Idle r' ∧
      r'.world = ((respond service env).run r.world).2 ∧
      r'.wire = r.wire ++ framed (encodeEnvelope ((respond service env).run r.world).1) := by
  obtain ⟨state, out, sending, wire, world, metrics, result, verdicts⟩ := r
  obtain rfl : state = ⟨0, none, none⟩ := h.state
  obtain rfl : out = [] := h.out
  obtain rfl : result = none := h.result
  obtain ⟨hdecode, hbuild⟩ := build_encodeEnvelope app hclaims p.reassembledAt p.assembledAt
  have hverdict : frameVerdict app.settings ⟨0, none, none⟩ (encodeEnvelope env) p.reassembledAt
      p.assembledAt = .ok (.dispatched env) := by
    unfold frameVerdict
    rw [hdecode]
    rfl
  obtain ⟨sending', hencode⟩ := LengthDelimitedEncoder.encode_of_le hinner
    (LengthDelimitedEncoder.clampFrameLength_lt app.frameLength) hfits sending wire
  have hwrite : writeEnvelope (app.outbound inner) ((respond service env).run world).1
      (sending, wire) = (.ok (), sending',
        wire ++ framed (encodeEnvelope ((respond service env).run world).1)) := by
    simp only [writeEnvelope, encodeMessageFrame, DefaultApp.outbound, Except.map, hencode]
  rw [h.step_eq]
  simp only [read, handleFrame, hverdict, hbuild, hroute, forwardResponse, fragmentEnvelope,
    List.nil_append, flushPipelineOutput, sendEnvelope, hwrite]
  exact ⟨_, rfl, ⟨rfl, rfl, rfl⟩, rfl, rfl⟩

end Serving

end StreamRun

/-! ## The client's side -/

namespace Client

variable {cfg : ClientCodecConfig} {inner : InnerCodec} {view : inner.State → DecodeState}

/-- A request that is short enough is sent under its correlation id. -/
theorem sendEnvelope_eq_ok (hformat : cfg.lengthFormat = .u32Be)
    (hencodes : inner.Encodes cfg.buildCodec) (hapart : inner.EncodesApart view)
    {client : Client inner} (hclear : client.inlet.Clear view) (request : Envelope)
    (hfits : (encodeEnvelope (stamp client.correlationCounter request).1).length ≤
      cfg.maxFrameLength) :
    ∃ correlationId sender,
      client.sendEnvelope request =
        .ok (correlationId, framed (encodeEnvelope (stamp client.correlationCounter request).1),
          sender) ∧
      (stamp client.correlationCounter request).1.correlationId = some correlationId ∧
      sender.correlationCounter = (stamp client.correlationCounter request).2 ∧
      sender.inlet.Clear view := by
  rw [ClientCodecConfig.buildCodec_eq hformat] at hencodes
  have hlongest := LengthDelimitedEncoder.newInnerCodec_longest cfg.maxFrameLength_lt
  obtain ⟨codec, hencode⟩ := hencodes.accepts client.inlet.state _ [] (hlongest.symm ▸ hfits)
  have hview := hapart client.inlet.state
    (encodeEnvelope (stamp client.correlationCounter request).1) []
  rw [hencode] at hview
  have hsender : ({ client.inlet with state := codec } : Inlet inner.State Byte).Clear view :=
    ⟨hview.trans hclear.state, hclear.buf, hclear.coming⟩
  obtain ⟨id, existing, payload⟩ := request
  cases existing with
  | none =>
    simp only [stamp] at hencode
    refine ⟨client.correlationCounter,
      ⟨client.correlationCounter + 1, { client.inlet with state := codec }⟩, ?_, rfl, rfl,
      hsender⟩
    simp only [sendEnvelope, nextCorrelationId, hencode]
    rfl
  | some existing =>
    simp only [stamp] at hencode
    refine ⟨existing, { client with inlet := { client.inlet with state := codec } }, ?_, rfl, rfl,
      hsender⟩
    simp only [sendEnvelope, hencode]
    rfl

/-- A reply that comes in any chunks is received. -/
theorem receiveEnvelope_eq_ok (hdecodes : inner.Documented cfg.maxFrameLength view)
    {client : Client inner} (hclear : client.inlet.Clear view) {reply : Envelope}
    {chunks : List (List Byte)} (hchunks : chunks.flatten = framed (encodeEnvelope reply))
    (hfits : (encodeEnvelope reply).length ≤ cfg.maxFrameLength)
    (hclaims : Envelope.claims reply ≤ maxFrameLength) :
    ∃ inlet, ({ client with inlet := client.inlet.bring chunks } : Client inner).receiveEnvelope =
        .ok (reply, { client with inlet := inlet }) ∧ inlet.Clear view := by
  have hyields := yields_framed cfg.maxFrameLength_lt hfits
  rw [← hchunks] at hyields
  obtain ⟨inlet, hnext, hclear'⟩ := hclear.next hdecodes.decode hyields
  have hbytes := Envelope.fromBytes_encodeEnvelope [] (Envelope.length_lt_of_claims_le hclaims)
  rw [List.append_nil, if_pos hclaims] at hbytes
  refine ⟨inlet, ?_, hclear'⟩
  simp only [receiveEnvelope, hnext, hbytes]

end Client

/-! ## Both sides -/

namespace Session

variable {σ E : Type} [Fragmentable E] {app : DefaultApp σ E} {cfg : ClientCodecConfig}
  {server client : InnerCodec} {serverView : server.State → DecodeState}
  {clientView : client.State → DecodeState} {errorText : IoError → String} {p : Passage}
  {c : Session σ server client}

/-- Between two calls nothing is on its way, and the server holds nothing back. -/
structure Ready (serverView : server.State → DecodeState) (clientView : client.State → DecodeState)
    (c : Session σ server client) : Prop where
  client : c.client.inlet.Clear clientView
  inlet : c.inlet.Clear serverView
  idle : c.run.Idle

omit [Fragmentable E] in
/-- The server reads a request, in whatever chunks it comes. -/
theorem nextRead_frame (hconnects : Connects app cfg server client serverView clientView)
    (errorText : IoError → String) (p : Passage) {inlet : Inlet server.State Byte}
    (hclear : inlet.Clear serverView) {frame : List Byte}
    {chunks : List (List Byte)} (hchunks : chunks.flatten = framed frame)
    (hfits : frame.length ≤ app.maxFrameLength) :
    ∃ inlet', nextRead errorText p false (inlet.bring chunks) =
        (some (.frame frame p.reassembledAt p.assembledAt []), inlet') ∧
      inlet'.Clear serverView := by
  have hyields := yields_framed (LengthDelimitedEncoder.clampFrameLength_lt app.frameLength) hfits
  rw [← hchunks] at hyields
  obtain ⟨inlet', hnext, hclear'⟩ :=
    hclear.next (LengthDelimitedDecoder.implements_decode hconnects.serverDecodes) hyields
  refine ⟨inlet', ?_, hclear'⟩
  simp only [nextRead, hnext]

/-- **One call**: the client gets the reply to its request, and both ends are ready for the next
call. -/
theorem callCorrelated_ready (hconnects : Connects app cfg server client serverView clientView)
    (h : Ready serverView clientView c) {request : Envelope} {service : HandlerService σ}
    (hroute : (app.outbound server).routes.lookup request.id = some service)
    (hrequest : Passes app cfg (stamp c.client.correlationCounter request).1)
    (hreply : Passes app cfg
      ((respond service (stamp c.client.correlationCounter request).1).run c.run.world).1) :
    ∃ c', callCorrelated app errorText c (request, p) =
        .ok (((respond service (stamp c.client.correlationCounter request).1).run c.run.world).1,
          c') ∧
      Ready serverView clientView c' ∧
      c'.client.correlationCounter = (stamp c.client.correlationCounter request).2 ∧
      c'.run.world =
        ((respond service (stamp c.client.correlationCounter request).1).run c.run.world).2 := by
  obtain ⟨correlationId, sender, hsend, hid, hcounter, hsender⟩ :=
    Client.sendEnvelope_eq_ok hconnects.format hconnects.clientEncodes hconnects.clientApart
      h.client request hrequest.client
  have hrouted : (app.outbound server).routes.lookup
      (stamp c.client.correlationCounter request).1.id = some service := by
    rw [stamp_id, hroute]
  -- the server reads the request and writes the reply
  obtain ⟨inlet, hread, hinlet⟩ := nextRead_frame hconnects errorText p h.inlet
    (p.flatten_request _) hrequest.server
  obtain ⟨run, hstep, hidle, hworld, hwire⟩ :=
    h.idle.step_frame hconnects.serverEncodes p hrequest.claims hrouted hreply.server
  have hserve : serve app errorText p false (c.inlet.bring (p.request (framed (encodeEnvelope
      (stamp c.client.correlationCounter request).1)))) c.run = some (inlet, run) := by
    simp only [serve, h.idle.exec_waits, hread, hstep, Option.map_some]
  -- the client reads the reply, which is all that was written since
  have hnew : run.wire.drop c.run.wire.length = framed (encodeEnvelope
      ((respond service (stamp c.client.correlationCounter request).1).run c.run.world).1) := by
    rw [hwire, List.drop_left]
  obtain ⟨inlet', hreceive, hclear⟩ := Client.receiveEnvelope_eq_ok hconnects.clientDecodes hsender
    ((p.flatten_reply _).trans hnew) hreply.client hreply.claims
  have hcorrelation := (answers_respond service (stamp c.client.correlationCounter request).1
    c.run.world).2 (by rw [hid]; exact Option.some_ne_none _)
  rw [hid] at hcorrelation
  refine ⟨⟨{ sender with inlet := inlet' }, inlet, run⟩, ?_, ⟨hclear, hinlet, hidle⟩, hcounter,
    hworld⟩
  simp only [callCorrelated, hsend, hserve, hreceive, hcorrelation, ne_eq, not_true_eq_false,
    if_false]

/-- The client closes its end between two calls. -/
theorem close_ready (hconnects : Connects app cfg server client serverView clientView)
    (h : Ready serverView clientView c) :
    ∃ r, close app errorText c p = some r ∧ r.result = some (.ok ()) := by
  obtain ⟨inlet, hnext, hclear⟩ :=
    h.inlet.next_none (LengthDelimitedDecoder.implements_decode hconnects.serverDecodes)
  have heof : LengthDelimitedDecoder.decodeEof server inlet.state inlet.buf =
      (.ok none, inlet.state, inlet.buf) := by
    rw [LengthDelimitedDecoder.decodeEof, if_pos hclear.buf]
  obtain ⟨r, hstep, hresult⟩ := h.idle.step_ended app p.fragmentsAt p.assembliesAt
  refine ⟨r, ?_, hresult⟩
  simp only [close, serve, h.idle.exec_waits, nextRead, hnext, heof, if_true, hstep,
    Option.map_some]

/-- A request with a handler has a route. -/
theorem exists_route (server : InnerCodec) {id : UInt32} (h : app.handlers.lookup id ≠ none) :
    ∃ service, (app.outbound server).routes.lookup id = some service := by
  obtain ⟨handler, hhandler⟩ := Option.ne_none_iff_exists'.mp h
  have hroute := lookup_buildRouteChains app.handlers app.middleware id
  rw [hhandler, Option.map_some] at hroute
  exact ⟨_, hroute⟩

/-- The first of the responses comes from the route of the first request. -/
theorem repliesTo_cons {request : Envelope} {service : HandlerService σ}
    (hroute : (app.outbound server).routes.lookup request.id = some service) (world : σ)
    (requests : List Envelope) :
    app.repliesTo world (request :: requests) = ((respond service request).run world).1 ::
      app.repliesTo ((respond service request).run world).2 requests := by
  have hanswer := StreamRun.answer_of_route hroute world
  unfold DefaultApp.repliesTo
  rw [Trace.transcript]
  show List.filterMap Prod.snd ((request, (answer (app.outbound server).routes world request).1) ::
    Trace.transcript _ (answer (app.outbound server).routes world request).2 requests) = _
  rw [hanswer]
  rfl

/-- The requests of some calls as they are sent. -/
def sentBy (counter : UInt64) (calls : List (Envelope × Passage)) : List Envelope :=
  (Trace.transcript stamp counter (calls.map Prod.fst)).map Prod.snd

/-- An application that counts its requests and answers with their payload reversed. -/
def countingDefault : DefaultApp ℕ Envelope :=
  ⟨StreamRun.countingApp.handlers, StreamRun.countingApp.middleware, 0, none⟩

/-- Both ends on the documented codec; the client is as configured by default. -/
theorem countingDefault_connects :
    Connects countingDefault .default (referenceCodec countingDefault.maxFrameLength)
      (referenceCodec clientDefaultMaxFrameLength) id id where
  format := rfl
  serverDecodes := referenceCodec_documented _
  serverEncodes := encodes_of_referenceEncode rfl
  clientDecodes := referenceCodec_documented _
  clientEncodes := encodes_of_referenceEncode rfl
  clientApart := referenceCodec_encodesApart _

/-- A request that arrives byte by byte after a time-out, and a reply in one piece. -/
def byteByByte : Passage where
  request bytes := bytes.map fun byte => [byte]
  flatten_request bytes := by
    induction bytes with
    | nil => rfl
    | cons byte bytes ih => rw [List.map_cons, List.flatten_cons, ih, List.singleton_append]
  reply bytes := [bytes]
  flatten_reply bytes := List.flatten_singleton
  waits := [⟨0, 0, .timedOut 0 0⟩]
  waits_timedOut turn hturn := ⟨0, 0, by rw [List.mem_singleton.mp hturn]⟩
  fragmentsAt := 0
  assembliesAt := 0
  reassembledAt := 0
  assembledAt := 0

end Session

end Wireframe
