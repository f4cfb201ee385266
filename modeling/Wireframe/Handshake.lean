/-
# Setting a connection up

A client that connects writes its preamble and may then talk to the server through a callback
before it sends its first frame (`src/client/preamble_exchange.rs`, `src/client/connect_parts.rs`).
The task of the connection on the server reads the preamble, runs a handler of its own and hands
what is left of the stream to the application, between the application's setup and its teardown
(`src/server/connection_spawner.rs`, `process_connection` in `src/app/inbound_handler/mod.rs`).

`Handshake` has the two ends and the bytes between them.  Each end moves by itself: bytes are
written and read in pieces of any size, either end may time out, and the callbacks do with the
bare stream what they like.
-/
import Mathlib.Tactic
import Wireframe.Pipe
import Wireframe.RewindStream
import Wireframe.Trace

namespace Wireframe

open ShortReads

abbrev BytePipe := Pipe UInt8 StreamError

/-! ## The two ends -/

/-- Why `write_preamble` failed. -/
inductive PreambleEncodeError where
  | io (inner : StreamError) (index : ℕ)
  | other (text : String)
  deriving DecidableEq, Repr

/-- The errors of `perform_preamble_exchange`. -/
inductive ExchangeError where
  | preambleEncode (err : PreambleEncodeError)
  | preambleRead (inner : StreamError)
  | preambleTimeout
  deriving DecidableEq, Repr

/-- Where `connect` stands. -/
inductive ClientPhase where
  /-- in `write_preamble`, with these bytes still to be written -/
  | writing (rest : List UInt8)
  /-- in the success callback -/
  | greeting
  /-- in the failure callback -/
  | failing (err : ExchangeError)
  /-- the client is there; the callback has left these bytes to replay -/
  | connected (leftover : List UInt8) (stream : RewindStream)
  /-- the stream is dropped -/
  | gone

/-- The client is in code that holds the bare stream. -/
def ClientPhase.bare : ClientPhase → Bool
  | .greeting => true
  | .failing _ => true
  | _ => false

/-- The client is in code that may write what it likes. -/
def ClientPhase.free : ClientPhase → Bool
  | .connected _ _ => true
  | phase => phase.bare

/-- The client's end: what its callbacks took from the bare stream, and what it read through the
rewound one. -/
structure ClientEnd where
  phase : ClientPhase
  took : List UInt8
  read : List UInt8

/-- Where the task of the connection stands. -/
inductive ServerPhase (T : Type) where
  /-- in `read_preamble` -/
  | reading (run : PreambleRun T)
  /-- in the handler for preambles that failed -/
  | refusing (err : PreambleError)
  /-- in the handler for preambles that succeeded -/
  | welcoming (value : T) (leftover : List UInt8)
  /-- in the application's setup -/
  | connecting (value : T) (leftover : List UInt8)
  /-- in `process_stream` of the application -/
  | serving (value : T) (leftover : List UInt8) (stream : RewindStream)
  /-- in the application's teardown -/
  | disconnecting
  | gone

namespace ServerPhase

variable {T : Type}

/-- The task is in code that holds the bare stream. -/
def bare : ServerPhase T → Bool
  | .refusing _ => true
  | .welcoming _ _ => true
  | _ => false

/-- The task is in code that may write what it likes. -/
def free : ServerPhase T → Bool
  | .serving _ _ _ => true
  | phase => phase.bare

/-- The task is in code of the user, which may panic. -/
def foreign : ServerPhase T → Bool
  | .connecting _ _ => true
  | .disconnecting => true
  | phase => phase.free

end ServerPhase

/-- What a task calls and counts on its way. -/
inductive TaskEntry (T : Type) where
  /-- `inc_decode_rejection` -/
  | decodeRejected (err : PreambleError)
  | failureHandler (err : PreambleError)
  | successHandler (value : T)
  /-- `inc_preamble_rejection` -/
  | handlerRejected
  | setup
  | teardown
  /-- `inc_connection_panics` -/
  | panicked

/-- The server's end; `passes` counts the passes of the loops of `read_preamble`. -/
structure ServerEnd (T : Type) where
  phase : ServerPhase T
  took : List UInt8
  read : List UInt8
  passes : ℕ
  record : List (TaskEntry T)

/-- What is configured on either side. -/
structure HandshakeConfig where
  /-- the preamble as `encode_to_vec` gives it, if there is one -/
  preamble : Option (Except String (List UInt8))
  clientSuccess : Bool
  clientFailure : Bool
  clientTimeout : Bool
  serverSuccess : Bool
  serverFailure : Bool
  serverTimeout : Bool
  onConnect : Bool
  onDisconnect : Bool

structure Handshake (T : Type) where
  toServer : BytePipe
  toClient : BytePipe
  client : ClientEnd
  server : ServerEnd T

/-! ## What happens -/

inductive ClientEvent where
  /-- `write_all` gets rid of some bytes -/
  | writesPreamble (n : ℕ)
  /-- `write_preamble` is through -/
  | preambleWritten
  | writeFails (inner : StreamError)
  | timesOut
  | callbackReturns (result : Except StreamError (List UInt8))
  | failureReturns
  /-- a callback reads from the bare stream -/
  | takes (n : ℕ)
  | writes (bytes : List UInt8)
  /-- a read through the rewound stream -/
  | polls (room cut : ℕ)
  | closes

inductive TaskEvent where
  /-- one pass of the loops of `read_preamble` -/
  | readsPreamble (cut : ℕ)
  | timesOut
  | successReturns (result : Except StreamError Unit)
  | failureReturns
  | setupReturns
  /-- `process_stream` of the application is over -/
  | appReturns
  | teardownReturns
  | panics
  | takes (n : ℕ)
  | writes (bytes : List UInt8)
  | polls (room cut : ℕ)

inductive HandshakeEvent where
  | client (event : ClientEvent)
  | server (event : TaskEvent)
  /-- the connection fails in one direction; what is on its way still arrives -/
  | breaksToServer (err : StreamError)
  | breaksToClient (err : StreamError)

namespace Handshake

variable {T : Type}

/-- A read through a rewound stream: the bytes it yields, and the stream and the pipe behind it.
It waits while there is nothing to replay and nothing on its way. -/
def poll (pipe : BytePipe) (stream : RewindStream) (room cut : ℕ) :
    Option (List UInt8 × RewindStream × BytePipe) :=
  if stream.pos < stream.leftover.length ∨ pipe.Ready then
    let (result, stream) :=
      { stream with inner := pipe.reader fun _ => cut : RewindStream }.pollRead room
    some (result.toOption.getD [], stream, pipe.readTo stream.inner)
  else none

/-! ### The client -/

/-- The client drops the stream. -/
def clientGone (s : Handshake T) : Handshake T :=
  { s with client.phase := .gone, toServer := s.toServer.close none }

/-- The end of `perform_preamble_exchange` with an error. -/
def clientFailed (cfg : HandshakeConfig) (s : Handshake T) (err : ExchangeError) : Handshake T :=
  if cfg.clientFailure then { s with client.phase := .failing err } else s.clientGone

/-- The end of `connect`. -/
def clientConnected (s : Handshake T) (leftover : List UInt8) : Handshake T :=
  { s with
    client.phase := .connected leftover
      (RewindStream.new leftover (s.toClient.reader fun _ => 0)) }

def clientStep (cfg : HandshakeConfig) (s : Handshake T) : ClientEvent → Option (Handshake T)
  | .writesPreamble n =>
    match s.client.phase with
    | .writing rest =>
      if 0 < n ∧ n ≤ rest.length ∧ s.toServer.ending = none then
        some { s with
          toServer := s.toServer.write (rest.take n)
          client.phase := .writing (rest.drop n) }
      else none
    | _ => none
  | .preambleWritten =>
    match s.client.phase with
    | .writing [] =>
      some (if cfg.clientSuccess then { s with client.phase := .greeting }
        else s.clientConnected [])
    | _ => none
  | .writeFails inner =>
    match s.client.phase with
    | .writing [] =>
      -- all bytes are written, so it is the flush that fails
      some (s.clientFailed cfg (.preambleEncode (.io inner s.toServer.sent.length)))
    | .writing _ => some (s.clientFailed cfg (.preambleEncode (.io inner 0)))
    | _ => none
  | .timesOut =>
    if cfg.clientTimeout then
      match s.client.phase with
      | .writing _ => some (s.clientFailed cfg .preambleTimeout)
      | .greeting => some (s.clientFailed cfg .preambleTimeout)
      | _ => none
    else none
  | .callbackReturns result =>
    match s.client.phase, result with
    | .greeting, .ok leftover => some (s.clientConnected leftover)
    | .greeting, .error inner => some (s.clientFailed cfg (.preambleRead inner))
    | _, _ => none
  | .failureReturns =>
    match s.client.phase with
    | .failing _ => some s.clientGone
    | _ => none
  | .takes n =>
    if s.client.phase.bare = true ∧ n ≤ s.toClient.transit.length then
      some { s with
        toClient := s.toClient.take n
        client.took := s.client.took ++ s.toClient.transit.take n }
    else none
  | .writes bytes =>
    if s.client.phase.free = true ∧ s.toServer.ending = none then
      some { s with toServer := s.toServer.write bytes }
    else none
  | .polls room cut =>
    match s.client.phase with
    | .connected leftover stream =>
      (poll s.toClient stream room cut).map fun (bytes, stream, pipe) =>
        { s with
          toClient := pipe
          client := ⟨.connected leftover stream, s.client.took, s.client.read ++ bytes⟩ }
    | _ => none
  | .closes =>
    match s.client.phase with
    | .connected _ _ => some s.clientGone
    | _ => none

/-! ### The server -/

/-- `timeout_error`; the kind is the 22nd of `io::ErrorKind`. -/
def timeoutError : PreambleError := .io ⟨.other 22, some "preamble read timed out"⟩ 0

/-- The task is over, with these last entries, and drops the stream. -/
def serverGone (s : Handshake T) (entries : List (TaskEntry T)) : Handshake T :=
  { s with
    server.phase := .gone
    server.record := s.server.record ++ entries
    toClient := s.toClient.close none }

/-- `run_preamble_failure` up to the end of its handler. -/
def runPreambleFailure (cfg : HandshakeConfig) (s : Handshake T) (err : PreambleError) :
    Handshake T :=
  if cfg.serverFailure then
    { s with
      server.phase := .refusing err
      server.record := s.server.record ++ [.decodeRejected err, .failureHandler err] }
  else s.serverGone [.decodeRejected err]

/-- The application gets the stream: `process_stream`, once the setup is done. -/
def serve (s : Handshake T) (value : T) (leftover : List UInt8) : Handshake T :=
  { s with
    server.phase := .serving value leftover
      (RewindStream.new leftover (s.toServer.reader fun _ => 0)) }

/-- `handle_app_connection` up to the end of the application's setup. -/
def handleAppConnection (cfg : HandshakeConfig) (s : Handshake T) (value : T)
    (leftover : List UInt8) : Handshake T :=
  if cfg.onConnect then
    { s with
      server.phase := .connecting value leftover
      server.record := s.server.record ++ [.setup] }
  else s.serve value leftover

/-- `run_preamble_success` up to the end of its handler. -/
def runPreambleSuccess (cfg : HandshakeConfig) (s : Handshake T) (value : T)
    (leftover : List UInt8) : Handshake T :=
  if cfg.serverSuccess then
    { s with
      server.phase := .welcoming value leftover
      server.record := s.server.record ++ [.successHandler value] }
  else s.handleAppConnection cfg value leftover

/-- What the task makes of a pass of `read_preamble`. -/
def afterPass (cfg : HandshakeConfig) (s : Handshake T) (run : PreambleRun T) : Handshake T :=
  match run.phase with
  | .returned (.ok (value, leftover)) => s.runPreambleSuccess cfg value leftover
  | .returned (.error err) => s.runPreambleFailure cfg err
  | .panicked _ => s.serverGone [.panicked]
  | _ => { s with server.phase := .reading run }

/-- The call of `read_preamble` is at a read. -/
def waits (run : PreambleRun T) : Bool :=
  match run.phase with
  | .reading _ additional read => read < additional
  | _ => false

def serverStep (decode : PreambleDecoder T) (cfg : HandshakeConfig) (s : Handshake T) :
    TaskEvent → Option (Handshake T)
  | .readsPreamble cut =>
    match s.server.phase with
    | .reading run =>
      if waits run = true ∧ ¬ s.toServer.Ready then none
      else
        let run' := { run with reader := s.toServer.reader fun _ => cut }.step decode
        some ({ s with
          toServer := s.toServer.readTo run'.reader
          server.passes := s.server.passes + 1 }.afterPass cfg run')
    | _ => none
  | .timesOut =>
    if cfg.serverTimeout then
      match s.server.phase with
      | .reading _ => some (s.runPreambleFailure cfg timeoutError)
      | _ => none
    else none
  | .successReturns result =>
    match s.server.phase, result with
    | .welcoming value leftover, .ok _ => some (s.handleAppConnection cfg value leftover)
    | .welcoming _ _, .error _ => some (s.serverGone [.handlerRejected])
    | _, _ => none
  | .failureReturns =>
    match s.server.phase with
    | .refusing _ => some (s.serverGone [])
    | _ => none
  | .setupReturns =>
    match s.server.phase with
    | .connecting value leftover => some (s.serve value leftover)
    | _ => none
  | .appReturns =>
    match s.server.phase with
    | .serving _ _ _ =>
      -- the stream is dropped before the teardown
      some (if cfg.onDisconnect = true ∧ cfg.onConnect = true then
          { s.serverGone [.teardown] with server.phase := .disconnecting }
        else s.serverGone [])
    | _ => none
  | .teardownReturns =>
    match s.server.phase with
    | .disconnecting => some (s.serverGone [])
    | _ => none
  | .panics =>
    if s.server.phase.foreign = true then some (s.serverGone [.panicked]) else none
  | .takes n =>
    if s.server.phase.bare = true ∧ n ≤ s.toServer.transit.length then
      some { s with
        toServer := s.toServer.take n
        server.took := s.server.took ++ s.toServer.transit.take n }
    else none
  | .writes bytes =>
    if s.server.phase.free = true ∧ s.toClient.ending = none then
      some { s with toClient := s.toClient.write bytes }
    else none
  | .polls room cut =>
    match s.server.phase with
    | .serving value leftover stream =>
      (poll s.toServer stream room cut).map fun (bytes, stream, pipe) =>
        { s with
          toServer := pipe
          server.phase := .serving value leftover stream
          server.read := s.server.read ++ bytes }
    | _ => none

/-! ### Both -/

def step (decode : PreambleDecoder T) (cfg : HandshakeConfig) (s : Handshake T) :
    HandshakeEvent → Option (Handshake T)
  | .client event => clientStep cfg s event
  | .server event => serverStep decode cfg s event
  | .breaksToServer err => some { s with toServer := s.toServer.close (some err) }
  | .breaksToClient err => some { s with toClient := s.toClient.close (some err) }

/-- The connection is made; the server is at its first read. -/
def start (cfg : HandshakeConfig) : Handshake T :=
  let s : Handshake T :=
    { toServer := .empty
      toClient := .empty
      client := ⟨.writing [], [], []⟩
      server :=
        ⟨.reading (PreambleRun.readPreamble (Pipe.empty.reader fun _ => 0)), [], [], 0, []⟩ }
  match cfg.preamble with
  | none => s.clientConnected []
  | some (.error text) => s.clientFailed cfg (.preambleEncode (.other text))
  | some (.ok bytes) => { s with client.phase := .writing bytes }

/-! ## What a step can do -/

/-- The moves of the client. -/
inductive ClientMove (s : Handshake T) : Handshake T → Prop where
  | writesPreamble {bytes rest : List UInt8} (hphase : s.client.phase = .writing (bytes ++ rest))
      (hopen : s.toServer.ending = none) :
      ClientMove s { s with toServer := s.toServer.write bytes, client.phase := .writing rest }
  | greets (hphase : s.client.phase = .writing []) :
      ClientMove s { s with client.phase := .greeting }
  | connects {leftover : List UInt8}
      (hphase : s.client.phase = .writing [] ∨ s.client.phase = .greeting) :
      ClientMove s (s.clientConnected leftover)
  | fails (err : ExchangeError) : ClientMove s { s with client.phase := .failing err }
  | goes : ClientMove s s.clientGone
  | takes {n : ℕ} (hbare : s.client.phase.bare = true) (hn : n ≤ s.toClient.transit.length) :
      ClientMove s { s with
        toClient := s.toClient.take n
        client.took := s.client.took ++ s.toClient.transit.take n }
  | writes {bytes : List UInt8} (hfree : s.client.phase.free = true)
      (hopen : s.toServer.ending = none) :
      ClientMove s { s with toServer := s.toServer.write bytes }
  | polls {leftover bytes : List UInt8} {stream stream' : RewindStream} {pipe : BytePipe}
      {room cut : ℕ} (hphase : s.client.phase = .connected leftover stream)
      (hpoll : poll s.toClient stream room cut = some (bytes, stream', pipe)) :
      ClientMove s { s with
        toClient := pipe
        client := ⟨.connected leftover stream', s.client.took, s.client.read ++ bytes⟩ }

theorem clientFailed_move (cfg : HandshakeConfig) (s : Handshake T) (err : ExchangeError) :
    ClientMove s (s.clientFailed cfg err) := by
  unfold clientFailed
  split
  · exact .fails err
  · exact .goes

/-- Every event of the client is a move. -/
theorem clientStep_move {cfg : HandshakeConfig} {s s' : Handshake T} {event : ClientEvent}
    (h : clientStep cfg s event = some s') : ClientMove s s' := by
  cases event with simp only [clientStep] at h
  | writesPreamble n =>
    split at h
    case h_1 rest hphase =>
      split at h
      case isTrue hguard =>
        cases h
        rw [← List.take_append_drop n rest] at hphase
        exact .writesPreamble hphase hguard.2.2
      case isFalse => cases h
    case h_2 => cases h
  | preambleWritten =>
    split at h
    case h_1 hphase =>
      cases h
      split
      · exact .greets hphase
      · exact .connects (Or.inl hphase)
    case h_2 => cases h
  | writeFails inner =>
    split at h
    · cases h
      exact clientFailed_move _ _ _
    · cases h
      exact clientFailed_move _ _ _
    · cases h
  | timesOut =>
    split at h
    · split at h
      · cases h
        exact clientFailed_move _ _ _
      · cases h
        exact clientFailed_move _ _ _
      · cases h
    · cases h
  | callbackReturns result =>
    split at h
    case h_1 hphase =>
      cases h
      exact .connects (Or.inr hphase)
    case h_2 =>
      cases h
      exact clientFailed_move _ _ _
    case h_3 => cases h
  | failureReturns | closes =>
    split at h
    · cases h
      exact .goes
    · cases h
  | takes n =>
    split at h
    case isTrue hguard =>
      cases h
      exact .takes hguard.1 hguard.2
    case isFalse => cases h
  | writes bytes =>
    split at h
    case isTrue hguard =>
      cases h
      exact .writes hguard.1 hguard.2
    case isFalse => cases h
  | polls room cut =>
    split at h
    case h_1 leftover stream hphase =>
      obtain ⟨⟨bytes, stream', pipe⟩, hpoll, rfl⟩ := Option.map_eq_some_iff.mp h
      exact .polls hphase hpoll
    case h_2 => cases h

/-- How the task of a connection comes to its end behind the preamble: the phase it ends in, and
what it still counts. -/
inductive Ends (cfg : HandshakeConfig) : ServerPhase T → List (TaskEntry T) → Prop where
  | rejected {value : T} {leftover : List UInt8} :
      Ends cfg (.welcoming value leftover) [.handlerRejected]
  | refused {err : PreambleError} : Ends cfg (.refusing err) []
  | returned {value : T} {leftover : List UInt8} {stream : RewindStream}
      (hhooks : ¬ (cfg.onDisconnect = true ∧ cfg.onConnect = true)) :
      Ends cfg (.serving value leftover stream) []
  | tornDown : Ends cfg .disconnecting []
  | panicked {phase : ServerPhase T} (hforeign : phase.foreign = true) :
      Ends cfg phase [.panicked]

/-- The moves of the task. -/
inductive ServerMove (decode : PreambleDecoder T) (cfg : HandshakeConfig) (s : Handshake T) :
    Handshake T → Prop where
  | passes {run run' : PreambleRun T} {cut : ℕ} (hphase : s.server.phase = .reading run)
      (hready : waits run = true → s.toServer.Ready)
      (hrun : run' = { run with reader := s.toServer.reader fun _ => cut }.step decode) :
      ServerMove decode cfg s ({ s with
        toServer := s.toServer.readTo run'.reader
        server.passes := s.server.passes + 1 }.afterPass cfg run')
  | timesOut {run : PreambleRun T} (hphase : s.server.phase = .reading run) :
      ServerMove decode cfg s (s.runPreambleFailure cfg timeoutError)
  | accepts {value : T} {leftover : List UInt8}
      (hphase : s.server.phase = .welcoming value leftover) :
      ServerMove decode cfg s (s.handleAppConnection cfg value leftover)
  | serves {value : T} {leftover : List UInt8}
      (hphase : s.server.phase = .connecting value leftover) :
      ServerMove decode cfg s (s.serve value leftover)
  | ends {entries : List (TaskEntry T)} (hends : Ends cfg s.server.phase entries) :
      ServerMove decode cfg s (s.serverGone entries)
  | disconnects {value : T} {leftover : List UInt8} {stream : RewindStream}
      (hphase : s.server.phase = .serving value leftover stream)
      (hhooks : cfg.onDisconnect = true ∧ cfg.onConnect = true) :
      ServerMove decode cfg s
        { s.serverGone [.teardown] with server.phase := .disconnecting }
  | takes {n : ℕ} (hbare : s.server.phase.bare = true) (hn : n ≤ s.toServer.transit.length) :
      ServerMove decode cfg s { s with
        toServer := s.toServer.take n
        server.took := s.server.took ++ s.toServer.transit.take n }
  | writes {bytes : List UInt8} (hfree : s.server.phase.free = true)
      (hopen : s.toClient.ending = none) :
      ServerMove decode cfg s { s with toClient := s.toClient.write bytes }
  | polls {value : T} {leftover bytes : List UInt8} {stream stream' : RewindStream}
      {pipe : BytePipe} {room cut : ℕ} (hphase : s.server.phase = .serving value leftover stream)
      (hpoll : poll s.toServer stream room cut = some (bytes, stream', pipe)) :
      ServerMove decode cfg s { s with
        toServer := pipe
        server.phase := .serving value leftover stream'
        server.read := s.server.read ++ bytes }

/-- Every event of the connection task is a move. -/
theorem serverStep_move {decode : PreambleDecoder T} {cfg : HandshakeConfig} {s s' : Handshake T}
    {event : TaskEvent} (h : serverStep decode cfg s event = some s') :
    ServerMove decode cfg s s' := by
  cases event with simp only [serverStep] at h
  | readsPreamble cut =>
    split at h
    case h_1 run hphase =>
      split at h
      case isTrue => cases h
      case isFalse hguard =>
        cases h
        refine .passes hphase ?_ rfl
        intro hwaits
        by_contra hready
        exact hguard ⟨hwaits, hready⟩
    case h_2 => cases h
  | timesOut =>
    split at h
    · split at h
      case h_1 run hphase =>
        cases h
        exact .timesOut hphase
      case h_2 => cases h
    · cases h
  | successReturns result =>
    split at h
    case h_1 value leftover _ hphase =>
      cases h
      exact .accepts hphase
    case h_2 hphase =>
      cases h
      exact .ends (hphase ▸ .rejected)
    case h_3 => cases h
  | failureReturns =>
    split at h
    case h_1 hphase =>
      cases h
      exact .ends (hphase ▸ .refused)
    case h_2 => cases h
  | setupReturns =>
    split at h
    case h_1 hphase =>
      cases h
      exact .serves hphase
    case h_2 => cases h
  | appReturns =>
    split at h
    case h_1 hphase =>
      cases h
      split
      case isTrue hhooks => exact .disconnects hphase hhooks
      case isFalse hhooks => exact .ends (hphase ▸ .returned hhooks)
    case h_2 => cases h
  | teardownReturns =>
    split at h
    case h_1 hphase =>
      cases h
      exact .ends (hphase ▸ .tornDown)
    case h_2 => cases h
  | panics =>
    split at h
    case isTrue hforeign =>
      cases h
      exact .ends (.panicked hforeign)
    case isFalse => cases h
  | takes n =>
    split at h
    case isTrue hguard =>
      cases h
      exact .takes hguard.1 hguard.2
    case isFalse => cases h
  | writes bytes =>
    split at h
    case isTrue hguard =>
      cases h
      exact .writes hguard.1 hguard.2
    case isFalse => cases h
  | polls room cut =>
    split at h
    case h_1 value leftover stream hphase =>
      obtain ⟨⟨bytes, stream', pipe⟩, hpoll, rfl⟩ := Option.map_eq_some_iff.mp h
      exact .polls hphase hpoll
    case h_2 => cases h

end Handshake

end Wireframe
