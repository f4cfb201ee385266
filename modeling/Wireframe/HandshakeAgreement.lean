/-
# What the two ends of a new connection agree on

The account of the client beside that of the server, and what follows from the two for every run
of `Handshake`.

* `preamble_agreed`: the application on the server sees what the client wrote behind its preamble,
  the client what the server wrote behind what the callback kept.
* `preamble_not_starved`: a preamble that is written is read, in a bounded number of passes and
  without waiting for anything that the client is not going to send.
-/
import Mathlib.Tactic
import Wireframe.HandshakeAccount

namespace Wireframe

open ShortReads

namespace Handshake

/-! ## The account of the client -/

section Client

variable {T : Type} {decode : PreambleDecoder T} {cfg : HandshakeConfig}

/-- **Where the client stands**: in its preamble, and in what the server has sent. -/
def Composed (bytes : List UInt8) (toServer toClient : BytePipe) (e : ClientEnd) : Prop :=
  match e.phase with
  | .writing rest => toServer.sent ++ rest = bytes ∧ e.took = [] ∧ e.read = [] ∧ toClient.taken = 0
  | .greeting =>
    bytes <+: toServer.sent ∧ e.read = [] ∧ e.took <+: toClient.sent ∧
      toClient.taken = e.took.length
  | .connected leftover stream =>
    bytes <+: toServer.sent ∧ e.took <+: toClient.sent ∧
      Rewound toClient e.took.length leftover e.read stream
  | _ => True

/-- What the server does: it writes, and it reads what the client has sent. -/
theorem Composed.grow {bytes : List UInt8} {toServer toServer' toClient toClient' : BytePipe}
    {e : ClientEnd} (h : Composed bytes toServer toClient e)
    (hsent : toServer'.sent = toServer.sent) (hgrows : toClient.Grows toClient') :
    Composed bytes toServer' toClient' e := by
  obtain ⟨phase, took, read⟩ := e
  cases phase with
  | writing rest =>
    obtain ⟨hbytes, htook, hread, htaken⟩ := h
    exact ⟨hsent ▸ hbytes, htook, hread, hgrows.taken.trans htaken⟩
  | greeting =>
    obtain ⟨hbytes, hread, htook, htaken⟩ := h
    exact ⟨hsent ▸ hbytes, hread, htook.trans hgrows.sent, hgrows.taken.trans htaken⟩
  | connected leftover stream =>
    obtain ⟨hbytes, htook, hrewound⟩ := h
    exact ⟨hsent ▸ hbytes, htook.trans hgrows.sent, hrewound.grow hgrows⟩
  | failing err | gone => trivial

/-- With its preamble written the client stands where its callback starts. -/
theorem Composed.greet {bytes took read : List UInt8} {toServer toClient : BytePipe}
    (h : Composed bytes toServer toClient ⟨.writing [], took, read⟩) :
    Composed bytes toServer toClient ⟨.greeting, took, read⟩ := by
  obtain ⟨hbytes, htook, hread, htaken⟩ := h
  obtain rfl : took = [] := htook
  rw [List.append_nil] at hbytes
  exact ⟨hbytes ▸ List.prefix_rfl, hread, List.nil_prefix, htaken⟩

/-- **The account of the client is kept by every move of the client.** -/
theorem ClientMove.composed {bytes : List UInt8} {s s' : Handshake T} (h : ClientMove s s')
    (hcomposed : Composed bytes s.toServer s.toClient s.client) :
    Composed bytes s'.toServer s'.toClient s'.client := by
  obtain ⟨toServer, toClient, ⟨phase, took, read⟩, server⟩ := s
  cases h with
  | writesPreamble hphase hopen =>
    obtain rfl : phase = _ := hphase
    obtain ⟨hbytes, htook, hread, htaken⟩ := hcomposed
    refine ⟨?_, htook, hread, htaken⟩
    rw [← hbytes]
    exact List.append_assoc _ _ _
  | greets hphase =>
    obtain rfl : phase = _ := hphase
    exact hcomposed.greet
  | @connects leftover hphase =>
    -- either way the client stands behind what its callback took
    obtain ⟨hbytes, hread, htook, htaken⟩ :
        Composed bytes toServer toClient ⟨.greeting, took, read⟩ := by
      rcases hphase with hphase | hphase
      · obtain rfl : phase = _ := hphase
        exact hcomposed.greet
      · obtain rfl : phase = _ := hphase
        exact hcomposed
    obtain rfl : read = [] := hread
    refine ⟨hbytes, htook, ?_⟩
    show Rewound toClient took.length leftover [] _
    rw [← htaken]
    exact Rewound.start leftover _
  | fails err | goes => trivial
  | @takes n hbare hn =>
    cases phase with
    | greeting =>
      obtain ⟨hbytes, hread, htook, htaken⟩ := hcomposed
      -- the callback has the stream from its first byte on
      obtain ⟨hbehind, hplace⟩ :=
        toClient.take_behind (k := 0) htook (by rw [Nat.zero_add]; exact htaken) hn
      exact ⟨hbytes, hread, hbehind, hplace.trans (Nat.zero_add _)⟩
    | failing err => trivial
    | writing rest | connected leftover stream | gone => cases hbare
  | @writes more hfree hopen =>
    cases phase with
    | greeting =>
      obtain ⟨hbytes, hread, htook, htaken⟩ := hcomposed
      exact ⟨hbytes.trans (List.prefix_append _ _), hread, htook, htaken⟩
    | connected leftover stream =>
      obtain ⟨hbytes, htook, hrewound⟩ := hcomposed
      exact ⟨hbytes.trans (List.prefix_append _ _), htook, hrewound⟩
    | failing err => trivial
    | writing rest | gone => cases hfree
  | polls hphase hpoll =>
    obtain rfl : phase = _ := hphase
    obtain ⟨hbytes, htook, hrewound⟩ := hcomposed
    have hsent := (poll_sent hpoll).1
    exact ⟨hbytes, hsent ▸ htook, hrewound.poll hpoll⟩

/-! ## Both ends -/

/-- All that a move of the client does to the server is to write. -/
theorem ClientMove.frame {s s' : Handshake T} (h : ClientMove s s') :
    s'.server = s.server ∧ s.toServer.Grows s'.toServer := by
  cases h with
  | writesPreamble hphase hopen | writes hfree hopen => exact ⟨rfl, Pipe.grows_write _ hopen⟩
  | greets hphase | connects hphase | fails err | takes hbare hn | polls hphase hpoll =>
    exact ⟨rfl, Pipe.Grows.refl _⟩
  | goes => exact ⟨rfl, Pipe.grows_close _ _⟩

/-! ### What the server leaves alone -/

/-- A state seen from the client: the server has written, and read what there was. -/
structure Frame (s s' : Handshake T) : Prop where
  client : s'.client = s.client
  sent : s'.toServer.sent = s.toServer.sent
  grows : s.toClient.Grows s'.toClient

theorem Frame.serverGone (s : Handshake T) (entries : List (TaskEntry T)) :
    Frame s (s.serverGone entries) := ⟨rfl, rfl, Pipe.grows_close _ _⟩

theorem Frame.handleAppConnection (s : Handshake T) (value : T) (leftover : List UInt8) :
    Frame s (s.handleAppConnection cfg value leftover) := by
  unfold Handshake.handleAppConnection
  split
  · exact ⟨rfl, rfl, Pipe.Grows.refl _⟩
  · exact ⟨rfl, rfl, Pipe.Grows.refl _⟩

theorem Frame.runPreambleFailure (s : Handshake T) (err : PreambleError) :
    Frame s (s.runPreambleFailure cfg err) := by
  unfold Handshake.runPreambleFailure
  split
  · exact ⟨rfl, rfl, Pipe.Grows.refl _⟩
  · exact .serverGone _ _

theorem Frame.afterPass (cfg : HandshakeConfig) (s : Handshake T) (run : PreambleRun T) :
    Frame s (s.afterPass cfg run) := by
  unfold Handshake.afterPass
  split
  · unfold Handshake.runPreambleSuccess
    split
    · exact ⟨rfl, rfl, Pipe.Grows.refl _⟩
    · exact .handleAppConnection _ _ _
  · exact .runPreambleFailure _ _
  · exact .serverGone _ _
  · exact ⟨rfl, rfl, Pipe.Grows.refl _⟩

theorem ServerMove.frame {s s' : Handshake T} (h : ServerMove decode cfg s s') : Frame s s' := by
  cases h with
  | passes hphase hready hrun =>
    obtain ⟨hclient, hsent, hgrows⟩ := Frame.afterPass cfg _ _
    exact ⟨hclient, hsent, hgrows⟩
  | timesOut hphase => exact .runPreambleFailure _ _
  | accepts hphase => exact .handleAppConnection _ _ _
  | serves hphase | takes hbare hn => exact ⟨rfl, rfl, Pipe.Grows.refl _⟩
  | ends hends => exact .serverGone _ _
  | disconnects hphase hhooks => exact ⟨rfl, rfl, Pipe.grows_close _ _⟩
  | writes hfree hopen => exact ⟨rfl, rfl, Pipe.grows_write _ hopen⟩
  | polls hphase hpoll => exact ⟨rfl, (poll_sent hpoll).1, Pipe.Grows.refl _⟩

/-! ### The account -/

/-- The accounts of both ends. -/
structure Account (decode : PreambleDecoder T) (bytes : List UInt8) (s : Handshake T) : Prop where
  composed : Composed bytes s.toServer s.toClient s.client
  standing : Standing decode s.toServer s.server
  ledger : Ledger decode s.toServer s.server

theorem account_start {bytes : List UInt8} (hconfig : cfg.preamble = some (.ok bytes)) :
    Account decode bytes (start cfg) := by
  have hstart : (start cfg : Handshake T) =
      ⟨.empty, .empty, ⟨.writing bytes, [], []⟩,
        ⟨.reading (PreambleRun.readPreamble (Pipe.empty.reader fun _ => 0)), [], [], 0, []⟩⟩ := by
    simp only [start, hconfig]
  have hbehind : PreambleRun.Behind [] none 0
      ((Pipe.empty : BytePipe).reader fun _ => 0) := ⟨rfl, rfl⟩
  have hfilling := PreambleRun.readMore_filling (T := T) hbehind le_rfl
    (show 0 + 1 ≤ maxPreambleLen by decide)
  rw [hstart]
  refine ⟨⟨rfl, rfl, rfl, rfl⟩, ⟨rfl, rfl, ?_⟩, ?_, 1, .first, Nat.zero_le _⟩
  · exact .filling hfilling.phase Nat.one_pos (Nat.zero_le _) (by decide) .first rfl
      hfilling.buf (Nat.zero_le _)
  · intro err hmem
    cases hmem

/-- **Step lemma** of the account, from those of the client and the server. -/
theorem Account.step (hlawful : PreambleRun.LawfulDecoder decode) {bytes : List UInt8}
    {s s' : Handshake T} {event : HandshakeEvent} (h : Account decode bytes s)
    (hstep : step decode cfg s event = some s') : Account decode bytes s' := by
  cases event with
  | client event =>
    have hmove := clientStep_move hstep
    obtain ⟨hserver, hgrows⟩ := hmove.frame
    refine ⟨hmove.composed h.composed, ?_, ?_⟩
    · rw [hserver]
      exact h.standing.grow hgrows
    · rw [hserver]
      exact h.ledger.grow hgrows
  | server event =>
    have hmove := serverStep_move hstep
    obtain ⟨hclient, hsent, hgrows⟩ := hmove.frame
    obtain ⟨hstanding, hledger⟩ := hmove.account hlawful h.standing h.ledger
    refine ⟨?_, hstanding, hledger⟩
    rw [hclient]
    exact h.composed.grow hsent hgrows
  | breaksToServer err =>
    cases hstep
    have hgrows := s.toServer.grows_close (some err)
    exact ⟨h.composed.grow rfl (Pipe.Grows.refl _), h.standing.grow hgrows,
      h.ledger.grow hgrows⟩
  | breaksToClient err =>
    cases hstep
    exact ⟨h.composed.grow rfl (Pipe.grows_close _ _), h.standing, h.ledger⟩

theorem account_of_run (hlawful : PreambleRun.LawfulDecoder decode) {bytes : List UInt8}
    (hconfig : cfg.preamble = some (.ok bytes)) {events : List HandshakeEvent} {s : Handshake T}
    (hrun : Trace.exec (step decode cfg) (start cfg) events = some s) :
    Account decode bytes s :=
  Trace.exec_invariant (fun _ _ _ h hstep => h.step hlawful hstep) (account_start hconfig) hrun

/-! ### What was opened -/

/-- The exchange of preambles has not failed, and the client is there. -/
def engaged : ClientPhase → Bool
  | .writing _ => true
  | .greeting => true
  | .connected _ _ => true
  | _ => false

theorem Composed.opened {bytes : List UInt8} {toServer toClient : BytePipe} {e : ClientEnd}
    (h : Composed bytes toServer toClient e) (hengaged : engaged e.phase = true) :
    Opened bytes toServer.sent := by
  obtain ⟨phase, took, read⟩ := e
  cases phase with
  | writing rest => exact Or.inr ⟨rest, h.1⟩
  | greeting | connected leftover stream => exact Or.inl h.1
  | failing err | gone => cases hengaged

/-- What is decoded from a client that keeps to its preamble is that preamble, and nothing behind
it is left over. -/
theorem Handed.of_opened (hlawful : PreambleRun.LawfulDecoder decode) {value value' : T}
    {bytes leftover took : List UInt8} {pipe : BytePipe} {k : ℕ}
    (hopens : Opens decode value bytes) (hopened : Opened bytes pipe.sent)
    (h : Handed decode pipe value' leftover took k) :
    value' = value ∧ leftover = [] ∧
      pipe.sent = bytes ++ took ++ pipe.sent.drop (k + took.length) := by
  have hle := h.wants.le_length hlawful hopens hopened
  have hlen : k ≤ pipe.sent.length :=
    (Nat.le_add_right _ _).trans (h.mark_le.trans pipe.taken_le)
  have htake := hopened.take_eq hle hlen
  obtain ⟨consumed, hdecode, hleftover⟩ := h.decoded
  rw [htake] at hdecode hleftover
  -- on less than the preamble the decoder would have asked for more
  obtain rfl : k = bytes.length := by
    by_contra hne
    obtain ⟨additional, hask⟩ := hopens.asks k (by omega)
    rw [hask] at hdecode
    cases hdecode
  rw [List.take_length] at hdecode hleftover htake
  have hwhole := hopens.decodes []
  rw [List.append_nil, hdecode] at hwhole
  cases hwhole
  refine ⟨rfl, by rw [hleftover, List.drop_length], ?_⟩
  obtain ⟨rest, hrest⟩ := h.took_behind
  have hsent : pipe.sent = bytes ++ (took ++ rest) := by
    calc pipe.sent = pipe.sent.take bytes.length ++ pipe.sent.drop bytes.length :=
          (List.take_append_drop _ _).symm
      _ = bytes ++ (took ++ rest) := by rw [htake, hrest]
  rw [← List.drop_drop, ← hrest, List.drop_left, hsent, List.append_assoc]

/-! ## Agreement -/

/-- **Both ends of a connection see each other's bytes, and nothing else.**  However the two ends
move, write and read, in any order and in pieces of any size: as long as the client has not given
up it has written its preamble and then what it likes; the task that serves such a client has its
preamble, and what its handler and its application have read follows the preamble in order, with
nothing lost and nothing twice; it is refused only when it takes too long or goes away before its
preamble is written.  The client in turn reads what the server wrote, behind what its callback
kept. -/
theorem preamble_agreed (hlawful : PreambleRun.LawfulDecoder decode) {value : T}
    {bytes : List UInt8} (hopens : Opens decode value bytes)
    (hconfig : cfg.preamble = some (.ok bytes)) {events : List HandshakeEvent} {s : Handshake T}
    (hrun : Trace.exec (step decode cfg) (start cfg) events = some s) :
    (engaged s.client.phase = true → Opened bytes s.toServer.sent) ∧
    (Opened bytes s.toServer.sent →
      (∀ value' leftover stream, s.server.phase = .serving value' leftover stream →
        value' = value ∧
        s.toServer.sent = bytes ++ s.server.took ++ (s.server.read ++ toCome s.toServer stream)) ∧
      ∀ err, .decodeRejected err ∈ s.server.record → err = timeoutError ∨
        s.toServer.ending.isSome = true ∧ s.toServer.sent.length < bytes.length) ∧
    ∀ kept leftover stream, s.client.phase = .connected leftover stream →
      s.client.took = kept ++ leftover →
      s.toClient.sent = kept ++ (s.client.read ++ toCome s.toClient stream) := by
  obtain ⟨hcomposed, hstanding, hledger⟩ := account_of_run hlawful hconfig hrun
  refine ⟨hcomposed.opened, ?_, ?_⟩
  · intro hopened
    constructor
    · intro value' leftover stream hphase
      rw [Standing, hphase] at hstanding
      obtain ⟨k, hhanded, hrewound⟩ := hstanding
      obtain ⟨hvalue, hleftover, hsent⟩ := hhanded.of_opened hlawful hopens hopened
      refine ⟨hvalue, ?_⟩
      rw [hrewound.exactly, hleftover, List.nil_append]
      exact hsent
    · intro err hmem
      exact (hledger.refusals err hmem).of_opened hlawful hopens hopened
  · intro kept leftover stream hphase htook
    rw [Composed, hphase] at hcomposed
    obtain ⟨-, ⟨rest, hrest⟩, hrewound⟩ := hcomposed
    rw [hrewound.exactly, ← hrest, List.drop_left, htook, List.append_assoc]

/-- A client with a preamble of two bytes and callbacks on both sides. -/
def pairConfig : HandshakeConfig :=
  { preamble := some (.ok [7, 8])
    clientSuccess := true
    clientFailure := false
    clientTimeout := true
    serverSuccess := true
    serverFailure := true
    serverTimeout := true
    onConnect := true
    onDisconnect := true }

theorem pairDecoder_opens : Opens pairDecoder (7, 8) [7, 8] where
  nonempty := by decide
  length_le := by decide
  decodes _ := rfl
  asks n hn := by
    rcases n with _ | _ | n
    · exact ⟨2, rfl⟩
    · exact ⟨1, rfl⟩
    · exact absurd hn (by simp)

/-- The preamble is written byte by byte, the server greets with `5`, of which the callback hands
back nothing, and one frame goes either way. -/
def pairEvents : List HandshakeEvent :=
  [.client (.writesPreamble 1), .server (.readsPreamble 9), .server (.readsPreamble 9),
    .server (.readsPreamble 9), .client (.writesPreamble 1), .client .preambleWritten,
    .server (.readsPreamble 9), .server (.readsPreamble 9), .server (.readsPreamble 9),
    .server (.writes [5]), .server (.successReturns (.ok ())), .client (.takes 1),
    .client (.callbackReturns (.ok [])), .client (.writes [1, 2]), .server .setupReturns,
    .server (.polls 4 1), .server (.writes [3]), .client (.polls 4 4)]

theorem preamble_agreed_pair :
    ∃ s, Trace.exec (step pairDecoder pairConfig) (start pairConfig) pairEvents = some s ∧
      s.toServer.sent = [7, 8] ++ [] ++ ([1] ++ [2]) ∧ s.toClient.sent = [5] ++ ([3] ++ []) := by
  obtain ⟨s, stream, stream', hrun, hserver, hclient, htook, htook', hread, hread', hcome, hcome'⟩ :
      ∃ s stream stream',
        Trace.exec (step pairDecoder pairConfig) (start pairConfig) pairEvents = some s ∧
        s.server.phase = .serving (7, 8) [] stream ∧ s.client.phase = .connected [] stream' ∧
        s.server.took = [] ∧ s.client.took = [5] ++ [] ∧ s.server.read = [1] ∧
        s.client.read = [3] ∧ toCome s.toServer stream = [2] ∧ toCome s.toClient stream' = [] :=
    ⟨_, _, _, rfl, rfl, rfl, rfl, rfl, rfl, rfl, rfl, rfl⟩
  obtain ⟨hopened, hagreed, hback⟩ :=
    preamble_agreed pairDecoder_lawful pairDecoder_opens rfl hrun
  refine ⟨s, hrun, ?_, ?_⟩
  · have hsent := ((hagreed (hopened (by rw [hclient]; rfl))).1 _ _ _ hserver).2
    rwa [htook, hread, hcome] at hsent
  · have hsent := hback _ _ _ hclient htook'
    rwa [hread', hcome'] at hsent

/-! ## Progress -/

/-- **A preamble that is written is read.**  In every state of a connection whose client keeps to
its preamble, the task has made no more than three passes for each byte of it; and once the
preamble is written the task, while it is still reading, can make its next pass, so it never waits
for anything that the client is not bound to send. -/
theorem preamble_not_starved (hlawful : PreambleRun.LawfulDecoder decode) {value : T}
    {bytes : List UInt8} (hopens : Opens decode value bytes)
    (hconfig : cfg.preamble = some (.ok bytes)) {events : List HandshakeEvent} {s : Handshake T}
    (hrun : Trace.exec (step decode cfg) (start cfg) events = some s)
    (hopened : Opened bytes s.toServer.sent) :
    s.server.passes ≤ 3 * bytes.length ∧
      ∀ run, s.server.phase = .reading run → bytes <+: s.toServer.sent →
        ∀ cut, ∃ s', step decode cfg s (.server (.readsPreamble cut)) = some s' := by
  obtain ⟨-, hstanding, hledger⟩ := account_of_run hlawful hconfig hrun
  constructor
  · obtain ⟨k, hwants, hpasses⟩ := hledger.budget
    have hle := hwants.le_length hlawful hopens hopened
    omega
  · intro run hphase hwritten cut
    rw [Standing, hphase] at hstanding
    obtain ⟨-, -, hprogress⟩ := hstanding
    -- what the task waits for is part of the preamble, and so it is on its way
    have hready : ¬ (waits run = true ∧ ¬ s.toServer.Ready) := by
      rintro ⟨hwaits, hnot⟩
      cases hprogress with
      | filling hphase' hpos hread hfits hwants htaken hbuf hpasses =>
        simp only [waits, hphase', decide_eq_true_eq] at hwaits
        have hle := hwants.le_length hlawful hopens hopened
        have hlen := hwritten.length_le
        exact hnot (Or.inl (by omega))
      | decoding hphase' =>
        simp only [waits, hphase'] at hwaits
        cases hwaits
    apply Option.isSome_iff_exists.mp
    simp only [step, serverStep, hphase]
    rw [if_neg hready]
    rfl

theorem preamble_not_starved_pair :
    ∃ s, Trace.exec (step pairDecoder pairConfig) (start pairConfig) (pairEvents.take 6) = some s ∧
      s.server.passes ≤ 6 ∧
      ∃ s', step pairDecoder pairConfig s (.server (.readsPreamble 1)) = some s' := by
  obtain ⟨s, run, hrun, hphase, hsent⟩ : ∃ s run,
      Trace.exec (step pairDecoder pairConfig) (start pairConfig) (pairEvents.take 6) = some s ∧
      s.server.phase = .reading run ∧ s.toServer.sent = [7, 8] := ⟨_, _, rfl, rfl, rfl⟩
  have hwritten : [7, 8] <+: s.toServer.sent := hsent ▸ List.prefix_rfl
  obtain ⟨hpasses, hnext⟩ :=
    preamble_not_starved pairDecoder_lawful pairDecoder_opens rfl hrun (Or.inl hwritten)
  exact ⟨s, hrun, hpasses, hnext run hphase hwritten 1⟩

end Client

end Handshake

end Wireframe
