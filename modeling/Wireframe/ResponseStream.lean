/-
# The client's response stream

`ResponseStream` (`src/client/response_stream.rs`) reads the frames of a streaming response from
the connection it borrows, one transport result per poll, until something ends the stream.  The
connection is shared with every later response: `framed` counts the results taken from it, so that
a stream that reads too far shows up there.

`StreamArrival` says what a transport result means to a stream, and the state machine is compared
with the sequence of arrivals:

* `pollNext_open`: a poll of an open stream answers the next arrival and closes if that ends it;
* `polled_eq`: any number of polls answer the arrivals up to the first that ends the stream, and
  nothing is taken afterwards.
-/
import Mathlib.Data.List.TakeWhile
import Mathlib.Tactic
import Wireframe.Channel
import Wireframe.MachineWord
import Wireframe.PoolSlot

namespace Wireframe

/-! ## The stream -/

/-- The errors a response stream yields. -/
inductive ResponseStreamError (D E : Type) where
  /-- the serializer refused the frame -/
  | decode (source : D)
  /-- the transport failed -/
  | io (source : E)
  /-- "connection closed by peer" -/
  | disconnected
  | streamCorrelationMismatch (expected received : Option UInt64)
  deriving DecidableEq

/-- What a stream uses of its client and of the packet type. -/
structure StreamClient (P D : Type) where
  deserialize : List Byte → Except D (P × ℕ)
  afterReceive : List (List Byte → List Byte)
  isStreamTerminator : P → Bool
  correlationId : P → Option UInt64

/-- One poll of the framed transport. -/
abbrev TransportPoll (E : Type) := Poll (Option (Except E (List Byte)))

/-- A streaming response that is being received; `framed` is the number of transport results taken
from the connection. -/
structure ResponseStream where
  framed : ℕ
  correlationId : UInt64
  terminated : Bool
  frameCount : ℕ
  deriving DecidableEq, Repr

namespace ResponseStream

variable {P D E : Type}

/-- A new receiver on a connection from which `framed` results were taken. -/
def new (framed : ℕ) (correlationId : UInt64) : ResponseStream :=
  ⟨framed, correlationId, false, 0⟩

def invokeAfterReceiveHooks (client : StreamClient P D) (bytes : List Byte) : List Byte :=
  client.afterReceive.foldl (fun bytes hook => hook bytes) bytes

/-- Count a data frame. -/
def onFrameReceived (s : ResponseStream) (result : Option (Except (ResponseStreamError D E) P)) :
    ResponseStream :=
  match result with
  | some (.ok _) => { s with frameCount := saturatingAdd s.frameCount 1 }
  | _ => s

/-- Deserialize raw bytes and validate the resulting packet against the terminator predicate and
the expected correlation identifier. -/
def processFrame (client : StreamClient P D) (s : ResponseStream) (bytes : List Byte) :
    Option (Except (ResponseStreamError D E) P) × ResponseStream :=
  match client.deserialize bytes with
  | .error e => (some (.error (.decode e)), { s with terminated := true })
  | .ok (packet, _) =>
    -- the terminator comes first: it may carry no correlation identifier
    if client.isStreamTerminator packet then (none, { s with terminated := true })
    else
      let received := client.correlationId packet
      if received ≠ some s.correlationId then
        (some (.error (.streamCorrelationMismatch (some s.correlationId) received)),
          { s with terminated := true })
      else (some (.ok packet), s)

/-- Poll the stream; `results i` is what the `i`-th poll of the transport returns. -/
def pollNext (client : StreamClient P D) (results : ℕ → TransportPoll E) (s : ResponseStream) :
    Poll (Option (Except (ResponseStreamError D E) P)) × ResponseStream :=
  if s.terminated then (.ready none, s)
  else
    let polled := { s with framed := s.framed + 1 }
    match results s.framed with
    | .pending => (.pending, polled)
    | .ready none => (.ready (some (.error .disconnected)), { polled with terminated := true })
    | .ready (some (.error e)) =>
      (.ready (some (.error (.io e))), { polled with terminated := true })
    | .ready (some (.ok bytes)) =>
      let (result, processed) := processFrame client polled (invokeAfterReceiveHooks client bytes)
      (.ready result, processed.onFrameReceived result)

/-- Poll the stream `n` times. -/
def polls (client : StreamClient P D) (results : ℕ → TransportPoll E) (s : ResponseStream) :
    ℕ → List (Poll (Option (Except (ResponseStreamError D E) P))) × ResponseStream
  | 0 => ([], s)
  | n + 1 =>
    let (answers, s) := polls client results s n
    let (answer, s) := pollNext client results s
    (answers ++ [answer], s)

/-- The items among the answers. -/
def items (answers : List (Poll (Option (Except (ResponseStreamError D E) P)))) :
    List (Except (ResponseStreamError D E) P) :=
  answers.filterMap fun
    | .ready item => item
    | .pending => none

end ResponseStream

/-! ## Arrivals -/

/-- What a transport result means to a stream. -/
inductive StreamArrival (P D E : Type) where
  /-- nothing has arrived yet -/
  | nothing
  | data (packet : P)
  | terminator
  | failure (err : ResponseStreamError D E)

namespace StreamArrival

variable {P D E : Type}

/-- The item the stream yields for it. -/
def item : StreamArrival P D E → Option (Except (ResponseStreamError D E) P)
  | .nothing => none
  | .data packet => some (.ok packet)
  | .terminator => none
  | .failure err => some (.error err)

/-- The stream's answer. -/
def answer : StreamArrival P D E → Poll (Option (Except (ResponseStreamError D E) P))
  | .nothing => .pending
  | arrival => .ready arrival.item

/-- Whether it ends the stream. -/
def ends : StreamArrival P D E → Bool
  | .nothing => false
  | .data _ => false
  | .terminator => true
  | .failure _ => true

def packet? : StreamArrival P D E → Option P
  | .data packet => some packet
  | _ => none

/-- A frame: a terminator whatever its identifier, a packet with the right identifier, or an
error. -/
def ofFrame (client : StreamClient P D) (correlationId : UInt64) (bytes : List Byte) :
    StreamArrival P D E :=
  match client.deserialize bytes with
  | .error e => .failure (.decode e)
  | .ok (packet, _) =>
    if client.isStreamTerminator packet then .terminator
    else if client.correlationId packet = some correlationId then .data packet
    else .failure (.streamCorrelationMismatch (some correlationId) (client.correlationId packet))

/-- A transport result. -/
def ofResult (client : StreamClient P D) (correlationId : UInt64) :
    TransportPoll E → StreamArrival P D E
  | .pending => .nothing
  | .ready none => .failure .disconnected
  | .ready (some (.error e)) => .failure (.io e)
  | .ready (some (.ok bytes)) => ofFrame client correlationId bytes

/-- A frame that has arrived is something. -/
theorem answer_ofFrame (client : StreamClient P D) (correlationId : UInt64) (bytes : List Byte) :
    (ofFrame (E := E) client correlationId bytes).answer =
      .ready (ofFrame client correlationId bytes).item := by
  unfold ofFrame
  split
  · rfl
  · split_ifs <;> rfl

end StreamArrival

namespace ResponseStream

variable {P D E : Type} {client : StreamClient P D} {results : ℕ → TransportPoll E}
  {s : ResponseStream}

/-! ## One poll -/

/-- A stream after an arrival. -/
def arrive (s : ResponseStream) (arrival : StreamArrival P D E) : ResponseStream :=
  { s with
    framed := s.framed + 1
    terminated := arrival.ends
    frameCount := if arrival.packet?.isSome then saturatingAdd s.frameCount 1 else s.frameCount }

/-- Hooks that leave the bytes of a frame unchanged. -/
def KeepsBytes (client : StreamClient P D) : Prop :=
  ∀ hook ∈ client.afterReceive, ∀ bytes, hook bytes = bytes

theorem invokeAfterReceiveHooks_eq (hhooks : KeepsBytes client) (bytes : List Byte) :
    invokeAfterReceiveHooks client bytes = bytes := by
  unfold KeepsBytes at hhooks
  unfold invokeAfterReceiveHooks
  generalize client.afterReceive = hooks at hhooks
  induction hooks with
  | nil => rfl
  | cons hook hooks ih =>
    rw [List.foldl_cons, hhooks hook List.mem_cons_self]
    exact ih fun other hother => hhooks other (List.mem_cons_of_mem hook hother)

theorem pollNext_terminated (h : s.terminated = true) :
    pollNext client results s = (.ready none, s) := by
  rw [pollNext, if_pos h]

/-- A frame is processed as the arrival it is. -/
theorem processFrame_eq (hopen : s.terminated = false) (bytes : List Byte) :
    processFrame (E := E) client s bytes =
      ((StreamArrival.ofFrame client s.correlationId bytes).item,
        { s with terminated :=
            (StreamArrival.ofFrame (E := E) client s.correlationId bytes).ends }) := by
  obtain ⟨framed, correlationId, terminated, frameCount⟩ := s
  obtain rfl : terminated = false := hopen
  unfold processFrame StreamArrival.ofFrame
  cases client.deserialize bytes with
  | error e => rfl
  | ok decoded =>
    obtain ⟨packet, consumed⟩ := decoded
    simp only
    by_cases hterminator : client.isStreamTerminator packet = true
    · rw [if_pos hterminator, if_pos hterminator]
      rfl
    rw [if_neg hterminator, if_neg hterminator]
    by_cases hid : client.correlationId packet = some correlationId
    · rw [if_neg (not_not.mpr hid), if_pos hid]
      rfl
    · rw [if_pos hid, if_neg hid]
      rfl

/-- Only a data frame is counted. -/
theorem onFrameReceived_item (s : ResponseStream) (arrival : StreamArrival P D E) :
    s.onFrameReceived arrival.item = { s with
      frameCount := if arrival.packet?.isSome then saturatingAdd s.frameCount 1
        else s.frameCount } := by
  cases arrival <;> rfl

/-- **One poll** of an open stream answers the next arrival. -/
theorem pollNext_open (hhooks : KeepsBytes client) (hopen : s.terminated = false) :
    pollNext client results s =
      ((StreamArrival.ofResult client s.correlationId (results s.framed)).answer,
        s.arrive (StreamArrival.ofResult client s.correlationId (results s.framed))) := by
  obtain ⟨framed, correlationId, terminated, frameCount⟩ := s
  obtain rfl : terminated = false := hopen
  rw [pollNext, if_neg Bool.false_ne_true]
  simp only
  rcases results framed with _ | _ | e | bytes
  · rfl
  · rfl
  · rfl
  · simp only [invokeAfterReceiveHooks_eq hhooks, StreamArrival.ofResult]
    rw [processFrame_eq rfl, StreamArrival.answer_ofFrame, onFrameReceived_item]
    rfl

end ResponseStream

/-! ## Any number of polls -/

/-- A new stream and the transport it polls: `results i` is what the `i`-th poll of the transport
returns, of which `start` belong to earlier responses. -/
structure Reception (P D E : Type) where
  client : StreamClient P D
  results : ℕ → TransportPoll E
  correlationId : UInt64
  start : ℕ

namespace Reception

open ResponseStream (KeepsBytes items)

variable {P D E : Type} (r : Reception P D E)

/-- The answers to `n` polls, and the stream they leave. -/
def polled (n : ℕ) : List (Poll (Option (Except (ResponseStreamError D E) P))) × ResponseStream :=
  ResponseStream.polls r.client r.results (ResponseStream.new r.start r.correlationId) n

/-- What the `i`-th result from `start` on means to the stream. -/
def arrivalAt (i : ℕ) : StreamArrival P D E :=
  StreamArrival.ofResult r.client r.correlationId (r.results (r.start + i))

/-- The arrivals before the first one that ends the stream, among the first `n`. -/
def live (n : ℕ) : List (StreamArrival P D E) :=
  ((List.range n).map r.arrivalAt).takeWhile fun arrival => !arrival.ends

/-- The packets among them. -/
def packets (n : ℕ) : List P := (r.live n).filterMap StreamArrival.packet?

/-- The answers from the ending on: the ending's own, and nothing ever after. -/
def closing (n : ℕ) : List (Poll (Option (Except (ResponseStreamError D E) P))) :=
  if (r.live n).length < n then
    (r.arrivalAt (r.live n).length).answer ::
      List.replicate (n - (r.live n).length - 1) (.ready none)
  else []

variable {r}

theorem length_live_le (n : ℕ) : (r.live n).length ≤ n := by
  have hle := (List.takeWhile_sublist (fun arrival => !arrival.ends)
    (l := (List.range n).map r.arrivalAt)).length_le
  rw [List.length_map, List.length_range] at hle
  exact hle

/-- While nothing has ended the stream, a further arrival is live unless it ends it. -/
theorem live_succ_of_eq {n : ℕ} (h : (r.live n).length = n) :
    r.live (n + 1) = r.live n ++ if (r.arrivalAt n).ends then [] else [r.arrivalAt n] := by
  have hall : r.live n = (List.range n).map r.arrivalAt := by
    refine (List.takeWhile_sublist _).eq_of_length ?_
    rw [List.length_map, List.length_range]
    exact h
  unfold live at h hall ⊢
  rw [List.range_succ, List.map_append, List.takeWhile_append, List.length_map, List.length_range,
    if_pos h, hall, List.map_singleton, List.takeWhile_cons]
  cases (r.arrivalAt n).ends <;> rfl

/-- What comes after an ending does not matter. -/
theorem live_succ_of_lt {n : ℕ} (h : (r.live n).length < n) : r.live (n + 1) = r.live n := by
  unfold live at h ⊢
  rw [List.range_succ, List.map_append, List.takeWhile_append, List.length_map, List.length_range,
    if_neg (by omega)]

theorem polled_succ (n : ℕ) :
    r.polled (n + 1) =
      ((r.polled n).1 ++ [(ResponseStream.pollNext r.client r.results (r.polled n).2).1],
        (ResponseStream.pollNext r.client r.results (r.polled n).2).2) := rfl

/-- The stream after `n` polls. -/
def streamAfter (r : Reception P D E) (n : ℕ) : ResponseStream where
  framed := r.start + min n ((r.live n).length + 1)
  correlationId := r.correlationId
  terminated := decide ((r.live n).length < n)
  frameCount := min (r.packets n).length usizeMax

theorem packets_succ_of_eq {n : ℕ} (h : (r.live n).length = n) :
    (r.packets (n + 1)).length =
      (r.packets n).length + if (r.arrivalAt n).packet?.isSome then 1 else 0 := by
  unfold packets
  rw [live_succ_of_eq h, List.filterMap_append, List.length_append]
  cases r.arrivalAt n <;> rfl

/-- A stream that nothing has ended yet takes the next arrival. -/
theorem arrive_streamAfter {n : ℕ} (h : (r.live n).length = n) :
    (r.streamAfter n).arrive (r.arrivalAt n) = r.streamAfter (n + 1) := by
  have hpackets := packets_succ_of_eq h
  have hlive := live_succ_of_eq h
  have hcount : (if (r.arrivalAt n).packet?.isSome then
      saturatingAdd (min (r.packets n).length usizeMax) 1
      else min (r.packets n).length usizeMax) = min (r.packets (n + 1)).length usizeMax := by
    rw [hpackets]
    unfold saturatingAdd
    split_ifs <;> omega
  have hlength : (r.live (n + 1)).length = if (r.arrivalAt n).ends then n else n + 1 := by
    rw [hlive, List.length_append, h]
    cases (r.arrivalAt n).ends <;> rfl
  have hends : (r.arrivalAt n).ends = decide ((r.live (n + 1)).length < n + 1) := by
    rw [hlength]
    cases (r.arrivalAt n).ends <;> simp
  have hframed : r.start + min n ((r.live n).length + 1) + 1 =
      r.start + min (n + 1) ((r.live (n + 1)).length + 1) := by
    rw [hlength]
    split_ifs <;> omega
  unfold streamAfter ResponseStream.arrive
  simp only [hcount, hframed, ← hends]

theorem streamAfter_succ_of_lt {n : ℕ} (h : (r.live n).length < n) :
    r.streamAfter (n + 1) = r.streamAfter n := by
  have hframed : min (n + 1) ((r.live n).length + 1) = min n ((r.live n).length + 1) := by omega
  have hended : decide ((r.live n).length < n + 1) = decide ((r.live n).length < n) := by
    rw [decide_eq_true h]
    exact decide_eq_true (by omega)
  unfold streamAfter packets
  rw [live_succ_of_lt h, hframed, hended]

theorem closing_of_eq {n : ℕ} (h : (r.live n).length = n) : r.closing n = [] := by
  rw [closing, if_neg (by omega)]

theorem closing_succ_of_lt {n : ℕ} (h : (r.live n).length < n) :
    r.closing (n + 1) = r.closing n ++ [.ready none] := by
  have hmore : n + 1 - (r.live n).length - 1 = n - (r.live n).length - 1 + 1 := by omega
  rw [closing, closing, live_succ_of_lt h, if_pos h, if_pos (by omega), hmore,
    List.replicate_succ', List.cons_append]

/-- The answers so far, with that of the next arrival. -/
theorem answers_succ_of_eq {n : ℕ} (h : (r.live n).length = n) :
    (r.live (n + 1)).map StreamArrival.answer ++ r.closing (n + 1) =
      (r.live n).map StreamArrival.answer ++ [(r.arrivalAt n).answer] := by
  cases hends : (r.arrivalAt n).ends with
  | true =>
    have hlive : r.live (n + 1) = r.live n := by
      rw [live_succ_of_eq h, hends, if_pos rfl, List.append_nil]
    rw [closing, hlive, h, if_pos (by omega), Nat.add_sub_cancel_left]
    rfl
  | false =>
    have hlive : r.live (n + 1) = r.live n ++ [r.arrivalAt n] := by
      rw [live_succ_of_eq h, hends, if_neg Bool.false_ne_true]
    have hlength : (r.live (n + 1)).length = n + 1 := by
      rw [hlive, List.length_append, h, List.length_singleton]
    rw [closing_of_eq hlength, hlive, List.map_append, List.append_nil]
    rfl

/-- **Any number of polls**: the answers are those of the live arrivals and of the ending, and the
stream has taken no more than these. -/
theorem polled_eq (hhooks : KeepsBytes r.client) (n : ℕ) :
    r.polled n = ((r.live n).map StreamArrival.answer ++ r.closing n, r.streamAfter n) := by
  induction n with
  | zero => rfl
  | succ n ih =>
    rw [polled_succ, ih]
    rcases Nat.lt_or_eq_of_le (length_live_le (r := r) n) with hlt | heq
    · -- the stream has ended, and the poll touches nothing
      have hended : (r.streamAfter n).terminated = true := decide_eq_true hlt
      rw [ResponseStream.pollNext_terminated hended, closing_succ_of_lt hlt, live_succ_of_lt hlt,
        streamAfter_succ_of_lt hlt, List.append_assoc]
    · -- the poll takes the next arrival
      have hopen : (r.streamAfter n).terminated = false := decide_eq_false (by omega)
      have hframed : (r.streamAfter n).framed = r.start + n := by
        show r.start + min n ((r.live n).length + 1) = r.start + n
        omega
      rw [ResponseStream.pollNext_open hhooks hopen, hframed, closing_of_eq heq, List.append_nil,
        answers_succ_of_eq heq, ← arrive_streamAfter heq]
      rfl

/-! ## What a stream yields -/

theorem items_append
    (answers answers' : List (Poll (Option (Except (ResponseStreamError D E) P)))) :
    items (answers ++ answers') = items answers ++ items answers' :=
  List.filterMap_append

/-- Before the ending only packets are yielded. -/
theorem items_live (n : ℕ) :
    items ((r.live n).map StreamArrival.answer) = (r.packets n).map Except.ok := by
  have hlive : ∀ arrival ∈ r.live n, arrival.ends = false := by
    intro arrival hmem
    simpa using List.mem_takeWhile_imp hmem
  unfold packets items
  generalize r.live n = arrivals at hlive
  induction arrivals with
  | nil => rfl
  | cons arrival arrivals ih =>
    have hrest := ih fun other hother => hlive other (List.mem_cons_of_mem arrival hother)
    have hends := hlive arrival List.mem_cons_self
    cases arrival with
    | nothing => exact hrest
    | data packet => exact congrArg (List.cons _) hrest
    | terminator | failure err => exact absurd hends (by simp [StreamArrival.ends])

theorem items_replicate (n : ℕ) :
    items (List.replicate n
      (.ready (none : Option (Except (ResponseStreamError D E) P)))) = [] := by
  induction n with
  | zero => rfl
  | succ n ih => exact ih

/-- The arrival behind the live ones ends the stream. -/
theorem ends_of_lt {n : ℕ} (h : (r.live n).length < n) :
    (r.arrivalAt (r.live n).length).ends = true := by
  induction n with
  | zero => exact absurd h (by omega)
  | succ n ih =>
    rcases Nat.lt_or_eq_of_le (length_live_le (r := r) n) with hlt | heq
    · rw [live_succ_of_lt hlt]
      exact ih hlt
    · cases hends : (r.arrivalAt n).ends with
      | true =>
        rw [live_succ_of_eq heq, hends, if_pos rfl, List.append_nil, heq]
        exact hends
      | false =>
        rw [live_succ_of_eq heq, hends, if_neg Bool.false_ne_true, List.length_append, heq,
          List.length_singleton] at h
        omega

/-- The ending is a terminator, which yields nothing, or a failure, which yields its error. -/
theorem closing_cases {n : ℕ} (h : (r.live n).length < n) :
    (r.arrivalAt (r.live n).length = .terminator ∧ items (r.closing n) = [] ∧
      (r.closing n)[0]? = some (.ready none)) ∨
    ∃ err, r.arrivalAt (r.live n).length = .failure err ∧ items (r.closing n) = [.error err] := by
  have hends := ends_of_lt h
  rw [closing, if_pos h]
  cases harrival : r.arrivalAt (r.live n).length with
  | nothing | data packet => exact absurd hends (by simp [harrival, StreamArrival.ends])
  | terminator => exact Or.inl ⟨rfl, items_replicate _, rfl⟩
  | failure err => exact Or.inr ⟨err, rfl, congrArg (List.cons _) (items_replicate _)⟩

/-- After the ending every answer is the end of the stream. -/
theorem closing_getElem? {n i : ℕ} (hi : 0 < i) (hn : (r.live n).length + i < n) :
    (r.closing n)[i]? = some (.ready none) := by
  obtain ⟨j, rfl⟩ : ∃ j, i = j + 1 := ⟨i - 1, by omega⟩
  rw [closing, if_pos (by omega), List.getElem?_cons_succ, List.getElem?_replicate,
    if_pos (by omega)]

/-- **What a stream yields**, for every transport and any number of polls: the packets before the
first arrival that ends it, in order; then nothing for a terminator, and one error for any other
ending; after that every poll returns the end of the stream and takes nothing from the transport.
The frame counter is the number of packets, up to the largest machine word. -/
theorem stream_yields (r : Reception P D E) (hhooks : KeepsBytes r.client) (n : ℕ) :
    (((r.live n).length = n ∧ items (r.polled n).1 = (r.packets n).map .ok) ∨
      ((r.live n).length < n ∧
        ((r.arrivalAt (r.live n).length = .terminator ∧
            items (r.polled n).1 = (r.packets n).map .ok ∧
            (r.polled n).1[(r.live n).length]? = some (.ready none)) ∨
          ∃ err, r.arrivalAt (r.live n).length = .failure err ∧
            items (r.polled n).1 = (r.packets n).map .ok ++ [.error err]) ∧
        ∀ i, (r.live n).length < i → i < n → (r.polled n).1[i]? = some (.ready none))) ∧
    (r.polled n).2.framed = r.start + min n ((r.live n).length + 1) ∧
    (r.polled n).2.frameCount = min (r.packets n).length usizeMax := by
  rw [polled_eq hhooks]
  refine ⟨?_, rfl, rfl⟩
  have hlength : ((r.live n).map StreamArrival.answer).length = (r.live n).length :=
    List.length_map _
  rw [items_append, items_live]
  rcases Nat.lt_or_eq_of_le (length_live_le (r := r) n) with hlt | heq
  · refine Or.inr ⟨hlt, ?_, ?_⟩
    · rcases closing_cases hlt with ⟨hterminator, hitems, hanswer⟩ | ⟨err, hfailure, hitems⟩
      · refine Or.inl ⟨hterminator, by rw [hitems, List.append_nil], ?_⟩
        rw [List.getElem?_append_right (by omega), hlength, Nat.sub_self]
        exact hanswer
      · exact Or.inr ⟨err, hfailure, by rw [hitems]⟩
    · intro i hi hn
      rw [List.getElem?_append_right (by omega), hlength]
      exact closing_getElem? (by omega) (by omega)
  · refine Or.inl ⟨heq, ?_⟩
    rw [closing_of_eq heq]
    exact List.append_nil _

/-- A protocol whose packets are their bytes, with the correlation identifier in front. -/
def echoClient : StreamClient (List Byte) Unit where
  deserialize bytes := if bytes = [] then .error () else .ok (bytes, bytes.length)
  afterReceive := [fun bytes => bytes]
  isStreamTerminator bytes := bytes == [0]
  correlationId bytes := bytes.head?.map fun byte => byte.toUInt64

theorem echoClient_keepsBytes : KeepsBytes echoClient := by
  intro hook hhook bytes
  obtain rfl : hook = fun bytes => bytes := List.mem_singleton.mp hhook
  rfl

/-- Two packets with a pause between them, the terminator, and a frame of the next response. -/
def twoPackets : Reception (List Byte) Unit Unit where
  client := echoClient
  results i := ([.ready (some (.ok [7, 1])), .pending, .ready (some (.ok [7, 2])),
    .ready (some (.ok [0])), .ready (some (.ok [8, 3]))] :
      List (TransportPoll Unit)).getD i .pending
  correlationId := 7
  start := 0

theorem stream_yields_twoPackets :
    KeepsBytes twoPackets.client ∧ (twoPackets.live 6).length = 3 ∧
      items (twoPackets.polled 6).1 = [.ok [7, 1], .ok [7, 2]] ∧
      (twoPackets.polled 6).2.framed = 4 ∧
      (twoPackets.polled 6).2.frameCount = min (twoPackets.packets 6).length usizeMax :=
  ⟨echoClient_keepsBytes, rfl, rfl, rfl, (stream_yields twoPackets echoClient_keepsBytes 6).2.2⟩

/-- A response that never ends. -/
def endless : Reception (List Byte) Unit Unit where
  client := echoClient
  results _ := .ready (some (.ok [7]))
  correlationId := 7
  start := 0

theorem live_endless (n : ℕ) : endless.live n = List.replicate n (.data [7]) := by
  induction n with
  | zero => rfl
  | succ n ih =>
    have hlength : (endless.live n).length = n := by rw [ih, List.length_replicate]
    rw [live_succ_of_eq hlength, ih, List.replicate_succ']
    rfl

theorem length_packets_endless (n : ℕ) : (endless.packets n).length = n := by
  rw [packets, live_endless]
  induction n with
  | zero => rfl
  | succ n ih => exact congrArg Nat.succ ih

/-- The frame counter stops at the largest machine word. -/
theorem endless_frameCount_stops :
    (items (endless.polled (2 ^ 64)).1).length = 2 ^ 64 ∧
      (endless.polled (2 ^ 64)).2.frameCount = 2 ^ 64 - 1 := by
  have hlength : (endless.live (2 ^ 64)).length = 2 ^ 64 := by
    rw [live_endless, List.length_replicate]
  rw [polled_eq echoClient_keepsBytes, closing_of_eq hlength]
  constructor
  · rw [List.append_nil, items_live, List.length_map, length_packets_endless]
  · show min (endless.packets (2 ^ 64)).length usizeMax = 2 ^ 64 - 1
    rw [length_packets_endless]
    exact Nat.min_eq_right (Nat.sub_le _ _)

end Reception

end Wireframe
