/-
# The fragment adapter

Splitting outbound packets (`src/fragment/packet.rs`) and rebuilding inbound ones
(`src/fragment/adapter.rs`).  A payload that fits one fragment is sent as it is; a larger
one is sent as several frames, each carrying an encoded fragment.  The receiver tells the
two apart by the marker inside the payload alone.

`round_trip_iff` says for which payloads this recovers the packet: exactly those that
were fragmented or that do not look like a fragment.
-/
import Mathlib.Tactic
import Wireframe.FragmentPayload
import Wireframe.Interleaving

namespace Wireframe

open Bincode (DecodeError)

/-! ## Packets -/

/-- Component values extracted from or used to build a packet. -/
structure FragmentParts where
  id : UInt32
  correlationId : Option UInt64
  payload : List Byte
  deriving DecidableEq, Repr

/-- A packet that can be decomposed into parts and reconstructed for fragmentation. -/
class Fragmentable (E : Type*) where
  intoFragmentParts : E → FragmentParts
  fromFragmentParts : FragmentParts → E

open Fragmentable (intoFragmentParts fromFragmentParts)

/-- Building a packet from parts and taking it apart again gives the parts back. -/
class LawfulFragmentable (E : Type*) [Fragmentable E] : Prop where
  into_from : ∀ parts, intoFragmentParts (fromFragmentParts (E := E) parts) = parts

instance : Fragmentable FragmentParts := ⟨id, id⟩

instance : LawfulFragmentable FragmentParts := ⟨fun _ => rfl⟩

variable {E : Type*} [Fragmentable E]

/-- The loop of `fragment_packet` that encodes each fragment into a frame. -/
def encodeFrames (codec : HeaderCodec) (id : UInt32) (correlation : Option UInt64) :
    List FragmentFrame → Except FragmentationError (List E)
  | [] => .ok []
  | fragment :: rest =>
    match encodeFragmentPayload codec fragment.header fragment.payload with
    | .error err => .error (.encode err)
    | .ok encoded =>
      (encodeFrames codec id correlation rest).map fun frames =>
        fromFragmentParts ⟨id, correlation, encoded⟩ :: frames

/-- Fragment a packet: small payloads that fit within the fragment cap are returned
unchanged. -/
def fragmentPacket (codec : HeaderCodec) (fragmenter : Fragmenter) (packet : E) :
    Except Panic (Except FragmentationError (List E) × Fragmenter) :=
  let parts := intoFragmentParts packet
  match fragmenter.fragmentBytes parts.payload with
  | .error panic => .error panic
  | .ok (.error err, fragmenter) => .ok (.error err, fragmenter)
  | .ok (.ok batch, fragmenter) =>
    if batch.isFragmented then
      .ok (encodeFrames codec parts.id parts.correlationId batch.fragments, fragmenter)
    else
      .ok (.ok [fromFragmentParts ⟨parts.id, parts.correlationId, parts.payload⟩], fragmenter)

/-- The frames of a message are built from the encodings of its fragments, one by one. -/
theorem encodeFrames_forall₂ {codec : HeaderCodec} {id : UInt32} {correlation : Option UInt64}
    {fragments : List FragmentFrame} {frames : List E}
    (h : encodeFrames codec id correlation fragments = .ok frames) :
    List.Forall₂ (fun fragment frame => ∃ bytes,
      encodeFragmentPayload codec fragment.header fragment.payload = .ok bytes ∧
        frame = fromFragmentParts (E := E) ⟨id, correlation, bytes⟩) fragments frames := by
  induction fragments generalizing frames with
  | nil =>
    obtain rfl : [] = frames := by simpa [encodeFrames] using h
    exact List.Forall₂.nil
  | cons fragment rest ih =>
    rw [encodeFrames] at h
    split at h
    · cases h
    · rename_i bytes henc
      obtain ⟨frames', hrest, rfl⟩ := Except.map_eq_ok h
      exact List.Forall₂.cons ⟨bytes, henc, rfl⟩ (ih hrest)

/-- What a successful call of `fragment_packet` returned, and how it was split. -/
theorem fragmentPacket_ok_cases {codec : HeaderCodec} {fragmenter fragmenter' : Fragmenter}
    {packet : E} {frames : List E}
    (h : fragmentPacket codec fragmenter packet = .ok (.ok frames, fragmenter')) :
    ∃ messageId batch, fragmenter.fragmentWithId messageId (intoFragmentParts packet).payload =
        .ok (.ok batch) ∧
      ((batch.isFragmented = true ∧ encodeFrames codec (intoFragmentParts packet).id
          (intoFragmentParts packet).correlationId batch.fragments = .ok frames) ∨
        (batch.isFragmented = false ∧
          frames = [fromFragmentParts (intoFragmentParts packet)])) := by
  unfold fragmentPacket Fragmenter.fragmentBytes at h
  rcases hid : fragmenter.takeMessageId with panic | ⟨messageId, next⟩
  · simp only [hid] at h
    cases h
  rcases hsplit : fragmenter.fragmentWithId messageId (intoFragmentParts packet).payload with
    panic | err | batch
  · simp only [hid, hsplit, Except.map] at h
    cases h
  · simp only [hid, hsplit, Except.map] at h
    cases h
  refine ⟨messageId, batch, hsplit, ?_⟩
  simp only [hid, hsplit, Except.map] at h
  cases hfrag : batch.isFragmented
  · right
    simp only [hfrag, Bool.false_eq_true, if_false, Except.ok.injEq, Prod.mk.injEq] at h
    exact ⟨rfl, h.1.symm⟩
  · left
    simp only [hfrag, if_true, Except.ok.injEq, Prod.mk.injEq] at h
    exact ⟨rfl, h.1⟩

/-! ## The adapter -/

/-- Errors returned while decoding and reassembling inbound fragments. -/
inductive FragmentAdapterError where
  | decode (err : DecodeError)
  | reassembly (err : ReassemblyError)
  deriving DecidableEq, Repr

/-- Static settings for fragmentation and reassembly. -/
structure FragmentationConfig where
  fragmentPayloadCap : NonZeroUsize
  maxMessageSize : NonZeroUsize
  maxConcurrentPartials : Option NonZeroUsize
  maxBufferedBytes : Option NonZeroUsize
  reassemblyTimeout : ℕ
  deriving DecidableEq, Repr

/-- Fragmentation adapter backed by the fragmenter and the reassembler. -/
structure DefaultFragmentAdapter where
  fragmenter : Fragmenter
  reassembler : Reassembler

namespace DefaultFragmentAdapter

/-- A default fragmentation adapter from the provided configuration. -/
def new (config : FragmentationConfig) : DefaultFragmentAdapter where
  fragmenter := Fragmenter.new config.fragmentPayloadCap
  reassembler := Reassembler.new config.maxMessageSize config.reassemblyTimeout
    config.maxConcurrentPartials config.maxBufferedBytes

/-- Fragment a packet with the configured payload cap. -/
def fragment (codec : HeaderCodec) (adapter : DefaultFragmentAdapter) (packet : E) :
    Except Panic (Except FragmentationError (List E) × DefaultFragmentAdapter) :=
  (fragmentPacket codec adapter.fragmenter packet).map fun out =>
    (out.1, { adapter with fragmenter := out.2 })

/-- What `reassemble` makes of the reassembler's answer to a push. -/
def rebuilt (id : UInt32) (correlationId : Option UInt64) :
    PushResult → Except FragmentAdapterError (Option E)
  | .error err => .error (.reassembly err)
  | .ok none => .ok none
  | .ok (some message) => .ok (some (fromFragmentParts ⟨id, correlationId, message.payload⟩))

/-- Attempt to reassemble an inbound packet at the clock reading `now`. -/
def reassemble (codec : HeaderCodec) (adapter : DefaultFragmentAdapter) (packet : E)
    (now : Instant) :
    Except Panic (Except FragmentAdapterError (Option E) × DefaultFragmentAdapter) :=
  let parts := intoFragmentParts packet
  match decodeFragmentPayload codec parts.payload with
  | .error err => .ok (.error (.decode err), adapter)
  | .ok (some (header, fragmentPayload)) =>
    (adapter.reassembler.pushAt header fragmentPayload now).map fun out =>
      (rebuilt parts.id parts.correlationId out.1, { adapter with reassembler := out.2 })
  | .ok none =>
    .ok (.ok (some (fromFragmentParts ⟨parts.id, parts.correlationId, parts.payload⟩)), adapter)

/-- Reassemble a frame that arrives with its clock reading. -/
def receive (codec : HeaderCodec) (adapter : DefaultFragmentAdapter) (arrival : E × Instant) :
    Except Panic (Except FragmentAdapterError (Option E) × DefaultFragmentAdapter) :=
  adapter.reassemble codec arrival.1 arrival.2

/-- Number of payload bytes retained by the reassembler. -/
def bufferedBytes (adapter : DefaultFragmentAdapter) : ℕ := adapter.reassembler.bufferedBytes

/-- Remove stale partial fragment assemblies. -/
def purgeExpired (adapter : DefaultFragmentAdapter) (now : Instant) :
    Except Panic (List MessageId × DefaultFragmentAdapter) :=
  (adapter.reassembler.purgeExpiredAt now).map fun out =>
    (out.1, { adapter with reassembler := out.2 })

/-! ## The round trip -/

/-- Feeding the frames to a fresh adapter yields nothing before the last one, and there
exactly one packet, with the id, correlation id and payload of the original. -/
def RoundTrips (codec : HeaderCodec) (config : FragmentationConfig) (packet : E)
    (arrivals : List (E × Instant)) : Prop :=
  ∃ adapter packet', Trace.run (receive codec) (new config) arrivals =
      .ok (List.replicate (arrivals.length - 1) (.ok none) ++ [.ok (some packet')], adapter) ∧
    intoFragmentParts packet' = intoFragmentParts packet

/-- No reading is past the time-out of a message that started with the first one. -/
def InTime (timeout : ℕ) : List Instant → Prop
  | [] => True
  | first :: rest => ∀ now ∈ rest, saturatingDurationSince now first < timeout

variable {codec : HeaderCodec} {config : FragmentationConfig}

/-- The payload of `frame` is the encoding of `fragment`. -/
def CarriesFragment (codec : HeaderCodec) (id : UInt32) (correlation : Option UInt64)
    (fragment : FragmentFrame) (frame : E) : Prop :=
  ∃ bytes, frame = fromFragmentParts ⟨id, correlation, bytes⟩ ∧
    decodeFragmentPayload codec bytes = .ok (some (fragment.header, fragment.payload))

/-- The frame arrives when `a` does and carries its fragment. -/
def Carries (codec : HeaderCodec) (id : UInt32) (correlation : Option UInt64) (a : Arrival)
    (arrival : E × Instant) : Prop :=
  arrival.2 = a.now ∧ CarriesFragment codec id correlation a.frame arrival.1

/-- Every fragment of a message is encoded into a frame that carries it. -/
theorem encodeFrames_carries (hcodec : codec.Lawful) (id : UInt32) (correlation : Option UInt64)
    (fragments : List FragmentFrame) (frames : List E)
    (h : encodeFrames codec id correlation fragments = .ok frames) :
    List.Forall₂ (CarriesFragment codec id correlation) fragments frames := by
  refine (encodeFrames_forall₂ h).imp ?_
  rintro fragment frame ⟨bytes, henc, rfl⟩
  obtain ⟨bytes', henc', hdec⟩ := decodeFragmentPayload_encode hcodec fragment.header fragment.payload
  obtain rfl : bytes = bytes' := Except.ok.inj (henc.symm.trans henc')
  exact ⟨bytes, rfl, hdec⟩

/-- Paired with the readings at which they arrive, the frames of a message carry its
fragments in order. -/
theorem carries_arrivalsFrom {id : UInt32} {correlation : Option UInt64} {m : SentMessage}
    (arrivals : List (E × Instant)) (k : ℕ)
    (hlen : k + (arrivals.map Prod.snd).length = m.frames.length)
    (h : List.Forall₂ (CarriesFragment codec id correlation) (m.frames.drop k)
      (arrivals.map Prod.fst)) :
    List.Forall₂ (Carries codec id correlation)
      (Delivery.arrivalsFrom m k (arrivals.map Prod.snd) hlen) arrivals := by
  induction arrivals generalizing k with
  | nil => exact List.Forall₂.nil
  | cons arrival rest ih =>
    have hk : k < m.frames.length := by
      simp only [List.map_cons, List.length_cons] at hlen
      omega
    rw [List.drop_eq_getElem_cons hk, List.map_cons, List.forall₂_cons] at h
    exact List.Forall₂.cons ⟨rfl, h.1⟩ (ih (k + 1) _ h.2)

/-- The fragments of one message, in order and in time, never find a timed-out partial. -/
theorem onTime_of_inTime {timeout : ℕ} {m : SentMessage} {readings : List Instant}
    (hlen : 0 + readings.length = m.frames.length) (h : InTime timeout readings) :
    Delivery.OnTime timeout [m] Delivery.start (Delivery.arrivalsFrom m 0 readings hlen) := by
  rcases readings with _ | ⟨first, rest⟩
  · trivial
  have hfresh : Delivery.start.Fresh
      ⟨m, ⟨0, by rw [List.length_cons] at hlen; omega⟩, first⟩ := rfl
  constructor
  · intro m' hm'
    obtain ⟨hm', hflight⟩ := List.mem_filter.mp hm'
    exact absurd (of_decide_eq_true hflight).1 (lt_irrefl _)
  · refine Delivery.onTime_arrivalsFrom _ (Delivery.record_progress_self hfresh) Nat.one_pos ?_
    intro now hnow
    rw [show _ = first from Delivery.record_started_first hfresh rfl]
    exact h now hnow

/-- What a successful call of `fragment` returned, and how it was split. -/
theorem fragment_ok_cases {sender sender' : DefaultFragmentAdapter} {packet : E} {frames : List E}
    (h : sender.fragment codec packet = .ok (.ok frames, sender')) :
    ∃ messageId batch, sender.fragmenter.fragmentWithId messageId (intoFragmentParts packet).payload =
        .ok (.ok batch) ∧
      ((batch.isFragmented = true ∧ encodeFrames codec (intoFragmentParts packet).id
          (intoFragmentParts packet).correlationId batch.fragments = .ok frames) ∨
        (batch.isFragmented = false ∧
          frames = [fromFragmentParts (intoFragmentParts packet)])) := by
  obtain ⟨⟨result, fragmenter⟩, hpacket, heq⟩ := Except.map_eq_ok h
  cases heq
  exact fragmentPacket_ok_cases hpacket

/-! ### One message -/

section Lawful

variable [LawfulFragmentable E]

/-- Frames that carry fragments are pushed to the reassembler, and its answers rebuilt. -/
theorem run_receive_of_carries {id : UInt32} {correlation : Option UInt64}
    {arrivals : List (E × Instant)} {fragments : List Arrival}
    (h : List.Forall₂ (Carries codec id correlation) fragments arrivals)
    {adapter : DefaultFragmentAdapter} {results : List PushResult} {r : Reassembler}
    (hrun : Trace.run Arrival.push adapter.reassembler fragments = .ok (results, r)) :
    Trace.run (receive codec) adapter arrivals =
      .ok (results.map (rebuilt (E := E) id correlation), { adapter with reassembler := r }) := by
  induction h generalizing adapter results with
  | nil =>
    obtain ⟨rfl, rfl⟩ : [] = results ∧ adapter.reassembler = r := by
      simpa [Trace.run] using hrun
    rfl
  | @cons a arrival fragments arrivals hcarry _ ih =>
    obtain ⟨result, r₁, rest, hpush, hrest, rfl⟩ := Trace.run_cons_eq_ok hrun
    obtain ⟨hnow, bytes, hframe, hdecode⟩ := hcarry
    have hstep : receive codec adapter arrival =
        .ok (rebuilt (E := E) id correlation result, { adapter with reassembler := r₁ }) := by
      unfold receive reassemble
      rw [hframe, hnow, LawfulFragmentable.into_from]
      simp only [hdecode]
      rw [show adapter.reassembler.pushAt a.frame.header a.frame.payload a.now = _ from hpush]
      rfl
    rw [Trace.run_cons_of_ok hstep, ih hrest]
    rfl

/-- A fragmented packet comes back. -/
theorem roundTrips_of_fragmented (hcodec : codec.Lawful) {sender : DefaultFragmentAdapter}
    {messageId : MessageId} {batch : FragmentBatch} {packet : E} {arrivals : List (E × Instant)}
    (hsplit : sender.fragmenter.fragmentWithId messageId (intoFragmentParts packet).payload =
      .ok (.ok batch))
    (hframes : encodeFrames codec (intoFragmentParts packet).id
      (intoFragmentParts packet).correlationId batch.fragments = .ok (arrivals.map Prod.fst))
    (hsize : (intoFragmentParts packet).payload.length ≤ config.maxMessageSize.get)
    (hbytes : (intoFragmentParts packet).payload.length ≤
      (config.maxBufferedBytes.getD NonZeroUsize.max).get)
    (htime : InTime config.reassemblyTimeout (arrivals.map Prod.snd)) :
    RoundTrips codec config packet arrivals := by
  let m : SentMessage :=
    ⟨sender.fragmenter, messageId, (intoFragmentParts packet).payload, batch, hsplit⟩
  have hcarry := encodeFrames_carries hcodec _ _ _ _ hframes
  have hlen : 0 + (arrivals.map Prod.snd).length = m.frames.length := by
    have := hcarry.length_eq
    rw [List.length_map] at this
    rw [List.length_map, Nat.zero_add]
    exact this.symm
  have hne : arrivals.map Prod.snd ≠ [] := by
    have := m.isSplit.pos
    intro hnil
    rw [hnil, List.length_nil] at hlen
    omega
  have hids : ([m].map SentMessage.messageId).Nodup := List.nodup_singleton _
  obtain ⟨r, hrun, -⟩ := Delivery.run_represents config.maxMessageSize config.reassemblyTimeout
    config.maxConcurrentPartials config.maxBufferedBytes hids
    (by simpa using hsize) (Delivery.arrivalsFrom m 0 (arrivals.map Prod.snd) hlen) Delivery.start _
    (Delivery.represents_start config.maxMessageSize config.reassemblyTimeout
      config.maxConcurrentPartials config.maxBufferedBytes) rfl
    (Delivery.interleaves_arrivalsFrom hlen rfl) (Delivery.withinCaps_arrivalsFrom hlen rfl hbytes)
    (onTime_of_inTime hlen htime)
  have hcarries := carries_arrivalsFrom arrivals 0 hlen (by rw [List.drop_zero]; exact hcarry)
  have hreceive : Trace.run (receive codec) (new config) arrivals = .ok (_, ⟨_, r⟩) :=
    run_receive_of_carries hcarries hrun
  refine ⟨⟨(new config).fragmenter, r⟩, fromFragmentParts (intoFragmentParts packet), ?_,
    LawfulFragmentable.into_from _⟩
  rw [hreceive, Delivery.verdicts_arrivalsFrom hlen hne, List.map_append, List.map_replicate,
    List.length_map]
  rfl

/-- A fresh reassembler completes a message at once only with the bytes pushed. -/
theorem pushAt_new_some {header : FragmentHeader} {chunk : List Byte} {now : Instant}
    {message : ReassembledMessage} {r : Reassembler}
    (h : (new config).reassembler.pushAt header chunk now = .ok (.ok (some message), r)) :
    message.payload = chunk := by
  have hinv := Reassembler.inv_new config.maxMessageSize config.reassemblyTimeout
    config.maxConcurrentPartials config.maxBufferedBytes
  rcases Reassembler.pushAt_outcome _ header chunk now hinv.exact with
    ⟨res, r', hpush, hout⟩ | ⟨hpush, -⟩
  · obtain ⟨rfl, rfl⟩ : res = .ok (some message) ∧ r' = r := by
      simpa using (hpush.symm.trans h)
    cases hout with
    | completedFirst hnew hlast hadmits => rfl
    | completed p series hown haccept hadmits =>
      exact absurd hown (by simp [Reassembler.purged, Reassembler.new, AList.lookup_retain])
  · exact absurd (hpush.symm.trans h) (by simp)

/-- A packet sent as it is comes back exactly when it does not look like a fragment. -/
theorem roundTrips_singleton_iff {packet : E} {now : Instant} :
    RoundTrips codec config packet [(fromFragmentParts (intoFragmentParts packet), now)] ↔
      ¬ HasMarker (intoFragmentParts packet).payload := by
  have hparts := LawfulFragmentable.into_from (E := E) (intoFragmentParts packet)
  constructor
  · rintro ⟨adapter, packet', hrun, hsame⟩ hmarker
    obtain ⟨result, adapter₁, rest, hstep, -, hresults⟩ := Trace.run_cons_eq_ok hrun
    obtain ⟨rfl, -⟩ : Except.ok (some packet') = result ∧ rest = [] := by simpa using hresults
    unfold receive reassemble at hstep
    simp only [hparts] at hstep
    rcases decodeFragmentPayload_of_hasMarker codec hmarker with
      ⟨err, hdec⟩ | ⟨header, chunk, hdec, hlt⟩
    · rw [hdec] at hstep
      cases hstep
    · -- whatever the fragment is taken for, the rebuilt payload has lost the marker
      rw [hdec] at hstep
      rcases hpush : (new config).reassembler.pushAt header chunk now with panic | ⟨res, r⟩
      · simp only [hpush, Except.map] at hstep
        cases hstep
      · simp only [hpush, Except.map, Except.ok.injEq, Prod.mk.injEq] at hstep
        rcases res with err | _ | message
        · exact absurd hstep.1 (by simp [rebuilt])
        · exact absurd hstep.1 (by simp [rebuilt])
        · have hpacket := Option.some.inj (Except.ok.inj hstep.1)
          rw [← hpacket, LawfulFragmentable.into_from] at hsame
          have hpayload : message.payload.length = (intoFragmentParts packet).payload.length :=
            congrArg (fun parts => parts.payload.length) hsame
          rw [pushAt_new_some hpush] at hpayload
          omega
  · intro hmarker
    refine ⟨new config, fromFragmentParts (intoFragmentParts packet), ?_, hparts⟩
    have hstep : receive codec (new config)
          (fromFragmentParts (E := E) (intoFragmentParts packet), now) =
        .ok (.ok (some (fromFragmentParts (intoFragmentParts packet))), new config) := by
      unfold receive reassemble
      simp only [hparts, decodeFragmentPayload_of_not_hasMarker codec hmarker]
    rw [Trace.run_cons_of_ok hstep]
    rfl

/-! ### When it holds -/

/-- **When the round trip works**: the frames of a packet, received in order and in time,
give it back exactly when it was fragmented or its payload does not carry the marker. -/
theorem round_trip_iff (hcodec : codec.Lawful) (config : FragmentationConfig)
    (sender sender' : DefaultFragmentAdapter)
    (hsender : sender.fragmenter.maxFragmentSize = config.fragmentPayloadCap)
    (packet : E) (arrivals : List (E × Instant))
    (hsend : sender.fragment codec packet = .ok (.ok (arrivals.map Prod.fst), sender'))
    (hsize : (intoFragmentParts packet).payload.length ≤ config.maxMessageSize.get)
    (hbytes : (intoFragmentParts packet).payload.length ≤
      (config.maxBufferedBytes.getD NonZeroUsize.max).get)
    (htime : InTime config.reassemblyTimeout (arrivals.map Prod.snd)) :
    RoundTrips codec config packet arrivals ↔
      config.fragmentPayloadCap.get < (intoFragmentParts packet).payload.length ∨
        ¬ HasMarker (intoFragmentParts packet).payload := by
  obtain ⟨messageId, batch, hsplit, hcases⟩ := fragment_ok_cases hsend
  have hfragmented := sender.fragmenter.fragmentWithId_isFragmented _ _ _ hsplit
  rw [hsender] at hfragmented
  rcases hcases with ⟨hmany, hframes⟩ | ⟨hone, hframes⟩
  · have hrt := roundTrips_of_fragmented hcodec hsplit hframes hsize hbytes htime
    exact ⟨fun _ => Or.inl (hfragmented.mp hmany), fun _ => hrt⟩
  · obtain ⟨now, rfl⟩ : ∃ now, arrivals = [(fromFragmentParts (intoFragmentParts packet), now)] := by
      rcases arrivals with _ | ⟨⟨frame, now⟩, _ | ⟨_, _⟩⟩
      · cases hframes
      · exact ⟨now, by simpa using hframes⟩
      · cases hframes
    have hsmall : ¬ config.fragmentPayloadCap.get < (intoFragmentParts packet).payload.length := by
      rw [← hfragmented, hone]
      decide
    rw [roundTrips_singleton_iff, or_iff_right hsmall]

end Lawful

/-- A configuration with a fragment cap of eight bytes. -/
def sampleConfig : FragmentationConfig where
  fragmentPayloadCap := ⟨8, by decide, by decide⟩
  maxMessageSize := ⟨64, by decide, by decide⟩
  maxConcurrentPartials := some ⟨4, by decide, by decide⟩
  maxBufferedBytes := some ⟨64, by decide, by decide⟩
  reassemblyTimeout := 30

/-- A packet of up to eight bytes is sent as it is. -/
theorem fragment_small {packet : FragmentParts} (hne : packet.payload ≠ [])
    (hle : packet.payload.length ≤ 8) :
    (new sampleConfig).fragment bincodeHeader packet =
      .ok (.ok [packet], { new sampleConfig with
        fragmenter := ⟨⟨8, by decide, by decide⟩, 1⟩ }) := by
  have hsplit : (new sampleConfig).fragmenter.fragmentWithId ⟨0⟩ packet.payload = _ :=
    Fragmenter.fragmentWithId_single _ _ (hle.trans (by decide)) hne hle
  unfold fragment fragmentPacket Fragmenter.fragmentBytes
  rw [show (new sampleConfig).fragmenter.takeMessageId = .ok (⟨0⟩, ⟨⟨8, by decide, by decide⟩, 1⟩)
    from rfl]
  simp only
  rw [show intoFragmentParts packet = packet from rfl, hsplit]
  rfl

/-- A packet whose six payload bytes start like a fragment. -/
def markedPacket : FragmentParts := ⟨7, some 42, fragmentMagic ++ [0xFF, 0xFF]⟩

theorem fragment_markedPacket : (new sampleConfig).fragment bincodeHeader markedPacket =
    .ok (.ok [markedPacket], { new sampleConfig with
      fragmenter := ⟨⟨8, by decide, by decide⟩, 1⟩ }) :=
  fragment_small (by decide) (by decide)

/-- The packet is sent as it is, within every limit, and its only frame is refused by the
receiver: the payload is taken for a fragment with a truncated header. -/
theorem markedPacket_not_returned :
    (∃ sender, (new sampleConfig).fragment bincodeHeader markedPacket =
      .ok (.ok [markedPacket], sender)) ∧
    (∃ adapter, Trace.run (receive bincodeHeader) (new sampleConfig) [(markedPacket, 0)] =
      .ok ([.error (.decode (.unexpectedEnd 65535))], adapter)) ∧
    ¬ RoundTrips bincodeHeader sampleConfig markedPacket [(markedPacket, 0)] := by
  have hrefused : Trace.run (receive bincodeHeader) (new sampleConfig) [(markedPacket, 0)] =
      .ok ([.error (.decode (.unexpectedEnd 65535))], new sampleConfig) := rfl
  refine ⟨⟨_, fragment_markedPacket⟩, ⟨_, hrefused⟩, ?_⟩
  rintro ⟨adapter, packet', hrun, -⟩
  rw [hrefused] at hrun
  cases hrun

/-- The round trip works for a payload of six bytes without the marker. -/
theorem round_trip_iff_sample :
    RoundTrips bincodeHeader sampleConfig (⟨7, none, [1, 2, 3, 4, 5, 6]⟩ : FragmentParts)
        [(⟨7, none, [1, 2, 3, 4, 5, 6]⟩, 0)] ↔
      sampleConfig.fragmentPayloadCap.get < 6 ∨ ¬ HasMarker [1, 2, 3, 4, 5, 6] :=
  round_trip_iff bincodeHeader_lawful sampleConfig (new sampleConfig)
    { new sampleConfig with fragmenter := ⟨⟨8, by decide, by decide⟩, 1⟩ } rfl
    (⟨7, none, [1, 2, 3, 4, 5, 6]⟩ : FragmentParts) [(⟨7, none, [1, 2, 3, 4, 5, 6]⟩, 0)]
    (fragment_small (by decide) (by decide))
    (by decide) (by decide) (by simp [InTime])

end DefaultFragmentAdapter

end Wireframe
