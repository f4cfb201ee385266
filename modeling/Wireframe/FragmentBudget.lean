/-
# Fragments and the frame budget

A configuration derived from a frame budget reserves bytes for what surrounds a chunk: the
marker, the length and the header of the fragment (`fragment_overhead`, measured on the header
of message 0) and the envelope (`ENVELOPE_GUARD_BYTES`).  All integers are varints, so what is
really spent depends on their values.

* `encodeEnvelope_le_frameBudget`: the two reserves together cover the widest header and the
  widest envelope, to the byte;
* `withinCeiling_iff`: the reserve for the fragment alone does not, so `encoded_fragment_ceiling`
  bounds the encoding of a fragment only while its id and its index are small.
-/
import Mathlib.Tactic
import Wireframe.FragmentSplit
import Wireframe.InboundHandler

namespace Wireframe

open Bincode (varintWidth)

/-! ## Encoded sizes -/

/-- The derived encoder of an envelope: the id, the correlation id and the payload. -/
def encodeEnvelope (envelope : Envelope) : List Byte :=
  Bincode.encodeVarint envelope.id.toNat ++
    (Bincode.encodeOptionVarint (envelope.correlationId.map UInt64.toNat) ++
      Bincode.encodeByteVec envelope.payload)

/-- An envelope around a payload takes at most twenty bytes more than it. -/
theorem length_encodeEnvelope_le {envelope : Envelope} (h : envelope.payload.length < 2 ^ 32) :
    (encodeEnvelope envelope).length ≤ envelope.payload.length + 20 := by
  have hid := Bincode.varintWidth_le_of_lt envelope.id.toNat_lt
  have hlen := Bincode.varintWidth_le_of_lt h
  have hcorrelation :
      (Bincode.encodeOptionVarint (envelope.correlationId.map UInt64.toNat)).length ≤ 10 := by
    rcases envelope.correlationId with _ | correlation
    · exact Nat.one_le_ofNat
    · show (1 :: Bincode.encodeVarint correlation.toNat).length ≤ 10
      have hwidth := Bincode.varintWidth_le correlation.toNat
      rw [List.length_cons, Bincode.length_encodeVarint]
      omega
  simp only [encodeEnvelope, Bincode.encodeByteVec, List.length_append,
    Bincode.length_encodeVarint]
  omega

/-- The size of an encoded fragment: marker and length, the header, the chunk. -/
theorem length_encodeFragmentPayload {header : FragmentHeader} {chunk bytes : List Byte}
    (h : encodeFragmentPayload bincodeHeader header chunk = .ok bytes) :
    bytes.length = 6 + (encodeHeader header).length + chunk.length := by
  have hheader := length_encodeHeader_le header
  have heq : encodeFragmentPayload bincodeHeader header chunk = .ok (fragmentMagic ++
      (writeNetworkU16 (encodeHeader header).length ++ (encodeHeader header ++ chunk))) :=
    if_neg (by omega)
  obtain rfl := Except.ok.inj (heq.symm.trans h)
  simp only [List.length_append, show fragmentMagic.length = 4 from rfl,
    show ∀ n, (writeNetworkU16 n).length = 2 from fun _ => rfl]
  omega

/-- Every fragment of a batch is the numbered chunk of the payload. -/
theorem Fragmenter.fragments_getElem {f : Fragmenter} {messageId : MessageId}
    {payload : List Byte} {batch : FragmentBatch}
    (h : f.fragmentWithId messageId payload = .ok (.ok batch)) (i : ℕ)
    (hi : i < batch.fragments.length) :
    batch.fragments[i].header.messageId = messageId ∧
      batch.fragments[i].header.fragmentIndex.toNat = i ∧
      batch.fragments[i].payload.length =
        min f.maxFragmentSize.get (payload.length - i * f.maxFragmentSize.get) := by
  rcases fragmentWithId_ok_eq h with ⟨rfl, hframes⟩ | ⟨hcount, hframes⟩
  · have hzero : i = 0 := by
      rw [hframes] at hi
      simpa using hi
    subst hzero
    simp only [hframes, List.getElem_cons_zero]
    exact ⟨trivial, rfl, by simp⟩
  · have hlt : i < 2 ^ 32 := by
      rw [hframes, List.length_map, List.length_range] at hi
      omega
    simp only [hframes, List.getElem_map, List.getElem_range]
    exact ⟨rfl, FragmentIndex.toNat_ofNat hlt, length_chunkAt⟩

/-- Two bytes in chunks of one byte. -/
theorem Fragmenter.fragmentWithId_pair (startAt messageId : MessageId) (a b : Byte) :
    (withStartingId NonZeroUsize.min startAt).fragmentWithId messageId [a, b] =
      .ok (.ok ⟨messageId, [⟨⟨messageId, FragmentIndex.ofNat 0, false⟩, [a]⟩,
        ⟨⟨messageId, FragmentIndex.ofNat 1, true⟩, [b]⟩]⟩) := by
  have hlength : [a, b].length = 2 := rfl
  have hcap : (withStartingId NonZeroUsize.min startAt).maxFragmentSize.get = 1 := rfl
  rw [fragmentWithId_eq _ messageId (by rw [hlength]; decide), if_neg (by simp), hlength, hcap,
    if_neg (by decide), if_neg (by decide), show divCeil 2 1 = 2 by decide]
  simp [fragmentAt, chunkAt, divCeil, List.range_succ]

/-! ## The frame budget -/

/-- What a derived configuration leaves for the chunk. -/
theorem FragmentationConfig.forFrameBudget_cap {frameBudget timeout : ℕ} {limit : NonZeroUsize}
    {config : FragmentationConfig}
    (h : FragmentationConfig.forFrameBudget frameBudget limit timeout = some config) :
    config.fragmentPayloadCap.get + 41 = frameBudget := by
  have hoverhead : fragmentOverhead = 9 := by decide
  have hguard : envelopeGuardBytes = 32 := rfl
  unfold FragmentationConfig.forFrameBudget at h
  rw [hoverhead, hguard] at h
  split at h
  · cases h
  · simp only at h
    split at h
    · cases h
    · rename_i hpos
      split at h
      · cases h
      · rename_i cap hcap
        cases h
        show cap.get + 41 = frameBudget
        unfold NonZeroUsize.new at hcap
        split at hcap
        · cases hcap
          simp only
          omega
        · cases hcap

/-- **Every envelope fits the frame budget**: whatever the ids and the payload, a packet that is
fragmented, or not, under a configuration derived from a budget is sent in envelopes whose
encodings fit it. -/
theorem encodeEnvelope_le_frameBudget {frameBudget timeout : ℕ} {limit : NonZeroUsize}
    {config : FragmentationConfig} (hbudget : frameBudget ≤ maxFrameLength)
    (hconfig : FragmentationConfig.forFrameBudget frameBudget limit timeout = some config)
    (startAt : MessageId) (envelope : Envelope) {frames : List Envelope} {fragmenter' : Fragmenter}
    (h : fragmentPacket bincodeHeader
      (Fragmenter.withStartingId config.fragmentPayloadCap startAt) envelope =
        .ok (.ok frames, fragmenter')) :
    ∀ frame ∈ frames, (encodeEnvelope frame).length ≤ frameBudget := by
  intro frame hframe
  have hcap := FragmentationConfig.forFrameBudget_cap hconfig
  have hsmall : frameBudget < 2 ^ 32 := lt_of_le_of_lt hbudget (by decide)
  obtain ⟨messageId, batch, hsplit, ⟨-, hframes⟩ | ⟨hwhole, rfl⟩⟩ := fragmentPacket_ok_cases h
  · -- a frame that carries a fragment
    obtain ⟨i, hi, rfl⟩ := List.mem_iff_getElem.mp hframe
    have hforall := encodeFrames_forall₂ hframes
    have hi' : i < batch.fragments.length := by
      rw [hforall.length_eq]
      exact hi
    obtain ⟨bytes, hencode, hbytes⟩ : ∃ bytes, encodeFragmentPayload bincodeHeader
        batch.fragments[i].header batch.fragments[i].payload = .ok bytes ∧
        frames[i] = ⟨envelope.id, envelope.correlationId, bytes⟩ := hforall.get hi' hi
    have hlength := length_encodeFragmentPayload hencode
    have hheader := length_encodeHeader_le batch.fragments[i].header
    have hchunk := (Fragmenter.fragments_getElem hsplit i hi').2.2
    have hle : batch.fragments[i].payload.length ≤ config.fragmentPayloadCap.get := by
      rw [hchunk]
      exact min_le_left _ _
    have hpayload : bytes.length + 20 ≤ frameBudget := by omega
    rw [hbytes]
    refine (length_encodeEnvelope_le ?_).trans hpayload
    show bytes.length < 2 ^ 32
    omega
  · -- the packet itself
    obtain rfl : frame = envelope := List.mem_singleton.mp hframe
    have hle : frame.payload.length ≤ config.fragmentPayloadCap.get := by
      have hiff := Fragmenter.fragmentWithId_isFragmented _ messageId _ batch hsplit
      rw [hwhole] at hiff
      exact Nat.not_lt.mp fun hbig => absurd (hiff.mpr hbig) (by decide)
    exact (length_encodeEnvelope_le (by omega)).trans (by omega)

/-- A budget of 42 bytes leaves one byte for a chunk, so two bytes take two envelopes. -/
theorem encodeEnvelope_le_frameBudget_pair :
    ∃ config frames fragmenter',
      FragmentationConfig.forFrameBudget 42 NonZeroUsize.max 30000 = some config ∧
      fragmentPacket bincodeHeader (Fragmenter.withStartingId config.fragmentPayloadCap ⟨300⟩)
        (⟨7, some 9, [5, 6]⟩ : Envelope) = .ok (.ok frames, fragmenter') ∧
      frames.length = 2 ∧ ∀ frame ∈ frames, (encodeEnvelope frame).length ≤ 42 := by
  obtain ⟨config, hconfig, hcap⟩ : ∃ config,
      FragmentationConfig.forFrameBudget 42 NonZeroUsize.max 30000 = some config ∧
        config.fragmentPayloadCap = NonZeroUsize.min := ⟨_, rfl, rfl⟩
  have hpacket : fragmentPacket bincodeHeader
      (Fragmenter.withStartingId config.fragmentPayloadCap ⟨300⟩)
      (⟨7, some 9, [5, 6]⟩ : Envelope) =
        .ok (.ok [⟨7, some 9, [0x46, 0x52, 0x41, 0x47, 0, 5, 251, 44, 1, 0, 0, 5]⟩,
          ⟨7, some 9, [0x46, 0x52, 0x41, 0x47, 0, 5, 251, 44, 1, 1, 1, 6]⟩],
          ⟨NonZeroUsize.min, 301⟩) := by
    rw [hcap]
    unfold fragmentPacket Fragmenter.fragmentBytes
    rw [show Fragmenter.takeMessageId _ = .ok (⟨300⟩, ⟨NonZeroUsize.min, 301⟩) from rfl]
    simp only
    rw [show (Fragmenter.withStartingId NonZeroUsize.min ⟨300⟩).fragmentWithId ⟨300⟩
      (Fragmentable.intoFragmentParts (⟨7, some 9, [5, 6]⟩ : Envelope)).payload = _ from
        Fragmenter.fragmentWithId_pair ⟨300⟩ ⟨300⟩ 5 6]
    rfl
  exact ⟨config, _, _, hconfig, hpacket, rfl,
    encodeEnvelope_le_frameBudget (by decide) hconfig ⟨300⟩ ⟨7, some 9, [5, 6]⟩ hpacket⟩

/-! ## The ceiling of an encoded fragment -/

/-- Convenience helper for computing the encoded fragment ceiling; the sum is a machine word. -/
def FragmentationConfig.encodedFragmentCeiling (config : FragmentationConfig) : Except Panic ℕ :=
  match checkedAdd config.fragmentPayloadCap.get fragmentOverhead with
  | none => .error .arithmeticOverflow
  | some ceiling => .ok ceiling

/-- The ceiling exists and bounds the encoding of the fragment. -/
def FragmentationConfig.WithinCeiling (config : FragmentationConfig) (fragment : FragmentFrame) :
    Prop :=
  ∃ ceiling bytes, config.encodedFragmentCeiling = .ok ceiling ∧
    encodeFragmentPayload bincodeHeader fragment.header fragment.payload = .ok bytes ∧
    bytes.length ≤ ceiling

theorem FragmentationConfig.encodedFragmentCeiling_eq_ok {config : FragmentationConfig}
    {ceiling : ℕ} : config.encodedFragmentCeiling = .ok ceiling ↔
      config.fragmentPayloadCap.get + fragmentOverhead ≤ usizeMax ∧
        ceiling = config.fragmentPayloadCap.get + fragmentOverhead := by
  rw [← checkedAdd_eq_some_iff, encodedFragmentCeiling]
  rcases checkedAdd config.fragmentPayloadCap.get fragmentOverhead with _ | sum
  · simp
  · simp

/-- **A fragment is within the ceiling exactly when its varints leave room**: the ceiling has two
bytes for the id and the index, and what the chunk leaves of the cap. -/
theorem FragmentationConfig.withinCeiling_iff (config : FragmentationConfig) (startAt : MessageId)
    (messageId : MessageId) (payload : List Byte) {batch : FragmentBatch}
    (h : (Fragmenter.withStartingId config.fragmentPayloadCap startAt).fragmentWithId messageId
      payload = .ok (.ok batch)) (i : ℕ) (hi : i < batch.fragments.length) :
    config.WithinCeiling batch.fragments[i] ↔
      config.fragmentPayloadCap.get + fragmentOverhead ≤ usizeMax ∧
        varintWidth messageId.get.toNat + varintWidth i +
          min config.fragmentPayloadCap.get (payload.length - i * config.fragmentPayloadCap.get) ≤
            config.fragmentPayloadCap.get + 2 := by
  have hoverhead : fragmentOverhead = 9 := by decide
  obtain ⟨hid, hindex, hchunk⟩ := Fragmenter.fragments_getElem h i hi
  have hheader := length_encodeHeader batch.fragments[i].header
  rw [hid, hindex] at hheader
  obtain ⟨bytes, hencode, -⟩ := decodeFragmentPayload_encode bincodeHeader_lawful
    batch.fragments[i].header batch.fragments[i].payload
  have hlength := length_encodeFragmentPayload hencode
  rw [hheader, hchunk, show (Fragmenter.withStartingId config.fragmentPayloadCap
    startAt).maxFragmentSize = config.fragmentPayloadCap from rfl] at hlength
  constructor
  · rintro ⟨ceiling, bytes', hceiling, hencode', hle⟩
    obtain rfl : bytes = bytes' := Except.ok.inj (hencode.symm.trans hencode')
    obtain ⟨hword, rfl⟩ := encodedFragmentCeiling_eq_ok.mp hceiling
    exact ⟨hword, by omega⟩
  · rintro ⟨hword, hroom⟩
    exact ⟨_, bytes, encodedFragmentCeiling_eq_ok.mpr ⟨hword, rfl⟩, hencode, by omega⟩

/-- The settings of the samples: chunks of one byte. -/
def singleByteConfig : FragmentationConfig where
  fragmentPayloadCap := NonZeroUsize.min
  maxMessageSize := NonZeroUsize.max
  maxConcurrentPartials := none
  maxBufferedBytes := none
  reassemblyTimeout := 30

/-- The first fragment of message 7 is within the ceiling. -/
theorem withinCeiling_iff_seven :
    singleByteConfig.WithinCeiling ⟨⟨⟨7⟩, FragmentIndex.ofNat 0, false⟩, [1]⟩ :=
  (singleByteConfig.withinCeiling_iff ⟨0⟩ ⟨7⟩ [1, 2] (Fragmenter.fragmentWithId_pair ⟨0⟩ ⟨7⟩ 1 2) 0
    (by decide)).mpr (by decide)

/-- The id 251 takes three bytes: the first fragment of `[1, 2]` in chunks of one byte is encoded
in twelve bytes, above the ceiling of ten. -/
theorem fragment_above_ceiling :
    (Fragmenter.new singleByteConfig.fragmentPayloadCap).fragmentWithId ⟨251⟩ [1, 2] =
      .ok (.ok ⟨⟨251⟩, [⟨⟨⟨251⟩, FragmentIndex.ofNat 0, false⟩, [1]⟩,
        ⟨⟨⟨251⟩, FragmentIndex.ofNat 1, true⟩, [2]⟩]⟩) ∧
    singleByteConfig.encodedFragmentCeiling = .ok 10 ∧
    encodeFragmentPayload bincodeHeader ⟨⟨251⟩, FragmentIndex.ofNat 0, false⟩ [1] =
      .ok [0x46, 0x52, 0x41, 0x47, 0, 5, 251, 251, 0, 0, 0, 1] ∧
    ¬ singleByteConfig.WithinCeiling ⟨⟨⟨251⟩, FragmentIndex.ofNat 0, false⟩, [1]⟩ := by
  have hceiling : singleByteConfig.encodedFragmentCeiling = .ok 10 := rfl
  have hencode : encodeFragmentPayload bincodeHeader ⟨⟨251⟩, FragmentIndex.ofNat 0, false⟩ [1] =
      .ok [0x46, 0x52, 0x41, 0x47, 0, 5, 251, 251, 0, 0, 0, 1] := by decide
  refine ⟨Fragmenter.fragmentWithId_pair ⟨0⟩ ⟨251⟩ 1 2, hceiling, hencode, ?_⟩
  rintro ⟨ceiling, bytes, hceiling', hencode', hle⟩
  obtain rfl := Except.ok.inj (hceiling.symm.trans hceiling')
  obtain rfl := Except.ok.inj (hencode.symm.trans hencode')
  exact absurd hle (by decide)

end Wireframe
