/-
# Fragments inside frame payloads

A fragment travels inside an ordinary frame payload (`src/fragment/payload.rs`):

  `FRAG`  |  header length, u16 big-endian  |  encoded header  |  fragment bytes

Nothing outside the payload says whether it holds a fragment, so the receiver looks for
the marker.  The header codec is a parameter: `HeaderCodec.Lawful` states what the
serializer promises, and `bincodeHeader` is the codec of the standard configuration.
-/
import Mathlib.Tactic
import Wireframe.Bincode
import Wireframe.Fragmenter

namespace Wireframe

open Bincode (DecodeError)

/-! ## The header codec -/

/-- A serializer for fragment headers: decoding also says how many bytes it consumed. -/
structure HeaderCodec where
  encodeToVec : FragmentHeader → Except EncodeError (List Byte)
  borrowDecodeFromSlice : List Byte → Except DecodeError (FragmentHeader × ℕ)

/-- What the serializer promises: every header has an encoding that fits the length
prefix, and decoding exactly these bytes gives the header back and consumes them all. -/
structure HeaderCodec.Lawful (codec : HeaderCodec) : Prop where
  round_trip : ∀ header, ∃ bytes, codec.encodeToVec header = .ok bytes ∧ bytes.length < 2 ^ 16 ∧
    codec.borrowDecodeFromSlice bytes = .ok (header, bytes.length)

/-- The derived decoder of a header: its three fields, one after the other. -/
def decodeHeader (input : List Byte) : Except DecodeError (FragmentHeader × List Byte) :=
  match Bincode.decodeVarint 64 input with
  | .error err => .error err
  | .ok (messageId, input) =>
    match Bincode.decodeVarint 32 input with
    | .error err => .error err
    | .ok (fragmentIndex, input) =>
      match Bincode.decodeBool input with
      | .error err => .error err
      | .ok (isLastFragment, input) =>
        .ok (⟨⟨UInt64.ofNat messageId⟩, FragmentIndex.ofNat fragmentIndex, isLastFragment⟩, input)

/-- The derived encoder of a header. -/
def encodeHeader (header : FragmentHeader) : List Byte :=
  Bincode.encodeVarint header.messageId.get.toNat ++
    (Bincode.encodeVarint header.fragmentIndex.toNat ++ Bincode.encodeBool header.isLastFragment)

/-- The header codec of bincode's standard configuration. -/
def bincodeHeader : HeaderCodec where
  encodeToVec := fun header => .ok (encodeHeader header)
  borrowDecodeFromSlice := fun input =>
    (decodeHeader input).map fun out => (out.1, input.length - out.2.length)

theorem decodeHeader_encodeHeader (header : FragmentHeader) :
    decodeHeader (encodeHeader header) = .ok (header, []) := by
  have hid : header.messageId.get.toNat < 2 ^ 64 := header.messageId.get.toNat_lt
  unfold decodeHeader encodeHeader
  rw [Bincode.decodeVarint_encodeVarint 64 _ _ (Or.inr rfl) hid]
  simp only
  rw [Bincode.decodeVarint_encodeVarint 32 _ _ (Or.inl rfl) header.fragmentIndex.toNat_lt]
  simp only
  rw [← List.append_nil (Bincode.encodeBool _), Bincode.decodeBool_encodeBool]
  simp only [FragmentIndex.ofNat_toNat, UInt64.ofNat_toNat]

theorem length_encodeHeader (header : FragmentHeader) : (encodeHeader header).length =
    Bincode.varintWidth header.messageId.get.toNat +
      Bincode.varintWidth header.fragmentIndex.toNat + 1 := by
  simp only [encodeHeader, Bincode.encodeBool, List.length_append, List.length_singleton,
    Bincode.length_encodeVarint]
  omega

theorem length_encodeHeader_le (header : FragmentHeader) : (encodeHeader header).length ≤ 15 := by
  have hid := Bincode.varintWidth_le header.messageId.get.toNat
  have hindex := Bincode.varintWidth_le_of_lt header.fragmentIndex.toNat_lt
  rw [length_encodeHeader]
  omega

/-- Decoding a header takes at least one byte. -/
theorem decodeHeader_rest {header : FragmentHeader} {input rest : List Byte}
    (h : decodeHeader input = .ok (header, rest)) : rest.length < input.length := by
  rw [decodeHeader] at h
  split at h
  · cases h
  · rename_i messageId input₁ hid
    split at h
    · cases h
    · rename_i index input₂ hindex
      split at h
      · cases h
      · rename_i last input₃ hlast
        cases h
        have h₁ := Bincode.decodeVarint_rest hid
        have h₂ := Bincode.decodeVarint_rest hindex
        have h₃ := Bincode.decodeBool_rest hlast
        omega

/-- The bytes are consumed to the last one exactly when the decoder leaves nothing. -/
theorem borrowDecodeFromSlice_eq_ok {header : FragmentHeader} {bytes : List Byte} :
    bincodeHeader.borrowDecodeFromSlice bytes = .ok (header, bytes.length) ↔
      decodeHeader bytes = .ok (header, []) := by
  constructor
  · intro h
    obtain ⟨⟨header', rest⟩, hdecode, hout⟩ := Except.map_eq_ok h
    obtain ⟨rfl, hconsumed⟩ := Prod.mk.inj hout
    have hrest := decodeHeader_rest hdecode
    have hnil : rest = [] := by
      apply List.eq_nil_of_length_eq_zero
      simp only at hconsumed
      omega
    rw [hdecode, hnil]
  · intro h
    simp only [bincodeHeader, h]
    rfl

theorem bincodeHeader_lawful : bincodeHeader.Lawful where
  round_trip := by
    intro header
    have hlen := length_encodeHeader_le header
    refine ⟨encodeHeader header, rfl, by omega, ?_⟩
    simp only [bincodeHeader, decodeHeader_encodeHeader, Except.map]
    rfl

/-! ## The length prefix -/

/-- A 16-bit length in network byte order. -/
def writeNetworkU16 (n : ℕ) : List Byte := [UInt8.ofNat (n / 256), UInt8.ofNat (n % 256)]

/-- The 16-bit length of two bytes in network order. -/
def readNetworkU16 (hi lo : Byte) : ℕ := hi.toNat * 256 + lo.toNat

theorem readNetworkU16_write {n : ℕ} (h : n < 2 ^ 16) :
    readNetworkU16 (UInt8.ofNat (n / 256)) (UInt8.ofNat (n % 256)) = n := by
  unfold readNetworkU16
  rw [UInt8.toNat_ofNat', UInt8.toNat_ofNat']
  omega

/-! ## Encoding and decoding a fragment payload -/

/-- Marker prefixed to fragment payloads: the bytes of `FRAG`. -/
def fragmentMagic : List Byte := [0x46, 0x52, 0x41, 0x47]

/-- Encode a fragment header and payload into a contiguous buffer.  The capacity check of
`Vec::with_capacity` is left out: it can fail only for a payload within a few bytes of
`isize::MAX`. -/
def encodeFragmentPayload (codec : HeaderCodec) (header : FragmentHeader) (payload : List Byte) :
    Except EncodeError (List Byte) :=
  match codec.encodeToVec header with
  | .error err => .error err
  | .ok headerBytes =>
    if 2 ^ 16 ≤ headerBytes.length then
      .error ⟨"fragment header length must fit within u16::MAX"⟩
    else
      .ok (fragmentMagic ++ (writeNetworkU16 headerBytes.length ++ (headerBytes ++ payload)))

/-- Attempt to decode a fragment payload: nothing when the marker is missing. -/
def decodeFragmentPayload (codec : HeaderCodec) (payload : List Byte) :
    Except DecodeError (Option (FragmentHeader × List Byte)) :=
  if payload.length < fragmentMagic.length + 2 then .ok none
  else if payload.take fragmentMagic.length ≠ fragmentMagic then .ok none
  else
    match payload[fragmentMagic.length]?, payload[fragmentMagic.length + 1]? with
    | some hi, some lo =>
      let headerLen := readNetworkU16 hi lo
      let headerStart := fragmentMagic.length + 2
      let headerEnd := headerStart + headerLen
      match slice payload headerStart headerEnd with
      | none => .error (.unexpectedEnd (headerEnd - payload.length))
      | some headerBytes =>
        match codec.borrowDecodeFromSlice headerBytes with
        | .error err => .error err
        | .ok (header, consumed) =>
          if consumed ≠ headerLen then .error (.otherString "fragment header length mismatch")
          else .ok (some (header, payload.drop headerEnd))
    | _, _ => .error (.unexpectedEnd 0)

/-! ## What the decoder looks at -/

/-- The payload is long enough for a length prefix and starts with the marker. -/
def HasMarker (payload : List Byte) : Prop :=
  fragmentMagic.length + 2 ≤ payload.length ∧ payload.take fragmentMagic.length = fragmentMagic

instance : DecidablePred HasMarker := fun _ => inferInstanceAs (Decidable (_ ∧ _))

/-- Without the marker a payload is not a fragment, whatever it holds. -/
theorem decodeFragmentPayload_of_not_hasMarker (codec : HeaderCodec) {payload : List Byte}
    (h : ¬ HasMarker payload) : decodeFragmentPayload codec payload = .ok none := by
  unfold decodeFragmentPayload
  by_cases hlen : payload.length < fragmentMagic.length + 2
  · rw [if_pos hlen]
  · have hmagic : payload.take fragmentMagic.length ≠ fragmentMagic :=
      fun hm => h ⟨Nat.not_lt.mp hlen, hm⟩
    rw [if_neg hlen, if_pos hmagic]

/-- A payload with the marker is the marker, two length bytes and a rest. -/
theorem HasMarker.eq_append {payload : List Byte} (h : HasMarker payload) :
    ∃ hi lo rest, payload = fragmentMagic ++ hi :: lo :: rest := by
  obtain ⟨hlen, hmagic⟩ := h
  have hsplit := List.take_append_drop fragmentMagic.length payload
  rw [hmagic] at hsplit
  have hdrop : 2 ≤ (payload.drop fragmentMagic.length).length := by
    rw [List.length_drop]
    omega
  rcases hrest : payload.drop fragmentMagic.length with _ | ⟨hi, _ | ⟨lo, rest⟩⟩
  · rw [hrest] at hdrop
    exact absurd hdrop (by simp)
  · rw [hrest] at hdrop
    exact absurd hdrop (by simp)
  · exact ⟨hi, lo, rest, by rw [← hsplit, hrest]⟩

/-- What the decoder does behind the marker, in terms of the bytes that follow. -/
theorem decodeFragmentPayload_marked (codec : HeaderCodec) (hi lo : Byte) (rest : List Byte) :
    decodeFragmentPayload codec (fragmentMagic ++ hi :: lo :: rest) =
      if rest.length < readNetworkU16 hi lo then
        .error (.unexpectedEnd (readNetworkU16 hi lo - rest.length))
      else
        match codec.borrowDecodeFromSlice (rest.take (readNetworkU16 hi lo)) with
        | .error err => .error err
        | .ok (header, consumed) =>
          if consumed ≠ readNetworkU16 hi lo then
            .error (.otherString "fragment header length mismatch")
          else .ok (some (header, rest.drop (readNetworkU16 hi lo))) := by
  have hfour : fragmentMagic.length = 4 := rfl
  have hlen : (fragmentMagic ++ hi :: lo :: rest).length = 6 + rest.length := by
    simp only [List.length_append, List.length_cons, hfour]
    omega
  unfold decodeFragmentPayload
  rw [if_neg (by rw [hlen, hfour]; omega), if_neg (by simp)]
  have hhi : (fragmentMagic ++ hi :: lo :: rest)[4]? = some hi := rfl
  have hlo : (fragmentMagic ++ hi :: lo :: rest)[4 + 1]? = some lo := rfl
  simp only [hfour, hhi, hlo]
  by_cases hfit : rest.length < readNetworkU16 hi lo
  · have hslice : slice (fragmentMagic ++ hi :: lo :: rest) (4 + 2)
        (4 + 2 + readNetworkU16 hi lo) = none := if_neg (by rw [hlen]; omega)
    rw [hslice, if_pos hfit, hlen]
    simp only
    congr 2
    omega
  · have hslice : slice (fragmentMagic ++ hi :: lo :: rest) (4 + 2)
        (4 + 2 + readNetworkU16 hi lo) = some (rest.take (readNetworkU16 hi lo)) := by
      rw [slice_eq_some _ (by omega) (by rw [hlen]; omega), List.drop_take]
      simp [fragmentMagic]
    have hdrop : (fragmentMagic ++ hi :: lo :: rest).drop (4 + 2 + readNetworkU16 hi lo) =
        rest.drop (readNetworkU16 hi lo) := by
      rw [← List.drop_drop]
      rfl
    rw [hslice, if_neg hfit, hdrop]

/-- A payload with the marker is never passed through: the decoder fails, or strips at
least the marker and the length prefix. -/
theorem decodeFragmentPayload_of_hasMarker (codec : HeaderCodec) {payload : List Byte}
    (h : HasMarker payload) :
    (∃ err, decodeFragmentPayload codec payload = .error err) ∨
    ∃ header chunk, decodeFragmentPayload codec payload = .ok (some (header, chunk)) ∧
      chunk.length < payload.length := by
  obtain ⟨hi, lo, rest, rfl⟩ := h.eq_append
  rw [decodeFragmentPayload_marked]
  split
  · exact Or.inl ⟨_, rfl⟩
  · rcases codec.borrowDecodeFromSlice (rest.take (readNetworkU16 hi lo)) with err | ⟨header, consumed⟩
    · exact Or.inl ⟨_, rfl⟩
    · simp only
      split
      · exact Or.inl ⟨_, rfl⟩
      · refine Or.inr ⟨header, _, rfl, ?_⟩
        simp only [List.length_append, List.length_cons, List.length_drop]
        omega

/-- **Round trip**: decoding an encoded fragment gives back its header and bytes. -/
theorem decodeFragmentPayload_encode {codec : HeaderCodec} (hcodec : codec.Lawful)
    (header : FragmentHeader) (payload : List Byte) :
    ∃ bytes, encodeFragmentPayload codec header payload = .ok bytes ∧
      decodeFragmentPayload codec bytes = .ok (some (header, payload)) := by
  obtain ⟨headerBytes, henc, hlen, hdec⟩ := hcodec.round_trip header
  have hread := readNetworkU16_write hlen
  refine ⟨fragmentMagic ++ (writeNetworkU16 headerBytes.length ++ (headerBytes ++ payload)), ?_, ?_⟩
  · rw [encodeFragmentPayload, henc]
    exact if_neg (by omega)
  · show decodeFragmentPayload codec (fragmentMagic ++ UInt8.ofNat (headerBytes.length / 256) ::
      UInt8.ofNat (headerBytes.length % 256) :: (headerBytes ++ payload)) = _
    rw [decodeFragmentPayload_marked, hread, if_neg (by rw [List.length_append]; omega),
      List.take_left' rfl, List.drop_left' rfl, hdec]
    exact if_neg (by simp)

/-! ## What is accepted -/

/-- A fragment on the wire: the marker, the length of the header in network order, the bytes of
the header, which decode to it to the last one, and the chunk. -/
def IsFragment (payload : List Byte) (header : FragmentHeader) (chunk : List Byte) : Prop :=
  ∃ hi lo headerBytes, payload = fragmentMagic ++ hi :: lo :: (headerBytes ++ chunk) ∧
    headerBytes.length = readNetworkU16 hi lo ∧ decodeHeader headerBytes = .ok (header, [])

/-- Nothing is returned exactly when the marker is missing. -/
theorem decodeFragmentPayload_eq_none {payload : List Byte} :
    decodeFragmentPayload bincodeHeader payload = .ok none ↔ ¬ HasMarker payload := by
  constructor
  · intro hnone hmarker
    rcases decodeFragmentPayload_of_hasMarker bincodeHeader hmarker with ⟨err, herr⟩ |
      ⟨header, chunk, hsome, -⟩
    · rw [hnone] at herr
      cases herr
    · rw [hnone] at hsome
      cases hsome
  · exact decodeFragmentPayload_of_not_hasMarker bincodeHeader

/-- A header and a chunk are returned exactly for a fragment of them. -/
theorem decodeFragmentPayload_eq_some {payload chunk : List Byte} {header : FragmentHeader} :
    decodeFragmentPayload bincodeHeader payload = .ok (some (header, chunk)) ↔
      IsFragment payload header chunk := by
  constructor
  · intro hsome
    have hmarker : HasMarker payload := by
      by_contra hnot
      rw [decodeFragmentPayload_of_not_hasMarker bincodeHeader hnot] at hsome
      cases hsome
    obtain ⟨hi, lo, rest, rfl⟩ := hmarker.eq_append
    rw [decodeFragmentPayload_marked] at hsome
    split at hsome
    · cases hsome
    · rename_i hfit
      have hlen : (rest.take (readNetworkU16 hi lo)).length = readNetworkU16 hi lo := by
        rw [List.length_take]
        omega
      split at hsome
      · cases hsome
      · rename_i header' consumed hdecode
        split at hsome
        · cases hsome
        · rename_i hconsumed
          obtain ⟨rfl, rfl⟩ : header' = header ∧ rest.drop (readNetworkU16 hi lo) = chunk := by
            simpa using hsome
          rw [ne_eq, not_not] at hconsumed
          have hfull : bincodeHeader.borrowDecodeFromSlice (rest.take (readNetworkU16 hi lo)) =
              .ok (header', (rest.take (readNetworkU16 hi lo)).length) := by
            rw [hdecode, hconsumed, hlen]
          exact ⟨hi, lo, rest.take (readNetworkU16 hi lo), by rw [List.take_append_drop], hlen,
            borrowDecodeFromSlice_eq_ok.mp hfull⟩
  · rintro ⟨hi, lo, headerBytes, rfl, hlen, hdecode⟩
    have hfull := borrowDecodeFromSlice_eq_ok.mpr hdecode
    rw [decodeFragmentPayload_marked, if_neg (by rw [List.length_append]; omega),
      List.take_left' hlen, List.drop_left' hlen, hfull, hlen]
    exact if_neg (by simp)

/-- **The decoder on every byte string**: an encoded fragment gives its header and chunk back;
nothing is returned exactly for strings that are too short or do not start with the marker, a
header and a chunk exactly for a fragment of them, and an error for all other strings. -/
theorem decodeFragmentPayload_spec :
    (∀ header chunk, ∃ bytes, encodeFragmentPayload bincodeHeader header chunk = .ok bytes ∧
      decodeFragmentPayload bincodeHeader bytes = .ok (some (header, chunk))) ∧
    ∀ payload : List Byte,
      (decodeFragmentPayload bincodeHeader payload = .ok none ↔
        payload.length < 6 ∨ payload.take 4 ≠ fragmentMagic) ∧
      (∀ header chunk, decodeFragmentPayload bincodeHeader payload = .ok (some (header, chunk)) ↔
        IsFragment payload header chunk) ∧
      ((∃ err, decodeFragmentPayload bincodeHeader payload = .error err) ↔
        ¬ (payload.length < 6 ∨ payload.take 4 ≠ fragmentMagic) ∧
          ∀ header chunk, ¬ IsFragment payload header chunk) := by
  refine ⟨decodeFragmentPayload_encode bincodeHeader_lawful, fun payload => ?_⟩
  have hnone : decodeFragmentPayload bincodeHeader payload = .ok none ↔
      payload.length < 6 ∨ payload.take 4 ≠ fragmentMagic := by
    rw [decodeFragmentPayload_eq_none, HasMarker, not_and_or, Nat.not_le]
    exact Iff.rfl
  refine ⟨hnone, fun header chunk => decodeFragmentPayload_eq_some, ?_⟩
  constructor
  · rintro ⟨err, herr⟩
    refine ⟨fun hmissing => ?_, fun header chunk hfragment => ?_⟩
    · rw [hnone.mpr hmissing] at herr
      cases herr
    · rw [decodeFragmentPayload_eq_some.mpr hfragment] at herr
      cases herr
  · rintro ⟨hmarked, hnot⟩
    rcases hdecode : decodeFragmentPayload bincodeHeader payload with err | _ | ⟨header, chunk⟩
    · exact ⟨err, rfl⟩
    · exact absurd (hnone.mp hdecode) hmarked
    · exact absurd (decodeFragmentPayload_eq_some.mp hdecode) (hnot header chunk)

end Wireframe
