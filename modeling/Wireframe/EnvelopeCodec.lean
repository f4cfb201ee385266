/-
# Envelopes in bincode

The default serializer (`src/serializer.rs`) codes an envelope (`src/app/envelope.rs`) with the
derived bincode encoder and decoder (`src/message.rs`).  The encoder has no limit, the decoder
claims at most `MAX_FRAME_LENGTH` bytes.  It counts a value by its size in memory, so an envelope
can be within the limit when it is written and beyond it when it is read; `claims` is the exact
measure (`fromBytes_encodeEnvelope`).
-/
import Mathlib.Tactic
import Wireframe.FragmentBudget

namespace Wireframe

open Bincode (LimitedError claim limitedVarint limitedOptionVarint limitedByteVec)

namespace Envelope

/-- Deserialize an envelope from bytes, with the number of bytes it took. -/
def fromBytes (bytes : List Byte) : Except LimitedError (Envelope × ℕ) := do
  let (id, claimed, rest) ← limitedVarint maxFrameLength 32 0 bytes
  let (correlationId, claimed, rest) ← limitedOptionVarint maxFrameLength 64 claimed rest
  let (payload, _, rest) ← limitedByteVec maxFrameLength claimed rest
  pure (⟨UInt32.ofNat id, correlationId.map UInt64.ofNat, payload⟩, bytes.length - rest.length)

/-- What the decoder claims for an envelope: four bytes for the id, one for the presence of the
correlation id and eight for its value, eight for the length of the payload, and the payload. -/
def claims (envelope : Envelope) : ℕ :=
  4 + (1 + (envelope.correlationId.map fun _ => 8).getD 0) + (8 + envelope.payload.length)

theorem length_lt_of_claims_le {envelope : Envelope} (h : claims envelope ≤ maxFrameLength) :
    envelope.payload.length < 2 ^ 64 := by
  have hle : envelope.payload.length ≤ claims envelope := by
    unfold claims
    omega
  have hlimit : maxFrameLength < 2 ^ 64 := by decide
  omega

/-- The claims of an envelope's fields, one after the other. -/
def claimFields (envelope : Envelope) : Except LimitedError ℕ :=
  ((claim maxFrameLength 4 0).bind
    (claim maxFrameLength (1 + (envelope.correlationId.map fun _ => 8).getD 0))).bind
    (claim maxFrameLength (8 + envelope.payload.length))

theorem claimFields_eq (envelope : Envelope) :
    claimFields envelope =
      if claims envelope ≤ maxFrameLength then .ok (claims envelope)
      else .error .limitExceeded := by
  rw [claimFields, Bincode.claim_bind_claim, Bincode.claim_bind_claim]
  show claim maxFrameLength (claims envelope) 0 = _
  rw [claim, Nat.zero_add]

/-- An encoded envelope is read back if the claims of its fields are granted. -/
theorem fromBytes_eq_map {envelope : Envelope} (rest : List Byte)
    (hlength : envelope.payload.length < 2 ^ 64) :
    fromBytes (encodeEnvelope envelope ++ rest) =
      (claimFields envelope).map fun _ => (envelope, (encodeEnvelope envelope).length) := by
  have hcorrelation : ∀ n ∈ envelope.correlationId.map UInt64.toNat, n < 2 ^ 64 := by
    intro n hn
    obtain ⟨correlation, -, rfl⟩ := Option.map_eq_some_iff.mp hn
    exact correlation.toNat_lt
  have hpresent : (envelope.correlationId.map UInt64.toNat).map (fun _ => 8) =
      envelope.correlationId.map fun _ => 8 := Option.map_map ..
  have hback : (envelope.correlationId.map UInt64.toNat).map UInt64.ofNat =
      envelope.correlationId := by
    rw [Option.map_map]
    exact (Option.map_congr fun _ _ => UInt64.ofNat_toNat).trans Option.map_id'
  have hbytes : encodeEnvelope envelope ++ rest = Bincode.encodeVarint envelope.id.toNat ++
      (Bincode.encodeOptionVarint (envelope.correlationId.map UInt64.toNat) ++
        (Bincode.encodeByteVec envelope.payload ++ rest)) := by
    rw [encodeEnvelope, List.append_assoc, List.append_assoc]
  have hconsumed : (encodeEnvelope envelope ++ rest).length - rest.length =
      (encodeEnvelope envelope).length := by
    rw [List.length_append, Nat.add_sub_cancel]
  unfold fromBytes claimFields
  rw [← hconsumed, hbytes,
    Bincode.limitedVarint_encodeVarint _ (Or.inl rfl) envelope.id.toNat_lt]
  -- the first claim that fails ends the decoding
  show Except.bind (Except.map _ (claim maxFrameLength 4 0)) _ = _
  rcases claim maxFrameLength 4 0 with err | claimed
  · rfl
  show Except.bind (limitedOptionVarint maxFrameLength 64 claimed _) _ =
    Except.map _ (Except.bind (claim maxFrameLength _ claimed) _)
  rw [Bincode.limitedOptionVarint_encodeOptionVarint _ hcorrelation, hpresent]
  rcases claim maxFrameLength (1 + (envelope.correlationId.map fun _ => 8).getD 0) claimed with
    err | claimed
  · rfl
  show Except.bind (limitedByteVec maxFrameLength claimed _) _ =
    Except.map _ (claim maxFrameLength _ claimed)
  rw [Bincode.limitedByteVec_encodeByteVec _ hlength]
  rcases claim maxFrameLength (8 + envelope.payload.length) claimed with err | claimed
  · rfl
  · show Except.ok ((⟨UInt32.ofNat envelope.id.toNat, _, envelope.payload⟩ : Envelope), _) =
      Except.ok _
    rw [hback, UInt32.ofNat_toNat]

/-- What was encoded is decoded to the same envelope, whatever follows it, unless the decoder would
have to claim more than the limit. -/
theorem fromBytes_encodeEnvelope {envelope : Envelope} (rest : List Byte)
    (hlength : envelope.payload.length < 2 ^ 64) :
    fromBytes (encodeEnvelope envelope ++ rest) =
      if claims envelope ≤ maxFrameLength then .ok (envelope, (encodeEnvelope envelope).length)
      else .error .limitExceeded := by
  rw [fromBytes_eq_map rest hlength, claimFields_eq]
  split_ifs
  · rfl
  · rfl

end Envelope

/-- The default serializer: the metadata parser is the full decoder. -/
def bincodeSerializer : Serializer LimitedError where
  parse := Envelope.fromBytes
  shouldDeserializeAfterParse := false
  deserializeWithContext bytes _ := Envelope.fromBytes bytes
  deserialize := Envelope.fromBytes
  isBincodeLimitExceeded err := err = .limitExceeded

/-- A frame that holds one envelope within the limit is parsed to it. -/
theorem parseEnvelope_encodeEnvelope {envelope : Envelope}
    (h : Envelope.claims envelope ≤ maxFrameLength) :
    parseEnvelope bincodeSerializer (encodeEnvelope envelope) =
      .ok (envelope, (encodeEnvelope envelope).length) := by
  have hparse := Envelope.fromBytes_encodeEnvelope [] (Envelope.length_lt_of_claims_le h)
  rw [List.append_nil, if_pos h] at hparse
  unfold parseEnvelope
  simp only [bincodeSerializer, hparse, Bool.false_eq_true, if_false, ne_eq, not_true_eq_false]

end Wireframe
