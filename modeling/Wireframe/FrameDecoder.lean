/-
# The length-delimited frame decoder

The decoder half of the default frame codec (`src/codec/mod.rs`, `codec/error.rs`): it hands
each call to an inner codec and, at the end of the stream, classifies what is left in the
buffer.

The inner codec is third-party code.  It is a parameter here, `InnerCodec`, and what is assumed of
it is stated under three names.

* `InnerCodec.Documented`: it decodes like `LengthFraming.decode` with a four-byte prefix in network
  order, which it takes off the buffer once it has read it, and `decode_eof` is the default one of
  its trait.
* `InnerCodec.Encodes`: it accepts exactly the frames that the configured maximum and the length
  field allow, and appends them behind their length.
* `InnerCodec.EncodesApart`: writing leaves the place of the reader alone.

The classification looks at the buffer only.  Behind a prefix that the inner codec has already
taken off, the buffer starts with payload bytes, so a stream that ends inside a payload is
always reported wrongly (`reportsEnd_iff`).
-/
import Mathlib.Tactic
import Wireframe.Fragment
import Wireframe.LengthFraming
import Wireframe.LengthPrefix

namespace Wireframe

/-! ## Errors -/

/-- EOF handling variants distinguishing normal from premature closure. -/
inductive EofError where
  | cleanClose
  | midFrame (bytesReceived expected : ℕ)
  | midHeader (bytesReceived headerSize : ℕ)
  deriving DecidableEq, Repr

/-- The kinds of error the inner codec raises. -/
inductive IoErrorKind where
  | invalidData
  | other
  deriving DecidableEq, Repr

/-- An error of the decoder: one of the inner codec's, or an EOF error. -/
inductive IoError where
  | inner (kind : IoErrorKind)
  | eof (err : EofError)
  deriving DecidableEq, Repr

/-! ## The decoder -/

/-- Length prefix header size. -/
def lengthHeaderSize : ℕ := 4

/-- Four bytes in network order. -/
def readNetworkU32 (b₀ b₁ b₂ b₃ : Byte) : ℕ :=
  ((b₀.toNat * 256 + b₁.toNat) * 256 + b₂.toNat) * 256 + b₃.toNat

/-- Buffer measurements used to classify clean EOF versus truncation. -/
structure EofContext where
  bytesReceived : ℕ
  expected : Option ℕ
  deriving DecidableEq, Repr

/-- Inspect buffered bytes without consuming them before EOF classification. -/
def EofContext.fromBuffer (src : List Byte) : EofContext where
  bytesReceived := src.length
  expected :=
    match src with
    | b₀ :: b₁ :: b₂ :: b₃ :: _ => some (readNetworkU32 b₀ b₁ b₂ b₃)
    | _ => none

/-- Build the appropriate EOF error based on remaining buffer state. -/
def buildEofError (context : EofContext) : IoError :=
  match context.expected with
  | none => .eof (.midHeader context.bytesReceived lengthHeaderSize)
  | some expected => .eof (.midFrame (context.bytesReceived - lengthHeaderSize) expected)

/-- The codec that the decoder, the encoder and the clients are built on: a fresh state and its
calls, which return a result and leave a state and a buffer. -/
structure InnerCodec where
  State : Type
  new : State
  decode : State → List Byte → Except IoErrorKind (Option (List Byte)) × State × List Byte
  decodeEof : State → List Byte → Except IoErrorKind (Option (List Byte)) × State × List Byte
  encode : State → List Byte → List Byte → Except StdIoError Unit × State × List Byte

namespace LengthDelimitedDecoder

variable (inner : InnerCodec)

/-- The inner codec's next frame. -/
def decode (s : inner.State) (src : List Byte) :
    Except IoError (Option (List Byte)) × inner.State × List Byte :=
  match inner.decode s src with
  | (result, s, src) => (result.mapError .inner, s, src)

/-- The last call, when the stream has ended: a frame, a clean close, or the error that says
what is missing. -/
def decodeEof (s : inner.State) (src : List Byte) :
    Except IoError (Option (List Byte)) × inner.State × List Byte :=
  if src = [] then (.ok none, s, src)
  else
    let eofContext := EofContext.fromBuffer src
    match inner.decodeEof s src with
    | (.ok (some frame), s, src) => (.ok (some frame), s, src)
    | (.ok none, s, src) => (.error (buildEofError eofContext), s, src)
    | (.error kind, s, src) =>
      -- framing errors are kept, everything else is taken for incomplete data
      if kind = .invalidData then (.error (.inner kind), s, src)
      else (.error (buildEofError eofContext), s, src)

/-- Decode a stream that arrives in chunks: after each chunk until no frame is left, then
once at the end.  Returns the frames and the verdict of `decode_eof`. -/
def run (fuel : ℕ) (chunks : List (List Byte)) :
    Option (List (List Byte) × Except IoError (Option (List Byte))) :=
  (LengthFraming.feed (decode inner) fuel chunks inner.new []).map fun r =>
    (r.1, (decodeEof inner r.2.1 r.2.2).1)

end LengthDelimitedDecoder

/-! ## What is assumed of the inner codec -/

/-- The length a prefix announces. -/
def announcedLength : List Byte → ℕ
  | b₀ :: b₁ :: b₂ :: b₃ :: _ => readNetworkU32 b₀ b₁ b₂ b₃
  | _ => 0

/-- Frames behind a four-byte prefix, of at most `maxFrameLength` bytes. -/
def lengthFormat (maxFrameLength : ℕ) : LengthFraming.Format Byte where
  headerLen := lengthHeaderSize
  header_pos := by decide
  announced := announcedLength
  maxLen := maxFrameLength

/-- `Decoder::decode_eof` unless a codec overrides it: bytes that remain are an error. -/
def defaultEof (r : Except IoErrorKind (Option (List Byte)) × List Byte) :
    Except IoErrorKind (Option (List Byte)) :=
  match r with
  | (.ok none, src) => if src = [] then .ok none else .error .other
  | (result, _) => result

/-- The documented behaviour of the inner codec, seen through `view`. -/
structure InnerCodec.Documented (inner : InnerCodec) (maxFrameLength : ℕ)
    (view : inner.State → LengthFraming.DecodeState) : Prop where
  new : view inner.new = .head
  decode : LengthFraming.Implements (lengthFormat maxFrameLength) IoErrorKind.invalidData
    inner.decode view
  decodeEof : ∀ s src, (inner.decodeEof s src).1 =
    defaultEof ((inner.decode s src).1, (inner.decode s src).2.2)

/-- What the builder of an inner codec is told. -/
structure CodecBuilder where
  lengthFieldLength : ℕ
  endianness : Endianness
  maxFrameLength : ℕ
  deriving DecidableEq, Repr

namespace CodecBuilder

/-- The longest frame: it is within the configured maximum, and the length field can hold its
length. -/
def longest (builder : CodecBuilder) : ℕ :=
  min builder.maxFrameLength (256 ^ builder.lengthFieldLength - 1)

/-- A frame on the wire: its length, and the frame. -/
def framed (builder : CodecBuilder) (frame : List Byte) : List Byte :=
  prefixBytes builder.lengthFieldLength builder.endianness frame.length ++ frame

end CodecBuilder

/-- The builder of the default frame codec sets the maximum frame length only; a length field of
four bytes in network order is its default. -/
def newInnerCodec (maxFrameLength : ℕ) : CodecBuilder := ⟨lengthHeaderSize, .big, maxFrameLength⟩

/-- The documented behaviour of the encoder of the inner codec. -/
structure InnerCodec.Encodes (inner : InnerCodec) (builder : CodecBuilder) : Prop where
  accepts : ∀ s item dst, item.length ≤ builder.longest →
    ∃ s', inner.encode s item dst = (.ok (), s', dst ++ builder.framed item)
  refuses : ∀ s item dst, builder.longest < item.length →
    ∃ err s' dst', inner.encode s item dst = (.error err, s', dst')

/-- Writing leaves the place of the reader alone. -/
def InnerCodec.EncodesApart (inner : InnerCodec)
    (view : inner.State → LengthFraming.DecodeState) : Prop :=
  ∀ s item dst, view (inner.encode s item dst).2.1 = view s

/-! ## A codec as documented -/

/-- An encoder as documented; it keeps no state. -/
def referenceEncode {State : Type} (builder : CodecBuilder) (s : State) (item dst : List Byte) :
    Except StdIoError Unit × State × List Byte :=
  if builder.longest < item.length then (.error ⟨.invalidInput, "frame size too big"⟩, s, dst)
  else (.ok (), s, dst ++ builder.framed item)

/-- The inner codec as documented. -/
def referenceCodec (maxFrameLength : ℕ) : InnerCodec where
  State := LengthFraming.DecodeState
  new := .head
  decode := LengthFraming.decode (lengthFormat maxFrameLength) .invalidData
  decodeEof d src :=
    let r := LengthFraming.decode (lengthFormat maxFrameLength) IoErrorKind.invalidData d src
    (defaultEof (r.1, r.2.2), r.2)
  encode := referenceEncode (newInnerCodec maxFrameLength)

/-- What is assumed of a decoder can be met. -/
theorem referenceCodec_documented (maxFrameLength : ℕ) :
    (referenceCodec maxFrameLength).Documented maxFrameLength id where
  new := rfl
  decode := ⟨fun _ _ => rfl, fun _ _ => rfl, fun _ _ => rfl⟩
  decodeEof _ _ := rfl

/-- What is assumed of an encoder can be met, for every builder. -/
theorem encodes_of_referenceEncode {inner : InnerCodec} {builder : CodecBuilder}
    (h : inner.encode = referenceEncode builder) : inner.Encodes builder where
  accepts s item dst hfits := by
    rw [h]
    exact ⟨s, if_neg (Nat.not_lt.mpr hfits)⟩
  refuses s item dst hlong := by
    rw [h]
    exact ⟨_, s, dst, if_pos hlong⟩

/-- Such an encoder does not touch the state at all. -/
theorem referenceCodec_encodesApart (maxFrameLength : ℕ) :
    (referenceCodec maxFrameLength).EncodesApart id := by
  intro s item dst
  show (referenceEncode _ s item dst).2.1 = s
  unfold referenceEncode
  split_ifs <;> rfl

/-! ## The end of the stream -/

open LengthFraming

/-- What `decode_eof` reports when the stream has this tail: it sees the received bytes only. -/
def reported : Tail Byte → Except IoError (Option (List Byte))
  | .boundary => .ok none
  | .header received => .error (buildEofError (.fromBuffer received))
  | .truncated received _ =>
    if received = [] then .ok none else .error (buildEofError (.fromBuffer received))
  | .oversized _ => .error (.inner .invalidData)

/-- What should be reported: how far into the header or the frame the stream ended. -/
def Verdict : Tail Byte → Except IoError (Option (List Byte)) → Prop
  | .boundary, result => result = .ok none
  | .header received, result =>
    result = .error (.eof (.midHeader received.length lengthHeaderSize))
  | .truncated received expected, result =>
    result = .error (.eof (.midFrame received.length expected))
  | .oversized _, _ => True

section Classify

variable {src : List Byte} {n : ℕ}

/-- Fewer bytes than a prefix are reported as a part of one. -/
theorem buildEofError_of_short (h : src.length < lengthHeaderSize) :
    buildEofError (.fromBuffer src) = .eof (.midHeader src.length lengthHeaderSize) := by
  rcases src with _ | ⟨b₀, _ | ⟨b₁, _ | ⟨b₂, _ | ⟨b₃, rest⟩⟩⟩⟩
  · rfl
  · rfl
  · rfl
  · rfl
  · simp only [List.length_cons, lengthHeaderSize] at h
    omega

/-- Four bytes are always taken for a prefix and left out of the count. -/
theorem buildEofError_ne_midFrame (hne : src ≠ []) :
    buildEofError (.fromBuffer src) ≠ .eof (.midFrame src.length n) := by
  intro h
  by_cases hshort : src.length < lengthHeaderSize
  · rw [buildEofError_of_short hshort] at h
    cases h
  · rcases src with _ | ⟨b₀, _ | ⟨b₁, _ | ⟨b₂, _ | ⟨b₃, rest⟩⟩⟩⟩
    · exact hne rfl
    all_goals
      simp only [buildEofError, EofContext.fromBuffer, IoError.eof.injEq, EofError.midFrame.injEq,
        List.length_cons, lengthHeaderSize, reduceCtorEq] at h
    omega

/-- The report is right except for a stream that ends inside a payload, where it never is. -/
theorem verdict_reported_iff {tail : Tail Byte} {maxFrameLength : ℕ} {d : DecodeState}
    (h : AtRest (lengthFormat maxFrameLength) d src tail) :
    Verdict tail (reported tail) ↔ ∀ received n, tail ≠ .truncated received n := by
  cases tail with
  | boundary => simp [Verdict, reported]
  | header received =>
    obtain ⟨-, -, -, hshort⟩ := h
    have hreport := buildEofError_of_short hshort
    simp [Verdict, reported, hreport]
  | oversized n => simp [Verdict]
  | truncated received n =>
    refine ⟨fun hverdict => ?_, fun hnot => absurd rfl (hnot received n)⟩
    simp only [Verdict, reported] at hverdict
    by_cases hempty : received = []
    · rw [if_pos hempty] at hverdict
      cases hverdict
    · rw [if_neg hempty] at hverdict
      exact absurd (Except.error.inj hverdict) (buildEofError_ne_midFrame hempty)

end Classify

namespace LengthDelimitedDecoder

variable {inner : InnerCodec} {maxFrameLength : ℕ} {view : inner.State → DecodeState}
  {s : inner.State} {src : List Byte}

/-- The decoder is the inner codec up to its errors. -/
theorem implements_decode (h : inner.Documented maxFrameLength view) :
    Implements (lengthFormat maxFrameLength) (.inner .invalidData) (decode inner) view := by
  have heq : decode inner =
      fun s src => ((inner.decode s src).1.mapError IoError.inner, (inner.decode s src).2) := by
    funext s src
    rfl
  rw [heq]
  exact h.decode.mapError IoError.inner

/-- `decode_eof` follows the inner codec's verdict on a buffer that is not empty. -/
theorem decodeEof_of_error {kind : IoErrorKind} (hne : src ≠ [])
    (h : (inner.decodeEof s src).1 = .error kind) :
    (decodeEof inner s src).1 = .error
      (if kind = .invalidData then .inner kind else buildEofError (.fromBuffer src)) := by
  rcases hinner : inner.decodeEof s src with ⟨result, s', src'⟩
  rw [hinner] at h
  subst h
  unfold decodeEof
  rw [if_neg hne]
  simp only [hinner]
  split_ifs <;> rfl

/-- The inner codec fails at the end when it waits for more. -/
theorem inner_decodeEof_waiting (h : inner.Documented maxFrameLength view) (hne : src ≠ [])
    {tail : Tail Byte} (hrest : AtRest (lengthFormat maxFrameLength) (view s) src tail)
    (htail : ∀ n, tail ≠ .oversized n) : (inner.decodeEof s src).1 = .error .other := by
  rw [h.decodeEof, h.decode.result, h.decode.buffer, hrest.decode_waiting htail]
  exact if_neg hne

/-- **At the end of the stream** the tail decides what is reported. -/
theorem decodeEof_atRest (h : inner.Documented maxFrameLength view) {tail : Tail Byte}
    (hrest : AtRest (lengthFormat maxFrameLength) (view s) src tail) :
    (decodeEof inner s src).1 = reported tail := by
  -- Behind a prefix the buffer may be empty: that is reported like a boundary.
  by_cases hempty : src = []
  · have hdone : (decodeEof inner s src).1 = .ok none := by
      unfold decodeEof
      rw [if_pos hempty]
    rw [hdone]
    cases tail with
    | boundary => rfl
    | header received =>
      obtain ⟨-, rfl, hne, -⟩ := hrest
      exact absurd hempty hne
    | truncated received n =>
      obtain ⟨-, rfl, -⟩ := hrest
      exact (if_pos hempty).symm
    | oversized n =>
      obtain ⟨-, hlen, -⟩ := hrest
      have hpos := (lengthFormat maxFrameLength).header_pos
      rw [hempty, List.length_nil] at hlen
      omega
  · cases tail with
    | boundary => exact absurd hrest.2 hempty
    | header received =>
      rw [decodeEof_of_error hempty (inner_decodeEof_waiting h hempty hrest (by simp))]
      obtain ⟨-, rfl, -⟩ := hrest
      rfl
    | truncated received n =>
      rw [decodeEof_of_error hempty (inner_decodeEof_waiting h hempty hrest (by simp))]
      obtain ⟨-, rfl, -⟩ := hrest
      exact (if_neg hempty).symm
    | oversized n =>
      have hinner : (inner.decodeEof s src).1 = .error .invalidData := by
        rw [h.decodeEof, h.decode.result, h.decode.buffer, hrest.decode_oversized]
        rfl
      rw [decodeEof_of_error hempty hinner]
      rfl

/-- Every way of cutting a stream gives its frames and the report on its tail. -/
theorem run_spec (h : inner.Documented maxFrameLength view) {chunks : List (List Byte)} {fuel : ℕ}
    (hfuel : chunks.flatten.length < fuel) :
    ∃ frames tail d buf, run inner fuel chunks = some (frames, reported tail) ∧
      Splits (lengthFormat maxFrameLength) chunks.flatten frames tail ∧
      AtRest (lengthFormat maxFrameLength) d buf tail := by
  have hstart : Rests (lengthFormat maxFrameLength) view inner.new [] [] .boundary := by
    refine ⟨?_, .boundary, h.new, rfl⟩
    rw [h.new]
    rfl
  obtain ⟨frames, s, buf, u, tail, hfeed, hrests, hsplits⟩ :=
    feed_spec (implements_decode h) hstart hfuel
  refine ⟨frames, tail, view s, buf, ?_, hsplits, hrests.atRest⟩
  unfold run
  rw [hfeed, Option.map_some, decodeEof_atRest h hrests.atRest]

/-- The frames and the final result are those of the stream `b`, however it is cut, and the
result says where in the stream it ended. -/
def ReportsEnd (inner : InnerCodec) (maxFrameLength : ℕ) (b : List Byte) : Prop :=
  ∃ frames tail result, Splits (lengthFormat maxFrameLength) b frames tail ∧
    (∀ chunks fuel, chunks.flatten = b → b.length < fuel →
      run inner fuel chunks = some (frames, result)) ∧
    Verdict tail result

/-- **End of stream**: a stream is reported as it should be, for every way of cutting it into
chunks, exactly when it does not end inside the payload of a frame. -/
theorem reportsEnd_iff (h : inner.Documented maxFrameLength view) (b : List Byte) :
    ReportsEnd inner maxFrameLength b ↔
      ¬ ∃ frames received n,
        Splits (lengthFormat maxFrameLength) b frames (.truncated received n) := by
  have hcut : ([b] : List (List Byte)).flatten = b := by simp
  obtain ⟨frames, tail, d, buf, hrun, hsplits, hrest⟩ :=
    run_spec h (Nat.lt_succ_self ([b] : List (List Byte)).flatten.length)
  rw [hcut] at hrun hsplits
  constructor
  · rintro ⟨frames₁, tail₁, result, hsplits₁, hruns, hverdict⟩ ⟨frames₂, received, n, hsplits₂⟩
    obtain ⟨rfl, rfl⟩ := hsplits₁.unique hsplits
    have hresult := hruns [b] _ hcut (Nat.lt_succ_self b.length)
    rw [hrun] at hresult
    obtain rfl : reported tail₁ = result := (Prod.mk.inj (Option.some.inj hresult)).2
    exact (verdict_reported_iff hrest).mp hverdict received n (hsplits₁.unique hsplits₂).2
  · intro hnot
    refine ⟨frames, tail, reported tail, hsplits, ?_, ?_⟩
    · intro chunks fuel hflatten hfuel
      subst hflatten
      obtain ⟨frames', tail', _, _, hrun', hsplits', -⟩ := run_spec h hfuel
      obtain ⟨rfl, rfl⟩ := hsplits'.unique hsplits
      exact hrun'
    · apply (verdict_reported_iff hrest).mpr
      rintro received n rfl
      exact hnot ⟨frames, received, n, hsplits⟩

/-- A stream of one frame of one byte ends on a boundary. -/
theorem reportsEnd_one_byte : ReportsEnd (referenceCodec 1024) 1024 [0, 0, 0, 1, 7] := by
  have hsplits : Splits (lengthFormat 1024) ([0, 0, 0, 1] ++ ([7] ++ [])) [[7]] .boundary :=
    .frame rfl (by decide) rfl .boundary
  refine (reportsEnd_iff (referenceCodec_documented 1024) _).mpr ?_
  rintro ⟨frames, received, n, htruncated⟩
  cases (hsplits.unique htruncated).2

/-- A stream that ends behind the prefix of a frame of five bytes is reported as a clean end. -/
theorem bare_prefix_ends_cleanly :
    run (referenceCodec 1024) 5 [[0, 0, 0, 5]] = some ([], .ok none) ∧
      ¬ ReportsEnd (referenceCodec 1024) 1024 [0, 0, 0, 5] := by
  have hrun : run (referenceCodec 1024) 5 [[0, 0, 0, 5]] = some ([], .ok none) := rfl
  refine ⟨hrun, ?_⟩
  rintro ⟨frames, tail, result, hsplits, hruns, hverdict⟩
  have htruncated : Splits (lengthFormat 1024) ([0, 0, 0, 5] ++ []) [] (.truncated [] 5) :=
    .truncated rfl (by decide) (by decide)
  obtain ⟨-, rfl⟩ := hsplits.unique htruncated
  rw [hruns [[0, 0, 0, 5]] 5 rfl (by decide)] at hrun
  obtain rfl : result = .ok none := (Prod.mk.inj (Option.some.inj hrun)).2
  cases hverdict

end LengthDelimitedDecoder

end Wireframe
