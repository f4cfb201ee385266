/-
# The frame codecs

The codecs that turn frames into bytes and back: the default one, which puts the length in front
of each frame (`src/codec/mod.rs`), and the two of `src/codec/examples.rs`, for Hotline and MySQL.
Each is a decoder and an encoder over a buffer of the transport.

* `LengthDelimitedEncoder.run_written`: what the default encoder has written is decoded to the same
  frames and a clean end.
* `HotlineAdapter.readChunks_written`, `MysqlAdapter.readChunks_iff`: the same for the two other
  codecs, for a stream that has arrived up to any point.  The MySQL decoder accepts nothing else.

The default codec is built on the third-party one that `FrameDecoder` describes, with its encoder
(`InnerCodec.Encodes`).  Its decoder takes a header off the buffer before the frame is complete, so
its streams are described by `LengthFraming`; the other two leave the buffer alone until then and
are decoders of `GrowingBuffer`.
-/
import Mathlib.Data.Nat.Bitwise
import Mathlib.Tactic
import Wireframe.FrameDecoder
import Wireframe.GrowingBuffer
import Wireframe.InboundHandler
import Wireframe.LengthPrefix

namespace Wireframe

open Bincode (leBytes ofLeBytes)
open GrowingBuffer (writeAll readChunks headed)

/-! ## Words in network order -/

/-- `BufMut::put_u32`. -/
def putU32 (n : ℕ) : List Byte := (leBytes 4 n).reverse

/-- `Buf::get_u32`, of the four bytes from `offset` on. -/
def getU32 (src : List Byte) (offset : ℕ) : ℕ := ofLeBytes ((src.drop offset).take 4).reverse

@[simp] theorem length_putU32 (n : ℕ) : (putU32 n).length = 4 := by
  rw [putU32, List.length_reverse, Bincode.length_leBytes]

theorem getU32_append {offset n : ℕ} (before after : List Byte) (hbefore : before.length = offset)
    (hn : n < 2 ^ 32) : getU32 (before ++ (putU32 n ++ after)) offset = n := by
  rw [getU32, List.drop_left' hbefore, List.take_left' (length_putU32 n), putU32,
    List.reverse_reverse]
  exact Bincode.ofLeBytes_leBytes 4 n hn

/-- A word inside a part of the buffer can be read off that part. -/
theorem getU32_take {offset size : ℕ} (src : List Byte) (h : offset + 4 ≤ size) :
    getU32 (src.take size) offset = getU32 src offset := by
  rw [getU32, getU32, List.drop_take, List.take_take, Nat.min_eq_left (by omega)]

/-! ## The default codec -/

/-- Frame-level errors during wire protocol parsing; of the five kinds the encoder raises one. -/
inductive FramingError where
  | oversizedFrame (size max : ℕ)
  deriving DecidableEq, Repr

/-- The error of a send: the codec's own refusal of the frame, or any other. -/
inductive TransportError where
  | framing (err : FramingError)
  | io (err : StdIoError)
  deriving DecidableEq, Repr

namespace LengthDelimitedEncoder

/-- A frame on the wire: the length in network order and the frame. -/
def framed (frame : List Byte) : List Byte := putU32 frame.length ++ frame

/-- Reject frames beyond the configured length, then delegate to the inner codec.  The encoder keeps
the inner codec's state beside the buffer. -/
def encode (inner : InnerCodec) (maxFrameLength : ℕ) (item : List Byte) :
    inner.State × List Byte → Except TransportError Unit × inner.State × List Byte
  | (s, dst) =>
    if item.length > maxFrameLength then
      (.error (.framing (.oversizedFrame item.length maxFrameLength)), s, dst)
    else
      match inner.encode s item dst with
      | (result, s, dst) => (result.mapError .io, s, dst)

/-! ### What is written -/

section Written

variable {inner : InnerCodec} {maxFrameLength : ℕ}

/-- Up to four gigabytes, the inner codec of the default codec adds no limit to the configured one,
and writes the length in network order. -/
theorem newInnerCodec_longest (hmax : maxFrameLength < 2 ^ 32) :
    (newInnerCodec maxFrameLength).longest = maxFrameLength :=
  min_eq_left (Nat.le_sub_one_of_lt hmax)

/-- A frame that is short enough is appended. -/
theorem encode_of_le (hinner : inner.Encodes (newInnerCodec maxFrameLength))
    (hmax : maxFrameLength < 2 ^ 32) {item : List Byte} (hfits : item.length ≤ maxFrameLength)
    (s : inner.State) (dst : List Byte) :
    ∃ s', encode inner maxFrameLength item (s, dst) = (.ok (), s', dst ++ framed item) := by
  obtain ⟨s', hencode⟩ := hinner.accepts s item dst (by rw [newInnerCodec_longest hmax]; exact hfits)
  refine ⟨s', ?_⟩
  rw [encode, if_neg (Nat.not_lt.mpr hfits), hencode]
  rfl

/-- What was accepted was short enough. -/
theorem le_of_encode {item : List Byte} {left left' : inner.State × List Byte}
    (h : encode inner maxFrameLength item left = (.ok (), left')) :
    item.length ≤ maxFrameLength := by
  by_contra hlong
  rw [encode, if_pos (Nat.not_le.mp hlong)] at h
  cases h

/-- Frames that are short enough are written one behind the other. -/
theorem writeAll_encode_of_le (hinner : inner.Encodes (newInnerCodec maxFrameLength))
    (hmax : maxFrameLength < 2 ^ 32) {frames : List (List Byte)}
    (hfits : ∀ frame ∈ frames, frame.length ≤ maxFrameLength) (s : inner.State) (dst : List Byte) :
    ∃ s', writeAll (encode inner maxFrameLength) frames (s, dst) =
      (.ok (), s', dst ++ frames.flatMap framed) := by
  induction frames generalizing s dst with
  | nil => exact ⟨s, by rw [List.flatMap_nil, List.append_nil]; rfl⟩
  | cons frame frames ih =>
    rw [List.forall_mem_cons] at hfits
    obtain ⟨s₁, hencode⟩ := encode_of_le hinner hmax hfits.1 s dst
    obtain ⟨s₂, hrest⟩ := ih hfits.2 s₁ (dst ++ framed frame)
    refine ⟨s₂, ?_⟩
    rw [writeAll, hencode, List.flatMap_cons, ← List.append_assoc]
    exact hrest

/-- All frames that were written were short enough. -/
theorem le_of_writeAll_encode {frames : List (List Byte)} {left left' : inner.State × List Byte}
    (h : writeAll (encode inner maxFrameLength) frames left = (.ok (), left')) :
    ∀ frame ∈ frames, frame.length ≤ maxFrameLength := by
  induction frames generalizing left with
  | nil => simp
  | cons frame frames ih =>
    rw [writeAll] at h
    rcases hcall : encode inner maxFrameLength frame left with ⟨_ | _, left₁⟩
    · rw [hcall] at h
      cases h
    · rw [hcall] at h
      exact List.forall_mem_cons.mpr ⟨le_of_encode hcall, ih h⟩

end Written

/-! ### What is read -/

/-- The length in network order, as the decoder reads it. -/
theorem announcedLength_putU32 {n : ℕ} (hn : n < 2 ^ 32) : announcedLength (putU32 n) = n := by
  have hread : ∀ b₀ b₁ b₂ b₃ : Byte,
      announcedLength [b₀, b₁, b₂, b₃] = ofLeBytes [b₃, b₂, b₁, b₀] := by
    intro b₀ b₁ b₂ b₃
    simp only [announcedLength, readNetworkU32, ofLeBytes]
    ring
  exact (hread _ _ _ _).trans (Bincode.ofLeBytes_leBytes 4 n hn)

/-- Frames on the wire split into the frames, for every receiver that allows their length. -/
theorem splits_framed {maxFrameLength : ℕ} (hmax : maxFrameLength < 2 ^ 32)
    {frames : List (List Byte)} (hfits : ∀ frame ∈ frames, frame.length ≤ maxFrameLength) :
    LengthFraming.Splits (lengthFormat maxFrameLength) (frames.flatMap framed) frames
      .boundary := by
  induction frames with
  | nil => exact .boundary
  | cons frame frames ih =>
    rw [List.forall_mem_cons] at hfits
    obtain ⟨hframe, hframes⟩ := hfits
    have hannounced : announcedLength (putU32 frame.length) = frame.length :=
      announcedLength_putU32 (by omega)
    rw [List.flatMap_cons, framed, List.append_assoc]
    exact .frame (length_putU32 _) (hannounced.trans_le hframe) hannounced.symm (ih hframes)

/-- The largest frame a codec built with `LengthDelimitedFrameCodec::new` allows. -/
theorem clampFrameLength_lt (value : ℕ) : clampFrameLength value < 2 ^ 32 := by
  have hle : clampFrameLength value ≤ 16 * 1024 * 1024 :=
    max_le (by decide) (min_le_right _ _)
  omega

/-- **The default codec.**  Frames that the encoder of a codec has accepted arrive as the same
frames and a clean end of the stream, however it is cut into chunks and whatever frame length the
codec was asked for.  The encoder and the decoder are built on inner codecs of one kind. -/
theorem run_written {inner : InnerCodec} {view : inner.State → LengthFraming.DecodeState}
    {value fuel : ℕ} {frames chunks : List (List Byte)} {s : inner.State}
    (hdecodes : inner.Documented (clampFrameLength value) view)
    (hencodes : inner.Encodes (newInnerCodec (clampFrameLength value)))
    (hwrite : writeAll (encode inner (clampFrameLength value)) frames (inner.new, []) =
      (.ok (), s, chunks.flatten))
    (hfuel : chunks.flatten.length < fuel) :
    LengthDelimitedDecoder.run inner fuel chunks = some (frames, .ok none) := by
  have hsmall := clampFrameLength_lt value
  have hfits := le_of_writeAll_encode hwrite
  have hwire : chunks.flatten = frames.flatMap framed := by
    obtain ⟨s', hall⟩ := writeAll_encode_of_le hencodes hsmall hfits inner.new []
    rw [hall] at hwrite
    exact (Prod.mk.inj (Prod.mk.inj hwrite).2).2.symm
  obtain ⟨frames', tail, -, -, hrun, hsplits, -⟩ :=
    LengthDelimitedDecoder.run_spec hdecodes hfuel
  rw [hwire] at hsplits
  obtain ⟨rfl, rfl⟩ := hsplits.unique (splits_framed hsmall hfits)
  exact hrun

/-- Two frames that arrive in three chunks. -/
theorem run_written_two :
    LengthDelimitedDecoder.run (referenceCodec (clampFrameLength 0)) 12
        [[0, 0, 0], [1, 7, 0, 0], [0, 2, 8, 9]] = some ([[7], [8, 9]], .ok none) :=
  run_written (s := .head) (referenceCodec_documented (clampFrameLength 0))
    (encodes_of_referenceEncode rfl) rfl (by decide)

end LengthDelimitedEncoder

/-! ## Hotline -/

/-- A frame of the Hotline protocol. -/
structure HotlineFrame where
  transactionId : UInt32
  payload : List Byte
  deriving DecidableEq, Repr

namespace HotlineAdapter

def headerLen : ℕ := 20

/-- Twenty bytes of header: the size of the payload, the size of the frame, the transaction id and
eight bytes that are not looked at. -/
def decode (maxFrameLength : ℕ) (src : List Byte) :
    Except StdIoError (Option HotlineFrame) × List Byte :=
  if src.length < headerLen then (.ok none, src)
  else
    let dataSize := getU32 src 0
    let totalSize := getU32 src 4
    let transactionId := getU32 src 8
    if dataSize > maxFrameLength then (.error ⟨.invalidData, "payload too large"⟩, src)
    else if totalSize ≠ dataSize + headerLen then
      (.error ⟨.invalidData, "invalid total size"⟩, src)
    else if src.length < totalSize then (.ok none, src)
    else
      (.ok (some ⟨UInt32.ofNat transactionId, (src.take totalSize).drop headerLen⟩),
        src.drop totalSize)

/-- All checks come before the first byte is written. -/
def encode (maxFrameLength : ℕ) (item : HotlineFrame) (dst : List Byte) :
    Except StdIoError Unit × List Byte :=
  let payloadSize := item.payload.length
  let frameSize := payloadSize + headerLen
  if payloadSize > maxFrameLength then (.error ⟨.invalidInput, "payload too large"⟩, dst)
  else if 2 ^ 32 ≤ payloadSize then (.error ⟨.invalidInput, "payload too large"⟩, dst)
  else if 2 ^ 32 ≤ frameSize then (.error ⟨.invalidInput, "payload too large"⟩, dst)
  else
    (.ok (), dst ++ (putU32 payloadSize ++ (putU32 frameSize ++
      (putU32 item.transactionId.toNat ++ (List.replicate 8 0 ++ item.payload)))))

/-- What the decoder makes of a header. -/
def inspect (maxFrameLength : ℕ) (header : List Byte) : Except StdIoError ℕ :=
  if getU32 header 0 > maxFrameLength then .error ⟨.invalidData, "payload too large"⟩
  else if getU32 header 4 ≠ getU32 header 0 + headerLen then
    .error ⟨.invalidData, "invalid total size"⟩
  else .ok (getU32 header 0)

/-- What the decoder makes of the bytes of a frame. -/
def build (bytes : List Byte) : HotlineFrame :=
  ⟨UInt32.ofNat (getU32 bytes 8), bytes.drop headerLen⟩

/-- The adapter reads a header, then as many bytes as it says. -/
theorem decode_eq_headed (maxFrameLength : ℕ) :
    decode maxFrameLength = headed headerLen (inspect maxFrameLength) build := by
  funext src
  simp only [decode, headed, inspect]
  have hzero : getU32 (src.take headerLen) 0 = getU32 src 0 := getU32_take src (by decide)
  have hfour : getU32 (src.take headerLen) 4 = getU32 src 4 := getU32_take src (by decide)
  rw [hzero, hfour]
  by_cases hshort : src.length < headerLen
  · rw [if_pos hshort, if_pos hshort]
  rw [if_neg hshort, if_neg hshort]
  by_cases hlarge : getU32 src 0 > maxFrameLength
  · rw [if_pos hlarge, if_pos hlarge]
  rw [if_neg hlarge, if_neg hlarge]
  by_cases htotal : getU32 src 4 = getU32 src 0 + headerLen
  · rw [if_neg (not_not.mpr htotal), if_neg (not_not.mpr htotal), htotal,
      Nat.add_comm (getU32 src 0)]
    have hid : getU32 (src.take (headerLen + getU32 src 0)) 8 = getU32 src 8 :=
      getU32_take src (by unfold headerLen; omega)
    simp only [build, hid]
  · rw [if_pos htotal, if_pos htotal]

theorem incremental (maxFrameLength : ℕ) :
    GrowingBuffer.Incremental (decode maxFrameLength) := by
  rw [decode_eq_headed]
  exact GrowingBuffer.headed_incremental (by decide)

/-- What the encoder writes is read back, at the head of any stream. -/
theorem roundTrips (maxFrameLength : ℕ) :
    GrowingBuffer.RoundTrips (encode maxFrameLength) (decode maxFrameLength) fun _ => True := by
  rintro ⟨id, payload⟩ dst dst' - hwrite
  simp only [encode] at hwrite
  split_ifs at hwrite with hlarge hword hframe
  · cases hwrite
  · cases hwrite
  · cases hwrite
  cases hwrite
  refine ⟨_, rfl, fun rest => ?_⟩
  -- the header, with its reserved bytes, and the three words in it
  set size := payload.length with hsize
  set header := putU32 size ++ (putU32 (size + headerLen) ++
    (putU32 id.toNat ++ List.replicate 8 (0 : Byte))) with hheader
  have hlength : header.length = headerLen := by
    simp only [hheader, List.length_append, length_putU32, List.length_replicate]
    rfl
  have hdata : getU32 header 0 = size := getU32_append [] _ rfl (by omega)
  have htotal : getU32 header 4 = size + headerLen :=
    getU32_append (putU32 size) _ (length_putU32 _) (by omega)
  have hid : getU32 header 8 = id.toNat := by
    rw [hheader, ← List.append_assoc]
    exact getU32_append _ _ rfl id.toNat_lt
  have hinspect : inspect maxFrameLength header = .ok payload.length := by
    rw [inspect, hdata, htotal, if_neg (by omega), if_neg (by simp)]
  have hbytes : putU32 size ++ (putU32 (size + headerLen) ++
      (putU32 id.toNat ++ (List.replicate 8 0 ++ payload))) = header ++ payload := by
    simp only [hheader, List.append_assoc]
  have hbuild : build (header ++ payload) = ⟨id, payload⟩ := by
    have htake : (header ++ payload).take headerLen = header := List.take_left' hlength
    have hword : getU32 (header ++ payload) 8 = id.toNat := by
      rw [← getU32_take (header ++ payload) (show 8 + 4 ≤ headerLen by decide), htake, hid]
    rw [build, hword, UInt32.ofNat_toNat, List.drop_left' hlength]
  rw [hbytes, decode_eq_headed, GrowingBuffer.headed_append hlength hinspect, hbuild]

/-- **Hotline streams.**  Frames that were written, with their transaction ids, are read back as far
as they have arrived, in whatever chunks; what is missing never makes the decoder fail. -/
theorem readChunks_written {maxFrameLength : ℕ} {frames : List HotlineFrame}
    {chunks : List (List Byte)} {missing : List Byte}
    (hwrite : writeAll (encode maxFrameLength) frames [] = (.ok (), chunks.flatten ++ missing)) :
    ∃ read later rest, readChunks (decode maxFrameLength) chunks [] = (read, .waiting rest) ∧
      frames = read ++ later ∧
      GrowingBuffer.Reads (decode maxFrameLength) (rest ++ missing) later (.waiting []) ∧
      (missing = [] → later = [] ∧ rest = []) :=
  GrowingBuffer.readChunks_writeAll (incremental _) (roundTrips _) (fun _ _ => trivial) hwrite

/-- Two frames; the last byte of the second is on its way. -/
theorem readChunks_written_two :
    ∃ read later rest,
      readChunks (decode 8) [putU32 1 ++ putU32 21 ++ [0], [0, 0, 9] ++ List.replicate 8 0,
        [5] ++ putU32 2 ++ putU32 22 ++ putU32 10 ++ List.replicate 8 0 ++ [6]] [] =
          (read, .waiting rest) ∧
      [⟨9, [5]⟩, ⟨10, [6, 7]⟩] = read ++ later ∧
      GrowingBuffer.Reads (decode 8) (rest ++ [7]) later (.waiting []) ∧
      (([7] : List Byte) = [] → later = [] ∧ rest = []) :=
  readChunks_written (by decide)

end HotlineAdapter

/-! ## MySQL -/

/-- A packet of the MySQL protocol. -/
structure MysqlFrame where
  sequenceId : Byte
  payload : List Byte
  deriving DecidableEq, Repr

namespace MysqlAdapter

def headerLen : ℕ := 4

/-- Three bytes of length, the least significant first, and the sequence id. -/
def decode (maxFrameLength : ℕ) (src : List Byte) :
    Except StdIoError (Option MysqlFrame) × List Byte :=
  match src with
  | lo :: mid :: hi :: sequenceId :: _ =>
    let len := lo.toNat ||| (mid.toNat <<< 8) ||| (hi.toNat <<< 16)
    if len > maxFrameLength then (.error ⟨.invalidData, "payload too large"⟩, src)
    else if src.length < headerLen + len then (.ok none, src)
    else
      (.ok (some ⟨sequenceId, (src.take (headerLen + len)).drop headerLen⟩),
        src.drop (headerLen + len))
  | _ => (.ok none, src)

/-- Only the first of the two length checks names the configured limit. -/
def encode (maxFrameLength : ℕ) (item : MysqlFrame) (dst : List Byte) :
    Except StdIoError Unit × List Byte :=
  let payloadLen := item.payload.length
  if payloadLen > maxFrameLength then (.error ⟨.invalidInput, "payload too large"⟩, dst)
  else if payloadLen > 0xffffff then (.error ⟨.invalidInput, "payload too long"⟩, dst)
  else
    let lenLo := UInt8.ofNat (payloadLen &&& 0xff)
    let lenMid := UInt8.ofNat ((payloadLen >>> 8) &&& 0xff)
    let lenHi := UInt8.ofNat ((payloadLen >>> 16) &&& 0xff)
    (.ok (), dst ++ (lenLo :: lenMid :: lenHi :: item.sequenceId :: item.payload))

/-- The three bytes of the length are those of a little-endian word. -/
theorem lenBytes_eq (n : ℕ) :
    [UInt8.ofNat (n &&& 0xff), UInt8.ofNat ((n >>> 8) &&& 0xff),
      UInt8.ofNat ((n >>> 16) &&& 0xff)] = leBytes 3 n := by
  have hmask : ∀ k, k &&& 0xff = k % 256 := fun k => Nat.and_two_pow_sub_one_eq_mod k 8
  simp only [hmask, Nat.shiftRight_eq_div_pow, leBytes, Nat.div_div_eq_div_mul]

theorem lenValue_eq (lo mid hi : Byte) :
    lo.toNat ||| (mid.toNat <<< 8) ||| (hi.toNat <<< 16) = ofLeBytes [lo, mid, hi] := by
  have hlo : lo.toNat < 2 ^ 8 := lo.toNat_lt
  have hmid : mid.toNat < 2 ^ 8 := mid.toNat_lt
  have hor : ∀ {a b i : ℕ}, b < 2 ^ i → b ||| (a <<< i) = 2 ^ i * a + b := by
    intro a b i hb
    rw [Nat.lor_comm, Nat.shiftLeft_eq, Nat.mul_comm, Nat.two_pow_add_eq_or_of_lt hb]
  rw [hor hlo, hor (by omega)]
  simp only [ofLeBytes]
  ring

def inspect (maxFrameLength : ℕ) (header : List Byte) : Except StdIoError ℕ :=
  if ofLeBytes (header.take 3) > maxFrameLength then .error ⟨.invalidData, "payload too large"⟩
  else .ok (ofLeBytes (header.take 3))

def build (bytes : List Byte) : MysqlFrame := ⟨bytes.getD 3 0, bytes.drop headerLen⟩

/-- The adapter reads a header, then as many bytes as it says. -/
theorem decode_eq_headed (maxFrameLength : ℕ) :
    decode maxFrameLength = headed headerLen (inspect maxFrameLength) build := by
  funext src
  rcases src with _ | ⟨lo, _ | ⟨mid, _ | ⟨hi, _ | ⟨sequenceId, payload⟩⟩⟩⟩
  · rfl
  · rfl
  · rfl
  · rfl
  have hheader : ¬ (lo :: mid :: hi :: sequenceId :: payload).length < headerLen := by
    simp [headerLen]
  have htake : (lo :: mid :: hi :: sequenceId :: payload).take headerLen =
      [lo, mid, hi, sequenceId] := rfl
  have hthree : ([lo, mid, hi, sequenceId] : List Byte).take 3 = [lo, mid, hi] := rfl
  simp only [decode, headed, inspect, htake, hthree, lenValue_eq]
  rw [if_neg hheader]
  by_cases hlarge : ofLeBytes [lo, mid, hi] > maxFrameLength
  · rw [if_pos hlarge, if_pos hlarge]
  rw [if_neg hlarge, if_neg hlarge]
  have hcut : (lo :: mid :: hi :: sequenceId :: payload).take
      (headerLen + ofLeBytes [lo, mid, hi]) =
        lo :: mid :: hi :: sequenceId :: payload.take (ofLeBytes [lo, mid, hi]) := by
    rw [headerLen, Nat.add_comm]
    rfl
  simp only [hcut]
  rfl

theorem incremental (maxFrameLength : ℕ) :
    GrowingBuffer.Incremental (decode maxFrameLength) := by
  rw [decode_eq_headed]
  exact GrowingBuffer.headed_incremental (by decide)

/-- The encoder writes a header that the decoder reads back. -/
theorem encode_eq (maxFrameLength : ℕ) (item : MysqlFrame) (dst : List Byte)
    (hmax : item.payload.length ≤ maxFrameLength) (hword : item.payload.length < 256 ^ 3) :
    encode maxFrameLength item dst =
      (.ok (), dst ++ ((leBytes 3 item.payload.length ++ [item.sequenceId]) ++ item.payload)) := by
  simp only [encode]
  rw [if_neg (by omega), if_neg (by omega), ← lenBytes_eq]
  rfl

/-- What the encoder writes is read back, at the head of any stream. -/
theorem roundTrips (maxFrameLength : ℕ) :
    GrowingBuffer.RoundTrips (encode maxFrameLength) (decode maxFrameLength) fun _ => True := by
  rintro ⟨sequenceId, payload⟩ dst dst' - hwrite
  have hfits : payload.length ≤ maxFrameLength ∧ payload.length < 256 ^ 3 := by
    simp only [encode] at hwrite
    split_ifs at hwrite with hlarge hlong
    · cases hwrite
    · cases hwrite
    · omega
  rw [encode_eq maxFrameLength _ dst hfits.1 hfits.2] at hwrite
  cases hwrite
  refine ⟨_, rfl, fun rest => ?_⟩
  have hlength : (leBytes 3 payload.length ++ [sequenceId]).length = headerLen := by
    rw [List.length_append, Bincode.length_leBytes]
    rfl
  have hinspect :
      inspect maxFrameLength (leBytes 3 payload.length ++ [sequenceId]) = .ok payload.length := by
    rw [inspect, List.take_left' (Bincode.length_leBytes 3 _),
      Bincode.ofLeBytes_leBytes 3 _ hfits.2, if_neg (by omega)]
  rw [decode_eq_headed, GrowingBuffer.headed_append hlength hinspect]
  rfl

/-- Three bytes are the word of their value. -/
theorem leBytes_ofLeBytes (lo mid hi : Byte) :
    leBytes 3 (ofLeBytes [lo, mid, hi]) = [lo, mid, hi] := by
  have hlo := lo.toNat_lt
  have hmid := mid.toNat_lt
  have hhi := hi.toNat_lt
  have hword : ofLeBytes [lo, mid, hi] = lo.toNat + 256 * (mid.toNat + 256 * hi.toNat) := by
    simp [ofLeBytes]
  have hfirst : ofLeBytes [lo, mid, hi] % 256 = lo.toNat := by omega
  have hsecond : ofLeBytes [lo, mid, hi] / 256 % 256 = mid.toNat := by omega
  have hthird : ofLeBytes [lo, mid, hi] / 256 / 256 % 256 = hi.toNat := by omega
  simp only [leBytes, hfirst, hsecond, hthird, UInt8.ofNat_toNat]

/-- A frame that is decoded is encoded to the bytes it came from. -/
theorem canonical (maxFrameLength : ℕ) :
    GrowingBuffer.Canonical (encode maxFrameLength) (decode maxFrameLength) := by
  intro src frame rest hdecode
  rw [decode_eq_headed] at hdecode
  obtain ⟨header, payload, rfl, hheader, hinspect, rfl⟩ := GrowingBuffer.headed_eq_some hdecode
  obtain ⟨lo, mid, hi, sequenceId, rfl⟩ :
      ∃ lo mid hi sequenceId, header = [lo, mid, hi, sequenceId] :=
    List.length_eq_four.mp hheader
  have htake : ([lo, mid, hi, sequenceId] : List Byte).take 3 = [lo, mid, hi] := rfl
  rw [inspect, htake] at hinspect
  split_ifs at hinspect with hlarge
  have hlength : ofLeBytes [lo, mid, hi] = payload.length := Except.ok.inj hinspect
  have hword : payload.length < 256 ^ 3 := by
    have hlo := lo.toNat_lt
    have hmid := mid.toNat_lt
    have hhi := hi.toNat_lt
    rw [← hlength]
    simp only [ofLeBytes]
    omega
  refine ⟨[lo, mid, hi, sequenceId] ++ payload, rfl, fun dst => ?_⟩
  have hbuild : build ([lo, mid, hi, sequenceId] ++ payload) = ⟨sequenceId, payload⟩ := rfl
  rw [hbuild, encode_eq maxFrameLength _ dst (by simp only; omega) hword]
  simp only [← hlength, leBytes_ofLeBytes]
  rfl

/-- **MySQL streams.**  A stream, in whatever chunks, is read as these packets and an incomplete
rest exactly when it is what the encoder writes for the packets, followed by that rest. -/
theorem readChunks_iff {maxFrameLength : ℕ} {frames : List MysqlFrame} {chunks : List (List Byte)}
    {rest : List Byte} :
    readChunks (decode maxFrameLength) chunks [] = (frames, .waiting rest) ↔
      ∃ wire, writeAll (encode maxFrameLength) frames [] = (.ok (), wire) ∧
        chunks.flatten = wire ++ rest ∧ decode maxFrameLength rest = (.ok none, rest) :=
  GrowingBuffer.readChunks_waiting_iff (incremental _) (roundTrips _) (canonical _)

end MysqlAdapter

end Wireframe
