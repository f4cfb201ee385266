/-
# Streaming sends of the client

`WireframeClient::send_streaming` (`src/client/send_streaming.rs`) reads a body piece by piece and
sends each piece behind a copy of the caller's header as one frame.  The size of a piece comes from
the maximum frame length alone, while the codec the frames go through
(`src/client/codec_config.rs`) also refuses what its length prefix cannot express.  That codec is
third-party code and a parameter; `InnerCodec.Encodes` is what is assumed of it.

* `sendStreamingInner_handed`: whatever the transport does and wherever the deadline strikes, the
  frames handed to the codec are those of the first chunks of the body;
* `sendStreaming_delivers_iff`: when nothing interferes, all of the body is sent exactly when no
  frame outgrows the length prefix.
-/
import Mathlib.Tactic
import Wireframe.FrameDecoder
import Wireframe.ShortReads

namespace Wireframe

open ShortReads (Reader)

/-! ## The codec of a client -/

def clientMinFrameLength : ℕ := 64

def clientMaxFrameLength : ℕ := 16 * 1024 * 1024

def clientDefaultMaxFrameLength : ℕ := 1024

/-- Codec configuration for the client; setting the maximum frame length clamps it. -/
structure ClientCodecConfig where
  lengthFormat : LengthFormat
  maxFrameLength : ℕ
  min_le : clientMinFrameLength ≤ maxFrameLength
  le_max : maxFrameLength ≤ clientMaxFrameLength
  deriving DecidableEq, Repr

namespace ClientCodecConfig

/-- Four bytes in network order and frames of at most a kilobyte. -/
def default : ClientCodecConfig :=
  ⟨LengthFormat.u32Be, clientDefaultMaxFrameLength, by decide, by decide⟩

/-- Set the length prefix format used by the codec. -/
def withLengthFormat (cfg : ClientCodecConfig) (lengthFormat : LengthFormat) : ClientCodecConfig :=
  { cfg with lengthFormat := lengthFormat }

/-- Build the framed transport codec with the configured wire limits. -/
def buildCodec (cfg : ClientCodecConfig) : CodecBuilder where
  lengthFieldLength := cfg.lengthFormat.bytes
  endianness := cfg.lengthFormat.endianness
  maxFrameLength := cfg.maxFrameLength

end ClientCodecConfig

/-! ## Streaming -/

/-- Configuration for outbound streaming sends. -/
structure SendStreamingConfig where
  chunkSize : Option ℕ
  timeout : Option ℕ
  deriving DecidableEq, Repr

/-- Compute the effective chunk size for outbound streaming. -/
def effectiveChunkSize (headerLen maxFrameLength : ℕ) (config : SendStreamingConfig) :
    Except StdIoError ℕ :=
  if maxFrameLength ≤ headerLen then
    .error ⟨.invalidInput,
      "frame header length meets or exceeds max frame length; no room for body data"⟩
  else
    let available := maxFrameLength - headerLen
    let size := match config.chunkSize with
      | none => available
      | some requested => min requested available
    if size = 0 then .error ⟨.invalidInput, "chunk size must be greater than zero"⟩
    else .ok size

/-- What stops a flush. -/
inductive Interruption where
  | failed (err : StdIoError)
  | elapsed
  deriving DecidableEq, Repr

/-- What the transport and the clock do: whether the deadline passes while the `n`-th read waits,
and what stops the flush of the `n`-th frame. -/
structure Surroundings where
  elapsesAtRead : ℕ → Bool
  stopsFlush : ℕ → Option Interruption

/-- Nothing interferes. -/
def Surroundings.quiet : Surroundings := ⟨fun _ => false, fun _ => none⟩

/-- Without a time-out no deadline passes. -/
def Surroundings.untimed (env : Surroundings) : Surroundings where
  elapsesAtRead := fun _ => false
  stopsFlush := fun n => match env.stopsFlush n with
    | some (.failed err) => some (.failed err)
    | _ => none

/-- What a call has done so far: the state it left the codec in, the frames it handed to the codec,
the bytes the codec made of them, the frames it counted, the errors it showed the hook, and whether
it shut the connection down. -/
structure StreamingSend (κ : Type) where
  codec : κ
  handed : List (List Byte)
  wire : List Byte
  framesSent : ℕ
  hooked : List StdIoError
  shutDown : Bool
  deriving DecidableEq, Repr

/-- A call on a connection whose codec is in this state. -/
def StreamingSend.start {κ : Type} (codec : κ) : StreamingSend κ := ⟨codec, [], [], 0, [], false⟩

/-- Show the hook an error. -/
def StreamingSend.invokeErrorHook {κ : Type} (s : StreamingSend κ) (err : StdIoError) :
    StreamingSend κ :=
  { s with hooked := s.hooked ++ [err] }

/-- How the inner future ended: it returned, or the deadline dropped it. -/
inductive InnerOutcome where
  | returned (result : Except StdIoError ℕ)
  | elapsed
  deriving DecidableEq

/-- The largest number of frames that can be counted. -/
def u64Max : ℕ := 2 ^ 64 - 1

/-- Core loop: read chunks from the body and send framed packets. -/
def sendStreamingInner (inner : InnerCodec) (env : Surroundings) (frameHeader : List Byte)
    (chunkSize : ℕ) (s : StreamingSend inner.State) (body : Reader Byte StdIoError) :
    Except Panic (InnerOutcome × StreamingSend inner.State) :=
  if env.elapsesAtRead s.framesSent then .ok (.elapsed, s)
  else
    match _hread : body.read chunkSize with
    | (.error err, _) => .ok (.returned (.error err), s.invokeErrorHook err)
    | (.ok [], _) => .ok (.returned (.ok s.framesSent), s)
    | (.ok (b :: rest), body) =>
      if chunkSize < (b :: rest).length then
        -- returned with `?`, past the hook
        .ok (.returned (.error ⟨.invalidData, "read returned more bytes than buffer length"⟩), s)
      else
        let frame := frameHeader ++ b :: rest
        let s := { s with handed := s.handed ++ [frame] }
        match inner.encode s.codec frame s.wire with
        | (.error err, codec, wire) =>
          .ok (.returned (.error err), { s with codec := codec, wire := wire }.invokeErrorHook err)
        | (.ok (), codec, wire) =>
          let s := { s with codec := codec, wire := wire }
          match env.stopsFlush s.framesSent with
          | some (.failed err) => .ok (.returned (.error err), s.invokeErrorHook err)
          | some .elapsed => .ok (.elapsed, s)
          | none =>
            if s.framesSent = u64Max then .error .arithmeticOverflow
            else
              sendStreamingInner inner env frameHeader chunkSize
                { s with framesSent := s.framesSent + 1 } body
termination_by body.bytes.length
decreasing_by
  have hsplit := (Reader.read_some _hread (List.cons_ne_nil b rest)).1
  rw [hsplit, List.length_append, List.length_cons]
  omega

/-- Send a large body as multiple frames, reading from an async source. -/
def sendStreaming (inner : InnerCodec) (codec : inner.State) (cfg : ClientCodecConfig)
    (config : SendStreamingConfig) (env : Surroundings) (frameHeader : List Byte)
    (body : Reader Byte StdIoError) :
    Except Panic (Except StdIoError ℕ × StreamingSend inner.State) :=
  match effectiveChunkSize frameHeader.length cfg.maxFrameLength config with
  | .error err => .ok (.error err, (StreamingSend.start codec).invokeErrorHook err)
  | .ok size =>
    let env := if config.timeout.isSome then env else env.untimed
    match sendStreamingInner inner env frameHeader size (.start codec) body with
    | .error panic => .error panic
    | .ok (.returned result, s) => .ok (result, s)
    | .ok (.elapsed, s) =>
      -- the write side is shut down so that buffered codec state cannot leak
      let err : StdIoError := ⟨.timedOut, "streaming send timed out"⟩
      .ok (.error err, { s with shutDown := true }.invokeErrorHook err)

/-! ## One turn of the loop -/

section Turn

variable {inner : InnerCodec} {env : Surroundings} {frameHeader chunk : List Byte}
  {chunkSize : ℕ} {s : StreamingSend inner.State} {body body' : Reader Byte StdIoError}

/-- A frame has been handed to the codec, which left this state and this buffer. -/
def StreamingSend.hand {κ : Type} (s : StreamingSend κ) (frame : List Byte) (codec : κ)
    (wire : List Byte) : StreamingSend κ :=
  { s with codec := codec, handed := s.handed ++ [frame], wire := wire }

/-- A turn that reads a chunk. -/
theorem sendStreamingInner_turn (hread : body.read chunkSize = (.ok chunk, body'))
    (hne : chunk ≠ []) : sendStreamingInner inner env frameHeader chunkSize s body =
      if env.elapsesAtRead s.framesSent then .ok (.elapsed, s)
      else
        match inner.encode s.codec (frameHeader ++ chunk) s.wire with
        | (.error err, codec, wire) =>
          .ok (.returned (.error err), (s.hand (frameHeader ++ chunk) codec wire).invokeErrorHook err)
        | (.ok (), codec, wire) =>
          match env.stopsFlush s.framesSent with
          | some (.failed err) => .ok (.returned (.error err),
              (s.hand (frameHeader ++ chunk) codec wire).invokeErrorHook err)
          | some .elapsed => .ok (.elapsed, s.hand (frameHeader ++ chunk) codec wire)
          | none =>
            if s.framesSent = u64Max then .error .arithmeticOverflow
            else sendStreamingInner inner env frameHeader chunkSize
              { s.hand (frameHeader ++ chunk) codec wire with framesSent := s.framesSent + 1 }
              body' := by
  obtain ⟨b, rest, rfl⟩ := List.exists_cons_of_ne_nil hne
  have hlen := (Reader.read_some hread hne).2.1
  rw [sendStreamingInner]
  split
  · rfl
  split
  · rename_i hread'
    exact absurd (hread.symm.trans hread') (by simp)
  · rename_i hread'
    exact absurd (hread.symm.trans hread') (by simp)
  · rename_i b' rest' body'' hread'
    obtain ⟨hchunk, rfl⟩ := Prod.mk.inj (hread.symm.trans hread')
    obtain ⟨rfl, rfl⟩ := List.cons.inj (Except.ok.inj hchunk)
    rw [if_neg (Nat.not_lt.mpr hlen)]
    rfl

/-- What a call reports at the end of the body. -/
def endResult (ending : Option StdIoError) (framesSent : ℕ) : Except StdIoError ℕ :=
  match ending with
  | none => .ok framesSent
  | some err => .error err

/-- The hook sees the failure of the body, if it fails. -/
def StreamingSend.finish {κ : Type} (s : StreamingSend κ) (ending : Option StdIoError) :
    StreamingSend κ :=
  { s with hooked := s.hooked ++ ending.toList }

/-- The turn behind the last byte of the body. -/
theorem sendStreamingInner_end (hsize : 0 < chunkSize) (hend : body.bytes = []) :
    sendStreamingInner inner env frameHeader chunkSize s body =
      if env.elapsesAtRead s.framesSent then .ok (.elapsed, s)
      else .ok (.returned (endResult body.ending s.framesSent), s.finish body.ending) := by
  rw [sendStreamingInner]
  split
  · rfl
  split
  · rename_i hread
    rw [(Reader.read_error hread).2]
    rfl
  · rename_i hread
    rw [(Reader.read_nil hread hsize).2, endResult, StreamingSend.finish, Option.toList_none,
      List.append_nil]
  · rename_i hread
    have hsplit := (Reader.read_some hread (List.cons_ne_nil _ _)).1
    rw [hend] at hsplit
    cases hsplit

/-- **Only frames of the body are handed over, in order**: whatever the transport does and
wherever the deadline strikes, they are those of the first chunks. -/
theorem sendStreamingInner_handed (hsize : 0 < chunkSize) (body : Reader Byte StdIoError)
    (s : StreamingSend inner.State) {outcome : InnerOutcome} {s' : StreamingSend inner.State}
    (h : sendStreamingInner inner env frameHeader chunkSize s body = .ok (outcome, s')) :
    ∃ k, s'.handed = s.handed ++ ((body.chunks chunkSize).take k).map (frameHeader ++ ·) := by
  induction body using Reader.chunk_induction hsize generalizing s with
  | stop body hend =>
    rw [sendStreamingInner_end hsize hend] at h
    refine ⟨0, ?_⟩
    rw [List.take_zero, List.map_nil, List.append_nil]
    split at h
    · cases h
      rfl
    · cases h
      rfl
  | turn body chunk body' hread hne ih =>
    have hone : s.handed ++ [frameHeader ++ chunk] =
        s.handed ++ ((body.chunks chunkSize).take 1).map (frameHeader ++ ·) := by
      rw [Reader.chunks_of_some hread hne]
      rfl
    rw [sendStreamingInner_turn hread hne] at h
    split at h
    · cases h
      exact ⟨0, by rw [List.take_zero, List.map_nil, List.append_nil]⟩
    split at h
    · cases h
      exact ⟨1, hone⟩
    split at h
    · cases h
      exact ⟨1, hone⟩
    · cases h
      exact ⟨1, hone⟩
    · split at h
      · cases h
      · obtain ⟨k, hk⟩ := ih _ h
        refine ⟨k + 1, ?_⟩
        rw [hk, Reader.chunks_of_some hread hne, List.take_succ_cons, List.map_cons]
        show s.handed ++ [frameHeader ++ chunk] ++ _ = _
        rw [List.append_assoc, List.singleton_append]

end Turn

/-! ## When nothing interferes -/

section Quiet

variable {inner : InnerCodec} {builder : CodecBuilder} {frameHeader : List Byte} {chunkSize : ℕ}

/-- The frames were handed over, put on the wire and counted, and left the codec in this state. -/
def StreamingSend.sent {κ : Type} (s : StreamingSend κ) (builder : CodecBuilder) (codec : κ)
    (frames : List (List Byte)) : StreamingSend κ :=
  { s with
    codec := codec
    handed := s.handed ++ frames
    wire := s.wire ++ (frames.map builder.framed).flatten
    framesSent := s.framesSent + frames.length }

/-- **Frames that fit**: all of them are sent, unless they cannot be counted. -/
theorem sendStreamingInner_quiet (hinner : inner.Encodes builder) (hsize : 0 < chunkSize)
    (body : Reader Byte StdIoError) (s : StreamingSend inner.State) (hs : s.framesSent ≤ u64Max)
    (hfits : ∀ chunk ∈ body.chunks chunkSize,
      frameHeader.length + chunk.length ≤ builder.longest) :
    ∃ codec, sendStreamingInner inner .quiet frameHeader chunkSize s body =
      if s.framesSent + (body.chunks chunkSize).length ≤ u64Max then
        .ok (.returned (endResult body.ending (s.framesSent + (body.chunks chunkSize).length)),
          (s.sent builder codec ((body.chunks chunkSize).map (frameHeader ++ ·))).finish body.ending)
      else .error .arithmeticOverflow := by
  induction body using Reader.chunk_induction hsize generalizing s with
  | stop body hend =>
    refine ⟨s.codec, ?_⟩
    rw [sendStreamingInner_end hsize hend, Reader.chunks_of_end hend,
      if_neg (by simp [Surroundings.quiet]), List.length_nil, Nat.add_zero, if_pos hs]
    simp [StreamingSend.sent]
  | turn body chunk body' hread hne ih =>
    rw [Reader.chunks_of_some hread hne] at hfits
    have hfit := hfits chunk List.mem_cons_self
    rw [← List.length_append] at hfit
    obtain ⟨codec, hencode⟩ := hinner.accepts s.codec (frameHeader ++ chunk) s.wire hfit
    rw [sendStreamingInner_turn hread hne, if_neg (by simp [Surroundings.quiet]), hencode,
      Reader.chunks_of_some hread hne, List.length_cons]
    simp only [Surroundings.quiet]
    by_cases hfull : s.framesSent = u64Max
    · refine ⟨codec, ?_⟩
      rw [if_pos hfull, if_neg (by omega)]
    · rw [if_neg hfull]
      obtain ⟨codec', hrest⟩ := ih
        { s.hand (frameHeader ++ chunk) codec (s.wire ++ builder.framed (frameHeader ++ chunk)) with
          framesSent := s.framesSent + 1 } (by show s.framesSent + 1 ≤ u64Max; omega)
        fun c hc => hfits c (List.mem_cons_of_mem _ hc)
      refine ⟨codec', hrest.trans ?_⟩
      rw [(Reader.read_some hread hne).2.2, Nat.add_assoc, Nat.add_comm 1]
      congr 4
      simp [StreamingSend.sent, StreamingSend.hand, Nat.add_assoc, Nat.add_comm 1]

/-- **A frame that does not fit**: the codec refuses it, and the call fails with it. -/
theorem sendStreamingInner_oversized (hinner : inner.Encodes builder) (hsize : 0 < chunkSize)
    (body : Reader Byte StdIoError) (s : StreamingSend inner.State)
    (hbig : ∃ chunk ∈ body.chunks chunkSize,
      builder.longest < frameHeader.length + chunk.length) :
    sendStreamingInner inner .quiet frameHeader chunkSize s body = .error .arithmeticOverflow ∨
      ∃ err s', sendStreamingInner inner .quiet frameHeader chunkSize s body =
        .ok (.returned (.error err), s') ∧ ∃ frame ∈ s'.handed, builder.longest < frame.length := by
  induction body using Reader.chunk_induction hsize generalizing s with
  | stop body hend =>
    rw [Reader.chunks_of_end hend] at hbig
    simp at hbig
  | turn body chunk body' hread hne ih =>
    rw [sendStreamingInner_turn hread hne, if_neg (by simp [Surroundings.quiet])]
    by_cases hfit : builder.longest < (frameHeader ++ chunk).length
    · obtain ⟨err, codec, wire, hencode⟩ :=
        hinner.refuses s.codec (frameHeader ++ chunk) s.wire hfit
      rw [hencode]
      exact Or.inr ⟨err, _, rfl, frameHeader ++ chunk, by simp [StreamingSend.hand,
        StreamingSend.invokeErrorHook], hfit⟩
    · obtain ⟨codec, hencode⟩ :=
        hinner.accepts s.codec (frameHeader ++ chunk) s.wire (Nat.not_lt.mp hfit)
      rw [hencode]
      simp only [Surroundings.quiet]
      by_cases hfull : s.framesSent = u64Max
      · exact Or.inl (if_pos hfull)
      · rw [if_neg hfull]
        refine ih _ ?_
        obtain ⟨c, hc, hcbig⟩ := hbig
        rw [Reader.chunks_of_some hread hne] at hc
        rcases List.mem_cons.mp hc with rfl | hc
        · rw [← List.length_append] at hcbig
          exact absurd hcbig hfit
        · exact ⟨c, hc, hcbig⟩

end Quiet

/-! ## Sending a body -/

section SendStreaming

variable {inner : InnerCodec} {codec : inner.State} {cfg : ClientCodecConfig}
  {config : SendStreamingConfig} {frameHeader : List Byte} {body : Reader Byte StdIoError}

/-- The room for body bytes in a frame, by the maximum frame length and the requested size. -/
def chunkRoom (cfg : ClientCodecConfig) (config : SendStreamingConfig) (frameHeader : List Byte) :
    ℕ :=
  min (config.chunkSize.getD (cfg.maxFrameLength - frameHeader.length))
    (cfg.maxFrameLength - frameHeader.length)

/-- The configuration is rejected: the call fails before it reads anything. -/
def Rejects (cfg : ClientCodecConfig) (config : SendStreamingConfig) (frameHeader : List Byte) :
    Prop :=
  ∃ err, effectiveChunkSize frameHeader.length cfg.maxFrameLength config = .error err

/-- All of the body was sent: each frame is the header and a non-empty chunk, the chunks are the
body, the result counts the frames (or is the body's own failure), and every frame is short enough
for the configured maximum and for the length prefix, so that the codec accepts it. -/
def Delivers (inner : InnerCodec) (cfg : ClientCodecConfig) (frameHeader : List Byte)
    (body : Reader Byte StdIoError)
    (outcome : Except Panic (Except StdIoError ℕ × StreamingSend inner.State)) : Prop :=
  ∃ (s : StreamingSend inner.State) (chunks : List (List Byte)),
    outcome = .ok (endResult body.ending chunks.length, s) ∧
    s.handed = chunks.map (frameHeader ++ ·) ∧ (∀ chunk ∈ chunks, chunk ≠ []) ∧
    chunks.flatten = body.bytes ∧
    ∀ frame ∈ s.handed, frame.length ≤ cfg.maxFrameLength ∧
      frame.length < 256 ^ cfg.lengthFormat.bytes ∧
      ∀ c dst, (inner.encode c frame dst).1 = .ok ()

/-- The configuration is rejected, or all of the body is sent when nothing interferes, whatever
state earlier sends have left the codec in. -/
def SendsBody (inner : InnerCodec) (cfg : ClientCodecConfig) (config : SendStreamingConfig)
    (frameHeader : List Byte) (body : Reader Byte StdIoError) : Prop :=
  Rejects cfg config frameHeader ∨ ∀ codec,
    Delivers inner cfg frameHeader body (sendStreaming inner codec cfg config .quiet frameHeader body)

theorem effectiveChunkSize_of_pos (h : 0 < chunkRoom cfg config frameHeader) :
    effectiveChunkSize frameHeader.length cfg.maxFrameLength config =
      .ok (chunkRoom cfg config frameHeader) := by
  obtain ⟨chunkSize, timeout⟩ := config
  have hshort : ¬ cfg.maxFrameLength ≤ frameHeader.length := by
    unfold chunkRoom at h
    omega
  rw [effectiveChunkSize, if_neg hshort]
  cases chunkSize with
  | none =>
    simp only [chunkRoom, Option.getD_none, min_self] at h ⊢
    exact if_neg (Nat.pos_iff_ne_zero.mp h)
  | some requested =>
    simp only [chunkRoom, Option.getD_some] at h ⊢
    exact if_neg (Nat.pos_iff_ne_zero.mp h)

/-- A configuration is rejected exactly when a frame has no room for a chunk. -/
theorem rejects_iff : Rejects cfg config frameHeader ↔ chunkRoom cfg config frameHeader = 0 := by
  constructor
  · rintro ⟨err, herr⟩
    by_contra hne
    rw [effectiveChunkSize_of_pos (Nat.pos_of_ne_zero hne)] at herr
    cases herr
  · intro hzero
    unfold chunkRoom at hzero
    rw [Rejects, effectiveChunkSize]
    split
    · exact ⟨_, rfl⟩
    · refine ⟨_, if_pos ?_⟩
      rcases hsize : config.chunkSize with _ | requested
      · rw [hsize] at hzero
        simpa using hzero
      · rw [hsize] at hzero
        exact hzero

/-- The call is its loop, once the configuration is admitted. -/
theorem sendStreaming_quiet (h : 0 < chunkRoom cfg config frameHeader) :
    sendStreaming inner codec cfg config .quiet frameHeader body =
      match sendStreamingInner inner .quiet frameHeader (chunkRoom cfg config frameHeader)
          (.start codec) body with
      | .error panic => .error panic
      | .ok (.returned result, s) => .ok (result, s)
      | .ok (.elapsed, s) => .ok (.error ⟨.timedOut, "streaming send timed out"⟩,
          { s with shutDown := true }.invokeErrorHook ⟨.timedOut, "streaming send timed out"⟩) := by
  have henv : (if config.timeout.isSome then Surroundings.quiet else Surroundings.quiet.untimed) =
      Surroundings.quiet := by
    split
    · rfl
    · rfl
  rw [sendStreaming, effectiveChunkSize_of_pos h]
  simp only [henv]

/-- The codec accepts exactly the frames that the length prefix can express. -/
theorem length_le_longest {chunk : List Byte}
    (hchunk : chunk.length ≤ chunkRoom cfg config frameHeader) (hne : chunk ≠ []) :
    frameHeader.length + chunk.length ≤ cfg.buildCodec.longest ↔
      frameHeader.length + chunk.length < 256 ^ cfg.lengthFormat.bytes := by
  have hpos := List.length_pos_iff.mpr hne
  have hpow : 0 < 256 ^ cfg.lengthFormat.bytes := Nat.pow_pos (by decide)
  unfold chunkRoom at hchunk
  show _ ≤ min cfg.maxFrameLength (256 ^ cfg.lengthFormat.bytes - 1) ↔ _
  omega

/-- Frames that the length prefix can express are all sent. -/
theorem delivers_of_fits (hinner : inner.Encodes cfg.buildCodec)
    (hroom : 0 < chunkRoom cfg config frameHeader)
    (hfits : ∀ chunk ∈ body.chunks (chunkRoom cfg config frameHeader),
      frameHeader.length + chunk.length < 256 ^ cfg.lengthFormat.bytes)
    (hcount : (body.chunks (chunkRoom cfg config frameHeader)).length ≤ u64Max) :
    Delivers inner cfg frameHeader body
      (sendStreaming inner codec cfg config .quiet frameHeader body) := by
  have hmem := Reader.mem_chunks hroom body
  have haccept : ∀ chunk ∈ body.chunks (chunkRoom cfg config frameHeader),
      frameHeader.length + chunk.length ≤ cfg.buildCodec.longest := by
    intro chunk hchunk
    exact (length_le_longest (hmem chunk hchunk).2 (hmem chunk hchunk).1).mpr
      (hfits chunk hchunk)
  obtain ⟨codec', hsends⟩ :=
    sendStreamingInner_quiet hinner hroom body (.start codec) (Nat.zero_le _) haccept
  rw [if_pos (by show 0 + _ ≤ _; omega)] at hsends
  refine ⟨((StreamingSend.start codec).sent cfg.buildCodec codec' ((body.chunks (chunkRoom cfg
    config frameHeader)).map (frameHeader ++ ·))).finish body.ending, _, ?_, rfl,
    fun c hc => (hmem c hc).1, Reader.flatten_chunks hroom body, ?_⟩
  · rw [sendStreaming_quiet hroom, hsends]
    simp only [StreamingSend.start, Nat.zero_add]
  · intro frame hframe
    obtain ⟨chunk, hchunk, rfl⟩ := List.mem_map.mp hframe
    have hle := haccept chunk hchunk
    rw [List.length_append]
    refine ⟨hle.trans (min_le_left _ _), hfits chunk hchunk, fun c dst => ?_⟩
    rw [← List.length_append] at hle
    obtain ⟨c', hencode⟩ := hinner.accepts c (frameHeader ++ chunk) dst hle
    rw [hencode]

/-- For every body and every way to read it. -/
theorem sendsBody_iff (hinner : inner.Encodes cfg.buildCodec) :
    SendsBody inner cfg config frameHeader body ↔
    chunkRoom cfg config frameHeader = 0 ∨
      ((∀ chunk ∈ body.chunks (chunkRoom cfg config frameHeader),
          frameHeader.length + chunk.length < 256 ^ cfg.lengthFormat.bytes) ∧
        (body.chunks (chunkRoom cfg config frameHeader)).length ≤ u64Max) := by
  rcases Nat.eq_zero_or_pos (chunkRoom cfg config frameHeader) with hzero | hroom
  · exact ⟨fun _ => Or.inl hzero, fun _ => Or.inl (rejects_iff.mpr hzero)⟩
  constructor
  · rintro (hreject | hdelivers)
    · exact Or.inl (rejects_iff.mp hreject)
    obtain ⟨s, chunks, hout, -, -, -, hframes⟩ := hdelivers inner.new
    right
    rw [sendStreaming_quiet hroom] at hout
    have hmem := Reader.mem_chunks hroom body
    have hfits : ∀ chunk ∈ body.chunks (chunkRoom cfg config frameHeader),
        frameHeader.length + chunk.length ≤ cfg.buildCodec.longest := by
      -- otherwise the codec would have refused a frame it was handed
      by_contra hbig
      push Not at hbig
      rcases sendStreamingInner_oversized hinner hroom body (.start inner.new) hbig with
        hpanic | ⟨err, s', hfails, frame, hframe, hlong⟩
      · rw [hpanic] at hout
        cases hout
      · rw [hfails] at hout
        obtain ⟨-, rfl⟩ := Prod.mk.inj (Except.ok.inj hout)
        obtain ⟨-, -, haccept⟩ := hframes frame hframe
        obtain ⟨_, _, _, hrefuse⟩ := hinner.refuses inner.new frame [] hlong
        have hdst := haccept inner.new []
        rw [hrefuse] at hdst
        cases hdst
    refine ⟨fun chunk hchunk => ?_, ?_⟩
    · exact (length_le_longest (hmem chunk hchunk).2 (hmem chunk hchunk).1).mp
        (hfits chunk hchunk)
    · by_contra hmany
      obtain ⟨_, hpanics⟩ :=
        sendStreamingInner_quiet hinner hroom body (.start inner.new) (Nat.zero_le _) hfits
      rw [hpanics, if_neg (by show ¬ 0 + _ ≤ _; omega)] at hout
      cases hout
  · rintro (hzero | ⟨hfits, hcount⟩)
    · exact Or.inl (rejects_iff.mpr hzero)
    · exact Or.inr fun codec => delivers_of_fits hinner hroom hfits hcount

/-- In the closed form, for all bodies that can be counted. -/
theorem forall_sendsBody_iff (hinner : inner.Encodes cfg.buildCodec) :
    (∀ body : Reader Byte StdIoError, body.bytes.length ≤ u64Max →
        SendsBody inner cfg config frameHeader body) ↔
      chunkRoom cfg config frameHeader = 0 ∨ frameHeader.length + chunkRoom cfg config frameHeader <
        256 ^ cfg.lengthFormat.bytes := by
  rcases Nat.eq_zero_or_pos (chunkRoom cfg config frameHeader) with hzero | hroom
  · exact ⟨fun _ => Or.inl hzero, fun _ body _ => Or.inl (rejects_iff.mpr hzero)⟩
  constructor
  · intro hall
    right
    have hlen : (List.replicate (chunkRoom cfg config frameHeader) (0 : Byte)).length =
        chunkRoom cfg config frameHeader := List.length_replicate
    have hsmall : chunkRoom cfg config frameHeader ≤ u64Max := by
      have hmax := cfg.le_max
      have hconst : clientMaxFrameLength ≤ u64Max := by decide
      unfold chunkRoom
      omega
    -- a body that fills the buffer with its first read
    rcases (sendsBody_iff hinner).mp
      (hall (Reader.whole (List.replicate _ 0)) (hlen.trans_le hsmall)) with hzero | ⟨hfits, -⟩
    · omega
    · rw [Reader.chunks_whole (List.ne_nil_of_length_pos (by omega)) hlen.le] at hfits
      have hfit := hfits _ List.mem_cons_self
      rwa [hlen] at hfit
  · rintro (hzero | hfits) body hbody
    · omega
    · refine (sendsBody_iff hinner).mpr (Or.inr ⟨fun chunk hchunk => ?_, ?_⟩)
      · have hle := (Reader.mem_chunks hroom body chunk hchunk).2
        omega
      · exact (Reader.length_chunks_le hroom body).trans hbody

/-- **The whole body is sent exactly when no frame outgrows the length prefix.**  First for every
body and every way to read it; then, for all bodies that can be counted, in the closed form. -/
theorem sendStreaming_delivers_iff {inner : InnerCodec} (cfg : ClientCodecConfig)
    (hinner : inner.Encodes cfg.buildCodec) (config : SendStreamingConfig)
    (frameHeader : List Byte) :
    (∀ body, SendsBody inner cfg config frameHeader body ↔ chunkRoom cfg config frameHeader = 0 ∨
      ((∀ chunk ∈ body.chunks (chunkRoom cfg config frameHeader),
          frameHeader.length + chunk.length < 256 ^ cfg.lengthFormat.bytes) ∧
        (body.chunks (chunkRoom cfg config frameHeader)).length ≤ u64Max)) ∧
    ((∀ body : Reader Byte StdIoError, body.bytes.length ≤ u64Max →
        SendsBody inner cfg config frameHeader body) ↔
      chunkRoom cfg config frameHeader = 0 ∨ frameHeader.length + chunkRoom cfg config frameHeader <
        256 ^ cfg.lengthFormat.bytes) :=
  ⟨fun _ => sendsBody_iff hinner, forall_sendsBody_iff hinner⟩

/-- Under the default configuration a header of four bytes leaves room in every frame. -/
theorem sendStreaming_delivers_two :
    SendsBody (referenceCodec clientDefaultMaxFrameLength) .default ⟨none, none⟩ [1, 2, 3, 4]
      (Reader.whole [5, 6]) :=
  (sendStreaming_delivers_iff .default (encodes_of_referenceEncode rfl) ⟨none, none⟩
    [1, 2, 3, 4]).2.mpr (.inr (by decide)) _ (by decide)

/-- A prefix of one byte under the default maximum frame length. -/
def oneByteConfig : ClientCodecConfig :=
  ClientCodecConfig.default.withLengthFormat ⟨1, .big, by decide, by decide⟩

/-- A codec whose encoder is as documented under that configuration. -/
def oneByteCodec : InnerCodec :=
  { referenceCodec clientDefaultMaxFrameLength with
    encode := referenceEncode oneByteConfig.buildCodec }

/-- Three hundred body bytes in one read: the frame is within the maximum frame length of 1024, and
the codec with its prefix of one byte refuses it. -/
theorem oneByteCodec_refuses : oneByteCodec.Encodes oneByteConfig.buildCodec ∧
    (∃ err s, sendStreaming oneByteCodec oneByteCodec.new oneByteConfig ⟨none, none⟩ .quiet []
        (Reader.whole (List.replicate 300 7)) = .ok (.error err, s) ∧
      s.handed = [List.replicate 300 7]) ∧
    ¬ Rejects oneByteConfig ⟨none, none⟩ [] ∧
    ¬ SendsBody oneByteCodec oneByteConfig ⟨none, none⟩ [] (Reader.whole (List.replicate 300 7)) := by
  have hinner : oneByteCodec.Encodes oneByteConfig.buildCodec := encodes_of_referenceEncode rfl
  have hroom : chunkRoom oneByteConfig ⟨none, none⟩ [] = 1024 := by decide
  have hlen : (List.replicate 300 (7 : Byte)).length = 300 := List.length_replicate
  have hne : List.replicate 300 (7 : Byte) ≠ [] := List.ne_nil_of_length_pos (by omega)
  have hread := Reader.read_whole (ε := StdIoError) hne (hlen.trans_le (by decide : 300 ≤ 1024))
  have hlong : oneByteConfig.buildCodec.longest < ([] ++ List.replicate 300 (7 : Byte)).length := by
    rw [List.nil_append, hlen]
    decide
  obtain ⟨err, codec, wire, hencode⟩ := hinner.refuses oneByteCodec.new _ [] hlong
  refine ⟨hinner, ⟨err, ((StreamingSend.start oneByteCodec.new).hand ([] ++ List.replicate 300 7)
    codec wire).invokeErrorHook err, ?_, rfl⟩, ?_, ?_⟩
  · rw [sendStreaming_quiet (by rw [hroom]; decide), hroom, sendStreamingInner_turn hread hne,
      if_neg (by simp [Surroundings.quiet])]
    simp only [StreamingSend.start, hencode]
  · rw [rejects_iff, hroom]
    decide
  · rw [sendsBody_iff hinner, hroom, Reader.chunks_whole hne (hlen.trans_le (by decide))]
    rintro (hzero | ⟨hfits, -⟩)
    · exact absurd hzero (by decide)
    · have hfit := hfits _ List.mem_cons_self
      rw [hlen] at hfit
      exact absurd hfit (by decide)

end SendStreaming

end Wireframe
