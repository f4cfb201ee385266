/-
# Decoders on a growing buffer

A stream arrives in chunks.  Each chunk is added to a buffer, and a decoder takes frames off the
front of the buffer until it asks for more or fails.  Nothing is read after a failure.

A decoder is `Incremental` when more input never changes an answer it has given: a frame stays
that frame, a failure stays that failure, and a decoder that asks for more has taken nothing.
Such a decoder reads the same frames however the stream is cut (`readChunks_eq`).

An encoder appends the bytes of a frame to a buffer.  `readChunks_writeAll`: what is written frame
by frame and arrives in any chunks, up to any point, is read as far as it is complete.  When the
decoder accepts nothing but what the encoder writes, the converse holds too
(`readChunks_waiting_iff`).

`headed` is the decoder of frames whose size is announced by a header of fixed size.  For a decoder
that is put together from smaller ones, `Extends` says the same of an answer that `Incremental` says
of a decoder; it is preserved by `andThen`.
-/
import Mathlib.Tactic

namespace GrowingBuffer

variable {α φ ε δ : Type*}

/-- One call of a decoder: its answer, and the buffer it leaves. -/
abbrev Decoder (α φ ε : Type*) := List α → Except ε (Option φ) × List α

/-- One call of an encoder: its answer, and the buffer it leaves. -/
abbrev Encoder (α φ ε : Type*) := φ → List α → Except ε Unit × List α

/-- How reading comes to a halt: with a buffer that is not complete, or with a failure. -/
inductive Halt (α ε : Type*) where
  | waiting (buf : List α)
  | failed (err : ε)
  deriving DecidableEq, Repr

/-! ## Reading a buffer -/

/-- Call the decoder until it yields no frame, at most `fuel` times. -/
def drain (decode : Decoder α φ ε) : ℕ → List α → List φ × Halt α ε
  | 0, buf => ([], .waiting buf)
  | fuel + 1, buf =>
    match decode buf with
    | (.error err, _) => ([], .failed err)
    | (.ok none, rest) => ([], .waiting rest)
    | (.ok (some frame), rest) =>
      ((frame :: (drain decode fuel rest).1), (drain decode fuel rest).2)

/-- Read what a buffer holds. -/
def readAll (decode : Decoder α φ ε) (buf : List α) : List φ × Halt α ε :=
  drain decode (buf.length + 1) buf

/-- Add one chunk after the other to the buffer and read what it then holds. -/
def readChunks (decode : Decoder α φ ε) : List (List α) → List α → List φ × Halt α ε
  | [], buf => ([], .waiting buf)
  | chunk :: chunks, buf =>
    match readAll decode (buf ++ chunk) with
    | (frames, .failed err) => (frames, .failed err)
    | (frames, .waiting rest) =>
      (frames ++ (readChunks decode chunks rest).1, (readChunks decode chunks rest).2)

/-- More input changes no answer that was given. -/
structure Incremental (decode : Decoder α φ ε) : Prop where
  empty : decode [] = (.ok none, [])
  frame : ∀ {buf frame rest}, decode buf = (.ok (some frame), rest) →
    rest.length < buf.length ∧ ∀ more, decode (buf ++ more) = (.ok (some frame), rest ++ more)
  waiting : ∀ {buf rest}, decode buf = (.ok none, rest) → rest = buf
  failed : ∀ {buf err rest}, decode buf = (.error err, rest) →
    ∀ more, (decode (buf ++ more)).1 = .error err

/-! ## The frames of a stream -/

/-- Reading this stream gives these frames and halts so. -/
inductive Reads (decode : Decoder α φ ε) : List α → List φ → Halt α ε → Prop where
  | waiting {buf : List α} (h : decode buf = (.ok none, buf)) : Reads decode buf [] (.waiting buf)
  | failed {buf : List α} {err : ε} (h : (decode buf).1 = .error err) :
      Reads decode buf [] (.failed err)
  | frame {buf rest : List α} {frame : φ} {frames : List φ} {halt : Halt α ε}
      (h : decode buf = (.ok (some frame), rest)) (hrest : Reads decode rest frames halt) :
      Reads decode buf (frame :: frames) halt

section Reads

variable {decode : Decoder α φ ε} {buf rest more : List α} {frames frames' : List φ}
  {halt halt' : Halt α ε} {err : ε}

/-- A stream is read in one way only. -/
theorem Reads.unique (h : Reads decode buf frames halt) (h' : Reads decode buf frames' halt') :
    frames = frames' ∧ halt = halt' := by
  induction h generalizing frames' with
  | waiting h =>
    cases h' with
    | waiting _ => exact ⟨rfl, rfl⟩
    | failed h' | frame h' _ => rw [h] at h'; cases h'
  | failed h =>
    cases h' with
    | waiting h' | frame h' _ => rw [h'] at h; cases h
    | failed h' =>
      rw [h] at h'
      cases h'
      exact ⟨rfl, rfl⟩
  | frame h _ ih =>
    cases h' with
    | waiting h' | failed h' => rw [h] at h'; cases h'
    | frame h' hrest' =>
      rw [h] at h'
      cases h'
      obtain ⟨rfl, rfl⟩ := ih hrest'
      exact ⟨rfl, rfl⟩

/-- What a reader waits with is not a frame yet. -/
theorem Reads.of_waiting (h : Reads decode buf frames (.waiting rest)) :
    Reads decode rest [] (.waiting rest) := by
  generalize hhalt : Halt.waiting rest = halt at h
  induction h with
  | waiting h =>
    cases hhalt
    exact .waiting h
  | failed _ => cases hhalt
  | frame _ _ ih => exact ih hhalt

/-- Reading can be resumed where it waited. -/
theorem Reads.append (hincr : Incremental decode) (h : Reads decode buf frames (.waiting rest))
    (h' : Reads decode (rest ++ more) frames' halt') :
    Reads decode (buf ++ more) (frames ++ frames') halt' := by
  generalize hhalt : Halt.waiting rest = halt at h
  induction h with
  | waiting _ =>
    cases hhalt
    exact h'
  | failed _ => cases hhalt
  | frame h _ ih => exact .frame ((hincr.frame h).2 more) (ih hhalt)

theorem Reads.append_failed (hincr : Incremental decode)
    (h : Reads decode buf frames (.failed err)) (more : List α) :
    Reads decode (buf ++ more) frames (.failed err) := by
  generalize hhalt : Halt.failed err = halt at h
  induction h with
  | waiting _ => cases hhalt
  | @failed buf err' h =>
    have hcall : decode buf = (.error err', (decode buf).2) := by rw [← h]
    exact .failed (hincr.failed hcall more)
  | frame h _ ih => exact .frame ((hincr.frame h).2 more) (ih hhalt)

/-- Enough fuel reads everything. -/
theorem reads_drain (hincr : Incremental decode) {fuel : ℕ} (hfuel : buf.length < fuel) :
    Reads decode buf (drain decode fuel buf).1 (drain decode fuel buf).2 := by
  induction fuel generalizing buf with
  | zero => omega
  | succ fuel ih =>
    rw [drain]
    rcases hcall : decode buf with ⟨_ | _ | frame, rest⟩
    · exact .failed (by rw [hcall])
    · obtain rfl := hincr.waiting hcall
      exact .waiting hcall
    · have hlt := (hincr.frame hcall).1
      exact .frame hcall (ih (by omega))

theorem reads_readAll (hincr : Incremental decode) (buf : List α) :
    Reads decode buf (readAll decode buf).1 (readAll decode buf).2 :=
  reads_drain hincr (Nat.lt_succ_self _)

/-- Reading stops after a failure, so a failure is one of the whole stream. -/
theorem reads_readChunks (hincr : Incremental decode) (chunks : List (List α))
    (hbuf : Reads decode buf [] (.waiting buf)) :
    Reads decode (buf ++ chunks.flatten) (readChunks decode chunks buf).1
      (readChunks decode chunks buf).2 := by
  induction chunks generalizing buf with
  | nil =>
    rw [List.flatten_nil, List.append_nil]
    exact hbuf
  | cons chunk chunks ih =>
    have hchunk := reads_readAll hincr (buf ++ chunk)
    rw [List.flatten_cons, ← List.append_assoc, readChunks]
    rcases hread : readAll decode (buf ++ chunk) with ⟨frames, rest | err⟩
    · rw [hread] at hchunk
      exact hchunk.append hincr (ih hchunk.of_waiting)
    · rw [hread] at hchunk
      exact hchunk.append_failed hincr _

/-- **However it is cut**, a stream gives the frames and the halt it gives in one piece. -/
theorem readChunks_eq (hincr : Incremental decode) (chunks : List (List α)) :
    readChunks decode chunks [] = readAll decode chunks.flatten := by
  have hchunks := reads_readChunks hincr chunks (.waiting hincr.empty)
  rw [List.nil_append] at hchunks
  obtain ⟨hframes, hhalt⟩ := hchunks.unique (reads_readAll hincr chunks.flatten)
  exact Prod.ext hframes hhalt

theorem readChunks_of_reads (hincr : Incremental decode) {chunks : List (List α)}
    (h : Reads decode chunks.flatten frames halt) :
    readChunks decode chunks [] = (frames, halt) := by
  rw [readChunks_eq hincr]
  obtain ⟨hframes, hhalt⟩ := (reads_readAll hincr chunks.flatten).unique h
  exact Prod.ext hframes hhalt

end Reads

/-! ## Writing frames -/

/-- Write one frame after the other, up to the first that is refused.  What is written to may be
more than a buffer: an encoder can keep a state beside it. -/
def writeAll {ω : Type*} (encode : φ → ω → Except δ Unit × ω) : List φ → ω → Except δ Unit × ω
  | [], dst => (.ok (), dst)
  | frame :: frames, dst =>
    match encode frame dst with
    | (.error err, dst) => (.error err, dst)
    | (.ok (), dst) => writeAll encode frames dst

/-- The decoder gives back the frame that was written, and leaves what follows it. -/
def Restores (decode : Decoder α φ ε) (frame : φ) (wire : List α) : Prop :=
  ∀ rest, decode (wire ++ rest) = (.ok (some frame), rest)

/-- What the encoder appends for one of these frames can be decoded. -/
def RoundTrips (encode : Encoder α φ δ) (decode : Decoder α φ ε) (P : φ → Prop) : Prop :=
  ∀ frame dst dst', P frame → encode frame dst = (.ok (), dst') →
    ∃ wire, dst' = dst ++ wire ∧ Restores decode frame wire

section Write

/-- Frames that were written can be followed by more. -/
theorem writeAll_append {ω : Type*} {encode : φ → ω → Except δ Unit × ω} {frames frames' : List φ}
    {dst dst' : ω} (h : writeAll encode frames dst = (.ok (), dst')) :
    writeAll encode (frames ++ frames') dst = writeAll encode frames' dst' := by
  induction frames generalizing dst with
  | nil =>
    cases h
    rfl
  | cons frame frames ih =>
    rw [writeAll] at h
    rw [List.cons_append, writeAll]
    rcases hcall : encode frame dst with ⟨_ | _, dst₁⟩
    · rw [hcall] at h
      cases h
    · rw [hcall] at h
      exact ih h

variable {decode : Decoder α φ ε} {encode : Encoder α φ δ} {P : φ → Prop} {frames : List φ}

/-- What was written in front of `rest` is read, and `rest` is read next. -/
theorem reads_writeAll (htrip : RoundTrips encode decode P) (hframes : ∀ frame ∈ frames, P frame)
    {dst dst' : List α} (hwrite : writeAll encode frames dst = (.ok (), dst')) :
    ∃ wire, dst' = dst ++ wire ∧ ∀ {rest frames' halt}, Reads decode rest frames' halt →
      Reads decode (wire ++ rest) (frames ++ frames') halt := by
  induction frames generalizing dst with
  | nil =>
    cases hwrite
    exact ⟨[], (List.append_nil _).symm, fun hrest => hrest⟩
  | cons frame frames ih =>
    rw [writeAll] at hwrite
    rcases hcall : encode frame dst with ⟨_ | _, dst₁⟩
    · rw [hcall] at hwrite
      cases hwrite
    · rw [hcall] at hwrite
      obtain ⟨wire₁, rfl, hrestores⟩ :=
        htrip frame dst dst₁ (hframes frame List.mem_cons_self) hcall
      obtain ⟨wire₂, rfl, hreads⟩ :=
        ih (fun frame hframe => hframes frame (List.mem_cons_of_mem _ hframe)) hwrite
      refine ⟨wire₁ ++ wire₂, List.append_assoc _ _ _, fun hrest => ?_⟩
      rw [List.append_assoc]
      exact .frame (hrestores _) (hreads hrest)

/-- **A stream on its way.**  Frames were written, and of their bytes all but `missing` have arrived
in some chunks.  Then the reader has not failed; it has the first of the frames, and it lacks those
that what it waits with and what is missing make up. -/
theorem readChunks_writeAll (hincr : Incremental decode) (htrip : RoundTrips encode decode P)
    (hframes : ∀ frame ∈ frames, P frame) {chunks : List (List α)} {missing : List α}
    (hwrite : writeAll encode frames [] = (.ok (), chunks.flatten ++ missing)) :
    ∃ read later rest, readChunks decode chunks [] = (read, .waiting rest) ∧
      frames = read ++ later ∧ Reads decode (rest ++ missing) later (.waiting []) ∧
      (missing = [] → later = [] ∧ rest = []) := by
  obtain ⟨wire, hwire, hreads⟩ := reads_writeAll htrip hframes hwrite
  have hwhole := hreads (.waiting hincr.empty)
  rw [List.append_nil, List.append_nil, show wire = chunks.flatten ++ missing from hwire.symm]
    at hwhole
  have hpart := reads_readAll hincr chunks.flatten
  rw [readChunks_eq hincr]
  rcases hread : readAll decode chunks.flatten with ⟨read, rest | err⟩
  · rw [hread] at hpart
    have hrest := reads_readAll hincr (rest ++ missing)
    obtain ⟨rfl, hhalt⟩ := (hpart.append hincr hrest).unique hwhole
    rw [hhalt] at hrest
    refine ⟨read, _, rest, rfl, rfl, hrest, ?_⟩
    rintro rfl
    rw [List.append_nil] at hrest ⊢
    obtain ⟨hlater, hwaiting⟩ := hrest.unique hpart.of_waiting
    exact ⟨hlater, (Halt.waiting.inj hwaiting).symm⟩
  · rw [hread] at hpart
    cases ((hpart.append_failed hincr missing).unique hwhole).2

/-- What is decoded is what the encoder writes for the frame. -/
def Canonical (encode : Encoder α φ δ) (decode : Decoder α φ ε) : Prop :=
  ∀ src frame rest, decode src = (.ok (some frame), rest) →
    ∃ wire, src = wire ++ rest ∧ ∀ dst, encode frame dst = (.ok (), dst ++ wire)

theorem Reads.writeAll (hcanon : Canonical encode decode) {buf rest : List α}
    (h : Reads decode buf frames (.waiting rest)) :
    ∃ wire, buf = wire ++ rest ∧ ∀ dst, writeAll encode frames dst = (.ok (), dst ++ wire) := by
  generalize hhalt : Halt.waiting rest = halt at h
  induction h with
  | waiting _ =>
    cases hhalt
    exact ⟨[], rfl, fun dst => by rw [List.append_nil]; rfl⟩
  | failed _ => cases hhalt
  | frame h _ ih =>
    obtain ⟨wire₁, rfl, hwrite₁⟩ := hcanon _ _ _ h
    obtain ⟨wire₂, rfl, hwrite₂⟩ := ih hhalt
    refine ⟨wire₁ ++ wire₂, (List.append_assoc _ _ _).symm, fun dst => ?_⟩
    rw [GrowingBuffer.writeAll, hwrite₁]
    simp only [hwrite₂, List.append_assoc]

/-- **The language of a canonical codec**: the streams that are read as these frames, up to a part
that is not complete, are exactly what is written for the frames, followed by such a part. -/
theorem readChunks_waiting_iff (hincr : Incremental decode)
    (htrip : RoundTrips encode decode fun _ => True) (hcanon : Canonical encode decode)
    {chunks : List (List α)} {rest : List α} :
    readChunks decode chunks [] = (frames, .waiting rest) ↔
      ∃ wire, writeAll encode frames [] = (.ok (), wire) ∧ chunks.flatten = wire ++ rest ∧
        decode rest = (.ok none, rest) := by
  constructor
  · intro hread
    have hreads := reads_readAll hincr chunks.flatten
    rw [← readChunks_eq hincr, hread] at hreads
    obtain ⟨wire, hwire, hwrite⟩ := hreads.writeAll hcanon
    refine ⟨wire, hwrite [], hwire, ?_⟩
    cases hreads.of_waiting with
    | waiting h => exact h
  · rintro ⟨wire, hwrite, hflatten, hrest⟩
    obtain ⟨wire', rfl, hreads⟩ := reads_writeAll htrip (fun _ _ => trivial) hwrite
    have hwhole := hreads (.waiting hrest)
    rw [List.append_nil, ← hflatten] at hwhole
    exact readChunks_of_reads hincr hwhole

end Write

/-! ## Frames behind a header -/

/-- Look at a header of `size` symbols, which says how many follow it or what is wrong with it;
once they are there, make a frame of all of them. -/
def headed (size : ℕ) (inspect : List α → Except ε ℕ) (build : List α → φ) : Decoder α φ ε :=
  fun src =>
    if src.length < size then (.ok none, src)
    else
      match inspect (src.take size) with
      | .error err => (.error err, src)
      | .ok body =>
        if src.length < size + body then (.ok none, src)
        else (.ok (some (build (src.take (size + body)))), src.drop (size + body))

section Headed

variable {size : ℕ} {inspect : List α → Except ε ℕ} {build : List α → φ}

/-- A header and its body make a frame, whatever follows. -/
theorem headed_append {header body : List α} (hheader : header.length = size)
    (hbody : inspect header = .ok body.length) (rest : List α) :
    headed size inspect build (header ++ body ++ rest) =
      (.ok (some (build (header ++ body))), rest) := by
  have hlength : (header ++ body).length = size + body.length := by
    rw [List.length_append, hheader]
  have htake : (header ++ body ++ rest).take size = header := by
    rw [List.append_assoc]
    exact List.take_left' hheader
  rw [headed, if_neg (by rw [List.length_append]; omega), htake, hbody]
  simp only
  rw [if_neg (by rw [List.length_append]; omega), List.take_left' hlength,
    List.drop_left' hlength]

/-- A frame comes from a header and its body. -/
theorem headed_eq_some {src rest : List α} {frame : φ}
    (h : headed size inspect build src = (.ok (some frame), rest)) :
    ∃ header body, src = header ++ body ++ rest ∧ header.length = size ∧
      inspect header = .ok body.length ∧ frame = build (header ++ body) := by
  unfold headed at h
  split_ifs at h with hshort
  · cases h
  · rcases hinspect : inspect (src.take size) with err | body
    · rw [hinspect] at h
      cases h
    · simp only [hinspect] at h
      split_ifs at h with hbody
      · cases h
      · obtain ⟨hframe, rfl⟩ := Prod.mk.inj h
        have hcut : src.take size ++ (src.drop size).take body = src.take (size + body) := by
          rw [List.take_add]
        refine ⟨src.take size, (src.drop size).take body, ?_, ?_, ?_, ?_⟩
        · rw [hcut, List.take_append_drop]
        · rw [List.length_take]
          omega
        · rw [hinspect, List.length_take, List.length_drop]
          congr 1
          omega
        · rw [hcut]
          exact (Option.some.inj (Except.ok.inj hframe)).symm

/-- **A decoder behind a header is incremental.** -/
theorem headed_incremental (hsize : 0 < size) : Incremental (headed size inspect build) where
  empty := if_pos hsize
  frame := by
    intro src frame rest h
    obtain ⟨header, body, rfl, hheader, hbody, rfl⟩ := headed_eq_some h
    refine ⟨?_, fun more => ?_⟩
    · simp only [List.length_append]
      omega
    · rw [List.append_assoc _ rest more]
      exact headed_append hheader hbody (rest ++ more)
  waiting := by
    intro src rest h
    unfold headed at h
    split_ifs at h with hshort
    · exact (Prod.mk.inj h).2.symm
    · rcases hinspect : inspect (src.take size) with err | body
      · rw [hinspect] at h
        cases h
      · simp only [hinspect] at h
        split_ifs at h
        · exact (Prod.mk.inj h).2.symm
        · cases h
  failed := by
    intro src err rest h more
    unfold headed at h
    split_ifs at h with hshort
    · cases h
    · have htake : (src ++ more).take size = src.take size :=
        List.take_append_of_le_length (by omega)
      rcases hinspect : inspect (src.take size) with err' | body
      · rw [hinspect] at h
        rw [headed, if_neg (by rw [List.length_append]; omega), htake, hinspect]
        exact (Prod.mk.inj h).1
      · simp only [hinspect] at h
        split_ifs at h
        · cases h
        · cases h

end Headed

/-! ## Answers -/

/-- What is said about a buffer: a value, that it has to be longer, or what is wrong with it. -/
abbrev Answer (ε α : Type*) := Except ε (Option α)

section Answer

variable {β : Type*}

/-- Go on with the value, if there is one. -/
def Answer.andThen (x : Answer ε α) (f : α → Answer ε β) : Answer ε β :=
  match x with
  | .error err => .error err
  | .ok none => .ok none
  | .ok (some a) => f a

@[simp] theorem Answer.some_andThen (a : α) (f : α → Answer ε β) :
    Answer.andThen (.ok (some a)) f = f a := rfl

theorem Answer.andThen_eq_some {x : Answer ε α} {f : α → Answer ε β} {b : β}
    (h : x.andThen f = .ok (some b)) : ∃ a, x = .ok (some a) ∧ f a = .ok (some b) := by
  rcases x with err | _ | a
  · cases h
  · cases h
  · exact ⟨a, rfl, h⟩

/-- The second answer, about a longer buffer, is the first one unless that asked for more. -/
def Extends (x y : Answer ε α) : Prop := x ≠ .ok none → y = x

theorem Extends.refl (x : Answer ε α) : Extends x x := fun _ => rfl

theorem Extends.of_waiting (y : Answer ε α) : Extends (.ok none) y := fun h => absurd rfl h

theorem Extends.andThen {x y : Answer ε α} {f g : α → Answer ε β} (h : Extends x y)
    (hfg : ∀ a, x = .ok (some a) → Extends (f a) (g a)) : Extends (x.andThen f) (y.andThen g) := by
  rcases x with err | _ | a
  · rw [h (by simp)]
    exact Extends.refl _
  · exact Extends.of_waiting _
  · rw [h (by simp)]
    exact hfg a rfl

end Answer

end GrowingBuffer
