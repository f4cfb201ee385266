/-
# Reading a connection preamble

`read_preamble` reads one byte, then lets the decoder say whether it has enough: on
`UnexpectedEnd` it reads as many bytes as the decoder asks for and tries again.  Each of these
reads is a loop over short reads into the tail of a zero-filled buffer.

The model is a machine whose steps are one pass of one of the two loops, so a step holds at most
one read; what it does depends on how the reader cuts the stream.  `Resolves` says what comes out
without a word about buffers or cuts, and `reaches_resolved` that the machine gets there for
every way of cutting.
-/
import Mathlib.Tactic
import Wireframe.MachineWord
import Wireframe.ShortReads

namespace Wireframe

open ShortReads

/-! ## The two loops -/

/-- The kinds of I/O error of a connection told apart here. -/
inductive StreamErrorKind where
  | unexpectedEof
  | other (code : ℕ)
  deriving DecidableEq, Repr

/-- An I/O error: a bare kind, or a kind with a text. -/
structure StreamError where
  kind : StreamErrorKind
  text : Option String
  deriving DecidableEq, Repr

/-- Why no preamble came out: bincode's decode errors, as far as they are told apart. -/
inductive PreambleError where
  | unexpectedEnd (additional : ℕ)
  | io (inner : StreamError) (additional : ℕ)
  | other (text : String)
  deriving DecidableEq, Repr

/-- The most bytes a preamble may take. -/
def maxPreambleLen : ℕ := 1024

def preambleTooLongError : String := "preamble too long"

/-- A preamble decoder: a value and the number of bytes it consumed, or why not. -/
abbrev PreambleDecoder (T : Type*) := List UInt8 → Except PreambleError (T × ℕ)

/-- Where `read_preamble` stands. -/
inductive PreamblePhase (T : Type*) where
  /-- in `read_more`, with `read` of `additional` bytes behind `start` in place -/
  | reading (start additional read : ℕ)
  /-- about to decode the buffer -/
  | decoding
  | returned (result : Except PreambleError (T × List UInt8))
  | panicked (panic : Panic)

/-! ### The machine -/

/-- A call of `read_preamble` with its reader. -/
structure PreambleRun (T : Type*) where
  reader : Reader UInt8 StreamError
  buf : List UInt8
  phase : PreamblePhase T

/-- `Vec::resize`. -/
def resize {α : Type*} (buf : List α) (len : ℕ) (value : α) : List α :=
  buf.take len ++ List.replicate (len - buf.length) value

/-- The buffer after a write of `bytes` at `pos`. -/
def overwrite {α : Type*} (buf : List α) (pos : ℕ) (bytes : List α) : List α :=
  buf.take pos ++ bytes ++ buf.drop (pos + bytes.length)

namespace PreambleRun

variable {T : Type*}

/-- `read_more` up to its loop. -/
def readMore (run : PreambleRun T) (additional : ℕ) : PreambleRun T :=
  let start := run.buf.length
  match checkedAdd start additional with
  | none => { run with phase := .panicked .arithmeticOverflow }
  | some stop =>
    if maxPreambleLen < stop then
      { run with phase := .returned (.error (.other preambleTooLongError)) }
    else
      { run with buf := resize run.buf stop 0, phase := .reading start additional 0 }

/-- One pass of the loop of `read_more`: a read into what is missing of the buffer. -/
def readOnce (run : PreambleRun T) (start additional read : ℕ) : PreambleRun T :=
  match slice run.buf (start + read) (start + additional) with
  | none => { run with phase := .returned (.error (.other "preamble buffer range invalid")) }
  | some chunk =>
    match run.reader.read chunk.length with
    | (.ok [], reader) =>
      { run with
        reader
        phase := .returned (.error (.io ⟨.unexpectedEof, none⟩ (additional - read))) }
    | (.ok bytes, reader) =>
      { reader
        buf := overwrite run.buf (start + read) bytes
        phase := .reading start additional (read + bytes.length) }
    | (.error inner, reader) =>
      { run with reader, phase := .returned (.error (.io inner (additional - read))) }

/-- One pass of the loop of `read_preamble`: the decoder on all of the buffer. -/
def decodeOnce (decode : PreambleDecoder T) (run : PreambleRun T) : PreambleRun T :=
  match decode run.buf with
  | .ok (value, consumed) =>
    -- `split_off` panics behind the end of the buffer
    if consumed ≤ run.buf.length then
      { run with
        buf := run.buf.take consumed
        phase := .returned (.ok (value, run.buf.drop consumed)) }
    else { run with phase := .panicked .explicit }
  | .error (.unexpectedEnd additional) => run.readMore additional
  | .error err => { run with phase := .returned (.error err) }

/-- One pass of the loop the call is in. -/
def step (decode : PreambleDecoder T) (run : PreambleRun T) : PreambleRun T :=
  match run.phase with
  | .reading start additional read =>
    if read < additional then run.readOnce start additional read
    else { run with phase := .decoding }
  | .decoding => decodeOnce decode run
  | .returned _ => run
  | .panicked _ => run

/-- `read_preamble` at its first loop: one byte is asked for. -/
def readPreamble (reader : Reader UInt8 StreamError) : PreambleRun T :=
  readMore ⟨reader, [], .decoding⟩ 1

/-! ## The buffer -/

theorem resize_of_le {α : Type*} (buf : List α) {len : ℕ} (h : buf.length ≤ len) (value : α) :
    resize buf len value = buf ++ List.replicate (len - buf.length) value := by
  rw [resize, List.take_of_length_le h]

theorem length_overwrite {α : Type*} (buf bytes : List α) (pos : ℕ)
    (h : pos + bytes.length ≤ buf.length) : (overwrite buf pos bytes).length = buf.length := by
  rw [overwrite, List.length_append, List.length_append, List.length_take, List.length_drop]
  omega

/-- Writing the next bytes over the zeros behind a prefix makes the prefix longer. -/
theorem overwrite_append_replicate {α : Type*} (done bytes : List α) (value : α)
    (room : ℕ) :
    overwrite (done ++ List.replicate room value) done.length bytes =
      done ++ bytes ++ List.replicate (room - bytes.length) value := by
  rw [overwrite, List.take_left, ← List.drop_drop, List.drop_left, List.drop_replicate]

/-! ### The bound -/

/-- **The bound on the buffer**, with what the loop of `read_more` relies on to keep it. -/
def Bounded (run : PreambleRun T) : Prop :=
  run.buf.length ≤ maxPreambleLen ∧
    ∀ start additional read, run.phase = .reading start additional read →
      read ≤ additional ∧ start + additional = run.buf.length

/-- `read_more` grows the buffer up to the limit at most. -/
theorem readMore_bounded {run : PreambleRun T} (h : run.buf.length ≤ maxPreambleLen)
    (additional : ℕ) : (run.readMore additional).Bounded := by
  simp only [readMore]
  split
  · exact ⟨h, by simp⟩
  · rename_i stop hadd
    obtain ⟨-, rfl⟩ := checkedAdd_eq_some_iff.mp hadd
    split
    · exact ⟨h, by simp⟩
    · rename_i hfits
      have hlen : (resize run.buf (run.buf.length + additional) 0).length =
          run.buf.length + additional := by
        rw [resize_of_le _ (Nat.le_add_right _ _), List.length_append, List.length_replicate]
        omega
      refine ⟨hlen.trans_le (not_lt.mp hfits), ?_⟩
      rintro start' additional' read' hphase
      cases hphase
      exact ⟨Nat.zero_le _, hlen.symm⟩

/-- One read stays within what `read_more` reserved. -/
theorem readOnce_bounded {run : PreambleRun T} {start additional read : ℕ}
    (h : run.Bounded) (hphase : run.phase = .reading start additional read) :
    (run.readOnce start additional read).Bounded := by
  obtain ⟨hbuf, hreading⟩ := h
  obtain ⟨hread, hstop⟩ := hreading _ _ _ hphase
  simp only [readOnce]
  have hslice := slice_eq_some run.buf (Nat.add_le_add_left hread start) hstop.le
  rw [hslice]
  set chunk := (run.buf.take (start + additional)).drop (start + read) with hchunk
  have hroom : chunk.length = additional - read := by
    rw [hchunk, List.length_drop, List.length_take, ← hstop]
    omega
  obtain ⟨err, -, -, -, hstep⟩ | ⟨n, reader, hn, hn', hstep, -⟩ := run.reader.read_spec chunk.length
  · simp only [hstep]
    exact ⟨hbuf, by simp⟩
  · simp only [hstep]
    cases hbytes : run.reader.bytes.take n with
    | nil => exact ⟨hbuf, by simp⟩
    | cons b rest =>
      have hcount : (b :: rest).length = n := by
        rw [← hbytes, List.length_take, min_eq_left hn']
      have hlen := length_overwrite run.buf (b :: rest) (start + read) (by omega)
      refine ⟨hlen.trans_le hbuf, ?_⟩
      rintro start' additional' read' hphase'
      cases hphase'
      exact ⟨by omega, hstop.trans hlen.symm⟩

theorem decodeOnce_bounded (decode : PreambleDecoder T) {run : PreambleRun T}
    (h : run.buf.length ≤ maxPreambleLen) : (decodeOnce decode run).Bounded := by
  unfold decodeOnce
  split
  · split
    · exact ⟨(List.length_take_le _ _).trans (by omega), by simp⟩
    · exact ⟨h, by simp⟩
  · exact readMore_bounded h _
  · exact ⟨h, by simp⟩

theorem step_bounded (decode : PreambleDecoder T) {run : PreambleRun T} (h : run.Bounded) :
    (run.step decode).Bounded := by
  unfold step
  split
  · rename_i start additional read hphase
    split
    · exact readOnce_bounded h hphase
    · exact ⟨h.1, by simp⟩
  · exact decodeOnce_bounded decode h.1
  · exact h
  · exact h

/-- Whatever the decoder and the reader do, the buffer stays within its bound. -/
theorem iterate_bounded (decode : PreambleDecoder T) (reader : Reader UInt8 StreamError) (n : ℕ) :
    ((step decode)^[n] (readPreamble reader)).Bounded := by
  induction n with
  | zero =>
    have hempty : (⟨reader, [], .decoding⟩ : PreambleRun T).buf.length ≤ maxPreambleLen :=
      Nat.zero_le _
    exact readMore_bounded hempty 1
  | succ n ih =>
    rw [Function.iterate_succ_apply']
    exact step_bounded decode ih

/-! ## What comes out -/

/-- What bincode documents of a decoder, with the missing bytes counted from any extension of the
input that decodes. -/
structure LawfulDecoder (decode : PreambleDecoder T) : Prop where
  /-- it consumes no more than its input -/
  consumed_le : ∀ {bytes value consumed}, decode bytes = .ok (value, consumed) →
    consumed ≤ bytes.length
  /-- if it asks for more, it asks for something -/
  additional_pos : ∀ {bytes additional}, decode bytes = .error (.unexpectedEnd additional) →
    0 < additional
  /-- it asks for no more than is missing -/
  additional_le : ∀ {bytes more additional value consumed},
    decode bytes = .error (.unexpectedEnd additional) →
    decode (bytes ++ more) = .ok (value, consumed) → bytes.length + additional ≤ consumed
  /-- what it asks for is a length -/
  additional_usize : ∀ {bytes additional}, bytes.length ≤ maxPreambleLen →
    decode bytes = .error (.unexpectedEnd additional) → bytes.length + additional ≤ usizeMax

/-- The error of a read behind the last byte, given how the stream ends. -/
def endError (ending : Option StreamError) : StreamError := ending.getD ⟨.unexpectedEof, none⟩

/-- **What `read_preamble` makes of a stream**, once it wants `stop` bytes of it: the result, and
how many bytes it takes in all. -/
inductive Resolves (decode : PreambleDecoder T) (stream : List UInt8)
    (ending : Option StreamError) :
    ℕ → Except PreambleError (T × List UInt8) → ℕ → Prop
  | ended {stop} (hshort : stream.length < stop) :
      Resolves decode stream ending stop
        (.error (.io (endError ending) (stop - stream.length))) stream.length
  | decoded {stop value consumed} (hlen : stop ≤ stream.length)
      (hdecode : decode (stream.take stop) = .ok (value, consumed)) :
      Resolves decode stream ending stop (.ok (value, (stream.take stop).drop consumed)) stop
  | refused {stop err} (hlen : stop ≤ stream.length)
      (hdecode : decode (stream.take stop) = .error err)
      (hother : ∀ additional, err ≠ .unexpectedEnd additional) :
      Resolves decode stream ending stop (.error err) stop
  | tooLong {stop additional} (hlen : stop ≤ stream.length)
      (hdecode : decode (stream.take stop) = .error (.unexpectedEnd additional))
      (hover : maxPreambleLen < stop + additional) :
      Resolves decode stream ending stop (.error (.other preambleTooLongError)) stop
  | more {stop additional result taken} (hlen : stop ≤ stream.length)
      (hdecode : decode (stream.take stop) = .error (.unexpectedEnd additional))
      (hfits : stop + additional ≤ maxPreambleLen)
      (hrest : Resolves decode stream ending (stop + additional) result taken) :
      Resolves decode stream ending stop result taken

section Resolves

variable {decode : PreambleDecoder T} {stream : List UInt8} {ending : Option StreamError}

/-- Every stream resolves: the decoder cannot ask for more for ever. -/
theorem exists_resolves (hlawful : LawfulDecoder decode) {stop : ℕ}
    (hstop : stop ≤ maxPreambleLen) :
    ∃ result taken, Resolves decode stream ending stop result taken := by
  -- each new request brings the buffer nearer to its bound
  induction hroom : maxPreambleLen - stop using Nat.strong_induction_on generalizing stop with
  | _ room ih =>
    rcases Nat.lt_or_ge stream.length stop with hshort | hlen
    · exact ⟨_, _, .ended hshort⟩
    · rcases hdecode : decode (stream.take stop) with err | ⟨value, consumed⟩
      · by_cases hend : ∃ additional, err = .unexpectedEnd additional
        · obtain ⟨additional, rfl⟩ := hend
          have hpos := hlawful.additional_pos hdecode
          rcases Nat.lt_or_ge maxPreambleLen (stop + additional) with hover | hfits
          · exact ⟨_, _, .tooLong hlen hdecode hover⟩
          · obtain ⟨result, taken, hrest⟩ := ih _ (by omega) hfits rfl
            exact ⟨result, taken, .more hlen hdecode hfits hrest⟩
        · exact ⟨_, _, .refused hlen hdecode fun additional h => hend ⟨additional, h⟩⟩
      · exact ⟨_, _, .decoded hlen hdecode⟩

/-- Nothing is taken that the stream does not have. -/
theorem Resolves.taken_le {stop taken : ℕ} {result : Except PreambleError (T × List UInt8)}
    (h : Resolves decode stream ending stop result taken) : taken ≤ stream.length := by
  induction h with
  | ended hshort => exact le_rfl
  | decoded hlen hdecode | refused hlen hdecode hother | tooLong hlen hdecode hover => exact hlen
  | more hlen hdecode hfits hrest ih => exact ih

/-- A preamble that comes out was decoded from what was taken, and nothing behind it was taken
unless it was asked for before the decoder had its say. -/
theorem Resolves.decoded_of_ok (hlawful : LawfulDecoder decode) {stop taken : ℕ}
    {result : Except PreambleError (T × List UInt8)} {value : T} {leftover : List UInt8}
    (h : Resolves decode stream ending stop result taken) (hok : result = .ok (value, leftover)) :
    ∃ consumed, decode (stream.take taken) = .ok (value, consumed) ∧
      leftover = (stream.take taken).drop consumed ∧ stop ≤ taken ∧
      (taken = stop ∨ taken ≤ consumed) := by
  induction h with
  | ended hshort | refused hlen hdecode hother | tooLong hlen hdecode hover =>
    cases hok
  | decoded hlen hdecode =>
    cases hok
    exact ⟨_, hdecode, rfl, le_rfl, Or.inl rfl⟩
  | @more stop additional result taken hlen hdecode hfits hrest ih =>
    obtain ⟨consumed, hvalue, hleftover, hle, htaken⟩ := ih hok
    refine ⟨consumed, hvalue, hleftover, by omega, Or.inr ?_⟩
    rcases htaken with rfl | hconsumed
    · -- the last request was for no more than was missing
      have hsplit : stream.take (stop + additional) =
          stream.take stop ++ (stream.take (stop + additional)).drop stop :=
        (take_append_slice stream (Nat.le_add_right _ _)).symm
      rw [hsplit] at hvalue
      have hmissing := hlawful.additional_le hdecode hvalue
      rwa [List.length_take, min_eq_left hlen] at hmissing
    · exact hconsumed

end Resolves

/-! ## The machine gets there -/

/-- Some number of steps leads from one state to another. -/
def Reaches (decode : PreambleDecoder T) (run run' : PreambleRun T) : Prop :=
  ∃ n, (step decode)^[n] run = run'

theorem Reaches.head {decode : PreambleDecoder T} {run run' : PreambleRun T}
    (h : Reaches decode (run.step decode) run') : Reaches decode run run' := by
  obtain ⟨n, hn⟩ := h
  exact ⟨n + 1, hn⟩

theorem Reaches.single (decode : PreambleDecoder T) (run : PreambleRun T) :
    Reaches decode run (run.step decode) := ⟨1, rfl⟩

theorem Reaches.trans {decode : PreambleDecoder T} {run run' run'' : PreambleRun T}
    (h : Reaches decode run run') (h' : Reaches decode run' run'') : Reaches decode run run'' := by
  obtain ⟨n, rfl⟩ := h
  obtain ⟨m, rfl⟩ := h'
  exact ⟨m + n, Function.iterate_add_apply _ _ _ _⟩

/-- A call returns once. -/
theorem Reaches.returned_unique {decode : PreambleDecoder T} {run run' run'' : PreambleRun T}
    {result result' : Except PreambleError (T × List UInt8)}
    (h : Reaches decode run run') (hret : run'.phase = .returned result)
    (h' : Reaches decode run run'') (hret' : run''.phase = .returned result') : run' = run'' := by
  have hstays : ∀ {s : PreambleRun T} {r}, s.phase = .returned r → ∀ n, (step decode)^[n] s = s :=
    fun hs n => Function.iterate_fixed (by rw [step, hs]) n
  obtain ⟨n, hn⟩ := h
  obtain ⟨m, hm⟩ := h'
  -- both runs pass through the state after the longer of the two
  have hn' := hstays hret m
  have hm' := hstays hret' n
  rw [← hn, ← Function.iterate_add_apply] at hn'
  rw [← hm, ← Function.iterate_add_apply, Nat.add_comm] at hm'
  rw [← hn, ← hm, ← hn', hm']

/-! ### Filling the buffer -/

/-- The loop of `read_more` with `start + read` bytes of the stream in place and `additional`
wanted behind `start`. -/
structure Filling (stream : List UInt8) (ending : Option StreamError) (start additional read : ℕ)
    (run : PreambleRun T) : Prop where
  read_le : read ≤ additional
  has : start + read ≤ stream.length
  phase : run.phase = .reading start additional read
  buf : run.buf = stream.take (start + read) ++ List.replicate (additional - read) 0
  bytes : run.reader.bytes = stream.drop (start + read)
  ending : run.reader.ending = ending

/-- The reader behind a prefix of the stream, whatever its later cuts. -/
structure Behind (stream : List UInt8) (ending : Option StreamError) (taken : ℕ)
    (reader : Reader UInt8 StreamError) : Prop where
  bytes : reader.bytes = stream.drop taken
  ending : reader.ending = ending

section Filling

variable {decode : PreambleDecoder T} {stream : List UInt8} {ending : Option StreamError}
  {start additional read : ℕ} {run : PreambleRun T}

/-- The part of the buffer that is read into: what is missing. -/
theorem Filling.slice_buf (h : Filling stream ending start additional read run) :
    ∃ chunk, slice run.buf (start + read) (start + additional) = some chunk ∧
      chunk.length = additional - read := by
  have hread := h.read_le
  have hlen : run.buf.length = start + additional := by
    rw [h.buf, List.length_append, List.length_take, min_eq_left h.has, List.length_replicate]
    omega
  refine ⟨_, slice_eq_some run.buf (by omega) hlen.ge, ?_⟩
  rw [List.length_drop, List.length_take, hlen]
  omega

/-- Nothing is to come: the stream is in the buffer. -/
theorem Filling.length_eq (h : Filling stream ending start additional read run)
    (hnil : run.reader.bytes = []) : stream.length = start + read := by
  have hle := List.drop_eq_nil_iff.mp (h.bytes.symm.trans hnil)
  exact le_antisymm hle h.has

/-- Bytes that are read stand behind those in place. -/
theorem Filling.overwrite_buf (h : Filling stream ending start additional read run) {n : ℕ}
    (hn : n ≤ run.reader.bytes.length) :
    overwrite run.buf (start + read) (run.reader.bytes.take n) =
      stream.take (start + (read + n)) ++ List.replicate (additional - (read + n)) 0 := by
  have hdone : (stream.take (start + read)).length = start + read := by
    rw [List.length_take, min_eq_left h.has]
  have hwrite := overwrite_append_replicate (stream.take (start + read))
    (run.reader.bytes.take n) 0 (additional - read)
  rw [hdone, ← h.buf, List.length_take, min_eq_left hn] at hwrite
  rw [hwrite, h.bytes, ← List.take_add, Nat.add_assoc, Nat.sub_sub]

/-- One pass of the loop: it gives up at the end of the stream, or it has more bytes in place. -/
theorem Filling.readOnce (h : Filling stream ending start additional read run)
    (hread : read < additional) :
    (stream.length = start + read ∧
      (run.readOnce start additional read).phase =
        .returned (.error (.io (endError ending) (additional - read))) ∧
      Behind stream ending stream.length (run.readOnce start additional read).reader) ∨
    ∃ n, 0 < n ∧
      Filling stream ending start additional (read + n) (run.readOnce start additional read) := by
  obtain ⟨chunk, hslice, hroom⟩ := h.slice_buf
  simp only [PreambleRun.readOnce, hslice]
  obtain ⟨err, -, hnil, herr, hstep⟩ | ⟨n, reader', hn, hn', hstep, hbytes', hending', hzero⟩ :=
    run.reader.read_spec chunk.length
  · -- the stream fails behind its last byte
    have hall := h.length_eq hnil
    simp only [hstep]
    refine Or.inl ⟨hall, ?_, ⟨by rw [hall]; exact h.bytes, h.ending⟩⟩
    rw [endError, ← h.ending, herr, Option.getD_some]
  · simp only [hstep]
    rcases Nat.eq_zero_or_pos n with rfl | hpos
    · -- the stream ends
      rcases hzero rfl with hempty | ⟨hnil, hnone⟩
      · omega
      · have hall := h.length_eq hnil
        simp only [List.take_zero]
        refine Or.inl ⟨hall, ?_, ⟨?_, hending'.trans h.ending⟩⟩
        · rw [endError, ← h.ending, hnone, Option.getD_none]
        · rw [hbytes', List.drop_zero, h.bytes, hall]
    · have hcount : (run.reader.bytes.take n).length = n := by
        rw [List.length_take, min_eq_left hn']
      have hhas : start + (read + n) ≤ stream.length := by
        rw [h.bytes, List.length_drop] at hn'
        have := h.has
        omega
      -- the bytes are not none of them, so the second branch is taken
      obtain ⟨b, rest, hcons⟩ : ∃ b rest, run.reader.bytes.take n = b :: rest :=
        List.exists_cons_of_ne_nil (List.ne_nil_of_length_pos (by omega))
      rw [hcons]
      simp only
      rw [← hcons]
      refine Or.inr ⟨n, hpos, by omega, hhas, by rw [hcount], h.overwrite_buf hn', ?_,
        hending'.trans h.ending⟩
      rw [hbytes', h.bytes, List.drop_drop, Nat.add_assoc]

/-- The loop of `read_more` ends: with all bytes wanted in place, or short of some of them at the
end of the stream. -/
theorem Filling.reaches (h : Filling stream ending start additional read run) :
    (start + additional ≤ stream.length ∧ ∃ reader,
      Behind stream ending (start + additional) reader ∧
      Reaches decode run ⟨reader, stream.take (start + additional), .decoding⟩) ∨
    (stream.length < start + additional ∧ ∃ run', Behind stream ending stream.length run'.reader ∧
      run'.phase =
        .returned (.error (.io (endError ending) (start + additional - stream.length))) ∧
      Reaches decode run run') := by
  induction hmissing : additional - read using Nat.strong_induction_on generalizing read run with
  | _ missing ih =>
    rcases Nat.lt_or_ge read additional with hread | hdone
    · have hstep : run.step decode = run.readOnce start additional read := by
        rw [step, h.phase]
        exact if_pos hread
      rcases h.readOnce hread with ⟨hall, hphase, hbehind⟩ | ⟨n, hpos, hnext⟩
      · have hmiss : start + additional - stream.length = additional - read := by omega
        refine Or.inr ⟨by omega, _, hbehind, by rw [hphase, hmiss], ?_⟩
        rw [← hstep]
        exact Reaches.single decode run
      · rw [← hstep] at hnext
        rcases ih _ (by omega) hnext rfl with ⟨hlen, reader, hbehind, hreach⟩ |
          ⟨hshort, run', hbehind, hphase, hreach⟩
        · exact Or.inl ⟨hlen, reader, hbehind, hreach.head⟩
        · exact Or.inr ⟨hshort, run', hbehind, hphase, hreach.head⟩
    · obtain rfl : read = additional := le_antisymm h.read_le hdone
      refine Or.inl ⟨h.has, run.reader, ⟨h.bytes, h.ending⟩, ?_⟩
      have hstep : run.step decode = ⟨run.reader, stream.take (start + read), .decoding⟩ := by
        rw [step, h.phase]
        simp only [lt_irrefl, if_false]
        rw [h.buf, Nat.sub_self, List.replicate_zero, List.append_nil]
      rw [← hstep]
      exact Reaches.single decode run

/-- With enough bytes in the stream the decoder is called on all that was wanted. -/
theorem Filling.reaches_decoding (h : Filling stream ending start additional read run)
    (hlen : start + additional ≤ stream.length) :
    ∃ reader, Behind stream ending (start + additional) reader ∧
      Reaches decode run ⟨reader, stream.take (start + additional), .decoding⟩ := by
  rcases h.reaches with ⟨-, hreach⟩ | ⟨hshort, -⟩
  · exact hreach
  · omega

end Filling

/-- `read_more` from a full buffer enters its loop. -/
theorem readMore_filling {stream : List UInt8} {ending : Option StreamError} {taken additional : ℕ}
    {reader : Reader UInt8 StreamError} (hbehind : Behind stream ending taken reader)
    (htaken : taken ≤ stream.length) (hfits : taken + additional ≤ maxPreambleLen) :
    Filling stream ending taken additional 0
      (readMore (⟨reader, stream.take taken, .decoding⟩ : PreambleRun T) additional) := by
  have hlen : (stream.take taken).length = taken := by rw [List.length_take, min_eq_left htaken]
  have hadd : checkedAdd taken additional = some (taken + additional) :=
    checkedAdd_eq_some_iff.mpr ⟨hfits.trans (by decide), rfl⟩
  simp only [readMore, hlen, hadd]
  rw [if_neg (not_lt.mpr hfits)]
  refine ⟨Nat.zero_le _, htaken, rfl, ?_, hbehind.bytes, hbehind.ending⟩
  simp only
  rw [resize_of_le _ (by omega), hlen, Nat.add_zero, Nat.sub_zero, Nat.add_sub_cancel_left]

/-! ### Every stream -/

/-- **Whatever the cuts, the call returns what the stream resolves to**, and the reader is left
behind the bytes taken. -/
theorem Resolves.reaches {decode : PreambleDecoder T} (hlawful : LawfulDecoder decode)
    {stream : List UInt8} {ending : Option StreamError} {stop taken : ℕ}
    {result : Except PreambleError (T × List UInt8)}
    (h : Resolves decode stream ending stop result taken) (hstop : stop ≤ maxPreambleLen)
    {start additional read : ℕ} {run : PreambleRun T}
    (hrun : Filling stream ending start additional read run) (hwanted : start + additional = stop) :
    ∃ run', Reaches decode run run' ∧ run'.phase = .returned result ∧
      Behind stream ending taken run'.reader := by
  induction h generalizing start additional read run with
  | ended hshort =>
    subst hwanted
    rcases hrun.reaches with ⟨hlen, -⟩ | ⟨-, run', hbehind, hphase, hreach⟩
    · omega
    · exact ⟨run', hreach, hphase, hbehind⟩
  | decoded hlen hdecode =>
    subst hwanted
    obtain ⟨reader, hbehind, hreach⟩ := hrun.reaches_decoding hlen
    refine ⟨_, hreach.trans (Reaches.single decode _), ?_, ?_⟩
    · simp only [step, decodeOnce, hdecode, if_pos (hlawful.consumed_le hdecode)]
    · simp only [step, decodeOnce, hdecode, if_pos (hlawful.consumed_le hdecode)]
      exact hbehind
  | @refused _ err hlen hdecode hother =>
    subst hwanted
    obtain ⟨reader, hbehind, hreach⟩ := hrun.reaches_decoding hlen
    have hstep : step decode ⟨reader, stream.take (start + additional), .decoding⟩ =
        ⟨reader, stream.take (start + additional), .returned (.error err)⟩ := by
      cases err with
      | unexpectedEnd more => exact absurd rfl (hother more)
      | io inner more | other text => simp only [step, decodeOnce, hdecode]
    refine ⟨_, hreach.trans (Reaches.single decode _), ?_, ?_⟩
    · rw [hstep]
    · rw [hstep]
      exact hbehind
  | @tooLong _ more hlen hdecode hover =>
    subst hwanted
    obtain ⟨reader, hbehind, hreach⟩ := hrun.reaches_decoding hlen
    have hbuf : (stream.take (start + additional)).length = start + additional := by
      rw [List.length_take, min_eq_left hlen]
    have husize := hlawful.additional_usize (hbuf.trans_le hstop) hdecode
    rw [hbuf] at husize
    have hadd := checkedAdd_eq_some_iff.mpr ⟨husize, rfl⟩
    refine ⟨_, hreach.trans (Reaches.single decode _), ?_, ?_⟩
    · simp only [step, decodeOnce, hdecode, readMore, hbuf, hadd, if_pos hover]
    · simp only [step, decodeOnce, hdecode, readMore, hbuf, hadd, if_pos hover]
      exact hbehind
  | @more _ more _ _ hlen hdecode hfits hrest ih =>
    subst hwanted
    obtain ⟨reader, hbehind, hreach⟩ := hrun.reaches_decoding hlen
    have hstep : step decode ⟨reader, stream.take (start + additional), .decoding⟩ =
        readMore ⟨reader, stream.take (start + additional), .decoding⟩ more := by
      simp only [step, decodeOnce, hdecode]
    have hnext : Filling stream ending (start + additional) more 0
        (step decode ⟨reader, stream.take (start + additional), .decoding⟩) := by
      rw [hstep]
      exact readMore_filling hbehind hlen hfits
    obtain ⟨run', hreach', hphase, hbehind'⟩ := ih hfits hnext rfl
    exact ⟨run', hreach.trans hreach'.head, hphase, hbehind'⟩

/-- **The call returns** what the stream resolves to from its first byte on. -/
theorem readPreamble_returns {decode : PreambleDecoder T} (hlawful : LawfulDecoder decode)
    {stream : List UInt8} {ending : Option StreamError} {taken : ℕ}
    {result : Except PreambleError (T × List UInt8)}
    (h : Resolves decode stream ending 1 result taken) {reader : Reader UInt8 StreamError}
    (hreader : Behind stream ending 0 reader) :
    ∃ run, Reaches decode (readPreamble reader) run ∧ run.phase = .returned result ∧
      Behind stream ending taken run.reader := by
  have hfirst : Filling stream ending 0 1 0 (readPreamble reader : PreambleRun T) :=
    readMore_filling hreader (Nat.zero_le _) (by decide)
  exact h.reaches hlawful (by decide) hfirst rfl

end PreambleRun

end Wireframe
