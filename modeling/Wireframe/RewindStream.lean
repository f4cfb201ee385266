/-
# Replaying what the preamble left over

The bytes `read_preamble` took beyond the preamble go back in front of the connection: a
`RewindStream` yields them before it reads from the stream itself.  `pollRead_spec` says what one
read yields, and `readAll_spec` that a series of reads with buffers of any sizes yields the bytes
to come, in order and each of them once.

The two halves meet in `readPreamble_then_rewind`: for every stream and every way of cutting it,
the application behind the preamble sees the stream without the preamble's bytes.
-/
import Mathlib.Tactic
import Wireframe.Preamble

namespace Wireframe

open ShortReads

/-- A stream with bytes to replay first; `pos` counts those already replayed. -/
structure RewindStream where
  leftover : List UInt8
  pos : ℕ
  inner : Reader UInt8 StreamError

namespace RewindStream

/-- `RewindStream::new`. -/
def new (leftover : List UInt8) (inner : Reader UInt8 StreamError) : RewindStream :=
  ⟨leftover, 0, inner⟩

/-- The end of `poll_read`: nothing is left to replay, the stream itself is read. -/
def pollInner (s : RewindStream) (remaining : ℕ) : Except StreamError (List UInt8) × RewindStream :=
  let s := if s.leftover.length ≤ s.pos ∧ s.leftover ≠ [] then { s with leftover := [], pos := 0 }
    else s
  let (result, inner) := s.inner.read remaining
  (result, { s with inner })

/-- `poll_read` with room for `remaining` bytes: the bytes put into the buffer. -/
def pollRead (s : RewindStream) (remaining : ℕ) : Except StreamError (List UInt8) × RewindStream :=
  if s.pos ≠ s.leftover.length then
    let toCopy := min (s.leftover.length - s.pos) remaining
    match slice s.leftover s.pos (s.pos + toCopy) with
    | none => (.error ⟨.unexpectedEof, some "rewind buffer slice out of bounds"⟩, s)
    | some bytes =>
      let s := { s with pos := s.pos + toCopy }
      if s.pos < s.leftover.length ∨ 0 < toCopy then (.ok bytes, s)
      else
        -- what was put stays in the buffer in front of what the stream yields
        let (result, s) := s.pollInner (remaining - toCopy)
        (result.map (bytes ++ ·), s)
  else s.pollInner remaining

/-- The bytes still to come. -/
def content (s : RewindStream) : List UInt8 := s.leftover.drop s.pos ++ s.inner.bytes

/-! ## One read -/

/-- **What one read with room for `remaining` bytes may do**: fail as the stream does, once
nothing else is to come, or yield the next bytes, at least one if there is any and room for it. -/
structure Yields (s : RewindStream) (remaining : ℕ)
    (out : Except StreamError (List UInt8) × RewindStream) : Prop where
  pos_le : out.2.pos ≤ out.2.leftover.length
  ending : out.2.inner.ending = s.inner.ending
  failed : ∀ err, out.1 = .error err →
    s.inner.ending = some err ∧ s.content = [] ∧ out.2.content = []
  yielded : ∀ bytes, out.1 = .ok bytes → bytes.length ≤ remaining ∧
    bytes ++ out.2.content = s.content ∧ (bytes = [] → remaining = 0 ∨ s.content = [])

/-- Behind the leftover a read yields what the stream yields. -/
theorem pollInner_yields {s : RewindStream} (hdone : s.pos = s.leftover.length) (remaining : ℕ) :
    s.Yields remaining (s.pollInner remaining) := by
  obtain ⟨leftover, pos, inner⟩ := s
  simp only at hdone
  subst hdone
  have hcontent : content ⟨leftover, leftover.length, inner⟩ = inner.bytes := by
    rw [content, List.drop_length, List.nil_append]
  -- clearing the replayed bytes leaves nothing to replay either way
  obtain ⟨leftover', hpoll⟩ : ∃ leftover' : List UInt8,
      pollInner ⟨leftover, leftover.length, inner⟩ remaining =
        ((inner.read remaining).1, ⟨leftover', leftover'.length, (inner.read remaining).2⟩) := by
    unfold pollInner
    by_cases hnil : leftover = []
    · exact ⟨leftover, by simp [hnil]⟩
    · exact ⟨[], by simp [hnil]⟩
  rw [hpoll]
  have hcontent' : content ⟨leftover', leftover'.length, (inner.read remaining).2⟩ =
      (inner.read remaining).2.bytes := by
    rw [content, List.drop_length, List.nil_append]
  obtain ⟨err, -, hnil, herr, hread⟩ | ⟨n, inner', hn, hn', hread, hbytes, hending, hzero⟩ :=
    inner.read_spec remaining
  · refine ⟨le_rfl, by rw [hread], ?_, ?_⟩
    · rintro err' herr'
      rw [hread] at herr'
      cases herr'
      exact ⟨herr, hcontent.trans hnil, by rw [hcontent', hread, hnil]⟩
    · rintro bytes hok
      rw [hread] at hok
      cases hok
  · refine ⟨le_rfl, by rw [hread]; exact hending, ?_, ?_⟩
    · rintro err' herr'
      rw [hread] at herr'
      cases herr'
    · rintro bytes hok
      rw [hread] at hok
      cases hok
      refine ⟨(List.length_take_le _ _).trans hn, ?_, ?_⟩
      · rw [hcontent', hread, hbytes, hcontent, List.take_append_drop]
      · intro hempty
        rw [hcontent]
        rcases List.take_eq_nil_iff.mp hempty with hn0 | hnil
        · exact (hzero hn0).imp_right And.left
        · exact Or.inr hnil

/-- A read is served from the leftover as long as there is any. -/
theorem pollRead_yields {s : RewindStream} (hpos : s.pos ≤ s.leftover.length) (remaining : ℕ) :
    s.Yields remaining (s.pollRead remaining) := by
  unfold pollRead
  by_cases hdone : s.pos = s.leftover.length
  · rw [if_neg (not_not.mpr hdone)]
    exact pollInner_yields hdone remaining
  · rw [if_pos hdone]
    set toCopy := min (s.leftover.length - s.pos) remaining with htoCopy
    have hslice := slice_eq_some s.leftover (Nat.le_add_right s.pos toCopy) (by omega)
    simp only [hslice]
    -- a byte is left to replay, so the stream itself is not read
    rw [if_pos (by omega)]
    have hbytes : ((s.leftover.take (s.pos + toCopy)).drop s.pos).length = toCopy := by
      rw [List.length_drop, List.length_take]
      omega
    refine ⟨by simp only; omega, rfl, by simp, ?_⟩
    rintro bytes hok
    cases hok
    refine ⟨by omega, ?_, ?_⟩
    · have hsplit : (s.leftover.take (s.pos + toCopy)).drop s.pos ++
          s.leftover.drop (s.pos + toCopy) = s.leftover.drop s.pos := by
        rw [List.drop_take, Nat.add_sub_cancel_left, ← List.drop_drop, List.take_append_drop]
      rw [content, content, ← List.append_assoc, hsplit]
    · intro hempty
      rw [hempty, List.length_nil] at hbytes
      omega

/-! ## A series of reads -/

/-- Reads with buffers of the given sizes, one after the other. -/
def readAll : RewindStream → List ℕ → List (Except StreamError (List UInt8)) × RewindStream
  | s, [] => ([], s)
  | s, size :: sizes =>
    let (result, s) := s.pollRead size
    let (results, s) := readAll s sizes
    (result :: results, s)

/-- The bytes that reads yielded. -/
def received (results : List (Except StreamError (List UInt8))) : List UInt8 :=
  results.flatMap fun result => result.toOption.getD []

theorem received_cons (result : Except StreamError (List UInt8))
    (results : List (Except StreamError (List UInt8))) :
    received (result :: results) = result.toOption.getD [] ++ received results := rfl

theorem readAll_cons (s : RewindStream) (size : ℕ) (sizes : List ℕ) :
    s.readAll (size :: sizes) =
      ((s.pollRead size).1 :: ((s.pollRead size).2.readAll sizes).1,
        ((s.pollRead size).2.readAll sizes).2) := rfl

/-- What a read yields is taken off the front of what is to come, an error being nothing. -/
theorem Yields.received_append {s : RewindStream} {remaining : ℕ}
    {out : Except StreamError (List UInt8) × RewindStream} (h : s.Yields remaining out) :
    out.1.toOption.getD [] ++ out.2.content = s.content := by
  rcases hout : out.1 with err | bytes
  · obtain ⟨-, hnil, hnil'⟩ := h.failed err hout
    rw [hnil, hnil']
    rfl
  · exact (h.yielded bytes hout).2.1

/-- A read with room leaves less to come, if anything was to come. -/
theorem Yields.length_content_le {s : RewindStream} {remaining : ℕ}
    {out : Except StreamError (List UInt8) × RewindStream} (h : s.Yields remaining out)
    (hroom : 0 < remaining) : out.2.content.length ≤ s.content.length - 1 := by
  rcases hout : out.1 with err | bytes
  · rw [(h.failed err hout).2.2]
    exact Nat.zero_le _
  · obtain ⟨-, happend, hempty⟩ := h.yielded bytes hout
    rw [← happend, List.length_append]
    rcases Nat.eq_zero_or_pos bytes.length with hzero | hpos
    · rcases hempty (List.eq_nil_of_length_eq_zero hzero) with hfull | hnil
      · omega
      · rw [(List.append_eq_nil_iff.mp (happend.trans hnil)).2]
        exact Nat.zero_le _
    · omega

/-- Where a series of reads leaves a stream with `before` to come: what was yielded and what is
still to come make it up, and each read with room brought the end nearer. -/
structure Drained (s : RewindStream)
    (sizes : List ℕ) (out : List (Except StreamError (List UInt8)) × RewindStream) : Prop where
  pos_le : out.2.pos ≤ out.2.leftover.length
  received_append : received out.1 ++ out.2.content = s.content
  length_content_le : out.2.content.length ≤ s.content.length - sizes.countP (0 < ·)

/-- A sequence of reads yields what is left, in order. -/
theorem readAll_drained {s : RewindStream} (hpos : s.pos ≤ s.leftover.length) (sizes : List ℕ) :
    s.Drained sizes (s.readAll sizes) := by
  induction sizes generalizing s with
  | nil => exact ⟨hpos, rfl, le_rfl⟩
  | cons size sizes ih =>
    have hstep := pollRead_yields hpos size
    have hrest := ih hstep.pos_le
    rw [readAll_cons]
    refine ⟨hrest.pos_le, ?_, ?_⟩
    · rw [received_cons, List.append_assoc, hrest.received_append, hstep.received_append]
    · have hle := hrest.length_content_le
      rcases Nat.eq_zero_or_pos size with rfl | hroom
      · have hsame : (s.pollRead 0).2.content.length ≤ s.content.length := by
          rw [← hstep.received_append, List.length_append]
          exact Nat.le_add_left _ _
        rw [List.countP_cons_of_neg (by decide)]
        exact hle.trans (Nat.sub_le_sub_right hsame _)
      · have hless := hstep.length_content_le hroom
        rw [List.countP_cons_of_pos (by simpa using hroom), Nat.add_comm, ← Nat.sub_sub]
        exact hle.trans (Nat.sub_le_sub_right hless _)

/-! ## The preamble and what follows it -/

/-- A stream that yields exactly `bytes`: any series of reads yields a prefix of them in order,
enough reads with room yield all of them, and a read that fails or finds the end comes behind the
last of them. -/
def YieldsExactly (s : RewindStream) (bytes : List UInt8) : Prop :=
  ∀ sizes, received (s.readAll sizes).1 <+: bytes ∧
    (bytes.length ≤ sizes.countP (0 < ·) → received (s.readAll sizes).1 = bytes) ∧
    ∀ size, 0 < size → ((s.readAll sizes).2.pollRead size).1.toOption.getD [] = [] →
      received (s.readAll sizes).1 = bytes

/-- A new stream yields the leftover, then the inner bytes. -/
theorem yieldsExactly_new (leftover : List UInt8) (inner : Reader UInt8 StreamError) :
    (new leftover inner).YieldsExactly (leftover ++ inner.bytes) := by
  intro sizes
  have hdrained : (new leftover inner).Drained sizes _ := readAll_drained (Nat.zero_le _) sizes
  have hcontent : (new leftover inner).content = leftover ++ inner.bytes := rfl
  have hall := hdrained.received_append
  rw [hcontent] at hall
  refine ⟨⟨_, hall⟩, fun henough => ?_, fun size hroom hempty => ?_⟩
  · have hle := hdrained.length_content_le
    rw [hcontent, Nat.sub_eq_zero_of_le henough, Nat.le_zero, List.length_eq_zero_iff] at hle
    rw [← hall, hle, List.append_nil]
  · -- an empty read with room leaves what it found, and that is shorter unless there was nothing
    have hnext := pollRead_yields hdrained.pos_le size
    have hsame := hnext.received_append
    rw [hempty, List.nil_append] at hsame
    have hless := hnext.length_content_le hroom
    rw [hsame] at hless
    have hnil : ((new leftover inner).readAll sizes).2.content = [] :=
      List.eq_nil_of_length_eq_zero (by omega)
    rw [← hall, hnil, List.append_nil]

end RewindStream

open PreambleRun RewindStream in
/-- **The preamble is read the same however the stream is cut, and the application sees the rest
of the stream.**  For a lawful decoder the call returns, with its buffer within the bound all
along; the bytes it consumed and the leftover are what it took, one byte at least and otherwise
no byte behind the preamble; and the connection behind it yields the stream without the
consumed bytes. -/
theorem readPreamble_then_rewind {T : Type*} {decode : PreambleDecoder T}
    (hlawful : LawfulDecoder decode) (stream : List UInt8) (ending : Option StreamError) :
    ∃ (result : Except PreambleError (T × List UInt8)) (taken : ℕ), ∀ cuts : ℕ → ℕ,
      (∀ n, ((step decode)^[n] (readPreamble ⟨stream, ending, cuts⟩)).buf.length ≤ 1024) ∧
      ∃ run, Reaches decode (readPreamble ⟨stream, ending, cuts⟩) run ∧
        run.phase = .returned result ∧ run.reader.bytes = stream.drop taken ∧
        ∀ value leftover, result = .ok (value, leftover) →
          ∃ consumed, decode (stream.take taken) = .ok (value, consumed) ∧
            stream.take consumed ++ leftover = stream.take taken ∧
            taken = max 1 consumed ∧ taken ≤ stream.length ∧
            (RewindStream.new leftover run.reader).YieldsExactly (stream.drop consumed) := by
  obtain ⟨result, taken, hresolves⟩ :
      ∃ result taken, Resolves decode stream ending 1 result taken :=
    exists_resolves hlawful (by decide)
  refine ⟨result, taken, fun cuts => ⟨fun n => (iterate_bounded decode _ n).1, ?_⟩⟩
  have hreader : Behind stream ending 0 ⟨stream, ending, cuts⟩ := ⟨rfl, rfl⟩
  obtain ⟨run, hreach, hphase, hbehind⟩ := readPreamble_returns hlawful hresolves hreader
  refine ⟨run, hreach, hphase, hbehind.bytes, fun value leftover hok => ?_⟩
  obtain ⟨consumed, hdecode, hleftover, hfirst, hexact⟩ := hresolves.decoded_of_ok hlawful hok
  have htaken := hresolves.taken_le
  have hconsumed := hlawful.consumed_le hdecode
  rw [List.length_take, min_eq_left htaken] at hconsumed
  refine ⟨consumed, hdecode, ?_, by omega, htaken, ?_⟩
  · rw [hleftover, take_append_slice stream hconsumed]
  · have hyields := yieldsExactly_new leftover run.reader
    have hrest : leftover ++ run.reader.bytes = stream.drop consumed := by
      have hgap : taken = consumed + (taken - consumed) := by omega
      rw [hleftover, hbehind.bytes, List.drop_take]
      nth_rewrite 2 [hgap]
      rw [← List.drop_drop, List.take_append_drop]
    rwa [hrest] at hyields

/-- A preamble of two bytes. -/
def pairDecoder : PreambleDecoder (UInt8 × UInt8)
  | a :: b :: _ => .ok ((a, b), 2)
  | bytes => .error (.unexpectedEnd (2 - bytes.length))

theorem pairDecoder_ok {bytes : List UInt8} {value : UInt8 × UInt8} {consumed : ℕ}
    (h : pairDecoder bytes = .ok (value, consumed)) : consumed = 2 ∧ 2 ≤ bytes.length := by
  rcases bytes with _ | ⟨a, _ | ⟨b, rest⟩⟩
  · cases h
  · cases h
  · cases h
    exact ⟨rfl, by simp⟩

theorem pairDecoder_unexpectedEnd {bytes : List UInt8} {additional : ℕ}
    (h : pairDecoder bytes = .error (.unexpectedEnd additional)) :
    bytes.length + additional = 2 ∧ 0 < additional := by
  rcases bytes with _ | ⟨a, _ | ⟨b, rest⟩⟩
  · cases h
    exact ⟨rfl, Nat.two_pos⟩
  · cases h
    exact ⟨rfl, Nat.one_pos⟩
  · cases h

theorem pairDecoder_lawful : PreambleRun.LawfulDecoder pairDecoder where
  consumed_le h := (pairDecoder_ok h).1.trans_le (pairDecoder_ok h).2
  additional_pos h := (pairDecoder_unexpectedEnd h).2
  additional_le h h' := by rw [(pairDecoder_unexpectedEnd h).1, (pairDecoder_ok h').1]
  additional_usize _ h := by
    rw [(pairDecoder_unexpectedEnd h).1]
    decide

open PreambleRun in
theorem readPreamble_then_rewind_pair :
    LawfulDecoder pairDecoder ∧
    ∃ run, Reaches pairDecoder (readPreamble ⟨[7, 8, 9], none, fun _ => 1⟩) run ∧
      run.phase = .returned (.ok ((7, 8), [])) ∧
      (RewindStream.new [] run.reader).YieldsExactly [9] := by
  refine ⟨pairDecoder_lawful, ?_⟩
  obtain ⟨result, taken, hall⟩ := readPreamble_then_rewind pairDecoder_lawful [7, 8, 9] none
  obtain ⟨-, run, hreach, hphase, -, hok⟩ := hall fun _ => 1
  have hresult : ((step pairDecoder)^[6] (readPreamble ⟨[7, 8, 9], none, fun _ => 1⟩)).phase =
      .returned (.ok ((7, 8), [])) := rfl
  obtain rfl := hreach.returned_unique hphase ⟨6, rfl⟩ hresult
  have hsuccess := PreamblePhase.returned.inj (hphase.symm.trans hresult)
  obtain ⟨consumed, hdecode, -, -, -, hyields⟩ := hok _ _ hsuccess
  obtain rfl := (pairDecoder_ok hdecode).1
  exact ⟨_, hreach, hresult, hyields⟩

end Wireframe
