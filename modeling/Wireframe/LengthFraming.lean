/-
# Length-delimited streams and their incremental decoders

A length-delimited stream is a sequence of frames, each a header of fixed size that announces
the length of the payload behind it.  `Splits` is the grammar: it reads off the complete
frames and what is left behind the last of them (`Tail`); every stream splits in exactly one
way (`Splits.unique`).

An incremental decoder is given the stream in chunks and keeps what it has not used yet.
`decode` is such a decoder: once a header is complete it is taken off the buffer and
remembered.  `feed_spec`: any decoder that behaves like `decode` yields the frames of the
grammar and comes to rest at its tail, however the stream was cut.

A reader may also ask for one frame at a time, while the rest of the stream is still on its way
(`Inlet.next`).  `Inlet.Clear.next`: a reader that has used up everything gets the frame that is
sent to it, however it is cut, and has then used up everything again.
-/
import Mathlib.Tactic

namespace LengthFraming

variable {α ε σ : Type*}

/-- Size and meaning of a header, and the largest length it may announce. -/
structure Format (α : Type*) where
  headerLen : ℕ
  header_pos : 0 < headerLen
  announced : List α → ℕ
  maxLen : ℕ

/-! ## The grammar -/

/-- What follows the last complete frame. -/
inductive Tail (α : Type*) where
  | boundary
  | header (received : List α)
  | truncated (received : List α) (announced : ℕ)
  | oversized (announced : ℕ)

/-- The stream consists of these frames, followed by this tail. -/
inductive Splits (f : Format α) : List α → List (List α) → Tail α → Prop where
  | boundary : Splits f [] [] .boundary
  | header {b : List α} (hne : b ≠ []) (hshort : b.length < f.headerLen) :
      Splits f b [] (.header b)
  | oversized {head rest : List α} (hhead : head.length = f.headerLen)
      (hover : f.maxLen < f.announced head) :
      Splits f (head ++ rest) [] (.oversized (f.announced head))
  | truncated {head rest : List α} (hhead : head.length = f.headerLen)
      (hfits : f.announced head ≤ f.maxLen) (hshort : rest.length < f.announced head) :
      Splits f (head ++ rest) [] (.truncated rest (f.announced head))
  | frame {head payload rest : List α} {frames : List (List α)} {tail : Tail α}
      (hhead : head.length = f.headerLen) (hfits : f.announced head ≤ f.maxLen)
      (hpayload : payload.length = f.announced head) (hrest : Splits f rest frames tail) :
      Splits f (head ++ (payload ++ rest)) (payload :: frames) tail

section Unique

variable {f : Format α} {b : List α} {frames frames' : List (List α)} {tail tail' : Tail α}

/-- The four ways a stream of at least a header can go on, read off its header. -/
theorem Splits.of_header {head rest : List α} (hhead : head.length = f.headerLen)
    (h : Splits f (head ++ rest) frames tail) :
    (f.maxLen < f.announced head ∧ frames = [] ∧ tail = .oversized (f.announced head)) ∨
    (f.announced head ≤ f.maxLen ∧ rest.length < f.announced head ∧ frames = [] ∧
      tail = .truncated rest (f.announced head)) ∨
    ∃ frames', f.announced head ≤ f.maxLen ∧ f.announced head ≤ rest.length ∧
      frames = rest.take (f.announced head) :: frames' ∧
      Splits f (rest.drop (f.announced head)) frames' tail := by
  have hpos := f.header_pos
  generalize hb : head ++ rest = b at h
  cases h with
  | boundary =>
    have := congrArg List.length hb
    simp only [List.length_append, List.length_nil] at this
    omega
  | header _ hshort =>
    have := congrArg List.length hb
    rw [List.length_append] at this
    omega
  | oversized hhead' hover =>
    obtain ⟨rfl, -⟩ := List.append_inj hb (hhead.trans hhead'.symm)
    exact Or.inl ⟨hover, rfl, rfl⟩
  | truncated hhead' hfits hshort =>
    obtain ⟨rfl, rfl⟩ := List.append_inj hb (hhead.trans hhead'.symm)
    exact Or.inr (Or.inl ⟨hfits, hshort, rfl, rfl⟩)
  | @frame _ payload rest' frames' _ hhead' hfits hpayload hrest =>
    obtain ⟨rfl, rfl⟩ := List.append_inj hb (hhead.trans hhead'.symm)
    refine Or.inr (Or.inr ⟨frames', hfits, ?_, ?_, ?_⟩)
    · rw [List.length_append]
      omega
    · rw [← hpayload, List.take_left]
    · rw [← hpayload, List.drop_left]
      exact hrest

/-- **A stream splits in one way only.** -/
theorem Splits.unique (h : Splits f b frames tail) (h' : Splits f b frames' tail') :
    frames = frames' ∧ tail = tail' := by
  have hpos := f.header_pos
  induction h generalizing frames' with
  | boundary =>
    generalize hb : ([] : List α) = b at h'
    cases h' with
    | boundary => exact ⟨rfl, rfl⟩
    | header hne _ => exact absurd hb.symm hne
    | oversized hhead _ | truncated hhead _ _ | frame hhead _ _ _ =>
      have := congrArg List.length hb
      rw [List.length_append, List.length_nil] at this
      omega
  | header hne hshort =>
    cases h' with
    | boundary => exact absurd rfl hne
    | header _ _ => exact ⟨rfl, rfl⟩
    | oversized hhead _ | truncated hhead _ _ | frame hhead _ _ _ =>
      rw [List.length_append] at hshort
      omega
  | oversized hhead hover =>
    rcases h'.of_header hhead with ⟨-, rfl, rfl⟩ | ⟨hfits, -⟩ | ⟨_, hfits, -⟩
    · exact ⟨rfl, rfl⟩
    · omega
    · omega
  | truncated hhead hfits hshort =>
    rcases h'.of_header hhead with ⟨hover, -⟩ | ⟨-, -, rfl, rfl⟩ | ⟨_, -, hlen, -⟩
    · omega
    · exact ⟨rfl, rfl⟩
    · omega
  | @frame head payload rest frames tail hhead hfits hpayload hrest ih =>
    rcases h'.of_header hhead with ⟨hover, -⟩ | ⟨-, hshort, -⟩ | ⟨frames'', -, -, rfl, hrest'⟩
    · omega
    · rw [List.length_append] at hshort
      omega
    · rw [← hpayload, List.drop_left] at hrest'
      obtain ⟨rfl, rfl⟩ := ih hrest'
      rw [← hpayload, List.take_left]
      exact ⟨rfl, rfl⟩

end Unique

/-! ## The decoder -/

/-- Between two calls the decoder waits for a header, or for the payload of one it has read. -/
inductive DecodeState where
  | head
  | data (n : ℕ)
  deriving DecidableEq, Repr

/-- Take a payload of `n` symbols, when they are there. -/
def decodeData (n : ℕ) (buf : List α) : Except ε (Option (List α)) × DecodeState × List α :=
  if buf.length < n then (.ok none, .data n, buf)
  else (.ok (some (buf.take n)), .head, buf.drop n)

/-- One call: at most one frame.  An oversized header is reported as `tooLong` and stays in the
buffer. -/
def decode (f : Format α) (tooLong : ε) :
    DecodeState → List α → Except ε (Option (List α)) × DecodeState × List α
  | .data n, buf => decodeData n buf
  | .head, buf =>
    if buf.length < f.headerLen then (.ok none, .head, buf)
    else if f.maxLen < f.announced (buf.take f.headerLen) then (.error tooLong, .head, buf)
    else decodeData (f.announced (buf.take f.headerLen)) (buf.drop f.headerLen)

/-- Call a decoder until it yields no frame; `none` when the fuel runs out. -/
def drain (step : σ → List α → Except ε (Option (List α)) × σ × List α) :
    ℕ → σ → List α → Option (List (List α) × σ × List α)
  | 0, _, _ => none
  | fuel + 1, s, buf =>
    match step s buf with
    | (.ok (some frame), s, buf) => (drain step fuel s buf).map fun r => (frame :: r.1, r.2)
    | (.ok none, s, buf) => some ([], s, buf)
    | (.error _, s, buf) => some ([], s, buf)

/-- Add each chunk to the buffer and drain the decoder. -/
def feed (step : σ → List α → Except ε (Option (List α)) × σ × List α) (fuel : ℕ) :
    List (List α) → σ → List α → Option (List (List α) × σ × List α)
  | [], s, buf => some ([], s, buf)
  | chunk :: chunks, s, buf =>
    match drain step fuel s (buf ++ chunk) with
    | none => none
    | some (frames, s, buf) => (feed step fuel chunks s buf).map fun r => (frames ++ r.1, r.2)

/-- The decoder `step` is `decode`, seen through `view`. -/
structure Implements (f : Format α) (tooLong : ε)
    (step : σ → List α → Except ε (Option (List α)) × σ × List α) (view : σ → DecodeState) :
    Prop where
  result : ∀ s buf, (step s buf).1 = (decode f tooLong (view s) buf).1
  state : ∀ s buf, view (step s buf).2.1 = (decode f tooLong (view s) buf).2.1
  buffer : ∀ s buf, (step s buf).2.2 = (decode f tooLong (view s) buf).2.2

/-- The part of the stream that is not decoded yet: the buffer, behind the header the decoder
has taken off it. -/
def Unread (f : Format α) (buf u : List α) : DecodeState → Prop
  | .head => u = buf
  | .data n => ∃ head : List α, head.length = f.headerLen ∧ f.announced head = n ∧ n ≤ f.maxLen ∧
      u = head ++ buf

/-- Where a decoder stands that can do nothing more with what it has. -/
def AtRest (f : Format α) (d : DecodeState) (buf : List α) : Tail α → Prop
  | .boundary => d = .head ∧ buf = []
  | .header received => d = .head ∧ buf = received ∧ received ≠ [] ∧ received.length < f.headerLen
  | .truncated received n => d = .data n ∧ buf = received ∧ received.length < n
  | .oversized n => d = .head ∧ f.headerLen ≤ buf.length ∧
      f.announced (buf.take f.headerLen) = n ∧ f.maxLen < n

section Decode

variable {f : Format α} {tooLong : ε} {d : DecodeState} {n : ℕ} {buf u : List α}

theorem Unread.append (h : Unread f buf u d) (chunk : List α) :
    Unread f (buf ++ chunk) (u ++ chunk) d := by
  cases d with
  | head =>
    show u ++ chunk = buf ++ chunk
    rw [show u = buf from h]
  | data n =>
    obtain ⟨head, hhead, hannounced, hfits, rfl⟩ := h
    exact ⟨head, hhead, hannounced, hfits, List.append_assoc _ _ _⟩

/-- The payload is that of the first frame of what is unread, and `rest` is what follows it. -/
def Yields (f : Format α) (u payload rest : List α) : Prop :=
  ∃ head : List α, u = head ++ (payload ++ rest) ∧ head.length = f.headerLen ∧
    f.announced head ≤ f.maxLen ∧ payload.length = f.announced head

/-- What one call can do: it yields the first frame of what is unread, or yields none and
rests at the tail. -/
def CallOutcome (f : Format α) (u : List α)
    (r : Except ε (Option (List α)) × DecodeState × List α) : Prop :=
  (∃ payload rest, Yields f u payload rest ∧ r = (.ok (some payload), .head, rest)) ∨
  ∃ result d' buf' tail, r = (result, d', buf') ∧ (∀ payload, result ≠ .ok (some payload)) ∧
    Splits f u [] tail ∧ AtRest f d' buf' tail ∧ Unread f buf' u d'

/-- With a header read, the payload is there or the decoder rests behind the header. -/
theorem decodeData_outcome {head : List α} (hhead : head.length = f.headerLen)
    (hannounced : f.announced head = n) (hfits : n ≤ f.maxLen) :
    CallOutcome f (head ++ buf)
      (decodeData n buf : Except ε (Option (List α)) × DecodeState × List α) := by
  subst hannounced
  unfold decodeData
  by_cases hshort : buf.length < f.announced head
  · rw [if_pos hshort]
    refine Or.inr ⟨_, _, _, _, rfl, by simp, .truncated hhead hfits hshort, ⟨rfl, rfl, hshort⟩, ?_⟩
    exact ⟨head, hhead, rfl, hfits, rfl⟩
  · rw [if_neg hshort]
    refine Or.inl ⟨_, _, ⟨head, ?_, hhead, hfits, ?_⟩, rfl⟩
    · rw [List.take_append_drop]
    · rw [List.length_take]
      omega

/-- **Step lemma**: one call of `decode`, from any state it can rest in. -/
theorem decode_outcome (h : Unread f buf u d) : CallOutcome f u (decode f tooLong d buf) := by
  cases d with
  | data n =>
    obtain ⟨head, hhead, hannounced, hfits, rfl⟩ := h
    exact decodeData_outcome hhead hannounced hfits
  | head =>
    obtain rfl : u = buf := h
    simp only [decode]
    by_cases hshort : u.length < f.headerLen
    · rw [if_pos hshort]
      by_cases hempty : u = []
      · subst hempty
        exact Or.inr ⟨_, _, _, _, rfl, by simp, .boundary, ⟨rfl, rfl⟩, rfl⟩
      · exact Or.inr ⟨_, _, _, _, rfl, by simp, .header hempty hshort,
          ⟨rfl, rfl, hempty, hshort⟩, rfl⟩
    · rw [if_neg hshort]
      have hhead : (u.take f.headerLen).length = f.headerLen := by
        rw [List.length_take]
        omega
      have hu : u.take f.headerLen ++ u.drop f.headerLen = u := List.take_append_drop _ _
      by_cases hover : f.maxLen < f.announced (u.take f.headerLen)
      · rw [if_pos hover]
        have hsplits : Splits f (u.take f.headerLen ++ u.drop f.headerLen) [] _ :=
          .oversized hhead hover
        rw [hu] at hsplits
        exact Or.inr ⟨_, _, _, _, rfl, by simp, hsplits, ⟨rfl, by omega, rfl, hover⟩, rfl⟩
      · rw [if_neg hover]
        have houtcome : CallOutcome f (u.take f.headerLen ++ u.drop f.headerLen)
            (decodeData (f.announced (u.take f.headerLen)) (u.drop f.headerLen) :
              Except ε (Option (List α)) × DecodeState × List α) :=
          decodeData_outcome hhead rfl (Nat.not_lt.mp hover)
        rw [hu] at houtcome
        exact houtcome

end Decode

/-! ## At rest -/

section AtRest

variable {f : Format α} {tooLong : ε} {d : DecodeState} {n : ℕ} {buf : List α} {tail : Tail α}

/-- A further call changes nothing for a decoder that waits for more of the stream. -/
theorem AtRest.decode_waiting (h : AtRest f d buf tail) (htail : ∀ n, tail ≠ .oversized n) :
    decode f tooLong d buf = (.ok none, d, buf) := by
  cases tail with
  | boundary =>
    obtain ⟨rfl, rfl⟩ := h
    exact if_pos f.header_pos
  | header received =>
    obtain ⟨rfl, rfl, -, hshort⟩ := h
    exact if_pos hshort
  | truncated received n =>
    obtain ⟨rfl, rfl, hshort⟩ := h
    exact if_pos hshort
  | oversized n => exact absurd rfl (htail n)

theorem AtRest.decode_oversized (h : AtRest f d buf (.oversized n)) :
    decode f tooLong d buf = (.error tooLong, d, buf) := by
  obtain ⟨rfl, hlen, rfl, hover⟩ := h
  simp only [decode]
  rw [if_neg (by omega), if_pos hover]

end AtRest

/-! ## Draining and feeding -/

section Feed

variable {f : Format α} {tooLong : ε} {view : σ → DecodeState}
  {step : σ → List α → Except ε (Option (List α)) × σ × List α} {s : σ} {buf u : List α}

theorem Implements.eq (himpl : Implements f tooLong step view) {d' : DecodeState} {buf' : List α}
    {result : Except ε (Option (List α))}
    (h : decode f tooLong (view s) buf = (result, d', buf')) :
    ∃ s', step s buf = (result, s', buf') ∧ view s' = d' := by
  refine ⟨(step s buf).2.1, ?_, ?_⟩
  · have hresult := himpl.result s buf
    have hbuffer := himpl.buffer s buf
    rw [h] at hresult hbuffer
    exact Prod.ext hresult (Prod.ext rfl hbuffer)
  · have hstate := himpl.state s buf
    rw [h] at hstate
    exact hstate

/-- Renaming the errors of a decoder. -/
theorem decode_mapError {δ : Type*} (g : ε → δ) (d : DecodeState) :
    decode f (g tooLong) d buf =
      ((decode f tooLong d buf).1.mapError g, (decode f tooLong d buf).2) := by
  have hdata : ∀ n (b : List α),
      (decodeData n b : Except δ (Option (List α)) × DecodeState × List α) =
      ((decodeData n b : Except ε (Option (List α)) × DecodeState × List α).1.mapError g,
        (decodeData n b : Except ε (Option (List α)) × DecodeState × List α).2) := by
    intro n b
    unfold decodeData
    split_ifs <;> rfl
  cases d with
  | data n => exact hdata n buf
  | head =>
    simp only [decode]
    split_ifs
    · rfl
    · rfl
    · exact hdata _ _

theorem Implements.mapError {δ : Type*} (himpl : Implements f tooLong step view) (g : ε → δ) :
    Implements f (g tooLong) (fun s buf => ((step s buf).1.mapError g, (step s buf).2)) view where
  result s buf := by rw [decode_mapError, himpl.result]
  state s buf := by rw [decode_mapError, himpl.state]
  buffer s buf := by rw [decode_mapError, himpl.buffer]

/-- A decoder that has used up what it can. -/
structure Rests (f : Format α) (view : σ → DecodeState) (s : σ) (buf u : List α) (tail : Tail α) :
    Prop where
  unread : Unread f buf u (view s)
  splits : Splits f u [] tail
  atRest : AtRest f (view s) buf tail

/-- Draining yields complete frames off the front of what is unread. -/
theorem drain_spec (himpl : Implements f tooLong step view) {fuel : ℕ}
    (h : Unread f buf u (view s)) (hfuel : u.length < fuel) :
    ∃ frames s' buf' u' tail, drain step fuel s buf = some (frames, s', buf') ∧
      Rests f view s' buf' u' tail ∧ u'.length ≤ u.length ∧
      ∀ more frames' tail', Splits f (u' ++ more) frames' tail' →
        Splits f (u ++ more) (frames ++ frames') tail' := by
  induction fuel generalizing s buf u with
  | zero => omega
  | succ fuel ih =>
    have houtcome : CallOutcome f u (decode f tooLong (view s) buf) := decode_outcome h
    rcases houtcome with ⟨payload, rest, hyields, heq⟩ |
      ⟨result, d', buf', tail, heq, hnone, hsplits, hrest, hunread⟩
    · obtain ⟨head, rfl, hhead, hfits, hpayload⟩ := hyields
      obtain ⟨t, hstep, hview⟩ := himpl.eq heq
      have hpos := f.header_pos
      have hlen :
          rest.length + (head.length + payload.length) = (head ++ (payload ++ rest)).length := by
        simp only [List.length_append]
        omega
      have hunread : Unread f rest rest (view t) := by
        rw [hview]
        rfl
      obtain ⟨frames, s', buf', u', tail, hdrain, hrests, hle, hmore⟩ := ih hunread (by omega)
      refine ⟨payload :: frames, s', buf', u', tail, ?_, hrests, by omega, ?_⟩
      · rw [drain, hstep]
        simp only [hdrain, Option.map_some]
      · intro more frames' tail' hsplits
        have hframe := Splits.frame hhead hfits hpayload (hmore more frames' tail' hsplits)
        rw [← List.append_assoc payload, ← List.append_assoc head] at hframe
        exact hframe
    · obtain ⟨t, hstep, hview⟩ := himpl.eq heq
      subst hview
      refine ⟨[], t, buf', u, tail, ?_, ⟨hunread, hsplits, hrest⟩, le_rfl, fun _ _ _ h => h⟩
      rw [drain, hstep]
      cases result with
      | error err => rfl
      | ok frame =>
        cases frame with
        | none => rfl
        | some payload => exact absurd rfl (hnone payload)

/-- **Feeding a stream in chunks** yields the frames of the whole stream and leaves the decoder
at its tail. -/
theorem feed_spec (himpl : Implements f tooLong step view) {fuel : ℕ} {chunks : List (List α)}
    {tail : Tail α} (h : Rests f view s buf u tail) (hfuel : (u ++ chunks.flatten).length < fuel) :
    ∃ frames s' buf' u' tail', feed step fuel chunks s buf = some (frames, s', buf') ∧
      Rests f view s' buf' u' tail' ∧ Splits f (u ++ chunks.flatten) frames tail' := by
  induction chunks generalizing s buf u tail with
  | nil =>
    refine ⟨[], s, buf, u, tail, rfl, h, ?_⟩
    rw [List.flatten_nil, List.append_nil]
    exact h.splits
  | cons chunk chunks ih =>
    rw [List.flatten_cons, ← List.append_assoc] at hfuel ⊢
    have hchunk : (u ++ chunk).length < fuel := by
      rw [List.length_append] at hfuel
      omega
    obtain ⟨frames, t, buf₁, u₁, tail₁, hdrain, hrests, hle, hmore⟩ :=
      drain_spec himpl (h.unread.append chunk) hchunk
    have hfuel' : (u₁ ++ chunks.flatten).length < fuel := by
      rw [List.length_append] at hfuel ⊢
      omega
    obtain ⟨frames', s', buf', u', tail', hfeed, hrests', hsplits⟩ := ih hrests hfuel'
    refine ⟨frames ++ frames', s', buf', u', tail', ?_, hrests', hmore _ _ _ hsplits⟩
    simp only [feed, hdrain, hfeed, Option.map_some]

end Feed

/-! ## One frame at a time -/

/-- The receiving end of a stream: the state of a decoder, its buffer, and the chunks that are on
their way. -/
structure Inlet (σ α : Type*) where
  state : σ
  buf : List α
  coming : List (List α)

namespace Inlet

/-- Ask the decoder for a frame, and add the next chunk to the buffer each time it wants more;
`none` when it wants more than is coming. -/
def nextFrom (step : σ → List α → Except ε (Option (List α)) × σ × List α) :
    List (List α) → σ → List α → Option (Except ε (List α)) × Inlet σ α
  | [], s, buf =>
    match step s buf with
    | (.ok (some frame), s, buf) => (some (.ok frame), ⟨s, buf, []⟩)
    | (.error err, s, buf) => (some (.error err), ⟨s, buf, []⟩)
    | (.ok none, s, buf) => (none, ⟨s, buf, []⟩)
  | chunk :: chunks, s, buf =>
    match step s buf with
    | (.ok (some frame), s, buf) => (some (.ok frame), ⟨s, buf, chunk :: chunks⟩)
    | (.error err, s, buf) => (some (.error err), ⟨s, buf, chunk :: chunks⟩)
    | (.ok none, s, buf) => nextFrom step chunks s (buf ++ chunk)

/-- Read one frame. -/
def next (step : σ → List α → Except ε (Option (List α)) × σ × List α) (inlet : Inlet σ α) :
    Option (Except ε (List α)) × Inlet σ α :=
  nextFrom step inlet.coming inlet.state inlet.buf

/-- Chunks are sent to a receiver. -/
def bring (inlet : Inlet σ α) (chunks : List (List α)) : Inlet σ α :=
  { inlet with coming := inlet.coming ++ chunks }

/-- The receiver waits for a header, and there is nothing it has not used. -/
structure Clear (view : σ → DecodeState) (inlet : Inlet σ α) : Prop where
  state : view inlet.state = .head
  buf : inlet.buf = []
  coming : inlet.coming.flatten = []

section Next

variable {f : Format α} {tooLong : ε} {view : σ → DecodeState}
  {step : σ → List α → Except ε (Option (List α)) × σ × List α} {s : σ} {d : DecodeState}
  {buf u payload payload' rest rest' more : List α} {tail : Tail α}

/-- The first frame of a stream stays the first when more follows. -/
theorem yields_append_unique (h : Yields f u payload rest)
    (h' : Yields f (u ++ more) payload' rest') : payload' = payload ∧ rest' = rest ++ more := by
  obtain ⟨head, rfl, hhead, -, hpayload⟩ := h
  obtain ⟨head', heq, hhead', -, hpayload'⟩ := h'
  rw [List.append_assoc, List.append_assoc] at heq
  obtain ⟨rfl, htail⟩ := List.append_inj heq (hhead.trans hhead'.symm)
  obtain ⟨rfl, rfl⟩ := List.append_inj htail (hpayload.trans hpayload'.symm)
  exact ⟨rfl, rfl⟩

/-- A stream that begins with a frame does not end before the first. -/
theorem not_splits_nil (h : Yields f u payload rest) : ¬ Splits f u [] tail := by
  obtain ⟨head, rfl, hhead, hfits, hpayload⟩ := h
  intro hsplits
  rcases hsplits.of_header hhead with ⟨hover, -⟩ | ⟨-, hshort, -⟩ | ⟨frames, -, -, hframes, -⟩
  · omega
  · rw [List.length_append] at hshort
    omega
  · cases hframes

/-- A stream that begins with a frame is never reported as too long. -/
theorem decode_ne_error (h : Unread f buf u d) (hyields : Yields f (u ++ more) payload rest)
    (err : ε) : (decode f tooLong d buf).1 ≠ .error err := by
  have hdata : ∀ n (b : List α),
      (decodeData n b : Except ε (Option (List α)) × DecodeState × List α).1 ≠ .error err := by
    intro n b
    unfold decodeData
    split_ifs <;> simp
  cases d with
  | data n => exact hdata n buf
  | head =>
    obtain rfl : u = buf := h
    simp only [decode]
    by_cases hshort : u.length < f.headerLen
    · rw [if_pos hshort]
      simp
    · -- the header is that of the frame, which fits
      obtain ⟨head, heq, hhead, hfits, -⟩ := hyields
      have htake : u.take f.headerLen = head := by
        have hprefix := congrArg (List.take f.headerLen) heq
        rwa [List.take_append_of_le_length (Nat.not_lt.mp hshort), List.take_left' hhead]
          at hprefix
      rw [if_neg hshort, htake, if_neg (Nat.not_lt.mpr hfits)]
      exact hdata _ _

/-- A call yields the first frame of the stream, or asks for more of it. -/
theorem decode_yields (tooLong : ε) (h : Unread f buf u d)
    (hyields : Yields f (u ++ more) payload rest) :
    (∃ rest', decode f tooLong d buf = (.ok (some payload), .head, rest') ∧
      rest = rest' ++ more) ∨
    ∃ d' buf', decode f tooLong d buf = (.ok none, d', buf') ∧ Unread f buf' u d' ∧ more ≠ [] := by
  have houtcome : CallOutcome f u (decode f tooLong d buf) := decode_outcome h
  rcases houtcome with ⟨payload', rest', hyields', heq⟩ |
    ⟨result, d', buf', tail, heq, hnone, hsplits, -, hunread⟩
  · obtain ⟨rfl, rfl⟩ := yields_append_unique hyields' hyields
    exact Or.inl ⟨rest', heq, rfl⟩
  · refine Or.inr ⟨d', buf', ?_, hunread, ?_⟩
    · rcases result with err | _ | payload'
      · exact absurd (congrArg Prod.fst heq) (decode_ne_error h hyields err)
      · exact heq
      · exact absurd rfl (hnone payload')
    · rintro rfl
      rw [List.append_nil] at hyields
      exact not_splits_nil hyields hsplits

/-- **One frame**: when what is unread and what is coming begin with a frame, it is read, and the
rest is left. -/
theorem nextFrom_yields (himpl : Implements f tooLong step view) {chunks : List (List α)}
    (h : Unread f buf u (view s)) (hyields : Yields f (u ++ chunks.flatten) payload rest) :
    ∃ inlet u', nextFrom step chunks s buf = (some (.ok payload), inlet) ∧
      Unread f inlet.buf u' (view inlet.state) ∧ u' ++ inlet.coming.flatten = rest := by
  induction chunks generalizing s buf u with
  | nil =>
    rcases decode_yields tooLong h hyields with
      ⟨rest', heq, rfl⟩ | ⟨_, _, -, -, hmore⟩
    · obtain ⟨t, hstep, hview⟩ := himpl.eq heq
      refine ⟨⟨t, rest', []⟩, rest', ?_, ?_, rfl⟩
      · rw [nextFrom, hstep]
      · rw [hview]
        rfl
    · exact absurd List.flatten_nil hmore
  | cons chunk chunks ih =>
    rcases decode_yields tooLong h hyields with
      ⟨rest', heq, rfl⟩ | ⟨d', buf', heq, hunread, -⟩
    · obtain ⟨t, hstep, hview⟩ := himpl.eq heq
      refine ⟨⟨t, rest', chunk :: chunks⟩, rest', ?_, ?_, rfl⟩
      · rw [nextFrom, hstep]
      · rw [hview]
        rfl
    · obtain ⟨t, hstep, hview⟩ := himpl.eq heq
      rw [← hview] at hunread
      rw [List.flatten_cons, ← List.append_assoc] at hyields
      obtain ⟨inlet, u', hnext, hleft⟩ := ih (hunread.append chunk) hyields
      refine ⟨inlet, u', ?_, hleft⟩
      rw [nextFrom, hstep]
      exact hnext

/-- Where nothing is unread, a header is waited for. -/
theorem eq_head_of_unread (h : Unread f buf [] d) : d = .head ∧ buf = [] := by
  cases d with
  | head => exact ⟨rfl, h.symm⟩
  | data n =>
    obtain ⟨head, hhead, -, -, hnil⟩ := h
    have hempty := List.append_eq_nil_iff.mp hnil.symm
    have hpos := f.header_pos
    rw [hempty.1, List.length_nil] at hhead
    omega

/-- **A frame to a waiting receiver**, however it is cut: the receiver reads it and waits again. -/
theorem Clear.next (himpl : Implements f tooLong step view) {inlet : Inlet σ α}
    (h : Clear view inlet) {chunks : List (List α)} (hyields : Yields f chunks.flatten payload []) :
    ∃ inlet', (inlet.bring chunks).next step = (some (.ok payload), inlet') ∧
      Clear view inlet' := by
  have hunread : Unread f inlet.buf [] (view inlet.state) := by
    rw [h.state, h.buf]
    rfl
  have hcoming : (inlet.coming ++ chunks).flatten = chunks.flatten := by
    rw [List.flatten_append, h.coming, List.nil_append]
  rw [← hcoming] at hyields
  obtain ⟨inlet', u, hnext, hleft, hrest⟩ := nextFrom_yields himpl hunread hyields
  obtain ⟨rfl, hnone⟩ := List.append_eq_nil_iff.mp hrest
  obtain ⟨hstate, hbuf⟩ := eq_head_of_unread hleft
  exact ⟨inlet', hnext, hstate, hbuf, hnone⟩

/-- A waiting receiver reads nothing when nothing is sent. -/
theorem Clear.next_none (himpl : Implements f tooLong step view) {inlet : Inlet σ α}
    (h : Clear view inlet) : ∃ inlet', inlet.next step = (none, inlet') ∧ Clear view inlet' := by
  obtain ⟨state, buf, coming⟩ := inlet
  obtain ⟨hstate, rfl, hcoming⟩ := h
  unfold Inlet.next
  simp only at hstate hcoming ⊢
  have hwaits : ∀ {s : σ}, view s = .head → ∃ t, step s [] = (.ok none, t, []) ∧ view t = .head := by
    intro s hs
    refine himpl.eq ?_
    rw [hs]
    exact if_pos f.header_pos
  induction coming generalizing state with
  | nil =>
    obtain ⟨t, hstep, hview⟩ := hwaits hstate
    refine ⟨⟨t, [], []⟩, ?_, hview, rfl, rfl⟩
    rw [nextFrom, hstep]
  | cons chunk chunks ih =>
    obtain ⟨t, hstep, hview⟩ := hwaits hstate
    obtain ⟨rfl, hchunks⟩ := List.append_eq_nil_iff.mp hcoming
    rw [nextFrom, hstep]
    exact ih t hview hchunks

end Next

end Inlet

end LengthFraming
