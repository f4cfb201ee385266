/-
# Where the server stands in what the client has sent

The invariant of one end of `Handshake`: how what the task of a connection has read so far lies in
what its client has written so far.  It does not depend on who moves when.  All that the client
can do is to make the pipe grow (`Pipe.Grows`), and every notion below is kept when it does
(`Standing.grow`, `Ledger.grow`); a move of the task itself is one case each (`ServerMove.account`).

* `Rewound` is the account of a rewound stream, for either end.
* `Wants` is what `read_preamble` makes up its mind to read, and `Progress` how far it has got.
-/
import Mathlib.Tactic
import Wireframe.Handshake

namespace Wireframe

open ShortReads

/-! ## Reading through a rewound stream -/

namespace RewindStream

/-- A read takes from the inner stream, if anything, its next bytes. -/
theorem pollRead_inner (s : RewindStream) (remaining : ℕ) :
    ∃ n, (s.pollRead remaining).2.inner.bytes = s.inner.bytes.drop n := by
  have hread : ∀ len, ∃ n, (s.inner.read len).2.bytes = s.inner.bytes.drop n := by
    intro len
    obtain ⟨err, -, -, -, hstep⟩ | ⟨n, r', -, -, hstep, hbytes, -⟩ := s.inner.read_spec len
    · exact ⟨0, by rw [hstep, List.drop_zero]⟩
    · exact ⟨n, by rw [hstep, hbytes]⟩
  have hinner : ∀ s' : RewindStream, s'.inner = s.inner → ∀ len,
      ∃ n, (s'.pollInner len).2.inner.bytes = s.inner.bytes.drop n := by
    intro s' hs' len
    unfold pollInner
    split
    · simpa only [hs'] using hread len
    · simpa only [hs'] using hread len
  unfold pollRead
  split
  · simp only
    split
    · exact ⟨0, rfl⟩
    · split
      · exact ⟨0, rfl⟩
      · exact hinner ⟨s.leftover, s.pos + min (s.leftover.length - s.pos) remaining, s.inner⟩ rfl _
  · exact hinner s rfl _

end RewindStream

namespace Handshake

/-- What is to come through a rewound stream: what it has to replay, and what is on its way. -/
def toCome (pipe : BytePipe) (stream : RewindStream) : List UInt8 :=
  stream.leftover.drop stream.pos ++ pipe.transit

/-- A stream rewound at `mark`: what was read through it and what is to come
make up what it was given to replay and all that was written behind the mark. -/
structure Rewound (pipe : BytePipe) (mark : ℕ) (leftover read : List UInt8)
    (stream : RewindStream) : Prop where
  mark_le : mark ≤ pipe.taken
  pos_le : stream.pos ≤ stream.leftover.length
  exactly : read ++ toCome pipe stream = leftover ++ pipe.sent.drop mark

/-- A read changes nothing about what was sent. -/
theorem poll_sent {pipe pipe' : BytePipe} {stream stream' : RewindStream} {room cut : ℕ}
    {bytes : List UInt8} (h : poll pipe stream room cut = some (bytes, stream', pipe')) :
    pipe'.sent = pipe.sent ∧ pipe'.ending = pipe.ending := by
  unfold poll at h
  split at h
  · cases h
    exact ⟨rfl, rfl⟩
  · cases h

section Rewound

variable {pipe pipe' : BytePipe} {mark : ℕ} {leftover read : List UInt8} {stream : RewindStream}

theorem Rewound.start (leftover : List UInt8) (inner : Reader UInt8 StreamError) :
    Rewound pipe pipe.taken leftover [] (RewindStream.new leftover inner) :=
  ⟨le_rfl, Nat.zero_le _, rfl⟩

/-- What is written later comes behind everything else. -/
theorem Rewound.grow (h : Rewound pipe mark leftover read stream) (hgrows : pipe.Grows pipe') :
    Rewound pipe' mark leftover read stream := by
  obtain ⟨more, htransit, hdrop⟩ := hgrows.drop_sent
  refine ⟨hgrows.taken ▸ h.mark_le, h.pos_le, ?_⟩
  rw [toCome, htransit, hdrop (h.mark_le.trans pipe.taken_le), ← List.append_assoc leftover,
    ← h.exactly, toCome]
  simp only [List.append_assoc]

/-- A read takes its bytes off the front of what is to come. -/
theorem Rewound.poll (h : Rewound pipe mark leftover read stream) {room cut : ℕ}
    {bytes : List UInt8} {stream' : RewindStream}
    (hpoll : Handshake.poll pipe stream room cut = some (bytes, stream', pipe')) :
    Rewound pipe' mark leftover (read ++ bytes) stream' := by
  unfold Handshake.poll at hpoll
  split at hpoll
  case isFalse => cases hpoll
  case isTrue hready =>
    set here : RewindStream := { stream with inner := pipe.reader fun _ => cut } with hhere
    obtain ⟨rfl, rfl, rfl⟩ : (here.pollRead room).1.toOption.getD [] = bytes ∧
        (here.pollRead room).2 = stream' ∧
        pipe.readTo (here.pollRead room).2.inner = pipe' := by
      simpa only [Option.some.injEq, Prod.mk.injEq] using hpoll
    have hyields := RewindStream.pollRead_yields (s := here) h.pos_le room
    have hcontent : here.content = toCome pipe stream := rfl
    -- the inner stream has got to some later place in the pipe
    obtain ⟨n, hn⟩ := here.pollRead_inner room
    obtain ⟨k, hk, hkn⟩ : ∃ k, k ≤ pipe.sent.length ∧ pipe.taken ≤ k ∧
        (here.pollRead room).2.inner.bytes = pipe.sent.drop k := by
      refine ⟨min (pipe.taken + n) pipe.sent.length, min_le_right _ _,
        le_min (Nat.le_add_right _ _) pipe.taken_le, ?_⟩
      rw [hn]
      show (pipe.sent.drop pipe.taken).drop n = _
      rw [List.drop_drop]
      rcases Nat.le_total (pipe.taken + n) pipe.sent.length with hle | hle
      · rw [min_eq_left hle]
      · rw [min_eq_right hle, List.drop_length, List.drop_eq_nil_iff.mpr hle]
    have htaken := pipe.taken_readTo hk hkn.2
    refine ⟨?_, hyields.pos_le, ?_⟩
    · rw [htaken]
      exact h.mark_le.trans hkn.1
    · have htransit : (pipe.readTo (here.pollRead room).2.inner).transit =
          (here.pollRead room).2.inner.bytes := by
        rw [Pipe.transit, htaken, hkn.2]
        rfl
      have happend := hyields.received_append
      rw [hcontent, RewindStream.content, ← htransit] at happend
      rw [List.append_assoc, toCome, happend]
      exact h.exactly

end Rewound

/-! ## What the server has asked for -/

section Server

variable {T : Type} {decode : PreambleDecoder T} {cfg : HandshakeConfig}

/-- The numbers of bytes of the stream that `read_preamble` makes up its mind to have: one, and
whatever the decoder asks for on what there is. -/
inductive Wants (decode : PreambleDecoder T) (sent : List UInt8) : ℕ → Prop where
  | first : Wants decode sent 1
  | more {k additional : ℕ} (h : Wants decode sent k) (hlen : k ≤ sent.length)
      (hdecode : decode (sent.take k) = .error (.unexpectedEnd additional)) :
      Wants decode sent (k + additional)

theorem Wants.grow {sent sent' : List UInt8} {k : ℕ} (h : Wants decode sent k)
    (hgrows : sent <+: sent') : Wants decode sent' k := by
  obtain ⟨more, rfl⟩ := hgrows
  induction h with
  | first => exact .first
  | more _ hlen hdecode ih =>
    refine .more ih (hlen.trans (List.length_append ▸ Nat.le_add_right _ _)) ?_
    rwa [List.take_append_of_le_length hlen]

/-- A preamble as a client writes it: the decoder takes it off the front of any stream, and asks
for more on every part of it. -/
structure Opens (decode : PreambleDecoder T) (value : T) (bytes : List UInt8) : Prop where
  nonempty : 0 < bytes.length
  length_le : bytes.length ≤ maxPreambleLen
  decodes : ∀ rest, decode (bytes ++ rest) = .ok (value, bytes.length)
  asks : ∀ n, n < bytes.length → ∃ additional,
    decode (bytes.take n) = .error (.unexpectedEnd additional)

/-- What was sent starts with the preamble, as far as it goes. -/
def Opened (bytes sent : List UInt8) : Prop := bytes <+: sent ∨ sent <+: bytes

theorem Opened.take_eq {bytes sent : List UInt8} (h : Opened bytes sent) {n : ℕ}
    (hn : n ≤ bytes.length) (hn' : n ≤ sent.length) : sent.take n = bytes.take n := by
  rcases h with ⟨more, rfl⟩ | ⟨more, rfl⟩
  · exact List.take_append_of_le_length hn
  · exact (List.take_append_of_le_length hn').symm

/-- No more is asked for than the client writes. -/
theorem Wants.le_length (hlawful : PreambleRun.LawfulDecoder decode) {value : T}
    {bytes sent : List UInt8} (hopens : Opens decode value bytes) (hopened : Opened bytes sent)
    {k : ℕ} (h : Wants decode sent k) : k ≤ bytes.length := by
  induction h with
  | first => exact hopens.nonempty
  | @more k additional _ hlen hask ih =>
    rw [hopened.take_eq ih hlen] at hask
    have hwhole := hopens.decodes []
    rw [List.append_nil, ← List.take_append_drop k bytes] at hwhole
    have hle := hlawful.additional_le hask hwhole
    rwa [List.length_take, min_eq_left ih, List.take_append_drop] at hle

/-- Why a connection may be refused, given what its client has sent and whether that was all. -/
inductive Refusal (decode : PreambleDecoder T) (sent : List UInt8) (ended : Bool) :
    PreambleError → Prop where
  | timedOut : Refusal decode sent ended timeoutError
  | short {k : ℕ} {err : PreambleError} (hwants : Wants decode sent k) (hshort : sent.length < k)
      (hended : ended = true) : Refusal decode sent ended err
  | malformed {k : ℕ} {err : PreambleError} (hwants : Wants decode sent k)
      (hlen : k ≤ sent.length) (hdecode : decode (sent.take k) = .error err)
      (hother : ∀ additional, err ≠ .unexpectedEnd additional) : Refusal decode sent ended err
  | tooLong {k additional : ℕ} {err : PreambleError} (hwants : Wants decode sent k)
      (hlen : k ≤ sent.length) (hdecode : decode (sent.take k) = .error (.unexpectedEnd additional))
      (hover : maxPreambleLen < k + additional) : Refusal decode sent ended err

theorem Refusal.grow {pipe pipe' : BytePipe} {err : PreambleError}
    (h : Refusal decode pipe.sent pipe.ending.isSome err) (hgrows : pipe.Grows pipe') :
    Refusal decode pipe'.sent pipe'.ending.isSome err := by
  cases h with
  | timedOut => exact .timedOut
  | short hwants hshort hended =>
    obtain ⟨hsent, hended'⟩ := hgrows.ended hended
    exact .short (hwants.grow hgrows.sent) (hsent ▸ hshort) hended'
  | malformed hwants hlen hdecode hother =>
    exact .malformed (hwants.grow hgrows.sent) (hlen.trans hgrows.sent.length_le)
      (by rwa [hgrows.take_sent hlen]) hother
  | tooLong hwants hlen hdecode hover =>
    exact .tooLong (hwants.grow hgrows.sent) (hlen.trans hgrows.sent.length_le)
      (by rwa [hgrows.take_sent hlen]) hover

/-- A client that keeps to its preamble is refused for nothing but the time it takes, or for going
away in the middle of it. -/
theorem Refusal.of_opened (hlawful : PreambleRun.LawfulDecoder decode) {value : T}
    {bytes sent : List UInt8} {ended : Bool} (hopens : Opens decode value bytes)
    (hopened : Opened bytes sent) {err : PreambleError} (h : Refusal decode sent ended err) :
    err = timeoutError ∨ ended = true ∧ sent.length < bytes.length := by
  cases h with
  | timedOut => exact Or.inl rfl
  | short hwants hshort hended =>
    exact Or.inr ⟨hended, hshort.trans_le (hwants.le_length hlawful hopens hopened)⟩
  | @malformed k _ hwants hlen hdecode hother =>
    have hle := hwants.le_length hlawful hopens hopened
    rw [hopened.take_eq hle hlen] at hdecode
    rcases Nat.lt_or_ge k bytes.length with hlt | hge
    · obtain ⟨additional, hask⟩ := hopens.asks k hlt
      exact absurd (Except.error.inj (hdecode.symm.trans hask)) (hother additional)
    · have hwhole := hopens.decodes []
      rw [List.append_nil, ← List.take_of_length_le hge, hdecode] at hwhole
      cases hwhole
  | tooLong hwants hlen hdecode hover =>
    have hle := (hwants.more hlen hdecode).le_length hlawful hopens hopened
    have hmax := hopens.length_le
    omega

/-! ## The account of the server -/

/-- A call of `read_preamble` that has taken `pipe.taken` bytes in `passes` passes. -/
inductive Progress (decode : PreambleDecoder T) (pipe : BytePipe) (passes : ℕ)
    (run : PreambleRun T) : Prop where
  | filling {start additional read : ℕ} (hphase : run.phase = .reading start additional read)
      (hpos : 0 < additional) (hread : read ≤ additional)
      (hfits : start + additional ≤ maxPreambleLen)
      (hwants : Wants decode pipe.sent (start + additional)) (htaken : pipe.taken = start + read)
      (hbuf : run.buf = pipe.sent.take (start + read) ++ List.replicate (additional - read) 0)
      (hpasses : passes ≤ 3 * start + read)
  | decoding (hphase : run.phase = .decoding) (hfits : pipe.taken ≤ maxPreambleLen)
      (hwants : Wants decode pipe.sent pipe.taken) (hbuf : run.buf = pipe.sent.take pipe.taken)
      (hpasses : passes + 1 ≤ 3 * pipe.taken)

/-- The preamble was decoded from the first `k` bytes; the handler took what it took from behind
them. -/
structure Handed (decode : PreambleDecoder T) (pipe : BytePipe) (value : T)
    (leftover took : List UInt8) (k : ℕ) : Prop where
  wants : Wants decode pipe.sent k
  decoded : ∃ consumed, decode (pipe.sent.take k) = .ok (value, consumed) ∧
    leftover = (pipe.sent.take k).drop consumed
  took_behind : took <+: pipe.sent.drop k
  mark_le : k + took.length ≤ pipe.taken

/-- What holds in every phase: refusals have a reason, and passes were not wasted. -/
structure Ledger (decode : PreambleDecoder T) (pipe : BytePipe) (e : ServerEnd T) : Prop where
  refusals : ∀ err, .decodeRejected err ∈ e.record →
    Refusal decode pipe.sent pipe.ending.isSome err
  budget : ∃ k, Wants decode pipe.sent k ∧ e.passes ≤ 3 * k

/-- The handler or the setup is running: nothing was read through the rewound stream. -/
def Welcome (decode : PreambleDecoder T) (pipe : BytePipe) (e : ServerEnd T) (value : T)
    (leftover : List UInt8) : Prop :=
  e.read = [] ∧ ∃ k, Handed decode pipe value leftover e.took k ∧ pipe.taken = k + e.took.length

/-- **Where the server stands** in what the client has sent. -/
def Standing (decode : PreambleDecoder T) (pipe : BytePipe) (e : ServerEnd T) : Prop :=
  match e.phase with
  | .reading run => e.took = [] ∧ e.read = [] ∧ Progress decode pipe e.passes run
  | .welcoming value leftover => Welcome decode pipe e value leftover
  | .connecting value leftover => Welcome decode pipe e value leftover
  | .serving value leftover stream =>
    ∃ k, Handed decode pipe value leftover e.took k ∧
      Rewound pipe (k + e.took.length) leftover e.read stream
  | _ => True

/-! ### The client writes -/

theorem Progress.grow {pipe pipe' : BytePipe} {passes : ℕ} {run : PreambleRun T}
    (h : Progress decode pipe passes run) (hgrows : pipe.Grows pipe') :
    Progress decode pipe' passes run := by
  cases h with
  | @filling start additional read hphase hpos hread hfits hwants htaken hbuf hpasses =>
    have hhas : start + read ≤ pipe.sent.length := htaken ▸ pipe.taken_le
    refine .filling hphase hpos hread hfits (hwants.grow hgrows.sent)
      (hgrows.taken.trans htaken) ?_ hpasses
    rw [hbuf, hgrows.take_sent hhas]
  | decoding hphase hfits hwants hbuf hpasses =>
    refine .decoding hphase (hgrows.taken ▸ hfits) ?_ ?_ (hgrows.taken ▸ hpasses)
    · rw [hgrows.taken]
      exact hwants.grow hgrows.sent
    · rw [hbuf, hgrows.taken, hgrows.take_sent pipe.taken_le]

theorem Handed.grow {pipe pipe' : BytePipe} {value : T} {leftover took : List UInt8} {k : ℕ}
    (h : Handed decode pipe value leftover took k) (hgrows : pipe.Grows pipe') :
    Handed decode pipe' value leftover took k := by
  have hk : k ≤ pipe.sent.length :=
    (Nat.le_add_right _ _).trans (h.mark_le.trans pipe.taken_le)
  obtain ⟨more, -, hdrop⟩ := hgrows.drop_sent
  refine ⟨h.wants.grow hgrows.sent, ?_, ?_, hgrows.taken ▸ h.mark_le⟩
  · rw [hgrows.take_sent hk]
    exact h.decoded
  · rw [hdrop hk]
    exact h.took_behind.trans (List.prefix_append _ _)

theorem Ledger.grow {pipe pipe' : BytePipe} {e : ServerEnd T} (h : Ledger decode pipe e)
    (hgrows : pipe.Grows pipe') : Ledger decode pipe' e := by
  obtain ⟨k, hwants, hpasses⟩ := h.budget
  exact ⟨fun err hmem => (h.refusals err hmem).grow hgrows, k, hwants.grow hgrows.sent, hpasses⟩

theorem Welcome.grow {pipe pipe' : BytePipe} {e : ServerEnd T} {value : T}
    {leftover : List UInt8} (h : Welcome decode pipe e value leftover)
    (hgrows : pipe.Grows pipe') : Welcome decode pipe' e value leftover := by
  obtain ⟨hread, k, hhanded, htaken⟩ := h
  exact ⟨hread, k, hhanded.grow hgrows, hgrows.taken.trans htaken⟩

theorem Standing.grow {pipe pipe' : BytePipe} {e : ServerEnd T} (h : Standing decode pipe e)
    (hgrows : pipe.Grows pipe') : Standing decode pipe' e := by
  obtain ⟨phase, took, read, passes, record⟩ := e
  cases phase with
  | reading run => exact ⟨h.1, h.2.1, h.2.2.grow hgrows⟩
  | welcoming value leftover | connecting value leftover => exact Welcome.grow h hgrows
  | serving value leftover stream =>
    obtain ⟨k, hhanded, hrewound⟩ := h
    exact ⟨k, hhanded.grow hgrows, hrewound.grow hgrows⟩
  | refusing err | disconnecting | gone => trivial

/-! ### A pass of `read_preamble` -/

/-- What a pass can lead to. -/
inductive Passed (decode : PreambleDecoder T) (pipe : BytePipe) (passes : ℕ)
    (run : PreambleRun T) : Prop where
  | goesOn (hprogress : Progress decode pipe passes run)
  | fails {err : PreambleError} (hphase : run.phase = .returned (.error err))
      (hrefusal : Refusal decode pipe.sent pipe.ending.isSome err)
      (hbudget : ∃ k, Wants decode pipe.sent k ∧ passes ≤ 3 * k)
  | succeeds {value : T} {leftover : List UInt8}
      (hphase : run.phase = .returned (.ok (value, leftover)))
      (hhanded : Handed decode pipe value leftover [] pipe.taken)
      (hbudget : passes ≤ 3 * pipe.taken)

/-- A pass that fills the buffer has more of it in place, or finds the end of the stream. -/
theorem passed_readOnce {pipe : BytePipe} {passes start additional read cut : ℕ}
    {run : PreambleRun T} (hready : pipe.Ready)
    (hphase : run.phase = .reading start additional read) (hlt : read < additional)
    (hfits : start + additional ≤ maxPreambleLen)
    (hwants : Wants decode pipe.sent (start + additional)) (htaken : pipe.taken = start + read)
    (hbuf : run.buf = pipe.sent.take (start + read) ++ List.replicate (additional - read) 0)
    (hpasses : passes ≤ 3 * start + read) :
    Passed decode
      (pipe.readTo ({ run with reader := pipe.reader fun _ => cut }.readOnce start additional
        read).reader) (passes + 1)
      ({ run with reader := pipe.reader fun _ => cut }.readOnce start additional read) := by
  have hhas : start + read ≤ pipe.sent.length := htaken ▸ pipe.taken_le
  have hfilling : PreambleRun.Filling pipe.sent pipe.ending.join start additional read
      { run with reader := pipe.reader fun _ => cut } := by
    refine ⟨hlt.le, hhas, hphase, hbuf, ?_, rfl⟩
    show pipe.sent.drop pipe.taken = _
    rw [htaken]
  rcases hfilling.readOnce hlt with ⟨hall, herr, -⟩ | ⟨n, hn, hnext⟩
  · -- nothing is on its way, so the pipe was ready because it has ended
    have hended : pipe.ending.isSome = true := by
      rcases hready with hmore | hended
      · omega
      · exact hended
    refine .fails herr (.short hwants (hall.trans_lt (Nat.add_lt_add_left hlt start)) hended) ?_
    exact ⟨start + additional, hwants, by omega⟩
  · have hplace := pipe.taken_readTo hnext.has hnext.bytes
    refine .goesOn (.filling hnext.phase (hn.trans_le ((Nat.le_add_left _ _).trans hnext.read_le))
      hnext.read_le hfits hwants hplace hnext.buf (by omega))

/-- A pass that decodes returns, or asks for more. -/
theorem passed_decodeOnce (hlawful : PreambleRun.LawfulDecoder decode) {pipe : BytePipe}
    {passes cut : ℕ} {run : PreambleRun T} (hphase : run.phase = .decoding)
    (hfits : pipe.taken ≤ maxPreambleLen) (hwants : Wants decode pipe.sent pipe.taken)
    (hbuf : run.buf = pipe.sent.take pipe.taken) (hpasses : passes + 1 ≤ 3 * pipe.taken) :
    Passed decode
      (pipe.readTo ({ run with reader := pipe.reader fun _ => cut }.decodeOnce decode).reader)
      (passes + 1) ({ run with reader := pipe.reader fun _ => cut }.decodeOnce decode) := by
  obtain ⟨reader, buf, phase⟩ := run
  obtain rfl : phase = .decoding := hphase
  obtain rfl : buf = pipe.sent.take pipe.taken := hbuf
  have hlen : (pipe.sent.take pipe.taken).length = pipe.taken := by
    rw [List.length_take, min_eq_left pipe.taken_le]
  have hbudget : ∃ k, Wants decode pipe.sent k ∧ passes + 1 ≤ 3 * k :=
    ⟨pipe.taken, hwants, hpasses⟩
  simp only [PreambleRun.decodeOnce]
  rcases hdecode : decode (pipe.sent.take pipe.taken) with err | ⟨value, consumed⟩
  · by_cases hend : ∃ additional, err = .unexpectedEnd additional
    · obtain ⟨additional, rfl⟩ := hend
      have hpos := hlawful.additional_pos hdecode
      have husize := hlawful.additional_usize (hlen.trans_le hfits) hdecode
      rw [hlen] at husize
      simp only
      rcases Nat.lt_or_ge maxPreambleLen (pipe.taken + additional) with hover | hless
      · have hadd : checkedAdd pipe.taken additional = some (pipe.taken + additional) :=
          checkedAdd_eq_some_iff.mpr ⟨husize, rfl⟩
        have hmore : PreambleRun.readMore (T := T)
            ⟨pipe.reader fun _ => cut, pipe.sent.take pipe.taken, .decoding⟩ additional =
            ⟨pipe.reader fun _ => cut, pipe.sent.take pipe.taken,
              .returned (.error (.other preambleTooLongError))⟩ := by
          simp only [PreambleRun.readMore, hlen, hadd]
          rw [if_pos hover]
        rw [hmore]
        exact .fails rfl (.tooLong hwants pipe.taken_le hdecode hover) hbudget
      · have hbehind : PreambleRun.Behind pipe.sent pipe.ending.join pipe.taken
            (pipe.reader fun _ => cut) := ⟨rfl, rfl⟩
        have hfilling := PreambleRun.readMore_filling (T := T) hbehind pipe.taken_le hless
        have hplace := pipe.taken_readTo hfilling.has hfilling.bytes
        exact .goesOn (.filling hfilling.phase hpos hfilling.read_le hless
          (hwants.more pipe.taken_le hdecode) hplace hfilling.buf (by omega))
    · have hother : ∀ additional, err ≠ .unexpectedEnd additional :=
        fun additional herr => hend ⟨additional, herr⟩
      cases err with
      | unexpectedEnd additional => exact absurd rfl (hother additional)
      | io inner additional =>
        exact .fails rfl (.malformed hwants pipe.taken_le hdecode hother) hbudget
      | other text => exact .fails rfl (.malformed hwants pipe.taken_le hdecode hother) hbudget
  · have hconsumed := hlawful.consumed_le hdecode
    simp only
    rw [if_pos hconsumed]
    rw [pipe.readTo_reader]
    exact .succeeds rfl ⟨hwants, ⟨consumed, hdecode, rfl⟩, List.nil_prefix, le_rfl⟩ hpasses

/-- A pass goes on, fails or succeeds, in at most three passes a byte. -/
theorem Progress.pass (hlawful : PreambleRun.LawfulDecoder decode) {pipe : BytePipe}
    {passes : ℕ} {run : PreambleRun T} (h : Progress decode pipe passes run)
    (hready : waits run = true → pipe.Ready) (cut : ℕ) :
    Passed decode
      (pipe.readTo ({ run with reader := pipe.reader fun _ => cut }.step decode).reader)
      (passes + 1) ({ run with reader := pipe.reader fun _ => cut }.step decode) := by
  cases h with
  | @filling start additional read hphase hpos hread hfits hwants htaken hbuf hpasses =>
    rcases Nat.lt_or_ge read additional with hlt | hge
    · have hstep : ({ run with reader := pipe.reader fun _ => cut } : PreambleRun T).step decode =
          PreambleRun.readOnce { run with reader := pipe.reader fun _ => cut } start additional
            read := by
        simp only [PreambleRun.step, hphase]
        exact if_pos hlt
      have hwaits : waits run = true := by
        simp only [waits, hphase]
        exact decide_eq_true hlt
      rw [hstep]
      exact passed_readOnce (hready hwaits) hphase hlt hfits hwants htaken hbuf hpasses
    · -- the buffer is full, and the decoder is next
      obtain rfl : read = additional := le_antisymm hread hge
      have hstep : ({ run with reader := pipe.reader fun _ => cut } : PreambleRun T).step decode =
          ⟨pipe.reader fun _ => cut, run.buf, .decoding⟩ := by
        simp only [PreambleRun.step, hphase]
        exact if_neg (lt_irrefl _)
      rw [hstep, pipe.readTo_reader]
      refine .goesOn (.decoding rfl (htaken ▸ hfits) (htaken ▸ hwants) ?_ (by omega))
      show run.buf = _
      rw [hbuf, htaken, Nat.sub_self, List.replicate_zero, List.append_nil]
  | decoding hphase hfits hwants hbuf hpasses =>
    have hstep : ({ run with reader := pipe.reader fun _ => cut } : PreambleRun T).step decode =
        PreambleRun.decodeOnce decode { run with reader := pipe.reader fun _ => cut } := by
      simp only [PreambleRun.step, hphase]
    rw [hstep]
    exact passed_decodeOnce hlawful hphase hfits hwants hbuf hpasses

/-! ### The task moves -/

/-- Handing the stream over starts the account of the rewound stream. -/
theorem standing_serve {s : Handshake T} {value : T} {leftover : List UInt8}
    (h : Welcome decode s.toServer s.server value leftover) :
    Standing decode (s.serve value leftover).toServer (s.serve value leftover).server := by
  obtain ⟨hread, k, hhanded, htaken⟩ := h
  refine ⟨k, hhanded, ?_⟩
  show Rewound s.toServer (k + s.server.took.length) leftover s.server.read _
  rw [hread, ← htaken]
  exact Rewound.start leftover _

theorem standing_handleAppConnection {s : Handshake T} {value : T} {leftover : List UInt8}
    (h : Welcome decode s.toServer s.server value leftover) :
    Standing decode (s.handleAppConnection cfg value leftover).toServer
      (s.handleAppConnection cfg value leftover).server := by
  unfold handleAppConnection
  split
  · exact h
  · exact standing_serve h

theorem standing_runPreambleSuccess {s : Handshake T} {value : T} {leftover : List UInt8}
    (h : Welcome decode s.toServer s.server value leftover) :
    Standing decode (s.runPreambleSuccess cfg value leftover).toServer
      (s.runPreambleSuccess cfg value leftover).server := by
  unfold runPreambleSuccess
  split
  · exact h
  · exact standing_handleAppConnection h

/-- What the task notes down besides a rejected preamble needs no reason. -/
theorem Ledger.note {pipe : BytePipe} {e e' : ServerEnd T} {entries : List (TaskEntry T)}
    (h : Ledger decode pipe e) (hrecord : e'.record = e.record ++ entries)
    (hpasses : e'.passes = e.passes)
    (hentries : ∀ err, .decodeRejected err ∈ entries →
      Refusal decode pipe.sent pipe.ending.isSome err) :
    Ledger decode pipe e' := by
  refine ⟨?_, ?_⟩
  · intro err hmem
    rw [hrecord, List.mem_append] at hmem
    rcases hmem with hmem | hmem
    · exact h.refusals err hmem
    · exact hentries err hmem
  · rw [hpasses]
    exact h.budget

theorem ledger_handleAppConnection {s : Handshake T} {value : T} {leftover : List UInt8}
    (h : Ledger decode s.toServer s.server) :
    Ledger decode (s.handleAppConnection cfg value leftover).toServer
      (s.handleAppConnection cfg value leftover).server := by
  unfold handleAppConnection
  split
  · exact h.note rfl rfl (by simp)
  · exact ⟨h.refusals, h.budget⟩

theorem ledger_runPreambleSuccess {s : Handshake T} {value : T} {leftover : List UInt8}
    (h : Ledger decode s.toServer s.server) :
    Ledger decode (s.runPreambleSuccess cfg value leftover).toServer
      (s.runPreambleSuccess cfg value leftover).server := by
  unfold runPreambleSuccess
  split
  · exact h.note rfl rfl (by simp)
  · exact ledger_handleAppConnection h

/-- A refusal with a reason keeps the account. -/
theorem account_runPreambleFailure {s : Handshake T} {err : PreambleError}
    (h : Ledger decode s.toServer s.server)
    (hrefusal : Refusal decode s.toServer.sent s.toServer.ending.isSome err) :
    Standing decode (s.runPreambleFailure cfg err).toServer (s.runPreambleFailure cfg err).server ∧
      Ledger decode (s.runPreambleFailure cfg err).toServer
        (s.runPreambleFailure cfg err).server := by
  unfold runPreambleFailure
  split
  · exact ⟨trivial, h.note rfl rfl (by simpa using hrefusal)⟩
  · exact ⟨trivial, h.note rfl rfl (by simpa using hrefusal)⟩

/-- A handler that holds the bare stream takes from behind what was taken. -/
theorem Handed.take {pipe : BytePipe} {value : T} {leftover took : List UInt8} {k n : ℕ}
    (h : Handed decode pipe value leftover took k) (htaken : pipe.taken = k + took.length)
    (hn : n ≤ pipe.transit.length) :
    Handed decode (pipe.take n) value leftover (took ++ pipe.transit.take n) k ∧
      (pipe.take n).taken = k + (took ++ pipe.transit.take n).length := by
  obtain ⟨hbehind, hplace⟩ := pipe.take_behind h.took_behind htaken hn
  exact ⟨⟨h.wants, h.decoded, hbehind, hplace.ge⟩, hplace⟩

/-- What the task reads moves the mark and nothing else. -/
theorem Handed.move {pipe pipe' : BytePipe} {value : T} {leftover took : List UInt8} {k : ℕ}
    (h : Handed decode pipe value leftover took k) (hsent : pipe'.sent = pipe.sent)
    (hmark : k + took.length ≤ pipe'.taken) : Handed decode pipe' value leftover took k := by
  refine ⟨?_, ?_, ?_, hmark⟩
  · rw [hsent]
    exact h.wants
  · rw [hsent]
    exact h.decoded
  · rw [hsent]
    exact h.took_behind

theorem Progress.budget {pipe : BytePipe} {passes : ℕ} {run : PreambleRun T}
    (h : Progress decode pipe passes run) : ∃ k, Wants decode pipe.sent k ∧ passes ≤ 3 * k := by
  cases h with
  | filling hphase hpos hread hfits hwants htaken hbuf hpasses
  | decoding hphase hfits hwants hbuf hpasses => exact ⟨_, hwants, by omega⟩

/-- A call that is not over stays where it is. -/
theorem Progress.afterPass {s : Handshake T} {pipe : BytePipe} {passes : ℕ} {run : PreambleRun T}
    (h : Progress decode pipe passes run) :
    s.afterPass cfg run = { s with server.phase := .reading run } := by
  cases h with
  | filling hphase | decoding hphase => simp only [Handshake.afterPass, hphase]

theorem Ends.no_rejection {phase : ServerPhase T} {entries : List (TaskEntry T)}
    (h : Ends cfg phase entries) (err : PreambleError) : .decodeRejected err ∉ entries := by
  cases h <;> simp

/-- **The account of the server is kept by every move of the task.** -/
theorem ServerMove.account (hlawful : PreambleRun.LawfulDecoder decode) {s s' : Handshake T}
    (h : ServerMove decode cfg s s') (hstanding : Standing decode s.toServer s.server)
    (hledger : Ledger decode s.toServer s.server) :
    Standing decode s'.toServer s'.server ∧ Ledger decode s'.toServer s'.server := by
  obtain ⟨toServer, toClient, client, ⟨phase, took, read, passes, record⟩⟩ := s
  cases h with
  | @passes run run' cut hphase hready hrun =>
    obtain rfl : phase = .reading run := hphase
    obtain ⟨htook, hread, hprogress⟩ := hstanding
    obtain rfl : took = [] := htook
    obtain rfl : read = [] := hread
    have hpassed := hprogress.pass hlawful hready cut
    rw [← hrun] at hpassed
    cases hpassed with
    | goesOn hprogress' =>
      rw [hprogress'.afterPass]
      exact ⟨⟨rfl, rfl, hprogress'⟩, hledger.refusals, hprogress'.budget⟩
    | fails hphase' hrefusal hbudget =>
      simp only [Handshake.afterPass, hphase']
      exact account_runPreambleFailure ⟨hledger.refusals, hbudget⟩ hrefusal
    | succeeds hphase' hhanded hbudget =>
      simp only [Handshake.afterPass, hphase']
      refine ⟨standing_runPreambleSuccess ⟨rfl, _, hhanded, rfl⟩, ?_⟩
      exact ledger_runPreambleSuccess ⟨hledger.refusals, _, hhanded.wants, hbudget⟩
  | timesOut hphase => exact account_runPreambleFailure hledger .timedOut
  | accepts hphase =>
    obtain rfl : phase = _ := hphase
    exact ⟨standing_handleAppConnection hstanding, ledger_handleAppConnection hledger⟩
  | serves hphase =>
    obtain rfl : phase = _ := hphase
    exact ⟨standing_serve hstanding, hledger.refusals, hledger.budget⟩
  | ends hends =>
    exact ⟨trivial, hledger.note rfl rfl fun err hmem => absurd hmem (hends.no_rejection err)⟩
  | disconnects hphase hhooks => exact ⟨trivial, hledger.note rfl rfl (by simp)⟩
  | @takes n hbare hn =>
    refine ⟨?_, hledger.refusals, hledger.budget⟩
    cases phase with
    | welcoming value leftover =>
      obtain ⟨hread, k, hhanded, htaken⟩ := hstanding
      obtain ⟨hhanded', htaken'⟩ := hhanded.take htaken hn
      exact ⟨hread, k, hhanded', htaken'⟩
    | refusing err => trivial
    | reading run | connecting value leftover | serving value leftover stream | disconnecting
    | gone => cases hbare
  | writes hfree hopen => exact ⟨hstanding, hledger⟩
  | polls hphase hpoll =>
    obtain rfl : phase = _ := hphase
    obtain ⟨k, hhanded, hrewound⟩ := hstanding
    have hrewound' := hrewound.poll hpoll
    obtain ⟨hsent, hending⟩ := poll_sent hpoll
    refine ⟨⟨k, hhanded.move hsent hrewound'.mark_le, hrewound'⟩, ?_, ?_⟩
    · rw [hsent, hending]
      exact hledger.refusals
    · rw [hsent]
      exact hledger.budget

end Server

end Handshake

end Wireframe
