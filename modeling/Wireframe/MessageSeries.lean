/-
# Frame headers and the message series

The header model of protocol-level message assembly (`src/message_assembler/header.rs`,
`error.rs`) and the ordering tracker of one logical message
(`src/message_assembler/series/mod.rs`).

A series starts untracked: continuations without sequence numbers are taken as they come.
The first sequenced continuation switches it to strict ordering.
-/
import Mathlib.Tactic
import Wireframe.MachineWord

namespace Wireframe

/-! ## Headers -/

/-- Protocol-provided key identifying one logical message. -/
structure MessageKey where
  get : UInt64
  deriving DecidableEq, Repr

/-- Optional sequence number of a continuation frame. -/
structure FrameSequence where
  get : UInt32
  deriving DecidableEq, Repr

/-- Increment the sequence, returning `none` on overflow. -/
def FrameSequence.checkedIncrement (seq : FrameSequence) : Option FrameSequence :=
  if seq.get.toNat + 1 < 2 ^ 32 then some ⟨seq.get + 1⟩ else none

/-- Header of the frame that opens a message. -/
structure FirstFrameHeader where
  messageKey : MessageKey
  metadataLen : ℕ
  bodyLen : ℕ
  totalBodyLen : Option ℕ
  isLast : Bool
  deriving DecidableEq, Repr

/-- Header of a frame that continues a message. -/
structure ContinuationFrameHeader where
  messageKey : MessageKey
  sequence : Option FrameSequence
  bodyLen : ℕ
  isLast : Bool
  deriving DecidableEq, Repr

/-- Result of feeding a frame into a series. -/
inductive MessageSeriesStatus where
  | incomplete
  | complete
  deriving DecidableEq, Repr

/-- Errors produced by a message series. -/
inductive MessageSeriesError where
  | keyMismatch (expected found : MessageKey)
  | sequenceMismatch (expected found : FrameSequence)
  | seriesComplete
  | sequenceOverflow (last : FrameSequence)
  | missingFirstFrame (key : MessageKey)
  | duplicateFrame (key : MessageKey) (sequence : FrameSequence)
  | missingSequence (key : MessageKey)
  | continuationBodyLengthMismatch (key : MessageKey) (headerLen actualLen : ℕ)
  deriving DecidableEq, Repr

/-! ## The series -/

/-- How sequence numbers are tracked for a message series. -/
inductive SequenceTracking where
  | untracked
  | tracked
  deriving DecidableEq, Repr

/-- Track the expected ordering of frames for a single message key. -/
structure MessageSeries where
  messageKey : MessageKey
  nextSequence : Option FrameSequence
  sequenceTracking : SequenceTracking
  complete : Bool
  expectedTotal : Option ℕ
  deriving DecidableEq, Repr

namespace MessageSeries

/-- A new series from a first frame header. -/
def fromFirstFrame (header : FirstFrameHeader) : MessageSeries where
  messageKey := header.messageKey
  nextSequence := none
  sequenceTracking := .untracked
  complete := header.isLast
  expectedTotal := header.totalBodyLen

/-- Advance the expected sequence number; overflow is an error when more frames are still
expected. -/
def advanceSequenceOrOverflow (s : MessageSeries) (incoming : FrameSequence) (isLast : Bool) :
    Except MessageSeriesError Unit × MessageSeries :=
  let newNext := incoming.checkedIncrement
  if newNext = none ∧ isLast = false then (.error (.sequenceOverflow incoming), s)
  else (.ok (), { s with nextSequence := newNext })

/-- Transition from untracked to tracked on the first sequenced frame. -/
def startSequenceTracking (s : MessageSeries) (incoming : FrameSequence) (isLast : Bool) :
    Except MessageSeriesError Unit × MessageSeries :=
  match s.advanceSequenceOrOverflow incoming isLast with
  | (.error err, s) => (.error err, s)
  | (.ok (), s) => (.ok (), { s with sequenceTracking := .tracked })

/-- Validate and advance the sequence number while tracking is active. -/
def advanceTrackedSequence (s : MessageSeries) (incoming : FrameSequence) (isLast : Bool) :
    Except MessageSeriesError Unit × MessageSeries :=
  match s.nextSequence with
  | none => (.error (.sequenceOverflow incoming), s)
  | some expected =>
    if incoming.get < expected.get then (.error (.duplicateFrame s.messageKey incoming), s)
    else if incoming ≠ expected then (.error (.sequenceMismatch expected incoming), s)
    else s.advanceSequenceOrOverflow incoming isLast

/-- Validate the incoming sequence and advance the tracker. -/
def validateAndAdvanceSequence (s : MessageSeries) (incoming : FrameSequence) (isLast : Bool) :
    Except MessageSeriesError Unit × MessageSeries :=
  match s.sequenceTracking with
  | .untracked => s.startSequenceTracking incoming isLast
  | .tracked => s.advanceTrackedSequence incoming isLast

/-- The ordering check of `accept_continuation`: a sequence number is validated, and may not
be left out once tracking is active. -/
def checkSequence (s : MessageSeries) (header : ContinuationFrameHeader) :
    Except MessageSeriesError Unit × MessageSeries :=
  match header.sequence with
  | some incoming => s.validateAndAdvanceSequence incoming header.isLast
  | none =>
    if s.sequenceTracking = .tracked then (.error (.missingSequence s.messageKey), s)
    else (.ok (), s)

/-- Accept a continuation frame and update the expected sequence. -/
def acceptContinuation (s : MessageSeries) (header : ContinuationFrameHeader) :
    Except MessageSeriesError MessageSeriesStatus × MessageSeries :=
  if header.messageKey ≠ s.messageKey then
    (.error (.keyMismatch s.messageKey header.messageKey), s)
  else if s.complete then (.error .seriesComplete, s)
  else
    match s.checkSequence header with
    | (.error err, s) => (.error err, s)
    | (.ok (), s) =>
      if header.isLast then (.ok .complete, { s with complete := true }) else (.ok .incomplete, s)

/-! ## What accepting a frame does -/

section Accept

variable {s s' : MessageSeries} {header : ContinuationFrameHeader}

/-- What the ordering check of a frame finds, and the series it leaves. -/
inductive Checked (s : MessageSeries) (header : ContinuationFrameHeader) :
    Except MessageSeriesError Unit × MessageSeries → Prop where
  | unnumbered (hseq : header.sequence = none) (huntracked : s.sequenceTracking = .untracked) :
      Checked s header (.ok (), s)
  /-- the number that is due, or the first one of the series -/
  | numbered {seq : FrameSequence} (hseq : header.sequence = some seq)
      (hdue : s.sequenceTracking = .tracked → s.nextSequence = some seq)
      (hfinal : seq.checkedIncrement = none → header.isLast = true) :
      Checked s header
        (.ok (), { s with nextSequence := seq.checkedIncrement, sequenceTracking := .tracked })
  | missing (hseq : header.sequence = none) (htracked : s.sequenceTracking = .tracked) :
      Checked s header (.error (.missingSequence s.messageKey), s)
  /-- a number without a successor on a frame that is not final -/
  | overflow {seq : FrameSequence} (hseq : header.sequence = some seq)
      (hnone : seq.checkedIncrement = none) (hlast : header.isLast = false) :
      Checked s header (.error (.sequenceOverflow seq), s)
  /-- no number is expected any more -/
  | exhausted {seq : FrameSequence} (hseq : header.sequence = some seq)
      (htracked : s.sequenceTracking = .tracked) (hnext : s.nextSequence = none) :
      Checked s header (.error (.sequenceOverflow seq), s)
  | duplicate {seq expected : FrameSequence} (hseq : header.sequence = some seq)
      (htracked : s.sequenceTracking = .tracked) (hnext : s.nextSequence = some expected)
      (hlt : seq.get < expected.get) :
      Checked s header (.error (.duplicateFrame s.messageKey seq), s)
  | mismatch {seq expected : FrameSequence} (hseq : header.sequence = some seq)
      (htracked : s.sequenceTracking = .tracked) (hnext : s.nextSequence = some expected)
      (hge : ¬ seq.get < expected.get) (hne : seq ≠ expected) :
      Checked s header (.error (.sequenceMismatch expected seq), s)

theorem startSequenceTracking_checked {seq : FrameSequence} (hseq : header.sequence = some seq)
    (huntracked : s.sequenceTracking = .untracked) :
    Checked s header (s.startSequenceTracking seq header.isLast) := by
  simp only [startSequenceTracking, advanceSequenceOrOverflow]
  by_cases hoverflow : seq.checkedIncrement = none ∧ header.isLast = false
  · rw [if_pos hoverflow]
    exact .overflow hseq hoverflow.1 hoverflow.2
  · rw [if_neg hoverflow]
    refine .numbered hseq (fun htracked => ?_) fun hnone => ?_
    · exact absurd (huntracked.symm.trans htracked) (by simp)
    · simpa [hnone] using hoverflow

/-- The ordering check of a frame with a sequence number. -/
theorem advanceTrackedSequence_checked {seq : FrameSequence} (hseq : header.sequence = some seq)
    (htracked : s.sequenceTracking = .tracked) :
    Checked s header (s.advanceTrackedSequence seq header.isLast) := by
  rw [advanceTrackedSequence]
  cases hnext : s.nextSequence with
  | none => exact .exhausted hseq htracked hnext
  | some expected =>
    simp only
    by_cases hlt : seq.get < expected.get
    · rw [if_pos hlt]
      exact .duplicate hseq htracked hnext hlt
    rw [if_neg hlt]
    by_cases hne : seq ≠ expected
    · rw [if_pos hne]
      exact .mismatch hseq htracked hnext hlt hne
    rw [if_neg hne]
    simp only [advanceSequenceOrOverflow]
    by_cases hoverflow : seq.checkedIncrement = none ∧ header.isLast = false
    · rw [if_pos hoverflow]
      exact .overflow hseq hoverflow.1 hoverflow.2
    · rw [if_neg hoverflow]
      have hstep := Checked.numbered (s := s) hseq (fun _ => by rw [hnext, not_not.mp hne])
        (fun hnone => by simpa [hnone] using hoverflow)
      rw [← htracked] at hstep
      exact hstep

/-- The ordering check does one of these things. -/
theorem checkSequence_checked (s : MessageSeries) (header : ContinuationFrameHeader) :
    Checked s header (s.checkSequence header) := by
  rw [checkSequence]
  cases hseq : header.sequence with
  | none =>
    simp only
    cases htracking : s.sequenceTracking with
    | untracked =>
      rw [if_neg (by simp)]
      exact .unnumbered hseq htracking
    | tracked =>
      rw [if_pos rfl]
      exact .missing hseq htracking
  | some seq =>
    simp only [validateAndAdvanceSequence]
    cases htracking : s.sequenceTracking with
    | untracked => exact startSequenceTracking_checked hseq htracking
    | tracked => exact advanceTrackedSequence_checked hseq htracking

/-- A frame that fails the check leaves the series alone. -/
theorem Checked.of_error {err : MessageSeriesError} (h : s.Checked header (.error err, s')) :
    s' = s := by
  cases h <;> rfl

/-- A frame that passes the check touches the sequence numbers only. -/
theorem Checked.of_ok (h : s.Checked header (.ok (), s')) :
    s'.messageKey = s.messageKey ∧ s'.complete = s.complete ∧
      s'.expectedTotal = s.expectedTotal := by
  cases h <;> exact ⟨rfl, rfl, rfl⟩

/-- A rejected frame leaves the series unchanged. -/
theorem acceptContinuation_error {err : MessageSeriesError}
    (h : s.acceptContinuation header = (.error err, s')) : s' = s := by
  have hchecked := checkSequence_checked s header
  rw [acceptContinuation] at h
  split at h
  · exact (Prod.mk.inj h).2.symm
  · split at h
    · exact (Prod.mk.inj h).2.symm
    · split at h
      · rename_i heq
        rw [heq] at hchecked
        cases h
        exact hchecked.of_error
      · split at h <;> exact absurd (Prod.mk.inj h).1 (by simp)

/-- An accepted frame belongs to the series, which was not complete; the series is complete
afterwards exactly when the frame is the last one. -/
theorem acceptContinuation_ok {status : MessageSeriesStatus}
    (h : s.acceptContinuation header = (.ok status, s')) :
    header.messageKey = s.messageKey ∧ s.complete = false ∧
      status = (if header.isLast then .complete else .incomplete) ∧
      s'.messageKey = s.messageKey ∧ s'.expectedTotal = s.expectedTotal ∧
      s'.complete = header.isLast := by
  have hchecked := checkSequence_checked s header
  rw [acceptContinuation] at h
  split at h
  · exact absurd (Prod.mk.inj h).1 (by simp)
  · rename_i hkey
    rw [not_not] at hkey
    split at h
    · exact absurd (Prod.mk.inj h).1 (by simp)
    · rename_i hcomplete
      rw [Bool.not_eq_true] at hcomplete
      split at h
      · exact absurd (Prod.mk.inj h).1 (by simp)
      · rename_i t heq
        rw [heq] at hchecked
        obtain ⟨hkey', hcomplete', htotal'⟩ := hchecked.of_ok
        split at h
        · rename_i hlast
          obtain ⟨hstatus, rfl⟩ := Prod.mk.inj h
          refine ⟨hkey, hcomplete, ?_, hkey', htotal', hlast.symm⟩
          rw [if_pos hlast]
          exact (Except.ok.inj hstatus).symm
        · rename_i hlast
          obtain ⟨hstatus, rfl⟩ := Prod.mk.inj h
          refine ⟨hkey, hcomplete, ?_, hkey', htotal', ?_⟩
          · rw [if_neg hlast]
            exact (Except.ok.inj hstatus).symm
          · rw [hcomplete', hcomplete]
            simpa using hlast

end Accept

end MessageSeries

end Wireframe
