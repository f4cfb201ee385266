/-
# The history of a message series

What a message series has been given and what it has answered
(`src/message_assembler/series/mod.rs`), over every sequence of continuation headers.

A series changes its tracking mode lazily, with the first sequence number it accepts, and lets the
largest sequence number pass on a final frame only.  `Follows` relates its state to the headers
accepted so far; the one place where a tracked series has no next sequence number is behind its
final frame, where nothing is accepted any more.
-/
import Mathlib.Tactic
import Wireframe.MessageSeries
import Wireframe.Trace

namespace Wireframe

namespace FrameSequence

variable {seq next : FrameSequence}

/-- The largest sequence number, which has no successor. -/
def largest : FrameSequence := ⟨4294967295⟩

theorem toNat_of_checkedIncrement (h : seq.checkedIncrement = some next) :
    next.get.toNat = seq.get.toNat + 1 := by
  unfold checkedIncrement at h
  split_ifs at h with hfits
  cases h
  show (seq.get + 1).toNat = seq.get.toNat + 1
  rw [UInt32.toNat_add]
  exact Nat.mod_eq_of_lt hfits

theorem eq_largest_of_checkedIncrement (h : seq.checkedIncrement = none) : seq = largest := by
  have hlt := seq.get.toNat_lt
  unfold checkedIncrement at h
  split_ifs at h with hfits
  obtain ⟨word⟩ := seq
  refine congrArg FrameSequence.mk (UInt32.toNat_inj.mp ?_)
  show word.toNat = 4294967295
  simp only at hfits hlt
  omega

end FrameSequence

namespace MessageSeries

section Accept

variable {s s' : MessageSeries} {header : ContinuationFrameHeader}

/-! ## What accepting a frame does -/

/-- The two ways a frame is accepted, with the series each one leaves. -/
theorem acceptContinuation_ok_cases {status : MessageSeriesStatus}
    (h : s.acceptContinuation header = (.ok status, s')) :
    s.complete = false ∧
    ((header.sequence = none ∧ s.sequenceTracking = .untracked ∧
      s' = { s with complete := header.isLast }) ∨
    ∃ seq, header.sequence = some seq ∧
      (s.sequenceTracking = .tracked → s.nextSequence = some seq) ∧
      (seq.checkedIncrement = none → header.isLast = true) ∧
      s' = { s with
        nextSequence := seq.checkedIncrement
        sequenceTracking := .tracked
        complete := header.isLast }) := by
  obtain ⟨hkey, hopen, -⟩ := acceptContinuation_ok h
  refine ⟨hopen, ?_⟩
  rw [acceptContinuation, if_neg (not_not.mpr hkey), hopen, if_neg Bool.false_ne_true] at h
  have hchecked := checkSequence_checked s header
  rcases hcheck : s.checkSequence header with ⟨err | _, t⟩
  · rw [hcheck] at h
    exact absurd (Prod.mk.inj h).1 (by simp)
  rw [hcheck] at h hchecked
  -- the check leaves the flag alone, so the frame's own flag decides
  have hleft (hopen' : t.complete = false) : s' = { t with complete := header.isLast } := by
    cases hlast : header.isLast with
    | true =>
      simp only [hlast, if_true] at h
      exact (Prod.mk.inj h).2.symm
    | false =>
      simp only [hlast, Bool.false_eq_true, if_false] at h
      rw [← hopen']
      exact (Prod.mk.inj h).2.symm
  cases hchecked with
  | unnumbered hseq huntracked => exact Or.inl ⟨hseq, huntracked, hleft hopen⟩
  | numbered hseq hdue hfinal => exact Or.inr ⟨_, hseq, hdue, hfinal, hleft hopen⟩

/-- An overflow is reported by the ordering check of an incomplete series. -/
theorem acceptContinuation_eq_overflow {last : FrameSequence}
    (h : s.acceptContinuation header = (.error (.sequenceOverflow last), s')) :
    s.complete = false ∧ header.sequence = some last ∧
      (last.checkedIncrement = none ∧ header.isLast = false ∨
        s.sequenceTracking = .tracked ∧ s.nextSequence = none) := by
  rw [acceptContinuation] at h
  split at h
  · exact absurd (Prod.mk.inj h).1 (by simp)
  split at h
  · exact absurd (Prod.mk.inj h).1 (by simp)
  rename_i hopen
  refine ⟨by simpa using hopen, ?_⟩
  have hchecked := checkSequence_checked s header
  rcases hcheck : s.checkSequence header with ⟨err | _, t⟩
  · rw [hcheck] at h hchecked
    obtain rfl : err = .sequenceOverflow last := Except.error.inj (Prod.mk.inj h).1
    cases hchecked with
    | overflow hseq hnone hlast => exact ⟨hseq, Or.inl ⟨hnone, hlast⟩⟩
    | exhausted hseq htracked hnext => exact ⟨hseq, Or.inr ⟨htracked, hnext⟩⟩
  · rw [hcheck] at h
    simp only at h
    split_ifs at h <;> exact absurd (Prod.mk.inj h).1 (by simp)

/-- A complete series refuses every frame. -/
theorem acceptContinuation_of_complete (hcomplete : s.complete = true)
    (header : ContinuationFrameHeader) :
    ∃ err, s.acceptContinuation header = (.error err, s) := by
  by_cases hkey : header.messageKey = s.messageKey
  · exact ⟨.seriesComplete, by rw [acceptContinuation, if_neg (not_not.mpr hkey), if_pos hcomplete]⟩
  · exact ⟨.keyMismatch s.messageKey header.messageKey, by rw [acceptContinuation, if_pos hkey]⟩

end Accept

/-! ## Histories -/

/-- What a series opened by the first frame has answered. -/
def history (first : FirstFrameHeader) (headers : List ContinuationFrameHeader) :
    List (ContinuationFrameHeader × Except MessageSeriesError MessageSeriesStatus) :=
  Trace.transcript acceptContinuation (fromFirstFrame first) headers

/-- The series after the headers. -/
def given (first : FirstFrameHeader) (headers : List ContinuationFrameHeader) : MessageSeries :=
  Trace.after acceptContinuation (fromFirstFrame first) headers

/-- The accepted headers of a history, in order. -/
def accepted (history : List (ContinuationFrameHeader ×
    Except MessageSeriesError MessageSeriesStatus)) : List ContinuationFrameHeader :=
  history.filterMap fun
    | (header, .ok _) => some header
    | (_, .error _) => none

/-- The sequence numbers of the headers that carry one. -/
def sequences (headers : List ContinuationFrameHeader) : List FrameSequence :=
  headers.filterMap ContinuationFrameHeader.sequence

theorem accepted_concat_ok (history : List (ContinuationFrameHeader ×
    Except MessageSeriesError MessageSeriesStatus)) (header : ContinuationFrameHeader)
    (status : MessageSeriesStatus) :
    accepted (history ++ [(header, .ok status)]) = accepted history ++ [header] := by
  simp [accepted, List.filterMap_append]

theorem accepted_concat_error (history : List (ContinuationFrameHeader ×
    Except MessageSeriesError MessageSeriesStatus)) (header : ContinuationFrameHeader)
    (err : MessageSeriesError) :
    accepted (history ++ [(header, .error err)]) = accepted history := by
  simp [accepted, List.filterMap_append]

section Sequences

variable {headers : List ContinuationFrameHeader} {header : ContinuationFrameHeader}

theorem sequences_concat_some {seq : FrameSequence} (h : header.sequence = some seq) :
    sequences (headers ++ [header]) = sequences headers ++ [seq] := by
  simp [sequences, List.filterMap_append, h]

theorem sequences_concat_none (h : header.sequence = none) :
    sequences (headers ++ [header]) = sequences headers := by
  simp [sequences, List.filterMap_append, h]

end Sequences

/-! ## What the series knows of its history -/

/-- One number directly follows another. -/
def Consecutive (a b : FrameSequence) : Prop := b.get.toNat = a.get.toNat + 1

/-- The state of a series against the headers it has accepted. -/
structure Follows (taken : List ContinuationFrameHeader) (s : MessageSeries) : Prop where
  untracked : s.sequenceTracking = .untracked → ∀ header ∈ taken, header.sequence = none
  /-- a tracked series expects the successor of the last number -/
  tracked : s.sequenceTracking = .tracked →
    ∃ last, (sequences taken).getLast? = some last ∧ s.nextSequence = last.checkedIncrement
  /-- only a complete series can be left without a successor -/
  expects : s.sequenceTracking = .tracked → s.complete = false → s.nextSequence ≠ none
  consecutive : (sequences taken).IsChain Consecutive
  sequenced : taken.Pairwise fun a b => a.sequence ≠ none → b.sequence ≠ none
  unfinished : s.complete = false → ∀ header ∈ taken, header.isLast = false
  finished : s.complete = true → ∃ header ∈ taken, header.isLast = true

section Step

variable {s s' : MessageSeries} {header : ContinuationFrameHeader}
  {taken : List ContinuationFrameHeader}

theorem follows_fromFirstFrame {first : FirstFrameHeader} (hfirst : first.isLast = false) :
    Follows [] (fromFirstFrame first) where
  untracked _ := nofun
  tracked := nofun
  expects := nofun
  consecutive := List.IsChain.nil
  sequenced := List.Pairwise.nil
  unfinished _ := nofun
  finished hcomplete := absurd hcomplete (by simp [fromFirstFrame, hfirst])

/-- An untracked series has accepted no sequence number. -/
theorem Follows.sequences_eq_nil (hf : Follows taken s)
    (huntracked : s.sequenceTracking = .untracked) : sequences taken = [] := by
  rw [sequences, List.filterMap_eq_nil_iff]
  exact hf.untracked huntracked

/-- A number that is due directly follows the last one. -/
theorem Follows.consecutive_concat (hf : Follows taken s) {seq : FrameSequence}
    (hdue : s.sequenceTracking = .tracked → s.nextSequence = some seq) :
    (sequences taken ++ [seq]).IsChain Consecutive := by
  cases htracking : s.sequenceTracking with
  | untracked =>
    rw [hf.sequences_eq_nil htracking]
    exact List.isChain_singleton seq
  | tracked =>
    obtain ⟨last, hlast, hnext⟩ := hf.tracked htracking
    refine List.isChain_append.mpr ⟨hf.consecutive, List.isChain_singleton seq, ?_⟩
    intro a ha b hb
    obtain rfl : last = a := Option.some.inj (hlast.symm.trans ha)
    obtain rfl : seq = b := by simpa using hb
    rw [hdue htracking] at hnext
    exact FrameSequence.toNat_of_checkedIncrement hnext.symm

/-- The flags of the accepted frames, after one more. -/
theorem Follows.flags_concat (hf : Follows taken s) (hopen : s.complete = false)
    (header : ContinuationFrameHeader) :
    (header.isLast = false → ∀ other ∈ taken ++ [header], other.isLast = false) ∧
      (header.isLast = true → ∃ other ∈ taken ++ [header], other.isLast = true) := by
  constructor
  · intro hmore other hother
    rcases List.mem_append.mp hother with hmem | hmem
    · exact hf.unfinished hopen other hmem
    · rw [List.mem_singleton.mp hmem]
      exact hmore
  · intro hlast
    exact ⟨header, by simp, hlast⟩

/-- An accepted frame keeps the series in step with its history. -/
theorem Follows.concat (hf : Follows taken s) {status : MessageSeriesStatus}
    (hs : s.acceptContinuation header = (.ok status, s')) : Follows (taken ++ [header]) s' := by
  obtain ⟨hopen, ⟨hnone, huntracked, rfl⟩ | ⟨seq, hseq, hdue, hfinal, rfl⟩⟩ :=
    acceptContinuation_ok_cases hs
  · obtain ⟨hunfinished, hfinished⟩ := hf.flags_concat hopen header
    refine ⟨?_, ?_, ?_, ?_, ?_, hunfinished, hfinished⟩
    · intro _ other hother
      rcases List.mem_append.mp hother with hmem | hmem
      · exact hf.untracked huntracked other hmem
      · rw [List.mem_singleton.mp hmem]
        exact hnone
    · intro htracked
      exact absurd (huntracked.symm.trans htracked) (by simp)
    · intro htracked
      exact absurd (huntracked.symm.trans htracked) (by simp)
    · rw [sequences_concat_none hnone]
      exact hf.consecutive
    · refine List.pairwise_append.mpr ⟨hf.sequenced, List.pairwise_singleton _ _, ?_⟩
      intro a ha b _ hsome
      exact absurd (hf.untracked huntracked a ha) hsome
  · obtain ⟨hunfinished, hfinished⟩ := hf.flags_concat hopen header
    refine ⟨nofun, ?_, ?_, ?_, ?_, hunfinished, hfinished⟩
    · intro _
      refine ⟨seq, ?_, rfl⟩
      rw [sequences_concat_some hseq, List.getLast?_concat]
    · intro _ hopen' hnext
      exact absurd (hfinal hnext) (by simpa using hopen')
    · rw [sequences_concat_some hseq]
      exact hf.consecutive_concat hdue
    · refine List.pairwise_append.mpr ⟨hf.sequenced, List.pairwise_singleton _ _, ?_⟩
      intro a _ b hb _
      rw [List.mem_singleton.mp hb, hseq]
      simp

/-- Every sequence of headers keeps the series in step with its history. -/
theorem follows_given {first : FirstFrameHeader} (hfirst : first.isLast = false)
    (headers : List ContinuationFrameHeader) :
    Follows (accepted (history first headers)) (given first headers) := by
  refine Trace.history_invariant (fun history s => Follows (accepted history) s)
    (follows_fromFirstFrame hfirst) ?_ headers
  intro history s header hf
  rcases hs : s.acceptContinuation header with ⟨err | status, s'⟩
  · obtain rfl := acceptContinuation_error hs
    rw [accepted_concat_error]
    exact hf
  · rw [accepted_concat_ok]
    exact hf.concat hs

/-- An overflow is reported only for the largest number on a frame that is not final. -/
theorem Follows.overflow (hf : Follows taken s) {last : FrameSequence}
    (hs : s.acceptContinuation header = (.error (.sequenceOverflow last), s')) :
    header.sequence = some FrameSequence.largest ∧ last = FrameSequence.largest ∧
      header.isLast = false := by
  obtain ⟨hopen, hseq, ⟨hnone, hlast⟩ | ⟨htracked, hnext⟩⟩ := acceptContinuation_eq_overflow hs
  · obtain rfl := FrameSequence.eq_largest_of_checkedIncrement hnone
    exact ⟨hseq, rfl, hlast⟩
  · -- a tracked series that is still open always expects a number
    exact absurd hnext (hf.expects htracked hopen)

end Step

/-- **The history of a message series**: whatever headers follow a first frame that is not the
last, the numbers accepted are consecutive, a frame without a number is not accepted after one with
a number, the series is complete exactly when a final frame was accepted and then accepts nothing
more, a rejected frame changes nothing, and an overflow is reported only for the largest number on a
frame that is not final. -/
theorem series_history (first : FirstFrameHeader) (hfirst : first.isLast = false)
    (headers : List ContinuationFrameHeader) :
    (sequences (accepted (history first headers))).IsChain Consecutive ∧
      (accepted (history first headers)).Pairwise
        (fun a b => a.sequence ≠ none → b.sequence ≠ none) ∧
      ((given first headers).complete = true ↔
        ∃ header ∈ accepted (history first headers), header.isLast = true) ∧
      ((given first headers).complete = true → ∀ header, ∃ err,
        (given first headers).acceptContinuation header = (.error err, given first headers)) ∧
      (∀ header err s', (given first headers).acceptContinuation header = (.error err, s') →
        s' = given first headers) ∧
      ∀ header last s', (given first headers).acceptContinuation header =
          (.error (.sequenceOverflow last), s') →
        header.sequence = some FrameSequence.largest ∧ last = FrameSequence.largest ∧
          header.isLast = false := by
  have hf := follows_given hfirst headers
  refine ⟨hf.consecutive, hf.sequenced, ⟨hf.finished, ?_⟩, ?_, ?_, ?_⟩
  · rintro ⟨header, hmem, hlast⟩
    by_contra hopen
    exact absurd (hf.unfinished (by simpa using hopen) header hmem) (by simp [hlast])
  · exact acceptContinuation_of_complete
  · intro header err s' hs
    exact acceptContinuation_error hs
  · intro header last s' hs
    exact hf.overflow hs

/-- A message that starts without numbers, goes on with them and repeats one. -/
def mixedHeaders : List ContinuationFrameHeader :=
  [⟨⟨3⟩, none, 4, false⟩, ⟨⟨3⟩, some ⟨8⟩, 4, false⟩, ⟨⟨3⟩, some ⟨8⟩, 4, false⟩,
    ⟨⟨3⟩, none, 4, false⟩, ⟨⟨3⟩, some ⟨9⟩, 4, true⟩, ⟨⟨3⟩, some ⟨10⟩, 4, false⟩]

theorem series_history_mixed :
    ∃ first : FirstFrameHeader, first.isLast = false ∧
      sequences (accepted (history first mixedHeaders)) = [⟨8⟩, ⟨9⟩] ∧
      (accepted (history first mixedHeaders)).length = 3 ∧
      (given first mixedHeaders).complete = true ∧
      (sequences (accepted (history first mixedHeaders))).IsChain Consecutive :=
  ⟨⟨⟨3⟩, 0, 4, none, false⟩, rfl, by decide, by decide, by decide,
    (series_history ⟨⟨3⟩, 0, 4, none, false⟩ rfl mixedHeaders).1⟩

end MessageSeries

end Wireframe
