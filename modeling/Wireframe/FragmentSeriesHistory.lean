/-
# The history of a fragment series

What a series has been given and what it has answered (`src/fragment/series.rs`), over every
sequence of headers.  The series remembers the next expected index only, so whatever it says about
the past it says through that index: `Follows` relates the two.

The index of a final fragment may have no successor.  The series then keeps the index it has just
accepted as the next one, and no longer recognises it when it comes again.

* `accept_accepted_iff`: an index that was accepted is answered as a duplicate unless it is the
  largest one;
* `tracks_iff`: a sequence of headers is tracked as documented exactly when the largest index does
  not come again.
-/
import Mathlib.Tactic
import Wireframe.Fragment
import Wireframe.Trace

namespace Wireframe

/-- The largest fragment index, which has no successor. -/
def FragmentIndex.largest : FragmentIndex := ⟨4294967295⟩

theorem FragmentIndex.toNat_largest : FragmentIndex.largest.toNat = 2 ^ 32 - 1 := by decide

theorem FragmentIndex.checkedIncrement_eq_none_iff {i : FragmentIndex} :
    i.checkedIncrement = none ↔ i.toNat = 2 ^ 32 - 1 := by
  have hi := i.toNat_lt
  unfold checkedIncrement
  split_ifs with hfits
  · simp only [false_iff]
    omega
  · simp only [true_iff]
    omega

namespace FragmentSeries

/-! ## Two more facts about `accept` -/

/-- A rejected fragment leaves the series unchanged. -/
theorem accept_error {s s' : FragmentSeries} {h : FragmentHeader} {err : FragmentError}
    (hs : s.accept h = (.error err, s')) : s' = s := by
  unfold accept at hs
  split at hs
  · exact (Prod.mk.inj hs).2.symm
  split at hs
  · exact absurd (Prod.mk.inj hs).1 (by simp)
  split at hs
  · exact (Prod.mk.inj hs).2.symm
  split at hs
  · exact (Prod.mk.inj hs).2.symm
  -- only a fragment that is not final can still be rejected, for its index
  unfold advanceAccepted at hs
  cases hlast : h.isLastFragment <;> cases hinc : h.fragmentIndex.checkedIncrement <;>
    simp only [hlast, hinc, Bool.false_eq_true, if_false, if_true, Prod.mk.injEq, reduceCtorEq,
      false_and] at hs
  exact hs.2.symm

/-- What taking a fragment does; the next index stays where it is at the end of the range. -/
theorem accept_taken {s s' : FragmentSeries} {h : FragmentHeader} {status : FragmentStatus}
    (hs : s.accept h = (.ok status, s')) (hstatus : status ≠ .duplicate) :
    s.complete = false ∧ h.fragmentIndex = s.nextIndex ∧ s'.messageId = s.messageId ∧
      s'.complete = h.isLastFragment ∧
      s'.nextIndex.toNat = min (s.nextIndex.toNat + 1) (2 ^ 32 - 1) ∧
      (h.isLastFragment = false → s.nextIndex.toNat + 1 < 2 ^ 32) := by
  have hlt := s.nextIndex.toNat_lt
  rcases accept_ok_cases hs with ⟨hdup, -⟩ | ⟨-, hlast, hopen, -, hidx, hid', hopen', hnext⟩ |
    ⟨-, hlast, hopen, hid, hidx, hid', hcomplete'⟩
  · exact absurd hdup hstatus
  · have hlt' := s'.nextIndex.toNat_lt
    refine ⟨hopen, hidx, hid', hopen'.trans hlast.symm, ?_, fun _ => ?_⟩
    · omega
    · omega
  · refine ⟨hopen, hidx, hid', hcomplete'.trans hlast.symm, ?_, ?_⟩
    · rw [accept_expected hid hidx hopen, advanceAccepted, hlast, hidx] at hs
      cases hinc : s.nextIndex.checkedIncrement with
      | none =>
        rw [hinc] at hs
        cases hs
        have hmax := FragmentIndex.checkedIncrement_eq_none_iff.mp hinc
        show s.nextIndex.toNat = _
        omega
      | some next =>
        rw [hinc] at hs
        cases hs
        have hnext := FragmentIndex.checkedIncrement_eq_some_iff.mp hinc
        have hfits := next.toNat_lt
        show next.toNat = _
        omega
    · intro hopen'
      exact absurd hlast (by simp [hopen'])

/-! ## Histories -/

/-- What a new series for the message has answered. -/
def history (messageId : MessageId) (headers : List FragmentHeader) :
    List (FragmentHeader × Except FragmentError FragmentStatus) :=
  Trace.transcript accept (new messageId) headers

/-- The series after the headers. -/
def given (messageId : MessageId) (headers : List FragmentHeader) : FragmentSeries :=
  Trace.after accept (new messageId) headers

/-- The header of an answer that took the fragment; a duplicate is not taken again. -/
def takenHeader : FragmentHeader × Except FragmentError FragmentStatus → Option FragmentHeader
  | (header, .ok .incomplete) => some header
  | (header, .ok .complete) => some header
  | (_, .ok .duplicate) => none
  | (_, .error _) => none

/-- The accepted headers of a history, in order. -/
def accepted (history : List (FragmentHeader × Except FragmentError FragmentStatus)) :
    List FragmentHeader :=
  history.filterMap takenHeader

section Accepted

variable {history : List (FragmentHeader × Except FragmentError FragmentStatus)}
  {header : FragmentHeader} {answer : Except FragmentError FragmentStatus}

theorem accepted_concat_taken (h : takenHeader (header, answer) = some header) :
    accepted (history ++ [(header, answer)]) = accepted history ++ [header] := by
  rw [accepted, List.filterMap_append]
  simp [accepted, h]

theorem accepted_concat_other (h : takenHeader (header, answer) = none) :
    accepted (history ++ [(header, answer)]) = accepted history := by
  rw [accepted, List.filterMap_append]
  simp [accepted, h]

end Accepted

/-! ## What the series knows of its history -/

/-- The state of a series against the headers it has accepted. -/
structure Follows (messageId : MessageId) (taken : List FragmentHeader) (s : FragmentSeries) :
    Prop where
  sameMessage : s.messageId = messageId
  /-- the accepted indices count up from zero -/
  counted : taken.map (fun header => header.fragmentIndex.toNat) = List.range taken.length
  /-- the next index is the number of accepted fragments, as far as an index can tell -/
  next : s.nextIndex.toNat = min taken.length (2 ^ 32 - 1)
  /-- an incomplete series still has an index to expect -/
  room : s.complete = false → taken.length < 2 ^ 32
  unfinished : s.complete = false → ∀ header ∈ taken, header.isLastFragment = false
  finalLast : ∀ header ∈ taken.dropLast, header.isLastFragment = false

section Step

variable {messageId : MessageId} {s s' : FragmentSeries} {header : FragmentHeader}
  {taken : List FragmentHeader}

theorem follows_new (messageId : MessageId) : Follows messageId [] (new messageId) where
  sameMessage := rfl
  counted := rfl
  next := rfl
  room _ := by decide
  unfinished _ := nofun
  finalLast := nofun

/-- A fragment that is taken counts the accepted ones on. -/
theorem Follows.concat (hf : Follows messageId taken s) {status : FragmentStatus}
    (hs : s.accept header = (.ok status, s')) (hstatus : status ≠ .duplicate) :
    Follows messageId (taken ++ [header]) s' := by
  obtain ⟨hopen, hidx, hid', hcomplete', hnext', hfits⟩ := accept_taken hs hstatus
  have hroom := hf.room hopen
  have hlength : (taken ++ [header]).length = taken.length + 1 := by simp
  have hnext : s.nextIndex.toNat = taken.length := by
    rw [hf.next]
    omega
  refine ⟨hid'.trans hf.sameMessage, ?_, ?_, ?_, ?_, ?_⟩
  · rw [List.map_append, hf.counted, hlength, List.range_succ, List.map_singleton, hidx, hnext]
  · rw [hnext', hlength, hnext]
  · intro hopen'
    have := hfits (hcomplete'.symm.trans hopen')
    omega
  · intro hopen' other hother
    rcases List.mem_append.mp hother with hmem | hmem
    · exact hf.unfinished hopen other hmem
    · rw [List.mem_singleton.mp hmem]
      exact hcomplete'.symm.trans hopen'
  · rw [List.dropLast_concat]
    exact hf.unfinished hopen

/-- One more header keeps the series in step with its history. -/
theorem Follows.accept {history : List (FragmentHeader × Except FragmentError FragmentStatus)}
    (hf : Follows messageId (accepted history) s) (header : FragmentHeader) :
    Follows messageId (accepted (history ++ [(header, (s.accept header).1)]))
      (s.accept header).2 := by
  rcases hs : s.accept header with ⟨err | status, s'⟩
  · obtain rfl := accept_error hs
    rw [accepted_concat_other rfl]
    exact hf
  cases status with
  | duplicate =>
    rcases accept_ok_cases hs with ⟨-, rfl, -, -⟩ | ⟨hstatus, -⟩ | ⟨hstatus, -⟩
    · rw [accepted_concat_other rfl]
      exact hf
    · cases hstatus
    · cases hstatus
  | incomplete | complete =>
    rw [accepted_concat_taken rfl]
    exact hf.concat hs (by simp)

/-- Every sequence of headers keeps the series in step with its history. -/
theorem follows_given (messageId : MessageId) (headers : List FragmentHeader) :
    Follows messageId (accepted (history messageId headers)) (given messageId headers) :=
  Trace.history_invariant (fun history s => Follows messageId (accepted history) s)
    (follows_new messageId) (fun _ _ header hf => hf.accept header) headers

/-- An accepted index is below the number of accepted fragments. -/
theorem Follows.lt_length (hf : Follows messageId taken s) (hmem : header ∈ taken) :
    header.fragmentIndex.toNat < taken.length := by
  rw [← List.mem_range, ← hf.counted]
  exact List.mem_map.mpr ⟨header, hmem, rfl⟩

/-- **An index that was accepted** is a duplicate when it comes again, unless it is the largest
one: the series cannot expect a larger index. -/
theorem Follows.accept_accepted_iff (hf : Follows messageId taken s)
    (hid : header.messageId = messageId) {earlier : FragmentHeader} (hearlier : earlier ∈ taken)
    (hidx : earlier.fragmentIndex = header.fragmentIndex) :
    s.accept header = (.ok .duplicate, s) ↔ header.fragmentIndex ≠ FragmentIndex.largest := by
  have hlt := hf.lt_length hearlier
  rw [hidx] at hlt
  have hword := header.fragmentIndex.toNat_lt
  have hlargest : header.fragmentIndex = FragmentIndex.largest ↔
      header.fragmentIndex.toNat = 2 ^ 32 - 1 := by
    rw [← FragmentIndex.toNat_largest]
    exact ⟨fun heq => by rw [heq], FragmentIndex.ext_toNat⟩
  constructor
  · intro haccept hmax
    rcases accept_ok_cases haccept with ⟨-, -, -, hbelow⟩ | ⟨hstatus, -⟩ | ⟨hstatus, -⟩
    · rw [hf.next, hlargest.mp hmax] at hbelow
      omega
    · cases hstatus
    · cases hstatus
  · intro hne
    refine accept_duplicate (hid.trans hf.sameMessage.symm) ?_
    rw [hf.next]
    have := mt hlargest.mpr hne
    omega

end Step

/-! ## Whole sequences of headers -/

/-- The header's index belongs to a fragment accepted before. -/
def Repeats (messageId : MessageId) (before : List FragmentHeader) (header : FragmentHeader) :
    Prop :=
  header.messageId = messageId ∧
    ∃ earlier ∈ accepted (history messageId before), earlier.fragmentIndex = header.fragmentIndex

/-- **The series tracks the headers**: what it accepts counts up from zero and ends with the
fragment that is flagged last, a repeated fragment is answered as a duplicate, and neither a
duplicate nor a rejected header changes anything. -/
structure Tracks (messageId : MessageId) (headers : List FragmentHeader) : Prop where
  counted : (accepted (history messageId headers)).map (fun h => h.fragmentIndex.toNat) =
    List.range (accepted (history messageId headers)).length
  finalLast : ∀ h ∈ (accepted (history messageId headers)).dropLast, h.isLastFragment = false
  repeated : ∀ before header rest, headers = before ++ header :: rest →
    Repeats messageId before header →
      (given messageId before).accept header = (.ok .duplicate, given messageId before)
  rejected : ∀ before header rest err s', headers = before ++ header :: rest →
    (given messageId before).accept header = (.error err, s') → s' = given messageId before

/-- The largest index comes again after it was accepted. -/
def RepeatsLargest (messageId : MessageId) (headers : List FragmentHeader) : Prop :=
  ∃ before header rest, headers = before ++ header :: rest ∧ Repeats messageId before header ∧
    header.fragmentIndex = FragmentIndex.largest

/-- **Tracking**: whatever headers a new series is given, it tracks them exactly when the largest
index does not come again after it was accepted. -/
theorem tracks_iff (messageId : MessageId) (headers : List FragmentHeader) :
    Tracks messageId headers ↔ ¬ RepeatsLargest messageId headers := by
  constructor
  · rintro htracks ⟨before, header, rest, hsplit, hrepeats, hlargest⟩
    have hduplicate := htracks.repeated before header rest hsplit hrepeats
    obtain ⟨hid, earlier, hearlier, hidx⟩ := hrepeats
    have hiff := (follows_given messageId before).accept_accepted_iff hid hearlier hidx
    exact hiff.mp hduplicate hlargest
  · intro hnot
    have hf := follows_given messageId headers
    refine ⟨hf.counted, hf.finalLast, ?_, ?_⟩
    · intro before header rest hsplit hrepeats
      have hne : header.fragmentIndex ≠ FragmentIndex.largest := fun hlargest =>
        hnot ⟨before, header, rest, hsplit, hrepeats, hlargest⟩
      obtain ⟨hid, earlier, hearlier, hidx⟩ := hrepeats
      exact ((follows_given messageId before).accept_accepted_iff hid hearlier hidx).mpr hne
    · intro before header rest err s' _ herror
      exact accept_error herror

/-! ## A message that uses every index -/

/-- The first `n` fragments of a message that goes on. -/
def opening (messageId : MessageId) (n : ℕ) : List FragmentHeader :=
  (List.range n).map fun i => ⟨messageId, FragmentIndex.ofNat i, false⟩

/-- A final fragment with the largest index. -/
def largestLast (messageId : MessageId) : FragmentHeader :=
  ⟨messageId, FragmentIndex.largest, true⟩

/-- The fragments of a message in order are accepted one by one. -/
theorem given_opening (messageId : MessageId) {n : ℕ} (hn : n < 2 ^ 32) :
    given messageId (opening messageId n) = ⟨messageId, FragmentIndex.ofNat n, false⟩ := by
  induction n with
  | zero => rfl
  | succ n ih =>
    have hrange : opening messageId (n + 1) =
        opening messageId n ++ [⟨messageId, FragmentIndex.ofNat n, false⟩] := by
      simp [opening, List.range_succ]
    rw [hrange, given, Trace.after_concat]
    have hbefore : Trace.after FragmentSeries.accept (new messageId) (opening messageId n) =
        ⟨messageId, FragmentIndex.ofNat n, false⟩ := ih (by omega)
    rw [hbefore, accept_next rfl rfl rfl rfl rfl hn]

/-- All fragments of a message that uses every index. -/
def everyIndex (messageId : MessageId) : List FragmentHeader :=
  opening messageId (2 ^ 32 - 1) ++ [largestLast messageId]

theorem given_opening_all (messageId : MessageId) :
    given messageId (opening messageId (2 ^ 32 - 1)) =
      ⟨messageId, FragmentIndex.largest, false⟩ := by
  rw [given_opening messageId (by omega)]
  have hlargest : FragmentIndex.ofNat (2 ^ 32 - 1) = FragmentIndex.largest := by decide
  rw [hlargest]

/-- The final fragment completes the series and stays the one it expects. -/
theorem accept_largestLast (messageId : MessageId) :
    accept ⟨messageId, FragmentIndex.largest, false⟩ (largestLast messageId) =
      (.ok .complete, ⟨messageId, FragmentIndex.largest, true⟩) := by
  rw [accept_expected rfl rfl rfl]
  rfl

/-- **The largest index again**: the last fragment of such a message is accepted, and when it comes
again it is refused and not recognised as a duplicate. -/
theorem largest_again_refused :
    let messageId : MessageId := ⟨7⟩
    Repeats messageId (everyIndex messageId) (largestLast messageId) ∧
      ((given messageId (everyIndex messageId)).accept (largestLast messageId)).1 =
        .error .seriesComplete ∧
      ¬ Tracks messageId (everyIndex messageId ++ [largestLast messageId]) := by
  intro messageId
  have hgiven : given messageId (everyIndex messageId) =
      ⟨messageId, FragmentIndex.largest, true⟩ := by
    rw [everyIndex, given, Trace.after_concat]
    have hopening := given_opening_all messageId
    rw [given] at hopening
    rw [hopening, accept_largestLast]
  have hrepeats : Repeats messageId (everyIndex messageId) (largestLast messageId) := by
    refine ⟨rfl, largestLast messageId, ?_, rfl⟩
    have hopening := given_opening_all messageId
    rw [given] at hopening
    rw [everyIndex, history, Trace.transcript_concat, hopening, accept_largestLast,
      accepted_concat_taken rfl]
    simp
  have hrefused : ((given messageId (everyIndex messageId)).accept (largestLast messageId)).1 =
      .error .seriesComplete := by
    rw [hgiven]
    rfl
  refine ⟨hrepeats, hrefused, ?_⟩
  intro htracks
  have hduplicate := htracks.repeated _ (largestLast messageId) [] rfl hrepeats
  rw [hduplicate] at hrefused
  cases hrefused

end FragmentSeries

end Wireframe
