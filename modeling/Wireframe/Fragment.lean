/-
# Fragment headers and the fragment series

The vocabulary of the fragmentation layer (`src/fragment/id.rs`, `index.rs`,
`header.rs`, `error.rs`) and the ordering tracker of one logical message
(`src/fragment/series.rs`).

A method on `&mut self` that returns a `Result` is a function to the result paired
with the state it leaves behind, on the error paths too.
-/
import Mathlib.Tactic
import Wireframe.MachineWord

namespace Wireframe

/-- A transport byte. -/
abbrev Byte := UInt8

/-- A clock reading. -/
abbrev Instant := ℕ

/-- `now.saturating_duration_since(start)`. -/
def saturatingDurationSince (now start : Instant) : ℕ := now - start

/-! ## Identifiers, indices and headers -/

/-- Unique identifier for a logical message undergoing fragmentation. -/
structure MessageId where
  get : UInt64
  deriving DecidableEq, Repr

/-- Zero-based ordinal describing a fragment's position within its message. -/
structure FragmentIndex where
  get : UInt32
  deriving DecidableEq, Repr

namespace FragmentIndex

/-- The first valid fragment index. -/
def zero : FragmentIndex := ⟨0⟩

/-- The position as a natural number. -/
def toNat (i : FragmentIndex) : ℕ := i.get.toNat

/-- Increment the index, returning `none` on overflow. -/
def checkedIncrement (i : FragmentIndex) : Option FragmentIndex :=
  if i.toNat + 1 < 2 ^ 32 then some ⟨i.get + 1⟩ else none

/-- The index of a position. -/
def ofNat (n : ℕ) : FragmentIndex := ⟨UInt32.ofNat n⟩

theorem toNat_lt (i : FragmentIndex) : i.toNat < 2 ^ 32 := i.get.toNat_lt

theorem toNat_ofNat {n : ℕ} (h : n < 2 ^ 32) : (ofNat n).toNat = n :=
  UInt32.toNat_ofNat_of_lt' h

theorem ext_toNat {i j : FragmentIndex} (h : i.toNat = j.toNat) : i = j := by
  cases i
  cases j
  exact congrArg FragmentIndex.mk (UInt32.toNat_inj.mp h)

theorem ofNat_toNat (i : FragmentIndex) : ofNat i.toNat = i :=
  ext_toNat (toNat_ofNat i.toNat_lt)

/-- The increment succeeds exactly where the next index fits the word. -/
theorem checkedIncrement_eq_some_iff {i j : FragmentIndex} :
    i.checkedIncrement = some j ↔ j.toNat = i.toNat + 1 := by
  have hi := i.toNat_lt
  have hj := j.toNat_lt
  unfold checkedIncrement
  split
  · rename_i h
    have hsucc : (FragmentIndex.mk (i.get + 1)).toNat = i.toNat + 1 := by
      show (i.get + 1).toNat = i.get.toNat + 1
      rw [UInt32.toNat_add]
      exact Nat.mod_eq_of_lt h
    rw [Option.some_inj]
    constructor
    · rintro rfl
      exact hsucc
    · intro h'
      exact ext_toNat (by rw [hsucc, h'])
  · rename_i h
    constructor
    · intro h'
      exact absurd h' (by simp)
    · intro h'
      omega

theorem checkedIncrement_ofNat {n : ℕ} (h : n + 1 < 2 ^ 32) :
    (ofNat n).checkedIncrement = some (ofNat (n + 1)) := by
  rw [checkedIncrement_eq_some_iff, toNat_ofNat h, toNat_ofNat (by omega)]

end FragmentIndex

/-- Header describing a single fragment. -/
structure FragmentHeader where
  messageId : MessageId
  fragmentIndex : FragmentIndex
  isLastFragment : Bool
  deriving DecidableEq, Repr

/-- Result of feeding a fragment into a series. -/
inductive FragmentStatus where
  | incomplete
  | duplicate
  | complete
  deriving DecidableEq, Repr

/-- Errors produced by a fragment series. -/
inductive FragmentError where
  | messageMismatch (expected found : MessageId)
  | indexMismatch (expected found : FragmentIndex)
  | seriesComplete
  | indexOverflow (last : FragmentIndex)
  deriving DecidableEq, Repr

/-! ## The series -/

/-- Track the expected ordering of fragments for a single logical message. -/
structure FragmentSeries where
  messageId : MessageId
  nextIndex : FragmentIndex
  complete : Bool
  deriving DecidableEq, Repr

namespace FragmentSeries

/-- A new series for `messageId`, expecting the first fragment. -/
def new (messageId : MessageId) : FragmentSeries := ⟨messageId, FragmentIndex.zero, false⟩

/-- Advance a fragment whose identity and index have already been checked. -/
def advanceAccepted (s : FragmentSeries) (fragment : FragmentHeader) :
    Except FragmentError Bool × FragmentSeries :=
  let nextIndex := fragment.fragmentIndex.checkedIncrement
  if fragment.isLastFragment then
    -- the largest index has no successor, and a final fragment does not need one
    match nextIndex with
    | some incremented => (.ok true, { s with complete := true, nextIndex := incremented })
    | none => (.ok true, { s with complete := true })
  else
    match nextIndex with
    | some incremented => (.ok false, { s with nextIndex := incremented })
    | none => (.error (.indexOverflow fragment.fragmentIndex), s)

/-- Start a new series with a validated first fragment. -/
def startWithFirst (fragment : FragmentHeader) : Except FragmentError (FragmentSeries × Bool) :=
  let series := new fragment.messageId
  if fragment.fragmentIndex ≠ FragmentIndex.zero then
    .error (.indexMismatch FragmentIndex.zero fragment.fragmentIndex)
  else
    match series.advanceAccepted fragment with
    | (.ok isComplete, series) => .ok (series, isComplete)
    | (.error err, _) => .error err

/-- Accept a fragment and update the expected index. -/
def accept (s : FragmentSeries) (fragment : FragmentHeader) :
    Except FragmentError FragmentStatus × FragmentSeries :=
  if fragment.messageId ≠ s.messageId then
    (.error (.messageMismatch s.messageId fragment.messageId), s)
  else if fragment.fragmentIndex.get < s.nextIndex.get then
    (.ok .duplicate, s)
  else if s.complete then
    (.error .seriesComplete, s)
  else if s.nextIndex.get < fragment.fragmentIndex.get then
    (.error (.indexMismatch s.nextIndex fragment.fragmentIndex), s)
  else
    match s.advanceAccepted fragment with
    | (.ok true, s') => (.ok .complete, s')
    | (.ok false, s') => (.ok .incomplete, s')
    | (.error err, s') => (.error err, s')

/-! ## What the series operations do -/

/-- The three ways a fragment is accepted, with the series each one leaves. -/
theorem accept_ok_cases {s s' : FragmentSeries} {h : FragmentHeader} {status : FragmentStatus}
    (hs : s.accept h = (.ok status, s')) :
    (status = .duplicate ∧ s' = s ∧ h.messageId = s.messageId ∧
      h.fragmentIndex.toNat < s.nextIndex.toNat) ∨
    (status = .incomplete ∧ h.isLastFragment = false ∧ s.complete = false ∧
      h.messageId = s.messageId ∧ h.fragmentIndex = s.nextIndex ∧
      s'.messageId = s.messageId ∧ s'.complete = false ∧
      s'.nextIndex.toNat = s.nextIndex.toNat + 1) ∨
    (status = .complete ∧ h.isLastFragment = true ∧ s.complete = false ∧
      h.messageId = s.messageId ∧ h.fragmentIndex = s.nextIndex ∧
      s'.messageId = s.messageId ∧ s'.complete = true) := by
  unfold accept at hs
  split at hs
  · cases hs
  rename_i hid
  split at hs
  · rename_i hlt
    obtain ⟨rfl, rfl⟩ : FragmentStatus.duplicate = status ∧ s = s' := by simpa using hs
    exact Or.inl ⟨rfl, rfl, not_not.mp hid, UInt32.lt_iff_toNat_lt.mp hlt⟩
  rename_i hge
  split at hs
  · cases hs
  rename_i hcomplete
  split at hs
  · cases hs
  rename_i hle
  have hidx : h.fragmentIndex = s.nextIndex := by
    apply FragmentIndex.ext_toNat
    rw [UInt32.lt_iff_toNat_lt] at hge hle
    show h.fragmentIndex.get.toNat = s.nextIndex.get.toNat
    omega
  right
  unfold advanceAccepted at hs
  cases hlast : h.isLastFragment
  · left
    cases hinc : h.fragmentIndex.checkedIncrement with
    | none => simp [hlast, hinc] at hs
    | some j =>
      simp only [hlast, hinc, Bool.false_eq_true, if_false, Prod.mk.injEq, Except.ok.injEq] at hs
      obtain ⟨rfl, rfl⟩ := hs
      have hj := FragmentIndex.checkedIncrement_eq_some_iff.mp hinc
      rw [hidx] at hj
      exact ⟨rfl, rfl, by simpa using hcomplete, not_not.mp hid, hidx, rfl,
        by simpa using hcomplete, hj⟩
  · right
    cases hinc : h.fragmentIndex.checkedIncrement with
    | none | some j =>
      simp only [hlast, hinc, if_true, Prod.mk.injEq, Except.ok.injEq] at hs
      obtain ⟨rfl, rfl⟩ := hs
      exact ⟨rfl, rfl, by simpa using hcomplete, not_not.mp hid, hidx, rfl, rfl⟩

/-- A fragment below the expected index is a duplicate and changes nothing. -/
theorem accept_duplicate {s : FragmentSeries} {h : FragmentHeader} (hid : h.messageId = s.messageId)
    (hlt : h.fragmentIndex.toNat < s.nextIndex.toNat) : s.accept h = (.ok .duplicate, s) := by
  have hlt' : h.fragmentIndex.get < s.nextIndex.get := UInt32.lt_iff_toNat_lt.mpr hlt
  rw [accept, if_neg (not_not.mpr hid), if_pos hlt']

/-- The expected fragment goes straight to `advance_accepted`. -/
theorem accept_expected {s : FragmentSeries} {h : FragmentHeader} (hid : h.messageId = s.messageId)
    (hidx : h.fragmentIndex = s.nextIndex) (hopen : s.complete = false) :
    s.accept h = match s.advanceAccepted h with
      | (.ok true, s') => (.ok .complete, s')
      | (.ok false, s') => (.ok .incomplete, s')
      | (.error err, s') => (.error err, s') := by
  have hirrefl : ¬ s.nextIndex.get < s.nextIndex.get := UInt32.lt_irrefl _
  rw [accept, if_neg (not_not.mpr hid), hidx, if_neg hirrefl, hopen,
    if_neg Bool.false_ne_true, if_neg hirrefl]

theorem accept_next {s : FragmentSeries} {h : FragmentHeader} {k : ℕ}
    (hid : h.messageId = s.messageId) (hidx : h.fragmentIndex = s.nextIndex)
    (hopen : s.complete = false) (hlast : h.isLastFragment = false)
    (hk : s.nextIndex = FragmentIndex.ofNat k) (hfits : k + 1 < 2 ^ 32) :
    s.accept h = (.ok .incomplete, { s with nextIndex := FragmentIndex.ofNat (k + 1) }) := by
  have hinc : h.fragmentIndex.checkedIncrement = some (FragmentIndex.ofNat (k + 1)) := by
    rw [hidx, hk]
    exact FragmentIndex.checkedIncrement_ofNat hfits
  rw [accept_expected hid hidx hopen, advanceAccepted, hlast, hinc]
  rfl

theorem accept_last {s : FragmentSeries} {h : FragmentHeader} (hid : h.messageId = s.messageId)
    (hidx : h.fragmentIndex = s.nextIndex) (hopen : s.complete = false)
    (hlast : h.isLastFragment = true) : ∃ s', s.accept h = (.ok .complete, s') := by
  rw [accept_expected hid hidx hopen, advanceAccepted, hlast]
  cases h.fragmentIndex.checkedIncrement with
  | none | some j => exact ⟨_, rfl⟩

end FragmentSeries

end Wireframe
