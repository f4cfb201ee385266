/-
# What a push can do, and the accounting invariant

`PushOutcome` lists every effect a push can have on a reassembler whose expired
partials have been purged, with the result it returns; `pushAt_outcome` says that
this list is complete.  Every later statement about runs of the reassembler is a
case analysis on it.

The accounting invariant `Reassembler.Inv` ties the byte counter to the map: the
counter is the sum of the buffer lengths, so no release can underflow it.
-/
import Mathlib.Tactic
import Wireframe.Reassembler
import Wireframe.Trace

namespace Wireframe

namespace Reassembler

/-! ## Purging -/

/-- The byte counter is the sum of the stored buffer lengths. -/
def Exact (r : Reassembler) : Prop :=
  r.budget.bufferedBytes = r.buffers.sumBy fun _ p => p.len

/-- The reassembler after an exact purge: expired partials gone, counter recomputed. -/
def purged (r : Reassembler) (now : Instant) : Reassembler :=
  let kept := r.buffers.retain fun _ p => !expired r.timeout now p
  { r with budget := { r.budget with bufferedBytes := kept.sumBy fun _ p => p.len }
           buffers := kept }

/-- Releasing the expired entries one by one never underflows a counter that covers
them, and leaves exactly the bytes of the others. -/
theorem releaseExpired_spec (timeout : ℕ) (now : Instant)
    (entries : List (Σ _ : MessageId, PartialMessage)) (budget : ReassemblyBudget)
    (evicted : List MessageId) (slack : ℕ)
    (h : budget.bufferedBytes = (entries.map fun e => e.2.len).sum + slack) :
    ∃ evicted', releaseExpired timeout now entries budget evicted =
      .ok ({ budget with bufferedBytes :=
        ((entries.filter fun e => !expired timeout now e.2).map fun e => e.2.len).sum + slack },
        evicted') := by
  induction entries generalizing budget evicted slack with
  | nil =>
    refine ⟨evicted, ?_⟩
    simp only [releaseExpired, List.filter_nil, List.map_nil, List.sum_nil] at h ⊢
    rw [← h]
  | cons e rest ih =>
    simp only [List.map_cons, List.sum_cons] at h
    cases hexp : expired timeout now e.2
    · -- a kept entry moves its bytes into the slack
      obtain ⟨evicted', hev⟩ := ih budget evicted (e.2.len + slack) (by omega)
      refine ⟨evicted', ?_⟩
      rw [releaseExpired, if_neg (by simp [hexp]), hev]
      simp only [List.filter_cons, hexp, Bool.not_false, if_true, List.map_cons, List.sum_cons]
      rw [Nat.add_comm e.2.len, ← Nat.add_assoc]
      congr 3
      omega
    · obtain ⟨evicted', hev⟩ := ih { budget with bufferedBytes := budget.bufferedBytes - e.2.len }
        (evicted ++ [e.1]) slack (by simp only; omega)
      refine ⟨evicted', ?_⟩
      rw [releaseExpired, if_pos hexp, budget.releaseBytes_eq_ok (by omega)]
      simp only
      rw [hev]
      simp [hexp]

theorem purgeExpiredAt_eq (r : Reassembler) (now : Instant) (h : r.Exact) :
    ∃ evicted, r.purgeExpiredAt now = .ok (evicted, r.purged now) := by
  obtain ⟨evicted, hev⟩ := releaseExpired_spec r.timeout now r.buffers.entries r.budget [] 0 h
  refine ⟨evicted, ?_⟩
  rw [purgeExpiredAt, hev]
  rfl

theorem purged_exact (r : Reassembler) (now : Instant) : (r.purged now).Exact := rfl

/-- A purge at a reading at which nothing has expired does nothing. -/
theorem purged_eq_self (r : Reassembler) (now : Instant) (hexact : r.Exact)
    (h : ∀ id p, r.buffers.lookup id = some p → expired r.timeout now p = false) :
    r.purged now = r := by
  have hkept : (r.buffers.retain fun _ p => !expired r.timeout now p) = r.buffers := by
    apply AList.retain_eq_self
    intro id p hp
    simp [h id p hp]
  unfold purged
  simp only [hkept]
  rw [← hexact]

/-! ## The effects of a push -/

/-- The reassembler without the partial `p` stored under `id`. -/
def dropPartial (r : Reassembler) (id : MessageId) (p : PartialMessage) : Reassembler :=
  { r with budget := { r.budget with bufferedBytes := r.budget.bufferedBytes - p.len }
           buffers := r.buffers.erase id }

/-- The reassembler with the new partial `p` stored under the vacant key `id`. -/
def storePartial (r : Reassembler) (id : MessageId) (p : PartialMessage) : Reassembler :=
  { r with budget := { r.budget with bufferedBytes := r.budget.bufferedBytes + p.len }
           buffers := r.buffers.insert id p }

/-- The reassembler with `payload` appended to the partial `p` stored under `id`. -/
def extendPartial (r : Reassembler) (id : MessageId) (p : PartialMessage)
    (series : FragmentSeries) (payload : List Byte) : Reassembler :=
  { r with budget := { r.budget with bufferedBytes := r.budget.bufferedBytes + payload.length }
           buffers := r.buffers.replace id { p with series := series, buffer := p.buffer ++ payload } }

/-- The byte cap leaves room for `additional` more bytes. -/
def BytesFit (r : Reassembler) (additional : ℕ) : Prop :=
  r.budget.bufferedBytes + additional ≤ r.budget.byteCap.get

/-- The partial cap leaves room for one more partial. -/
def PartialsFit (r : Reassembler) : Prop :=
  ∀ limit, r.budget.maxConcurrentPartials = some limit → r.buffers.size + 1 ≤ limit.get

/-- What admits the first fragment of an unknown message. -/
def AdmitsFirst (r : Reassembler) (header : FragmentHeader) (payload : List Byte) : Prop :=
  header.fragmentIndex = FragmentIndex.zero ∧ payload.length ≤ r.budget.maxMessageSize.get ∧
    (header.isLastFragment = false → r.PartialsFit ∧ r.BytesFit payload.length)

/-- What admits the next fragment of the stored partial `p`, once its series accepts it. -/
def AdmitsNext (r : Reassembler) (p : PartialMessage) (payload : List Byte) : Prop :=
  p.len + payload.length ≤ r.budget.maxMessageSize.get ∧ r.BytesFit payload.length

/-- Every effect a push can have on a purged reassembler, with the result it returns. -/
inductive PushOutcome (r : Reassembler) (header : FragmentHeader) (payload : List Byte)
    (now : Instant) : PushResult → Reassembler → Prop
  | rejectedNew (err : ReassemblyError) (hnew : r.buffers.lookup header.messageId = none)
      (hwhy : ¬ r.AdmitsFirst header payload) :
      PushOutcome r header payload now (.error err) r
  | rejectedOwn (err : ReassemblyError) (p : PartialMessage)
      (hown : r.buffers.lookup header.messageId = some p)
      (hwhy : ∀ status, (p.series.accept header).1 = .ok status →
        status ≠ .duplicate ∧ ¬ r.AdmitsNext p payload) :
      PushOutcome r header payload now (.error err) (r.dropPartial header.messageId p)
  | repeated (p : PartialMessage) (hown : r.buffers.lookup header.messageId = some p)
      (hindex : header.fragmentIndex.toNat < p.series.nextIndex.toNat) :
      PushOutcome r header payload now (.ok none) r
  | completedFirst (hnew : r.buffers.lookup header.messageId = none)
      (hlast : header.isLastFragment = true) (hadmits : r.AdmitsFirst header payload) :
      PushOutcome r header payload now (.ok (some ⟨header.messageId, payload⟩)) r
  | stored (series : FragmentSeries) (hnew : r.buffers.lookup header.messageId = none)
      (hlast : header.isLastFragment = false)
      (hseries : series = ⟨header.messageId, FragmentIndex.ofNat 1, false⟩)
      (hadmits : r.AdmitsFirst header payload) :
      PushOutcome r header payload now (.ok none)
        (r.storePartial header.messageId ⟨series, payload, now⟩)
  | appended (p : PartialMessage) (series : FragmentSeries)
      (hown : r.buffers.lookup header.messageId = some p)
      (haccept : p.series.accept header = (.ok .incomplete, series))
      (hadmits : r.AdmitsNext p payload) :
      PushOutcome r header payload now (.ok none)
        (r.extendPartial header.messageId p series payload)
  | completed (p : PartialMessage) (series : FragmentSeries)
      (hown : r.buffers.lookup header.messageId = some p)
      (haccept : p.series.accept header = (.ok .complete, series))
      (hadmits : r.AdmitsNext p payload) :
      PushOutcome r header payload now (.ok (some ⟨header.messageId, p.buffer ++ payload⟩))
        (r.dropPartial header.messageId p)

/-! ## Every push has one of these outcomes -/

theorem len_le_bufferedBytes {r : Reassembler} (hexact : r.Exact) {id : MessageId}
    {p : PartialMessage} (hp : r.buffers.lookup id = some p) : p.len ≤ r.budget.bufferedBytes := by
  rw [hexact]
  exact AList.le_sumBy (fun _ p => p.len) r.buffers id p hp

/-- Removing a stored partial never underflows an exact counter. -/
theorem removePartial_eq (r : Reassembler) (id : MessageId) (p q : PartialMessage)
    (hlen : q.len = p.len) (hle : p.len ≤ r.budget.bufferedBytes) :
    r.removePartial id q = .ok (r.dropPartial id p) := by
  rw [removePartial, hlen, r.budget.releaseBytes_eq_ok hle]
  rfl

theorem assertWithinMessageLimit_eq (b : ReassemblyBudget) (id : MessageId) (n : ℕ) :
    b.assertWithinMessageLimit id n =
      if n ≤ b.maxMessageSize.get then .ok () else .error (.messageTooLarge id n b.maxMessageSize) := by
  unfold ReassemblyBudget.assertWithinMessageLimit
  by_cases h : n ≤ b.maxMessageSize.get
  · rw [if_neg (by omega), if_pos h]
  · rw [if_pos (by omega), if_neg h]

theorem addBytes_of_fit {r : Reassembler} {n : ℕ} (h : r.BytesFit n) :
    r.budget.addBytes n = .ok { r.budget with bufferedBytes := r.budget.bufferedBytes + n } := by
  rw [ReassemblyBudget.addBytes_eq]
  exact if_pos h

theorem addBytes_of_not_fit {r : Reassembler} {n : ℕ} (h : ¬ r.BytesFit n) :
    ∃ err, r.budget.addBytes n = .error err := by
  rw [ReassemblyBudget.addBytes_eq]
  exact ⟨_, if_neg h⟩

theorem assertWithinPartialLimit_error {r : Reassembler} {err : ReassemblyError}
    (h : r.budget.assertWithinPartialLimit r.buffers.size = .error err) : ¬ r.PartialsFit := by
  intro hfit
  unfold ReassemblyBudget.assertWithinPartialLimit at h
  rcases hlimit : r.budget.maxConcurrentPartials with _ | limit
  · rw [hlimit] at h
    cases h
  · have hle := hfit limit hlimit
    have hlt : ¬ limit.get < saturatingAdd r.buffers.size 1 := by
      unfold saturatingAdd
      omega
    rw [hlimit] at h
    simp only [if_neg hlt] at h
    cases h

/-- Below the capacity of a word the saturating count is the true one. -/
theorem assertWithinPartialLimit_ok {r : Reassembler}
    (h : r.budget.assertWithinPartialLimit r.buffers.size = .ok ())
    (hcap : ¬ usizeMax < r.buffers.size + 1) : r.PartialsFit := by
  intro limit hlimit
  unfold ReassemblyBudget.assertWithinPartialLimit at h
  rw [hlimit] at h
  simp only at h
  split at h
  · cases h
  · rename_i hle
    unfold saturatingAdd at hle
    omega

/-- Appending drops the partial with an error unless the message and byte limits admit
the payload; then the partial is kept or completed. -/
theorem appendAndMaybeComplete_cases (r : Reassembler) (id : MessageId) (p : PartialMessage)
    (series : FragmentSeries) (payload : List Byte) (completes : Bool)
    (hle : p.len ≤ r.budget.bufferedBytes) :
    (¬ r.AdmitsNext p payload ∧
      ∃ err, r.appendAndMaybeComplete id { p with series := series } payload completes =
        .ok (.error err, r.dropPartial id p)) ∨
    (r.AdmitsNext p payload ∧
      r.appendAndMaybeComplete id { p with series := series } payload completes =
        .ok (if completes then (.ok (some ⟨id, p.buffer ++ payload⟩), r.dropPartial id p)
          else (.ok none, r.extendPartial id p series payload))) := by
  have hremove := r.removePartial_eq id p { p with series := series } rfl hle
  have hmax := r.budget.maxMessageSize.le_max
  unfold appendAndMaybeComplete AdmitsNext
  rcases hadd : checkedAdd (PartialMessage.len { p with series := series }) payload.length
    with _ | attempted
  · left
    have hover : usizeMax < p.len + payload.length := checkedAdd_eq_none_iff.mp hadd
    refine ⟨by omega, ?_⟩
    simp only [hremove, Except.map]
    exact ⟨_, rfl⟩
  obtain ⟨-, rfl⟩ := checkedAdd_eq_some_iff.mp hadd
  simp only [assertWithinMessageLimit_eq]
  by_cases hsize : p.len + payload.length ≤ r.budget.maxMessageSize.get
  swap
  · left
    refine ⟨fun h => hsize h.1, ?_⟩
    rw [if_neg (show ¬ PartialMessage.len { p with series := series } + payload.length ≤ _ from hsize)]
    simp only [hremove, Except.map]
    exact ⟨_, rfl⟩
  rw [if_pos (show PartialMessage.len { p with series := series } + payload.length ≤ _ from hsize)]
  by_cases hbytes : r.BytesFit payload.length
  swap
  · left
    obtain ⟨err, herr⟩ := addBytes_of_not_fit hbytes
    refine ⟨fun h => hbytes h.2, err, ?_⟩
    simp only [herr, hremove, Except.map]
  right
  refine ⟨⟨hsize, hbytes⟩, ?_⟩
  rw [addBytes_of_fit hbytes]
  cases completes
  · rfl
  · -- the bytes just added are given back together with the buffered ones
    have hlen : (PartialMessage.push { p with series := series } payload).len =
        p.len + payload.length := by
      simp [PartialMessage.push, PartialMessage.len]
    have hback : r.budget.bufferedBytes + payload.length - (p.len + payload.length) =
        r.budget.bufferedBytes - p.len := by omega
    simp only [if_true]
    rw [removePartial, hlen, ReassemblyBudget.releaseBytes_eq_ok _ (by simp only; omega)]
    simp only [Except.map, hback]
    rfl

/-- A fragment of a known message: refused, ignored, appended or the last. -/
theorem pushExistingFragment_outcome (r : Reassembler) (p : PartialMessage)
    (header : FragmentHeader) (payload : List Byte) (now : Instant) (hexact : r.Exact)
    (hown : r.buffers.lookup header.messageId = some p) :
    ∃ res r', r.pushExistingFragment p header payload = .ok (res, r') ∧
      PushOutcome r header payload now res r' := by
  have hle := len_le_bufferedBytes hexact hown
  unfold pushExistingFragment
  rcases hacc : p.series.accept header with ⟨err | status, series⟩
  · -- the series refuses the fragment, so its partial is abandoned
    refine ⟨_, _, ?_, .rejectedOwn (.fragment err) p hown (by simp [hacc])⟩
    simp only [r.removePartial_eq header.messageId p { p with series := series } rfl hle, Except.map]
  · cases status with
    | duplicate =>
      rcases FragmentSeries.accept_ok_cases hacc with ⟨-, rfl, -, hlt⟩ | ⟨h, -⟩ | ⟨h, -⟩
      · refine ⟨_, _, ?_, .repeated p hown hlt⟩
        simp only [AList.replace_self r.buffers header.messageId p hown]
      · exact absurd h (by decide)
      · exact absurd h (by decide)
    | incomplete =>
      simp only
      rcases r.appendAndMaybeComplete_cases header.messageId p series payload false hle with
        ⟨hwhy, err, h⟩ | ⟨hadmits, h⟩
      · exact ⟨_, _, h, .rejectedOwn err p hown (by simp [hacc, hwhy])⟩
      · exact ⟨_, _, h, .appended p series hown hacc hadmits⟩
    | complete =>
      simp only
      rcases r.appendAndMaybeComplete_cases header.messageId p series payload true hle with
        ⟨hwhy, err, h⟩ | ⟨hadmits, h⟩
      · exact ⟨_, _, h, .rejectedOwn err p hown (by simp [hacc, hwhy])⟩
      · exact ⟨_, _, h, .completed p series hown hacc hadmits⟩

/-- A series starts at the zero index only, and then expects the index one. -/
theorem startWithFirst_eq (header : FragmentHeader) :
    FragmentSeries.startWithFirst header =
      if header.fragmentIndex = FragmentIndex.zero then
        .ok (⟨header.messageId, FragmentIndex.ofNat 1, header.isLastFragment⟩,
          header.isLastFragment)
      else .error (.indexMismatch FragmentIndex.zero header.fragmentIndex) := by
  unfold FragmentSeries.startWithFirst
  by_cases hzero : header.fragmentIndex = FragmentIndex.zero
  · have hinc : FragmentIndex.zero.checkedIncrement = some (FragmentIndex.ofNat 1) :=
      FragmentIndex.checkedIncrement_ofNat (by decide)
    rw [if_pos hzero, if_neg (not_not.mpr hzero)]
    unfold FragmentSeries.advanceAccepted
    rw [hzero, hinc]
    cases header.isLastFragment <;> rfl
  · rw [if_neg hzero, if_pos hzero]

/-- A fragment of a new message; only the growth of the table can panic. -/
theorem pushFirstFragment_outcome (r : Reassembler) (header : FragmentHeader)
    (payload : List Byte) (now : Instant) (hnew : r.buffers.lookup header.messageId = none) :
    (∃ res r', r.pushFirstFragment header payload now = .ok (res, r') ∧
      PushOutcome r header payload now res r') ∨
    (r.pushFirstFragment header payload now = .error .capacityOverflow ∧
      header.isLastFragment = false ∧ usizeMax < r.buffers.size + 1) := by
  unfold pushFirstFragment
  rw [startWithFirst_eq]
  by_cases hzero : header.fragmentIndex = FragmentIndex.zero
  swap
  · rw [if_neg hzero]
    exact Or.inl ⟨_, _, rfl, .rejectedNew _ hnew fun h => hzero h.1⟩
  rw [if_pos hzero]
  simp only [assertWithinMessageLimit_eq]
  by_cases hsize : payload.length ≤ r.budget.maxMessageSize.get
  swap
  · rw [if_neg hsize]
    exact Or.inl ⟨_, _, rfl, .rejectedNew _ hnew fun h => hsize h.2.1⟩
  rw [if_pos hsize]
  cases hlast : header.isLastFragment
  swap
  · exact Or.inl ⟨_, _, rfl, .completedFirst hnew hlast ⟨hzero, hsize, by simp [hlast]⟩⟩
  simp only [Bool.false_eq_true, if_false]
  rcases hpart : r.budget.assertWithinPartialLimit r.buffers.size with err | _
  · refine Or.inl ⟨_, _, rfl, .rejectedNew _ hnew fun h => ?_⟩
    exact assertWithinPartialLimit_error hpart (h.2.2 hlast).1
  by_cases hbytes : r.BytesFit payload.length
  swap
  · obtain ⟨err, herr⟩ := addBytes_of_not_fit hbytes
    rw [herr]
    exact Or.inl ⟨_, _, rfl, .rejectedNew _ hnew fun h => hbytes (h.2.2 hlast).2⟩
  rw [addBytes_of_fit hbytes]
  simp only
  by_cases hcap : usizeMax < r.buffers.size + 1
  · right
    exact ⟨by rw [if_pos hcap], trivial, hcap⟩
  · left
    rw [if_neg hcap]
    have hfit : r.PartialsFit := assertWithinPartialLimit_ok hpart hcap
    exact ⟨_, _, rfl, .stored _ hnew hlast rfl ⟨hzero, hsize, fun _ => ⟨hfit, hbytes⟩⟩⟩

/-- **The outcomes are complete**: a push on an exact reassembler purges the expired
partials and then has one of the listed effects, unless the table is out of room. -/
theorem pushAt_outcome (r : Reassembler) (header : FragmentHeader) (payload : List Byte)
    (now : Instant) (hexact : r.Exact) :
    (∃ res r', r.pushAt header payload now = .ok (res, r') ∧
      PushOutcome (r.purged now) header payload now res r') ∨
    (r.pushAt header payload now = .error .capacityOverflow ∧
      header.isLastFragment = false ∧ usizeMax < (r.purged now).buffers.size + 1) := by
  obtain ⟨evicted, hpurge⟩ := r.purgeExpiredAt_eq now hexact
  unfold pushAt
  rw [hpurge]
  simp only
  rcases hl : (r.purged now).buffers.lookup header.messageId with _ | p
  · exact (r.purged now).pushFirstFragment_outcome header payload now hl
  · left
    exact (r.purged now).pushExistingFragment_outcome p header payload now (r.purged_exact now) hl

/-! ## Pushes that are known to be accepted -/

section Accepted

variable {r : Reassembler} {header : FragmentHeader} {payload : List Byte} {now : Instant}
  {p : PartialMessage} (hexact : r.Exact)
  (hfresh : ∀ id p, r.buffers.lookup id = some p → expired r.timeout now p = false)

include hexact hfresh

/-- When nothing has expired, a push goes straight to the entry of its message. -/
theorem pushAt_of_lookup_some (hown : r.buffers.lookup header.messageId = some p) :
    r.pushAt header payload now = r.pushExistingFragment p header payload := by
  obtain ⟨evicted, hpurge⟩ := r.purgeExpiredAt_eq now hexact
  simp only [pushAt, hpurge, r.purged_eq_self now hexact hfresh, hown]

theorem pushAt_of_lookup_none (hnew : r.buffers.lookup header.messageId = none) :
    r.pushAt header payload now = r.pushFirstFragment header payload now := by
  obtain ⟨evicted, hpurge⟩ := r.purgeExpiredAt_eq now hexact
  simp only [pushAt, hpurge, r.purged_eq_self now hexact hfresh, hnew]

theorem pushAt_duplicate (hown : r.buffers.lookup header.messageId = some p)
    (haccept : p.series.accept header = (.ok .duplicate, p.series)) :
    r.pushAt header payload now = .ok (.ok none, r) := by
  rw [pushAt_of_lookup_some hexact hfresh hown]
  simp only [pushExistingFragment, haccept]
  rw [AList.replace_self r.buffers header.messageId p hown]

theorem pushAt_incomplete {series : FragmentSeries}
    (hown : r.buffers.lookup header.messageId = some p)
    (haccept : p.series.accept header = (.ok .incomplete, series))
    (hadmits : r.AdmitsNext p payload) :
    r.pushAt header payload now =
      .ok (.ok none, r.extendPartial header.messageId p series payload) := by
  rw [pushAt_of_lookup_some hexact hfresh hown]
  simp only [pushExistingFragment, haccept]
  rcases r.appendAndMaybeComplete_cases header.messageId p series payload false
    (len_le_bufferedBytes hexact hown) with ⟨hwhy, -⟩ | ⟨-, h⟩
  · exact absurd hadmits hwhy
  · exact h

theorem pushAt_complete {series : FragmentSeries}
    (hown : r.buffers.lookup header.messageId = some p)
    (haccept : p.series.accept header = (.ok .complete, series))
    (hadmits : r.AdmitsNext p payload) :
    r.pushAt header payload now =
      .ok (.ok (some ⟨header.messageId, p.buffer ++ payload⟩),
        r.dropPartial header.messageId p) := by
  rw [pushAt_of_lookup_some hexact hfresh hown]
  simp only [pushExistingFragment, haccept]
  rcases r.appendAndMaybeComplete_cases header.messageId p series payload true
    (len_le_bufferedBytes hexact hown) with ⟨hwhy, -⟩ | ⟨-, h⟩
  · exact absurd hadmits hwhy
  · exact h

theorem pushAt_first_last (hnew : r.buffers.lookup header.messageId = none)
    (hlast : header.isLastFragment = true) (hadmits : r.AdmitsFirst header payload) :
    r.pushAt header payload now = .ok (.ok (some ⟨header.messageId, payload⟩), r) := by
  obtain ⟨hzero, hsize, -⟩ := hadmits
  rw [pushAt_of_lookup_none hexact hfresh hnew]
  simp only [pushFirstFragment, startWithFirst_eq, if_pos hzero, assertWithinMessageLimit_eq,
    if_pos hsize, hlast, if_true]

theorem pushAt_first_stored (hnew : r.buffers.lookup header.messageId = none)
    (hlast : header.isLastFragment = false) (hadmits : r.AdmitsFirst header payload)
    (hroom : r.buffers.size + 1 ≤ usizeMax) :
    r.pushAt header payload now = .ok (.ok none, r.storePartial header.messageId
      ⟨⟨header.messageId, FragmentIndex.ofNat 1, false⟩, payload, now⟩) := by
  rw [pushAt_of_lookup_none hexact hfresh hnew]
  rcases r.pushFirstFragment_outcome header payload now hnew with ⟨res, r', h, hout⟩ | ⟨-, -, hfull⟩
  · rw [h]
    cases hout with
    | rejectedNew err hnew hwhy => exact absurd hadmits hwhy
    | completedFirst hnew hlast' hadmits => exact absurd (hlast.symm.trans hlast') (by decide)
    | stored series hnew hlast hseries hadmits => rw [hseries]
    | rejectedOwn err p hown hwhy | repeated p hown hindex
    | appended p series hown haccept hadmits | completed p series hown haccept hadmits =>
      exact absurd (hnew.symm.trans hown) (by simp)
  · omega

end Accepted

/-! ## The accounting invariant -/

/-- **The accounting invariant** of the reassembler: the counter is exact, every limit is
kept, and each stored series is incomplete and sits under its own message id. -/
structure Inv (r : Reassembler) : Prop where
  exact : r.Exact
  bytes_le : r.budget.bufferedBytes ≤ r.budget.byteCap.get
  partials_le : ∀ limit, r.budget.maxConcurrentPartials = some limit → r.buffers.size ≤ limit.get
  stored : ∀ id p, r.buffers.lookup id = some p →
    p.len ≤ r.budget.maxMessageSize.get ∧ p.series.complete = false ∧ p.series.messageId = id

theorem inv_new (maxMessageSize : NonZeroUsize) (timeout : ℕ)
    (maxConcurrentPartials maxBufferedBytes : Option NonZeroUsize) :
    (new maxMessageSize timeout maxConcurrentPartials maxBufferedBytes).Inv where
  exact := rfl
  bytes_le := Nat.zero_le _
  partials_le := fun _ _ => Nat.zero_le _
  stored := fun id p hp => absurd hp (by simp [new])

theorem inv_purged {r : Reassembler} (h : r.Inv) (now : Instant) : (r.purged now).Inv where
  exact := r.purged_exact now
  bytes_le := by
    have hle := AList.sumBy_retain_le (fun _ p => p.len) r.buffers
      fun _ p => !expired r.timeout now p
    rw [← show r.budget.bufferedBytes = _ from h.exact] at hle
    exact le_trans hle h.bytes_le
  partials_le := by
    intro limit hlimit
    exact le_trans (AList.size_retain_le _ _) (h.partials_le limit hlimit)
  stored := by
    intro id p hp
    rw [purged, AList.lookup_retain] at hp
    exact h.stored id p (Option.filter_eq_some_iff.mp hp).1

/-- Dropping a stored partial gives back exactly its bytes. -/
theorem inv_dropPartial {r : Reassembler} (h : r.Inv) {id : MessageId} {p : PartialMessage}
    (hp : r.buffers.lookup id = some p) : (r.dropPartial id p).Inv where
  exact := by
    have hsum := AList.sumBy_erase (fun _ p => p.len) r.buffers id p hp
    have hexact : r.budget.bufferedBytes = _ := h.exact
    show r.budget.bufferedBytes - p.len = (r.buffers.erase id).sumBy fun _ p => p.len
    omega
  bytes_le := le_trans (Nat.sub_le _ _) h.bytes_le
  partials_le := by
    intro limit hlimit
    exact le_trans (AList.size_erase_le _ _) (h.partials_le limit hlimit)
  stored := by
    intro id' q hq
    rw [dropPartial, AList.lookup_erase_eq] at hq
    split at hq
    · cases hq
    · exact h.stored id' q hq

/-- A new partial within the caps keeps the invariant. -/
theorem inv_storePartial {r : Reassembler} (h : r.Inv) {id : MessageId} {p : PartialMessage}
    (hnew : r.buffers.lookup id = none) (hsize : p.len ≤ r.budget.maxMessageSize.get)
    (hincomplete : p.series.complete = false) (hid : p.series.messageId = id)
    (hpartials : r.PartialsFit) (hbytes : r.BytesFit p.len) : (r.storePartial id p).Inv where
  exact := by
    have hsum := AList.sumBy_insert_of_lookup_none (fun _ p => p.len) r.buffers id p hnew
    have hexact : r.budget.bufferedBytes = _ := h.exact
    show r.budget.bufferedBytes + p.len = (r.buffers.insert id p).sumBy fun _ p => p.len
    omega
  bytes_le := hbytes
  partials_le := by
    intro limit hlimit
    show (r.buffers.insert id p).size ≤ limit.get
    rw [AList.size_insert_of_lookup_none _ _ _ hnew]
    exact hpartials limit hlimit
  stored := by
    intro id' q hq
    rw [storePartial, AList.lookup_insert_eq] at hq
    split at hq
    · rename_i heq
      cases hq
      exact ⟨hsize, hincomplete, hid.trans heq.symm⟩
    · exact h.stored id' q hq

/-- A longer partial within the caps keeps the invariant. -/
theorem inv_extendPartial {r : Reassembler} (h : r.Inv) {id : MessageId} {p : PartialMessage}
    {series : FragmentSeries} {payload : List Byte} (hown : r.buffers.lookup id = some p)
    (hincomplete : series.complete = false) (hid : series.messageId = p.series.messageId)
    (hadmits : r.AdmitsNext p payload) : (r.extendPartial id p series payload).Inv where
  exact := by
    have hsum := AList.sumBy_replace (fun _ p => p.len) r.buffers id p
      { p with series := series, buffer := p.buffer ++ payload } hown
    have hlen : PartialMessage.len { p with series := series, buffer := p.buffer ++ payload } =
        p.len + payload.length := by simp [PartialMessage.len]
    have hexact : r.budget.bufferedBytes = _ := h.exact
    show r.budget.bufferedBytes + payload.length = (r.buffers.replace id _).sumBy fun _ p => p.len
    omega
  bytes_le := hadmits.2
  partials_le := by
    intro limit hlimit
    show (r.buffers.replace id _).size ≤ limit.get
    rw [AList.size_replace]
    exact h.partials_le limit hlimit
  stored := by
    intro id' q hq
    rw [extendPartial, AList.lookup_replace_eq _ _ _ _ _ hown] at hq
    split at hq
    · rename_i heq
      cases hq
      refine ⟨?_, hincomplete, ?_⟩
      · simpa [PartialMessage.len, extendPartial] using hadmits.1
      · rw [heq]
        exact hid.trans (h.stored id p hown).2.2
    · exact h.stored id' q hq

/-- The configuration a reassembler was created with. -/
def settings (r : Reassembler) :
    NonZeroUsize × ℕ × Option NonZeroUsize × Option NonZeroUsize :=
  (r.budget.maxMessageSize, r.timeout, r.budget.maxConcurrentPartials, r.budget.maxBufferedBytes)

theorem settings_of_outcome {r r' : Reassembler} {header : FragmentHeader} {payload : List Byte}
    {now : Instant} {res : PushResult} (hout : PushOutcome r header payload now res r') :
    r'.settings = r.settings := by
  cases hout <;> rfl

/-- **Step lemma**: every outcome of a push preserves the accounting invariant. -/
theorem inv_of_outcome {r r' : Reassembler} {header : FragmentHeader} {payload : List Byte}
    {now : Instant} {res : PushResult} (h : r.Inv)
    (hout : PushOutcome r header payload now res r') : r'.Inv := by
  cases hout with
  | rejectedNew err hnew hwhy | repeated p hown hindex | completedFirst hnew hlast hadmits =>
    exact h
  | rejectedOwn err p hown hwhy | completed p series hown haccept hadmits =>
    exact inv_dropPartial h hown
  | stored series hnew hlast hseries hadmits =>
    obtain ⟨-, hsize, hroom⟩ := hadmits
    subst hseries
    exact inv_storePartial h hnew hsize rfl rfl (hroom hlast).1 (hroom hlast).2
  | appended p series hown haccept hadmits =>
    rcases FragmentSeries.accept_ok_cases haccept with ⟨hs, -⟩ | ⟨-, -, -, -, -, hid, hc, -⟩ | ⟨hs, -⟩
    · exact absurd hs (by decide)
    · exact inv_extendPartial h hown hc hid hadmits
    · exact absurd hs (by decide)

/-! ## Runs -/

/-- The calls that change a reassembler. -/
inductive Call where
  | push (header : FragmentHeader) (payload : List Byte) (now : Instant)
  | purge (now : Instant)
  deriving DecidableEq, Repr

/-- What a call returns to its caller. -/
inductive Reply where
  | pushed (result : PushResult)
  | evicted (ids : List MessageId)

/-- Make one call. -/
def call (r : Reassembler) : Call → Except Panic (Reply × Reassembler)
  | .push header payload now => (r.pushAt header payload now).map fun out => (.pushed out.1, out.2)
  | .purge now => (r.purgeExpiredAt now).map fun out => (.evicted out.1, out.2)

/-- **Step lemma**: a call that returns preserves the invariant and the configuration. -/
theorem call_inv (r : Reassembler) (c : Call) (reply : Reply) (r' : Reassembler) (h : r.Inv)
    (hc : r.call c = .ok (reply, r')) : r'.Inv ∧ r'.settings = r.settings := by
  cases c with
  | push header payload now =>
    rcases r.pushAt_outcome header payload now h.exact with ⟨res, r'', hpush, hout⟩ | ⟨hpush, -⟩
    · obtain ⟨-, rfl⟩ : Reply.pushed res = reply ∧ r'' = r' := by
        simpa [call, hpush, Except.map] using hc
      have hset : r''.settings = (r.purged now).settings := settings_of_outcome hout
      exact ⟨inv_of_outcome (inv_purged h now) hout, hset⟩
    · exact absurd hc (by simp [call, hpush, Except.map])
  | purge now =>
    obtain ⟨evicted, hpurge⟩ := r.purgeExpiredAt_eq now h.exact
    obtain ⟨-, rfl⟩ : Reply.evicted evicted = reply ∧ r.purged now = r' := by
      simpa [call, hpurge, Except.map] using hc
    exact ⟨inv_purged h now, rfl⟩

theorem pushAt_inv {r r' : Reassembler} {header : FragmentHeader} {payload : List Byte}
    {now : Instant} {res : PushResult} (h : r.Inv)
    (hpush : r.pushAt header payload now = .ok (res, r')) :
    r'.Inv ∧ r'.settings = r.settings :=
  call_inv r (.push header payload now) (.pushed res) r' h (by simp [call, hpush, Except.map])

/-- Under the invariant the counter always covers what a call releases. -/
theorem call_ne_underflow (r : Reassembler) (c : Call) (h : r.Inv) :
    r.call c ≠ .error .arithmeticUnderflow := by
  cases c with
  | push header payload now =>
    rcases r.pushAt_outcome header payload now h.exact with ⟨res, r', hpush, -⟩ | ⟨hpush, -⟩ <;>
      simp [call, hpush, Except.map]
  | purge now =>
    obtain ⟨evicted, hpurge⟩ := r.purgeExpiredAt_eq now h.exact
    simp [call, hpurge, Except.map]

/-- **Exact accounting over every run**: from a fresh reassembler, whatever the calls and
their clock readings, no release underflows the counter, and in every state reached the
counter is the sum of the stored buffers and every configured limit holds. -/
theorem run_accounting (maxMessageSize : NonZeroUsize) (timeout : ℕ)
    (maxConcurrentPartials maxBufferedBytes : Option NonZeroUsize) (calls : List Call) :
    let start := new maxMessageSize timeout maxConcurrentPartials maxBufferedBytes
    Trace.run call start calls ≠ .error .arithmeticUnderflow ∧
    ∀ replies r, Trace.run call start calls = .ok (replies, r) →
      r.bufferedBytes = r.buffers.sumBy (fun _ p => p.len) ∧
      (∀ limit, maxBufferedBytes = some limit → r.bufferedBytes ≤ limit.get) ∧
      (∀ limit, maxConcurrentPartials = some limit → r.bufferedLen ≤ limit.get) ∧
      ∀ id p, r.buffers.lookup id = some p →
        p.len ≤ maxMessageSize.get ∧ p.series.complete = false ∧ p.series.messageId = id := by
  intro start
  have hinit : start.Inv := inv_new maxMessageSize timeout maxConcurrentPartials maxBufferedBytes
  have hstep : ∀ (r : Reassembler) c reply r', (r.Inv ∧ r.settings = start.settings) →
      r.call c = .ok (reply, r') → r'.Inv ∧ r'.settings = start.settings := by
    rintro r c reply r' ⟨hinv, hset⟩ hc
    obtain ⟨hinv', hset'⟩ := call_inv r c reply r' hinv hc
    exact ⟨hinv', hset'.trans hset⟩
  refine ⟨Trace.run_ne_error hstep (fun r c h => call_ne_underflow r c h.1) ⟨hinit, rfl⟩, ?_⟩
  intro replies r hrun
  obtain ⟨hinv, hset⟩ := Trace.run_invariant hstep ⟨hinit, rfl⟩ hrun
  obtain ⟨hmsg, -, hpart, hbytes⟩ : r.budget.maxMessageSize = maxMessageSize ∧ r.timeout = timeout ∧
      r.budget.maxConcurrentPartials = maxConcurrentPartials ∧
      r.budget.maxBufferedBytes = maxBufferedBytes := by simpa [settings, start, new,
        ReassemblyBudget.new] using hset
  subst hmsg hpart hbytes
  refine ⟨hinv.exact, ?_, hinv.partials_le, hinv.stored⟩
  intro limit hlimit
  have hle := hinv.bytes_le
  rw [ReassemblyBudget.byteCap, hlimit] at hle
  exact hle

/-- The run theorem on a stored first fragment of two bytes under a cap of two. -/
theorem run_accounting_two_bytes :
    ∃ replies r, Trace.run call (new ⟨8, by decide, by decide⟩ 5 none (some ⟨2, by decide, by decide⟩))
        [.push ⟨⟨7⟩, FragmentIndex.zero, false⟩ [1, 2] 0] = .ok (replies, r) ∧
      r.bufferedBytes = 2 ∧ r.bufferedBytes = r.buffers.sumBy (fun _ p => p.len) :=
  ⟨_, _, rfl, rfl, ((run_accounting ⟨8, by decide, by decide⟩ 5 none
    (some ⟨2, by decide, by decide⟩) [.push ⟨⟨7⟩, FragmentIndex.zero, false⟩ [1, 2] 0]).2 _ _ rfl).1⟩

end Reassembler

end Wireframe
