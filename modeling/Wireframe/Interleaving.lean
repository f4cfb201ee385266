/-
# Interleaved delivery of fragmented messages

Several messages, each split by its own fragmenter, share one connection.  Their
fragments arrive in some interleaving that keeps every message's own order, with
repeats of fragments the receiver already has.

`Delivery` is the abstract receiver: how many fragments of each message have arrived,
and when the first one did.  `Represents` says that a reassembler holds exactly the
partials this abstract state predicts: under each in-flight id, the concatenation of
the fragments that have arrived.  One push preserves it (`pushAt_represents`), and the
delivery theorem is an induction over the arrivals.
-/
import Mathlib.Tactic
import Wireframe.FragmentSplit
import Wireframe.ReassemblerInv

namespace Wireframe

/-! ## Messages and arrivals -/

/-- A message together with the fragments some fragmenter split it into. -/
structure SentMessage where
  fragmenter : Fragmenter
  messageId : MessageId
  payload : List Byte
  batch : FragmentBatch
  split : fragmenter.fragmentWithId messageId payload = .ok (.ok batch)

namespace SentMessage

/-- The fragments of the message, in order. -/
def frames (m : SentMessage) : List FragmentFrame := m.batch.fragments

theorem isSplit (m : SentMessage) : IsSplit m.messageId m.payload m.frames :=
  (m.fragmenter.fragmentWithId_isSplit m.messageId m.payload m.batch m.split).2

end SentMessage

/-- One fragment of a message reaching the receiver at the clock reading `now`. -/
structure Arrival where
  message : SentMessage
  index : Fin message.frames.length
  now : Instant

namespace Arrival

/-- The fragment that arrives. -/
def frame (a : Arrival) : FragmentFrame := a.message.frames.get a.index

/-- The last fragment returns its message; every other fragment returns nothing. -/
def verdict (a : Arrival) : PushResult :=
  if a.index.val + 1 = a.message.frames.length then
    .ok (some ⟨a.message.messageId, a.message.payload⟩)
  else .ok none

/-- Push the fragment that arrives. -/
def push (r : Reassembler) (a : Arrival) : Except Panic (PushResult × Reassembler) :=
  r.pushAt a.frame.header a.frame.payload a.now

theorem header_eq (a : Arrival) : a.frame.header =
    ⟨a.message.messageId, FragmentIndex.ofNat a.index,
      decide (a.index.val + 1 = a.message.frames.length)⟩ :=
  a.message.isSplit.header a.index a.index.isLt

end Arrival

/-! ## The abstract receiver -/

/-- How many fragments of each message have arrived, and when its first one did. -/
structure Delivery where
  progress : MessageId → ℕ
  started : MessageId → Instant

namespace Delivery

/-- Nothing has arrived yet. -/
def start : Delivery := ⟨fun _ => 0, fun _ => 0⟩

/-- Some but not all fragments of `m` have arrived. -/
def InFlight (d : Delivery) (m : SentMessage) : Prop :=
  0 < d.progress m.messageId ∧ d.progress m.messageId < m.frames.length

instance (d : Delivery) : DecidablePred d.InFlight :=
  fun m => inferInstanceAs (Decidable (0 < d.progress m.messageId ∧ _))

/-- Of the messages `msgs`, those in flight. -/
def inFlight (d : Delivery) (msgs : List SentMessage) : List SentMessage :=
  msgs.filter fun m => d.InFlight m

/-- The bytes of `m` that have arrived. -/
def received (d : Delivery) (m : SentMessage) : List Byte :=
  framePayloads (m.frames.take (d.progress m.messageId))

/-- The bytes held for messages in flight. -/
def heldBytes (d : Delivery) (msgs : List SentMessage) : ℕ :=
  ((d.inFlight msgs).map fun m => (d.received m).length).sum

/-- The arrival is the next fragment of its message. -/
def Fresh (d : Delivery) (a : Arrival) : Prop := a.index.val = d.progress a.message.messageId

instance (d : Delivery) : DecidablePred d.Fresh := fun _ => inferInstanceAs (Decidable (_ = _))

/-- The arrival repeats a fragment of a message that is still incomplete. -/
def Repeat (d : Delivery) (a : Arrival) : Prop :=
  a.index.val < d.progress a.message.messageId ∧
    d.progress a.message.messageId < a.message.frames.length

instance (d : Delivery) : DecidablePred d.Repeat := fun _ => inferInstanceAs (Decidable (_ ∧ _))

/-- Count a fresh arrival; the first fragment of a message sets its starting time. -/
def record (d : Delivery) (a : Arrival) : Delivery :=
  if a.index.val = d.progress a.message.messageId then
    { progress := Function.update d.progress a.message.messageId (a.index + 1)
      started := if a.index.val = 0 then Function.update d.started a.message.messageId a.now
        else d.started }
  else d

/-- **Interleavings**: every arrival belongs to one of the messages and is either its
next fragment or a repeat, and in the end every message has arrived completely. -/
def Interleaves (msgs : List SentMessage) : Delivery → List Arrival → Prop
  | d, [] => ∀ m ∈ msgs, d.progress m.messageId = m.frames.length
  | d, a :: rest => a.message ∈ msgs ∧ (d.Fresh a ∨ d.Repeat a) ∧ Interleaves msgs (d.record a) rest

/-- What the count and byte caps must leave room for when `a` arrives: a fragment of a
multi-fragment message needs its bytes, and the first one also a place in the map. -/
def FitsCaps (maxConcurrentPartials maxBufferedBytes : Option NonZeroUsize)
    (msgs : List SentMessage) (d : Delivery) (a : Arrival) : Prop :=
  d.Fresh a → 1 < a.message.frames.length →
    d.heldBytes msgs + a.frame.payload.length ≤ (maxBufferedBytes.getD NonZeroUsize.max).get ∧
    (a.index.val = 0 → ∀ limit, maxConcurrentPartials = some limit →
      (d.inFlight msgs).length + 1 ≤ limit.get)

/-- The caps are never exceeded along the arrivals. -/
def WithinCaps (maxConcurrentPartials maxBufferedBytes : Option NonZeroUsize)
    (msgs : List SentMessage) : Delivery → List Arrival → Prop
  | _, [] => True
  | d, a :: rest => FitsCaps maxConcurrentPartials maxBufferedBytes msgs d a ∧
      WithinCaps maxConcurrentPartials maxBufferedBytes msgs (d.record a) rest

/-- No arrival finds a partial of any message that has timed out. -/
def OnTime (timeout : ℕ) (msgs : List SentMessage) : Delivery → List Arrival → Prop
  | _, [] => True
  | d, a :: rest =>
    (∀ m ∈ d.inFlight msgs, saturatingDurationSince a.now (d.started m.messageId) < timeout) ∧
      OnTime timeout msgs (d.record a) rest

/-- No arrival finds its own message's partial timed out. -/
def OwnOnTime (timeout : ℕ) : Delivery → List Arrival → Prop
  | _, [] => True
  | d, a :: rest =>
    (d.InFlight a.message →
      saturatingDurationSince a.now (d.started a.message.messageId) < timeout) ∧
      OwnOnTime timeout (d.record a) rest

/-! ## What recording an arrival changes -/

section Record

variable {d : Delivery} {a : Arrival}

theorem record_of_not_fresh (h : ¬ d.Fresh a) : d.record a = d := if_neg h

theorem record_of_fresh (h : d.Fresh a) : d.record a =
    { progress := Function.update d.progress a.message.messageId (a.index + 1)
      started := if a.index.val = 0 then Function.update d.started a.message.messageId a.now
        else d.started } := if_pos h

theorem record_progress_self (h : d.Fresh a) :
    (d.record a).progress a.message.messageId = a.index + 1 := by
  rw [record_of_fresh h]
  exact Function.update_self _ _ _

theorem record_started_first (h : d.Fresh a) (hzero : a.index.val = 0) :
    (d.record a).started a.message.messageId = a.now := by
  rw [record_of_fresh h]
  simp only [if_pos hzero]
  exact Function.update_self _ _ _

/-- Only the first fragment of a message sets its starting time. -/
theorem record_started_next (h : d.Fresh a) (hpos : a.index.val ≠ 0) :
    (d.record a).started = d.started := by
  rw [record_of_fresh h]
  exact if_neg hpos

theorem record_other {id : MessageId} (hid : id ≠ a.message.messageId) :
    (d.record a).progress id = d.progress id ∧ (d.record a).started id = d.started id := by
  by_cases h : d.Fresh a
  · rw [record_of_fresh h]
    refine ⟨Function.update_of_ne hid _ _, ?_⟩
    by_cases hzero : a.index.val = 0
    · simp only [if_pos hzero]
      exact Function.update_of_ne hid _ _
    · simp only [if_neg hzero]
  · rw [record_of_not_fresh h]
    exact ⟨rfl, rfl⟩

/-- One more fragment: the bytes received grow by its payload. -/
theorem received_record (h : d.Fresh a) :
    (d.record a).received a.message = d.received a.message ++ a.frame.payload := by
  unfold received
  rw [record_progress_self h, ← h, List.take_succ_eq_append_getElem a.index.isLt,
    framePayloads_append]
  simp [framePayloads, Arrival.frame]

theorem received_append_le (h : d.Fresh a) :
    (d.received a.message).length + a.frame.payload.length ≤ a.message.payload.length := by
  rw [← List.length_append, ← received_record h, ← a.message.isSplit.payloads]
  have hsplit := framePayloads_append
    (a.message.frames.take ((d.record a).progress a.message.messageId))
    (a.message.frames.drop ((d.record a).progress a.message.messageId))
  rw [List.take_append_drop] at hsplit
  rw [hsplit, List.length_append]
  exact Nat.le_add_right _ _

/-- After the last fragment the whole payload has been received. -/
theorem received_record_last (h : d.Fresh a)
    (hlast : a.index.val + 1 = a.message.frames.length) :
    d.received a.message ++ a.frame.payload = a.message.payload := by
  rw [← received_record h, received, record_progress_self h, hlast, List.take_length]
  exact a.message.isSplit.payloads

end Record

/-! ## The reassembler represents the abstract receiver -/

/-- The partial a message in flight is stored as. -/
def partialOf (d : Delivery) (m : SentMessage) : PartialMessage :=
  ⟨⟨m.messageId, FragmentIndex.ofNat (d.progress m.messageId), false⟩, d.received m,
    d.started m.messageId⟩

/-- What the reassembler stores for a message. -/
def expectedPartial (d : Delivery) (m : SentMessage) : Option PartialMessage :=
  if d.InFlight m then some (d.partialOf m) else none

/-- **The simulation relation**: the reassembler stores the expected partial of every
message, and nothing else. -/
structure Represents (msgs : List SentMessage) (d : Delivery) (r : Reassembler) : Prop where
  inv : r.Inv
  known : ∀ m ∈ msgs, r.buffers.lookup m.messageId = d.expectedPartial m
  unknown : ∀ id, (∀ m ∈ msgs, m.messageId ≠ id) → r.buffers.lookup id = none

section Represents

variable {msgs : List SentMessage} {d : Delivery} {r : Reassembler}

theorem expectedPartial_eq_some {m : SentMessage} {p : PartialMessage} :
    d.expectedPartial m = some p ↔ d.InFlight m ∧ d.partialOf m = p := by
  unfold expectedPartial
  by_cases h : d.InFlight m
  · simp [h]
  · simp [h]

theorem expectedPartial_congr {d' : Delivery} {m : SentMessage}
    (hprogress : d'.progress m.messageId = d.progress m.messageId)
    (hstarted : d'.started m.messageId = d.started m.messageId) :
    d'.expectedPartial m = d.expectedPartial m := by
  have hiff : d'.InFlight m ↔ d.InFlight m := by
    unfold InFlight
    rw [hprogress]
  by_cases h : d.InFlight m
  · rw [expectedPartial, expectedPartial, if_pos h, if_pos (hiff.mpr h), partialOf, partialOf,
      received, received, hprogress, hstarted]
  · rw [expectedPartial, expectedPartial, if_neg h, if_neg (mt hiff.mp h)]

/-- A stored partial is the expected one of a message in flight. -/
theorem Represents.lookup_iff (h : Represents msgs d r) (id : MessageId) (p : PartialMessage) :
    r.buffers.lookup id = some p ↔
      ∃ m ∈ d.inFlight msgs, m.messageId = id ∧ d.partialOf m = p := by
  constructor
  · intro hp
    by_cases hknown : ∃ m ∈ msgs, m.messageId = id
    · obtain ⟨m, hm, rfl⟩ := hknown
      rw [h.known m hm, expectedPartial_eq_some] at hp
      exact ⟨m, List.mem_filter.mpr ⟨hm, by simpa using hp.1⟩, rfl, hp.2⟩
    · push Not at hknown
      rw [h.unknown id hknown] at hp
      cases hp
  · rintro ⟨m, hm, rfl, hp⟩
    obtain ⟨hm, hflight⟩ := List.mem_filter.mp hm
    rw [h.known m hm, expectedPartial_eq_some]
    exact ⟨by simpa using hflight, hp⟩

/-- Up to order, the stored entries are the messages in flight. -/
theorem Represents.entries_perm (h : Represents msgs d r)
    (hids : (msgs.map SentMessage.messageId).Nodup) :
    r.buffers.entries.Perm ((d.inFlight msgs).map fun m => ⟨m.messageId, d.partialOf m⟩) := by
  apply AList.entries_perm_of_lookup
  · have hsub : ((d.inFlight msgs).map SentMessage.messageId).Nodup :=
      hids.sublist (List.Sublist.map _ List.filter_sublist)
    unfold List.NodupKeys List.keys
    rw [List.map_map]
    exact hsub
  · intro id p
    rw [h.lookup_iff, List.mem_map]
    simp only [Sigma.mk.injEq, heq_eq_eq]

theorem Represents.size_eq (h : Represents msgs d r)
    (hids : (msgs.map SentMessage.messageId).Nodup) :
    r.buffers.size = (d.inFlight msgs).length := by
  rw [AList.size, (h.entries_perm hids).length_eq, List.length_map]

theorem Represents.bytes_eq (h : Represents msgs d r)
    (hids : (msgs.map SentMessage.messageId).Nodup) :
    r.budget.bufferedBytes = d.heldBytes msgs := by
  have hexact : r.budget.bufferedBytes = (r.buffers.entries.map fun e => e.2.len).sum := h.inv.exact
  rw [hexact, ((h.entries_perm hids).map _).sum_eq, List.map_map]
  rfl

/-- A message in flight holds at least one byte. -/
theorem received_pos {m : SentMessage} (h : d.InFlight m) : 1 ≤ (d.received m).length := by
  obtain ⟨hpos, hlt⟩ := h
  have hnonempty := m.isSplit.nonempty (by omega)
  unfold received
  rcases hframes : m.frames with _ | ⟨f, rest⟩
  · rw [hframes] at hlt
    cases hlt
  · have hf : f.payload ≠ [] := hnonempty f (by rw [hframes]; exact List.mem_cons_self)
    obtain ⟨k, hk⟩ : ∃ k, d.progress m.messageId = k + 1 := ⟨_, (Nat.succ_pred hpos.ne').symm⟩
    have hlen : 0 < f.payload.length := List.length_pos_iff.mpr hf
    rw [hk, List.take_succ_cons]
    simp only [framePayloads, List.map_cons, List.flatten_cons, List.length_append]
    omega

theorem length_inFlight_le (d : Delivery) (msgs : List SentMessage) :
    (d.inFlight msgs).length ≤ d.heldBytes msgs := by
  have hle := List.length_le_sum_of_one_le ((d.inFlight msgs).map fun m => (d.received m).length)
    (by
      intro n hn
      obtain ⟨m, hm, rfl⟩ := List.mem_map.mp hn
      exact received_pos (by simpa using (List.mem_filter.mp hm).2))
  rw [List.length_map] at hle
  exact hle

/-- An update of the entry of the arriving message is all it takes to stay in step. -/
theorem Represents.record {a : Arrival} {r' : Reassembler} (h : Represents msgs d r)
    (hids : (msgs.map SentMessage.messageId).Nodup) (ha : a.message ∈ msgs) (hinv : r'.Inv)
    (hother : ∀ id, id ≠ a.message.messageId → r'.buffers.lookup id = r.buffers.lookup id)
    (hown : r'.buffers.lookup a.message.messageId = (d.record a).expectedPartial a.message) :
    Represents msgs (d.record a) r' where
  inv := hinv
  known := by
    intro m hm
    by_cases hid : m.messageId = a.message.messageId
    · rw [List.inj_on_of_nodup_map hids hm ha hid]
      exact hown
    · obtain ⟨hprogress, hstarted⟩ := record_other (d := d) hid
      rw [hother m.messageId hid, h.known m hm]
      exact (expectedPartial_congr hprogress hstarted).symm
  unknown := by
    intro id hid
    rw [hother id (hid a.message ha).symm]
    exact h.unknown id hid

variable {a : Arrival}

theorem Represents.not_expired (h : Represents msgs d r) {now : Instant}
    (htime : ∀ m ∈ d.inFlight msgs,
      saturatingDurationSince now (d.started m.messageId) < r.timeout) :
    ∀ id p, r.buffers.lookup id = some p → Reassembler.expired r.timeout now p = false := by
  intro id p hp
  obtain ⟨m, hm, -, rfl⟩ := (h.lookup_iff id p).mp hp
  rw [Reassembler.expired, decide_eq_false_iff_not]
  exact Nat.not_le.mpr (htime m hm)

/-- The entry of the arriving message, when it is in flight. -/
theorem Represents.lookup_inFlight (h : Represents msgs d r) (ha : a.message ∈ msgs)
    (hflight : d.InFlight a.message) :
    r.buffers.lookup a.frame.header.messageId = some (d.partialOf a.message) := by
  rw [a.header_eq]
  exact (h.known a.message ha).trans (if_pos hflight)

theorem Represents.lookup_none (h : Represents msgs d r) (ha : a.message ∈ msgs)
    (hflight : ¬ d.InFlight a.message) : r.buffers.lookup a.frame.header.messageId = none := by
  rw [a.header_eq]
  exact (h.known a.message ha).trans (if_neg hflight)

/-! ## One push stays in step -/

/-- A repeated fragment is ignored. -/
theorem push_repeat (h : Represents msgs d r) (ha : a.message ∈ msgs) (hrep : d.Repeat a)
    (htime : ∀ m ∈ d.inFlight msgs,
      saturatingDurationSince a.now (d.started m.messageId) < r.timeout) :
    a.push r = .ok (a.verdict, r) ∧ Represents msgs (d.record a) r := by
  obtain ⟨hlt, hopen⟩ := hrep
  have hfits := a.message.isSplit.index_fits
  have hlookup := h.lookup_inFlight ha ⟨by omega, hopen⟩
  have hsame : d.record a = d := record_of_not_fresh (by unfold Fresh; omega)
  rw [hsame]
  refine ⟨?_, h⟩
  have hdup : (d.partialOf a.message).series.accept a.frame.header =
      (.ok .duplicate, (d.partialOf a.message).series) := by
    rw [a.header_eq]
    apply FragmentSeries.accept_duplicate rfl
    show (FragmentIndex.ofNat _).toNat < (FragmentIndex.ofNat _).toNat
    rw [FragmentIndex.toNat_ofNat (by omega), FragmentIndex.toNat_ofNat (by omega)]
    exact hlt
  rw [Arrival.push, Reassembler.pushAt_duplicate h.inv.exact (h.not_expired htime) hlookup hdup,
    Arrival.verdict, if_neg (by omega)]

/-! ## One fresh arrival -/

section Fresh

variable (h : Represents msgs d r) (hids : (msgs.map SentMessage.messageId).Nodup)
  (ha : a.message ∈ msgs) (hfresh : d.Fresh a)
  (htime : ∀ m ∈ d.inFlight msgs, saturatingDurationSince a.now (d.started m.messageId) < r.timeout)

include hfresh in
/-- Its last fragment completes a message. -/
theorem not_inFlight_record (hlast : a.index.val + 1 = a.message.frames.length) :
    ¬ (d.record a).InFlight a.message := by
  rintro ⟨-, hlt⟩
  rw [record_progress_self hfresh] at hlt
  omega

include h hids ha hfresh htime

/-- A message of one fragment is returned at once and never stored. -/
theorem push_single (hzero : a.index.val = 0)
    (hlast : a.index.val + 1 = a.message.frames.length)
    (hsize : a.message.payload.length ≤ r.budget.maxMessageSize.get) :
    a.push r = .ok (a.verdict, r) ∧ Represents msgs (d.record a) r := by
  have hprogress : d.progress a.message.messageId = 0 := hfresh.symm.trans hzero
  have hnot : ¬ d.InFlight a.message := fun hf => by
    have := hf.1
    omega
  have hlookup := h.lookup_none ha hnot
  have hheader := a.header_eq
  have hflag : a.frame.header.isLastFragment = true := by
    rw [hheader]
    exact decide_eq_true hlast
  have hpayload : a.frame.payload = a.message.payload := by
    rw [← received_record_last hfresh hlast, received, hprogress]
    simp
  -- the caps on partials and bytes are not checked for a fragment that is also the last
  have hadmits : r.AdmitsFirst a.frame.header a.frame.payload := by
    refine ⟨?_, by rw [hpayload]; exact hsize, fun hf => absurd (hf.symm.trans hflag) (by decide)⟩
    rw [hheader, hzero]
    rfl
  constructor
  · rw [Arrival.push, Reassembler.pushAt_first_last h.inv.exact (h.not_expired htime) hlookup hflag
      hadmits, Arrival.verdict, if_pos hlast, hpayload, hheader]
  · refine h.record hids ha h.inv (fun _ _ => rfl) ?_
    rw [h.known a.message ha, expectedPartial, expectedPartial, if_neg hnot,
      if_neg (not_inFlight_record hfresh hlast)]

/-- The first of several fragments is stored. -/
theorem push_first (hzero : a.index.val = 0)
    (hmore : a.index.val + 1 < a.message.frames.length)
    (hsize : a.message.payload.length ≤ r.budget.maxMessageSize.get)
    (hcaps : FitsCaps r.budget.maxConcurrentPartials r.budget.maxBufferedBytes msgs d a) :
    ∃ r', a.push r = .ok (a.verdict, r') ∧ Represents msgs (d.record a) r' := by
  have hprogress : d.progress a.message.messageId = 0 := hfresh.symm.trans hzero
  have hnot : ¬ d.InFlight a.message := fun hf => by
    have := hf.1
    omega
  have hheader := a.header_eq
  have hflag : a.frame.header.isLastFragment = false := by
    rw [hheader]
    exact decide_eq_false (by omega)
  obtain ⟨hbytes, hpartials⟩ := hcaps hfresh (by omega)
  rw [← h.bytes_eq hids] at hbytes
  have hadmits : r.AdmitsFirst a.frame.header a.frame.payload := by
    refine ⟨by rw [hheader, hzero]; rfl, ?_, fun _ => ⟨?_, hbytes⟩⟩
    · have := received_append_le hfresh
      omega
    · intro limit hlimit
      rw [h.size_eq hids]
      exact hpartials hzero limit hlimit
  -- every partial holds a byte and the new one brings one more, so the count fits a word
  have hroom : r.buffers.size + 1 ≤ usizeMax := by
    have hheld := length_inFlight_le d msgs
    have hone : 1 ≤ a.frame.payload.length :=
      List.length_pos_iff.mpr (a.message.isSplit.nonempty (by omega) _ (List.get_mem _ _))
    have hcap := (r.budget.maxBufferedBytes.getD NonZeroUsize.max).le_max
    rw [← h.bytes_eq hids] at hheld
    rw [h.size_eq hids]
    omega
  have hpush := Reassembler.pushAt_first_stored h.inv.exact (h.not_expired htime)
    (h.lookup_none ha hnot) hflag hadmits hroom
  refine ⟨_, ?_, h.record hids ha (Reassembler.pushAt_inv h.inv hpush).1 ?_ ?_⟩
  · rw [Arrival.push, hpush, Arrival.verdict, if_neg (by omega)]
  · intro id hid
    rw [Reassembler.storePartial, AList.lookup_insert_eq, if_neg (by rw [hheader]; exact hid)]
  · have hflight : (d.record a).InFlight a.message := by
      rw [InFlight, record_progress_self hfresh]
      omega
    have hreceived : (d.record a).received a.message = a.frame.payload := by
      rw [received_record hfresh, received, hprogress]
      simp
    rw [Reassembler.storePartial, hheader, AList.lookup_insert_eq, if_pos rfl, expectedPartial,
      if_pos hflight, partialOf, record_progress_self hfresh, hreceived,
      record_started_first hfresh hzero, hzero]

/-- The next fragment of a stored message is appended. -/
theorem push_middle (hpos : a.index.val ≠ 0)
    (hmore : a.index.val + 1 < a.message.frames.length)
    (hadmits : r.AdmitsNext (d.partialOf a.message) a.frame.payload) :
    ∃ r', a.push r = .ok (a.verdict, r') ∧ Represents msgs (d.record a) r' := by
  have hprogress : d.progress a.message.messageId = a.index.val := hfresh.symm
  have hheader := a.header_eq
  have hfits := a.message.isSplit.index_fits
  have hlookup := h.lookup_inFlight ha (a := a) ⟨by omega, by omega⟩
  have haccept : (d.partialOf a.message).series.accept a.frame.header =
      (.ok .incomplete, ⟨a.message.messageId, FragmentIndex.ofNat (a.index + 1), false⟩) := by
    rw [hheader]
    refine FragmentSeries.accept_next rfl ?_ rfl (decide_eq_false (by omega)) ?_ (by omega)
    · rw [partialOf, hprogress]
    · rw [partialOf, hprogress]
  have hpush := Reassembler.pushAt_incomplete h.inv.exact (h.not_expired htime) hlookup haccept
    hadmits
  refine ⟨_, ?_, h.record hids ha (Reassembler.pushAt_inv h.inv hpush).1 ?_ ?_⟩
  · rw [Arrival.push, hpush, Arrival.verdict, if_neg (by omega)]
  · intro id hid
    rw [Reassembler.extendPartial, AList.lookup_replace_eq _ _ _ _ _ hlookup,
      if_neg (by rw [hheader]; exact hid)]
  · have hflight : (d.record a).InFlight a.message := by
      rw [InFlight, record_progress_self hfresh]
      omega
    rw [Reassembler.extendPartial, AList.lookup_replace_eq _ _ _ _ _ hlookup,
      if_pos (by rw [hheader]), expectedPartial, if_pos hflight, partialOf, partialOf,
      record_progress_self hfresh, received_record hfresh, record_started_next hfresh hpos]

/-- The last fragment of a stored message returns it and frees its entry. -/
theorem push_last (hpos : a.index.val ≠ 0)
    (hlast : a.index.val + 1 = a.message.frames.length)
    (hadmits : r.AdmitsNext (d.partialOf a.message) a.frame.payload) :
    ∃ r', a.push r = .ok (a.verdict, r') ∧ Represents msgs (d.record a) r' := by
  have hprogress : d.progress a.message.messageId = a.index.val := hfresh.symm
  have hheader := a.header_eq
  have hlookup := h.lookup_inFlight ha (a := a) ⟨by omega, by omega⟩
  obtain ⟨series, haccept⟩ : ∃ series, (d.partialOf a.message).series.accept a.frame.header =
      (.ok .complete, series) := by
    rw [hheader]
    refine FragmentSeries.accept_last rfl ?_ rfl (decide_eq_true hlast)
    rw [partialOf, hprogress]
  have hpush := Reassembler.pushAt_complete h.inv.exact (h.not_expired htime) hlookup haccept
    hadmits
  refine ⟨_, ?_, h.record hids ha (Reassembler.pushAt_inv h.inv hpush).1 ?_ ?_⟩
  · have hbuffer : (d.partialOf a.message).buffer ++ a.frame.payload = a.message.payload :=
      received_record_last hfresh hlast
    rw [Arrival.push, hpush, Arrival.verdict, if_pos hlast, hbuffer, hheader]
  · intro id hid
    rw [Reassembler.dropPartial, AList.lookup_erase_eq, if_neg (by rw [hheader]; exact hid)]
  · rw [Reassembler.dropPartial, AList.lookup_erase_eq, if_pos (by rw [hheader]), expectedPartial,
      if_neg (not_inFlight_record hfresh hlast)]

end Fresh

/-- **Step lemma**: an admissible arrival gets its verdict, and the reassembler keeps
representing the abstract receiver. -/
theorem pushAt_represents (h : Represents msgs d r)
    (hids : (msgs.map SentMessage.messageId).Nodup) (ha : a.message ∈ msgs)
    (horder : d.Fresh a ∨ d.Repeat a)
    (hsize : a.message.payload.length ≤ r.budget.maxMessageSize.get)
    (hcaps : FitsCaps r.budget.maxConcurrentPartials r.budget.maxBufferedBytes msgs d a)
    (htime : ∀ m ∈ d.inFlight msgs,
      saturatingDurationSince a.now (d.started m.messageId) < r.timeout) :
    ∃ r', a.push r = .ok (a.verdict, r') ∧ Represents msgs (d.record a) r' := by
  rcases horder with hfresh | hrep
  swap
  · exact ⟨r, push_repeat h ha hrep htime⟩
  have hlt := a.index.isLt
  by_cases hzero : a.index.val = 0
  · by_cases hlast : a.index.val + 1 = a.message.frames.length
    · exact ⟨r, push_single h hids ha hfresh htime hzero hlast hsize⟩
    · exact push_first h hids ha hfresh htime hzero (by omega) hsize hcaps
  · have hadmits : r.AdmitsNext (d.partialOf a.message) a.frame.payload := by
      constructor
      · exact le_trans (received_append_le hfresh) hsize
      · have hbytes := (hcaps hfresh (by omega)).1
        rw [← h.bytes_eq hids] at hbytes
        exact hbytes
    by_cases hlast : a.index.val + 1 = a.message.frames.length
    · exact push_last h hids ha hfresh htime hzero hlast hadmits
    · exact push_middle h hids ha hfresh htime hzero (by omega) hadmits

end Represents

/-! ## Whole runs -/

section Runs

variable (maxMessageSize : NonZeroUsize) (timeout : ℕ)
  (maxConcurrentPartials maxBufferedBytes : Option NonZeroUsize) {msgs : List SentMessage}

theorem represents_start :
    Represents msgs start
      (Reassembler.new maxMessageSize timeout maxConcurrentPartials maxBufferedBytes) where
  inv := Reassembler.inv_new maxMessageSize timeout maxConcurrentPartials maxBufferedBytes
  known := fun _ _ => (if_neg fun hf => absurd hf.1 (lt_irrefl _)).symm
  unknown := fun _ _ => rfl

/-- When every message has arrived completely, nothing is left. -/
theorem Represents.empty_of_done {d : Delivery} {r : Reassembler} (h : Represents msgs d r)
    (hdone : ∀ m ∈ msgs, d.progress m.messageId = m.frames.length) :
    r.bufferedLen = 0 ∧ r.bufferedBytes = 0 := by
  have hempty : r.buffers = ∅ := by
    apply AList.eq_empty_of_lookup_none
    intro id
    by_cases hknown : ∃ m ∈ msgs, m.messageId = id
    · obtain ⟨m, hm, rfl⟩ := hknown
      rw [h.known m hm]
      refine if_neg fun hf => ?_
      have := hf.2
      rw [hdone m hm] at this
      exact lt_irrefl _ this
    · push Not at hknown
      exact h.unknown id hknown
  have hexact : r.budget.bufferedBytes = r.buffers.sumBy fun _ p => p.len := h.inv.exact
  constructor
  · rw [Reassembler.bufferedLen, hempty, AList.size_empty]
  · rw [Reassembler.bufferedBytes, hexact, hempty, AList.sumBy_empty]

/-- **Run lemma**: from any represented state, an admissible run gives every arrival its
verdict and ends empty. -/
theorem run_represents (hids : (msgs.map SentMessage.messageId).Nodup)
    (hsize : ∀ m ∈ msgs, m.payload.length ≤ maxMessageSize.get)
    (arrivals : List Arrival) (d : Delivery) (r : Reassembler) (h : Represents msgs d r)
    (hset : r.settings = (maxMessageSize, timeout, maxConcurrentPartials, maxBufferedBytes))
    (horder : Interleaves msgs d arrivals)
    (hcaps : WithinCaps maxConcurrentPartials maxBufferedBytes msgs d arrivals)
    (htime : OnTime timeout msgs d arrivals) :
    ∃ r', Trace.run Arrival.push r arrivals = .ok (arrivals.map Arrival.verdict, r') ∧
      r'.bufferedLen = 0 ∧ r'.bufferedBytes = 0 := by
  induction arrivals generalizing d r with
  | nil => exact ⟨r, rfl, h.empty_of_done horder⟩
  | cons a rest ih =>
    obtain ⟨ha, hnext, horder⟩ := horder
    obtain ⟨hfits, hcaps⟩ := hcaps
    obtain ⟨hnow, htime⟩ := htime
    obtain ⟨hmsg, htimeout, hpart, hbuf⟩ : r.budget.maxMessageSize = maxMessageSize ∧
        r.timeout = timeout ∧ r.budget.maxConcurrentPartials = maxConcurrentPartials ∧
        r.budget.maxBufferedBytes = maxBufferedBytes := by
      simpa [Reassembler.settings] using hset
    obtain ⟨r₁, hpush, h₁⟩ := pushAt_represents h hids ha hnext
      (by rw [hmsg]; exact hsize a.message ha) (by rw [hpart, hbuf]; exact hfits)
      (by rw [htimeout]; exact hnow)
    have hset₁ := (Reassembler.pushAt_inv h.inv hpush).2
    obtain ⟨r', hrun, hend⟩ := ih (d.record a) r₁ h₁ (hset₁.trans hset) horder hcaps htime
    refine ⟨r', ?_, hend⟩
    rw [Trace.run_cons_of_ok hpush, hrun]
    rfl

/-- While a message is in flight, one of its own fragments is still to come; so with a
clock that never goes back, its time-out lies after every reading before that. -/
theorem inFlight_on_time {d : Delivery} {m : SentMessage} {now : Instant}
    (hids : (msgs.map SentMessage.messageId).Nodup) (hm : m ∈ msgs) (hflight : d.InFlight m)
    (arrivals : List Arrival) (horder : Interleaves msgs d arrivals)
    (hown : OwnOnTime timeout d arrivals) (hlater : ∀ a ∈ arrivals, now ≤ a.now) :
    saturatingDurationSince now (d.started m.messageId) < timeout := by
  induction arrivals generalizing d with
  | nil =>
    have := hflight.2
    rw [horder m hm] at this
    exact absurd this (lt_irrefl _)
  | cons a rest ih =>
    obtain ⟨ha, hnext, horder⟩ := horder
    obtain ⟨hnow, hown⟩ := hown
    by_cases hid : m.messageId = a.message.messageId
    · obtain rfl := List.inj_on_of_nodup_map hids hm ha hid
      have hle : saturatingDurationSince now (d.started a.message.messageId) ≤
          saturatingDurationSince a.now (d.started a.message.messageId) :=
        Nat.sub_le_sub_right (hlater a List.mem_cons_self) _
      exact lt_of_le_of_lt hle (hnow hflight)
    · obtain ⟨hprogress, hstarted⟩ := record_other (d := d) hid
      rw [← hstarted]
      refine ih ?_ horder hown fun b hb => hlater b (List.mem_cons_of_mem _ hb)
      rw [InFlight, hprogress]
      exact hflight

/-- With a clock that never goes back it is enough that each push precedes the time-out of
its own message. -/
theorem onTime_of_ownOnTime {d : Delivery} (hids : (msgs.map SentMessage.messageId).Nodup)
    (arrivals : List Arrival) (horder : Interleaves msgs d arrivals)
    (hclock : (arrivals.map Arrival.now).Pairwise (· ≤ ·)) (hown : OwnOnTime timeout d arrivals) :
    OnTime timeout msgs d arrivals := by
  induction arrivals generalizing d with
  | nil => trivial
  | cons a rest ih =>
    rw [List.map_cons, List.pairwise_cons] at hclock
    refine ⟨?_, ih horder.2.2 hclock.2 hown.2⟩
    intro m hm
    obtain ⟨hm, hflight⟩ := List.mem_filter.mp hm
    refine inFlight_on_time timeout hids hm (by simpa using hflight) (a :: rest) horder hown ?_
    intro b hb
    rcases List.mem_cons.mp hb with rfl | hb
    · exact le_rfl
    · exact hclock.1 b.now (List.mem_map_of_mem hb)

/-- **Interleaved delivery**: whatever the interleaving of the fragments of messages with
distinct ids and whatever repeats it contains, as long as no limit and no time-out is hit,
each push of a last fragment returns exactly its message, every other push returns
nothing, and in the end nothing is buffered. -/
theorem interleaved_delivery (msgs : List SentMessage)
    (hids : (msgs.map SentMessage.messageId).Nodup)
    (hsize : ∀ m ∈ msgs, m.payload.length ≤ maxMessageSize.get)
    (arrivals : List Arrival) (horder : Interleaves msgs start arrivals)
    (hcaps : WithinCaps maxConcurrentPartials maxBufferedBytes msgs start arrivals)
    (htime : OnTime timeout msgs start arrivals ∨
      ((arrivals.map Arrival.now).Pairwise (· ≤ ·) ∧ OwnOnTime timeout start arrivals)) :
    ∃ r, Trace.run Arrival.push
        (Reassembler.new maxMessageSize timeout maxConcurrentPartials maxBufferedBytes) arrivals =
          .ok (arrivals.map Arrival.verdict, r) ∧
      r.bufferedLen = 0 ∧ r.bufferedBytes = 0 := by
  have hnow : OnTime timeout msgs start arrivals := by
    rcases htime with h | ⟨hclock, hown⟩
    · exact h
    · exact onTime_of_ownOnTime timeout hids arrivals horder hclock hown
  exact run_represents maxMessageSize timeout maxConcurrentPartials maxBufferedBytes hids hsize
    arrivals start _ (represents_start maxMessageSize timeout maxConcurrentPartials
      maxBufferedBytes) rfl horder hcaps hnow

end Runs

/-- A message of three bytes in two fragments. -/
def pairMessage : SentMessage where
  fragmenter := Fragmenter.new ⟨2, by decide, by decide⟩
  messageId := ⟨1⟩
  payload := [10, 20, 30]
  batch := ⟨⟨1⟩, [⟨⟨⟨1⟩, FragmentIndex.zero, false⟩, [10, 20]⟩, ⟨⟨⟨1⟩, ⟨1⟩, true⟩, [30]⟩]⟩
  split := by
    rw [Fragmenter.fragmentWithId_eq _ _ (by decide)]
    rfl

/-- A message of one byte, in one fragment. -/
def singleMessage : SentMessage where
  fragmenter := Fragmenter.new ⟨2, by decide, by decide⟩
  messageId := ⟨2⟩
  payload := [7]
  batch := ⟨⟨2⟩, [⟨⟨⟨2⟩, FragmentIndex.zero, true⟩, [7]⟩]⟩
  split := Fragmenter.fragmentWithId_single _ _ (by decide) (by decide) (by decide)

/-- The long message's first fragment, the short message, a repeat, the last fragment. -/
def sampleArrivals : List Arrival :=
  [⟨pairMessage, ⟨0, by decide⟩, 0⟩, ⟨singleMessage, ⟨0, by decide⟩, 1⟩,
    ⟨pairMessage, ⟨0, by decide⟩, 1⟩, ⟨pairMessage, ⟨1, by decide⟩, 2⟩]

theorem interleaved_delivery_sample :
    ∃ r, Trace.run Arrival.push
        (Reassembler.new ⟨8, by decide, by decide⟩ 5 (some ⟨1, by decide, by decide⟩)
          (some ⟨3, by decide, by decide⟩)) sampleArrivals =
        .ok ([.ok none, .ok (some ⟨⟨2⟩, [7]⟩), .ok none, .ok (some ⟨⟨1⟩, [10, 20, 30]⟩)], r) ∧
      r.bufferedLen = 0 ∧ r.bufferedBytes = 0 :=
  interleaved_delivery ⟨8, by decide, by decide⟩ 5 (some ⟨1, by decide, by decide⟩)
    (some ⟨3, by decide, by decide⟩) [pairMessage, singleMessage] (by decide) (by decide)
    sampleArrivals
    ⟨by simp, Or.inl rfl, by simp, Or.inl rfl, by simp, Or.inr (by decide), by simp, Or.inl rfl,
      by unfold Interleaves; decide⟩
    ⟨fun _ _ => ⟨by decide, fun _ limit h => by cases h; decide⟩,
      fun _ h => absurd h (by decide), fun h => absurd h (by decide),
      fun _ _ => ⟨by decide, fun h => absurd h (by decide)⟩, trivial⟩
    (Or.inr ⟨by decide, by decide, by decide, by decide, by decide, trivial⟩)

/-! ## One message in order -/

/-- The fragments of `m` from number `k` on, in order, at the given readings. -/
def arrivalsFrom (m : SentMessage) : (k : ℕ) → (readings : List Instant) →
    k + readings.length = m.frames.length → List Arrival
  | _, [], _ => []
  | k, now :: rest, h =>
    ⟨m, ⟨k, by rw [List.length_cons] at h; omega⟩, now⟩ ::
      arrivalsFrom m (k + 1) rest (by rw [List.length_cons] at h; omega)

section InOrder

variable {m : SentMessage} {d : Delivery} {k : ℕ} {readings : List Instant}
  (h : k + readings.length = m.frames.length)

theorem interleaves_arrivalsFrom (hk : d.progress m.messageId = k) :
    Interleaves [m] d (arrivalsFrom m k readings h) := by
  induction readings generalizing d k with
  | nil =>
    intro m' hm'
    rw [List.mem_singleton.mp hm', hk]
    simpa using h
  | cons now rest ih =>
    have hfresh : d.Fresh ⟨m, ⟨k, by rw [List.length_cons] at h; omega⟩, now⟩ := hk.symm
    exact ⟨List.mem_singleton.mpr rfl, Or.inl hfresh, ih _ (record_progress_self hfresh)⟩

theorem heldBytes_singleton_le (d : Delivery) (m : SentMessage) :
    d.heldBytes [m] ≤ (d.received m).length := by
  unfold heldBytes inFlight
  by_cases hflight : d.InFlight m
  · simp [hflight]
  · simp [hflight]

/-- Alone on the connection, a message only needs room for its own bytes. -/
theorem withinCaps_arrivalsFrom {maxConcurrentPartials maxBufferedBytes : Option NonZeroUsize}
    (hk : d.progress m.messageId = k)
    (hbytes : m.payload.length ≤ (maxBufferedBytes.getD NonZeroUsize.max).get) :
    WithinCaps maxConcurrentPartials maxBufferedBytes [m] d (arrivalsFrom m k readings h) := by
  induction readings generalizing d k with
  | nil => trivial
  | cons now rest ih =>
    have hfresh : d.Fresh ⟨m, ⟨k, by rw [List.length_cons] at h; omega⟩, now⟩ := hk.symm
    refine ⟨fun _ _ => ⟨?_, ?_⟩, ih _ (record_progress_self hfresh)⟩
    · have hheld := heldBytes_singleton_le d m
      have hreceived := received_append_le hfresh
      simp only at hreceived ⊢
      omega
    · intro hzero limit _
      have hnot : ¬ d.InFlight m := fun hf => by
        have := hf.1
        simp only at hzero
        omega
      have hnone : d.inFlight [m] = [] := by simp [inFlight, hnot]
      rw [hnone]
      exact limit.pos

theorem onTime_arrivalsFrom {timeout : ℕ} (hk : d.progress m.messageId = k) (hpos : 0 < k)
    (htime : ∀ now ∈ readings, saturatingDurationSince now (d.started m.messageId) < timeout) :
    OnTime timeout [m] d (arrivalsFrom m k readings h) := by
  induction readings generalizing d k with
  | nil => trivial
  | cons now rest ih =>
    have hfresh : d.Fresh ⟨m, ⟨k, by rw [List.length_cons] at h; omega⟩, now⟩ := hk.symm
    refine ⟨?_, ih _ (record_progress_self hfresh) (Nat.succ_pos k) ?_⟩
    · intro m' hm'
      rw [List.mem_singleton.mp (List.mem_filter.mp hm').1]
      exact htime now List.mem_cons_self
    · intro later hlater
      have hstarted := record_started_next hfresh (Nat.pos_iff_ne_zero.mp hpos)
      rw [hstarted]
      exact htime later (List.mem_cons_of_mem _ hlater)

/-- Only the last arrival of the message returns anything. -/
theorem verdicts_arrivalsFrom (hne : readings ≠ []) :
    (arrivalsFrom m k readings h).map Arrival.verdict =
      List.replicate (readings.length - 1) (.ok none) ++ [.ok (some ⟨m.messageId, m.payload⟩)] := by
  induction readings generalizing k with
  | nil => exact absurd rfl hne
  | cons now rest ih =>
    rw [arrivalsFrom, List.map_cons]
    rcases rest with _ | ⟨next, rest⟩
    · have hlast : k + 1 = m.frames.length := by simpa using h
      rw [Arrival.verdict, if_pos hlast]
      rfl
    · have hmore : k + 1 ≠ m.frames.length := by
        simp only [List.length_cons] at h
        omega
      rw [Arrival.verdict, if_neg hmore, ih _ (by simp)]
      simp only [List.length_cons, Nat.add_sub_cancel, List.replicate_succ, List.cons_append]

end InOrder

end Delivery

end Wireframe
