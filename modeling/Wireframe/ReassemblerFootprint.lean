/-
# What a push leaves behind

A push can fail in many places: the series may refuse the fragment, and the limits on the message,
on the number of partials and on the buffered bytes are checked at different points, some of them
after the series has moved on.  `push_footprint` says what all of these have in common, over every
run: compared with the state after the expiry purge, only the fragment's own message is touched,
an error leaves nothing of it and gives back exactly its bytes, and a repeated fragment changes
nothing.

Which indices were accepted for a stored message is recorded next to the reassembler
(`ReassemblyRun.accepted`), from the replies alone; `tracks_of_exec` shows that a series knows them.
-/
import Mathlib.Tactic
import Wireframe.ReassemblerInv

namespace Wireframe

/-! ## Runs that remember what was accepted -/

/-- A reassembler, and for every message stored in it the indices of its accepted fragments. -/
structure ReassemblyRun where
  state : Reassembler
  accepted : MessageId → List FragmentIndex

namespace ReassemblyRun

open Reassembler

/-- A fresh reassembler, before the first call. -/
def start (maxMessageSize : NonZeroUsize) (timeout : ℕ)
    (maxConcurrentPartials maxBufferedBytes : Option NonZeroUsize) : ReassemblyRun :=
  ⟨.new maxMessageSize timeout maxConcurrentPartials maxBufferedBytes, fun _ => []⟩

/-- What is remembered after the purge: an evicted message is forgotten. -/
def remembered (r : ReassemblyRun) (now : Instant) (id : MessageId) : List FragmentIndex :=
  if ((r.state.purged now).buffers.lookup id).isSome then r.accepted id else []

/-- What is remembered of a message after a push for it: an answer without a message adds the
index, and a message that was returned or failed is forgotten. -/
def afterPush (accepted : List FragmentIndex) (index : FragmentIndex) :
    PushResult → List FragmentIndex
  | .ok none => accepted ++ [index]
  | _ => []

/-- What is remembered after a call. -/
def note (r : ReassemblyRun) : Call → Reply → MessageId → List FragmentIndex
  | .push header _ now, .pushed result, id =>
    if id = header.messageId then afterPush (r.remembered now id) header.fragmentIndex result
    else r.remembered now id
  | .push _ _ now, .evicted _, id => r.remembered now id
  | .purge now, _, id => r.remembered now id

/-- One call; a run ends at a call that panics. -/
def step (r : ReassemblyRun) (c : Call) : Option ReassemblyRun :=
  match r.state.call c with
  | .ok (reply, state) => some ⟨state, r.note c reply⟩
  | .error _ => none

/-- The remembered indices are those the stored series has passed. -/
def Knows (accepted : List FragmentIndex) : Option PartialMessage → Prop
  | none => accepted = []
  | some p => ∀ i, i ∈ accepted ↔ i.toNat < p.series.nextIndex.toNat

/-! ### What is remembered -/

/-- The accounting invariant, and the series know what was accepted. -/
structure Tracks (r : ReassemblyRun) : Prop where
  inv : r.state.Inv
  knows : ∀ id, Knows (r.accepted id) (r.state.buffers.lookup id)

variable {r r' : ReassemblyRun} {now : Instant}

theorem tracks_start (maxMessageSize : NonZeroUsize) (timeout : ℕ)
    (maxConcurrentPartials maxBufferedBytes : Option NonZeroUsize) :
    (start maxMessageSize timeout maxConcurrentPartials maxBufferedBytes).Tracks where
  inv := inv_new _ _ _ _
  knows := fun _ => rfl

/-- The purge forgets a message exactly when it evicts it. -/
theorem Tracks.purged (h : r.Tracks) (now : Instant) (id : MessageId) :
    Knows (r.remembered now id) ((r.state.purged now).buffers.lookup id) := by
  rcases hlookup : (r.state.purged now).buffers.lookup id with _ | p
  · rw [remembered, hlookup]
    rfl
  · have hstored : r.state.buffers.lookup id = some p := by
      rw [Reassembler.purged, AList.lookup_retain] at hlookup
      exact (Option.filter_eq_some_iff.mp hlookup).1
    have hknows := h.knows id
    rw [hstored] at hknows
    rw [remembered, hlookup]
    exact hknows

/-- One more index, the one the series expected. -/
theorem Knows.concat {accepted : List FragmentIndex} {p p' : PartialMessage} {index : FragmentIndex}
    (h : Knows accepted (some p)) (hindex : index = p.series.nextIndex)
    (hnext : p'.series.nextIndex.toNat = p.series.nextIndex.toNat + 1) :
    Knows (accepted ++ [index]) (some p') := by
  intro i
  rw [List.mem_append, List.mem_singleton, h i, hnext, hindex]
  constructor
  · rintro (hlt | rfl)
    · omega
    · omega
  · intro hlt
    by_cases heq : i.toNat = p.series.nextIndex.toNat
    · exact Or.inr (FragmentIndex.ext_toNat heq)
    · exact Or.inl (by omega)

/-- A repeated index adds nothing. -/
theorem Knows.repeated {accepted : List FragmentIndex} {p : PartialMessage} {index : FragmentIndex}
    (h : Knows accepted (some p)) (hindex : index.toNat < p.series.nextIndex.toNat) :
    Knows (accepted ++ [index]) (some p) := by
  intro i
  rw [List.mem_append, List.mem_singleton, h i]
  constructor
  · rintro (hlt | rfl)
    · exact hlt
    · exact hindex
  · exact Or.inl

end ReassemblyRun

/-! ## The footprint of a push -/

namespace Reassembler

/-- The bytes buffered for a message. -/
def ownBytes (r : Reassembler) (id : MessageId) : ℕ :=
  match r.buffers.lookup id with
  | none => 0
  | some p => p.len

/-- A push compared with the state `t` after its purge, when `accepted` lists the indices accepted
for the fragment's message. -/
structure Footprint (accepted : List FragmentIndex) (t : Reassembler) (header : FragmentHeader)
    (result : PushResult) (t' : Reassembler) : Prop where
  others : ∀ id, id ≠ header.messageId → t'.buffers.lookup id = t.buffers.lookup id
  settings : t'.settings = t.settings
  bytes : t'.bufferedBytes + t.ownBytes header.messageId =
    t.bufferedBytes + t'.ownBytes header.messageId
  failed : ∀ err, result = .error err → t'.buffers.lookup header.messageId = none ∧
    t'.bufferedBytes + t.ownBytes header.messageId = t.bufferedBytes ∧
    (t.buffers.lookup header.messageId = none → t' = t)
  repeated : (t.buffers.lookup header.messageId).isSome = true → header.fragmentIndex ∈ accepted →
    result = .ok none ∧ t' = t

variable {t t' : Reassembler} {header : FragmentHeader} {payload : List Byte} {now : Instant}
  {result : PushResult}

theorem dropPartial_own {id : MessageId} {p : PartialMessage} :
    (t.dropPartial id p).buffers.lookup id = none := by
  rw [dropPartial, AList.lookup_erase_eq, if_pos rfl]

theorem storePartial_own {id : MessageId} {p : PartialMessage} :
    (t.storePartial id p).buffers.lookup id = some p := by
  rw [storePartial, AList.lookup_insert_eq, if_pos rfl]

theorem extendPartial_own {id : MessageId} {p : PartialMessage} {series : FragmentSeries}
    (hown : t.buffers.lookup id = some p) :
    (t.extendPartial id p series payload).buffers.lookup id =
      some { p with series := series, buffer := p.buffer ++ payload } := by
  rw [extendPartial, AList.lookup_replace_eq _ _ _ _ _ hown, if_pos rfl]

theorem ownBytes_of_none {id : MessageId} (h : t.buffers.lookup id = none) : t.ownBytes id = 0 := by
  rw [ownBytes, h]

theorem ownBytes_of_some {id : MessageId} {p : PartialMessage} (h : t.buffers.lookup id = some p) :
    t.ownBytes id = p.len := by
  rw [ownBytes, h]

/-! ### Outcomes -/

/-- Only the fragment's own message is touched. -/
theorem PushOutcome.lookup_other (h : PushOutcome t header payload now result t') {id : MessageId}
    (hid : id ≠ header.messageId) : t'.buffers.lookup id = t.buffers.lookup id := by
  cases h with
  | rejectedNew _ _ _ | repeated _ _ _ | completedFirst _ _ _ => rfl
  | rejectedOwn _ p _ _ | completed p _ _ _ _ =>
    rw [dropPartial, AList.lookup_erase_eq, if_neg hid]
  | stored series _ _ _ _ => rw [storePartial, AList.lookup_insert_eq, if_neg hid]
  | appended p series hown _ _ =>
    rw [extendPartial, AList.lookup_replace_eq _ _ _ _ _ hown, if_neg hid]

/-- The counter moves by what the fragment's own message gains or loses. -/
theorem PushOutcome.bytes (h : PushOutcome t header payload now result t') (hexact : t.Exact) :
    t'.bufferedBytes + t.ownBytes header.messageId =
      t.bufferedBytes + t'.ownBytes header.messageId := by
  cases h with
  | rejectedNew _ _ _ | repeated _ _ _ | completedFirst _ _ _ => rfl
  | rejectedOwn _ p hown _ | completed p _ hown _ _ =>
    have hle : p.len ≤ t.bufferedBytes := len_le_bufferedBytes hexact hown
    rw [ownBytes_of_some hown, ownBytes_of_none dropPartial_own]
    show t.bufferedBytes - p.len + p.len = t.bufferedBytes + 0
    omega
  | stored series hnew _ _ _ =>
    rw [ownBytes_of_none hnew, ownBytes_of_some storePartial_own]
    rfl
  | appended p series hown _ _ =>
    rw [ownBytes_of_some hown, ownBytes_of_some (extendPartial_own hown)]
    show t.bufferedBytes + payload.length + p.buffer.length =
      t.bufferedBytes + (p.buffer ++ payload).length
    rw [List.length_append]
    omega

/-- An error leaves nothing of the fragment's message. -/
theorem PushOutcome.failed {err : ReassemblyError}
    (h : PushOutcome t header payload now (.error err) t') :
    t'.buffers.lookup header.messageId = none ∧
      (t.buffers.lookup header.messageId = none → t' = t) := by
  cases h with
  | rejectedNew _ hnew _ => exact ⟨hnew, fun _ => rfl⟩
  | rejectedOwn _ p hown _ =>
    refine ⟨dropPartial_own, fun hnone => ?_⟩
    rw [hown] at hnone
    cases hnone

/-- A fragment below the next index of its stored series changes nothing. -/
theorem PushOutcome.repeats (h : PushOutcome t header payload now result t') {p : PartialMessage}
    (hown : t.buffers.lookup header.messageId = some p)
    (hid : header.messageId = p.series.messageId)
    (hindex : header.fragmentIndex.toNat < p.series.nextIndex.toNat) :
    result = .ok none ∧ t' = t := by
  have haccept := FragmentSeries.accept_duplicate hid hindex
  have hsame : ∀ {q : PartialMessage}, t.buffers.lookup header.messageId = some q → q = p :=
    fun hq => Option.some.inj (hq.symm.trans hown)
  cases h with
  | repeated _ _ _ => exact ⟨rfl, rfl⟩
  | rejectedNew _ hnew _ | completedFirst hnew _ _ | stored _ hnew _ _ _ =>
    exact absurd (hnew.symm.trans hown) (by simp)
  | rejectedOwn _ q hq hwhy =>
    rw [hsame hq, haccept] at hwhy
    exact absurd rfl (hwhy _ rfl).1
  | appended q series hq haccept' _ | completed q series hq haccept' _ =>
    rw [hsame hq, haccept] at haccept'
    exact absurd haccept' (by simp)

end Reassembler

namespace ReassemblyRun

/-! ## Whole runs -/

open Reassembler

variable {r r' : ReassemblyRun} {c : Call}

/-- At the fragment's own message. -/
theorem knows_afterPush {t t' : Reassembler} {header : FragmentHeader} {payload : List Byte}
    {now : Instant} {result : PushResult} {accepted : List FragmentIndex}
    (hout : PushOutcome t header payload now result t')
    (hknows : Knows accepted (t.buffers.lookup header.messageId)) :
    Knows (afterPush accepted header.fragmentIndex result)
      (t'.buffers.lookup header.messageId) := by
  cases hout with
  | rejectedNew _ hnew _ | completedFirst hnew _ _ =>
    rw [hnew]
    rfl
  | rejectedOwn _ p _ _ | completed p _ _ _ _ =>
    rw [dropPartial_own]
    rfl
  | repeated p hown hindex =>
    rw [hown] at hknows ⊢
    exact hknows.repeated hindex
  | stored series hnew _ hseries hadmits =>
    rw [hnew] at hknows
    obtain rfl : accepted = [] := hknows
    rw [storePartial_own, hseries, hadmits.1]
    intro i
    show i ∈ [FragmentIndex.zero] ↔ i.toNat < 1
    rw [List.mem_singleton, Nat.lt_one_iff]
    constructor
    · rintro rfl
      rfl
    · exact fun hzero => FragmentIndex.ext_toNat hzero
  | appended p series hown haccept _ =>
    rw [hown] at hknows
    rw [extendPartial_own hown]
    rcases FragmentSeries.accept_ok_cases haccept with
      ⟨hs, -⟩ | ⟨-, -, -, -, hindex, -, -, hnext⟩ | ⟨hs, -⟩
    · exact absurd hs (by decide)
    · exact hknows.concat hindex hnext
    · exact absurd hs (by decide)

/-- **Step lemma**: what is remembered stays what the stored series know. -/
theorem step_tracks (h : r.Tracks) (hstep : r.step c = some r') : r'.Tracks := by
  unfold step at hstep
  split at hstep
  · rename_i reply state hcall
    cases hstep
    refine ⟨(call_inv r.state c reply state h.inv hcall).1, fun id => ?_⟩
    cases c with
    | purge now =>
      obtain ⟨evicted, hpurge⟩ := r.state.purgeExpiredAt_eq now h.inv.exact
      obtain ⟨rfl, rfl⟩ : Reply.evicted evicted = reply ∧ r.state.purged now = state := by
        simpa [call, hpurge, Except.map] using hcall
      exact h.purged now id
    | push header payload now =>
      rcases r.state.pushAt_outcome header payload now h.inv.exact with
        ⟨result, t', hpush, hout⟩ | ⟨hpanic, -⟩
      · obtain ⟨rfl, rfl⟩ : Reply.pushed result = reply ∧ t' = state := by
          simpa [call, hpush, Except.map] using hcall
        show Knows (if id = header.messageId then _ else _) (t'.buffers.lookup id)
        split
        · rename_i hid
          subst hid
          exact knows_afterPush hout (h.purged now _)
        · rename_i hid
          rw [hout.lookup_other hid]
          exact h.purged now id
      · simp [call, hpanic, Except.map] at hcall
  · cases hstep

/-- **Run lemma**: in every state reached, the series know what was accepted. -/
theorem tracks_of_exec {maxMessageSize : NonZeroUsize} {timeout : ℕ}
    {maxConcurrentPartials maxBufferedBytes : Option NonZeroUsize} {calls : List Call}
    (hrun : Trace.exec step (start maxMessageSize timeout maxConcurrentPartials maxBufferedBytes)
      calls = some r) : r.Tracks :=
  Trace.exec_invariant (fun _ _ _ h hstep => step_tracks h hstep) (tracks_start _ _ _ _) hrun

/-- **The footprint of every push**: from every reachable state and at every clock reading, the
push is compared with the state its own expiry purge leaves. -/
theorem push_footprint {maxMessageSize : NonZeroUsize} {timeout : ℕ}
    {maxConcurrentPartials maxBufferedBytes : Option NonZeroUsize} {calls : List Call}
    (hrun : Trace.exec step (start maxMessageSize timeout maxConcurrentPartials maxBufferedBytes)
      calls = some r)
    {header : FragmentHeader} {payload : List Byte} {now : Instant} {result : PushResult}
    {t' : Reassembler} (hpush : r.state.pushAt header payload now = .ok (result, t')) :
    ∃ evicted t, r.state.purgeExpiredAt now = .ok (evicted, t) ∧
      Footprint (r.accepted header.messageId) t header result t' := by
  have htracks := tracks_of_exec hrun
  have hinv := inv_purged htracks.inv now
  obtain ⟨evicted, hpurge⟩ := r.state.purgeExpiredAt_eq now htracks.inv.exact
  refine ⟨evicted, r.state.purged now, hpurge, ?_⟩
  rcases r.state.pushAt_outcome header payload now htracks.inv.exact with
    ⟨result', t'', hpush', hout⟩ | ⟨hpanic, -⟩
  swap
  · rw [hpush] at hpanic
    cases hpanic
  obtain ⟨rfl, rfl⟩ := Prod.mk.inj (Except.ok.inj (hpush'.symm.trans hpush))
  have hbytes := hout.bytes hinv.exact
  constructor
  · exact fun id hid => hout.lookup_other hid
  · exact settings_of_outcome hout
  · exact hbytes
  · rintro err rfl
    obtain ⟨hnone, hsame⟩ := hout.failed
    rw [ownBytes_of_none hnone] at hbytes
    exact ⟨hnone, hbytes, hsame⟩
  · intro hsome hindex
    obtain ⟨p, hown⟩ := Option.isSome_iff_exists.mp hsome
    have hknows := htracks.purged now header.messageId
    rw [remembered, if_pos hsome, hown] at hknows
    exact hout.repeats hown (hinv.stored _ _ hown).2.2.symm ((hknows _).mp hindex)

/-- One message is open; a fragment of it out of order fails, and gives its two bytes back. -/
theorem push_footprint_gap : ∃ r t t' evicted err,
    Trace.exec step (start ⟨8, by decide, by decide⟩ 5 none none)
      [.push ⟨⟨7⟩, FragmentIndex.zero, false⟩ [1, 2] 0] = some r ∧
    r.state.pushAt ⟨⟨7⟩, FragmentIndex.ofNat 2, false⟩ [3] 1 = .ok (.error err, t') ∧
    r.state.purgeExpiredAt 1 = .ok (evicted, t) ∧ t.bufferedBytes = 2 ∧
    Footprint (r.accepted ⟨7⟩) t ⟨⟨7⟩, FragmentIndex.ofNat 2, false⟩ (.error err) t' := by
  obtain ⟨r, t', err, hrun, hpush, hbytes⟩ : ∃ r t' err,
      Trace.exec step (start ⟨8, by decide, by decide⟩ 5 none none)
        [.push ⟨⟨7⟩, FragmentIndex.zero, false⟩ [1, 2] 0] = some r ∧
      r.state.pushAt ⟨⟨7⟩, FragmentIndex.ofNat 2, false⟩ [3] 1 = .ok (.error err, t') ∧
      ∀ evicted t, r.state.purgeExpiredAt 1 = .ok (evicted, t) → t.bufferedBytes = 2 := by
    refine ⟨_, _, _, rfl, rfl, ?_⟩
    intro evicted t hpurge
    cases hpurge
    rfl
  obtain ⟨evicted, t, hpurge, hfootprint⟩ := push_footprint hrun hpush
  exact ⟨r, t, t', evicted, err, hrun, hpush, hpurge, hbytes evicted t hpurge, hfootprint⟩

end ReassemblyRun

end Wireframe
