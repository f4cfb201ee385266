/-
# The limits of message assembly

Two families of bounds over whole runs.  The aggregate budgets hold in every reachable state,
together with the shape of what is stored (`stored_within_budgets`).  The per-message limit
counts metadata for first frames but not for continuations, so it holds in a run exactly when
no continuation of an undeclared message uses that gap (`withinLimit_iff`).
-/
import Mathlib.Tactic
import Wireframe.MessageAssemblySteps
import Wireframe.Trace

namespace Wireframe

/-! ## Aggregate budgets -/

namespace MessageAssemblyState

variable {s s' t : MessageAssemblyState}

/-- The bytes buffered in all assemblies, before they are reduced to a word. -/
def buffered (s : MessageAssemblyState) : ℕ := s.assemblies.sumBy fun _ p => p.bufferedBytes

/-- The buffered bytes respect a limit; the largest limit is no limit. -/
def Respects (total : ℕ) (limit : Option NonZeroUsize) : Prop :=
  ∀ l, limit = some l → total ≤ l.get ∨ l.get = usizeMax

theorem Respects.mono {total total' : ℕ} {limit : Option NonZeroUsize} (h : Respects total limit)
    (hle : total' ≤ total) : Respects total' limit := by
  intro l hl
  rcases h l hl with hfits | hmax
  · exact Or.inl (hle.trans hfits)
  · exact Or.inr hmax

/-- A respected limit bounds what `total_buffered_bytes` reports. -/
theorem Respects.totalBufferedBytes_le {limit : Option NonZeroUsize} {l : NonZeroUsize}
    (h : Respects s.buffered limit) (hl : limit = some l) : s.totalBufferedBytes ≤ l.get := by
  have hmod : s.totalBufferedBytes = s.buffered % 2 ^ 64 := rfl
  rw [hmod]
  rcases h l hl with hfits | hmax
  · exact (Nat.mod_le _ _).trans hfits
  · rw [hmax, usizeMax]
    omega

/-- Below the largest limit nothing wraps, so the check sees the true total. -/
theorem Respects.grow {additional total' : ℕ} {limit : Option NonZeroUsize}
    (h : Respects s.buffered limit)
    (hcheck : ∀ l, limit = some l → saturatingAdd s.totalBufferedBytes additional ≤ l.get)
    (hle : total' ≤ s.buffered + additional) : Respects total' limit := by
  intro l hl
  by_cases hmax : l.get = usizeMax
  · exact Or.inr hmax
  · have hlt : l.get < usizeMax := lt_of_le_of_ne l.le_max hmax
    have hfits := (h l hl).resolve_right hmax
    have htotal : s.totalBufferedBytes = s.buffered := by
      refine Nat.mod_eq_of_lt ?_
      rw [usizeMax] at hlt
      exact lt_of_le_of_lt hfits (by omega)
    have hadmitted := hcheck l hl
    rw [htotal, saturatingAdd_le_iff hlt] at hadmitted
    exact Or.inl (hle.trans hadmitted)

theorem isEnabled_of_some {budgets : AggregateBudgets} {l : NonZeroUsize}
    (h : budgets.connection = some l ∨ budgets.inFlight = some l) : budgets.isEnabled = true := by
  rcases h with h | h <;> simp [AggregateBudgets.isEnabled, h]

/-! ### What is stored -/

/-- What the state stores under a key. -/
structure Stored (key : MessageKey) (p : PartialAssembly) : Prop where
  key : p.series.messageKey = key
  incomplete : p.series.complete = false
  declared : ∀ d, p.declaredTotal = some d → p.bodyLen ≤ d

/-- The budgets are respected and every assembly is stored under its own key, incomplete and
within its declaration. -/
structure Sound (s : MessageAssemblyState) : Prop where
  connection : Respects s.buffered s.budgets.connection
  inFlight : Respects s.buffered s.budgets.inFlight
  stored : ∀ key p, s.assemblies.lookup key = some p → Stored key p

theorem buffered_purged_le (s : MessageAssemblyState) (now : Instant) :
    (s.purged now).buffered ≤ s.buffered :=
  AList.sumBy_retain_le (fun _ p => PartialAssembly.bufferedBytes p) s.assemblies _

theorem Sound.purged (h : s.Sound) (now : Instant) : (s.purged now).Sound where
  connection := h.connection.mono (s.buffered_purged_le now)
  inFlight := h.inFlight.mono (s.buffered_purged_le now)
  stored := fun key p hp => h.stored key p (lookup_purged hp)

theorem Sound.erase (h : t.Sound) (key : MessageKey)
    (hstored : ∀ key' p, (t.assemblies.erase key).lookup key' = some p → Stored key' p) :
    Sound { t with assemblies := t.assemblies.erase key } where
  connection := h.connection.mono (AList.sumBy_erase_le _ _ _)
  inFlight := h.inFlight.mono (AList.sumBy_erase_le _ _ _)
  stored := hstored

/-- A stored first frame was measured against the budgets with everything it buffers. -/
theorem Sound.insert {input : FirstFrameInput} {now : Instant} (h : t.Sound)
    (hopens : t.Opens input)
    (hstored : ∀ key p, (t.assemblies.insert input.header.messageKey
      (PartialAssembly.fromFirstFrame input now)).lookup key = some p → Stored key p)
    (hbudgets : t.budgets.isEnabled = true →
      checkAggregateBudgets input.header.messageKey t.totalBufferedBytes
        (saturatingAdd input.body.length input.metadata.length) t.budgets = .ok ()) :
    Sound { t with
      assemblies := t.assemblies.insert input.header.messageKey
        (PartialAssembly.fromFirstFrame input now) } := by
  have htotal : (t.assemblies.insert input.header.messageKey
      (PartialAssembly.fromFirstFrame input now)).sumBy (fun _ p => p.bufferedBytes) ≤
      t.buffered + saturatingAdd input.body.length input.metadata.length := by
    rw [AList.sumBy_insert_of_lookup_none _ _ _ _ hopens.fresh]
    refine Nat.add_le_add_left ?_ _
    rw [PartialAssembly.bufferedBytes, saturatingAdd, saturatingAdd, Nat.add_comm]
    exact le_rfl
  refine ⟨?_, ?_, hstored⟩
  · refine h.connection.grow (fun l hl => ?_) htotal
    exact (checkAggregateBudgets_eq_ok.mp (hbudgets (isEnabled_of_some (Or.inl hl)))).1 l hl
  · refine h.inFlight.grow (fun l hl => ?_) htotal
    exact (checkAggregateBudgets_eq_ok.mp (hbudgets (isEnabled_of_some (Or.inr hl)))).2 l hl

/-- An accepted continuation was measured against the budgets with its body. -/
theorem Sound.replace {header : ContinuationFrameHeader} {body : ByteBuffer}
    {p p' : PartialAssembly} (h : t.Sound) (hextends : t.Extends header body p p')
    (hstored : ∀ key q, (t.assemblies.replace header.messageKey p').lookup key = some q →
      Stored key q) :
    Sound { t with assemblies := t.assemblies.replace header.messageKey p' } := by
  have htotal : (t.assemblies.replace header.messageKey p').sumBy (fun _ p => p.bufferedBytes) ≤
      t.buffered + body.length := by
    have hsum := AList.sumBy_replace (fun _ p => PartialAssembly.bufferedBytes p) t.assemblies
      header.messageKey p p' hextends.lookup
    have hgrows : p'.bufferedBytes ≤ p.bufferedBytes + body.length := by
      have hlen := hextends.bodyLen'
      simp only [PartialAssembly.bodyLen] at hlen
      rw [PartialAssembly.bufferedBytes, PartialAssembly.bufferedBytes, hextends.metadata', hlen,
        saturatingAdd, saturatingAdd]
      omega
    simp only [buffered] at hsum ⊢
    omega
  have hchecks := checkAggregateBudgets_eq_ok.mp hextends.budgets
  have hscan : ∀ {l}, t.budgets.connection = some l ∨ t.budgets.inFlight = some l →
      t.bufferedTotal = t.totalBufferedBytes := by
    intro l hl
    rw [bufferedTotal, if_pos (isEnabled_of_some hl)]
  refine ⟨?_, ?_, hstored⟩
  · refine h.connection.grow (fun l hl => ?_) htotal
    rw [← hscan (Or.inl hl)]
    exact hchecks.1 l hl
  · refine h.inFlight.grow (fun l hl => ?_) htotal
    rw [← hscan (Or.inr hl)]
    exact hchecks.2 l hl

/-- Every call keeps the state sound. -/
theorem Outcome.sound {call : AssemblyCall} {ret : AssemblyReturn} (h : t.Outcome call ret s')
    (ht : t.Sound) : s'.Sound := by
  have hstored : ∀ key p, s'.assemblies.lookup key = some p → Stored key p := by
    intro key p hp
    refine h.stored ht.stored (fun input now hopens hlast => ?_) ?_ hp
    · exact ⟨rfl, hlast, fun d hd => (hopens.declared d hd).1⟩
    · intro header body now q q' _ hextends hlast
      refine ⟨hextends.key', hextends.complete'.trans hlast, fun d hd => ?_⟩
      rw [hextends.bodyLen']
      exact hextends.declared d (hextends.declared'.symm.trans hd)
  cases h with
  | evicted _ | refused _ | single _ _ => exact ht
  | dropped _ | completed _ _ _ => exact ht.erase _ hstored
  | started hopens _ hbudgets => exact ht.insert hopens hstored hbudgets
  | extended hextends _ => exact ht.replace hextends hstored

end MessageAssemblyState

namespace AssemblyRun

/-! ### Runs -/

section Budgets

variable {r r' : AssemblyRun} {call : AssemblyCall} {maxMessageSize : NonZeroUsize} {timeout : ℕ}
  {connectionBudget inFlightBudget : Option NonZeroUsize}

/-- The state is sound, under the budgets it was started with. -/
def Bounded (budgets : AggregateBudgets) (r : AssemblyRun) : Prop :=
  r.state.budgets = budgets ∧ r.state.Sound

theorem step_bounded {budgets : AggregateBudgets} (h : r.step call = some r')
    (hr : r.Bounded budgets) : r'.Bounded budgets := by
  obtain ⟨ret, houtcome, -⟩ := step_cases h
  exact ⟨houtcome.settings.2.trans hr.1, houtcome.sound (hr.2.purged _)⟩

theorem bounded_start :
    (start maxMessageSize timeout connectionBudget inFlightBudget).Bounded
      ⟨connectionBudget, inFlightBudget⟩ := by
  refine ⟨rfl, ?_, ?_, ?_⟩
  · exact fun _ _ => Or.inl (Nat.zero_le _)
  · exact fun _ _ => Or.inl (Nat.zero_le _)
  · intro key p hp
    exact absurd hp (by simp [start, MessageAssemblyState.withBudgets])

/-- **Buffered bytes stay within the budgets.**  After any calls on a fresh state, the reported
total is within every configured budget, and every assembly is stored under its own key, is
not complete and holds no more than its declared total. -/
theorem stored_within_budgets {calls : List AssemblyCall}
    (hrun : Trace.exec step (start maxMessageSize timeout connectionBudget inFlightBudget) calls =
      some r) :
    (∀ l, connectionBudget = some l → r.state.totalBufferedBytes ≤ l.get) ∧
    (∀ l, inFlightBudget = some l → r.state.totalBufferedBytes ≤ l.get) ∧
    ∀ key p, r.state.assemblies.lookup key = some p →
      p.series.messageKey = key ∧ p.series.complete = false ∧
      ∀ d, p.declaredTotal = some d → p.bodyLen ≤ d := by
  have hbounded : r.Bounded ⟨connectionBudget, inFlightBudget⟩ :=
    Trace.exec_invariant (fun t c t' ht hstep => step_bounded hstep ht) bounded_start hrun
  obtain ⟨hbudgets, hsound⟩ := hbounded
  have hconnection := hsound.connection
  have hinFlight := hsound.inFlight
  rw [hbudgets] at hconnection hinFlight
  refine ⟨fun l hl => hconnection.totalBufferedBytes_le hl,
    fun l hl => hinFlight.totalBufferedBytes_le hl, fun key p hp => ?_⟩
  obtain ⟨hkey, hincomplete, hdeclared⟩ := hsound.stored key p hp
  exact ⟨hkey, hincomplete, hdeclared⟩

/-- Two first frames against a budget of eight bytes: the second one does not fit. -/
def crowdedCalls : List AssemblyCall :=
  [.firstFrame ⟨⟨⟨1⟩, 1, 4, none, false⟩, ⟨⟨5⟩, none⟩, ⟨[0], by decide⟩, ⟨[1, 2, 3, 4], by decide⟩⟩ 0,
    .firstFrame
      ⟨⟨⟨2⟩, 0, 4, some 6, false⟩, ⟨⟨6⟩, none⟩, ⟨[], Nat.zero_le _⟩, ⟨[1, 2, 3, 4], by decide⟩⟩ 1]

theorem stored_within_budgets_crowded :
    ∃ r, Trace.exec step
        (start ⟨16, by decide, by decide⟩ 10 (some ⟨8, by decide, by decide⟩) none) crowdedCalls =
          some r ∧
      (r.state.assemblies.lookup ⟨1⟩).isSome = true ∧ r.state.totalBufferedBytes ≤ 8 := by
  have hcrowded : ∃ r, Trace.exec step
      (start ⟨16, by decide, by decide⟩ 10 (some ⟨8, by decide, by decide⟩) none) crowdedCalls =
        some r ∧ (r.state.assemblies.lookup ⟨1⟩).isSome = true := ⟨_, rfl, rfl⟩
  obtain ⟨r, hrun, hstored⟩ := hcrowded
  exact ⟨r, hrun, hstored, (stored_within_budgets hrun).1 _ rfl⟩

end Budgets

end AssemblyRun

/-! ## The per-message limit -/

/-- A saturated sum within a limit bounds every smaller sum that fits a word. -/
theorem add_le_of_saturatingAdd_le {declared len metadata limit : ℕ}
    (h : saturatingAdd declared metadata ≤ limit) (hlen : len ≤ declared)
    (hword : len + metadata ≤ usizeMax) : len + metadata ≤ limit := by
  rw [saturatingAdd] at h
  omega

namespace MessageAssemblyState

variable {s s' t : MessageAssemblyState}

/-- Metadata and body of an assembly are within the limit. -/
def Fits (limit : NonZeroUsize) (metadata body : ByteBuffer) : Prop :=
  metadata.length + body.length ≤ limit.get

instance (limit : NonZeroUsize) (metadata body : ByteBuffer) :
    Decidable (Fits limit metadata body) :=
  inferInstanceAs (Decidable (_ ≤ _))

/-- An assembly within the limit whose declaration, if it has one, is within it as well. -/
structure Limited (limit : NonZeroUsize) (p : PartialAssembly) : Prop where
  fits : Fits limit p.metadata p.body
  declared : ∀ d, p.declaredTotal = some d → saturatingAdd d p.metadata.length ≤ limit.get

/-- An admitted first frame is within the limit, whether or not it declares a total. -/
theorem Opens.fits {input : FirstFrameInput} (h : t.Opens input) :
    Fits t.maxMessageSize input.metadata input.body := by
  have hlen : input.body.length ≤ input.header.totalBodyLen.getD input.body.length := by
    cases htotal : input.header.totalBodyLen with
    | none => exact le_rfl
    | some d => exact (h.declared d htotal).1
  rw [Fits, Nat.add_comm]
  exact add_le_of_saturatingAdd_le h.size hlen (input.body.length_add_le input.metadata)

/-- A continuation of a declared message stays within the limit. -/
theorem Extends.fits_of_declared {header : ContinuationFrameHeader} {body : ByteBuffer}
    {p p' : PartialAssembly} {d : ℕ} (h : t.Extends header body p p')
    (hp : Limited t.maxMessageSize p) (hd : p.declaredTotal = some d) :
    Fits t.maxMessageSize p'.metadata p'.body := by
  have hlen : p'.body.length ≤ d := by
    have hdeclared := h.declared d hd
    rw [← h.bodyLen'] at hdeclared
    exact hdeclared
  have hsize := hp.declared d hd
  rw [← h.metadata'] at hsize
  rw [Fits, Nat.add_comm]
  exact add_le_of_saturatingAdd_le hsize hlen (p'.body.length_add_le p'.metadata)

/-! ### Frames that overrun -/

/-- The continuation is accepted by an assembly without a declared total, passes the size
check, which looks at body bytes only, and takes metadata and body past the limit. -/
def Overruns (t : MessageAssemblyState) (header : ContinuationFrameHeader) (body : ByteBuffer) :
    Prop :=
  header.bodyLen = body.length ∧
  ∃ p, t.assemblies.lookup header.messageKey = some p ∧ p.declaredTotal = none ∧
    (∃ status, (p.series.acceptContinuation header).1 = .ok status) ∧
    checkAggregateBudgets header.messageKey t.bufferedTotal body.length t.budgets = .ok () ∧
    p.bodyLen + body.length ≤ isizeMax ∧
    p.bodyLen + body.length ≤ t.maxMessageSize.get ∧
    t.maxMessageSize.get < p.metadata.length + (p.bodyLen + body.length)

/-- Every other accepted continuation stays within the limit. -/
theorem Extends.fits {header : ContinuationFrameHeader} {body : ByteBuffer}
    {p p' : PartialAssembly} (h : t.Extends header body p p') (hp : Limited t.maxMessageSize p)
    (hnot : ¬ t.Overruns header body) : Fits t.maxMessageSize p'.metadata p'.body := by
  cases hdeclared : p.declaredTotal with
  | some d => exact h.fits_of_declared hp hdeclared
  | none =>
    have hlen := h.bodyLen'
    by_contra hover
    rw [Fits, h.metadata', Nat.not_le] at hover
    change p'.body.length = _ at hlen
    refine hnot ⟨h.length, p, h.lookup, hdeclared, h.accepted, h.budgets, ?_, h.size, ?_⟩
    · rw [← hlen]
      exact p'.body.le_max
    · rw [← hlen]
      exact hover

/-- A continuation that overruns the limit is stored, or completes its message. -/
theorem Overruns.call {header : ContinuationFrameHeader} {body : ByteBuffer} {now : Instant}
    (h : (s.purged now).Overruns header body) :
    ∃ p' : PartialAssembly, ¬ Fits s.maxMessageSize p'.metadata p'.body ∧
      (s.call (.continuationFrame header body now) =
          .ok (.frame (.ok none), { s.purged now with
            assemblies := (s.purged now).assemblies.replace header.messageKey p' }) ∨
        s.call (.continuationFrame header body now) =
          .ok (.frame (.ok (some ⟨p'.series.messageKey, p'.routing, p'.metadata, p'.body⟩)),
            { s.purged now with
              assemblies := (s.purged now).assemblies.erase header.messageKey })) := by
  obtain ⟨hlength, p, hlookup, hdeclared, ⟨status, hstatus⟩, hbudgets, hcap, hsize, hover⟩ := h
  rcases haccept : p.series.acceptContinuation header with ⟨result, series⟩
  obtain rfl : result = .ok status := by
    rw [haccept] at hstatus
    exact hstatus
  obtain ⟨hkey, -, -, hkey', htotal', -⟩ := MessageSeries.acceptContinuation_ok haccept
  have hcap' : (p.body.toList ++ body.toList).length ≤ isizeMax := by
    rw [List.length_append]
    exact hcap
  have hundeclared : ∀ d, series.expectedTotal ≠ some d := by
    intro d hd
    exact absurd (hdeclared.symm.trans (htotal'.symm.trans hd)) (by simp)
  have hchecked : PartialAssembly.admitContinuation { p with series := series } body.length
      (s.purged now).bufferedTotal ⟨(s.purged now).maxMessageSize, (s.purged now).budgets⟩ =
        .ok () := by
    rw [PartialAssembly.admitContinuation_eq_ok]
    refine ⟨hsize, ?_, fun d hd => absurd hd (hundeclared d)⟩
    show checkAggregateBudgets series.messageKey _ _ _ = _
    rw [hkey', ← hkey]
    exact hbudgets
  have hpush : PartialAssembly.pushBody { p with series := series } body =
      .ok { p with series := series, body := ⟨p.body.toList ++ body.toList, hcap'⟩ } := by
    simp only [PartialAssembly.pushBody, ByteBuffer.extend, dif_pos hcap']
  refine ⟨{ p with series := series, body := ⟨p.body.toList ++ body.toList, hcap'⟩ }, ?_, ?_⟩
  · show ¬ p.metadata.length + (p.body.toList ++ body.toList).length ≤ _
    rw [List.length_append, Nat.not_le]
    exact hover
  · rw [call_continuation hlength hlookup]
    cases status with
    | incomplete =>
      rw [continueEntry_incomplete hchecked hpush haccept]
      exact Or.inl rfl
    | complete =>
      have hmessage : PartialAssembly.intoMessage
          { p with series := series, body := ⟨p.body.toList ++ body.toList, hcap'⟩ } =
          .ok (some ⟨series.messageKey, p.routing, p.metadata,
            ⟨p.body.toList ++ body.toList, hcap'⟩⟩) :=
        PartialAssembly.intoMessage_eq_ok.mpr ⟨rfl, fun d hd => absurd hd (hundeclared d)⟩
      rw [continueEntry_complete hchecked hpush haccept, hmessage]
      exact Or.inr rfl

end MessageAssemblyState

namespace AssemblyRun

/-! ### Runs under the limit -/

section Limit

open MessageAssemblyState

variable {r r' : AssemblyRun} {call : AssemblyCall}

/-- Metadata and body are within the limit for every stored assembly and for every message
that a call returned. -/
def WithinLimit (r : AssemblyRun) : Prop :=
  (∀ key p, r.state.assemblies.lookup key = some p →
    Fits r.state.maxMessageSize p.metadata p.body) ∧
  ∀ call message, (call, AssemblyReturn.frame (.ok (some message))) ∈ r.log →
    Fits r.state.maxMessageSize message.metadata message.body

/-- What a run keeps while no continuation overruns: declarations are within the limit too. -/
structure Limited (r : AssemblyRun) : Prop where
  stored : ∀ key p, r.state.assemblies.lookup key = some p →
    MessageAssemblyState.Limited r.state.maxMessageSize p
  returned : ∀ call message, (call, AssemblyReturn.frame (.ok (some message))) ∈ r.log →
    Fits r.state.maxMessageSize message.metadata message.body

theorem Limited.withinLimit (h : r.Limited) : r.WithinLimit :=
  ⟨fun key p hp => (h.stored key p hp).fits, h.returned⟩

/-- The call is a continuation that overruns the limit, in the state after its purge. -/
def OverrunsLimit (r : AssemblyRun) : AssemblyCall → Prop
  | .continuationFrame header body now => (r.state.purged now).Overruns header body
  | .firstFrame _ _ => False
  | .purgeExpired _ => False

theorem Limited.purged (h : r.Limited) {key : MessageKey} {p : PartialAssembly} {now : Instant}
    (hp : (r.state.purged now).assemblies.lookup key = some p) :
    MessageAssemblyState.Limited (r.state.purged now).maxMessageSize p :=
  h.stored key p (lookup_purged hp)

/-- **Step lemma**: a call that does not overrun the limit keeps it. -/
theorem step_limited (h : r.step call = some r') (hr : r.Limited) (hnot : ¬ r.OverrunsLimit call) :
    r'.Limited := by
  obtain ⟨ret, houtcome, hlog⟩ := step_cases h
  have hmax : r'.state.maxMessageSize = r.state.maxMessageSize := houtcome.settings.1
  have hkept : ∀ key p, (r.state.purged call.now).assemblies.lookup key = some p →
      MessageAssemblyState.Limited r.state.maxMessageSize p := fun key p hp => hr.purged hp
  -- the new message, if there is one, is within the limit
  have hreturned : (∀ message, ret = .frame (.ok (some message)) →
        Fits r.state.maxMessageSize message.metadata message.body) →
      ∀ c message, (c, AssemblyReturn.frame (.ok (some message))) ∈ r'.log →
        Fits r.state.maxMessageSize message.metadata message.body := by
    intro hnew c message hmem
    rw [hlog, List.mem_append, List.mem_singleton] at hmem
    rcases hmem with hold | heq
    · exact hr.returned c message hold
    · exact hnew message (Prod.mk.inj heq).2.symm
  refine ⟨?_, ?_⟩
  · rw [hmax]
    intro key p hp
    refine houtcome.stored hkept (fun input now hopens _ => ?_) ?_ hp
    · refine ⟨hopens.fits, fun d hd => ?_⟩
      have hsize := hopens.size
      change input.header.totalBodyLen = some d at hd
      rw [hd] at hsize
      exact hsize
    · -- the one call that does not count the metadata
      rintro header body now q q' rfl hextends _
      have hq := hkept _ _ hextends.lookup
      refine ⟨hextends.fits hq hnot, fun d hd => ?_⟩
      rw [hextends.metadata']
      exact hq.declared d (hextends.declared'.symm.trans hd)
  · rw [hmax]
    refine hreturned fun message hret => ?_
    generalize hstate : r'.state = s' at houtcome
    cases houtcome with
    | evicted _ | refused _ | dropped _ | started _ _ _ | extended _ _ =>
      cases hret
    | single hopens _ =>
      obtain rfl := by simpa using hret
      exact hopens.fits
    | completed hextends _ _ =>
      obtain rfl := by simpa using hret
      exact hextends.fits (hkept _ _ hextends.lookup) hnot

/-- A continuation that overruns the limit leaves an assembly or returns a message past it. -/
theorem overrunsLimit_breaks (h : r.OverrunsLimit call) :
    ∃ r', r.step call = some r' ∧ ¬ r'.WithinLimit := by
  cases call with
  | firstFrame input now | purgeExpired now => exact h.elim
  | continuationFrame header body now =>
    obtain ⟨-, p, hlookup, -⟩ := id h
    obtain ⟨p', hover, hcall | hcall⟩ := Overruns.call h
    · refine ⟨⟨_, r.log ++ [(_, _)]⟩, by rw [step, hcall], fun hwithin => ?_⟩
      refine hover (hwithin.1 header.messageKey p' ?_)
      rw [AList.lookup_replace_eq _ _ _ _ _ hlookup, if_pos rfl]
    · refine ⟨⟨_, r.log ++ [(_, _)]⟩, by rw [step, hcall], fun hwithin => ?_⟩
      exact hover (hwithin.2 _ _ (List.mem_append_right _ (List.mem_singleton.mpr rfl)))

/-! ### When it holds -/

/-- **The per-message limit holds exactly while no continuation overruns it.** -/
theorem withinLimit_iff (maxMessageSize : NonZeroUsize) (timeout : ℕ)
    (connectionBudget inFlightBudget : Option NonZeroUsize) (calls : List AssemblyCall) :
    Trace.Always step WithinLimit (start maxMessageSize timeout connectionBudget inFlightBudget)
        calls ↔
      Trace.Never step OverrunsLimit (start maxMessageSize timeout connectionBudget inFlightBudget)
        calls := by
  refine Trace.always_iff_never (fun t ht => Limited.withinLimit ht)
    (fun t c t' ht hnot hstep => step_limited hstep ht hnot)
    (fun t c _ hover => overrunsLimit_breaks hover) ?_ calls
  constructor
  · intro key p hp
    exact absurd hp (by simp [start, MessageAssemblyState.withBudgets])
  · intro c message hmem
    exact absurd hmem (by simp [start])

/-- Five bytes of metadata and five of body fill a limit of ten; the continuation brings five
more bytes of body. -/
def metadataGap : List AssemblyCall :=
  [.firstFrame ⟨⟨⟨1⟩, 5, 5, none, false⟩, ⟨⟨7⟩, none⟩, ⟨[1, 2, 3, 4, 5], by decide⟩,
      ⟨[1, 2, 3, 4, 5], by decide⟩⟩ 0,
    .continuationFrame ⟨⟨1⟩, none, 5, true⟩ ⟨[6, 7, 8, 9, 10], by decide⟩ 1]

/-- The completed message has fifteen bytes under a limit of ten. -/
theorem metadataGap_exceeds_limit :
    ∃ r, Trace.exec step (start ⟨10, by decide, by decide⟩ 30 none none) metadataGap = some r ∧
      ¬ r.WithinLimit := by
  have hrun : ∃ r, Trace.exec step (start ⟨10, by decide, by decide⟩ 30 none none) metadataGap =
      some r ∧ r.state.maxMessageSize = ⟨10, by decide, by decide⟩ ∧
      ∃ call, (call, AssemblyReturn.frame (.ok (some ⟨⟨1⟩, ⟨⟨7⟩, none⟩, ⟨[1, 2, 3, 4, 5], by decide⟩,
        ⟨[1, 2, 3, 4, 5, 6, 7, 8, 9, 10], by decide⟩⟩))) ∈ r.log :=
    ⟨_, rfl, rfl, _, List.mem_append_right _ (List.mem_singleton.mpr rfl)⟩
  obtain ⟨r, hexec, hmax, call, hmem⟩ := hrun
  refine ⟨r, hexec, fun hwithin => ?_⟩
  have hfits := hwithin.2 call _ hmem
  rw [hmax] at hfits
  exact absurd hfits (by decide)

end Limit

end AssemblyRun

end Wireframe
