/-
# What a call on the assembly state can do

One lemma for each check of the admission path, and `Outcome`, which lists what a call
returns and how it leaves the assemblies that its expiry purge has kept.  Invariants of the
state are proved by cases on `Outcome` (`call_outcome`), never by unfolding the calls.
-/
import Mathlib.Tactic
import Wireframe.MessageAssembly

namespace Wireframe

/-! ## The checks -/

section Checks

variable {key : MessageKey} {budgets : AggregateBudgets} {total additional accumulated bodyLen : ℕ}

theorem checkBudget_eq_ok {limit : Option NonZeroUsize}
    {exceeded : NonZeroUsize → MessageAssemblyError} :
    checkBudget limit total exceeded = .ok () ↔ ∀ l, limit = some l → total ≤ l.get := by
  cases limit with
  | none => simp [checkBudget]
  | some l =>
    simp only [checkBudget, Option.some.injEq, forall_eq']
    split_ifs with hexceeds
    · simp
      omega
    · simp
      omega

/-- The budgets admit a frame when the new total is within every configured limit. -/
theorem checkAggregateBudgets_eq_ok :
    checkAggregateBudgets key total additional budgets = .ok () ↔
      (∀ l, budgets.connection = some l → saturatingAdd total additional ≤ l.get) ∧
      ∀ l, budgets.inFlight = some l → saturatingAdd total additional ≤ l.get := by
  simp only [checkAggregateBudgets]
  split
  · rename_i err herr
    have hnot : ¬ checkBudget budgets.connection (saturatingAdd total additional)
        (.connectionBudgetExceeded key (saturatingAdd total additional)) = .ok () := by
      rw [herr]
      simp
    rw [checkBudget_eq_ok] at hnot
    exact iff_of_false (by simp) fun h => hnot h.1
  · rename_i hok
    rw [checkBudget_eq_ok] at hok ⊢
    exact ⟨fun h => ⟨hok, h⟩, fun h => h.2⟩

theorem checkSizeLimit_eq_ok {maxMessageSize : NonZeroUsize} {newLen : ℕ} :
    checkSizeLimit maxMessageSize key accumulated bodyLen = .ok newLen ↔
      accumulated + bodyLen ≤ maxMessageSize.get ∧ newLen = accumulated + bodyLen := by
  have hmax := maxMessageSize.le_max
  rw [checkSizeLimit]
  rcases hadd : checkedAdd accumulated bodyLen with _ | sum
  · have hover := checkedAdd_eq_none_iff.mp hadd
    simp
    omega
  · obtain ⟨-, rfl⟩ := checkedAdd_eq_some_iff.mp hadd
    simp only
    split_ifs with hexceeds
    · simp
      omega
    · simp
      omega

/-- A declaration admits the first frame's body, and is met by a frame that is the last. -/
theorem validateFirstFrame_eq_ok {header : FirstFrameHeader} :
    validateFirstFrame header bodyLen = .ok () ↔
      ∀ d, header.totalBodyLen = some d → bodyLen ≤ d ∧ (header.isLast = true → d = bodyLen) := by
  rw [validateFirstFrame]
  cases htotal : header.totalBodyLen with
  | none => simp
  | some d =>
    simp only [Option.some.injEq, forall_eq']
    split_ifs with hsmall hlast
    · simp
      omega
    · simp [hlast]
    · simp only [true_iff]
      refine ⟨by omega, fun h => ?_⟩
      by_contra hne
      exact hlast ⟨h, hne⟩

theorem validateContinuation_eq_ok {declared : ℕ} :
    validateContinuation key declared accumulated bodyLen = .ok () ↔
      accumulated + bodyLen ≤ usizeMax ∧ accumulated + bodyLen ≤ declared := by
  rw [validateContinuation]
  rcases hadd : checkedAdd accumulated bodyLen with _ | sum
  · have hover := checkedAdd_eq_none_iff.mp hadd
    simp
    omega
  · obtain ⟨hle, rfl⟩ := checkedAdd_eq_some_iff.mp hadd
    simp only
    split_ifs with hexceeds
    · simp
      omega
    · simp
      omega

end Checks

namespace PartialAssembly

variable {p p' : PartialAssembly}

/-- A continuation is admitted when its body fits the message limit, the budgets and the
declared total. -/
theorem admitContinuation_eq_ok {bodyLen total : ℕ} {limits : ContinuationLimits} :
    p.admitContinuation bodyLen total limits = .ok () ↔
      p.bodyLen + bodyLen ≤ limits.maxMessageSize.get ∧
      checkAggregateBudgets p.series.messageKey total bodyLen limits.budgets = .ok () ∧
      ∀ d, p.declaredTotal = some d → p.bodyLen + bodyLen ≤ d := by
  have hmax := limits.maxMessageSize.le_max
  simp only [admitContinuation]
  rcases hsize : checkSizeLimit limits.maxMessageSize p.series.messageKey p.bodyLen bodyLen with
    err | newLen
  · have hnot : ¬ p.bodyLen + bodyLen ≤ limits.maxMessageSize.get := by
      intro hle
      have hok : checkSizeLimit limits.maxMessageSize p.series.messageKey p.bodyLen bodyLen =
          .ok (p.bodyLen + bodyLen) := checkSizeLimit_eq_ok.mpr ⟨hle, rfl⟩
      rw [hok] at hsize
      cases hsize
    simp [hnot]
  · obtain ⟨hle, -⟩ := checkSizeLimit_eq_ok.mp hsize
    simp only [hle, true_and]
    rcases hbudget : checkAggregateBudgets p.series.messageKey total bodyLen limits.budgets with
      err | ⟨⟩
    · simp
    · simp only [true_and]
      cases hdeclared : p.declaredTotal with
      | none => simp
      | some d =>
        simp only [Option.some.injEq, forall_eq', validateContinuation_eq_ok]
        exact ⟨fun h => h.2, fun h => ⟨by omega, h⟩⟩

/-- A complete assembly becomes a message when its declared total, if any, is met. -/
theorem intoMessage_eq_ok {message : Option AssembledMessage} :
    p.intoMessage = .ok message ↔
      message = some ⟨p.series.messageKey, p.routing, p.metadata, p.body⟩ ∧
      ∀ d, p.declaredTotal = some d → p.bodyLen = d := by
  simp only [intoMessage, declaredTotal, bodyLen, validateCompletion]
  cases htotal : p.series.expectedTotal with
  | none => simp [eq_comm]
  | some d =>
    by_cases hlen : p.body.length = d
    · simp [hlen, eq_comm]
    · simp [hlen]

theorem pushBody_eq_ok {body : ByteBuffer} (h : p.pushBody body = .ok p') :
    ∃ extended, p.body.extend body = .ok extended ∧ p' = { p with body := extended } := by
  rw [pushBody] at h
  rcases hextend : p.body.extend body with panic | extended
  · rw [hextend] at h
    cases h
  · rw [hextend] at h
    exact ⟨extended, rfl, (Except.ok.inj h).symm⟩

end PartialAssembly

/-! ## Outcomes -/

namespace AssemblyCall

/-- The clock reading of a call. -/
def now : AssemblyCall → Instant
  | .firstFrame _ now => now
  | .continuationFrame _ _ now => now
  | .purgeExpired now => now

end AssemblyCall

namespace MessageAssemblyState

/-- The state after the purge every call starts with. -/
def purged (s : MessageAssemblyState) (now : Instant) : MessageAssemblyState :=
  (s.purgeExpiredAt now).2

/-- The assembly `p` of the frame's key takes the continuation and becomes `p'`. -/
structure Extends (t : MessageAssemblyState) (header : ContinuationFrameHeader)
    (body : ByteBuffer) (p p' : PartialAssembly) : Prop where
  length : header.bodyLen = body.length
  lookup : t.assemblies.lookup header.messageKey = some p
  accepted : ∃ status, (p.series.acceptContinuation header).1 = .ok status
  key : p.series.messageKey = header.messageKey
  open_ : p.series.complete = false
  size : p.bodyLen + body.length ≤ t.maxMessageSize.get
  budgets : checkAggregateBudgets header.messageKey t.bufferedTotal body.length t.budgets = .ok ()
  declared : ∀ d, p.declaredTotal = some d → p.bodyLen + body.length ≤ d
  key' : p'.series.messageKey = header.messageKey
  complete' : p'.series.complete = header.isLast
  declared' : p'.declaredTotal = p.declaredTotal
  routing' : p'.routing = p.routing
  metadata' : p'.metadata = p.metadata
  body' : p'.body.toList = p.body.toList ++ body.toList

theorem Extends.bodyLen' {t : MessageAssemblyState} {header : ContinuationFrameHeader}
    {body : ByteBuffer} {p p' : PartialAssembly} (h : t.Extends header body p p') :
    p'.bodyLen = p.bodyLen + body.length := by
  rw [PartialAssembly.bodyLen, ByteBuffer.length, h.body', List.length_append]
  rfl

/-- The first frame passes every check that precedes its storage or its return. -/
structure Opens (t : MessageAssemblyState) (input : FirstFrameInput) : Prop where
  fresh : t.assemblies.lookup input.header.messageKey = none
  declared : ∀ d, input.header.totalBodyLen = some d →
    input.body.length ≤ d ∧ (input.header.isLast = true → d = input.body.length)
  size : saturatingAdd (input.header.totalBodyLen.getD input.body.length) input.metadata.length ≤
    t.maxMessageSize.get

/-! ### What a call can do -/

/-- What a call returns and leaves, from the state after its purge. -/
inductive Outcome (t : MessageAssemblyState) :
    AssemblyCall → AssemblyReturn → MessageAssemblyState → Prop where
  | evicted {now : Instant} (keys : List MessageKey) :
      Outcome t (.purgeExpired now) (.evicted keys) t
  | refused {call : AssemblyCall} (err : MessageAssemblyError) :
      Outcome t call (.frame (.error err)) t
  | dropped {header : ContinuationFrameHeader} {body : ByteBuffer} {now : Instant}
      (err : MessageAssemblyError) :
      Outcome t (.continuationFrame header body now) (.frame (.error err))
        { t with assemblies := t.assemblies.erase header.messageKey }
  | single {input : FirstFrameInput} {now : Instant} (hopens : t.Opens input)
      (hlast : input.header.isLast = true) :
      Outcome t (.firstFrame input now)
        (.frame (.ok (some ⟨input.header.messageKey, input.routing, input.metadata, input.body⟩))) t
  | started {input : FirstFrameInput} {now : Instant} (hopens : t.Opens input)
      (hlast : input.header.isLast = false)
      (hbudgets : t.budgets.isEnabled = true →
        checkAggregateBudgets input.header.messageKey t.totalBufferedBytes
          (saturatingAdd input.body.length input.metadata.length) t.budgets = .ok ()) :
      Outcome t (.firstFrame input now) (.frame (.ok none))
        { t with
          assemblies := t.assemblies.insert input.header.messageKey
            (PartialAssembly.fromFirstFrame input now) }
  | extended {header : ContinuationFrameHeader} {body : ByteBuffer} {now : Instant}
      {p p' : PartialAssembly} (hextends : t.Extends header body p p')
      (hlast : header.isLast = false) :
      Outcome t (.continuationFrame header body now) (.frame (.ok none))
        { t with assemblies := t.assemblies.replace header.messageKey p' }
  | completed {header : ContinuationFrameHeader} {body : ByteBuffer} {now : Instant}
      {p p' : PartialAssembly} (hextends : t.Extends header body p p')
      (hlast : header.isLast = true) (hdeclared : ∀ d, p'.declaredTotal = some d → p'.bodyLen = d) :
      Outcome t (.continuationFrame header body now)
        (.frame (.ok (some ⟨header.messageKey, p'.routing, p'.metadata, p'.body⟩)))
        { t with assemblies := t.assemblies.erase header.messageKey }

variable {s s' t : MessageAssemblyState}

/-- A first frame is refused, completes its message, or starts an assembly. -/
theorem acceptFirstFrameAt_outcome {input : FirstFrameInput} {now : Instant}
    {result : AssemblyResult} (h : s.acceptFirstFrameAt input now = (result, s')) :
    (s.purged now).Outcome (.firstFrame input now) (.frame result) s' := by
  simp only [acceptFirstFrameAt] at h
  change (if ((s.purged now).assemblies.lookup _).isSome = true then _ else _) = _ at h
  split at h
  · cases h
    exact .refused _
  · rename_i hfresh
    split at h
    · cases h
      exact .refused _
    · rename_i hvalid
      split at h
      · cases h
        exact .refused _
      · rename_i hsize
        have hopens : (s.purged now).Opens input :=
          ⟨by simpa using hfresh, validateFirstFrame_eq_ok.mp hvalid, Nat.not_lt.mp hsize⟩
        split at h
        · rename_i hlast
          cases h
          exact .single hopens hlast
        · rename_i hlast
          split at h
          · cases h
            exact .refused _
          · rename_i hadmitted
            cases h
            refine .started hopens (by simpa using hlast) fun henabled => ?_
            change (if (s.purged now).budgets.isEnabled = true then _ else _) = _ at hadmitted
            rwa [if_pos henabled] at hadmitted

section Entry

variable {header : ContinuationFrameHeader} {body : ByteBuffer} {p p' : PartialAssembly}
  {series : MessageSeries}
  (hchecked : PartialAssembly.admitContinuation { p with series := series } body.length
    t.bufferedTotal ⟨t.maxMessageSize, t.budgets⟩ = .ok ())
  (hpush : PartialAssembly.pushBody { p with series := series } body = .ok p')

include hchecked hpush

theorem continueEntry_incomplete
    (haccept : p.series.acceptContinuation header = (.ok .incomplete, series)) :
    t.continueEntry p header body =
      .ok (.ok none, { t with assemblies := t.assemblies.replace header.messageKey p' }) := by
  simp only [continueEntry, PartialAssembly.acceptContinuation, haccept, hchecked, hpush]

theorem continueEntry_complete
    (haccept : p.series.acceptContinuation header = (.ok .complete, series)) :
    t.continueEntry p header body =
      .ok (p'.intoMessage, { t with assemblies := t.assemblies.erase header.messageKey }) := by
  simp only [continueEntry, PartialAssembly.acceptContinuation, haccept, hchecked, hpush]

/-- The checks a continuation passes at the entry of its key, when it is accepted. -/
theorem extends_of_accepted {status : MessageSeriesStatus} (hlength : header.bodyLen = body.length)
    (hlookup : t.assemblies.lookup header.messageKey = some p)
    (haccept : p.series.acceptContinuation header = (.ok status, series)) :
    t.Extends header body p p' := by
  obtain ⟨hkey, hopen, -, hkey', htotal', hcomplete'⟩ := MessageSeries.acceptContinuation_ok haccept
  obtain ⟨hsize, hbudgets, hdeclared⟩ := PartialAssembly.admitContinuation_eq_ok.mp hchecked
  obtain ⟨extended, hextend, rfl⟩ := PartialAssembly.pushBody_eq_ok hpush
  rw [hkey', ← hkey] at hbudgets
  constructor
  · exact hlength
  · exact hlookup
  · exact ⟨status, by rw [haccept]⟩
  · exact hkey.symm
  · exact hopen
  · exact hsize
  · exact hbudgets
  · intro d hd
    exact hdeclared d (htotal'.trans hd)
  · exact hkey'.trans hkey.symm
  · exact hcomplete'
  · exact htotal'
  · rfl
  · rfl
  · exact ByteBuffer.extend_eq_ok hextend

end Entry

/-- A continuation is refused, extends its assembly, or completes it. -/
theorem continueEntry_outcome {header : ContinuationFrameHeader} {body : ByteBuffer}
    {now : Instant} {p : PartialAssembly} {result : AssemblyResult}
    (hlength : header.bodyLen = body.length) (hlookup : t.assemblies.lookup header.messageKey = some p)
    (h : t.continueEntry p header body = .ok (result, s')) :
    t.Outcome (.continuationFrame header body now) (.frame result) s' := by
  simp only [continueEntry, PartialAssembly.acceptContinuation] at h
  rcases haccept : p.series.acceptContinuation header with ⟨err | status, series⟩
  · rw [haccept] at h
    simp only at h
    split at h
    · cases h
      exact .dropped _
    · -- a recoverable error leaves the series, and with it the map, as it was
      cases h
      obtain rfl := MessageSeries.acceptContinuation_error haccept
      rw [AList.replace_self _ _ p hlookup]
      exact .refused _
  · rw [haccept] at h
    simp only at h
    split at h
    · cases h
      exact .dropped _
    · rename_i hchecked
      split at h
      · cases h
      · rename_i p' hpush
        have hextends := extends_of_accepted hchecked hpush hlength hlookup haccept
        obtain ⟨-, -, hstatus, -⟩ := MessageSeries.acceptContinuation_ok haccept
        cases hlast : header.isLast with
        | false =>
          rw [hlast, if_neg Bool.false_ne_true] at hstatus
          rw [hstatus] at h
          cases h
          exact .extended hextends hlast
        | true =>
          rw [hlast, if_pos rfl] at hstatus
          rw [hstatus] at h
          obtain ⟨hmessage, rfl⟩ := Prod.mk.inj (Except.ok.inj h)
          rcases result with err | message
          · exact .dropped _
          · obtain ⟨rfl, hdeclared⟩ := PartialAssembly.intoMessage_eq_ok.mp hmessage
            rw [hextends.key']
            exact .completed hextends hlast hdeclared

/-- **Inversion**: a call that returns has one of the outcomes. -/
theorem call_outcome {call : AssemblyCall} {ret : AssemblyReturn}
    (h : s.call call = .ok (ret, s')) : (s.purged call.now).Outcome call ret s' := by
  cases call with
  | firstFrame input now =>
    cases h
    exact acceptFirstFrameAt_outcome rfl
  | purgeExpired now =>
    cases h
    exact .evicted _
  | continuationFrame header body now =>
    rw [MessageAssemblyState.call] at h
    rcases hframe : s.acceptContinuationFrameAt header body now with panic | ⟨result, u⟩
    · rw [hframe] at h
      exact absurd h (by simp [Except.map])
    · rw [hframe] at h
      cases h
      simp only [acceptContinuationFrameAt] at hframe
      split at hframe
      · cases hframe
        exact .refused _
      · rename_i hlength
        rw [not_not] at hlength
        split at hframe
        · cases hframe
          exact .refused _
        · rename_i p hlookup
          exact continueEntry_outcome hlength hlookup hframe

/-! ### Continuations -/

/-- A continuation whose length is right is handled at the entry of its key. -/
theorem call_continuation {header : ContinuationFrameHeader} {body : ByteBuffer} {now : Instant}
    {p : PartialAssembly} (hlength : header.bodyLen = body.length)
    (hlookup : (s.purged now).assemblies.lookup header.messageKey = some p) :
    s.call (.continuationFrame header body now) =
      ((s.purged now).continueEntry p header body).map fun r => (.frame r.1, r.2) := by
  simp only [MessageAssemblyState.call, acceptContinuationFrameAt]
  rw [if_neg (not_not.mpr hlength)]
  change (s.purgeExpiredAt now).2.assemblies.lookup _ = _ at hlookup
  rw [hlookup]
  rfl

/-- No call changes the limits. -/
theorem Outcome.settings {call : AssemblyCall} {ret : AssemblyReturn} (h : t.Outcome call ret s') :
    s'.maxMessageSize = t.maxMessageSize ∧ s'.budgets = t.budgets := by
  cases h <;> exact ⟨rfl, rfl⟩

theorem Outcome.timeout {call : AssemblyCall} {ret : AssemblyReturn} (h : t.Outcome call ret s') :
    s'.timeout = t.timeout := by
  cases h <;> rfl

/-- **What is stored after a call** was stored before, or is the assembly the call has started
or extended. -/
theorem Outcome.stored {call : AssemblyCall} {ret : AssemblyReturn}
    {Q : MessageKey → PartialAssembly → Prop} (h : t.Outcome call ret s')
    (hkept : ∀ key p, t.assemblies.lookup key = some p → Q key p)
    (hstarted : ∀ input now, t.Opens input → input.header.isLast = false →
      Q input.header.messageKey (PartialAssembly.fromFirstFrame input now))
    (hextended : ∀ header body now p p', call = .continuationFrame header body now →
      t.Extends header body p p' → header.isLast = false → Q header.messageKey p')
    {key : MessageKey} {p : PartialAssembly} (hp : s'.assemblies.lookup key = some p) : Q key p := by
  cases h with
  | evicted _ | refused _ | single _ _ => exact hkept key p hp
  | dropped _ | completed _ _ _ =>
    rw [AList.lookup_erase_eq] at hp
    split_ifs at hp
    exact hkept key p hp
  | started hopens hlast _ =>
    rw [AList.lookup_insert_eq] at hp
    split_ifs at hp with hkey
    · cases hp
      rw [hkey]
      exact hstarted _ _ hopens hlast
    · exact hkept key p hp
  | extended hextends hlast =>
    rw [AList.lookup_replace_eq _ _ _ _ _ hextends.lookup] at hp
    split_ifs at hp with hkey
    · cases hp
      rw [hkey]
      exact hextended _ _ _ _ _ rfl hextends hlast
    · exact hkept key p hp

/-! ## Runs -/

/-- What the purge keeps was there before. -/
theorem lookup_purged {key : MessageKey} {p : PartialAssembly} {now : Instant}
    (h : (s.purged now).assemblies.lookup key = some p) : s.assemblies.lookup key = some p := by
  change (s.assemblies.retain _).lookup key = some p at h
  rw [AList.lookup_retain] at h
  exact (Option.filter_eq_some_iff.mp h).1

/-- A purge at a reading at which nothing has expired does nothing. -/
theorem purged_eq_self {now : Instant}
    (h : ∀ key p, s.assemblies.lookup key = some p → expired s.timeout now p = false) :
    s.purged now = s := by
  have hkept : (s.assemblies.retain fun _ p => !expired s.timeout now p) = s.assemblies := by
    apply AList.retain_eq_self
    intro key p hp
    simp [h key p hp]
  simp only [purged, purgeExpiredAt, hkept]

/-- A first frame that passes every check and is not the last one is stored. -/
theorem acceptFirstFrameAt_started {input : FirstFrameInput} {now : Instant}
    (hopens : (s.purged now).Opens input) (hlast : input.header.isLast = false)
    (hbudgets : checkAggregateBudgets input.header.messageKey (s.purged now).totalBufferedBytes
      (saturatingAdd input.body.length input.metadata.length) (s.purged now).budgets = .ok ()) :
    s.acceptFirstFrameAt input now = (.ok none, { s.purged now with
      assemblies := (s.purged now).assemblies.insert input.header.messageKey
        (PartialAssembly.fromFirstFrame input now) }) := by
  have hfresh : ((s.purged now).assemblies.lookup input.header.messageKey).isSome = false := by
    simp [hopens.fresh]
  have hvalid := validateFirstFrame_eq_ok.mpr hopens.declared
  have hsize := Nat.not_lt.mpr hopens.size
  simp only [purged] at hfresh hsize hbudgets ⊢
  simp only [acceptFirstFrameAt, hfresh, hvalid, hsize, hlast, hbudgets, ite_self,
    Bool.false_eq_true, if_false]

end MessageAssemblyState

/-! ### The run -/

/-- A state together with every call made so far and what it returned. -/
structure AssemblyRun where
  state : MessageAssemblyState
  log : List (AssemblyCall × AssemblyReturn)

namespace AssemblyRun

/-- A fresh state, before the first call. -/
def start (maxMessageSize : NonZeroUsize) (timeout : ℕ)
    (connectionBudget inFlightBudget : Option NonZeroUsize) : AssemblyRun :=
  ⟨.withBudgets maxMessageSize timeout connectionBudget inFlightBudget, []⟩

/-- One call; a run ends at a call that panics. -/
def step (r : AssemblyRun) (call : AssemblyCall) : Option AssemblyRun :=
  match r.state.call call with
  | .ok (ret, state) => some ⟨state, r.log ++ [(call, ret)]⟩
  | .error _ => none

theorem step_cases {r r' : AssemblyRun} {call : AssemblyCall} (h : r.step call = some r') :
    ∃ ret, (r.state.purged call.now).Outcome call ret r'.state ∧ r'.log = r.log ++ [(call, ret)] := by
  rw [step] at h
  split at h
  · rename_i ret state hcall
    cases h
    exact ⟨ret, MessageAssemblyState.call_outcome hcall, rfl⟩
  · cases h

end AssemblyRun

end Wireframe
