/-
# Messages do not interfere

All assemblies of a connection share one map, and every call starts with a sweep that removes the
expired ones, whichever message it is for.  Without aggregate budgets that sharing cannot be
observed: what the calls for one key return depends on the frames of that key and their
timestamps alone (`results_independent`).

What goes wrong with one message touches no other either; `honoursClasses_iff` says when an error
of a series leaves its own assembly as the class of the error asks for.

The proof of independence compares a run with the run of the calls for the key alone.  `Isolated`
relates the two: at every reading from now on, they agree on the entry of the key that a sweep at
that reading would leave, though one of them may have removed it already.
-/
import Mathlib.Tactic
import Wireframe.MessageAssemblySteps
import Wireframe.Trace

namespace Wireframe

/-! ## The calls for one key -/

/-- The call is for a frame of the message `k`. -/
def AssemblyCall.isFor (k : MessageKey) : AssemblyCall → Bool
  | .firstFrame input _ => input.header.messageKey = k
  | .continuationFrame header _ _ => header.messageKey = k
  | .purgeExpired _ => false

namespace MessageAssemblyState

variable {k : MessageKey} {s s' t u : MessageAssemblyState} {now later : Instant}

/-- The entry of `k` that a sweep at this reading leaves. -/
def alive (k : MessageKey) (s : MessageAssemblyState) (now : Instant) : Option PartialAssembly :=
  (s.assemblies.lookup k).filter fun p => !expired s.timeout now p

/-! ### What a sweep leaves -/

theorem lookup_purged_eq (k : MessageKey) (s : MessageAssemblyState) (now : Instant) :
    (s.purged now).assemblies.lookup k = s.alive k now :=
  AList.lookup_retain _ _ _

/-- What has expired stays expired. -/
theorem expired_mono {timeout : ℕ} {p : PartialAssembly} (hle : now ≤ later)
    (h : expired timeout now p = true) : expired timeout later p = true := by
  have helapsed : timeout ≤ now - p.startedAt := of_decide_eq_true h
  exact decide_eq_true (helapsed.trans (Nat.sub_le_sub_right hle _))

/-- An earlier sweep cannot be told from a later one. -/
theorem alive_purged (hle : now ≤ later) : (s.purged now).alive k later = s.alive k later := by
  have htimeout : (s.purged now).timeout = s.timeout := rfl
  rw [alive, lookup_purged_eq, htimeout, alive, alive, Option.filter_filter]
  congr 1
  funext p
  cases hexpired : expired s.timeout now p with
  | false => simp
  | true => simp [expired_mono hle hexpired]

/-- A call for another key leaves the entry of `k` as its sweep did. -/
theorem Outcome.lookup_other {call : AssemblyCall} {ret : AssemblyReturn}
    (h : t.Outcome call ret s') (hother : call.isFor k = false) :
    s'.assemblies.lookup k = t.assemblies.lookup k := by
  have hne : ∀ {key : MessageKey}, decide (key = k) = false → ¬ k = key := by
    intro key hkey heq
    exact absurd heq.symm (by simpa using hkey)
  cases h with
  | evicted _ | refused _ | single _ _ => rfl
  | dropped _ | completed _ _ _ => rw [AList.lookup_erase_eq, if_neg (hne hother)]
  | started _ _ _ => rw [AList.lookup_insert_eq, if_neg (hne hother)]
  | extended hextends _ =>
    rw [AList.lookup_replace_eq _ _ _ _ _ hextends.lookup, if_neg (hne hother)]

/-! ### Series errors -/

section SeriesErrors

variable {header : ContinuationFrameHeader} {body : ByteBuffer} {p : PartialAssembly}
  {err : MessageSeriesError}

theorem checkSizeLimit_ne_series {limit : NonZeroUsize} {key : MessageKey} {accumulated len : ℕ} :
    checkSizeLimit limit key accumulated len ≠ .error (.series err) := by
  unfold checkSizeLimit
  split
  · simp
  · split <;> simp

theorem checkAggregateBudgets_ne_series {key : MessageKey} {current additional : ℕ}
    {budgets : AggregateBudgets} :
    checkAggregateBudgets key current additional budgets ≠ .error (.series err) := by
  unfold checkAggregateBudgets checkBudget
  rcases budgets.connection with _ | connection
  · rcases budgets.inFlight with _ | inFlight
    · simp
    · simp only
      split <;> simp
  · rcases budgets.inFlight with _ | inFlight
    · simp only
      split_ifs <;> simp
    · simp only
      split_ifs <;> simp

theorem validateContinuation_ne_series {key : MessageKey} {declared accumulated len : ℕ} :
    validateContinuation key declared accumulated len ≠ .error (.series err) := by
  unfold validateContinuation
  split
  · simp
  · split <;> simp

/-- No admission check raises a series error. -/
theorem admitContinuation_ne_series {bodyLen total : ℕ} {limits : ContinuationLimits} :
    p.admitContinuation bodyLen total limits ≠ .error (.series err) := by
  intro h
  simp only [PartialAssembly.admitContinuation] at h
  rcases hsize : checkSizeLimit limits.maxMessageSize p.series.messageKey p.bodyLen bodyLen with
    err' | newLen
  · rw [hsize] at h
    obtain rfl := Except.error.inj h
    exact checkSizeLimit_ne_series hsize
  rcases hbudgets : checkAggregateBudgets p.series.messageKey total bodyLen limits.budgets with
    err' | _
  · rw [hsize, hbudgets] at h
    obtain rfl := Except.error.inj h
    exact checkAggregateBudgets_ne_series hbudgets
  rw [hsize, hbudgets] at h
  rcases hdeclared : p.declaredTotal with _ | declared
  · rw [hdeclared] at h
    cases h
  · rw [hdeclared] at h
    exact validateContinuation_ne_series h

/-- Nor does the check of a completed message. -/
theorem intoMessage_ne_series : p.intoMessage ≠ .error (.series err) := by
  unfold PartialAssembly.intoMessage validateCompletion
  rcases p.series.expectedTotal with _ | declared
  · simp
  · simp only
    split_ifs <;> simp

/-- A series error at the entry of the key: the entry goes exactly when the error is
unrecoverable, and otherwise the state stays as it was. -/
theorem continueEntry_series (hlookup : t.assemblies.lookup header.messageKey = some p)
    (h : t.continueEntry p header body = .ok (.error (.series err), s')) :
    s' = if isUnrecoverableContinuityError err then
      { t with assemblies := t.assemblies.erase header.messageKey } else t := by
  simp only [continueEntry, PartialAssembly.acceptContinuation] at h
  rcases haccept : p.series.acceptContinuation header with ⟨err' | status, series⟩
  · rw [haccept] at h
    simp only at h
    split at h
    · rename_i hclass
      obtain ⟨herr, rfl⟩ := Prod.mk.inj (Except.ok.inj h)
      obtain rfl : err' = err := by simpa using herr
      rw [if_pos hclass]
    · rename_i hclass
      obtain ⟨herr, rfl⟩ := Prod.mk.inj (Except.ok.inj h)
      obtain rfl : err' = err := by simpa using herr
      obtain rfl := MessageSeries.acceptContinuation_error haccept
      rw [if_neg hclass, AList.replace_self _ _ p hlookup]
  · rw [haccept] at h
    simp only at h
    split at h
    · rename_i hrefused
      obtain ⟨herr, -⟩ := Prod.mk.inj (Except.ok.inj h)
      rw [Except.error.inj herr] at hrefused
      exact absurd hrefused admitContinuation_ne_series
    split at h
    · cases h
    split at h
    · obtain ⟨hok, -⟩ := Prod.mk.inj (Except.ok.inj h)
      cases hok
    · obtain ⟨hmessage, -⟩ := Prod.mk.inj (Except.ok.inj h)
      exact absurd hmessage intoMessage_ne_series

/-! ### Classified errors -/

/-- What a series error leaves: no assembly of the frame's key if the error is classified as
unrecoverable, the swept state if it is not, and the assemblies of all other keys. -/
def LeavesAsClassified (t : MessageAssemblyState) (key : MessageKey) (err : MessageSeriesError)
    (s' : MessageAssemblyState) : Prop :=
  (if isUnrecoverableContinuityError err then s'.assemblies.lookup key = none else s' = t) ∧
    ∀ other, other ≠ key → s'.assemblies.lookup other = t.assemblies.lookup other

/-- Every series error that the call may return leaves the state as its class says. -/
def HonoursClasses (s : MessageAssemblyState) (header : ContinuationFrameHeader)
    (body : ByteBuffer) (now : Instant) : Prop :=
  ∀ err s', s.acceptContinuationFrameAt header body now = .ok (.error (.series err), s') →
    LeavesAsClassified (s.purged now) header.messageKey err s'

/-- A state that was left as it was is as the class of the error says, if there was nothing to
remove or the error is recoverable. -/
theorem leavesAsClassified_self {key : MessageKey} : LeavesAsClassified t key err t ↔
    (isUnrecoverableContinuityError err = true → t.assemblies.lookup key = none) := by
  constructor
  · rintro ⟨hself, -⟩ hclass
    rwa [if_pos hclass] at hself
  · intro hnone
    refine ⟨?_, fun other _ => rfl⟩
    split
    · rename_i hclass
      exact hnone hclass
    · rfl

/-- The effect of an error at the entry of the key is the one its class asks for. -/
theorem leavesAsClassified_of_eq {key : MessageKey}
    (h : s' = if isUnrecoverableContinuityError err then
      { t with assemblies := t.assemblies.erase key } else t) : LeavesAsClassified t key err s' := by
  cases hclass : isUnrecoverableContinuityError err with
  | true =>
    rw [hclass, if_pos rfl] at h
    subst h
    refine ⟨?_, fun other hother => ?_⟩
    · rw [if_pos hclass, AList.lookup_erase_eq, if_pos rfl]
    · rw [AList.lookup_erase_eq, if_neg hother]
  | false =>
    rw [hclass, if_neg Bool.false_ne_true] at h
    subst h
    exact leavesAsClassified_self.mpr fun htrue => absurd (hclass.symm.trans htrue) (by decide)

/-- **Series errors leave the state as their class says exactly when the length in the header is
right, or there is nothing to remove**: a wrong length is noticed before the entry of the key is
looked at. -/
theorem honoursClasses_iff (s : MessageAssemblyState) (header : ContinuationFrameHeader)
    (body : ByteBuffer) (now : Instant) :
    s.HonoursClasses header body now ↔ header.bodyLen = body.length ∨
      (s.purged now).assemblies.lookup header.messageKey = none := by
  by_cases hlength : header.bodyLen = body.length
  · refine ⟨fun _ => Or.inl hlength, fun _ err s' h => ?_⟩
    rw [acceptContinuationFrameAt, if_neg (not_not.mpr hlength)] at h
    rcases hlookup : (s.purgeExpiredAt now).2.assemblies.lookup header.messageKey with _ | p
    · rw [hlookup] at h
      cases h
      exact leavesAsClassified_self.mpr fun _ => hlookup
    · rw [hlookup] at h
      exact leavesAsClassified_of_eq (continueEntry_series hlookup h)
  · have hcall : s.acceptContinuationFrameAt header body now =
        .ok (.error (.series (.continuationBodyLengthMismatch header.messageKey header.bodyLen
          body.length)), s.purged now) := if_pos hlength
    constructor
    · intro hhonours
      exact Or.inr (leavesAsClassified_self.mp (hhonours _ _ hcall) rfl)
    · rintro (heq | hnone)
      · exact absurd heq hlength
      · intro err s' h
        obtain ⟨-, rfl⟩ := Prod.mk.inj (Except.ok.inj (hcall.symm.trans h))
        exact leavesAsClassified_self.mpr fun _ => hnone

/-- A message is open and a continuation for it declares two bytes but brings one: the error is
classified as unrecoverable, and the assembly stays. -/
theorem wrongLength_keeps_assembly : ∃ r s',
    Trace.exec AssemblyRun.step (AssemblyRun.start ⟨16, by decide, by decide⟩ 10 none none)
      [.firstFrame ⟨⟨⟨1⟩, 0, 1, none, false⟩, ⟨⟨5⟩, none⟩, ⟨[], by decide⟩, ⟨[1], by decide⟩⟩ 0] =
        some r ∧
    r.state.acceptContinuationFrameAt ⟨⟨1⟩, none, 2, false⟩ ⟨[9], by decide⟩ 1 =
      .ok (.error (.series (.continuationBodyLengthMismatch ⟨1⟩ 2 1)), s') ∧
    isUnrecoverableContinuityError (.continuationBodyLengthMismatch ⟨1⟩ 2 1) = true ∧
    (s'.assemblies.lookup ⟨1⟩).isSome = true ∧
    ¬ r.state.HonoursClasses ⟨⟨1⟩, none, 2, false⟩ ⟨[9], by decide⟩ 1 := by
  obtain ⟨r, s', hrun, hcall, hkept⟩ : ∃ r s',
      Trace.exec AssemblyRun.step (AssemblyRun.start ⟨16, by decide, by decide⟩ 10 none none)
        [.firstFrame ⟨⟨⟨1⟩, 0, 1, none, false⟩, ⟨⟨5⟩, none⟩, ⟨[], by decide⟩, ⟨[1], by decide⟩⟩ 0] =
          some r ∧
      r.state.acceptContinuationFrameAt ⟨⟨1⟩, none, 2, false⟩ ⟨[9], by decide⟩ 1 =
        .ok (.error (.series (.continuationBodyLengthMismatch ⟨1⟩ 2 1)), s') ∧
      (s'.assemblies.lookup ⟨1⟩).isSome = true := ⟨_, _, rfl, rfl, rfl⟩
  refine ⟨r, s', hrun, hcall, rfl, hkept, fun hhonours => ?_⟩
  have hremoved : s'.assemblies.lookup ⟨1⟩ = none := (hhonours _ _ hcall).1
  rw [hremoved] at hkept
  cases hkept

end SeriesErrors

/-! ### Two states alike for one key -/

/-- What a caller sees of a call for `k`: its result, and what is stored for `k` afterwards. -/
def seen (k : MessageKey) (out : AssemblyReturn × MessageAssemblyState) :
    AssemblyReturn × Option PartialAssembly :=
  (out.1, out.2.assemblies.lookup k)

/-- Two states, swept by a call for `k`, that the call cannot tell apart. -/
structure Alike (k : MessageKey) (t u : MessageAssemblyState) : Prop where
  entry : t.assemblies.lookup k = u.assemblies.lookup k
  size : t.maxMessageSize = u.maxMessageSize
  unlimited : t.budgets = ⟨none, none⟩
  unlimited' : u.budgets = ⟨none, none⟩

/-- Without budgets nothing but the entry of its key decides a first frame. -/
theorem acceptFirstFrameAt_alike {input : FirstFrameInput} (hkey : input.header.messageKey = k)
    (h : Alike k (s.purged now) (u.purged now)) :
    (s.acceptFirstFrameAt input now).1 = (u.acceptFirstFrameAt input now).1 ∧
      (s.acceptFirstFrameAt input now).2.assemblies.lookup k =
        (u.acceptFirstFrameAt input now).2.assemblies.lookup k := by
  subst hkey
  have hentry := h.entry
  have hsize := h.size
  have hbudgets : (s.purged now).budgets.isEnabled = false := by rw [h.unlimited]; rfl
  have hbudgets' : (u.purged now).budgets.isEnabled = false := by rw [h.unlimited']; rfl
  simp only [purged] at hentry hsize hbudgets hbudgets'
  simp only [acceptFirstFrameAt, hentry, hsize, hbudgets, hbudgets']
  split
  · exact ⟨rfl, hentry⟩
  split
  · exact ⟨rfl, hentry⟩
  split
  · exact ⟨rfl, hentry⟩
  split
  · exact ⟨rfl, hentry⟩
  · exact ⟨rfl, (AList.lookup_insert (s.purgeExpiredAt now).2.assemblies).trans
      (AList.lookup_insert (u.purgeExpiredAt now).2.assemblies).symm⟩

/-- The same for a continuation at the entry of its key. -/
theorem continueEntry_alike {header : ContinuationFrameHeader} (body : ByteBuffer)
    {p : PartialAssembly} (hkey : header.messageKey = k) (h : Alike k t u)
    (hentry : t.assemblies.lookup k = some p) :
    (t.continueEntry p header body).map (fun out => (out.1, out.2.assemblies.lookup k)) =
      (u.continueEntry p header body).map (fun out => (out.1, out.2.assemblies.lookup k)) := by
  subst hkey
  have hentry' := h.entry.symm.trans hentry
  have htotal : t.bufferedTotal = 0 := by rw [bufferedTotal, h.unlimited]; rfl
  have htotal' : u.bufferedTotal = 0 := by rw [bufferedTotal, h.unlimited']; rfl
  have hreplace : ∀ q, (t.assemblies.replace header.messageKey q).lookup header.messageKey =
      (u.assemblies.replace header.messageKey q).lookup header.messageKey := by
    intro q
    rw [AList.lookup_replace_eq _ _ _ _ _ hentry, AList.lookup_replace_eq _ _ _ _ _ hentry',
      if_pos rfl, if_pos rfl]
  have herase : (t.assemblies.erase header.messageKey).lookup header.messageKey =
      (u.assemblies.erase header.messageKey).lookup header.messageKey := by
    rw [AList.lookup_erase, AList.lookup_erase]
  simp only [continueEntry, htotal, htotal', h.size, h.unlimited, h.unlimited']
  rcases p.acceptContinuation header with ⟨err | status, q⟩
  · simp only
    split
    · simp only [Except.map, herase]
    · simp only [Except.map, hreplace]
  · simp only
    split
    · simp only [Except.map, herase]
    split
    · rfl
    · cases status with
      | incomplete => simp only [Except.map, hreplace]
      | complete => simp only [Except.map, herase]

/-- **A call for `k` depends on the entry of `k` alone**: its result, a panic included, and what it
leaves stored. -/
theorem call_alike {call : AssemblyCall} (hfor : call.isFor k = true)
    (h : Alike k (s.purged call.now) (u.purged call.now)) :
    (s.call call).map (seen k) = (u.call call).map (seen k) := by
  cases call with
  | purgeExpired now => exact absurd hfor Bool.false_ne_true
  | firstFrame input now =>
    obtain ⟨hresult, hstored⟩ := acceptFirstFrameAt_alike (of_decide_eq_true hfor) h
    simp only [AssemblyCall.now] at hresult hstored
    simp only [MessageAssemblyState.call, Except.map, seen, hresult, hstored]
  | continuationFrame header body now =>
    simp only [AssemblyCall.now] at h
    have hkey : header.messageKey = k := of_decide_eq_true hfor
    have hentry : (s.purgeExpiredAt now).2.assemblies.lookup header.messageKey =
        (u.purgeExpiredAt now).2.assemblies.lookup header.messageKey := hkey ▸ h.entry
    simp only [MessageAssemblyState.call, acceptContinuationFrameAt, hentry]
    split
    · exact congrArg (fun e => Except.ok (_, e)) h.entry
    · split
      · exact congrArg (fun e => Except.ok (_, e)) h.entry
      · rename_i p hp
        have hsame := continueEntry_alike body hkey h (hkey ▸ hentry.trans hp)
        have hframe := congrArg (Except.map fun out => (AssemblyReturn.frame out.1, out.2)) hsame
        simp only [Except.map_map] at hframe ⊢
        exact hframe

end MessageAssemblyState

/-! ## Runs -/

namespace AssemblyRun

variable {k : MessageKey} {r r' q q' : AssemblyRun} {call : AssemblyCall}

/-- No call of the run was made after this reading. -/
def Before (r : AssemblyRun) (now : Instant) : Prop := ∀ e ∈ r.log, e.1.now ≤ now

/-- The results of the calls for `k`, with the calls. -/
def resultsFor (k : MessageKey) (r : AssemblyRun) : List (AssemblyCall × AssemblyReturn) :=
  r.log.filter fun e => e.1.isFor k

/-- **The relation between a run and the run of its calls for `k` alone.**  From now on both agree
on the entry of `k` that a sweep would leave, and they have returned the same. -/
structure Isolated (k : MessageKey) (r q : AssemblyRun) : Prop where
  entry : ∀ now, r.Before now → r.state.alive k now = q.state.alive k now
  size : r.state.maxMessageSize = q.state.maxMessageSize
  timeout : r.state.timeout = q.state.timeout
  unlimited : r.state.budgets = ⟨none, none⟩
  unlimited' : q.state.budgets = ⟨none, none⟩
  results : r.resultsFor k = q.log

theorem resultsFor_concat {ret : AssemblyReturn} (h : r'.log = r.log ++ [(call, ret)]) :
    r'.resultsFor k = r.resultsFor k ++ if call.isFor k then [(call, ret)] else [] := by
  rw [resultsFor, h, List.filter_append, resultsFor]
  cases hfor : call.isFor k <;> simp [hfor]

theorem before_concat {ret : AssemblyReturn} {now : Instant}
    (h : r'.log = r.log ++ [(call, ret)]) : r'.Before now ↔ r.Before now ∧ call.now ≤ now := by
  unfold Before
  rw [h]
  simp [or_imp, forall_and]

/-- No call changes the settings. -/
theorem step_settings (h : r.step call = some r') :
    r'.state.maxMessageSize = r.state.maxMessageSize ∧ r'.state.timeout = r.state.timeout ∧
      r'.state.budgets = r.state.budgets := by
  obtain ⟨ret, houtcome, -⟩ := step_cases h
  exact ⟨houtcome.settings.1, houtcome.timeout, houtcome.settings.2⟩

/-! ### Steps -/

/-- A call for another key changes the run alone. -/
theorem Isolated.step_other (h : Isolated k r q) (hother : call.isFor k = false)
    (hstep : r.step call = some r') : Isolated k r' q := by
  obtain ⟨hsize, htimeout, hbudgets⟩ := step_settings hstep
  obtain ⟨ret, houtcome, hlog⟩ := step_cases hstep
  refine ⟨?_, hsize.trans h.size, htimeout.trans h.timeout, hbudgets.trans h.unlimited,
    h.unlimited', ?_⟩
  · intro now hbefore
    obtain ⟨hearlier, hnow⟩ := (before_concat hlog).mp hbefore
    calc r'.state.alive k now = (r.state.purged call.now).alive k now := by
          unfold MessageAssemblyState.alive
          rw [houtcome.lookup_other hother, htimeout]
          rfl
      _ = r.state.alive k now := MessageAssemblyState.alive_purged hnow
      _ = q.state.alive k now := h.entry now hearlier
  · rw [resultsFor_concat hlog, hother, h.results]
    simp

/-- A call for `k` does the same in both runs. -/
theorem Isolated.step_for (h : Isolated k r q) (hfor : call.isFor k = true)
    (hbefore : r.Before call.now) :
    (r.state.call call).map (MessageAssemblyState.seen k) =
      (q.state.call call).map (MessageAssemblyState.seen k) := by
  refine MessageAssemblyState.call_alike hfor ⟨?_, h.size, h.unlimited, h.unlimited'⟩
  rw [MessageAssemblyState.lookup_purged_eq, MessageAssemblyState.lookup_purged_eq]
  exact h.entry call.now hbefore

/-- A call for `k` does the same in both runs. -/
theorem Isolated.step (h : Isolated k r q) (hfor : call.isFor k = true)
    (hbefore : r.Before call.now) (hstep : r.step call = some r') :
    ∃ q', q.step call = some q' ∧ Isolated k r' q' := by
  obtain ⟨hsize, htimeout, hbudgets⟩ := step_settings hstep
  have hsame := h.step_for hfor hbefore
  rw [AssemblyRun.step] at hstep
  split at hstep
  · rename_i ret state hcall
    cases hstep
    rw [hcall] at hsame
    obtain ⟨⟨ret', state'⟩, hcall', hseen⟩ := Except.map_eq_ok hsame.symm
    obtain ⟨rfl, hentry⟩ := Prod.mk.inj hseen
    have hstep' : q.step call = some ⟨state', q.log ++ [(call, ret')]⟩ := by
      rw [AssemblyRun.step, hcall']
    obtain ⟨hsize', htimeout', hbudgets'⟩ := step_settings hstep'
    refine ⟨_, hstep', ?_, ?_, ?_, hbudgets.trans h.unlimited, hbudgets'.trans h.unlimited', ?_⟩
    · intro now _
      unfold MessageAssemblyState.alive
      simp only at hentry htimeout htimeout' ⊢
      rw [htimeout, htimeout', h.timeout, hentry]
    · exact hsize.trans (h.size.trans hsize'.symm)
    · exact htimeout.trans (h.timeout.trans htimeout'.symm)
    · rw [resultsFor_concat rfl, hfor, h.results]
      rfl
  · cases hstep

/-! ### Whole runs -/

/-- A run whose readings do not go back is isolated from the calls for other keys. -/
theorem exec_isolated {calls : List AssemblyCall} (h : Isolated k r q)
    (hordered : (calls.map AssemblyCall.now).Pairwise (· ≤ ·))
    (hbefore : ∀ call ∈ calls, r.Before call.now)
    (hrun : Trace.exec AssemblyRun.step r calls = some r') :
    ∃ q', Trace.exec AssemblyRun.step q (calls.filter (AssemblyCall.isFor k)) = some q' ∧
      Isolated k r' q' := by
  induction calls generalizing r q with
  | nil =>
    obtain rfl : r = r' := by simpa [Trace.exec] using hrun
    exact ⟨q, rfl, h⟩
  | cons call calls ih =>
    obtain ⟨t, hstep, hrest⟩ := Trace.exec_cons_eq_some hrun
    rw [List.map_cons, List.pairwise_cons] at hordered
    have hbefore' : ∀ c ∈ calls, t.Before c.now := by
      obtain ⟨ret, -, hlog⟩ := step_cases hstep
      intro c hc
      exact (before_concat hlog).mpr ⟨hbefore c (List.mem_cons_of_mem _ hc),
        hordered.1 _ (List.mem_map_of_mem hc)⟩
    cases hfor : call.isFor k with
    | false =>
      rw [List.filter_cons_of_neg (by simp [hfor])]
      exact ih (h.step_other hfor hstep) hordered.2 hbefore' hrest
    | true =>
      obtain ⟨q', hstep', hisolated⟩ := h.step hfor (hbefore call (by simp)) hstep
      obtain ⟨q'', hrest', hend⟩ := ih hisolated hordered.2 hbefore' hrest
      refine ⟨q'', ?_, hend⟩
      rw [List.filter_cons_of_pos hfor, Trace.exec, hstep']
      exact hrest'

theorem isolated_start (k : MessageKey) (maxMessageSize : NonZeroUsize) (timeout : ℕ) :
    Isolated k (start maxMessageSize timeout none none) (start maxMessageSize timeout none none) :=
  ⟨fun _ _ => rfl, rfl, rfl, rfl, rfl, rfl⟩

/-- **Messages do not interfere.**  Two fresh states with the same limit and time-out, and no
aggregate budgets, are given frames whose timestamps do not go back.  If the frames for `k` and
their timestamps are the same, the calls for `k` return the same, whatever the other frames are;
and so does the next call for `k`, even if it panics. -/
theorem results_independent {maxMessageSize : NonZeroUsize} {timeout : ℕ}
    {calls₁ calls₂ : List AssemblyCall} {r₁ r₂ : AssemblyRun} (k : MessageKey)
    (hordered₁ : (calls₁.map AssemblyCall.now).Pairwise (· ≤ ·))
    (hordered₂ : (calls₂.map AssemblyCall.now).Pairwise (· ≤ ·))
    (hagree : calls₁.filter (AssemblyCall.isFor k) = calls₂.filter (AssemblyCall.isFor k))
    (hrun₁ : Trace.exec AssemblyRun.step (start maxMessageSize timeout none none) calls₁ = some r₁)
    (hrun₂ : Trace.exec AssemblyRun.step (start maxMessageSize timeout none none) calls₂ = some r₂) :
    r₁.resultsFor k = r₂.resultsFor k ∧
    ∀ call : AssemblyCall, call.isFor k = true → r₁.Before call.now → r₂.Before call.now →
      (r₁.state.call call).map Prod.fst = (r₂.state.call call).map Prod.fst := by
  have hfresh : ∀ {calls : List AssemblyCall}, ∀ call ∈ calls,
      (start maxMessageSize timeout none none).Before call.now :=
    fun _ _ _ he => absurd he (by simp [start])
  obtain ⟨q₁, hq₁, h₁⟩ :=
    exec_isolated (isolated_start k maxMessageSize timeout) hordered₁ hfresh hrun₁
  obtain ⟨q₂, hq₂, h₂⟩ :=
    exec_isolated (isolated_start k maxMessageSize timeout) hordered₂ hfresh hrun₂
  -- both are compared with the same run
  obtain rfl : q₁ = q₂ := Option.some.inj (hq₁.symm.trans (hagree ▸ hq₂))
  refine ⟨h₁.results.trans h₂.results.symm, fun call hfor hbefore₁ hbefore₂ => ?_⟩
  have hseen := (h₁.step_for hfor hbefore₁).trans (h₂.step_for hfor hbefore₂).symm
  have hresult := congrArg (Except.map Prod.fst) hseen
  simp only [Except.map_map] at hresult
  exact hresult

/-- The two frames of message 1, with frames of other messages in between. -/
def mixedCalls (others : List AssemblyCall) : List AssemblyCall :=
  [.firstFrame ⟨⟨⟨1⟩, 0, 2, none, false⟩, ⟨⟨5⟩, none⟩, ⟨[], Nat.zero_le _⟩, ⟨[1, 2], by decide⟩⟩ 0] ++
    others ++ [.continuationFrame ⟨⟨1⟩, none, 1, true⟩ ⟨[3], by decide⟩ 12]

/-- A frame of message 2 at time 11 removes the expired message 1, and the continuation finds it
gone as it does without that frame. -/
theorem results_independent_expired :
    ∃ r₁ r₂, Trace.exec AssemblyRun.step (start ⟨16, by decide, by decide⟩ 10 none none)
        (mixedCalls []) = some r₁ ∧
      Trace.exec AssemblyRun.step (start ⟨16, by decide, by decide⟩ 10 none none)
        (mixedCalls [.continuationFrame ⟨⟨2⟩, none, 0, true⟩ ⟨[], by decide⟩ 11]) = some r₂ ∧
      r₁.resultsFor ⟨1⟩ = r₂.resultsFor ⟨1⟩ := by
  have hrun₁ : (Trace.exec AssemblyRun.step (start ⟨16, by decide, by decide⟩ 10 none none)
      (mixedCalls [])).isSome = true := by decide
  have hrun₂ : (Trace.exec AssemblyRun.step (start ⟨16, by decide, by decide⟩ 10 none none)
      (mixedCalls [.continuationFrame ⟨⟨2⟩, none, 0, true⟩ ⟨[], by decide⟩ 11])).isSome = true := by
    decide
  refine ⟨_, _, (Option.some_get hrun₁).symm, (Option.some_get hrun₂).symm, ?_⟩
  exact (results_independent ⟨1⟩ (by decide) (by decide) (by decide) (Option.some_get hrun₁).symm
    (Option.some_get hrun₂).symm).1

end AssemblyRun

end Wireframe
