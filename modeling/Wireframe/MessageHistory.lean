/-
# What a completed message is made of

The log of a run tells, for each key, which first frame was accepted last and which
continuations were accepted since (`history`).  Every stored assembly is what the history of
its key says, through expiry, rejections and removals (`Recorded`), so a completed message
carries exactly the frames that were accepted for its key.
-/
import Mathlib.Tactic
import Wireframe.MessageAssemblySteps
import Wireframe.Trace

namespace Wireframe

/-! ## What was accepted -/

/-- The first frame accepted last for a key, and the continuations accepted since. -/
structure AcceptedFrames where
  first : FirstFrameInput
  continuations : List ByteBuffer

/-- The bodies of the accepted frames, in acceptance order. -/
def AcceptedFrames.body (a : AcceptedFrames) : List Byte :=
  a.first.body.toList ++ (a.continuations.map ByteBuffer.toList).flatten

/-- A call is accepted when it returns `Ok`. -/
def record (key : MessageKey) (accepted : Option AcceptedFrames) :
    AssemblyCall × AssemblyReturn → Option AcceptedFrames
  | (.firstFrame input _, .frame (.ok _)) =>
    if input.header.messageKey = key then some ⟨input, []⟩ else accepted
  | (.continuationFrame header body _, .frame (.ok _)) =>
    if header.messageKey = key then
      accepted.map fun a => { a with continuations := a.continuations ++ [body] }
    else accepted
  | _ => accepted

/-- The frames of `key` that a log says are accepted. -/
def history (key : MessageKey) (log : List (AssemblyCall × AssemblyReturn)) :
    Option AcceptedFrames :=
  log.foldl (record key) none

/-- The key of the frame a call brings. -/
def AssemblyCall.key? : AssemblyCall → Option MessageKey
  | .firstFrame input _ => some input.header.messageKey
  | .continuationFrame header _ _ => some header.messageKey
  | .purgeExpired _ => none

section Record

variable {key : MessageKey} {accepted : Option AcceptedFrames}
  {log : List (AssemblyCall × AssemblyReturn)} {call : AssemblyCall} {ret : AssemblyReturn}

theorem history_concat (key : MessageKey) (log : List (AssemblyCall × AssemblyReturn))
    (entry : AssemblyCall × AssemblyReturn) :
    history key (log ++ [entry]) = record key (history key log) entry := by
  rw [history, List.foldl_append]
  rfl

/-- Calls for other keys are not part of the history of `key`. -/
theorem record_of_ne (h : call.key? ≠ some key) : record key accepted (call, ret) = accepted := by
  cases call with
  | purgeExpired now => rfl
  | firstFrame input now =>
    have hne : ¬ input.header.messageKey = key := fun heq => h (congrArg some heq)
    rcases ret with (err | message) | keys
    · rfl
    · exact if_neg hne
    · rfl
  | continuationFrame header body now =>
    have hne : ¬ header.messageKey = key := fun heq => h (congrArg some heq)
    rcases ret with (err | message) | keys
    · rfl
    · exact if_neg hne
    · rfl

theorem record_error {err : MessageAssemblyError} :
    record key accepted (call, .frame (.error err)) = accepted := by
  cases call <;> rfl

theorem record_first {input : FirstFrameInput} {now : Instant} {message : Option AssembledMessage} :
    record input.header.messageKey accepted (.firstFrame input now, .frame (.ok message)) =
      some ⟨input, []⟩ :=
  if_pos rfl

theorem record_continuation {header : ContinuationFrameHeader} {body : ByteBuffer} {now : Instant}
    {message : Option AssembledMessage} (a : AcceptedFrames) :
    record header.messageKey (some a) (.continuationFrame header body now, .frame (.ok message)) =
      some { a with continuations := a.continuations ++ [body] } :=
  if_pos rfl

end Record

/-! ## Stored assemblies are their histories -/

/-- The assembly holds what was accepted for its key. -/
structure PartialAssembly.Holds (p : PartialAssembly) (a : AcceptedFrames) : Prop where
  declared : p.declaredTotal = a.first.header.totalBodyLen
  routing : p.routing = a.first.routing
  metadata : p.metadata = a.first.metadata
  body : p.body.toList = a.body

theorem holds_fromFirstFrame (input : FirstFrameInput) (now : Instant) :
    (PartialAssembly.fromFirstFrame input now).Holds ⟨input, []⟩ where
  declared := rfl
  routing := rfl
  metadata := rfl
  body := by
    simp [PartialAssembly.fromFirstFrame, AcceptedFrames.body]

/-- An accepted continuation is appended on both sides. -/
theorem MessageAssemblyState.Extends.holds {t : MessageAssemblyState}
    {header : ContinuationFrameHeader} {body : ByteBuffer} {p p' : PartialAssembly}
    {a : AcceptedFrames} (h : t.Extends header body p p') (hp : p.Holds a) :
    p'.Holds { a with continuations := a.continuations ++ [body] } where
  declared := h.declared'.trans hp.declared
  routing := h.routing'.trans hp.routing
  metadata := h.metadata'.trans hp.metadata
  body := by
    rw [h.body', hp.body]
    simp [AcceptedFrames.body]

/-! ### Runs -/

namespace AssemblyRun

variable {r r' : AssemblyRun} {call : AssemblyCall}

/-- Every stored assembly holds what the log says was accepted for its key. -/
def Recorded (r : AssemblyRun) : Prop :=
  ∀ key p, r.state.assemblies.lookup key = some p →
    ∃ a, history key r.log = some a ∧ p.Holds a

/-- The same for the assemblies a purge keeps. -/
theorem Recorded.purged (hr : r.Recorded) {key : MessageKey} {p : PartialAssembly} {now : Instant}
    (h : (r.state.purged now).assemblies.lookup key = some p) :
    ∃ a, history key r.log = some a ∧ p.Holds a :=
  hr key p (MessageAssemblyState.lookup_purged h)

/-- **Step lemma**: what a call stores is what it adds to the log. -/
theorem step_recorded (h : r.step call = some r') (hr : r.Recorded) : r'.Recorded := by
  obtain ⟨ret, houtcome, hlog⟩ := step_cases h
  intro key p hp
  rw [hlog, history_concat]
  -- an assembly of another key, or one the call leaves alone, keeps its history
  have hsame : record key (history key r.log) (call, ret) = history key r.log →
      (r.state.purged call.now).assemblies.lookup key = some p →
      ∃ a, record key (history key r.log) (call, ret) = some a ∧ p.Holds a := by
    intro hrecord hkept
    rw [hrecord]
    exact hr.purged hkept
  generalize hstate : r'.state = s' at houtcome hp
  cases houtcome with
  | evicted keys => exact hsame rfl hp
  | refused err => exact hsame record_error hp
  | dropped err =>
    rw [AList.lookup_erase_eq] at hp
    split_ifs at hp
    exact hsame record_error hp
  | @single input now hopens hlast =>
    refine hsame (record_of_ne ?_) hp
    rintro ⟨⟩
    exact absurd (hopens.fresh.symm.trans hp) (by simp)
  | @started input now hopens hlast _ =>
    rw [AList.lookup_insert_eq] at hp
    split_ifs at hp with hkey
    · subst hkey
      cases hp
      exact ⟨_, record_first, holds_fromFirstFrame input now⟩
    · refine hsame (record_of_ne ?_) hp
      rintro ⟨⟩
      exact hkey rfl
  | @extended header body now q q' hextends hlast =>
    rw [AList.lookup_replace_eq _ _ _ _ _ hextends.lookup] at hp
    split_ifs at hp with hkey
    · subst hkey
      cases hp
      obtain ⟨a, ha, hq⟩ := hr.purged hextends.lookup
      rw [ha]
      exact ⟨_, record_continuation a, hextends.holds hq⟩
    · refine hsame (record_of_ne ?_) hp
      rintro ⟨⟩
      exact hkey rfl
  | @completed header body now q q' hextends hlast hdeclared =>
    rw [AList.lookup_erase_eq] at hp
    split_ifs at hp with hkey
    refine hsame (record_of_ne ?_) hp
    rintro ⟨⟩
    exact hkey rfl

theorem exec_recorded {maxMessageSize : NonZeroUsize} {timeout : ℕ}
    {connectionBudget inFlightBudget : Option NonZeroUsize} {calls : List AssemblyCall}
    (h : Trace.exec step (start maxMessageSize timeout connectionBudget inFlightBudget) calls =
      some r) : r.Recorded := by
  refine Trace.exec_invariant (fun t call t' ht hstep => step_recorded hstep ht) ?_ h
  intro key p hp
  exact absurd hp (by simp [start, MessageAssemblyState.withBudgets])

/-! ### Completed messages -/

/-- **A completed message is what was accepted for its key.**  After any calls on a fresh
state, a call that returns a message has brought a frame of its key; the message carries the
routing and the metadata of the first frame accepted last for that key, and the bodies of that
frame and of all continuations accepted since; a declared total is met exactly; and no assembly
of the key is left. -/
theorem completed_message {maxMessageSize : NonZeroUsize} {timeout : ℕ}
    {connectionBudget inFlightBudget : Option NonZeroUsize} {calls : List AssemblyCall}
    {message : AssembledMessage} {s' : MessageAssemblyState}
    (hrun : Trace.exec step (start maxMessageSize timeout connectionBudget inFlightBudget) calls =
      some r)
    (hcall : r.state.call call = .ok (.frame (.ok (some message)), s')) :
    call.key? = some message.messageKey ∧
    (∃ a, history message.messageKey (r.log ++ [(call, .frame (.ok (some message)))]) = some a ∧
      message.routing = a.first.routing ∧ message.metadata = a.first.metadata ∧
      message.body.toList = a.body ∧
      ∀ d, a.first.header.totalBodyLen = some d → message.body.length = d) ∧
    s'.assemblies.lookup message.messageKey = none := by
  have hr : r.Recorded := exec_recorded hrun
  rw [history_concat]
  have houtcome := MessageAssemblyState.call_outcome hcall
  cases houtcome with
  | @single input now hopens hlast =>
    refine ⟨rfl, ⟨_, record_first, rfl, rfl, ?_, fun d hd => ?_⟩, hopens.fresh⟩
    · simp [AcceptedFrames.body]
    · exact ((hopens.declared d hd).2 hlast).symm
  | @completed header body now p p' hextends hlast hdeclared =>
    obtain ⟨a, ha, hp⟩ := hr.purged hextends.lookup
    have hp' := hextends.holds hp
    refine ⟨rfl, ⟨_, ?_, hp'.routing, hp'.metadata, hp'.body, fun d hd => ?_⟩, ?_⟩
    · rw [ha]
      exact record_continuation a
    · exact hdeclared d (hp'.declared.trans hd)
    · exact AList.lookup_erase _ _

/-- Two messages interleaved, the second with a declared total. -/
def interleavedCalls : List AssemblyCall :=
  [.firstFrame ⟨⟨⟨1⟩, 1, 2, none, false⟩, ⟨⟨5⟩, none⟩, ⟨[9], by decide⟩, ⟨[10, 11], by decide⟩⟩ 0,
    .firstFrame ⟨⟨⟨2⟩, 0, 1, some 3, false⟩, ⟨⟨6⟩, none⟩, ⟨[], by decide⟩, ⟨[20], by decide⟩⟩ 1,
    .continuationFrame ⟨⟨1⟩, some ⟨1⟩, 1, false⟩ ⟨[12], by decide⟩ 2]

theorem completed_message_interleaved :
    ∃ r s' message,
      Trace.exec step (start ⟨16, by decide, by decide⟩ 10 none none) interleavedCalls = some r ∧
      r.state.call (.continuationFrame ⟨⟨2⟩, none, 2, true⟩ ⟨[21, 22], by decide⟩ 3) =
        .ok (.frame (.ok (some message)), s') ∧
      message.body.toList = [20, 21, 22] ∧ s'.assemblies.lookup message.messageKey = none ∧
      (s'.assemblies.lookup ⟨1⟩).isSome = true := by
  have hmessage : ∃ r s',
      Trace.exec step (start ⟨16, by decide, by decide⟩ 10 none none) interleavedCalls = some r ∧
      r.state.call (.continuationFrame ⟨⟨2⟩, none, 2, true⟩ ⟨[21, 22], by decide⟩ 3) =
        .ok (.frame (.ok (some ⟨⟨2⟩, ⟨⟨6⟩, none⟩, ⟨[], by decide⟩, ⟨[20, 21, 22], by decide⟩⟩)), s') ∧
      (s'.assemblies.lookup ⟨1⟩).isSome = true := ⟨_, _, rfl, rfl, rfl⟩
  obtain ⟨r, s', hrun, hcall, hother⟩ := hmessage
  exact ⟨r, s', _, hrun, hcall, rfl, (completed_message hrun hcall).2.2, hother⟩

end AssemblyRun

end Wireframe
