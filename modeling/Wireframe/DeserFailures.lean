/-
# Counting malformed frames

Three stages share the counter of malformed frames through trackers of their own, and only a
frame that gets through all of them resets it.  `Counts` says what one frame does to the counter,
by its verdict; `failuresSince` reads the counter off the history of verdicts, and
`counts_failures` puts the two together for every run of the connection.
-/
import Mathlib.Tactic
import Wireframe.InboundHandler

namespace Wireframe

namespace FrameVerdict

def isFailed : FrameVerdict → Bool
  | .failed _ => true
  | _ => false

def isDispatched : FrameVerdict → Bool
  | .dispatched _ => true
  | _ => false

def isRefused : FrameVerdict → Bool
  | .refused _ => true
  | _ => false

/-- The request that a frame completed. -/
def request? : FrameVerdict → Option Envelope
  | .dispatched envelope => some envelope
  | _ => none

end FrameVerdict

/-! ## Counting failures -/

/-- The frames that failed since the last one that was dispatched, or since the start. -/
def failuresSince (verdicts : List FrameVerdict) : ℕ :=
  (verdicts.reverse.takeWhile fun v => !v.isDispatched).countP FrameVerdict.isFailed

theorem failuresSince_concat (verdicts : List FrameVerdict) (v : FrameVerdict) :
    failuresSince (verdicts ++ [v]) =
      if v.isDispatched then 0 else failuresSince verdicts + if v.isFailed then 1 else 0 := by
  unfold failuresSince
  rw [List.reverse_concat, List.takeWhile_cons]
  cases v <;> simp [FrameVerdict.isDispatched, FrameVerdict.isFailed, List.countP_cons]

/-- What a frame with this verdict does to the counter, and what handling it returns. -/
def Counts (before : ℕ) (result : Except InboundError Unit) (after : ℕ) : FrameVerdict → Prop
  | .failed _ => recordFailure before maxDeserFailures = (result, after)
  | .refused err => result = .error (.fragmentCap err) ∧ after = before
  | .incomplete => result = .ok () ∧ after = before
  | .dispatched _ => result = .ok () ∧ after = 0

/-- One more malformed frame below the threshold. -/
theorem recordFailure_of_lt {count : ℕ} (h : count < maxDeserFailures) :
    recordFailure count maxDeserFailures =
      (if count + 1 = maxDeserFailures then .error .tooManyDeserializationFailures else .ok (),
        count + 1) := by
  have hsmall : min (count + 1) u32Max = count + 1 := by
    refine Nat.min_eq_left ?_
    simp only [maxDeserFailures, u32Max] at *
    omega
  have hreached : maxDeserFailures ≤ count + 1 ↔ count + 1 = maxDeserFailures := by omega
  simp only [recordFailure, hsmall, hreached]

/-- What a frame does to a counter below the threshold. -/
theorem Counts.exact {before after : ℕ} {result : Except InboundError Unit} {v : FrameVerdict}
    (h : Counts before result after v) (hbelow : before < maxDeserFailures) :
    after = (if v.isDispatched then 0 else before + if v.isFailed then 1 else 0) ∧
      (result ≠ .ok () ↔ v.isRefused = true ∨ after = maxDeserFailures) := by
  cases v with
  | failed context =>
    have hrecord := (recordFailure_of_lt hbelow).symm.trans h
    cases hrecord
    refine ⟨rfl, ?_⟩
    by_cases hreached : before + 1 = maxDeserFailures
    · simp [hreached]
    · simp [hreached, FrameVerdict.isRefused]
  | refused err =>
    obtain ⟨rfl, rfl⟩ := h
    simp [FrameVerdict.isDispatched, FrameVerdict.isFailed, FrameVerdict.isRefused]
  | incomplete =>
    obtain ⟨rfl, rfl⟩ := h
    simp [FrameVerdict.isDispatched, FrameVerdict.isFailed, FrameVerdict.isRefused]
    omega
  | dispatched envelope =>
    obtain ⟨rfl, rfl⟩ := h
    simp [FrameVerdict.isDispatched, FrameVerdict.isRefused, maxDeserFailures]

/-! ## One frame -/

section Frames

variable {Fr Err : Type} {cfg : StreamSettings Fr Err} {s s' : InboundState} {frame : Fr}
  {reassembledAt assembledAt : Instant}

/-- Which stages have seen the frame, and what they left of the connection's buffers. -/
inductive Staged (cfg : StreamSettings Fr Err) (reassembledAt assembledAt : Instant)
    (s s' : InboundState) : Prop where
  | undecoded (hfragmentation : s'.fragmentation = s.fragmentation)
      (hassembly : s'.messageAssembly = s.messageAssembly)
  | reassembled {envelope : Envelope} {outcome : StageOutcome Envelope}
      (hreassemble : reassembleIfNeeded cfg s.fragmentation envelope reassembledAt =
        .ok (outcome, s'.fragmentation))
      (hassembly : s'.messageAssembly = s.messageAssembly)
  | assembled {envelope₁ envelope₂ : Envelope} {outcome : StageOutcome Envelope}
      (hreassemble : reassembleIfNeeded cfg s.fragmentation envelope₁ reassembledAt =
        .ok (.passed (some envelope₂), s'.fragmentation))
      (hassemble : assembleIfNeeded cfg s.messageAssembly envelope₂ assembledAt =
        .ok (outcome, s'.messageAssembly))

theorem decide_passed (envelope : Envelope) (next : Envelope → Except Panic FrameVerdict) :
    (StageOutcome.passed (some envelope)).decide next = next envelope := rfl

/-- A stage hands an envelope on, or decides what becomes of the frame and of the counter. -/
theorem settle_cases (count : ℕ) (outcome : StageOutcome Envelope) :
    (∃ envelope, outcome = .passed (some envelope) ∧
      settle count maxDeserFailures outcome = (.ok (some envelope), count)) ∨
    ∃ v result after, (∀ next, outcome.decide next = .ok v) ∧ v.request? = none ∧
      settle count maxDeserFailures outcome = (result, after) ∧
      ((∃ err, result = .error err) ∨ result = .ok none) ∧
      Counts count (result.map fun _ => ()) after v := by
  cases outcome with
  | passed value =>
    cases value with
    | some envelope => exact Or.inl ⟨envelope, rfl, rfl⟩
    | none =>
      exact Or.inr ⟨.incomplete, .ok none, count, fun _ => rfl, rfl, rfl, Or.inr rfl, rfl, rfl⟩
  | refused err =>
    exact Or.inr ⟨.refused err, _, count, fun _ => rfl, rfl, rfl, Or.inl ⟨_, rfl⟩, rfl, rfl⟩
  | failed context =>
    refine Or.inr ⟨.failed context, ?_⟩
    unfold settle
    rcases hrecord : recordFailure count maxDeserFailures with ⟨err | _, after⟩
    · exact ⟨_, after, fun _ => rfl, rfl, rfl, Or.inl ⟨err, rfl⟩, hrecord⟩
    · exact ⟨_, after, fun _ => rfl, rfl, rfl, Or.inr rfl, hrecord⟩

/-- **What a frame does**, decided by the first stage that does not hand it on; the envelope that is
built is the one the verdict names. -/
theorem build_cases {result : Except InboundError (Option Envelope)}
    (h : buildDispatchableEnvelope cfg s frame reassembledAt assembledAt = .ok (result, s')) :
    ∃ v, frameVerdict cfg s frame reassembledAt assembledAt = .ok v ∧
      v.request? = result.toOption.join ∧
      Counts s.deserFailures (result.map fun _ => ()) s'.deserFailures v ∧
      Staged cfg reassembledAt assembledAt s s' := by
  unfold buildDispatchableEnvelope at h
  unfold frameVerdict
  rcases settle_cases s.deserFailures (decodeEnvelope cfg frame) with ⟨envelope₁, hdecode, hsettle⟩ |
    ⟨v, _, after, hdecide, hnone, hsettle, hstop, hcounts⟩
  case inr =>
    rw [hdecide]
    rcases hstop with ⟨err, rfl⟩ | rfl
    all_goals
      simp only [hsettle] at h
      cases h
      exact ⟨v, rfl, hnone, hcounts, .undecoded rfl rfl⟩
  simp only [hsettle] at h
  rw [hdecode, decide_passed]
  rcases hreassemble : reassembleIfNeeded cfg s.fragmentation envelope₁ reassembledAt with
    panic | ⟨outcome, fragmentation⟩
  · rw [hreassemble] at h
    cases h
  simp only [hreassemble] at h
  rcases settle_cases s.deserFailures outcome with ⟨envelope₂, rfl, hsettle⟩ |
    ⟨v, _, after, hdecide, hnone, hsettle, hstop, hcounts⟩
  case inr =>
    refine ⟨v, hdecide _, ?_⟩
    rcases hstop with ⟨err, rfl⟩ | rfl
    all_goals
      simp only [hsettle] at h
      cases h
      exact ⟨hnone, hcounts, .reassembled hreassemble rfl⟩
  simp only [hsettle] at h
  simp only [decide_passed]
  rcases hassemble : assembleIfNeeded cfg s.messageAssembly envelope₂ assembledAt with
    panic | ⟨outcome, messageAssembly⟩
  · rw [hassemble] at h
    cases h
  simp only [hassemble] at h
  rcases settle_cases s.deserFailures outcome with ⟨envelope₃, rfl, hsettle⟩ |
    ⟨v, _, after, hdecide, hnone, hsettle, hstop, hcounts⟩
  case inr =>
    refine ⟨v, hdecide _, ?_⟩
    rcases hstop with ⟨err, rfl⟩ | rfl
    all_goals
      simp only [hsettle] at h
      cases h
      exact ⟨hnone, hcounts, .assembled hreassemble hassemble⟩
  simp only [hsettle] at h
  cases h
  exact ⟨.dispatched envelope₃, rfl, rfl, ⟨rfl, rfl⟩, .assembled hreassemble hassemble⟩

/-- Handling a frame does what building its envelope does; a response changes no buffer. -/
theorem handleFrame_cases {respond : Fragmenter → Fragmenter} {result : Except InboundError Unit}
    (h : handleFrame cfg s frame reassembledAt assembledAt respond = .ok (result, s')) :
    ∃ v t, frameVerdict cfg s frame reassembledAt assembledAt = .ok v ∧
      Counts s.deserFailures result s'.deserFailures v ∧
      Staged cfg reassembledAt assembledAt s t ∧ (s' = t ∨ s' = t.responded respond) := by
  unfold handleFrame at h
  rcases hbuild : buildDispatchableEnvelope cfg s frame reassembledAt assembledAt with
    panic | ⟨err | ⟨_ | envelope⟩, t⟩
  · rw [hbuild] at h
    cases h
  all_goals
    obtain ⟨v, hv, -, hcounts, hstaged⟩ := build_cases hbuild
    simp only [hbuild] at h
    cases h
  · exact ⟨v, _, hv, hcounts, hstaged, Or.inl rfl⟩
  · exact ⟨v, _, hv, hcounts, hstaged, Or.inl rfl⟩
  · exact ⟨v, t, hv, hcounts, hstaged, Or.inr rfl⟩

end Frames

/-! ## Runs -/

namespace InboundRun

variable {Fr Err : Type} {cfg : StreamSettings Fr Err} {r r' : InboundRun} {turn : Turn Fr}

/-- The state after some purges. -/
abbrev Purges : InboundState → InboundState → Prop :=
  Relation.ReflTransGen fun s t => ∃ fragmentsAt assembliesAt,
    s.purgeExpired fragmentsAt assembliesAt = .ok t

/-- What a turn of the loop can do. -/
inductive TurnStep (cfg : StreamSettings Fr Err) (r : InboundRun) : InboundRun → Prop where
  | aborted (hpressure : r.pressure cfg = .abort) :
      TurnStep cfg r { r with result := some (.error .memoryBudgetHardCapExceeded) }
  | unread {s : InboundState} {result : Option (Except InboundError Unit)}
      (hpressure : r.pressure cfg ≠ .abort) (hpurges : Purges r.state s) :
      TurnStep cfg r ⟨s, result, r.verdicts⟩
  | handled {s s' : InboundState} {frame : Fr} {reassembledAt assembledAt : Instant}
      {respond : Fragmenter → Fragmenter} {v : FrameVerdict} {result : Except InboundError Unit}
      (hpressure : r.pressure cfg ≠ .abort) (hpurges : Purges r.state s)
      (hverdict : frameVerdict cfg s frame reassembledAt assembledAt = .ok v)
      (hhandle : handleFrame cfg s frame reassembledAt assembledAt respond = .ok (result, s')) :
      TurnStep cfg r ⟨s', if result = .ok () then none else some result, r.verdicts ++ [v]⟩

/-- What the loop does with each outcome of a read. -/
theorem read_cases {s : InboundState} {outcome : ReadOutcome Fr}
    (hpressure : r.pressure cfg ≠ .abort) (hpurges : Purges r.state s)
    (h : read cfg { r with state := s } outcome = some r') : TurnStep cfg r r' := by
  unfold read at h
  cases outcome with
  | ended | failed text =>
    cases h
    exact .unread hpressure hpurges
  | timedOut fragmentsAt assembliesAt =>
    simp only at h
    split at h
    · cases h
    · rename_i t hpurge
      cases h
      exact .unread hpressure (hpurges.tail ⟨fragmentsAt, assembliesAt, hpurge⟩)
  | frame frame reassembledAt assembledAt respond =>
    simp only at h
    split at h
    · rename_i v err t hverdict hhandle
      cases h
      exact .handled hpressure hpurges hverdict hhandle
    · rename_i v t hverdict hhandle
      cases h
      exact .handled hpressure hpurges hverdict hhandle
    · cases h

/-- **Inversion** of a turn. -/
theorem step_cases (h : step cfg r turn = some r') : r.result = none ∧ TurnStep cfg r r' := by
  obtain ⟨state, result, verdicts⟩ := r
  unfold step at h
  cases result with
  | some result => exact absurd h (by simp)
  | none =>
    refine ⟨rfl, ?_⟩
    simp only at h
    split at h
    · rename_i hpressure
      cases h
      exact .aborted hpressure
    · rename_i hpressure
      split at h
      · cases h
      · rename_i s hpurge
        exact read_cases (by simp [hpressure]) (.single ⟨_, _, hpurge⟩) h
    · rename_i hpressure
      exact read_cases (by simp [hpressure]) .refl h

/-- A purge leaves the counter alone. -/
theorem Purges.deserFailures {s s' : InboundState} (h : Purges s s') :
    s'.deserFailures = s.deserFailures := by
  induction h with
  | refl => rfl
  | tail _ hpurge ih =>
    obtain ⟨fragmentsAt, assembliesAt, hpurge⟩ := hpurge
    rw [← ih]
    unfold InboundState.purgeExpired at hpurge
    simp only at hpurge
    split at hpurge
    · rw [← Except.ok.inj hpurge]
    · obtain ⟨_, -, rfl⟩ := Except.map_eq_ok hpurge
      rfl

/-! ## The counter -/

/-- The counter is the number of failures since the last dispatch, and below the threshold as
long as the connection is open. -/
structure Counted (r : InboundRun) : Prop where
  exact : r.state.deserFailures = failuresSince r.verdicts
  below : r.result = none → r.state.deserFailures < maxDeserFailures

/-- A dispatch clears the counter and a failure raises it, up to the threshold. -/
theorem step_counted (h : Counted r) (hstep : step cfg r turn = some r') : Counted r' := by
  obtain ⟨hopen, hturn⟩ := step_cases hstep
  cases hturn with
  | aborted _ => exact ⟨h.exact, nofun⟩
  | unread _ hpurges =>
    exact ⟨hpurges.deserFailures.trans h.exact, fun _ => hpurges.deserFailures ▸ h.below hopen⟩
  | @handled s s' _ _ _ _ v result _ hpurges hverdict hhandle =>
    obtain ⟨v', t, hv, hcounts, -, -⟩ := handleFrame_cases hhandle
    obtain rfl : v = v' := Except.ok.inj (hverdict.symm.trans hv)
    have hbefore := hpurges.deserFailures
    obtain ⟨hafter, hresult⟩ := hcounts.exact (hbefore ▸ h.below hopen)
    refine ⟨?_, ?_⟩
    · show s'.deserFailures = _
      rw [hafter, failuresSince_concat, ← h.exact, hbefore]
    · intro hnone
      have hok : result = .ok () := by
        by_contra hne
        exact absurd hnone (by simp [hne])
      show s'.deserFailures < _
      have hne : s'.deserFailures ≠ maxDeserFailures := fun heq =>
        hresult.mpr (Or.inr heq) hok
      have hlt := h.below hopen
      rw [hbefore] at hafter
      split_ifs at hafter <;> omega

theorem exec_counted {turns : List (Turn Fr)}
    (h : Trace.exec (step cfg) (start cfg) turns = some r) : Counted r :=
  Trace.exec_invariant (fun _ _ _ hinv hstep => step_counted hinv hstep)
    ⟨rfl, fun _ => by simp [start, maxDeserFailures]⟩ h

/-! ### The result -/

/-- A serializer that takes any nonempty payload as it is. -/
def plainSerializer : Serializer Unit where
  parse payload := if payload.isEmpty then .error () else .ok (⟨0, none, payload⟩, payload.length)
  shouldDeserializeAfterParse := false
  deserializeWithContext _ _ := .error ()
  deserialize _ := .error ()
  isBincodeLimitExceeded _ := false

/-- Frames are their payloads. -/
def plainSettings (frameLength : ℕ) (fragmentation : Option FragmentationConfig)
    (messageAssembler : Option MessageAssembler) : StreamSettings (List Byte) Unit where
  serializer := plainSerializer
  codec := ⟨id, fun _ => none, frameLength⟩
  headerCodec := bincodeHeader
  messageAssembler := messageAssembler
  fragmentation := fragmentation
  memoryBudgets := none

/-- A turn that reads a frame, with every clock at zero. -/
def frameTurn (frame : List Byte) : Turn (List Byte) := ⟨0, 0, .frame frame 0 0 id⟩

end InboundRun

end Wireframe
