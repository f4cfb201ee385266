/-
# Memory pressure under the default budgets

Fragment reassembly and message assembly each admit a frame against a cap of their own
(`Capped`, kept by every turn), while the loop compares the sum of what they hold with one
aggregate limit.  Under the defaults that limit equals either cap (`limit_default`), so neither
stage exceeds it and the loop aborts exactly when their sum does (`default_stages_le_limit`).  When
both stages are in use, frames that fit the transport make that happen (`overfills`).
-/
import Mathlib.Tactic
import Wireframe.DeserFailures
import Wireframe.MessageLimits

namespace Wireframe

/-! ## Each stage keeps its own cap -/

section Stages

variable {Fr Err : Type} {cfg : StreamSettings Fr Err} {s s' : InboundState}

/-- Reassembly leaves the adapter alone or pushes one fragment. -/
theorem reassembleIfNeeded_cases {state state' : Option DefaultFragmentAdapter}
    {envelope : Envelope} {now : Instant} {outcome : StageOutcome Envelope}
    (h : reassembleIfNeeded cfg state envelope now = .ok (outcome, state')) :
    state' = state ∨ ∃ adapter header payload result reassembler, state = some adapter ∧
      adapter.reassembler.pushAt header payload now = .ok (result, reassembler) ∧
      state' = some { adapter with reassembler := reassembler } := by
  unfold reassembleIfNeeded at h
  cases state with
  | none => exact Or.inl (Prod.mk.inj (Except.ok.inj h)).2.symm
  | some adapter =>
    obtain ⟨out, hreassemble, hout⟩ := Except.map_eq_ok h
    cases hout
    simp only [DefaultFragmentAdapter.reassemble] at hreassemble
    split at hreassemble
    · rw [← Except.ok.inj hreassemble]
      exact Or.inl rfl
    · rename_i header payload _
      obtain ⟨pushed, hpush, rfl⟩ := Except.map_eq_ok hreassemble
      exact Or.inr ⟨adapter, header, payload, pushed.1, pushed.2, rfl, hpush, rfl⟩
    · rw [← Except.ok.inj hreassemble]
      exact Or.inl rfl

theorem handOn_state {out : StageOutcome AssembledMessage × MessageAssemblyState}
    {outcome : StageOutcome Envelope} {state : Option MessageAssemblyState}
    (h : handOn out = .ok (outcome, state)) : state = some out.2 := by
  unfold handOn at h
  split at h
  · obtain ⟨_, -, hout⟩ := Except.map_eq_ok h
    exact (Prod.mk.inj hout).2.symm
  all_goals exact (Prod.mk.inj (Except.ok.inj h)).2.symm

/-- Assembly leaves the state alone or makes one call on it. -/
theorem processFirstFrame_cases {state state' : MessageAssemblyState} {header : FirstFrameHeader}
    {bytes : List Byte} {routing : EnvelopeRouting} {now : Instant}
    {outcome : StageOutcome AssembledMessage}
    (h : processFirstFrame state header bytes routing now = .ok (outcome, state')) :
    state' = state ∨ ∃ call ret, state.call call = .ok (ret, state') := by
  unfold processFirstFrame at h
  split at h
  · exact Or.inl (Prod.mk.inj (Except.ok.inj h)).2.symm
  split at h
  · exact Or.inl (Prod.mk.inj (Except.ok.inj h)).2.symm
  split at h
  · exact Or.inl (Prod.mk.inj (Except.ok.inj h)).2.symm
  split at h
  · rename_i metadata body _ _
    split at h
    · exact Or.inl (Prod.mk.inj (Except.ok.inj h)).2.symm
    · refine Or.inr ⟨.firstFrame ⟨header, routing, metadata, body⟩ now, ?_⟩
      split at h
      all_goals
        rename_i haccept
        cases h
        exact ⟨_, by rw [MessageAssemblyState.call, haccept]⟩
  · cases h

/-- A continuation leaves the state alone or makes one call on it. -/
theorem processContinuationFrame_cases {state state' : MessageAssemblyState}
    {header : ContinuationFrameHeader} {bytes : List Byte} {now : Instant}
    {outcome : StageOutcome AssembledMessage}
    (h : processContinuationFrame state header bytes now = .ok (outcome, state')) :
    state' = state ∨ ∃ call ret, state.call call = .ok (ret, state') := by
  unfold processContinuationFrame at h
  split at h
  · exact Or.inl (Prod.mk.inj (Except.ok.inj h)).2.symm
  split at h
  · cases h
  · rename_i body _
    refine Or.inr ⟨.continuationFrame header body now, ?_⟩
    split at h
    · cases h
    all_goals
      rename_i haccept
      cases h
      exact ⟨_, by rw [MessageAssemblyState.call, haccept]; rfl⟩

/-- Assembly leaves the state alone or makes one call on it. -/
theorem assembleIfNeeded_cases {assembly assembly' : Option MessageAssemblyState}
    {envelope : Envelope} {now : Instant} {outcome : StageOutcome Envelope}
    (h : assembleIfNeeded cfg assembly envelope now = .ok (outcome, assembly')) :
    assembly' = assembly ∨ ∃ state call ret state', assembly = some state ∧
      state.call call = .ok (ret, state') ∧ assembly' = some state' := by
  unfold assembleIfNeeded at h
  split at h
  · rename_i assembler state _
    -- what the two kinds of frame have in common
    have hframe : ∀ {out : StageOutcome AssembledMessage × MessageAssemblyState},
        (out.2 = state ∨ ∃ call ret, state.call call = .ok (ret, out.2)) →
        handOn out = .ok (outcome, assembly') →
        assembly' = some state ∨ ∃ state₁ call ret state', some state = some state₁ ∧
          state₁.call call = .ok (ret, state') ∧ assembly' = some state' := by
      rintro out (hsame | ⟨call, ret, hcall⟩) hon
      · exact Or.inl ((handOn_state hon).trans (congrArg some hsame))
      · exact Or.inr ⟨state, call, ret, out.2, rfl, hcall, handOn_state hon⟩
    split at h
    · exact Or.inl (Prod.mk.inj (Except.ok.inj h)).2.symm
    simp only at h
    split at h
    · exact Or.inl (Prod.mk.inj (Except.ok.inj h)).2.symm
    split at h
    · split at h
      · cases h
      · rename_i hprocess
        exact hframe (processFirstFrame_cases hprocess) h
    · split at h
      · cases h
      · rename_i hprocess
        exact hframe (processContinuationFrame_cases hprocess) h
  · exact Or.inl (Prod.mk.inj (Except.ok.inj h)).2.symm

/-! ### The caps -/

open InboundRun (effectiveBudgets)

/-- The budgets that message assembly of a connection is created with. -/
def assemblyBudgets (cfg : StreamSettings Fr Err) : AggregateBudgets :=
  ⟨some (effectiveBudgets cfg).bytesPerConnection, some (effectiveBudgets cfg).bytesInFlight⟩

/-- **Each stage keeps its own cap**, the one its connection configured. -/
structure Capped (cfg : StreamSettings Fr Err) (s : InboundState) : Prop where
  fragments : ∀ adapter, s.fragmentation = some adapter → ∃ config,
    cfg.fragmentation = some config ∧ adapter.reassembler.Inv ∧
    adapter.reassembler.settings = (DefaultFragmentAdapter.new config).reassembler.settings
  assemblies : ∀ state, s.messageAssembly = some state →
    cfg.messageAssembler.isSome = true ∧ state.Sound ∧ state.budgets = assemblyBudgets cfg

theorem Capped.reassembled {state : Option DefaultFragmentAdapter} {envelope : Envelope}
    {now : Instant} {outcome : StageOutcome Envelope} (h : Capped cfg s)
    (hreassemble : reassembleIfNeeded cfg s.fragmentation envelope now = .ok (outcome, state)) :
    Capped cfg { s with fragmentation := state } := by
  refine ⟨?_, h.assemblies⟩
  rintro adapter (rfl : state = some adapter)
  rcases reassembleIfNeeded_cases hreassemble with
    hsame | ⟨adapter₀, header, payload, result, reassembler, hstate, hpush, hadapter⟩
  · exact h.fragments adapter hsame.symm
  · obtain ⟨config, hconfig, hinv, hsettings⟩ := h.fragments adapter₀ hstate
    obtain ⟨hinv', hsettings'⟩ := Reassembler.pushAt_inv hinv hpush
    cases hadapter
    exact ⟨config, hconfig, hinv', hsettings'.trans hsettings⟩

theorem Capped.assembled {state : Option MessageAssemblyState} {envelope : Envelope}
    {now : Instant} {outcome : StageOutcome Envelope} (h : Capped cfg s)
    (hassemble : assembleIfNeeded cfg s.messageAssembly envelope now = .ok (outcome, state)) :
    Capped cfg { s with messageAssembly := state } := by
  refine ⟨h.fragments, ?_⟩
  rintro t (rfl : state = some t)
  rcases assembleIfNeeded_cases hassemble with
    hsame | ⟨state₀, call, ret, state', hstate, hcall, ht⟩
  · exact h.assemblies t hsame.symm
  · obtain ⟨hon, hsound, hbudgets⟩ := h.assemblies state₀ hstate
    cases ht
    have houtcome := MessageAssemblyState.call_outcome hcall
    exact ⟨hon, houtcome.sound (hsound.purged _), houtcome.settings.2.trans hbudgets⟩

theorem Capped.staged {reassembledAt assembledAt : Instant} (h : Capped cfg s)
    (hstaged : Staged cfg reassembledAt assembledAt s s') : Capped cfg s' := by
  cases hstaged with
  | undecoded hfragmentation hassembly =>
    exact ⟨hfragmentation ▸ h.fragments, hassembly ▸ h.assemblies⟩
  | reassembled hreassemble hassembly =>
    exact ⟨(h.reassembled hreassemble).fragments, hassembly ▸ h.assemblies⟩
  | assembled hreassemble hassemble =>
    exact ⟨(h.reassembled hreassemble).fragments, (h.assembled hassemble).assemblies⟩

/-- A sweep drops entries, so both stages stay under their caps. -/
theorem Capped.purged {fragmentsAt assembliesAt : Instant} (h : Capped cfg s)
    (hpurge : s.purgeExpired fragmentsAt assembliesAt = .ok s') : Capped cfg s' := by
  have hassemblies : ∀ state, (s.messageAssembly.map fun t => (t.purgeExpiredAt assembliesAt).2) =
      some state → cfg.messageAssembler.isSome = true ∧ state.Sound ∧
        state.budgets = assemblyBudgets cfg := by
    intro state hstate
    obtain ⟨t, ht, rfl⟩ := Option.map_eq_some_iff.mp hstate
    obtain ⟨hon, hsound, hbudgets⟩ := h.assemblies t ht
    exact ⟨hon, hsound.purged assembliesAt, hbudgets⟩
  unfold InboundState.purgeExpired at hpurge
  simp only at hpurge
  split at hpurge
  · rename_i hnone
    cases hpurge
    exact ⟨h.fragments, hassemblies⟩
  · rename_i adapter hadapter
    obtain ⟨out, hout, rfl⟩ := Except.map_eq_ok hpurge
    obtain ⟨purge, hpurged, rfl⟩ := Except.map_eq_ok hout
    refine ⟨?_, hassemblies⟩
    rintro _ ⟨rfl⟩
    obtain ⟨config, hconfig, hinv, hsettings⟩ := h.fragments adapter hadapter
    obtain ⟨evicted, heq⟩ := adapter.reassembler.purgeExpiredAt_eq fragmentsAt hinv.exact
    obtain rfl := Except.ok.inj (heq.symm.trans hpurged)
    exact ⟨config, hconfig, Reassembler.inv_purged hinv fragmentsAt, hsettings⟩

theorem Capped.responded {respond : Fragmenter → Fragmenter} (h : Capped cfg s) :
    Capped cfg (s.responded respond) := by
  refine ⟨?_, h.assemblies⟩
  intro adapter hadapter
  obtain ⟨adapter₀, hadapter₀, rfl⟩ := Option.map_eq_some_iff.mp hadapter
  exact h.fragments adapter₀ hadapter₀

end Stages

namespace InboundRun

/-! ### Runs -/

variable {Fr Err : Type} {cfg : StreamSettings Fr Err} {r r' : InboundRun} {turn : Turn Fr}

/-- **Step lemma** of the caps. -/
theorem step_capped (h : Capped cfg r.state) (hstep : step cfg r turn = some r') :
    Capped cfg r'.state := by
  have hpurged : ∀ {s : InboundState}, Purges r.state s → Capped cfg s := by
    intro s hpurges
    induction hpurges with
    | refl => exact h
    | tail _ hpurge ih =>
      obtain ⟨fragmentsAt, assembliesAt, hpurge⟩ := hpurge
      exact ih.purged hpurge
  obtain ⟨-, hturn⟩ := step_cases hstep
  cases hturn with
  | aborted _ => exact h
  | unread _ hpurges => exact hpurged hpurges
  | handled _ hpurges _ hhandle =>
    obtain ⟨v, t, -, -, hstaged, rfl | rfl⟩ := handleFrame_cases hhandle
    · exact (hpurged hpurges).staged hstaged
    · exact ((hpurged hpurges).staged hstaged).responded

theorem capped_start (cfg : StreamSettings Fr Err) : Capped cfg (start cfg).state where
  fragments := by
    intro adapter hadapter
    obtain ⟨config, hconfig, rfl⟩ := Option.map_eq_some_iff.mp hadapter
    exact ⟨config, hconfig, Reassembler.inv_new _ _ _ _, rfl⟩
  assemblies := by
    intro state hstate
    obtain ⟨assembler, hassembler, rfl⟩ := Option.map_eq_some_iff.mp hstate
    refine ⟨by simp [hassembler], ⟨?_, ?_, ?_⟩, rfl⟩
    · exact fun _ _ => Or.inl (Nat.zero_le _)
    · exact fun _ _ => Or.inl (Nat.zero_le _)
    · intro key p hp
      exact absurd hp (by simp [newMessageAssemblyState, MessageAssemblyState.withBudgets])

theorem exec_capped {turns : List (Turn Fr)}
    (h : Trace.exec (step cfg) (start cfg) turns = some r) : Capped cfg r.state := by
  have hkeeps : ∀ r turn r', Capped cfg (InboundRun.state r) → step cfg r turn = some r' →
      Capped cfg r'.state := fun _ _ _ => step_capped
  have hcapped := Trace.exec_invariant hkeeps (capped_start cfg) h
  exact hcapped

end InboundRun

/-! ## The defaults -/

section Defaults

variable {Fr Err : Type} {cfg : StreamSettings Fr Err}

theorem clampFrameLength_bounds (frameLength : ℕ) :
    64 ≤ clampFrameLength frameLength ∧ clampFrameLength frameLength ≤ 2 ^ 24 := by
  simp only [clampFrameLength, minFrameLength, maxFrameLength]
  omega

/-- A small multiple of a frame length is a budget as it is. -/
theorem get_deriveBudget (frameLength : ℕ) {multiplier : ℕ} (hpos : 0 < multiplier)
    (hle : multiplier ≤ 64) :
    (deriveBudget (clampFrameLength frameLength) multiplier).get =
      clampFrameLength frameLength * multiplier := by
  obtain ⟨hmin, hmax⟩ := clampFrameLength_bounds frameLength
  have hfits : clampFrameLength frameLength * multiplier ≤ usizeMax := by
    calc clampFrameLength frameLength * multiplier ≤ 2 ^ 24 * 64 := Nat.mul_le_mul hmax hle
      _ ≤ usizeMax := by decide
  rw [deriveBudget, saturatingMul, Nat.min_eq_left hfits,
    NonZeroUsize.new_eq_some (Nat.mul_pos (by omega) hpos) hfits]
  rfl

/-- Sixty-four frames fit the default limit, and one more byte does not. -/
theorem limit_default (frameLength : ℕ) :
    activeAggregateLimitBytes (defaultMemoryBudgets frameLength) =
      clampFrameLength frameLength * 64 := by
  simp only [activeAggregateLimitBytes, defaultMemoryBudgets, defaultConnectionBudgetMultiplier,
    defaultInFlightBudgetMultiplier, Nat.min_self]
  exact get_deriveBudget frameLength (by decide) le_rfl

/-- The default frame length leaves room for fragments, and their cap is the default limit. -/
theorem defaultFragmentation_eq (frameLength : ℕ) :
    ∃ config cap, defaultFragmentation frameLength = some config ∧
      config.maxMessageSize.get = clampFrameLength frameLength * 16 ∧
      config.maxBufferedBytes = some cap ∧ cap.get = clampFrameLength frameLength * 64 ∧
      config.reassemblyTimeout = defaultFragmentTimeout := by
  obtain ⟨hmin, hmax⟩ := clampFrameLength_bounds frameLength
  generalize hlength : clampFrameLength frameLength = n at hmin hmax
  have hword : usizeMax = 2 ^ 64 - 1 := rfl
  have hmessage : saturatingMul n 16 = n * 16 := Nat.min_eq_left (by omega)
  have hbuffered : max (saturatingMul n 64) (n * 16) = n * 64 := by
    rw [saturatingMul, Nat.min_eq_left (by omega)]
    omega
  have hoverhead : fragmentOverhead = 9 := by decide
  simp only [defaultFragmentation, hlength, defaultMessageSizeMultiplier, hmessage,
    NonZeroUsize.new_eq_some (n := n * 16) (by omega) (by omega), Option.bind_some,
    FragmentationConfig.forFrameBudget, hoverhead, envelopeGuardBytes,
    defaultFragmentBufferedBytesMultiplier, hbuffered]
  rw [if_neg (by omega), if_neg (by omega),
    NonZeroUsize.new_eq_some (n := n - (9 + 32)) (by omega) (by omega),
    NonZeroUsize.new_eq_some (n := n * 64) (by omega) (by omega)]
  exact ⟨_, _, rfl, rfl, rfl, rfl, rfl⟩

/-- Under the default settings neither stage alone holds more than the limit. -/
theorem Capped.default_le {s : InboundState} (h : Capped cfg s) (hbudgets : cfg.memoryBudgets = none)
    (hfragmentation : ∀ config, cfg.fragmentation = some config →
      defaultFragmentation cfg.codec.maxFrameLength = some config) :
    s.fragmentationBufferedBytes ≤ clampFrameLength cfg.codec.maxFrameLength * 64 ∧
    ∀ state, s.messageAssembly = some state →
      state.totalBufferedBytes ≤ clampFrameLength cfg.codec.maxFrameLength * 64 := by
  constructor
  · unfold InboundState.fragmentationBufferedBytes
    cases hadapter : s.fragmentation with
    | none => exact Nat.zero_le _
    | some adapter =>
      obtain ⟨config, hconfig, hinv, hsettings⟩ := h.fragments adapter hadapter
      obtain ⟨config', cap, hdefault, -, hcap, hget, -⟩ :=
        defaultFragmentation_eq cfg.codec.maxFrameLength
      obtain rfl := Option.some.inj (hdefault.symm.trans (hfragmentation config hconfig))
      have hmax : adapter.reassembler.budget.maxBufferedBytes = some cap :=
        (congrArg (fun x => x.2.2.2) hsettings).trans hcap
      have hbytes := hinv.bytes_le
      rw [ReassemblyBudget.byteCap, hmax, Option.getD_some, hget] at hbytes
      exact hbytes
  · intro state hstate
    obtain ⟨-, hsound, hstored⟩ := h.assemblies state hstate
    have hconnection : state.budgets.connection =
        some (defaultMemoryBudgets cfg.codec.maxFrameLength).bytesPerConnection := by
      rw [hstored, assemblyBudgets, InboundRun.effectiveBudgets, hbudgets]
      rfl
    have hle := hsound.connection.totalBufferedBytes_le hconnection
    exact hle.trans_eq (get_deriveBudget _ (by decide) le_rfl)

end Defaults

namespace InboundRun

/-! ## The limit -/

open Fragmentable (intoFragmentParts)

section Limit

variable {Fr Err : Type} {cfg : StreamSettings Fr Err} {r : InboundRun}

/-- What both stages hold. -/
def bufferedBytes (r : InboundRun) : ℕ :=
  (r.state.messageAssembly.map MessageAssemblyState.totalBufferedBytes).getD 0 +
    r.state.fragmentationBufferedBytes

theorem pressure_eq_abort_iff :
    r.pressure cfg = .abort ↔
      activeAggregateLimitBytes (effectiveBudgets cfg) < min r.bufferedBytes usizeMax := by
  have hbreach : hasHardCapBeenBreached r.state.messageAssembly (some (effectiveBudgets cfg))
      r.state.fragmentationBufferedBytes = true ↔
      activeAggregateLimitBytes (effectiveBudgets cfg) < min r.bufferedBytes usizeMax := by
    simp only [hasHardCapBeenBreached, decide_eq_true_eq]
    rfl
  rw [← hbreach, pressure, evaluateMemoryPressure]
  split_ifs with hhard hsoft
  · simp [hhard]
  · simp [hhard]
  · simp [hhard]

end Limit

/-! ## Both stages together -/

section Frames

variable {Fr Err : Type} {cfg : StreamSettings Fr Err} {s : InboundState} {frame : Fr}
  {reassembledAt assembledAt : Instant} {respond : Fragmenter → Fragmenter}
  {envelope₁ envelope₂ : Envelope} {fragmentation : Option DefaultFragmentAdapter}
  {messageAssembly : Option MessageAssemblyState}

/-- A fragment that completes no message. -/
theorem handleFrame_fragment (hdecode : decodeEnvelope cfg frame = .passed (some envelope₁))
    (hreassemble : reassembleIfNeeded cfg s.fragmentation envelope₁ reassembledAt =
      .ok (.passed none, fragmentation)) :
    handleFrame cfg s frame reassembledAt assembledAt respond =
      .ok (.ok (), { s with fragmentation := fragmentation }) := by
  simp only [handleFrame, buildDispatchableEnvelope, hdecode, settle, hreassemble]

/-- A message frame that completes no message. -/
theorem handleFrame_messageFrame (hdecode : decodeEnvelope cfg frame = .passed (some envelope₁))
    (hreassemble : reassembleIfNeeded cfg s.fragmentation envelope₁ reassembledAt =
      .ok (.passed (some envelope₂), fragmentation))
    (hassemble : assembleIfNeeded cfg s.messageAssembly envelope₂ assembledAt =
      .ok (.passed none, messageAssembly)) :
    handleFrame cfg s frame reassembledAt assembledAt respond =
      .ok (.ok (), ⟨s.deserFailures, fragmentation, messageAssembly⟩) := by
  simp only [handleFrame, buildDispatchableEnvelope, hdecode, settle, hreassemble, hassemble]

/-- A first frame that is all body goes to the assembly state as it is. -/
theorem processFirstFrame_body {state state' : MessageAssemblyState} {header : FirstFrameHeader}
    {bytes : List Byte} {routing : EnvelopeRouting} {now : Instant}
    {result : Option AssembledMessage} (hmetadata : header.metadataLen = 0)
    (hbody : header.bodyLen = bytes.length) (hfits : bytes.length ≤ isizeMax)
    (haccept : state.acceptFirstFrameAt ⟨header, routing, ⟨[], Nat.zero_le _⟩, ⟨bytes, hfits⟩⟩ now =
      (.ok result, state')) :
    processFirstFrame state header bytes routing now = .ok (.passed result, state') := by
  have hsum : checkedAdd 0 bytes.length = some bytes.length := by
    have hbound : bytes.length ≤ 2 ^ 63 - 1 := hfits
    refine checkedAdd_eq_some_iff.mpr ⟨?_, (Nat.zero_add _).symm⟩
    rw [usizeMax]
    omega
  have hempty : ByteBuffer.ofList [] = .ok ⟨[], Nat.zero_le _⟩ := rfl
  simp only [processFirstFrame, hmetadata, hbody, hsum, ne_eq, not_true_eq_false, if_false,
    Nat.not_lt_zero, List.take_zero, List.drop_zero, ByteBuffer.ofList_eq_ok hfits, hempty, haccept,
    ByteBuffer.length, List.length_nil, or_self]

end Frames

/-- A turn at time zero of a connection that has nothing to purge. -/
theorem step_frameTurn {cfg : StreamSettings (List Byte) Unit} {r : InboundRun} {s : InboundState}
    {frame : List Byte} (hopen : r.result = none) (hpressure : r.pressure cfg ≠ .abort)
    (hpurge : r.state.purgeExpired 0 0 = .ok r.state)
    (hhandle : handleFrame cfg r.state frame 0 0 id = .ok (.ok (), s)) :
    ∃ verdicts, step cfg r (frameTurn frame) = some ⟨s, none, verdicts⟩ := by
  obtain ⟨state, result, verdicts⟩ := r
  obtain rfl : result = none := hopen
  obtain ⟨v, _, hverdict, -⟩ := handleFrame_cases hhandle
  have hread : read cfg ⟨state, none, verdicts⟩ (.frame frame 0 0 id) =
      some ⟨s, none, verdicts ++ [v]⟩ := by
    simp only [read, hverdict, hhandle]
  refine ⟨verdicts ++ [v], ?_⟩
  rw [← hread]
  rcases haction : pressure cfg ⟨state, none, verdicts⟩ with _ | duration | _
  · simp only [step, haction, frameTurn]
  · simp only [step, haction, frameTurn, hpurge]
  · exact absurd haction hpressure

theorem decodeEnvelope_plain {frameLength : ℕ} {fragmentation : Option FragmentationConfig}
    {messageAssembler : Option MessageAssembler} (b : Byte) (bytes : List Byte) :
    decodeEnvelope (plainSettings frameLength fragmentation messageAssembler) (b :: bytes) =
      .passed (some ⟨0, none, b :: bytes⟩) := by
  simp [decodeEnvelope, parseEnvelope, plainSettings, plainSerializer]

/-! ### Sixty-four messages -/

/-- An assembler that takes every frame for the first one of a message, keyed by its first byte. -/
def keyedAssembler : MessageAssembler where
  parseFrameHeader
    | [] => .error "empty frame"
    | key :: rest => .ok ⟨.first ⟨⟨key.toUInt64⟩, 0, rest.length + 1, none, false⟩, 0⟩

/-- Default fragmentation, default budgets and message assembly. -/
def defaultSettings (frameLength : ℕ) : StreamSettings (List Byte) Unit :=
  plainSettings frameLength (defaultFragmentation frameLength) (some keyedAssembler)

/-- A first frame as long as the transport allows. -/
def bodyFrame (frameLength k : ℕ) : List Byte :=
  UInt8.ofNat k :: List.replicate (clampFrameLength frameLength - 1) 0

/-- The first fragment of a message, with one byte of payload. -/
def openingFragment : List Byte :=
  fragmentMagic ++ [0, 3] ++ encodeHeader ⟨⟨0⟩, FragmentIndex.zero, false⟩ ++ [1]

theorem length_bodyFrame (frameLength k : ℕ) :
    (bodyFrame frameLength k).length = clampFrameLength frameLength := by
  have hmin := (clampFrameLength_bounds frameLength).1
  rw [bodyFrame, List.length_cons, List.length_replicate]
  omega

theorem bodyFrame_not_hasMarker (frameLength : ℕ) {k : ℕ} (hk : k < 64) :
    ¬ HasMarker (bodyFrame frameLength k) := by
  rintro ⟨-, hmarker⟩
  have hhead : UInt8.ofNat k = 0x46 := by
    simpa [bodyFrame, fragmentMagic] using congrArg List.head? hmarker
  have hbyte := congrArg UInt8.toNat hhead
  rw [UInt8.toNat_ofNat_of_lt' (by simp only [UInt8.size]; omega)] at hbyte
  simp at hbyte
  omega

theorem bodyFrame_fits (frameLength k : ℕ) : (bodyFrame frameLength k).length ≤ isizeMax := by
  have hmax := (clampFrameLength_bounds frameLength).2
  rw [length_bodyFrame, isizeMax]
  omega

/-- What the assembler makes of a long first frame. -/
def bodyInput (frameLength k : ℕ) : FirstFrameInput where
  header := ⟨⟨(UInt8.ofNat k).toUInt64⟩, 0, (bodyFrame frameLength k).length, none, false⟩
  routing := ⟨⟨0⟩, none⟩
  metadata := ⟨[], Nat.zero_le _⟩
  body := ⟨bodyFrame frameLength k, bodyFrame_fits frameLength k⟩

theorem key_bodyInput (frameLength : ℕ) {k : ℕ} (hk : k < 64) :
    (bodyInput frameLength k).header.messageKey.get.toNat = k := by
  show (UInt8.ofNat k).toUInt64.toNat = k
  rw [UInt8.toNat_toUInt64, UInt8.toNat_ofNat_of_lt' (by simp only [UInt8.size]; omega)]

/-- Assembly with one more message. -/
def withBody (state : MessageAssemblyState) (frameLength k : ℕ) : MessageAssemblyState :=
  { state with
    assemblies := state.assemblies.insert (bodyInput frameLength k).header.messageKey
      (PartialAssembly.fromFirstFrame (bodyInput frameLength k) 0) }

/-! ### Filling the budget -/

/-- The connection after `k` long first frames, each of another message. -/
structure Filled (frameLength k : ℕ) (config : FragmentationConfig) (state : MessageAssemblyState)
    (r : InboundRun) : Prop where
  result : r.result = none
  fragmentation : r.state.fragmentation = some (.new config)
  messageAssembly : r.state.messageAssembly = some state
  size : state.maxMessageSize.get = clampFrameLength frameLength * 16
  timeout : state.timeout = defaultFragmentTimeout
  budgets : state.budgets = ⟨some (defaultMemoryBudgets frameLength).bytesPerConnection,
    some (defaultMemoryBudgets frameLength).bytesInFlight⟩
  buffered : state.buffered = k * clampFrameLength frameLength
  stored : ∀ key p, state.assemblies.lookup key = some p → p.startedAt = 0 ∧ key.get.toNat < k

namespace Filled

variable {frameLength k : ℕ} {config : FragmentationConfig} {state : MessageAssemblyState}
  {r : InboundRun}

theorem young (h : Filled frameLength k config state r) :
    ∀ key p, state.assemblies.lookup key = some p →
      MessageAssemblyState.expired state.timeout 0 p = false := by
  intro key p hp
  rw [h.timeout, MessageAssemblyState.expired, (h.stored key p hp).1]
  decide

theorem bufferedBytes_eq (h : Filled frameLength k config state r) (hk : k ≤ 64) :
    state.totalBufferedBytes = k * clampFrameLength frameLength ∧
      r.bufferedBytes = k * clampFrameLength frameLength := by
  have hmax := (clampFrameLength_bounds frameLength).2
  have hsmall : k * clampFrameLength frameLength < 2 ^ 64 := by
    calc k * clampFrameLength frameLength ≤ 64 * 2 ^ 24 := Nat.mul_le_mul hk hmax
      _ < 2 ^ 64 := by decide
  have htotal : state.totalBufferedBytes = k * clampFrameLength frameLength := by
    rw [← h.buffered] at hsmall ⊢
    exact Nat.mod_eq_of_lt hsmall
  refine ⟨htotal, ?_⟩
  simp only [bufferedBytes, InboundState.fragmentationBufferedBytes, h.messageAssembly,
    h.fragmentation, Option.map_some, Option.getD_some, htotal]
  rfl

/-- Up to sixty-four frames the loop reads on. -/
theorem pressure_ne_abort (h : Filled frameLength k config state r) (hk : k ≤ 64) :
    r.pressure (defaultSettings frameLength) ≠ .abort := by
  have hle : r.bufferedBytes ≤
      activeAggregateLimitBytes (effectiveBudgets (defaultSettings frameLength)) := by
    rw [(h.bufferedBytes_eq hk).2]
    show _ ≤ activeAggregateLimitBytes (defaultMemoryBudgets frameLength)
    rw [limit_default, Nat.mul_comm]
    exact Nat.mul_le_mul_left _ hk
  intro habort
  have hlt := pressure_eq_abort_iff.mp habort
  omega

theorem purgeExpired_eq (h : Filled frameLength k config state r) :
    r.state.purgeExpired 0 0 = .ok r.state := by
  have hassembly : (state.purgeExpiredAt 0).2 = state :=
    MessageAssemblyState.purged_eq_self h.young
  have hfragments : (DefaultFragmentAdapter.new config).purgeExpired 0 =
      .ok ([], .new config) := rfl
  simp only [InboundState.purgeExpired, h.fragmentation, h.messageAssembly, hfragments,
    Option.map_some, hassembly, Except.map]
  rw [← h.fragmentation, ← h.messageAssembly]

theorem key_fresh (h : Filled frameLength k config state r) (hk : k < 64) :
    state.assemblies.lookup (bodyInput frameLength k).header.messageKey = none := by
  by_contra hsome
  obtain ⟨p, hp⟩ := Option.ne_none_iff_exists'.mp hsome
  have hlt := (h.stored _ p hp).2
  rw [key_bodyInput frameLength hk] at hlt
  omega

/-- The default caps admit the next frame of another message. -/
theorem accepts (h : Filled frameLength k config state r) (hk : k < 64) :
    state.acceptFirstFrameAt (bodyInput frameLength k) 0 =
      (.ok none, withBody state frameLength k) := by
  obtain ⟨hmin, hmax⟩ := clampFrameLength_bounds frameLength
  have hpurged := MessageAssemblyState.purged_eq_self h.young
  have hbody : (bodyInput frameLength k).body.length = clampFrameLength frameLength :=
    length_bodyFrame frameLength k
  have hmetadata : (bodyInput frameLength k).metadata.length = 0 := rfl
  have hbound : (k + 1) * clampFrameLength frameLength ≤ clampFrameLength frameLength * 64 := by
    rw [Nat.mul_comm]
    exact Nat.mul_le_mul_left _ hk
  have hadd : saturatingAdd state.totalBufferedBytes
      (saturatingAdd (bodyInput frameLength k).body.length
        (bodyInput frameLength k).metadata.length) ≤ clampFrameLength frameLength * 64 := by
    rw [(h.bufferedBytes_eq (by omega)).1, hbody, hmetadata]
    simp only [saturatingAdd]
    rw [Nat.succ_mul] at hbound
    omega
  have hopens : (state.purged 0).Opens (bodyInput frameLength k) := by
    rw [hpurged]
    refine ⟨h.key_fresh hk, by simp [bodyInput], ?_⟩
    show saturatingAdd (bodyInput frameLength k).body.length _ ≤ _
    rw [hbody, hmetadata, h.size, saturatingAdd]
    omega
  have hstarted := MessageAssemblyState.acceptFirstFrameAt_started hopens rfl (by
    rw [hpurged, checkAggregateBudgets_eq_ok, h.budgets]
    constructor
    · rintro l ⟨rfl⟩
      exact hadd.trans_eq (get_deriveBudget frameLength (by decide) le_rfl).symm
    · rintro l ⟨rfl⟩
      exact hadd.trans_eq (get_deriveBudget frameLength (by decide) le_rfl).symm)
  rw [hpurged] at hstarted
  exact hstarted

theorem assembles (h : Filled frameLength k config state r) (hk : k < 64) :
    assembleIfNeeded (defaultSettings frameLength) (some state)
      ⟨0, none, bodyFrame frameLength k⟩ 0 =
        .ok (.passed none, some (withBody state frameLength k)) := by
  have hprocess : processFirstFrame state (bodyInput frameLength k).header
      (bodyFrame frameLength k) ⟨⟨0⟩, none⟩ 0 =
        .ok (.passed none, withBody state frameLength k) :=
    processFirstFrame_body rfl rfl (bodyFrame_fits frameLength k) (h.accepts hk)
  have hparse : keyedAssembler.parseFrameHeader (bodyFrame frameLength k) =
      .ok ⟨.first (bodyInput frameLength k).header, 0⟩ := rfl
  simp only [assembleIfNeeded, defaultSettings, plainSettings, hparse, Nat.not_lt_zero, if_false,
    List.drop_zero, Option.map_none]
  rw [hprocess]
  rfl

/-- One more long first frame is buffered. -/
theorem step (h : Filled frameLength k config state r) (hk : k < 64) :
    ∃ r', InboundRun.step (defaultSettings frameLength) r
        (frameTurn (bodyFrame frameLength k)) = some r' ∧
      Filled frameLength (k + 1) config (withBody state frameLength k) r' := by
  have hreassemble : reassembleIfNeeded (defaultSettings frameLength) r.state.fragmentation
      ⟨0, none, bodyFrame frameLength k⟩ 0 =
        .ok (.passed (some ⟨0, none, bodyFrame frameLength k⟩), r.state.fragmentation) := by
    rw [h.fragmentation]
    simp only [reassembleIfNeeded, DefaultFragmentAdapter.reassemble, intoFragmentParts, id_eq,
      decodeFragmentPayload_of_not_hasMarker _ (bodyFrame_not_hasMarker frameLength hk)]
    rfl
  have hhandle : handleFrame (defaultSettings frameLength) r.state (bodyFrame frameLength k) 0 0 id =
      .ok (.ok (), ⟨_, _, _⟩) :=
    handleFrame_messageFrame (decodeEnvelope_plain _ _) hreassemble
      (h.messageAssembly ▸ h.assembles hk)
  obtain ⟨verdicts, hstep⟩ := step_frameTurn h.result (h.pressure_ne_abort hk.le)
    h.purgeExpired_eq hhandle
  refine ⟨_, hstep, rfl, h.fragmentation, rfl, h.size, h.timeout, h.budgets, ?_, ?_⟩
  · show (state.assemblies.insert _ _).sumBy _ = _
    rw [AList.sumBy_insert_of_lookup_none _ _ _ _ (h.key_fresh hk), Nat.succ_mul, ← h.buffered]
    refine congrArg (state.buffered + ·) ?_
    show saturatingAdd 0 (bodyFrame frameLength k).length = _
    have hmax := (clampFrameLength_bounds frameLength).2
    rw [saturatingAdd, length_bodyFrame, usizeMax]
    omega
  · intro key p hp
    rw [withBody, AList.lookup_insert_eq] at hp
    split at hp
    · rename_i heq
      cases hp
      refine ⟨rfl, ?_⟩
      rw [heq, key_bodyInput frameLength hk]
      omega
    · obtain ⟨hstarted, hlt⟩ := h.stored key p hp
      exact ⟨hstarted, by omega⟩

end Filled

/-! ### The run -/

/-- A connection starts with nothing stored. -/
theorem filled_start (frameLength : ℕ) :
    ∃ config state, Filled frameLength 0 config state (start (defaultSettings frameLength)) := by
  obtain ⟨config, cap, hconfig, hsize, -, -, htimeout⟩ := defaultFragmentation_eq frameLength
  have hmessage : (defaultMemoryBudgets frameLength).bytesPerMessage.get =
      clampFrameLength frameLength * 16 := get_deriveBudget frameLength (by decide) (by decide)
  refine ⟨config, newMessageAssemblyState (defaultFragmentation frameLength) frameLength
    (some (defaultMemoryBudgets frameLength)), rfl, ?_, rfl, ?_, ?_, rfl, ?_, ?_⟩
  · show (defaultFragmentation frameLength).map DefaultFragmentAdapter.new = _
    rw [hconfig]
    rfl
  · rw [hconfig]
    show (config.maxMessageSize.stricter _).get = _
    rw [NonZeroUsize.stricter, if_neg (by omega), hsize]
  · rw [hconfig]
    exact htimeout
  · exact (Nat.zero_mul _).symm
  · intro key p hp
    exact absurd hp (by simp [newMessageAssemblyState, MessageAssemblyState.withBudgets])

/-- A turn whose frame is no longer than the frame length that the defaults derive from. -/
def Short (frameLength : ℕ) (turn : Turn (List Byte)) : Prop :=
  ∃ frame, turn = frameTurn frame ∧ frame.length ≤ clampFrameLength frameLength

/-- **Run lemma**: up to sixty-four bodies go in, one a turn. -/
theorem fill (frameLength : ℕ) {k : ℕ} (hk : k ≤ 64) :
    ∃ turns config state r, (∀ turn ∈ turns, Short frameLength turn) ∧
      Trace.exec (step (defaultSettings frameLength)) (start (defaultSettings frameLength)) turns =
        some r ∧ Filled frameLength k config state r := by
  induction k with
  | zero =>
    obtain ⟨config, state, hfilled⟩ := filled_start frameLength
    exact ⟨[], config, state, _, by simp, rfl, hfilled⟩
  | succ k ih =>
    obtain ⟨turns, config, state, r, hshort, hrun, hfilled⟩ := ih (by omega)
    obtain ⟨r', hstep, hfilled'⟩ := hfilled.step (by omega)
    refine ⟨turns ++ [frameTurn (bodyFrame frameLength k)], config, _, r', ?_,
      Trace.exec_concat hrun hstep, hfilled'⟩
    intro turn hturn
    rcases List.mem_append.mp hturn with hbefore | hlast
    · exact hshort turn hbefore
    · exact ⟨_, List.mem_singleton.mp hlast, (length_bodyFrame frameLength k).le⟩

/-- A fresh reassembler stores an opening fragment, whatever its configuration. -/
theorem reassemble_openingFragment (frameLength : ℕ) (config : FragmentationConfig) :
    ∃ adapter, adapter.bufferedBytes = 1 ∧
      reassembleIfNeeded (defaultSettings frameLength) (some (.new config))
        ⟨0, none, openingFragment⟩ 0 = .ok (.passed none, some adapter) := by
  have hdecoded : decodeFragmentPayload bincodeHeader openingFragment =
      .ok (some (⟨⟨0⟩, FragmentIndex.zero, false⟩, [1])) := by decide
  have hadmits : (DefaultFragmentAdapter.new config).reassembler.AdmitsFirst
      ⟨⟨0⟩, FragmentIndex.zero, false⟩ [1] := by
    refine ⟨rfl, config.maxMessageSize.pos, fun _ => ⟨fun limit _ => limit.pos, ?_⟩⟩
    exact (ReassemblyBudget.byteCap _).pos
  have hexact : (DefaultFragmentAdapter.new config).reassembler.Exact := rfl
  have hempty : ∀ id, (DefaultFragmentAdapter.new config).reassembler.buffers.lookup id = none :=
    fun _ => rfl
  have hroom : (DefaultFragmentAdapter.new config).reassembler.buffers.size + 1 ≤ usizeMax := by
    show 0 + 1 ≤ usizeMax
    decide
  have hyoung : ∀ id p, (DefaultFragmentAdapter.new config).reassembler.buffers.lookup id = some p →
      Reassembler.expired config.reassemblyTimeout 0 p = false :=
    fun id p hp => absurd ((hempty id).symm.trans hp) (by simp)
  have hpush := Reassembler.pushAt_first_stored hexact hyoung (hempty ⟨0⟩) rfl hadmits hroom
  have hstored : reassembleIfNeeded (defaultSettings frameLength) (some (.new config))
      ⟨0, none, openingFragment⟩ 0 = .ok (.passed none, some { DefaultFragmentAdapter.new config with
        reassembler := (DefaultFragmentAdapter.new config).reassembler.storePartial ⟨0⟩
          ⟨⟨⟨0⟩, FragmentIndex.ofNat 1, false⟩, [1], 0⟩ }) := by
    simp only [reassembleIfNeeded, DefaultFragmentAdapter.reassemble, intoFragmentParts, id_eq,
      defaultSettings, plainSettings, hdecoded]
    rw [hpush]
    rfl
  exact ⟨_, rfl, hstored⟩

/-- **Frames that fit the transport overfill the default budgets.**  Sixty-four messages fill the
cap of message assembly, and one fragment is admitted on top of them. -/
theorem overfills (frameLength : ℕ) :
    ∃ turns r, (∀ turn ∈ turns, Short frameLength turn) ∧
      Trace.exec (step (defaultSettings frameLength)) (start (defaultSettings frameLength)) turns =
        some r ∧
      activeAggregateLimitBytes (effectiveBudgets (defaultSettings frameLength)) <
        r.bufferedBytes ∧
      r.pressure (defaultSettings frameLength) = .abort := by
  obtain ⟨hmin, hmax⟩ := clampFrameLength_bounds frameLength
  obtain ⟨turns, config, state, r, hshort, hrun, hfilled⟩ := fill frameLength le_rfl
  obtain ⟨adapter, hone, hreassemble⟩ := reassemble_openingFragment frameLength config
  have hhandle : handleFrame (defaultSettings frameLength) r.state openingFragment 0 0 id =
      .ok (.ok (), { r.state with fragmentation := some adapter }) :=
    handleFrame_fragment (decodeEnvelope_plain _ _) (hfilled.fragmentation ▸ hreassemble)
  obtain ⟨verdicts, hstep⟩ := step_frameTurn hfilled.result (hfilled.pressure_ne_abort le_rfl)
    hfilled.purgeExpired_eq hhandle
  have hlimit : activeAggregateLimitBytes (effectiveBudgets (defaultSettings frameLength)) =
      clampFrameLength frameLength * 64 := limit_default frameLength
  have hbytes : bufferedBytes ⟨{ r.state with fragmentation := some adapter }, none, verdicts⟩ =
      64 * clampFrameLength frameLength + 1 := by
    simp only [bufferedBytes, InboundState.fragmentationBufferedBytes, hfilled.messageAssembly,
      Option.map_some, Option.getD_some, (hfilled.bufferedBytes_eq le_rfl).1, hone]
  refine ⟨_, _, ?_, Trace.exec_concat hrun hstep, ?_, ?_⟩
  · intro turn hturn
    rcases List.mem_append.mp hturn with hbefore | hlast
    · exact hshort turn hbefore
    · refine ⟨_, List.mem_singleton.mp hlast, ?_⟩
      exact le_trans (by decide : openingFragment.length ≤ 64) hmin
  · rw [hlimit, hbytes]
    omega
  · rw [pressure_eq_abort_iff, hlimit, hbytes, usizeMax]
    omega

/-! ## The results -/

/-- **Each stage stays within the limit, and their sum decides.**  On a connection with the default
fragmentation and budgets of its frame length, with any message assembler, whatever its application
and its peer do, neither stage ever holds more than the active aggregate limit, and the loop aborts
exactly when what both hold together exceeds it. -/
theorem default_stages_le_limit {Fr Err : Type} (cfg : StreamSettings Fr Err)
    (hbudgets : cfg.memoryBudgets = none)
    (hfragmentation : cfg.fragmentation = defaultFragmentation cfg.codec.maxFrameLength)
    (turns : List (Turn Fr)) (r : InboundRun)
    (hrun : Trace.exec (step cfg) (start cfg) turns = some r) :
    (∀ adapter, r.state.fragmentation = some adapter →
      adapter.bufferedBytes ≤ activeAggregateLimitBytes (effectiveBudgets cfg)) ∧
    (∀ state, r.state.messageAssembly = some state →
      state.totalBufferedBytes ≤ activeAggregateLimitBytes (effectiveBudgets cfg)) ∧
    (r.pressure cfg = .abort ↔
      activeAggregateLimitBytes (effectiveBudgets cfg) < r.bufferedBytes) := by
  have hlimit : activeAggregateLimitBytes (effectiveBudgets cfg) =
      clampFrameLength cfg.codec.maxFrameLength * 64 := by
    rw [effectiveBudgets, hbudgets, resolveEffectiveBudgets, Option.getD_none, limit_default]
  obtain ⟨hfragments, hassemblies⟩ := (exec_capped hrun).default_le hbudgets
    fun config hconfig => hfragmentation.symm.trans hconfig
  refine ⟨fun adapter hadapter => ?_, fun state hstate => ?_, ?_⟩
  · rw [InboundState.fragmentationBufferedBytes, hadapter] at hfragments
    rw [hlimit]
    exact hfragments
  · rw [hlimit]
    exact hassemblies state hstate
  · -- the limit is far below the word at which the sum saturates
    have hmax := (clampFrameLength_bounds cfg.codec.maxFrameLength).2
    rw [pressure_eq_abort_iff, hlimit, usizeMax]
    omega

/-- At a frame length of 1024 bytes: sixty-five frames, none longer than that, and the loop aborts
the connection. -/
theorem overfills_1024 :
    ∃ turns r, (∀ turn ∈ turns, Short 1024 turn) ∧
      Trace.exec (step (defaultSettings 1024)) (start (defaultSettings 1024)) turns = some r ∧
      activeAggregateLimitBytes (effectiveBudgets (defaultSettings 1024)) < r.bufferedBytes ∧
      r.pressure (defaultSettings 1024) = .abort :=
  overfills 1024

/-- In that run each stage is within the limit on its own. -/
theorem default_stages_le_limit_1024 :
    ∃ turns r, Trace.exec (step (defaultSettings 1024)) (start (defaultSettings 1024)) turns =
        some r ∧
      (∀ state, r.state.messageAssembly = some state → state.totalBufferedBytes ≤
        activeAggregateLimitBytes (effectiveBudgets (defaultSettings 1024))) ∧
      activeAggregateLimitBytes (effectiveBudgets (defaultSettings 1024)) < r.bufferedBytes := by
  obtain ⟨turns, r, -, hrun, -, habort⟩ := overfills 1024
  obtain ⟨-, hassemblies, hiff⟩ :=
    default_stages_le_limit (defaultSettings 1024) rfl rfl turns r hrun
  exact ⟨turns, r, hrun, hassemblies, hiff.mp habort⟩

end InboundRun

end Wireframe
