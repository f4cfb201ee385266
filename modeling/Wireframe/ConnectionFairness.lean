/-
# Bounded bursts of high-priority frames

With `max_high_before_low` set to `n`, the tracker counts the high-priority frames of a burst
and asks for a low-priority frame when there are `n` of them.  But the count is also cleared by
frames of the active output, by a terminator and when the high-priority queue is found closed,
and the drain it asks for may find nothing.

While a low-priority frame waits, none of this lets a burst grow.  The arms of the `select!` are
polled in order, so the active output is not reached; the drain finds the frame; and once the
high-priority queue is gone there are no further frames to count.  `Pressed` lists what a step
can do in that situation, and `low_served_after_burst` is the bound over whole runs.
-/
import Mathlib.Tactic
import Wireframe.ConnectionDelivery

namespace Wireframe

namespace FairnessTracker

/-- A burst that need not yield is shorter than the bound. -/
theorem highCounter_lt_of_not_yield {f : FairnessTracker} {now : Instant}
    (hpos : 0 < f.config.maxHighBeforeLow) (h : f.shouldYieldToLowPriority now = false) :
    f.highCounter < f.config.maxHighBeforeLow := by
  by_contra hge
  have hyield : f.shouldYieldToLowPriority now = true := by
    unfold shouldYieldToLowPriority
    exact if_pos ⟨hpos, not_lt.mp hge⟩
  rw [hyield] at h
  cases h

end FairnessTracker

namespace ActorRun

variable {F E H : Type} {cfg : ActorSettings F E H} {r r' s s' : ActorRun F E H}

/-! ## The frames taken from a queue -/

/-- What was taken from a queue: all that was sent except what still waits. -/
def received (sent : List F) (rx : Option (Channel F)) : List F :=
  sent.take (sent.length - (queued rx).length)

def takenHigh (r : ActorRun F E H) : List F := received r.sentHigh r.highRx

def takenLow (r : ActorRun F E H) : List F := received r.sentLow r.lowRx

theorem received_eq {sent taken : List F} {rx : Option (Channel F)}
    (h : sent = taken ++ queued rx) : received sent rx = taken := by
  subst h
  simp [received]

theorem received_append_queued {sent : List F} {rx : Option (Channel F)}
    (h : queued rx <:+ sent) : received sent rx ++ queued rx = sent := by
  obtain ⟨taken, rfl⟩ := h
  rw [received_eq rfl]

/-- Taking the first waiting frame. -/
theorem received_take {sent rest : List F} {rx : Option (Channel F)} {frame : F} {closed : Bool}
    (hrx : rx = some ⟨frame :: rest, closed⟩) (h : queued rx <:+ sent) :
    received sent (some ⟨rest, closed⟩) = received sent rx ++ [frame] := by
  subst hrx
  apply received_eq
  rw [List.append_assoc]
  exact (received_append_queued h).symm

/-- A frame that is sent joins those that wait. -/
theorem received_send {sent queue : List F} {frame : F} {closed : Bool} :
    received (sent ++ [frame]) (some ⟨queue ++ [frame], closed⟩) =
      received sent (some ⟨queue, closed⟩) := by
  unfold received queued
  simp only [List.length_append, List.length_singleton]
  rw [show sent.length + 1 - (queue.length + 1) = sent.length - queue.length by omega]
  apply List.take_append_of_le_length
  omega

theorem received_close {sent : List F} (rx : Option (Channel F)) :
    received sent (rx.map Channel.close) = received sent rx := by
  rw [received, received, queued_close]

theorem suffix_concat {queue sent : List F} (h : queue <:+ sent) (frame : F) :
    queue ++ [frame] <:+ sent ++ [frame] := by
  obtain ⟨taken, rfl⟩ := h
  exact ⟨taken, (List.append_assoc taken queue [frame]).symm⟩

/-! ### Queues that only grow -/

/-- What waits in a queue is the end of what was sent to it. -/
structure Backed (r : ActorRun F E H) : Prop where
  high : queued r.highRx <:+ r.sentHigh
  low : queued r.lowRx <:+ r.sentLow

/-- The queues and what was sent to them are as before. -/
structure SameQueues (r r' : ActorRun F E H) : Prop where
  highRx : r'.highRx = r.highRx
  lowRx : r'.lowRx = r.lowRx
  sentHigh : r'.sentHigh = r.sentHigh
  sentLow : r'.sentLow = r.sentLow

namespace SameQueues

theorem refl (r : ActorRun F E H) : SameQueues r r := ⟨rfl, rfl, rfl, rfl⟩

theorem trans {r₁ r₂ r₃ : ActorRun F E H} (h : SameQueues r₁ r₂) (h' : SameQueues r₂ r₃) :
    SameQueues r₁ r₃ where
  highRx := h'.highRx.trans h.highRx
  lowRx := h'.lowRx.trans h.lowRx
  sentHigh := h'.sentHigh.trans h.sentHigh
  sentLow := h'.sentLow.trans h.sentLow

theorem takenHigh (h : SameQueues r r') : r'.takenHigh = r.takenHigh := by
  unfold ActorRun.takenHigh
  rw [h.highRx, h.sentHigh]

theorem takenLow (h : SameQueues r r') : r'.takenLow = r.takenLow := by
  unfold ActorRun.takenLow
  rw [h.lowRx, h.sentLow]

theorem backed (h : SameQueues r r') (hr : Backed r) : Backed r' := by
  constructor
  · rw [h.highRx, h.sentHigh]
    exact hr.high
  · rw [h.lowRx, h.sentLow]
    exact hr.low

end SameQueues

theorem Emits.sameQueues {origin : Origin} {frames : List F} (h : Emits origin frames r r') :
    SameQueues r r' := by
  obtain ⟨hooks, fragmenter, -, rfl⟩ := h
  exact ⟨rfl, rfl, rfl, rfl⟩

theorem processFrame_sameQueues [Fragmentable F] {origin : Origin} {frame : F}
    (h : r.processFrame cfg origin frame = .ok r') : SameQueues r r' := by
  obtain ⟨frames, hemits⟩ := processFrame_emits h
  exact hemits.sameQueues

theorem processFrame_fairness [Fragmentable F] {origin : Origin} {frame : F}
    (h : r.processFrame cfg origin frame = .ok r') : r'.fairness = r.fairness := by
  obtain ⟨frames, hooks, fragmenter, -, rfl⟩ := processFrame_emits h
  rfl

theorem processShutdown_backed (h : Backed r) : Backed (r.processShutdown cfg) := by
  obtain ⟨hhigh, hlow⟩ := h
  rw [← queued_close] at hhigh hlow
  obtain ⟨hooks, state, closures, invoked, heq⟩ := processShutdown_queues (r := r)
  rw [heq]
  exact ⟨hhigh, hlow⟩

/-! ### Every step -/

section Steps

variable [CorrelatableFrame F] [Fragmentable F]

theorem Ends.sameQueues {reason : OutputEnd} (h : Ends cfg reason r r') : SameQueues r r' := by
  obtain ⟨frames, hooks, fairness, fragmenter, -, -, -, rfl⟩ := h
  exact ⟨rfl, rfl, rfl, rfl⟩

/-- A move takes from the head of a queue. -/
theorem Move.backed (hmove : Move cfg r r') (h : Backed r) : Backed r' := by
  cases hmove with
  | cleared | protocolError _ _ | failed _ _ => exact ⟨h.high, h.low⟩
  | @high frame rest closed _ _ _ hrx hemit _ =>
    have hhigh := h.high
    rw [hrx] at hhigh
    have hbacked := (processFrame_sameQueues hemit).backed
      ⟨(List.suffix_cons frame rest).trans hhigh, h.low⟩
    exact ⟨hbacked.high, hbacked.low⟩
  | @low frame rest closed _ hrx hemit =>
    refine (processFrame_sameQueues hemit).backed ⟨h.high, ?_⟩
    have hlow := h.low
    rw [hrx] at hlow
    exact (List.suffix_cons frame rest).trans hlow
  | multi _ hemit | response _ hemit =>
    exact (processFrame_sameQueues hemit).backed ⟨h.high, h.low⟩
  | highClosed _ => exact ⟨List.nil_suffix, h.low⟩
  | lowClosed _ => exact ⟨h.high, List.nil_suffix⟩
  | ended _ _ hends => exact hends.sameQueues.backed h

omit [CorrelatableFrame F] [Fragmentable F] in
/-- A sender appends to the end of a queue. -/
theorem EnvStep.backed (henv : EnvStep r r') (h : Backed r) : Backed r' := by
  obtain ⟨hhigh, hlow⟩ := h
  cases henv with
  | highSent frame hrx =>
    rw [hrx] at hhigh
    exact ⟨suffix_concat hhigh frame, hlow⟩
  | lowSent frame hrx =>
    rw [hrx] at hlow
    exact ⟨hhigh, suffix_concat hlow frame⟩
  | highClosed =>
    rw [← queued_close] at hhigh
    exact ⟨hhigh, hlow⟩
  | lowClosed =>
    rw [← queued_close] at hlow
    exact ⟨hhigh, hlow⟩
  | responseSent _ _ | multiSent _ _ | responseClosed _ | multiClosed _ | cancelled =>
    exact ⟨hhigh, hlow⟩

omit [CorrelatableFrame F] [Fragmentable F] in
/-- The environment takes nothing from the queues. -/
theorem EnvStep.takenHigh (henv : EnvStep r r') : r'.takenHigh = r.takenHigh := by
  unfold ActorRun.takenHigh
  cases henv with
  | highSent frame hrx =>
    rw [hrx]
    exact received_send
  | highClosed => exact received_close r.highRx
  | lowSent _ _ | lowClosed | responseSent _ _ | multiSent _ _ | responseClosed _ | multiClosed _
  | cancelled => rfl

omit [CorrelatableFrame F] [Fragmentable F] in
theorem EnvStep.takenLow (henv : EnvStep r r') : r'.takenLow = r.takenLow := by
  unfold ActorRun.takenLow
  cases henv with
  | lowSent frame hrx =>
    rw [hrx]
    exact received_send
  | lowClosed => exact received_close r.lowRx
  | highSent _ _ | highClosed | responseSent _ _ | multiSent _ _ | responseClosed _ | multiClosed _
  | cancelled => rfl

/-! ## The policy is fixed -/

/-- No move replaces the fairness policy. -/
theorem Move.config (hmove : Move cfg r r') : r'.fairness.config = r.fairness.config := by
  cases hmove with
  | high _ hemit hrecord =>
    obtain ⟨frames, hooks, fragmenter, -, rfl⟩ := processFrame_emits hemit
    exact (FairnessTracker.recordHighPriority_eq_ok hrecord).1
  | low _ hemit | multi _ hemit | response _ hemit =>
    obtain ⟨frames, hooks, fragmenter, -, rfl⟩ := processFrame_emits hemit
    rfl
  | cleared | highClosed _ | lowClosed _ | protocolError _ _ | failed _ _ => rfl
  | ended _ _ hends =>
    obtain ⟨frames, hooks, fairness, fragmenter, -, ⟨hconfig, -⟩, -, rfl⟩ := hends
    exact hconfig

/-- What holds of the queues and the tracker in every run. -/
structure Queueing (config : FairnessConfig) (r : ActorRun F E H) : Prop extends Backed r where
  config : r.fairness.config = config

theorem step_queueing {config : FairnessConfig} {event : ActorEvent F E} (h : Queueing config r)
    (hstep : step cfg r event = some r') : Queueing config r' := by
  refine (step_cases hstep).keeps ?_ ?_ ?_ ?_ ?_ h
  · exact fun _ hr => { hr with }
  · exact fun _ hr => { hr with }
  · intro r r' hr henv
    refine ⟨henv.backed hr.toBacked, ?_⟩
    cases henv <;> exact hr.config
  · exact fun hr hmove => ⟨hmove.backed hr.toBacked, hmove.config.trans hr.config⟩
  · intro r hr _ _
    refine ⟨processShutdown_backed hr.toBacked, ?_⟩
    obtain ⟨hooks, state, closures, invoked, heq⟩ := processShutdown_queues (r := r)
    rw [heq]
    exact hr.config

theorem exec_queueing {kind : OutputKind} {config : FairnessConfig} {fragmenter : Option Fragmenter}
    {hooks : H} {es : List (ActorEvent F E)}
    (h : Trace.exec (step cfg) (start kind config fragmenter hooks) es = some r) :
    Queueing config r := by
  refine Trace.exec_invariant (fun _ _ _ hinv hstep => step_queueing hinv hstep) ?_ h
  exact ⟨⟨List.nil_suffix, List.nil_suffix⟩, rfl⟩

/-! ## A step while a low-priority frame waits -/

/-- What a step can do while a low-priority frame waits. -/
inductive Pressed (n : ℕ) (r r' : ActorRun F E H) : Prop where
  /-- no frame of a queue is taken and the tracker is left alone -/
  | quiet (hhigh : r'.takenHigh = r.takenHigh) (hclosed : r.highRx = none → r'.highRx = none)
      (hfairness : r'.fairness = r.fairness)
      (hpoint : r'.point = .pollOutput → r.point = .pollOutput)
  /-- a high-priority frame that does not complete a burst -/
  | high {frame : F} (hopen : r.highRx ≠ none) (hhigh : r'.takenHigh = r.takenHigh ++ [frame])
      (hcounter : r'.fairness.highCounter = r.fairness.highCounter + 1)
      (hless : r'.fairness.highCounter < n) (hpoint : r'.point ≠ .pollOutput)
  /-- a high-priority frame followed by the low-priority frame that waits -/
  | yielded {frame low : F} (hopen : r.highRx ≠ none)
      (hhigh : r'.takenHigh = r.takenHigh ++ [frame]) (hlow : r'.takenLow = r.takenLow ++ [low])
  | low {low : F} (hhigh : r'.takenHigh = r.takenHigh) (hlow : r'.takenLow = r.takenLow ++ [low])
  /-- the end of the high-priority queue, which clears the count -/
  | highClosed (hhigh : r'.takenHigh = r.takenHigh) (hclosed : r'.highRx = none)
  /-- the active output, whose frames clear the count -/
  | output (hpoint : r.point = .pollOutput) (hhigh : r'.takenHigh = r.takenHigh)
      (hclosed : r.highRx = none → r'.highRx = none)

omit [CorrelatableFrame F] [Fragmentable F] in
theorem EnvStep.pressed {n : ℕ} (henv : EnvStep r r') : Pressed n r r' := by
  have htaken := henv.takenHigh
  cases henv with
  | highSent frame hrx =>
    exact .quiet htaken (fun hnone => absurd (hrx.symm.trans hnone) nofun) rfl id
  | highClosed => exact .quiet htaken (fun hnone => Option.map_eq_none_iff.mpr hnone) rfl id
  | lowSent _ _ | lowClosed | responseSent _ _ | multiSent _ _ | responseClosed _ | multiClosed _
  | cancelled => exact .quiet htaken id rfl id

/-! ### The arms -/

/-- After a high-priority frame the burst is still short, or the drain takes the frame that
waits. -/
theorem afterHigh_cases {recorded asked : Instant} {low : F} {rest : List F} {closed : Bool}
    (hpos : 0 < r.fairness.config.maxHighBeforeLow) (hrx : r.lowRx = some ⟨low :: rest, closed⟩)
    (h : r.afterHigh cfg recorded asked = .ok r') :
    (SameQueues r r' ∧ r'.fairness.highCounter = r.fairness.highCounter + 1 ∧
      r'.fairness.highCounter < r.fairness.config.maxHighBeforeLow) ∨
    SameQueues { r with lowRx := some ⟨rest, closed⟩ } r' := by
  unfold afterHigh at h
  split at h
  · cases h
  rename_i fairness hrecord
  obtain ⟨hconfig, hcounter⟩ := FairnessTracker.recordHighPriority_eq_ok hrecord
  rcases ite_eq_iff.mp h with ⟨-, h⟩ | ⟨hyield, h⟩
  · -- the drain succeeds, so the multi-packet channel is not looked at
    right
    simp only [tryOpportunisticLowDrain, hrx, Channel.tryRecv] at h
    generalize hemit : processFrame cfg Origin.low _ low = emitted at h
    cases emitted with
    | error panic => exact absurd h (by simp)
    | ok r₁ =>
      cases h
      have hsame := processFrame_sameQueues hemit
      exact ⟨hsame.highRx, hsame.lowRx, hsame.sentHigh, hsame.sentLow⟩
  · left
    cases h
    refine ⟨⟨rfl, rfl, rfl, rfl⟩, hcounter, ?_⟩
    rw [← hconfig] at hpos ⊢
    exact FairnessTracker.highCounter_lt_of_not_yield hpos (Bool.eq_false_iff.mpr hyield)

/-- Handling an event panics and leaves the run where it was, or does what its dispatch does; the
output is not polled next. -/
theorem handleEvent_pressed {n : ℕ} {recorded asked : Instant} {event : Event F E}
    {taken : ActorRun F E H}
    (h : ∀ result r₁ point, point ≠ .pollOutput → dispatchEvent cfg recorded asked event
        { taken with events := taken.events ++ [event] } = .ok (result, r₁) →
      Pressed n r { r₁ with point := point }) :
    Pressed n r (r.handleEvent cfg recorded asked event taken) := by
  unfold handleEvent
  simp only
  split
  · exact .quiet rfl id rfl nofun
  · rename_i r₁ hdispatch
    exact h _ r₁ _ nofun hdispatch
  · rename_i r₁ hdispatch
    exact h _ r₁ _ nofun hdispatch

/-- A high-priority frame is forwarded while a low-priority frame waits. -/
theorem forwardHigh_pressed {n : ℕ} {recorded asked : Instant} {frame low : F}
    {rest waiting : List F} {closed lowClosed : Bool} {taken : ActorRun F E H} {point : RunPoint E}
    (hbacked : Backed r) (hconfig : r.fairness.config.maxHighBeforeLow = n) (hn : 0 < n)
    (hrx : r.highRx = some ⟨frame :: rest, closed⟩)
    (hwaits : r.lowRx = some ⟨low :: waiting, lowClosed⟩)
    (htaken : SameQueues { r with highRx := some ⟨rest, closed⟩ } taken)
    (hfairness : taken.fairness = r.fairness) (hpoint : point ≠ .pollOutput)
    (h : taken.forwardQueueFrame cfg recorded asked .high frame = .ok r') :
    Pressed n r { r' with point := point } := by
  have hopen : r.highRx ≠ none := by
    rw [hrx]
    exact nofun
  have hhigh := received_take hrx hbacked.high
  have hlow := received_take hwaits hbacked.low
  simp only [forwardQueueFrame, shouldEmitMultiPacketFrame, Bool.false_eq_true, if_false] at h
  split at h
  · cases h
  · rename_i r₁ hemit
    have hsame := htaken.trans (processFrame_sameQueues hemit)
    have hfair := (processFrame_fairness hemit).trans hfairness
    subst hconfig
    rw [← hfair] at hn
    rcases afterHigh_cases hn (hsame.lowRx.trans hwaits) h with ⟨hqueues, hcounter, hless⟩ | hqueues
    · rw [hfair] at hcounter hless
      exact .high hopen ((hsame.trans hqueues).takenHigh.trans hhigh) hcounter hless hpoint
    · have hserved : r'.takenLow = r.takenLow ++ [low] := by
        rw [hqueues.takenLow]
        show received r₁.sentLow _ = _
        rw [hsame.sentLow]
        exact hlow
      exact .yielded hopen (hqueues.takenHigh.trans (hsame.takenHigh.trans hhigh)) hserved

/-- A high-priority frame is counted, and at the end of a burst the waiting frame follows. -/
theorem pollHigh_pressed {n : ℕ} {recorded asked : Instant} {low : F} {waiting : List F}
    {lowClosed : Bool} (hbacked : Backed r) (hconfig : r.fairness.config.maxHighBeforeLow = n)
    (hn : 0 < n) (hwaits : r.lowRx = some ⟨low :: waiting, lowClosed⟩)
    (hpoint : r.point = .pollHigh)
    (h : r.poll cfg recorded asked = some r') : Pressed n r r' := by
  obtain ⟨highRx, _, _, _, _, _, _, _, _, point, _, _, _, _, _, _⟩ := r
  obtain rfl : point = .pollHigh := hpoint
  match highRx, h with
  | none, h | some ⟨[], false⟩, h =>
    cases h
    exact .quiet rfl id rfl nofun
  | some ⟨frame :: rest, closed⟩, h =>
    cases h
    refine handleEvent_pressed fun result r₁ point hpoint hdispatch => ?_
    have hqueue := map_eq_ok_run hdispatch
    refine forwardHigh_pressed hbacked hconfig hn rfl hwaits ?_ ?_ hpoint hqueue
    · exact ⟨rfl, rfl, rfl, rfl⟩
    · rfl
  | some ⟨[], true⟩, h =>
    cases h
    refine handleEvent_pressed fun result r₁ point hpoint hdispatch => ?_
    cases hdispatch
    exact .highClosed rfl rfl

/-- The low-priority arm serves the frame that waits. -/
theorem pollLow_pressed {n : ℕ} {recorded asked : Instant} {low : F} {waiting : List F}
    {lowClosed : Bool} (hbacked : Backed r) (hwaits : r.lowRx = some ⟨low :: waiting, lowClosed⟩)
    (hpoint : r.point = .pollLow) (h : r.poll cfg recorded asked = some r') : Pressed n r r' := by
  have hlow := received_take hwaits hbacked.low
  obtain ⟨_, lowRx, _, _, _, _, _, _, _, point, _, _, _, _, _, _⟩ := r
  obtain rfl : point = .pollLow := hpoint
  obtain rfl : lowRx = some ⟨low :: waiting, lowClosed⟩ := hwaits
  cases h
  refine handleEvent_pressed fun result r₁ point hpoint hdispatch => ?_
  have hqueue := map_eq_ok_run hdispatch
  simp only [processQueue, forwardQueueFrame, shouldEmitMultiPacketFrame, Bool.false_eq_true,
    if_false] at hqueue
  split at hqueue
  · cases hqueue
  · rename_i r₂ hemit
    cases hqueue
    have hsame := processFrame_sameQueues hemit
    exact .low hsame.takenHigh (hsame.takenLow.trans hlow)

/-- The active output is handled without looking at the queues. -/
theorem processQueue_multi_sameQueues {recorded asked : Instant} {res : Option F}
    (h : r.processQueue cfg recorded asked .multi res = .ok r') : SameQueues r r' := by
  cases res with
  | none => exact (handleMultiPacketClosed_ends h).sameQueues
  | some frame =>
    simp only [processQueue, forwardQueueFrame] at h
    split at h
    · cases h
    · rename_i r₁ hemit
      cases h
      have hsame : SameQueues r r₁ := by
        rcases ite_eq_iff.mp hemit with ⟨-, hemit⟩ | ⟨-, hemit⟩
        · exact processFrame_sameQueues hemit
        · exact processFrame_sameQueues hemit
      exact { hsame with }

omit [CorrelatableFrame F] in
/-- The response arm leaves the queues alone. -/
theorem handleResponse_sameQueues {res : Option (Except (WireframeError E) F)}
    {result : Except (WireframeError E) Bool} (h : r.handleResponse cfg res = .ok (result, r')) :
    SameQueues r r' := by
  unfold handleResponse at h
  split at h
  · obtain ⟨r₁, hemit, heq⟩ := Except.map_eq_ok h
    cases heq
    exact processFrame_sameQueues hemit
  · cases h
    exact ⟨rfl, rfl, rfl, rfl⟩
  · cases h
    exact .refl r
  · split at h
    · rename_i hasked
      obtain ⟨-, rfl⟩ := Prod.mk.inj hasked
      cases h
      exact ⟨rfl, rfl, rfl, rfl⟩
    · rename_i hasked
      obtain ⟨-, rfl⟩ := Prod.mk.inj hasked
      obtain ⟨r₁, hemit, heq⟩ := Except.map_eq_ok h
      cases heq
      have hsame := processFrame_sameQueues hemit
      exact { hsame with }

omit [CorrelatableFrame F] in
theorem processResponse_sameQueues {res : Option (Except (WireframeError E) F)}
    {result : Except (WireframeError E) Unit} (h : r.processResponse cfg res = .ok (result, r')) :
    SameQueues r r' := by
  unfold processResponse at h
  split at h
  · cases h
  · rename_i r₁ hresponse
    cases h
    exact handleResponse_sameQueues hresponse
  · rename_i produced r₁ hresponse
    cases h
    have hsame := handleResponse_sameQueues hresponse
    cases produced <;> cases res <;> exact { hsame with }

/-- The output arm takes nothing from the high-priority queue. -/
theorem pollOutput_pressed {n : ℕ} {recorded asked : Instant} (hpoint : r.point = .pollOutput)
    (h : r.poll cfg recorded asked = some r') : Pressed n r r' := by
  have hsame : ∀ {r'}, SameQueues r r' → Pressed n r r' := by
    intro r' hsame
    exact .output hpoint hsame.takenHigh hsame.highRx.trans
  have hmulti : ∀ {res taken}, SameQueues r taken →
      Pressed n r (r.handleEvent cfg recorded asked (.multiPacket res) taken) := by
    intro res taken htaken
    refine handleEvent_pressed fun result r₁ point _ hdispatch => hsame ?_
    have hqueues := processQueue_multi_sameQueues (map_eq_ok_run hdispatch)
    exact htaken.trans { hqueues with }
  have hresponse : ∀ {res taken}, SameQueues r taken →
      Pressed n r (r.handleEvent cfg recorded asked (.response res) taken) := by
    intro res taken htaken
    refine handleEvent_pressed fun result r₁ point _ hdispatch => hsame ?_
    have hqueues := processResponse_sameQueues hdispatch
    exact htaken.trans { hqueues with }
  unfold poll at h
  simp only [hpoint] at h
  split at h
  · split at h
    · split at h
      · cases h
        exact hsame ⟨rfl, rfl, rfl, rfl⟩
      · cases h
        exact hmulti ⟨rfl, rfl, rfl, rfl⟩
    · cases h
      exact hmulti (.refl r)
    · split at h
      · cases h
        exact hsame ⟨rfl, rfl, rfl, rfl⟩
      · cases h
        exact hresponse ⟨rfl, rfl, rfl, rfl⟩
    · cases h
      exact hsame ⟨rfl, rfl, rfl, rfl⟩
  · cases h
    refine handleEvent_pressed fun result r₁ point _ hdispatch => hsame ?_
    cases hdispatch
    exact ⟨rfl, rfl, rfl, rfl⟩

/-- At the top of the loop no frame is taken; shutdown only closes the queues. -/
theorem pollShutdown_pressed {n : ℕ} {recorded asked : Instant} (hpoint : r.point = .pollShutdown)
    (h : r.poll cfg recorded asked = some r') : Pressed n r r' := by
  unfold poll at h
  rw [hpoint] at h
  rcases ite_eq_iff.mp h with ⟨-, h⟩ | ⟨-, h⟩
  · cases h
    exact .quiet rfl id rfl nofun
  rcases ite_eq_iff.mp h with ⟨-, h⟩ | ⟨-, h⟩
  · cases h
    refine handleEvent_pressed fun result r₁ point hnext hdispatch => ?_
    cases hdispatch
    obtain ⟨hooks, state, closures, invoked, heq⟩ : ∃ _ _ _ _, processShutdown _ _ = _ :=
      processShutdown_queues
    rw [heq]
    refine .quiet (received_close r.highRx) ?_ rfl (fun hnow => absurd hnow hnext)
    exact fun hnone => Option.map_eq_none_iff.mpr hnone
  · cases h
    exact .quiet rfl id rfl nofun

/-- **What a step can do while a low-priority frame waits.** -/
theorem step_pressed {n : ℕ} {config : FairnessConfig} {event : ActorEvent F E}
    (hqueueing : Queueing config r) (hconfig : config.maxHighBeforeLow = n) (hn : 0 < n)
    (hwaits : queued r.lowRx ≠ []) (h : step cfg r event = some r') : Pressed n r r' := by
  obtain ⟨low, waiting, lowClosed, hlow⟩ :
      ∃ low waiting lowClosed, r.lowRx = some ⟨low :: waiting, lowClosed⟩ := by
    rcases hrx : r.lowRx with _ | ⟨_ | ⟨low, waiting⟩, lowClosed⟩
    · rw [hrx] at hwaits
      exact absurd rfl hwaits
    · rw [hrx] at hwaits
      exact absurd rfl hwaits
    · exact ⟨low, waiting, lowClosed, rfl⟩
  have hbacked := hqueueing.toBacked
  cases event with
  | polled recorded asked =>
    cases hpoint : r.point with
    | notStarted =>
      simp only [step, poll, hpoint] at h
      rcases ite_eq_iff.mp h with ⟨-, h⟩ | ⟨-, h⟩
      all_goals
        cases h
        exact .quiet rfl id rfl (by simp)
    | pollShutdown => exact pollShutdown_pressed hpoint h
    | pollHigh =>
      rw [← hqueueing.config] at hconfig
      exact pollHigh_pressed hbacked hconfig hn hlow hpoint h
    | pollLow => exact pollLow_pressed hbacked hlow hpoint h
    | pollOutput => exact pollOutput_pressed hpoint h
    | aborted | returned _ | panicked _ =>
      simp only [step, poll, hpoint] at h
      cases h
  | highSent _ | lowSent _ | outputSent _ | highClosed | lowClosed | outputClosed | cancelled =>
    refine (step_env ?_ h).pressed
    intro recorded asked
    simp

/-! ## Stretches of a run -/

/-- A low-priority frame waits before every event, and no event but the last takes one. -/
def LowWaits (cfg : ActorSettings F E H) : ActorRun F E H → List (ActorEvent F E) → Prop
  | _, [] => True
  | r, event :: later => queued r.lowRx ≠ [] ∧
      (later ≠ [] → ∀ r', step cfg r event = some r' →
        r'.takenLow = r.takenLow ∧ LowWaits cfg r' later)

/-! ### Bursts -/

/-- The high-priority frames of a stretch that began in `r`.  Either there are none yet; or they
are all counted, the burst is not complete and the output was not polled since; or there will be
no more. -/
def Burst (n : ℕ) (r s : ActorRun F E H) : Prop :=
  s.takenHigh = r.takenHigh ∨
  (s.takenHigh.length ≤ r.takenHigh.length + s.fairness.highCounter ∧
    s.fairness.highCounter < n ∧ s.point ≠ .pollOutput) ∨
  (s.takenHigh.length ≤ r.takenHigh.length + n ∧ s.highRx = none)

omit [CorrelatableFrame F] [Fragmentable F] in
theorem Burst.length_le {n : ℕ} (h : Burst n r s) :
    s.takenHigh.length ≤ r.takenHigh.length + n := by
  rcases h with hsame | ⟨hcounted, hless, -⟩ | ⟨hle, -⟩
  · rw [hsame]
    omega
  · omega
  · exact hle

omit [CorrelatableFrame F] [Fragmentable F] in
/-- A high-priority frame can be taken only if there is room for it. -/
theorem Burst.length_lt {n : ℕ} (h : Burst n r s) (hn : 0 < n) (hopen : s.highRx ≠ none) :
    s.takenHigh.length < r.takenHigh.length + n := by
  rcases h with hsame | ⟨hcounted, hless, -⟩ | ⟨-, hclosed⟩
  · rw [hsame]
    omega
  · omega
  · exact absurd hclosed hopen

omit [CorrelatableFrame F] [Fragmentable F] in
/-- One step of a stretch: it takes a low-priority frame within the bound, or the burst goes
on. -/
theorem Pressed.burst {n : ℕ} (hn : 0 < n) (hburst : Burst n r s) (h : Pressed n s s') :
    s'.takenHigh.length ≤ r.takenHigh.length + n ∧
      (s'.takenLow = s.takenLow → Burst n r s') := by
  cases h with
  | quiet hhigh hclosed hfairness hpoint =>
    have hnext : Burst n r s' := by
      unfold Burst
      rw [hhigh, hfairness]
      exact hburst.imp_right (Or.imp (And.imp_right (And.imp_right (mt hpoint)))
        (And.imp_right hclosed))
    exact ⟨hnext.length_le, fun _ => hnext⟩
  | high hopen hhigh hcounter hless hpoint =>
    have hnext : Burst n r s' := by
      refine Or.inr (Or.inl ⟨?_, hless, hpoint⟩)
      rw [hhigh, hcounter, List.length_append, List.length_singleton]
      rcases hburst with hsame | ⟨hcounted, -, -⟩ | ⟨-, hclosed⟩
      · rw [hsame]
        omega
      · omega
      · exact absurd hclosed hopen
    exact ⟨hnext.length_le, fun _ => hnext⟩
  | yielded hopen hhigh hlow =>
    have hroom := hburst.length_lt hn hopen
    constructor
    · rw [hhigh, List.length_append, List.length_singleton]
      omega
    · intro hsame
      rw [hlow] at hsame
      exact absurd hsame (by simp)
  | low hhigh hlow =>
    constructor
    · rw [hhigh]
      exact hburst.length_le
    · intro hsame
      rw [hlow] at hsame
      exact absurd hsame (by simp)
  | highClosed hhigh hclosed =>
    have hle : s'.takenHigh.length ≤ r.takenHigh.length + n := by
      rw [hhigh]
      exact hburst.length_le
    exact ⟨hle, fun _ => Or.inr (Or.inr ⟨hle, hclosed⟩)⟩
  | output hpoint hhigh hclosed =>
    have hle : s'.takenHigh.length ≤ r.takenHigh.length + n := by
      rw [hhigh]
      exact hburst.length_le
    refine ⟨hle, fun _ => ?_⟩
    -- the output clears the count, but is polled only before the first frame or after the last
    rcases hburst with hsame | ⟨-, -, hnot⟩ | ⟨-, hnone⟩
    · exact Or.inl (hhigh.trans hsame)
    · exact absurd hpoint hnot
    · exact Or.inr (Or.inr ⟨hle, hclosed hnone⟩)

/-- From any point of a stretch to its end. -/
theorem stretch_bound {n : ℕ} {config : FairnessConfig} {later : List (ActorEvent F E)}
    (hconfig : config.maxHighBeforeLow = n) (hn : 0 < n) (hqueueing : Queueing config s)
    (hburst : Burst n r s) (hwaits : LowWaits cfg s later)
    (h : Trace.exec (step cfg) s later = some r') :
    r'.takenHigh.length ≤ r.takenHigh.length + n := by
  induction later generalizing s with
  | nil =>
    obtain rfl : s = r' := by simpa [Trace.exec] using h
    exact hburst.length_le
  | cons event later ih =>
    obtain ⟨s', hstep, hrest⟩ := Trace.exec_cons_eq_some h
    obtain ⟨hnonempty, hnext⟩ := hwaits
    have hpressed := step_pressed hqueueing hconfig hn hnonempty hstep
    obtain ⟨hle, hgoes⟩ := hpressed.burst hn hburst
    cases later with
    | nil =>
      obtain rfl : s' = r' := by simpa [Trace.exec] using hrest
      exact hle
    | cons next rest =>
      obtain ⟨hsame, hwaits⟩ := hnext (List.cons_ne_nil next rest) s' hstep
      exact ih (step_queueing hqueueing hstep) (hgoes hsame) hwaits hrest

/-! ### The bound -/

/-- **While a low-priority frame waits, at most `n` high-priority frames are taken before the
next low-priority frame.** -/
theorem low_served_after_burst {n : ℕ} (hn : 0 < n) {kind : OutputKind} {timeSlice : Option ℕ}
    {fragmenter : Option Fragmenter} {hooks : H} {es later : List (ActorEvent F E)}
    (hrun : Trace.exec (step cfg) (start kind ⟨n, timeSlice⟩ fragmenter hooks) es = some r)
    (hwaits : LowWaits cfg r later) (hlater : Trace.exec (step cfg) r later = some r') :
    r'.takenHigh.length ≤ r.takenHigh.length + n :=
  stretch_bound rfl hn (exec_queueing hrun) (Or.inl rfl) hwaits hlater

/-- Two high-priority frames and one of low priority are queued before the loop starts. -/
def queuedFrames : List (ActorEvent FragmentParts Unit) :=
  [.polled 0 0, .lowSent ⟨9, none, []⟩, .highSent ⟨1, none, []⟩, .highSent ⟨2, none, []⟩]

/-- With a bound of one, the low-priority frame is taken before the second of the two. -/
theorem low_served_after_burst_one :
    ∃ r r', Trace.exec (step (bare bincodeHeader)) (start .none ⟨1, none⟩ none ()) queuedFrames =
        some r ∧
      LowWaits (bare bincodeHeader) r [.polled 0 0, .polled 0 0] ∧
      Trace.exec (step (bare bincodeHeader)) r [.polled 0 0, .polled 0 0] = some r' ∧
      r'.takenHigh = [⟨1, none, []⟩] ∧ r'.takenLow = [⟨9, none, []⟩] ∧
      r'.takenHigh.length ≤ r.takenHigh.length + 1 := by
  obtain ⟨r, hrun, hwaits, r', hlater, hhigh, hlow⟩ : ∃ r : ActorRun FragmentParts Unit Unit,
      Trace.exec (step (bare bincodeHeader)) (start .none ⟨1, none⟩ none ()) queuedFrames = some r ∧
      LowWaits (bare bincodeHeader) r [.polled 0 0, .polled 0 0] ∧
      ∃ r', Trace.exec (step (bare bincodeHeader)) r [.polled 0 0, .polled 0 0] = some r' ∧
        r'.takenHigh = [⟨1, none, []⟩] ∧ r'.takenLow = [⟨9, none, []⟩] := by
    refine ⟨_, rfl, ⟨List.cons_ne_nil _ _, fun _ r₁ h₁ => ?_⟩, _, rfl, rfl, rfl⟩
    cases h₁
    exact ⟨rfl, List.cons_ne_nil _ _, fun hlast => absurd rfl hlast⟩
  exact ⟨r, r', hrun, hwaits, hlater, hhigh, hlow,
    low_served_after_burst Nat.one_pos hrun hwaits hlater⟩

end Steps

end ActorRun

end Wireframe
