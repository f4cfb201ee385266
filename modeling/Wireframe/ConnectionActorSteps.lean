/-
# What a step of the connection actor can do

The handling of one event is a sequence of small moves: a frame is taken from a source and
emitted, a source is found closed and marked, the active output ends.  `Move` lists them with
everything each of them changes, and `step_cases` says that every event is a move of the
environment or a sequence of such moves.  The invariants of the actor are then shown move by
move.
-/
import Mathlib.Tactic
import Wireframe.ConnectionActor

namespace Wireframe

namespace ActorRun

open Fragmentable (intoFragmentParts fromFragmentParts)

variable {F E H : Type} {cfg : ActorSettings F E H} {r r' : ActorRun F E H}

/-! ## Emission -/

section Emission

variable [Fragmentable F] {origin : Origin}

/-- The frames were appended to `out`, each seen by the hook; nothing else that the loop looks
at has changed. -/
def Emits (origin : Origin) (frames : List F) (r r' : ActorRun F E H) : Prop :=
  ∃ hooks fragmenter, (r.fragmenter = none → fragmenter = none) ∧
    r' = { r with
      hooks := hooks
      fragmenter := fragmenter
      out := r.out ++ frames.map (Prod.mk origin)
      invoked := r.invoked ++ List.replicate frames.length .beforeSend }

omit [Fragmentable F] in
theorem Emits.out {frames : List F} (h : Emits origin frames r r') :
    r'.out = r.out ++ frames.map (Prod.mk origin) := by
  obtain ⟨hooks, fragmenter, -, rfl⟩ := h
  rfl

/-- What can leave in place of a frame: the frame, or a packet rebuilt from its parts around
another payload, as the hook left it. -/
def Descends (cfg : ActorSettings F E H) (frame sent : F) : Prop :=
  ∃ (hooks : H) (packet : F), sent = (cfg.hooks.beforeSend hooks packet).1 ∧
    (packet = frame ∨
      ∃ payload, packet = fromFragmentParts { intoFragmentParts frame with payload := payload })

omit [Fragmentable F] in
/-- Pushing frames one by one emits them in order. -/
theorem foldl_pushFrame_emits (r : ActorRun F E H) (frames : List F) :
    ∃ (sent : List F) (hooks : H), frames.foldl (pushFrame cfg origin) r =
      { r with
        hooks := hooks
        out := r.out ++ sent.map (Prod.mk origin)
        invoked := r.invoked ++ List.replicate sent.length .beforeSend } ∧
      ∀ f ∈ sent, ∃ hooks, ∃ packet ∈ frames, f = (cfg.hooks.beforeSend hooks packet).1 := by
  induction frames generalizing r with
  | nil => exact ⟨[], r.hooks, by simp, by simp⟩
  | cons frame frames ih =>
    obtain ⟨sent, hooks, heq, hsent⟩ := ih (r.pushFrame cfg origin frame)
    refine ⟨(cfg.hooks.beforeSend r.hooks frame).1 :: sent, hooks, ?_, ?_⟩
    · rw [List.foldl_cons, heq]
      simp [pushFrame, List.replicate_succ]
    · intro f hf
      rcases List.mem_cons.mp hf with rfl | hf
      · exact ⟨r.hooks, frame, List.mem_cons_self, rfl⟩
      · obtain ⟨hooks, packet, hpacket, rfl⟩ := hsent f hf
        exact ⟨hooks, packet, List.mem_cons_of_mem _ hpacket, rfl⟩

/-- The packets a frame is split into carry its identifiers. -/
theorem mem_fragmentPacket {codec : HeaderCodec} {fragmenter fragmenter' : Fragmenter}
    {frame packet : F} {frames : List F}
    (h : fragmentPacket codec fragmenter frame = .ok (.ok frames, fragmenter'))
    (hpacket : packet ∈ frames) :
    ∃ payload, packet = fromFragmentParts { intoFragmentParts frame with payload := payload } := by
  obtain ⟨messageId, batch, -, ⟨-, hencode⟩ | ⟨-, rfl⟩⟩ := fragmentPacket_ok_cases h
  · obtain ⟨i, hi, rfl⟩ := List.getElem_of_mem hpacket
    have hframes := encodeFrames_forall₂ hencode
    have hlength : i < batch.fragments.length := by
      rw [hframes.length_eq]
      exact hi
    obtain ⟨bytes, -, heq⟩ := hframes.get hlength hi
    exact ⟨bytes, heq⟩
  · obtain rfl := List.mem_singleton.mp hpacket
    exact ⟨(intoFragmentParts frame).payload, rfl⟩

/-- A frame is emitted as frames that descend from it. -/
theorem processFrame_descends {frame : F} (h : r.processFrame cfg origin frame = .ok r') :
    ∃ frames, Emits origin frames r r' ∧ ∀ f ∈ frames, Descends cfg frame f := by
  unfold processFrame at h
  cases hfragmenter : r.fragmenter with
  | none =>
    simp only [hfragmenter] at h
    cases h
    refine ⟨[(cfg.hooks.beforeSend r.hooks frame).1],
      ⟨(cfg.hooks.beforeSend r.hooks frame).2, none, fun _ => rfl, ?_⟩, ?_⟩
    · simp [pushFrame, ← hfragmenter]
    · intro f hf
      obtain rfl := List.mem_singleton.mp hf
      exact ⟨r.hooks, frame, rfl, Or.inl rfl⟩
  | some fragmenter =>
    simp only [hfragmenter] at h
    split at h
    · cases h
    · rename_i frames fragmenter' hsplit
      obtain ⟨sent, hooks, heq, hsent⟩ :
          ∃ (sent : List F) (hooks : H), frames.foldl _ _ = _ ∧ ∀ f ∈ sent, _ :=
        foldl_pushFrame_emits { r with fragmenter := some fragmenter' } frames
      rw [heq] at h
      cases h
      refine ⟨sent, ⟨hooks, some fragmenter', ?_, rfl⟩, fun f hf => ?_⟩
      · exact fun hnone => absurd hnone (by simp [hfragmenter])
      · obtain ⟨hooks, packet, hpacket, rfl⟩ := hsent f hf
        exact ⟨hooks, packet, rfl, Or.inr (mem_fragmentPacket hsplit hpacket)⟩
    · rename_i fragmenter' _
      cases h
      refine ⟨[], ⟨r.hooks, some fragmenter', ?_, ?_⟩, by simp⟩
      · exact fun hnone => absurd hnone (by simp [hfragmenter])
      · simp

theorem processFrame_emits {frame : F} (h : r.processFrame cfg origin frame = .ok r') :
    ∃ frames, Emits origin frames r r' := by
  obtain ⟨frames, hemits, -⟩ := processFrame_descends h
  exact ⟨frames, hemits⟩

/-- Without a fragmenter a frame is pushed as it is. -/
theorem processFrame_of_none (hnone : r.fragmenter = none) (frame : F) :
    r.processFrame cfg origin frame = .ok (r.pushFrame cfg origin frame) := by
  unfold processFrame
  simp only [hnone]

theorem processFrame_error {frame : F} {panic : Panic}
    (h : r.processFrame cfg origin frame = .error panic) : r.fragmenter ≠ none := by
  intro hnone
  rw [processFrame_of_none hnone] at h
  cases h

end Emission

/-! ## Shutdown -/

/-- Both queues are closed to new frames and the active output is dropped. -/
theorem processShutdown_none (hout : r.activeOutput = .none) :
    r.processShutdown cfg = { r with
      state := r.state.startShutdown
      highRx := r.highRx.map Channel.close
      lowRx := r.lowRx.map Channel.close } := by
  simp only [processShutdown, hout, ActiveOutput.shutdown, Bool.false_eq_true, if_false]

/-- A response stream is marked closed, and no hook is told. -/
theorem processShutdown_response {stream : Channel (Except (WireframeError E) F)}
    (hout : r.activeOutput = .response stream) :
    r.processShutdown cfg = { r with
      state := r.state.startShutdown.markClosed
      highRx := r.highRx.map Channel.close
      lowRx := r.lowRx.map Channel.close
      activeOutput := .none
      closures := r.closures ++ [.output .shutdown] } := by
  simp only [processShutdown, hout, ActiveOutput.shutdown, if_true, Bool.false_eq_true, if_false,
    markClosed]

/-- A multi-packet channel is marked closed and its command ends. -/
theorem processShutdown_multi {c : Channel F} {stamp : MultiPacketStamp}
    (hout : r.activeOutput = .multiPacket ⟨some c, stamp⟩) :
    r.processShutdown cfg = { r with
      state := r.state.startShutdown.markClosed
      highRx := r.highRx.map Channel.close
      lowRx := r.lowRx.map Channel.close
      activeOutput := .none
      hooks := cfg.hooks.onCommandEnd r.hooks
      closures := r.closures ++ [.output .shutdown]
      invoked := r.invoked ++ [.onCommandEnd] } := by
  simp only [processShutdown, hout, ActiveOutput.shutdown, Option.isSome_some, if_true, markClosed,
    onCommandEnd]

/-- Shutdown closes the queues and drops the active output; the tracker and `out` stay. -/
theorem processShutdown_queues : ∃ hooks state closures invoked,
    r.processShutdown cfg = { r with
      highRx := r.highRx.map Channel.close
      lowRx := r.lowRx.map Channel.close
      activeOutput := .none
      hooks := hooks
      state := state
      closures := closures
      invoked := invoked } := by
  unfold processShutdown
  cases r.activeOutput.shutdown with
  | mk sourceClosed callOnCommandEnd =>
    cases sourceClosed <;> cases callOnCommandEnd <;> exact ⟨_, _, _, _, rfl⟩

/-! ## Moves -/

section Moves

variable [CorrelatableFrame F] [Fragmentable F]

/-- The output was marked closed, the hook was asked for a terminator and the command has
ended.  What was emitted comes from a frame of the hook, stamped while the output was still
there. -/
def Ends (cfg : ActorSettings F E H) (reason : OutputEnd) (r r' : ActorRun F E H) : Prop :=
  ∃ (frames : List F) (hooks : H) (fairness : FairnessTracker) (fragmenter : Option Fragmenter),
    (r.fragmenter = none → fragmenter = none) ∧
    (fairness.config = r.fairness.config ∧ fairness.highCounter ≤ r.fairness.highCounter) ∧
    (∀ f ∈ frames, ∃ frame, Descends cfg (r.applyMultiPacketCorrelation frame) f) ∧
    r' = { r with
      activeOutput := .none
      hooks := hooks
      fairness := fairness
      fragmenter := fragmenter
      state := r.state.markClosed
      out := r.out ++ frames.map (Prod.mk Origin.terminator)
      closures := r.closures ++ [.output reason]
      invoked := r.invoked ++ (.streamEndFrame :: List.replicate frames.length .beforeSend) ++
        [.onCommandEnd] }

/-- The source has no further frames. -/
def Exhausted : ActiveOutput F E → Prop
  | .none => False
  | .response stream => stream = ⟨[], true⟩
  | .multiPacket ctx => ∀ c, ctx.channel = some c → c = ⟨[], true⟩

/-- The moves an event is made of. -/
inductive Move (cfg : ActorSettings F E H) (r : ActorRun F E H) : ActorRun F E H → Prop where
  /-- the burst is over -/
  | cleared : Move cfg r { r with fairness := r.fairness.reset }
  /-- a high-priority frame is forwarded and counted -/
  | high {frame : F} {rest : List F} {closed : Bool} {recorded : Instant}
      {fairness : FairnessTracker} {r' : ActorRun F E H}
      (hrx : r.highRx = some ⟨frame :: rest, closed⟩)
      (hemit : { r with highRx := some ⟨rest, closed⟩ }.processFrame cfg .high frame = .ok r')
      (hrecord : r'.fairness.recordHighPriority recorded = .ok fairness) :
      Move cfg r { r' with fairness := fairness }
  | low {frame : F} {rest : List F} {closed : Bool} {r' : ActorRun F E H}
      (hrx : r.lowRx = some ⟨frame :: rest, closed⟩)
      (hemit : { r with lowRx := some ⟨rest, closed⟩ }.processFrame cfg .low frame = .ok r') :
      Move cfg r r'
  | multi {frame : F} {rest : List F} {closed : Bool} {stamp : MultiPacketStamp}
      {r' : ActorRun F E H}
      (hout : r.activeOutput = .multiPacket ⟨some ⟨frame :: rest, closed⟩, stamp⟩)
      (hemit : { r with
        activeOutput := .multiPacket ⟨some ⟨rest, closed⟩, stamp⟩ }.emitMultiPacketFrame cfg
          .output frame = .ok r') :
      Move cfg r r'
  | response {frame : F} {rest : List (Except (WireframeError E) F)} {closed : Bool}
      {r' : ActorRun F E H} (hout : r.activeOutput = .response ⟨.ok frame :: rest, closed⟩)
      (hemit : { r with activeOutput := .response ⟨rest, closed⟩ }.processFrame cfg .output frame =
        .ok r') :
      Move cfg r r'
  | highClosed (hrx : r.highRx = some ⟨[], true⟩) :
      Move cfg r ({ r with highRx := none }.markClosed .high)
  | lowClosed (hrx : r.lowRx = some ⟨[], true⟩) :
      Move cfg r ({ r with lowRx := none }.markClosed .low)
  | ended {reason : OutputEnd} {r' : ActorRun F E H} (hout : Exhausted r.activeOutput)
      (hreason : reason = .drained ∨ reason = .disconnected) (hends : Ends cfg reason r r') :
      Move cfg r r'
  | protocolError {err : E} {rest : List (Except (WireframeError E) F)} {closed : Bool} {hooks : H}
      (hout : r.activeOutput = .response ⟨.error (.protocol err) :: rest, closed⟩)
      (hevent : .response (some (.error (.protocol err))) ∈ r.events) :
      Move cfg r { r with
        activeOutput := .none
        hooks := hooks
        state := r.state.markClosed
        closures := r.closures ++ [.output .protocolError]
        invoked := r.invoked ++ [.handleError] ++ [.onCommandEnd] }
  | failed {err : WireframeError E} {rest : List (Except (WireframeError E) F)} {closed : Bool}
      (hout : r.activeOutput = .response ⟨.error err :: rest, closed⟩)
      (herr : ∀ e, err ≠ .protocol e) :
      Move cfg r { r with activeOutput := .response ⟨rest, closed⟩ }

/-- Moves one after the other. -/
abbrev Moves (cfg : ActorSettings F E H) : ActorRun F E H → ActorRun F E H → Prop :=
  Relation.ReflTransGen (Move cfg)

omit [Fragmentable F] in
/-- Closing the receiver leaves the stamp in place. -/
theorem applyMultiPacketCorrelation_closed (frame : F) :
    { r with activeOutput := r.activeOutput.closeMultiPacket }.applyMultiPacketCorrelation frame =
      r.applyMultiPacketCorrelation frame := by
  cases hout : r.activeOutput with
  | none | response _ =>
    simp only [applyMultiPacketCorrelation, hout, ActiveOutput.closeMultiPacket]
  | multiPacket ctx =>
    simp only [applyMultiPacketCorrelation, hout, ActiveOutput.closeMultiPacket]
    rfl

/-- A channel that closes ends its command, with or without a terminator. -/
theorem handleMultiPacketClosed_ends {reason : OutputEnd}
    (h : r.handleMultiPacketClosed cfg reason = .ok r') : Ends cfg reason r r' := by
  simp only [handleMultiPacketClosed] at h
  split at h
  · rename_i r₁ hasked
    obtain ⟨-, rfl⟩ := Prod.mk.inj hasked
    cases h
    refine ⟨[], cfg.hooks.onCommandEnd (cfg.hooks.streamEndFrame r.hooks).2, r.fairness,
      r.fragmenter, id, ⟨rfl, le_rfl⟩, by simp, ?_⟩
    simp [markClosed, onCommandEnd]
  · rename_i frame r₁ hasked
    obtain ⟨-, rfl⟩ := Prod.mk.inj hasked
    split at h
    · cases h
    · rename_i r₂ hemit
      cases h
      obtain ⟨frames, ⟨hooks, fragmenter, hnone, rfl⟩, hframes⟩ := processFrame_descends hemit
      refine ⟨frames, cfg.hooks.onCommandEnd hooks, r.fairness.reset, fragmenter, hnone,
        ⟨rfl, Nat.zero_le _⟩, ?_, ?_⟩
      · intro f hf
        refine ⟨frame, ?_⟩
        rw [← applyMultiPacketCorrelation_closed]
        exact hframes f hf
      · simp [markClosed, onCommandEnd, afterLow]

/-- A drain that does not wait takes a frame, finds the queue closed, or does nothing. -/
theorem lowDrain_moves {forwarded : Bool}
    (h : r.tryOpportunisticLowDrain cfg = .ok (forwarded, r')) : Moves cfg r r' := by
  unfold tryOpportunisticLowDrain at h
  split at h
  · cases h
    exact .refl
  · rename_i c hrx
    rcases c.tryRecv_cases with ⟨frame, rest, closed, rfl, heq⟩ | ⟨rfl, heq⟩ | ⟨rfl, heq⟩
    · simp only [heq] at h
      split at h
      · cases h
      · rename_i r₁ hemit
        cases h
        exact .tail (.single (.low hrx hemit)) .cleared
    · simp only [heq] at h
      cases h
      exact .single (.lowClosed hrx)
    · simp only [heq] at h
      cases h
      rw [← hrx]

/-- The multi-packet drain forwards one frame, finds none, or ends the output. -/
theorem multiDrain_moves {forwarded : Bool}
    (h : r.tryOpportunisticMultiDrain cfg = .ok (forwarded, r')) : Moves cfg r r' := by
  unfold tryOpportunisticMultiDrain at h
  split at h
  · rename_i ctx hout
    obtain ⟨channel, stamp⟩ := ctx
    cases channel with
    | none =>
      cases h
      exact .refl
    | some c =>
      simp only at h
      rcases c.tryRecv_cases with ⟨frame, rest, closed, rfl, heq⟩ | ⟨rfl, heq⟩ | ⟨rfl, heq⟩
      · simp only [heq] at h
        split at h
        · cases h
        · rename_i r₁ hemit
          cases h
          exact .tail (.single (.multi hout hemit)) .cleared
      · simp only [heq, ← hout] at h
        split at h
        · cases h
        · rename_i r₁ hclose
          cases h
          refine .single (.ended ?_ (Or.inr rfl) (handleMultiPacketClosed_ends hclose))
          rw [hout]
          rintro c ⟨⟩
          rfl
      · simp only [heq, ← hout] at h
        cases h
        exact .refl
  · cases h
    exact .refl

/-- After a high-priority frame was counted, fairness may drain the low-priority queue, and the
multi-packet channel if that had nothing. -/
theorem afterHigh_moves {recorded asked : Instant} (h : r.afterHigh cfg recorded asked = .ok r') :
    ∃ fairness, r.fairness.recordHighPriority recorded = .ok fairness ∧
      Moves cfg { r with fairness := fairness } r' := by
  simp only [afterHigh] at h
  split at h
  · cases h
  · rename_i fairness hrecord
    refine ⟨fairness, hrecord, ?_⟩
    split at h
    · split at h
      · cases h
      · rename_i r₁ hlow
        cases h
        exact lowDrain_moves hlow
      · rename_i r₁ hlow
        split at h
        · cases h
        · rename_i r₂ hmulti
          cases h
          exact (lowDrain_moves hlow).trans (multiDrain_moves hmulti)
    · cases h
      exact .refl

/-! ## Events -/

/-- A frame of the high-priority queue, and what fairness drains after it. -/
theorem processQueue_high_moves {recorded asked : Instant} {frame : F} {rest : List F}
    {closed : Bool} (hrx : r.highRx = some ⟨frame :: rest, closed⟩)
    (h : { r with highRx := some ⟨rest, closed⟩ }.processQueue cfg recorded asked .high (some frame) =
      .ok r') : Moves cfg r r' := by
  simp only [processQueue, forwardQueueFrame, shouldEmitMultiPacketFrame] at h
  split at h
  · cases h
  · rename_i r₁ hemit
    obtain ⟨fairness, hrecord, hmoves⟩ := afterHigh_moves h
    exact .head (.high hrx hemit hrecord) hmoves

theorem processQueue_low_moves {recorded asked : Instant} {frame : F} {rest : List F}
    {closed : Bool} (hrx : r.lowRx = some ⟨frame :: rest, closed⟩)
    (h : { r with lowRx := some ⟨rest, closed⟩ }.processQueue cfg recorded asked .low (some frame) =
      .ok r') : Moves cfg r r' := by
  simp only [processQueue, forwardQueueFrame, shouldEmitMultiPacketFrame] at h
  split at h
  · cases h
  · rename_i r₁ hemit
    cases h
    exact .tail (.single (.low hrx hemit)) .cleared

/-- Without a stamp, stamping leaves the frame alone. -/
theorem processFrame_eq_emit {stamp : MultiPacketStamp} {channel : Option (Channel F)} {frame : F}
    (hout : r.activeOutput = .multiPacket ⟨channel, stamp⟩)
    (hstamp : (MultiPacketContext.mk channel stamp).isStampingEnabled ≠ true) :
    r.processFrame cfg .output frame = r.emitMultiPacketFrame cfg .output frame := by
  unfold emitMultiPacketFrame applyMultiPacketCorrelation
  rw [hout]
  simp only [if_neg hstamp]

/-- A multi-packet event forwards a frame or ends the output. -/
theorem processQueue_multi_moves {recorded asked : Instant} {frame : F} {rest : List F}
    {closed : Bool} {stamp : MultiPacketStamp}
    (hout : r.activeOutput = .multiPacket ⟨some ⟨frame :: rest, closed⟩, stamp⟩)
    (h : { r with activeOutput := .multiPacket ⟨some ⟨rest, closed⟩, stamp⟩ }.processQueue cfg
      recorded asked .multi (some frame) = .ok r') : Moves cfg r r' := by
  have hmoves : ∀ {r₁ : ActorRun F E H},
      { r with activeOutput := .multiPacket ⟨some ⟨rest, closed⟩, stamp⟩ }.emitMultiPacketFrame cfg
        .output frame = .ok r₁ → Moves cfg r r₁.afterLow := by
    intro r₁ hemit
    exact .tail (.single (.multi hout hemit)) .cleared
  simp only [processQueue, forwardQueueFrame, shouldEmitMultiPacketFrame] at h
  split at h
  · cases h
  · rename_i r₁ hemit
    cases h
    rcases ite_eq_iff.mp hemit with ⟨-, hemit⟩ | ⟨hstamp, hemit⟩
    · exact hmoves hemit
    · refine hmoves ?_
      rw [← processFrame_eq_emit rfl hstamp]
      exact hemit

/-- An item of the response stream is a frame, a protocol error that ends the stream, or an
error that ends the run. -/
theorem processResponse_moves {item : Except (WireframeError E) F}
    {rest : List (Except (WireframeError E) F)} {closed : Bool}
    {result : Except (WireframeError E) Unit}
    (hout : r.activeOutput = .response ⟨item :: rest, closed⟩)
    (hevent : .response (some item) ∈ r.events)
    (h : { r with activeOutput := .response ⟨rest, closed⟩ }.processResponse cfg (some item) =
      .ok (result, r')) : Moves cfg r r' := by
  cases item with
  | ok frame =>
    simp only [processResponse, handleResponse] at h
    generalize hemit : processFrame cfg Origin.output _ frame = emitted at h
    cases emitted with
    | error panic => exact absurd h (by simp [Except.map])
    | ok r₁ =>
      cases h
      exact .tail (.single (.response hout hemit)) .cleared
  | error err =>
    cases err with
    | protocol err =>
      cases h
      exact .single (.protocolError hout hevent)
    | duplicateRoute _ | io _ | codec _ =>
      cases h
      exact .single (.failed hout (by simp))

/-- The end of the response stream. -/
theorem processResponse_ends {result : Except (WireframeError E) Unit}
    (hout : r.activeOutput = .response ⟨[], true⟩)
    (h : r.processResponse cfg none = .ok (result, r')) : Moves cfg r r' := by
  refine .single (.ended ?_ (Or.inl rfl) ?_)
  · rw [hout]
    rfl
  · simp only [processResponse, handleResponse] at h
    cases hasked : (cfg.hooks.streamEndFrame r.hooks).1 with
    | none =>
      simp only [streamEndFrame, markClosed, hasked] at h
      cases h
      refine ⟨[], cfg.hooks.onCommandEnd (cfg.hooks.streamEndFrame r.hooks).2, r.fairness,
        r.fragmenter, id, ⟨rfl, le_rfl⟩, by simp, ?_⟩
      simp [onCommandEnd, hout, ActiveOutput.clearResponse]
    | some frame =>
      simp only [streamEndFrame, markClosed, hasked] at h
      generalize hemit : processFrame cfg Origin.terminator _ frame = emitted at h
      cases emitted with
      | error panic => exact absurd h (by simp [Except.map])
      | ok r₁ =>
        cases h
        obtain ⟨frames, ⟨hooks, fragmenter, hnone, rfl⟩, hframes⟩ := processFrame_descends hemit
        refine ⟨frames, cfg.hooks.onCommandEnd hooks, r.fairness.reset, fragmenter, hnone,
          ⟨rfl, Nat.zero_le _⟩, fun f hf => ⟨frame, ?_⟩, ?_⟩
        · simpa only [applyMultiPacketCorrelation, hout] using hframes f hf
        · simp [onCommandEnd, afterLow, hout, ActiveOutput.clearResponse]

/-! ## Panics -/

/-- A move does not install a fragmenter. -/
theorem Move.fragmenter_none (hmove : Move cfg r r') (hnone : r.fragmenter = none) :
    r'.fragmenter = none := by
  cases hmove with
  | cleared | highClosed _ | lowClosed _ | protocolError _ _ | failed _ _ => exact hnone
  | high _ hemit _ | low _ hemit | multi _ hemit | response _ hemit =>
    obtain ⟨frames, hooks, fragmenter, hkeep, rfl⟩ := processFrame_emits hemit
    exact hkeep hnone
  | ended _ _ hends =>
    obtain ⟨frames, hooks, fairness, fragmenter, hkeep, -, -, rfl⟩ := hends
    exact hkeep hnone

theorem Moves.fragmenter_none (hmoves : Moves cfg r r') (hnone : r.fragmenter = none) :
    r'.fragmenter = none := by
  induction hmoves with
  | refl => exact hnone
  | tail _ hmove ih => exact hmove.fragmenter_none ih

/-- What a panic comes from: a frame that was to be fragmented, or the count of a burst at the end
of its word. -/
def PanicCause (r : ActorRun F E H) (panic : Panic) : Prop :=
  r.fragmenter ≠ none ∨ panic = .arithmeticOverflow ∧ usizeMax ≤ r.fairness.highCounter

section Panics

variable {recorded asked : Instant} {panic : Panic}

theorem handleMultiPacketClosed_error {reason : OutputEnd}
    (h : r.handleMultiPacketClosed cfg reason = .error panic) : r.fragmenter ≠ none := by
  simp only [handleMultiPacketClosed] at h
  split at h
  · cases h
  · rename_i hasked
    obtain ⟨-, rfl⟩ := Prod.mk.inj hasked
    split at h
    · rename_i hemit
      have hsome := processFrame_error hemit
      exact hsome
    · cases h

omit [CorrelatableFrame F] in
theorem lowDrain_error (h : r.tryOpportunisticLowDrain cfg = .error panic) :
    r.fragmenter ≠ none := by
  unfold tryOpportunisticLowDrain at h
  split at h
  · cases h
  · split at h
    · split at h
      · rename_i hemit
        have hsome := processFrame_error hemit
        exact hsome
      · cases h
    · cases h
    · cases h

/-- The multi-packet drain panics only if frames are fragmented. -/
theorem multiDrain_error (h : r.tryOpportunisticMultiDrain cfg = .error panic) :
    r.fragmenter ≠ none := by
  simp only [tryOpportunisticMultiDrain] at h
  split at h
  · split at h
    · cases h
    · split at h
      · split at h
        · rename_i hemit
          have hsome := processFrame_error hemit
          exact hsome
        · cases h
      · cases h
      · split at h
        · rename_i hclose
          have hsome := handleMultiPacketClosed_error hclose
          exact hsome
        · cases h
  · cases h

/-- The count overflows, or one of the drains after it panics. -/
theorem afterHigh_error (h : r.afterHigh cfg recorded asked = .error panic) :
    PanicCause r panic := by
  simp only [afterHigh] at h
  split at h
  · rename_i hrecord
    rw [Except.error.inj h] at hrecord
    exact Or.inr (FairnessTracker.le_of_recordHighPriority_error hrecord)
  · left
    split at h
    · split at h
      · rename_i hlow
        have hsome := lowDrain_error hlow
        exact hsome
      · cases h
      · rename_i hlow
        split at h
        · rename_i hmulti
          intro hnone
          exact multiDrain_error hmulti ((lowDrain_moves hlow).fragmenter_none hnone)
        · cases h
    · cases h

/-- Forwarding a frame panics when its fragmentation does, or when the count after it does. -/
theorem forwardQueueFrame_error {kind : QueueKind} {frame : F}
    (h : r.forwardQueueFrame cfg recorded asked kind frame = .error panic) :
    PanicCause r panic := by
  simp only [forwardQueueFrame] at h
  split at h
  · rename_i hemit
    rcases ite_eq_iff.mp hemit with ⟨-, hemit⟩ | ⟨-, hemit⟩
    · exact Or.inl (processFrame_error hemit :)
    · exact Or.inl (processFrame_error hemit :)
  · rename_i r₁ hemit
    have hkeep : (r.fragmenter = none → r₁.fragmenter = none) ∧ r₁.fairness = r.fairness := by
      rcases ite_eq_iff.mp hemit with ⟨-, hemit⟩ | ⟨-, hemit⟩
      all_goals
        obtain ⟨frames, hooks, fragmenter, hkeep, rfl⟩ := processFrame_emits hemit
        exact ⟨hkeep, rfl⟩
    cases kind with
    | high =>
      have hcause := afterHigh_error h
      rw [PanicCause, hkeep.2] at hcause
      exact hcause.imp_left fun hsome hnone => hsome (hkeep.1 hnone)
    | low | multi => exact absurd h (by simp)

theorem processQueue_error {kind : QueueKind} {res : Option F}
    (h : r.processQueue cfg recorded asked kind res = .error panic) : PanicCause r panic := by
  unfold processQueue at h
  cases res with
  | some frame => exact forwardQueueFrame_error h
  | none =>
    cases kind with
    | high | low => exact absurd h (by simp [handleEmptyQueue])
    | multi => exact Or.inl (handleMultiPacketClosed_error h)

omit [CorrelatableFrame F] in
theorem handleResponse_panic {res : Option (Except (WireframeError E) F)}
    (h : r.handleResponse cfg res = .error panic) : r.fragmenter ≠ none := by
  unfold handleResponse at h
  split at h
  · have hsome := processFrame_error (Except.map_eq_error h)
    exact hsome
  · cases h
  · cases h
  · split at h
    · cases h
    · rename_i hasked
      obtain ⟨-, rfl⟩ := Prod.mk.inj hasked
      have hsome := processFrame_error (Except.map_eq_error h)
      exact hsome

/-- Only fragmentation and the count of a burst can panic. -/
theorem dispatchEvent_panic {event : Event F E}
    (h : dispatchEvent cfg recorded asked event r = .error panic) : PanicCause r panic := by
  unfold dispatchEvent at h
  cases event with
  | shutdown | idle => exact absurd h (by simp)
  | high res | low res | multiPacket res => exact processQueue_error (Except.map_eq_error h)
  | response res =>
    simp only [processResponse] at h
    split at h
    · rename_i hresponse
      exact Or.inl (handleResponse_panic (Except.error.inj h ▸ hresponse))
    · cases h
    · cases h

end Panics

/-! ## Steps -/

/-- What the environment can do. -/
inductive EnvStep (r : ActorRun F E H) : ActorRun F E H → Prop where
  | highSent {queue : List F} (frame : F) (hrx : r.highRx = some ⟨queue, false⟩) :
      EnvStep r { r with
        highRx := some ⟨queue ++ [frame], false⟩, sentHigh := r.sentHigh ++ [frame] }
  | lowSent {queue : List F} (frame : F) (hrx : r.lowRx = some ⟨queue, false⟩) :
      EnvStep r { r with
        lowRx := some ⟨queue ++ [frame], false⟩, sentLow := r.sentLow ++ [frame] }
  | responseSent {queue : List (Except (WireframeError E) F)} (item : Except (WireframeError E) F)
      (hout : r.activeOutput = .response ⟨queue, false⟩) :
      EnvStep r { r with
        activeOutput := .response ⟨queue ++ [item], false⟩
        sentOutput := r.sentOutput ++ [item] }
  | multiSent {queue : List F} {stamp : MultiPacketStamp} (frame : F)
      (hout : r.activeOutput = .multiPacket ⟨some ⟨queue, false⟩, stamp⟩) :
      EnvStep r { r with
        activeOutput := .multiPacket ⟨some ⟨queue ++ [frame], false⟩, stamp⟩
        sentOutput := r.sentOutput ++ [.ok frame] }
  | highClosed : EnvStep r { r with highRx := r.highRx.map Channel.close }
  | lowClosed : EnvStep r { r with lowRx := r.lowRx.map Channel.close }
  | responseClosed {stream : Channel (Except (WireframeError E) F)}
      (hout : r.activeOutput = .response stream) :
      EnvStep r { r with activeOutput := .response stream.close }
  | multiClosed {channel : Option (Channel F)} {stamp : MultiPacketStamp}
      (hout : r.activeOutput = .multiPacket ⟨channel, stamp⟩) :
      EnvStep r { r with activeOutput := .multiPacket ⟨channel.map Channel.close, stamp⟩ }
  | cancelled : EnvStep r { r with shutdown := true }

/-- What an event of a run can do. -/
inductive RunStep (cfg : ActorSettings F E H) (r : ActorRun F E H) : ActorRun F E H → Prop where
  | env {r' : ActorRun F E H} (henv : EnvStep r r') : RunStep cfg r r'
  | passed {point : RunPoint E} (hpoint : ∀ result, point ≠ .returned result)
      (hpanic : ∀ panic, point ≠ .panicked panic) : RunStep cfg r { r with point := point }
  | panicked {panic : Panic} (hcause : PanicCause r panic) :
      RunStep cfg r { r with point := .panicked panic }
  | finished (hdone : r.state.runState = .finished) :
      RunStep cfg r { r with point := .returned (.ok ()) }
  | handled {event : Event F E} {r₁ : ActorRun F E H} {point : RunPoint E}
      (hevent : event ≠ .shutdown)
      (hmoves : Moves cfg { r with events := r.events ++ [event] } r₁)
      (hpoint : point = .pollShutdown ∨
        ∃ err, point = .returned (.error err) ∧ r₁.activeOutput.isResponse = true) :
      RunStep cfg r { r₁ with point := point }
  | shutdown (hpoint : r.point = .pollShutdown) (hactive : r.state.runState = .active)
      (hcancelled : r.shutdown = true) :
      RunStep cfg r { processShutdown cfg { r with events := r.events ++ [.shutdown] } with
        point := .pollShutdown }

section Inversion

variable {recorded asked : Instant}

omit [CorrelatableFrame F] in
theorem handleResponse_error {res : Option (Except (WireframeError E) F)} {err : WireframeError E}
    (h : r.handleResponse cfg res = .ok (.error err, r')) : res = some (.error err) ∧ r' = r := by
  unfold handleResponse at h
  split at h
  · obtain ⟨_, -, heq⟩ := Except.map_eq_ok h
    cases heq
  · obtain ⟨⟨⟩, -⟩ := Prod.mk.inj (Except.ok.inj h)
  · obtain ⟨⟨⟩, rfl⟩ := Prod.mk.inj (Except.ok.inj h)
    exact ⟨rfl, rfl⟩
  · split at h
    · obtain ⟨⟨⟩, -⟩ := Prod.mk.inj (Except.ok.inj h)
    · obtain ⟨_, -, heq⟩ := Except.map_eq_ok h
      cases heq

/-- Only an error of the response stream ends the run early, and the stream is left in place. -/
theorem dispatchEvent_error {event : Event F E} {err : WireframeError E}
    (h : dispatchEvent cfg recorded asked event r = .ok (.error err, r')) :
    event = .response (some (.error err)) ∧ r' = r := by
  unfold dispatchEvent at h
  cases event with
  | shutdown | idle =>
    obtain ⟨⟨⟩, -⟩ := Prod.mk.inj (Except.ok.inj h)
  | high res | low res | multiPacket res =>
    obtain ⟨_, -, heq⟩ := Except.map_eq_ok h
    cases heq
  | response res =>
    simp only [processResponse] at h
    split at h
    · cases h
    · rename_i hresponse
      obtain ⟨⟨⟩, rfl⟩ := Prod.mk.inj (Except.ok.inj h)
      obtain ⟨rfl, rfl⟩ := handleResponse_error hresponse
      exact ⟨rfl, rfl⟩
    · obtain ⟨⟨⟩, -⟩ := Prod.mk.inj (Except.ok.inj h)

/-- An event is handled by the moves its dispatch makes. -/
theorem handleEvent_runStep {event : Event F E} {taken : ActorRun F E H} (hevent : event ≠ .shutdown)
    (hfragmenter : taken.fragmenter = r.fragmenter) (hfairness : taken.fairness = r.fairness)
    (hresponse : ∀ item, event = .response (some item) → taken.activeOutput.isResponse = true)
    (hmoves : ∀ result r₁, dispatchEvent cfg recorded asked event
        { taken with events := taken.events ++ [event] } = .ok (result, r₁) →
      Moves cfg { r with events := r.events ++ [event] } r₁) :
    RunStep cfg r (r.handleEvent cfg recorded asked event taken) := by
  simp only [handleEvent]
  split
  · rename_i hdispatch
    have hcause := dispatchEvent_panic hdispatch
    refine .panicked ?_
    rw [PanicCause, ← hfragmenter, ← hfairness]
    exact hcause
  · rename_i err r₁ hdispatch
    obtain ⟨rfl, rfl⟩ := dispatchEvent_error hdispatch
    exact .handled hevent (hmoves _ _ hdispatch) (Or.inr ⟨err, rfl, hresponse _ rfl⟩)
  · rename_i r₁ hdispatch
    exact .handled hevent (hmoves _ _ hdispatch) (Or.inl rfl)

omit [CorrelatableFrame F] [Fragmentable F] in
/-- Dispatching a queue event adds nothing to what `process_queue` does. -/
theorem map_eq_ok_run {x : Except Panic (ActorRun F E H)} {result : Except (WireframeError E) Unit}
    (h : x.map (fun r => ((.ok (), r) : Except (WireframeError E) Unit × ActorRun F E H)) =
      .ok (result, r')) : x = .ok r' := by
  obtain ⟨r₁, hx, heq⟩ := Except.map_eq_ok h
  cases heq
  exact hx

/-- The arm of the high-priority queue. -/
theorem pollHigh_runStep (hpoint : r.point = .pollHigh) (h : r.poll cfg recorded asked = some r') :
    RunStep cfg r r' := by
  obtain ⟨highRx, _, _, _, _, _, _, _, _, point, _, _, _, _, _, _⟩ := r
  obtain rfl : point = .pollHigh := hpoint
  match highRx, h with
  | none, h | some ⟨[], false⟩, h =>
    cases h
    exact .passed nofun nofun
  | some ⟨frame :: rest, closed⟩, h =>
    cases h
    refine handleEvent_runStep nofun rfl rfl nofun fun result r₁ hdispatch => ?_
    have hqueue := map_eq_ok_run hdispatch
    exact processQueue_high_moves rfl hqueue
  | some ⟨[], true⟩, h =>
    cases h
    refine handleEvent_runStep nofun rfl rfl nofun fun result r₁ hdispatch => ?_
    cases hdispatch
    exact .tail (.single (.highClosed rfl)) .cleared

/-- The arm of the low-priority queue. -/
theorem pollLow_runStep (hpoint : r.point = .pollLow) (h : r.poll cfg recorded asked = some r') :
    RunStep cfg r r' := by
  obtain ⟨_, lowRx, _, _, _, _, _, _, _, point, _, _, _, _, _, _⟩ := r
  obtain rfl : point = .pollLow := hpoint
  match lowRx, h with
  | none, h | some ⟨[], false⟩, h =>
    cases h
    exact .passed nofun nofun
  | some ⟨frame :: rest, closed⟩, h =>
    cases h
    refine handleEvent_runStep nofun rfl rfl nofun fun result r₁ hdispatch => ?_
    have hqueue := map_eq_ok_run hdispatch
    exact processQueue_low_moves rfl hqueue
  | some ⟨[], true⟩, h =>
    cases h
    refine handleEvent_runStep nofun rfl rfl nofun fun result r₁ hdispatch => ?_
    cases hdispatch
    exact .single (.lowClosed rfl)

/-- The multi-packet channel, when its arm is enabled. -/
theorem pollMulti_runStep {channel : Option (Channel F)} {stamp : MultiPacketStamp}
    (hpoint : r.point = .pollOutput) (hout : r.activeOutput = .multiPacket ⟨channel, stamp⟩)
    (hactive : r.state.isShuttingDown = false) (h : r.poll cfg recorded asked = some r') :
    RunStep cfg r r' := by
  have havailable : r.computeAvailability.output = .multiPacket := by
    simp [computeAvailability, ActiveOutput.availableOutput, hout, hactive]
  have harm : r.anyArmEnabled = true := by
    simp [anyArmEnabled, havailable]
  have hclosed : ∀ {result r₁}, (channel = none ∨ channel = some ⟨[], true⟩) →
      dispatchEvent cfg recorded asked (.multiPacket none)
        { r with events := r.events ++ [.multiPacket none] } = .ok (result, r₁) →
      Moves cfg { r with events := r.events ++ [.multiPacket none] } r₁ := by
    intro result r₁ hchannel hdispatch
    have hqueue := map_eq_ok_run hdispatch
    refine .single (.ended ?_ (Or.inl rfl) (handleMultiPacketClosed_ends hqueue))
    show Exhausted r.activeOutput
    rw [hout]
    rintro c rfl
    simpa using hchannel
  obtain ⟨_, _, activeOutput, _, _, _, _, _, _, point, _, _, _, _, _, _⟩ := r
  obtain rfl : point = .pollOutput := hpoint
  obtain rfl : activeOutput = .multiPacket ⟨channel, stamp⟩ := hout
  simp only [poll, harm, havailable, if_true] at h
  match channel, h with
  | none, h =>
    cases h
    refine handleEvent_runStep nofun rfl rfl nofun fun result r₁ hdispatch => ?_
    exact hclosed (Or.inl rfl) hdispatch
  | some ⟨[], true⟩, h =>
    cases h
    refine handleEvent_runStep nofun rfl rfl nofun fun result r₁ hdispatch => ?_
    exact hclosed (Or.inr rfl) hdispatch
  | some ⟨[], false⟩, h =>
    cases h
    exact .passed nofun nofun
  | some ⟨frame :: rest, closed⟩, h =>
    cases h
    refine handleEvent_runStep nofun rfl rfl nofun fun result r₁ hdispatch => ?_
    have hqueue := map_eq_ok_run hdispatch
    exact processQueue_multi_moves rfl hqueue

/-- The response stream, when its arm is enabled. -/
theorem pollResponse_runStep {stream : Channel (Except (WireframeError E) F)}
    (hpoint : r.point = .pollOutput) (hout : r.activeOutput = .response stream)
    (hactive : r.state.isShuttingDown = false) (h : r.poll cfg recorded asked = some r') :
    RunStep cfg r r' := by
  have havailable : r.computeAvailability.output = .response := by
    simp [computeAvailability, ActiveOutput.availableOutput, hout, hactive]
  have harm : r.anyArmEnabled = true := by
    simp [anyArmEnabled, havailable]
  obtain ⟨_, _, activeOutput, _, _, _, _, _, _, point, _, _, _, _, _, _⟩ := r
  obtain rfl : point = .pollOutput := hpoint
  obtain rfl : activeOutput = .response stream := hout
  simp only [poll, harm, havailable, if_true] at h
  match stream, h with
  | ⟨[], false⟩, h =>
    cases h
    exact .passed nofun nofun
  | ⟨[], true⟩, h =>
    cases h
    refine handleEvent_runStep nofun rfl rfl nofun fun result r₁ hdispatch => ?_
    exact processResponse_ends rfl hdispatch
  | ⟨item :: rest, closed⟩, h =>
    cases h
    refine handleEvent_runStep nofun rfl rfl (fun _ _ => rfl) fun result r₁ hdispatch => ?_
    exact processResponse_moves rfl (by simp) hdispatch

/-- No output can be selected: the loop goes round, or is idle. -/
theorem pollNothing_runStep (hpoint : r.point = .pollOutput)
    (havailable : r.computeAvailability.output = .none)
    (h : r.poll cfg recorded asked = some r') : RunStep cfg r r' := by
  unfold poll at h
  rw [hpoint] at h
  simp only [havailable] at h
  rcases ite_eq_iff.mp h with ⟨-, h⟩ | ⟨-, h⟩
  · cases h
    exact .passed nofun nofun
  · cases h
    refine handleEvent_runStep nofun rfl rfl nofun fun result r₁ hdispatch => ?_
    cases hdispatch
    exact .refl

theorem pollOutput_runStep (hpoint : r.point = .pollOutput)
    (h : r.poll cfg recorded asked = some r') : RunStep cfg r r' := by
  cases hactive : r.state.isShuttingDown with
  | true =>
    refine pollNothing_runStep hpoint ?_ h
    simp [computeAvailability, ActiveOutput.availableOutput, hactive]
  | false =>
    cases hout : r.activeOutput with
    | none =>
      refine pollNothing_runStep hpoint ?_ h
      simp [computeAvailability, ActiveOutput.availableOutput, hactive, hout]
    | response stream => exact pollResponse_runStep hpoint hout hactive h
    | multiPacket ctx => exact pollMulti_runStep hpoint hout hactive h

/-- An active run that finds the token cancelled starts to shut down. -/
theorem poll_shutdown (hpoint : r.point = .pollShutdown) (hactive : r.state.runState = .active)
    (hcancelled : r.shutdown = true) :
    r.poll cfg recorded asked =
      some { processShutdown cfg { r with events := r.events ++ [.shutdown] } with
        point := .pollShutdown } := by
  have hdone : r.state.isDone = false := by simp [ActorState.isDone, hactive]
  have hselect : (r.state.isActive && r.shutdown) = true := by
    simp [ActorState.isActive, hactive, hcancelled]
  obtain ⟨_, _, _, _, _, _, _, _, _, point, _, _, _, _, _, _⟩ := r
  obtain rfl : point = .pollShutdown := hpoint
  simp only [poll, hdone, hselect, Bool.false_eq_true, if_false, if_true]
  rfl

/-- The top of the loop: the run is over, is told to shut down, or goes on polling. -/
theorem pollShutdown_runStep (hpoint : r.point = .pollShutdown)
    (h : r.poll cfg recorded asked = some r') : RunStep cfg r r' := by
  unfold poll at h
  rw [hpoint] at h
  rcases ite_eq_iff.mp h with ⟨hdone, h⟩ | ⟨-, h⟩
  · cases h
    exact .finished (of_decide_eq_true hdone)
  · rcases ite_eq_iff.mp h with ⟨hshutdown, h⟩ | ⟨-, h⟩
    · obtain ⟨hactive, hcancelled⟩ := (Bool.and_eq_true _ _).mp hshutdown
      cases h
      exact .shutdown hpoint (of_decide_eq_true hactive) hcancelled
    · cases h
      exact .passed nofun nofun

/-- **Inversion** of a poll, arm by arm. -/
theorem poll_runStep (h : r.poll cfg recorded asked = some r') : RunStep cfg r r' := by
  cases hpoint : r.point with
  | notStarted =>
    unfold poll at h
    rw [hpoint] at h
    rcases ite_eq_iff.mp h with ⟨-, h⟩ | ⟨-, h⟩
    all_goals
      cases h
      exact .passed nofun nofun
  | pollShutdown => exact pollShutdown_runStep hpoint h
  | pollHigh => exact pollHigh_runStep hpoint h
  | pollLow => exact pollLow_runStep hpoint h
  | pollOutput => exact pollOutput_runStep hpoint h
  | aborted | returned _ | panicked _ =>
    unfold poll at h
    rw [hpoint] at h
    cases h

/-! ## Every event -/

theorem sendTo_eq_some {α : Type} {rx : Option (Channel α)} {a : α} {c : Channel α}
    (h : sendTo rx a = some c) :
    ∃ queue, rx = some ⟨queue, false⟩ ∧ c = ⟨queue ++ [a], false⟩ := by
  obtain ⟨⟨queue, closed⟩, rfl, hsend⟩ := Option.bind_eq_some_iff.mp h
  obtain ⟨rfl, rfl⟩ : closed = false ∧ _ := Channel.send_eq_some hsend
  exact ⟨queue, rfl, rfl⟩

/-- What is not a poll is done by the environment. -/
theorem step_env {event : ActorEvent F E} (hevent : ∀ recorded asked, event ≠ .polled recorded asked)
    (h : step cfg r event = some r') : EnvStep r r' := by
  cases event with
  | polled recorded asked => exact absurd rfl (hevent recorded asked)
  | highSent frame =>
    obtain ⟨c, hsend, rfl⟩ := Option.map_eq_some_iff.mp h
    obtain ⟨queue, hrx, rfl⟩ := sendTo_eq_some hsend
    exact .highSent frame hrx
  | lowSent frame =>
    obtain ⟨c, hsend, rfl⟩ := Option.map_eq_some_iff.mp h
    obtain ⟨queue, hrx, rfl⟩ := sendTo_eq_some hsend
    exact .lowSent frame hrx
  | outputSent item =>
    simp only [step] at h
    split at h
    · rename_i stream hout
      obtain ⟨c, hsend, rfl⟩ := Option.map_eq_some_iff.mp h
      obtain ⟨queue, closed⟩ := stream
      obtain ⟨rfl, rfl⟩ : closed = false ∧ _ := Channel.send_eq_some hsend
      exact .responseSent _ hout
    · rename_i ctx frame hout
      obtain ⟨c, hsend, rfl⟩ := Option.map_eq_some_iff.mp h
      obtain ⟨channel, stamp⟩ := ctx
      obtain ⟨queue, rfl, rfl⟩ := sendTo_eq_some hsend
      exact .multiSent frame hout
    · cases h
  | highClosed =>
    cases h
    exact .highClosed
  | lowClosed =>
    cases h
    exact .lowClosed
  | outputClosed =>
    simp only [step] at h
    split at h
    · rename_i stream hout
      cases h
      exact .responseClosed hout
    · rename_i ctx hout
      cases h
      exact .multiClosed hout
    · cases h
  | cancelled =>
    cases h
    exact .cancelled

/-- **Every event of a run is one of the steps.** -/
theorem step_cases {event : ActorEvent F E} (h : step cfg r event = some r') : RunStep cfg r r' := by
  cases event with
  | polled recorded asked => exact poll_runStep h
  | highSent _ | lowSent _ | outputSent _ | highClosed | lowClosed | outputClosed | cancelled =>
    refine .env (step_env ?_ h)
    exact fun _ _ => nofun

end Inversion

/-! ## Invariant rules -/

section Rules

variable {P : ActorRun F E H → Prop}

theorem Moves.keeps (hmove : ∀ {r r'}, P r → Move cfg r r' → P r') (h : Moves cfg r r') (hr : P r) :
    P r' := by
  induction h with
  | refl => exact hr
  | tail _ hstep ih => exact hmove ih hstep

/-- A property that neither the loop's position nor its log matters to is kept by a step if the
environment, the moves and the start of shutdown keep it. -/
theorem RunStep.keeps (hpoint : ∀ {r} point, P r → P { r with point := point })
    (hevent : ∀ {r} event, P r → P { r with events := r.events ++ [event] })
    (henv : ∀ {r r'}, P r → EnvStep r r' → P r')
    (hmove : ∀ {r r'}, P r → Move cfg r r' → P r')
    (hshutdown : ∀ {r}, P r → r.state.runState = .active → r.shutdown = true →
      P (r.processShutdown cfg))
    (h : RunStep cfg r r') (hr : P r) : P r' := by
  cases h with
  | env h => exact henv hr h
  | passed _ _ | panicked _ | finished _ => exact hpoint _ hr
  | handled _ hmoves _ => exact hpoint _ (hmoves.keeps hmove (hevent _ hr))
  | shutdown _ hactive hcancelled => exact hpoint _ (hshutdown (hevent _ hr) hactive hcancelled)

end Rules

end Moves

end ActorRun

end Wireframe
