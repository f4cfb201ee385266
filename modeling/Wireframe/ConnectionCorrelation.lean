/-
# Correlation ids of what the connection actor emits

Frames of the multi-packet channel are stamped with the correlation id the channel was installed
under, and so is its terminator; frames of the priority queues are not.  Stamping comes before
fragmentation, and the terminator's comes while the channel's context is still there.  A frame
can leave by an arm of the `select!` or by one of the drains that fairness makes.

`Descends` says what can leave in place of a frame.  Under the laws below it keeps the
correlation id, so the statement about whole runs is about the frames that were stamped or
taken, whether they were fragmented or not.
-/
import Mathlib.Tactic
import Wireframe.ConnectionFairness

namespace Wireframe

open Fragmentable (intoFragmentParts fromFragmentParts)
open CorrelatableFrame (correlationId setCorrelationId)

/-! ## Laws of the frame type and of the hook -/

/-- A correlation id that is set is there, and is among the parts a frame is taken apart into
and rebuilt from. -/
class LawfulCorrelation (F : Type) [CorrelatableFrame F] [Fragmentable F] : Prop where
  correlationId_set : ∀ (frame : F) (id : Option UInt64),
    correlationId (setCorrelationId frame id) = id
  correlationId_into : ∀ frame : F, (intoFragmentParts frame).correlationId = correlationId frame
  correlationId_from : ∀ parts : FragmentParts,
    correlationId (fromFragmentParts parts : F) = parts.correlationId

instance : LawfulCorrelation FragmentParts where
  correlationId_set _ _ := rfl
  correlationId_into _ := rfl
  correlationId_from _ := rfl

/-- The `before_send` hook leaves the correlation id alone. -/
def ProtocolHooks.KeepsCorrelation {F E H : Type} [CorrelatableFrame F]
    (hooks : ProtocolHooks F E H) : Prop :=
  ∀ h frame, correlationId (hooks.beforeSend h frame).1 = correlationId frame

namespace ActorRun

variable {F E H : Type} [CorrelatableFrame F] [Fragmentable F] {cfg : ActorSettings F E H}
  {r r' : ActorRun F E H}

/-- What descends from a frame carries its correlation id. -/
theorem Descends.correlationId_eq [LawfulCorrelation F] (hhook : cfg.hooks.KeepsCorrelation)
    {frame sent : F} (h : Descends cfg frame sent) : correlationId sent = correlationId frame := by
  obtain ⟨hooks, packet, rfl, rfl | ⟨payload, rfl⟩⟩ := h
  · exact hhook hooks packet
  · rw [hhook, LawfulCorrelation.correlationId_from]
    exact LawfulCorrelation.correlationId_into frame

/-! ## What a source emits -/

/-- What was emitted for the frames taken from a queue, in their order: for each of them, frames
that descend from it and carry its correlation id. -/
inductive Carries (cfg : ActorSettings F E H) : List F → List F → Prop where
  | nil : Carries cfg [] []
  | snoc {taken emitted sent : List F} {frame : F} (h : Carries cfg taken emitted)
      (hsent : ∀ f ∈ sent, Descends cfg frame f ∧ correlationId f = correlationId frame) :
      Carries cfg (taken ++ [frame]) (emitted ++ sent)

/-- A frame is taken and what descends from it is emitted. -/
theorem Emits.carries [LawfulCorrelation F] (hhook : cfg.hooks.KeepsCorrelation) {origin : Origin}
    {frame : F} {frames taken : List F} (hemits : Emits origin frames r r')
    (hframes : ∀ f ∈ frames, Descends cfg frame f) (h : Carries cfg taken (r.emitted origin)) :
    Carries cfg (taken ++ [frame]) (r'.emitted origin) := by
  rw [emitted_append hemits.out]
  refine .snoc h fun f hf => ?_
  exact ⟨hframes f hf, (hframes f hf).correlationId_eq hhook⟩

/-- The correlation ids of what was emitted so far. -/
structure Correlated (cfg : ActorSettings F E H) (id : Option UInt64) (r : ActorRun F E H) :
    Prop extends Backed r where
  output : ∀ f ∈ r.emitted .output, correlationId f = id
  terminator : ∀ f ∈ r.emitted .terminator, correlationId f = id
  fromHigh : Carries cfg r.takenHigh (r.emitted .high)
  fromLow : Carries cfg r.takenLow (r.emitted .low)

section Moves

variable {id : Option UInt64}

/-- An output that is still open is the channel, and what it emits is stamped. -/
theorem applyMultiPacketCorrelation_id [LawfulCorrelation F]
    (hfits : Fits (.multiPacket id) r.activeOutput) (hopen : r.activeOutput ≠ .none) (frame : F) :
    correlationId (r.applyMultiPacketCorrelation frame) = id := by
  unfold applyMultiPacketCorrelation
  cases hout : r.activeOutput with
  | none => exact absurd hout hopen
  | response stream =>
    rw [hout] at hfits
    exact absurd hfits nofun
  | multiPacket ctx =>
    rw [hout] at hfits
    obtain ⟨id', c, hkind, rfl⟩ := hfits
    obtain rfl := OutputKind.multiPacket.inj hkind
    exact LawfulCorrelation.correlationId_set frame id

/-- Frames with the channel's id leave as its output or its terminator. -/
theorem Correlated.stamped {origin : Origin} {frames : List F} (h : Correlated cfg id r)
    (hqueues : SameQueues r r') (horigin : origin = .output ∨ origin = .terminator)
    (hids : ∀ f ∈ frames, correlationId f = id)
    (hout : r'.out = r.out ++ frames.map (Prod.mk origin)) : Correlated cfg id r' := by
  have hother : ∀ other ≠ origin, r'.emitted other = r.emitted other := by
    intro other hne
    exact emitted_append_other hout hne.symm
  have hall : ∀ other, (∀ f ∈ r.emitted other, correlationId f = id) →
      ∀ f ∈ r'.emitted other, correlationId f = id := by
    intro other hbefore f hf
    by_cases heq : other = origin
    · subst heq
      rw [emitted_append hout] at hf
      rcases List.mem_append.mp hf with hold | hnew
      · exact hbefore f hold
      · exact hids f hnew
    · rw [hother other heq] at hf
      exact hbefore f hf
  refine ⟨hqueues.backed h.toBacked, hall _ h.output, hall _ h.terminator, ?_, ?_⟩
  · rw [hqueues.takenHigh, hother .high (by rcases horigin with rfl | rfl <;> nofun)]
    exact h.fromHigh
  · rw [hqueues.takenLow, hother .low (by rcases horigin with rfl | rfl <;> nofun)]
    exact h.fromLow

/-- Frames of the channel and its terminator are stamped as they are emitted. -/
theorem Move.correlated [LawfulCorrelation F] (hhook : cfg.hooks.KeepsCorrelation)
    (hmove : Move cfg r r') (hfits : Fits (.multiPacket id) r.activeOutput)
    (h : Correlated cfg id r) : Correlated cfg id r' := by
  have hbacked := hmove.backed h.toBacked
  cases hmove with
  | cleared | protocolError _ _ | failed _ _ => exact { h with }
  | @high frame rest closed _ _ r₁ hrx hemit _ =>
    obtain ⟨frames, hemits, hframes⟩ := processFrame_descends hemit
    have hother : ∀ other, .high ≠ other → r₁.emitted other = r.emitted other := by
      intro other hne
      exact emitted_append_other hemits.out hne
    have hqueues := hemits.sameQueues
    have htaken := hqueues.takenHigh.trans (received_take hrx h.high)
    -- the count of the frame changes none of this
    have hemitted : Correlated cfg id r₁ := by
      refine ⟨⟨hbacked.high, hbacked.low⟩, ?_, ?_, ?_, ?_⟩
      · rw [hother .output nofun]
        exact h.output
      · rw [hother .terminator nofun]
        exact h.terminator
      · rw [htaken]
        exact hemits.carries hhook hframes h.fromHigh
      · rw [hqueues.takenLow, hother .low nofun]
        exact h.fromLow
    exact { hemitted with }
  | @low frame rest closed _ hrx hemit =>
    obtain ⟨frames, hemits, hframes⟩ := processFrame_descends hemit
    have hother : ∀ other, .low ≠ other → r'.emitted other = r.emitted other := by
      intro other hne
      exact emitted_append_other hemits.out hne
    have hqueues := hemits.sameQueues
    have htaken := hqueues.takenLow.trans (received_take hrx h.low)
    refine ⟨hbacked, ?_, ?_, ?_, ?_⟩
    · rw [hother .output nofun]
      exact h.output
    · rw [hother .terminator nofun]
      exact h.terminator
    · rw [hqueues.takenHigh, hother .high nofun]
      exact h.fromHigh
    · rw [htaken]
      exact hemits.carries hhook hframes h.fromLow
  | @multi frame rest closed stamp _ hout hemit =>
    obtain ⟨frames, hemits, hframes⟩ := processFrame_descends hemit
    have hqueues := hemits.sameQueues
    refine h.stamped ⟨hqueues.highRx, hqueues.lowRx, hqueues.sentHigh, hqueues.sentLow⟩
      (Or.inl rfl) (fun f hf => ?_) hemits.out
    rw [hout] at hfits
    obtain ⟨id', c, hkind, hctx⟩ := hfits
    rw [(hframes f hf).correlationId_eq hhook]
    refine applyMultiPacketCorrelation_id ?_ ?_ frame
    · exact ⟨id', _, hkind, by rw [(MultiPacketContext.mk.inj hctx).2]⟩
    · simp
  | response hout hemit =>
    rw [hout] at hfits
    exact absurd hfits nofun
  | highClosed hrx =>
    have htaken := h.fromHigh
    unfold takenHigh at htaken
    rw [hrx] at htaken
    exact ⟨hbacked, h.output, h.terminator, htaken, h.fromLow⟩
  | lowClosed hrx =>
    have htaken := h.fromLow
    unfold takenLow at htaken
    rw [hrx] at htaken
    exact ⟨hbacked, h.output, h.terminator, h.fromHigh, htaken⟩
  | ended hout _ hends =>
    have hqueues := hends.sameQueues
    obtain ⟨frames, hooks, fairness, fragmenter, -, -, hframes, rfl⟩ := hends
    refine h.stamped hqueues (Or.inr rfl) (fun f hf => ?_) rfl
    obtain ⟨frame, hdescends⟩ := hframes f hf
    rw [hdescends.correlationId_eq hhook]
    refine applyMultiPacketCorrelation_id hfits ?_ frame
    intro hnone
    rw [hnone] at hout
    exact hout

omit [CorrelatableFrame F] [Fragmentable F] in
theorem EnvStep.emitted (henv : EnvStep r r') (origin : Origin) :
    r'.emitted origin = r.emitted origin := by
  cases henv <;> rfl

theorem EnvStep.correlated (henv : EnvStep r r') (h : Correlated cfg id r) :
    Correlated cfg id r' := by
  refine ⟨henv.backed h.toBacked, ?_, ?_, ?_, ?_⟩
  · rw [henv.emitted]
    exact h.output
  · rw [henv.emitted]
    exact h.terminator
  · rw [henv.takenHigh, henv.emitted]
    exact h.fromHigh
  · rw [henv.takenLow, henv.emitted]
    exact h.fromLow

theorem processShutdown_correlated (h : Correlated cfg id r) :
    Correlated cfg id (r.processShutdown cfg) := by
  have hbacked : Backed (r.processShutdown cfg) := processShutdown_backed h.toBacked
  obtain ⟨hooks, state, closures, invoked, heq⟩ : ∃ _ _ _ _, r.processShutdown cfg = _ :=
    processShutdown_queues
  rw [heq] at hbacked ⊢
  refine ⟨hbacked, h.output, h.terminator, ?_, ?_⟩
  · have htaken := h.fromHigh
    unfold takenHigh at htaken
    rw [← received_close] at htaken
    exact htaken
  · have htaken := h.fromLow
    unfold takenLow at htaken
    rw [← received_close] at htaken
    exact htaken

theorem step_correlated [LawfulCorrelation F] (hhook : cfg.hooks.KeepsCorrelation)
    {event : ActorEvent F E} (h : Marked (.multiPacket id) r ∧ Correlated cfg id r)
    (hstep : step cfg r event = some r') : Marked (.multiPacket id) r' ∧ Correlated cfg id r' := by
  refine (step_cases hstep).keeps (P := fun r => Marked (.multiPacket id) r ∧ Correlated cfg id r)
    ?_ ?_ ?_ ?_ ?_ h
  · exact fun _ h => ⟨{ h.1 with }, { h.2 with }⟩
  · exact fun _ h => ⟨{ h.1 with }, { h.2 with }⟩
  · exact fun h henv => ⟨henv.marked h.1, henv.correlated h.2⟩
  · exact fun h hmove => ⟨hmove.marked h.1, hmove.correlated hhook h.1.fits h.2⟩
  · exact fun h _ _ => ⟨processShutdown_marked h.1, processShutdown_correlated h.2⟩

end Moves

/-! ## Every run -/

omit [CorrelatableFrame F] [Fragmentable F] in
theorem mem_emitted {origin : Origin} {f : F} : f ∈ r.emitted origin ↔ (origin, f) ∈ r.out := by
  simp [emitted]

/-- **Frames of the multi-packet channel and its terminator carry the id the channel was installed
under; frames of the queues keep their own.** -/
theorem correlation_preserved [LawfulCorrelation F] (hhook : cfg.hooks.KeepsCorrelation)
    {id : Option UInt64} {fairness : FairnessConfig} {fragmenter : Option Fragmenter} {hooks : H}
    {es : List (ActorEvent F E)}
    (h : Trace.exec (step cfg) (start (.multiPacket id) fairness fragmenter hooks) es = some r) :
    (∀ f, (.output, f) ∈ r.out ∨ (.terminator, f) ∈ r.out → correlationId f = id) ∧
      Carries cfg r.takenHigh (r.emitted .high) ∧ Carries cfg r.takenLow (r.emitted .low) := by
  have hstart : Marked (.multiPacket id)
      (start (.multiPacket id) fairness fragmenter hooks : ActorRun F E H) ∧
      Correlated cfg id (start (.multiPacket id) fairness fragmenter hooks) := by
    refine ⟨start_marked _ fairness fragmenter hooks, ⟨List.nil_suffix, List.nil_suffix⟩, ?_, ?_,
      .nil, .nil⟩
    · exact fun f hf => absurd hf List.not_mem_nil
    · exact fun f hf => absurd hf List.not_mem_nil
  obtain ⟨-, hcorrelated⟩ :=
    Trace.exec_invariant (fun _ _ _ hinv hstep => step_correlated hhook hinv hstep) hstart h
  refine ⟨fun f hf => ?_, hcorrelated.fromHigh, hcorrelated.fromLow⟩
  rcases hf with hf | hf
  · exact hcorrelated.output f (mem_emitted.mpr hf)
  · exact hcorrelated.terminator f (mem_emitted.mpr hf)

/-- A hook that supplies a terminator and leaves frames alone. -/
def withTerminator (terminator : FragmentParts) : ActorSettings FragmentParts Unit Unit where
  hooks := { ProtocolHooks.default FragmentParts Unit with
    streamEndFrame := fun h => (some terminator, h) }
  headerCodec := bincodeHeader

/-- A frame on the channel, which is then closed, and one in the high-priority queue. -/
def channelAndQueue : List (ActorEvent FragmentParts Unit) :=
  .polled 0 0 :: .outputSent (.ok ⟨1, some 4, [5, 6]⟩) :: .outputClosed ::
    .highSent ⟨2, some 3, []⟩ :: List.replicate 10 (.polled 0 0)

/-- With chunks of one byte the channel's frame leaves as two fragments; they and the terminator are
stamped, the frame of the queue is not. -/
theorem correlation_preserved_fragments :
    ∃ r, Trace.exec (step (withTerminator ⟨9, some 8, []⟩))
        (start (.multiPacket (some 7)) ⟨8, none⟩ (some (.new NonZeroUsize.min)) ())
          channelAndQueue = some r ∧
      r.out.map (fun x => (x.1, x.2.id, x.2.correlationId)) =
        [(.high, 2, some 3), (.output, 1, some 7), (.output, 1, some 7), (.terminator, 9, some 7)] ∧
      (∀ f, (.output, f) ∈ r.out ∨ (.terminator, f) ∈ r.out → correlationId f = some 7) ∧
      Carries (withTerminator ⟨9, some 8, []⟩) r.takenHigh (r.emitted .high) ∧
      Carries (withTerminator ⟨9, some 8, []⟩) r.takenLow (r.emitted .low) := by
  have hout : (Trace.exec (step (withTerminator ⟨9, some 8, []⟩))
        (start (.multiPacket (some 7)) ⟨8, none⟩ (some (.new NonZeroUsize.min)) ())
          channelAndQueue).map (fun r => r.out.map fun x => (x.1, x.2.id, x.2.correlationId)) =
      some [(.high, 2, some 3), (.output, 1, some 7), (.output, 1, some 7),
        (.terminator, 9, some 7)] := by decide +kernel
  obtain ⟨r, hrun, hout⟩ := Option.map_eq_some_iff.mp hout
  exact ⟨r, hrun, hout, correlation_preserved (fun _ _ => rfl) hrun⟩

end ActorRun

end Wireframe
