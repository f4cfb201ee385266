/-
# The lifecycle of a connection run

A run ends once each of its sources has been closed: the shutdown token, which counts as closed
from the start, the two queues, and the active output when there is one.  Closures are counted
wherever the loop comes across one, in the arms of the `select!`, in the drains that fairness
makes, and in the start of shutdown.

`Marked` ties the count to the sources themselves.  The second half follows the active output
to its end and counts the hooks that are run there.
-/
import Mathlib.Tactic
import Wireframe.Trace
import Wireframe.ConnectionActorSteps

namespace Wireframe

/-! ## Sources -/

/-- What the loop takes frames from. -/
inductive Source where
  | high
  | low
  | output
  deriving DecidableEq, Repr

def Closure.source : Closure → Source
  | .high => .high
  | .low => .low
  | .output _ => .output

/-- The sources of a run, besides the shutdown token. -/
def OutputKind.sources : OutputKind → List Source
  | .none => [.high, .low]
  | .response | .multiPacket _ => [.high, .low, .output]

namespace ActorRun

variable {F E H : Type}

/-- There is nothing behind the source any more. -/
def isClosed (r : ActorRun F E H) : Source → Bool
  | .high => r.highRx.isNone
  | .low => r.lowRx.isNone
  | .output =>
    match r.activeOutput with
    | .none => true
    | .response _ | .multiPacket _ => false

/-- The active output is the one the run was started with, or has ended. -/
def Fits (kind : OutputKind) : ActiveOutput F E → Prop
  | .none => True
  | .response _ => kind = .response
  | .multiPacket ctx => ∃ correlationId c,
      kind = .multiPacket correlationId ∧ ctx = ⟨some c, .enabled correlationId⟩

/-! ### The count of closed sources -/

/-- The closures that were counted are those of the closed sources. -/
structure Marked (kind : OutputKind) (r : ActorRun F E H) : Prop where
  total : r.state.totalSources = 1 + kind.sources.length
  count : r.state.closedSources = 1 + r.closures.length
  nodup : (r.closures.map Closure.source).Nodup
  marked : ∀ s, s ∈ r.closures.map Closure.source ↔ s ∈ kind.sources ∧ r.isClosed s = true
  installed : ∀ s, r.isClosed s = false → s ∈ kind.sources
  finished : r.state.runState = .finished ↔ kind.sources.length ≤ r.closures.length
  fits : Fits kind r.activeOutput

variable {cfg : ActorSettings F E H} {kind : OutputKind} {r r' : ActorRun F E H}

theorem sources_nodup (kind : OutputKind) : kind.sources.Nodup := by
  cases kind <;> simp [OutputKind.sources]

/-- A run starts with what it was not given closed. -/
theorem start_marked (kind : OutputKind) (fairness : FairnessConfig)
    (fragmenter : Option Fragmenter) (hooks : H) :
    Marked kind (start kind fairness fragmenter hooks : ActorRun F E H) := by
  cases kind with
  | none =>
    refine ⟨rfl, rfl, List.nodup_nil, ?_, ?_, ?_, trivial⟩
    · rintro (_ | _ | _) <;> simp [start, isClosed, OutputKind.sources]
    · rintro (_ | _ | _) <;> simp [start, isClosed, OutputKind.sources]
    · simp [start, ActorState.new, OutputKind.sources]
  | response =>
    refine ⟨rfl, rfl, List.nodup_nil, ?_, ?_, ?_, rfl⟩
    · rintro (_ | _ | _) <;> simp [start, isClosed]
    · rintro (_ | _ | _) <;> simp [OutputKind.sources]
    · simp [start, ActorState.new, OutputKind.sources]
  | multiPacket correlationId =>
    refine ⟨rfl, rfl, List.nodup_nil, ?_, ?_, ?_, correlationId, Channel.new, rfl, rfl⟩
    · rintro (_ | _ | _) <;> simp [start, isClosed]
    · rintro (_ | _ | _) <;> simp [OutputKind.sources]
    · simp [start, ActorState.new, OutputKind.sources]

namespace Marked

/-- Nothing that the count depends on has changed. -/
theorem congr (h : Marked kind r) (hstate : r'.state.closedSources = r.state.closedSources)
    (htotal : r'.state.totalSources = r.state.totalSources)
    (hfinished : r'.state.runState = .finished ↔ r.state.runState = .finished)
    (hclosures : r'.closures = r.closures) (hclosed : ∀ s, r'.isClosed s = r.isClosed s)
    (hfits : Fits kind r'.activeOutput) : Marked kind r' where
  total := htotal.trans h.total
  count := by rw [hstate, hclosures, h.count]
  nodup := by rw [hclosures]; exact h.nodup
  marked s := by rw [hclosures, hclosed]; exact h.marked s
  installed s hopen := h.installed s (by rwa [hclosed] at hopen)
  finished := by rw [hfinished, hclosures]; exact h.finished
  fits := hfits

/-- One more source is closed, and counted. -/
theorem mark (h : Marked kind r) {c : Closure} (hopen : r.isClosed c.source = false)
    (hstate : r'.state = r.state.markClosed) (hclosures : r'.closures = r.closures ++ [c])
    (hself : r'.isClosed c.source = true)
    (hothers : ∀ s, s ≠ c.source → r'.isClosed s = r.isClosed s)
    (hfits : Fits kind r'.activeOutput) : Marked kind r' where
  total := by rw [hstate]; exact h.total
  count := by
    rw [hstate, hclosures, List.length_append, List.length_singleton, ← Nat.add_assoc, ← h.count]
    rfl
  nodup := by
    rw [hclosures, List.map_append, List.map_singleton, List.nodup_append]
    refine ⟨h.nodup, List.nodup_singleton _, ?_⟩
    intro s hs t ht heq
    rw [List.mem_singleton] at ht
    subst heq ht
    rw [h.marked, hopen] at hs
    exact absurd hs.2 (by simp)
  marked s := by
    rw [hclosures, List.map_append, List.mem_append, List.map_singleton, List.mem_singleton, h.marked]
    by_cases hs : s = c.source
    · subst hs
      simp [hself, h.installed _ hopen]
    · simp [hs, hothers s hs]
  installed s hs := by
    by_cases heq : s = c.source
    · subst heq
      exact h.installed _ hopen
    · exact h.installed s (by rwa [hothers s heq] at hs)
  finished := by
    have hlt : r.closures.length < kind.sources.length := by
      -- the closures so far are distinct sources, and none of them is the one that was open
      have hsub : c.source :: r.closures.map Closure.source ⊆ kind.sources := by
        intro s hs
        rcases List.mem_cons.mp hs with rfl | hs
        · exact h.installed _ hopen
        · exact ((h.marked s).mp hs).1
      have hnodup : (c.source :: r.closures.map Closure.source).Nodup := by
        refine List.nodup_cons.mpr ⟨?_, h.nodup⟩
        rw [h.marked, hopen]
        simp
      simpa using (hnodup.subperm hsub).length_le
    have hactive : r.state.runState ≠ .finished := by
      rw [Ne, h.finished]
      omega
    rw [hstate, hclosures]
    simp only [ActorState.markClosed, h.total, h.count, List.length_append, List.length_singleton]
    split
    · simp only [true_iff]
      omega
    · simp only [hactive, false_iff]
      omega
  fits := hfits

/-- A queue is open, or it is closed and was counted; with all of them counted the run is over. -/
theorem finished_iff (h : Marked kind r) :
    r.state.runState = .finished ↔ ∀ s ∈ kind.sources, r.isClosed s = true := by
  rw [h.finished]
  have hsub : r.closures.map Closure.source ⊆ kind.sources := fun s hs => ((h.marked s).mp hs).1
  constructor
  · intro hlen s hs
    have hperm := (h.nodup.subperm hsub).perm_of_length_le (by simpa using hlen)
    exact ((h.marked s).mp (hperm.mem_iff.mpr hs)).2
  · intro hall
    have hle := ((sources_nodup kind).subperm fun s hs => (h.marked s).mpr ⟨hs, hall s hs⟩).length_le
    simpa using hle

theorem closed_count (h : Marked kind r) :
    r.state.closedSources = 1 + (kind.sources.filter r.isClosed).length := by
  have hperm : (r.closures.map Closure.source).Perm (kind.sources.filter r.isClosed) := by
    rw [List.perm_ext_iff_of_nodup h.nodup ((sources_nodup kind).filter _)]
    intro s
    rw [h.marked, List.mem_filter]
  rw [h.count, ← hperm.length_eq, List.length_map]

end Marked

/-! ### Every step keeps the count -/

section Steps

theorem Emits.marked {origin : Origin} {frames : List F} (hemit : Emits origin frames r r')
    (h : Marked kind r) : Marked kind r' := by
  obtain ⟨hooks, fragmenter, -, rfl⟩ := hemit
  exact { h with }

/-- Emitting from an open source leaves every source as it was. -/
theorem Move.marked [CorrelatableFrame F] [Fragmentable F] (hmove : Move cfg r r')
    (h : Marked kind r) : Marked kind r' := by
  cases hmove with
  | cleared => exact { h with }
  | high hrx hemit _ =>
    obtain ⟨frames, hemit⟩ := processFrame_emits hemit
    have hmarked := hemit.marked (h.congr rfl rfl Iff.rfl rfl (fun source => ?_) h.fits)
    · exact { hmarked with }
    · rcases source with _ | _ | _ <;> simp [isClosed, hrx]
  | low hrx hemit =>
    obtain ⟨frames, hemit⟩ := processFrame_emits hemit
    refine hemit.marked (h.congr rfl rfl Iff.rfl rfl ?_ h.fits)
    rintro (_ | _ | _) <;> simp [isClosed, hrx]
  | multi hout hemit =>
    obtain ⟨frames, hemit⟩ := processFrame_emits hemit
    obtain ⟨correlationId, c, rfl, hctx⟩ : Fits kind _ := hout ▸ h.fits
    obtain ⟨-, rfl⟩ := MultiPacketContext.mk.inj hctx
    refine hemit.marked (h.congr rfl rfl Iff.rfl rfl ?_ ⟨correlationId, _, rfl, rfl⟩)
    rintro (_ | _ | _) <;> simp [isClosed, hout]
  | response hout hemit =>
    obtain ⟨frames, hemit⟩ := processFrame_emits hemit
    refine hemit.marked (h.congr rfl rfl Iff.rfl rfl ?_ ?_)
    · rintro (_ | _ | _) <;> simp [isClosed, hout]
    · have hfits := h.fits
      rwa [hout] at hfits
  | highClosed hrx =>
    refine h.mark (c := .high) (by simp [isClosed, Closure.source, hrx]) rfl rfl rfl ?_ h.fits
    rintro (_ | _ | _) hne <;> first | rfl | exact absurd rfl hne
  | lowClosed hrx =>
    refine h.mark (c := .low) (by simp [isClosed, Closure.source, hrx]) rfl rfl rfl ?_ h.fits
    rintro (_ | _ | _) hne <;> first | rfl | exact absurd rfl hne
  | ended hout hreason hends =>
    obtain ⟨frames, hooks, fairness, fragmenter, -, -, -, rfl⟩ := hends
    refine h.mark (c := .output _) ?_ rfl rfl rfl ?_ trivial
    · cases hactive : r.activeOutput with
      | none => rw [hactive] at hout; exact hout.elim
      | response _ | multiPacket _ => simp [isClosed, Closure.source, hactive]
    · rintro (_ | _ | _) hne <;> first | rfl | exact absurd rfl hne
  | protocolError hout hevent =>
    refine h.mark (c := .output .protocolError) ?_ rfl rfl rfl ?_ trivial
    · simp [isClosed, Closure.source, hout]
    · rintro (_ | _ | _) hne <;> first | rfl | exact absurd rfl hne
  | failed hout herr =>
    refine h.congr rfl rfl Iff.rfl rfl ?_ ?_
    · rintro (_ | _ | _) <;> simp [isClosed, hout]
    · have hfits := h.fits
      rwa [hout] at hfits

/-- What the senders and the token do closes no source. -/
theorem EnvStep.marked (henv : EnvStep r r') (h : Marked kind r) : Marked kind r' := by
  have hfits := h.fits
  cases henv with
  | highSent frame hrx | lowSent frame hrx =>
    refine h.congr rfl rfl Iff.rfl rfl ?_ hfits
    rintro (_ | _ | _) <;> simp [isClosed, hrx]
  | highClosed | lowClosed =>
    refine h.congr rfl rfl Iff.rfl rfl ?_ hfits
    rintro (_ | _ | _) <;> simp [isClosed]
  | responseSent item hout | responseClosed hout =>
    rw [hout] at hfits
    refine h.congr rfl rfl Iff.rfl rfl ?_ hfits
    rintro (_ | _ | _) <;> simp [isClosed, hout]
  | multiSent frame hout =>
    rw [hout] at hfits
    obtain ⟨correlationId, c, rfl, hctx⟩ := hfits
    obtain ⟨-, rfl⟩ := MultiPacketContext.mk.inj hctx
    refine h.congr rfl rfl Iff.rfl rfl ?_ ⟨correlationId, _, rfl, rfl⟩
    rintro (_ | _ | _) <;> simp [isClosed, hout]
  | multiClosed hout =>
    rw [hout] at hfits
    obtain ⟨correlationId, c, rfl, hctx⟩ := hfits
    obtain ⟨rfl, rfl⟩ := MultiPacketContext.mk.inj hctx
    refine h.congr rfl rfl Iff.rfl rfl ?_ ⟨correlationId, _, rfl, rfl⟩
    rintro (_ | _ | _) <;> simp [isClosed, hout]
  | cancelled => exact { h with }

theorem startShutdown_finished (s : ActorState) :
    s.startShutdown.runState = .finished ↔ s.runState = .finished := by
  unfold ActorState.startShutdown
  split
  · rename_i hactive
    simp [hactive]
  · exact Iff.rfl

/-- Shutdown counts the output closed if it was still open. -/
theorem processShutdown_marked (h : Marked kind r) : Marked kind (r.processShutdown cfg) := by
  have hcount : r.state.startShutdown.closedSources = r.state.closedSources := by
    unfold ActorState.startShutdown
    split <;> rfl
  have htotal : r.state.startShutdown.totalSources = r.state.totalSources := by
    unfold ActorState.startShutdown
    split <;> rfl
  have hstarted : Marked kind { r with
      state := r.state.startShutdown
      highRx := r.highRx.map Channel.close
      lowRx := r.lowRx.map Channel.close } := by
    refine h.congr hcount htotal (startShutdown_finished _) rfl ?_ h.fits
    rintro (_ | _ | _) <;> simp [isClosed]
  have hfits := h.fits
  cases hout : r.activeOutput with
  | none =>
    rw [processShutdown_none hout]
    exact hstarted
  | response stream =>
    rw [processShutdown_response hout]
    refine hstarted.mark (c := .output .shutdown) ?_ rfl rfl rfl ?_ trivial
    · simp [isClosed, Closure.source, hout]
    · rintro (_ | _ | _) hne <;> first | rfl | exact absurd rfl hne
  | multiPacket ctx =>
    rw [hout] at hfits
    obtain ⟨correlationId, c, rfl, rfl⟩ := hfits
    rw [processShutdown_multi hout]
    refine hstarted.mark (c := .output .shutdown) ?_ rfl rfl rfl ?_ trivial
    · simp [isClosed, Closure.source, hout]
    · rintro (_ | _ | _) hne <;> first | rfl | exact absurd rfl hne

/-! ### Shutdown -/

/-- Once shutdown has begun there is no active output. -/
def Stopped (r : ActorRun F E H) : Prop :=
  r.state.runState = .shuttingDown → r.isClosed .output = true

theorem markClosed_shuttingDown {s : ActorState} (h : s.markClosed.runState = .shuttingDown) :
    s.runState = .shuttingDown := by
  unfold ActorState.markClosed at h
  rcases ite_eq_iff.mp h with ⟨-, ⟨⟩⟩ | ⟨-, h⟩
  exact h

/-- No move opens an output after shutdown. -/
theorem Move.stopped [CorrelatableFrame F] [Fragmentable F] (hmove : Move cfg r r')
    (h : Stopped r) : Stopped r' := by
  intro hstate
  cases hmove with
  | cleared => exact h hstate
  | high hrx hemit _ | low hrx hemit =>
    obtain ⟨frames, hooks, fragmenter, -, rfl⟩ := processFrame_emits hemit
    exact h hstate
  | multi hout hemit | response hout hemit =>
    obtain ⟨frames, hooks, fragmenter, -, rfl⟩ := processFrame_emits hemit
    exact absurd (h hstate) (by simp [isClosed, hout])
  | highClosed hrx | lowClosed hrx => exact h (markClosed_shuttingDown hstate)
  | ended hout hreason hends =>
    obtain ⟨frames, hooks, fairness, fragmenter, -, -, -, rfl⟩ := hends
    rfl
  | protocolError hout hevent => rfl
  | failed hout herr => exact absurd (h hstate) (by simp [isClosed, hout])

theorem EnvStep.stopped (henv : EnvStep r r') (h : Stopped r) : Stopped r' := by
  intro hstate
  cases henv with
  | highSent frame hrx | lowSent frame hrx | highClosed | lowClosed | cancelled => exact h hstate
  | responseSent item hout | responseClosed hout | multiSent frame hout | multiClosed hout =>
    exact absurd (h hstate) (by simp [isClosed, hout])

theorem processShutdown_stopped (hmarked : Marked kind r) : Stopped (r.processShutdown cfg) := by
  intro _
  have hfits := hmarked.fits
  cases hout : r.activeOutput with
  | none => rw [processShutdown_none hout]; simp [isClosed, hout]
  | response stream => rw [processShutdown_response hout]; rfl
  | multiPacket ctx =>
    rw [hout] at hfits
    obtain ⟨correlationId, c, rfl, rfl⟩ := hfits
    rw [processShutdown_multi hout]
    rfl

end Steps

/-! ## Runs -/

/-- What holds in every state of a run. -/
structure Lifecycle (kind : OutputKind) (r : ActorRun F E H) : Prop extends Marked kind r where
  stopped : Stopped r

theorem start_lifecycle (kind : OutputKind) (fairness : FairnessConfig)
    (fragmenter : Option Fragmenter) (hooks : H) :
    Lifecycle kind (start kind fairness fragmenter hooks : ActorRun F E H) := by
  refine ⟨start_marked kind fairness fragmenter hooks, fun hstate => ?_⟩
  exact absurd hstate (by simp [start, ActorState.new])

/-- Until the run is over an arm of the `select!` is enabled. -/
theorem Lifecycle.anyArmEnabled (h : Lifecycle kind r) (hstate : r.state.runState ≠ .finished) :
    r.anyArmEnabled = true := by
  cases hrun : r.state.runState with
  | active => simp [ActorRun.anyArmEnabled, ActorState.isActive, hrun]
  | finished => exact absurd hrun hstate
  | shuttingDown =>
    -- the output is closed, so one of the queues is not
    have hopen : ∃ s ∈ kind.sources, r.isClosed s = false := by
      by_contra hall
      refine hstate (h.finished_iff.mpr fun s hs => ?_)
      by_contra hs'
      exact hall ⟨s, hs, Bool.eq_false_iff.mpr hs'⟩
    obtain ⟨s, -, hs⟩ := hopen
    cases s with
    | high =>
      have hhigh : r.highRx.isSome = true := Option.isNone_eq_false_iff.mp hs
      simp [ActorRun.anyArmEnabled, computeAvailability, hhigh]
    | low =>
      have hlow : r.lowRx.isSome = true := Option.isNone_eq_false_iff.mp hs
      simp [ActorRun.anyArmEnabled, computeAvailability, hlow]
    | output => exact absurd (h.stopped hrun) (by simp [hs])

section Runs

variable [CorrelatableFrame F] [Fragmentable F]

theorem step_lifecycle {event : ActorEvent F E} (h : Lifecycle kind r)
    (hstep : step cfg r event = some r') : Lifecycle kind r' := by
  refine (step_cases hstep).keeps (P := Lifecycle kind) ?_ ?_ ?_ ?_ ?_ h
  · exact fun _ h => { h with }
  · exact fun _ h => { h with }
  · exact fun h henv => ⟨henv.marked h.toMarked, henv.stopped h.stopped⟩
  · exact fun h hmove => ⟨hmove.marked h.toMarked, hmove.stopped h.stopped⟩
  · exact fun h _ _ => ⟨processShutdown_marked h.toMarked, processShutdown_stopped h.toMarked⟩

theorem exec_lifecycle {fairness : FairnessConfig} {fragmenter : Option Fragmenter} {hooks : H}
    {events : List (ActorEvent F E)}
    (h : Trace.exec (step cfg) (start kind fairness fragmenter hooks) events = some r) :
    Lifecycle kind r :=
  Trace.exec_invariant (fun _ _ _ hinv hstep => step_lifecycle hinv hstep)
    (start_lifecycle kind fairness fragmenter hooks) h

/-! ### Every source is closed once -/

/-- **The closure count is exact in every state of a run**: it is one more than the number of
closed sources, no source is marked twice, the run is over exactly when all of them are closed,
and until then the loop has something other than `Idle` to select. -/
theorem closes_every_source_once {fairness : FairnessConfig} {fragmenter : Option Fragmenter}
    {hooks : H} {events : List (ActorEvent F E)}
    (h : Trace.exec (step cfg) (start kind fairness fragmenter hooks) events = some r) :
    r.state.closedSources = 1 + (kind.sources.filter r.isClosed).length ∧
    (r.closures.map Closure.source).Nodup ∧
    (r.state.runState = .finished ↔ ∀ s ∈ kind.sources, r.isClosed s = true) ∧
    (r.state.runState ≠ .finished → r.anyArmEnabled = true) := by
  have hlife := exec_lifecycle h
  exact ⟨hlife.closed_count, hlife.nodup, hlife.finished_iff, hlife.anyArmEnabled⟩

/-- Cancellation comes while the response stream is open; the queues are then drained and the
run returns. -/
def cancelledStream : List (ActorEvent FragmentParts Unit) :=
  [.polled 0 0, .highSent ⟨1, none, [7]⟩, .cancelled, .polled 0 0, .polled 0 0, .polled 0 0,
   .polled 0 0, .polled 0 0, .polled 0 0, .polled 0 0, .polled 0 0, .polled 0 0]

/-- Settings without callbacks. -/
def bare (headerCodec : HeaderCodec) : ActorSettings F E Unit :=
  ⟨ProtocolHooks.default F E, headerCodec⟩

/-- The count after the shutdown event, with the stream closed and both queues open. -/
theorem closes_every_source_once_cancelled :
    ∃ r, Trace.exec (step (bare bincodeHeader)) (start .response ⟨8, none⟩ none ())
        (cancelledStream.take 4) = some r ∧
      r.state.closedSources = 1 + (OutputKind.response.sources.filter r.isClosed).length ∧
      (r.closures.map Closure.source).Nodup ∧
      (r.state.runState = .finished ↔ ∀ s ∈ OutputKind.response.sources, r.isClosed s = true) ∧
      (r.state.runState ≠ .finished → r.anyArmEnabled = true) := by
  have hrun : (Trace.exec (step (bare bincodeHeader)) (start .response ⟨8, none⟩ none ())
      (cancelledStream.take 4)).isSome = true := by decide
  exact ⟨_, (Option.some_get hrun).symm, closes_every_source_once (Option.some_get hrun).symm⟩

end Runs

/-! ## The end of a command -/

/-- The closures of an active output that end its command: all of them, except that a response
stream is dropped silently when shutdown begins. -/
def endsCommand (kind : OutputKind) : Closure → Bool
  | .output .shutdown => kind ≠ .response
  | .output _ => true
  | .high | .low => false

/-- The hooks run at the end of a command are those its closure calls for. -/
structure Notified (kind : OutputKind) (r : ActorRun F E H) : Prop where
  ended : r.invoked.count .onCommandEnd = r.closures.countP (endsCommand kind)
  asked : r.invoked.count .streamEndFrame ≤ (r.closures.map Closure.source).count .output
  terminated : ∀ frame, (Origin.terminator, frame) ∈ r.out →
    .output .drained ∈ r.closures ∨ .output .disconnected ∈ r.closures

theorem Emits.notified {origin : Origin} {frames : List F} (hemit : Emits origin frames r r')
    (horigin : origin ≠ .terminator) (h : Notified kind r) : Notified kind r' := by
  obtain ⟨hooks, fragmenter, -, rfl⟩ := hemit
  refine ⟨?_, ?_, ?_⟩
  · simpa [List.count_replicate] using h.ended
  · simpa [List.count_replicate] using h.asked
  · intro frame hframe
    rcases List.mem_append.mp hframe with hframe | hframe
    · exact h.terminated frame hframe
    · obtain ⟨_, -, heq⟩ := List.mem_map.mp hframe
      exact absurd (congrArg Prod.fst heq) horigin

/-- A closure that comes with the hook it calls for. -/
theorem Notified.closed {closure : Closure} {hooks : List HookCall} (h : Notified kind r)
    (hinvoked : r'.invoked = r.invoked ++ hooks) (hclosures : r'.closures = r.closures ++ [closure])
    (hout : r'.out = r.out) (hasked : hooks.count .streamEndFrame = 0)
    (hended : hooks.count .onCommandEnd = [closure].countP (endsCommand kind)) :
    Notified kind r' where
  ended := by
    rw [hinvoked, hclosures, List.count_append, List.countP_append, h.ended, hended]
  asked := by
    rw [hinvoked, hclosures, List.count_append, hasked, List.map_append, List.count_append]
    exact Nat.le_add_right_of_le h.asked
  terminated := by
    intro frame hframe
    rw [hout] at hframe
    rw [hclosures]
    exact (h.terminated frame hframe).imp (List.mem_append_left _) (List.mem_append_left _)

/-- The hooks are run by the move that closes the output, and by no other. -/
theorem Move.notified [CorrelatableFrame F] [Fragmentable F] (hmove : Move cfg r r')
    (h : Notified kind r) : Notified kind r' := by
  cases hmove with
  | cleared | failed hout herr => exact { h with }
  | high hrx hemit _ =>
    obtain ⟨frames, hemit⟩ := processFrame_emits hemit
    have hnotified := hemit.notified (by simp) { h with }
    exact { hnotified with }
  | low hrx hemit | multi hout hemit | response hout hemit =>
    obtain ⟨frames, hemit⟩ := processFrame_emits hemit
    exact hemit.notified (by simp) { h with }
  | highClosed hrx | lowClosed hrx =>
    exact h.closed (List.append_nil _).symm rfl rfl rfl rfl
  | @ended reason _ hout hreason hends =>
    obtain ⟨frames, hooks, fairness, fragmenter, -, -, -, rfl⟩ := hends
    have hcommand : endsCommand kind (.output reason) = true := by
      rcases hreason with rfl | rfl <;> rfl
    refine ⟨?_, ?_, ?_⟩
    · simpa [List.count_append, List.count_replicate, hcommand] using h.ended
    · simpa [List.count_append, List.count_replicate, Closure.source] using h.asked
    · intro frame _
      rcases hreason with rfl | rfl <;> simp
  | protocolError hout hevent =>
    have hinvoked : r.invoked ++ [.handleError] ++ [.onCommandEnd] =
        r.invoked ++ [.handleError, .onCommandEnd] := List.append_assoc _ _ _
    exact h.closed hinvoked rfl rfl rfl rfl

theorem EnvStep.notified (henv : EnvStep r r') (h : Notified kind r) : Notified kind r' := by
  cases henv <;> exact { h with }

/-- Shutdown ends the command of a channel, but not that of a stream. -/
theorem processShutdown_notified (hmarked : Marked kind r) (h : Notified kind r) :
    Notified kind (r.processShutdown cfg) := by
  have hfits := hmarked.fits
  cases hout : r.activeOutput with
  | none =>
    rw [processShutdown_none hout]
    exact { h with }
  | response stream =>
    rw [hout] at hfits
    obtain rfl : kind = .response := hfits
    rw [processShutdown_response hout]
    exact h.closed (List.append_nil _).symm rfl rfl rfl rfl
  | multiPacket ctx =>
    rw [hout] at hfits
    obtain ⟨correlationId, c, rfl, rfl⟩ := hfits
    rw [processShutdown_multi hout]
    exact h.closed rfl rfl rfl rfl rfl

/-! ### Runs -/

section Runs

variable [CorrelatableFrame F] [Fragmentable F]

/-- The run, with its hooks and its result. -/
structure CommandRun (kind : OutputKind) (r : ActorRun F E H) : Prop extends
    Lifecycle kind r, Notified kind r where
  returned : r.point = .returned (.ok ()) → r.state.runState = .finished

/-- **Step lemma** for the hooks and the result. -/
theorem step_commandRun {event : ActorEvent F E} (h : CommandRun kind r)
    (hstep : step cfg r event = some r') : CommandRun kind r' := by
  have hcases := step_cases hstep
  refine ⟨step_lifecycle h.toLifecycle hstep, ?_, ?_⟩
  · have hboth : Marked kind r' ∧ Notified kind r' := by
      refine hcases.keeps (P := fun r => Marked kind r ∧ Notified kind r) ?_ ?_ ?_ ?_ ?_
        ⟨h.toMarked, h.toNotified⟩
      · exact fun _ h => ⟨{ h.1 with }, { h.2 with }⟩
      · exact fun _ h => ⟨{ h.1 with }, { h.2 with }⟩
      · exact fun h henv => ⟨henv.marked h.1, henv.notified h.2⟩
      · exact fun h hmove => ⟨hmove.marked h.1, hmove.notified h.2⟩
      · exact fun h _ _ => ⟨processShutdown_marked h.1, processShutdown_notified h.1 h.2⟩
    exact hboth.2
  · intro hpoint
    cases hcases with
    | env henv => cases henv <;> exact h.returned hpoint
    | passed hne _ => exact absurd hpoint (hne _)
    | panicked _ | shutdown _ _ _ => exact absurd hpoint (by simp)
    | finished hdone => exact hdone
    | handled _ _ hafter =>
      rcases hafter with rfl | ⟨err, rfl, -⟩ <;> exact absurd hpoint (by simp)

theorem exec_commandRun {fairness : FairnessConfig} {fragmenter : Option Fragmenter} {hooks : H}
    {events : List (ActorEvent F E)}
    (h : Trace.exec (step cfg) (start kind fairness fragmenter hooks) events = some r) :
    CommandRun kind r := by
  have hstart : CommandRun kind (start kind fairness fragmenter hooks : ActorRun F E H) := by
    refine ⟨start_lifecycle kind fairness fragmenter hooks, ⟨rfl, le_rfl, ?_⟩, ?_⟩
    · exact fun frame hframe => absurd hframe List.not_mem_nil
    · exact fun hpoint => absurd hpoint (by simp [start])
  exact Trace.exec_invariant (fun _ _ _ hinv hstep => step_commandRun hinv hstep) hstart h

end Runs

/-- Shutdown closes an output that is still open. -/
theorem processShutdown_mem_iff (hfits : Fits kind r.activeOutput) :
    .output .shutdown ∈ (r.processShutdown cfg).closures ↔
      .output .shutdown ∈ r.closures ∨ r.isClosed .output = false := by
  cases hout : r.activeOutput with
  | none =>
    rw [processShutdown_none hout]
    simp [isClosed, hout]
  | response stream =>
    rw [processShutdown_response hout]
    simp [isClosed, hout]
  | multiPacket ctx =>
    rw [hout] at hfits
    obtain ⟨correlationId, c, rfl, rfl⟩ := hfits
    rw [processShutdown_multi hout]
    simp [isClosed, hout]

/-- An open response stream belongs to a run started with one, -/
theorem fits_response (hfits : Fits kind r.activeOutput) (h : r.activeOutput.isResponse = true) :
    kind = .response ∧ r.isClosed .output = false := by
  unfold isClosed
  cases hout : r.activeOutput with
  | none | multiPacket _ =>
    rw [hout] at h
    exact absurd h (by simp [ActiveOutput.isResponse])
  | response stream =>
    rw [hout] at hfits
    exact ⟨hfits, rfl⟩

/-- and such a run has no other output. -/
theorem fits_open (hfits : Fits kind r.activeOutput) (hkind : kind = .response)
    (hopen : r.isClosed .output = false) : r.activeOutput.isResponse = true := by
  unfold isClosed at hopen
  cases hout : r.activeOutput with
  | none =>
    rw [hout] at hopen
    cases hopen
  | response stream => rfl
  | multiPacket ctx =>
    rw [hout] at hfits
    obtain ⟨correlationId, c, hmulti, -⟩ := hfits
    exact absurd (hkind.symm.trans hmulti) (by simp)

/-! ### Streams that are abandoned -/

section Runs

variable [CorrelatableFrame F] [Fragmentable F]

/-- Shutdown begins while the response stream is still the active output. -/
def AbandonsStream (r : ActorRun F E H) (event : ActorEvent F E) : Prop :=
  (∃ recorded asked, event = .polled recorded asked) ∧ r.point = .pollShutdown ∧
    r.state.runState = .active ∧ r.shutdown = true ∧ r.activeOutput.isResponse = true

/-- Moves do not shut down. -/
theorem Move.shutdown_mem_iff (hmove : Move cfg r r') :
    .output .shutdown ∈ r'.closures ↔ .output .shutdown ∈ r.closures := by
  cases hmove with
  | cleared | failed hout herr => exact Iff.rfl
  | high hrx hemit _ | low hrx hemit | multi hout hemit | response hout hemit =>
    obtain ⟨frames, hooks, fragmenter, -, rfl⟩ := processFrame_emits hemit
    exact Iff.rfl
  | highClosed hrx | lowClosed hrx => simp [markClosed]
  | ended hout hreason hends =>
    obtain ⟨frames, hooks, fairness, fragmenter, -, -, -, rfl⟩ := hends
    rcases hreason with rfl | rfl <;> simp
  | protocolError hout hevent => simp

theorem Moves.shutdown_mem_iff (hmoves : Moves cfg r r') :
    .output .shutdown ∈ r'.closures ↔ .output .shutdown ∈ r.closures := by
  induction hmoves with
  | refl => exact Iff.rfl
  | tail _ hmove ih => exact hmove.shutdown_mem_iff.trans ih

/-- The stream of a response is closed by shutdown in the step that abandons it. -/
theorem step_abandons {event : ActorEvent F E} (h : Lifecycle kind r)
    (hstep : step cfg r event = some r') :
    (kind = .response ∧ .output .shutdown ∈ r'.closures) ↔
      (kind = .response ∧ .output .shutdown ∈ r.closures) ∨ AbandonsStream r event := by
  by_cases habandon : AbandonsStream r event
  · refine iff_of_true ?_ (Or.inr habandon)
    obtain ⟨⟨recorded, asked, rfl⟩, hpoint, hactive, hcancelled, hresponse⟩ := habandon
    obtain rfl := Option.some.inj ((poll_shutdown hpoint hactive hcancelled).symm.trans hstep)
    obtain ⟨hkind, hopen⟩ := fits_response h.fits hresponse
    refine ⟨hkind, ?_⟩
    exact (processShutdown_mem_iff (r := { r with events := r.events ++ [.shutdown] }) h.fits).mpr
      (Or.inr hopen)
  · simp only [habandon, or_false]
    refine and_congr_right fun hkind => ?_
    by_cases hpolled : ∃ recorded asked, event = .polled recorded asked
    · cases step_cases hstep with
      | env henv => cases henv <;> exact Iff.rfl
      | passed _ _ | panicked _ | finished _ => exact Iff.rfl
      | handled _ hmoves _ => exact hmoves.shutdown_mem_iff
      | shutdown hpoint hactive hcancelled =>
        refine (processShutdown_mem_iff (r := { r with events := r.events ++ [.shutdown] })
          h.fits).trans ?_
        refine or_iff_left fun hopen => habandon ?_
        exact ⟨hpolled, hpoint, hactive, hcancelled, fits_open h.fits hkind hopen⟩
    · have henv := step_env (fun recorded asked heq => hpolled ⟨recorded, asked, heq⟩) hstep
      cases henv <;> exact Iff.rfl

end Runs

/-! ### The results -/

/-- A finished run has closed its active output once. -/
theorem CommandRun.output_closed (h : CommandRun kind r) (hkind : kind ≠ .none)
    (hpoint : r.point = .returned (.ok ())) :
    (r.closures.map Closure.source).count .output = 1 := by
  refine List.count_eq_one_of_mem h.nodup ((h.marked _).mpr ?_)
  have hmem : Source.output ∈ kind.sources := by
    cases kind with
    | none => exact absurd rfl hkind
    | response | multiPacket _ => simp [OutputKind.sources]
  exact ⟨hmem, h.finished_iff.mp (h.returned hpoint) _ hmem⟩

/-- The command of a finished run has ended, unless its stream was abandoned. -/
theorem CommandRun.command_ended (h : CommandRun kind r) (hkind : kind ≠ .none)
    (hpoint : r.point = .returned (.ok ())) :
    r.invoked.count .onCommandEnd = 1 ↔ ¬ (kind = .response ∧ .output .shutdown ∈ r.closures) := by
  rw [h.ended]
  have hone := h.output_closed hkind hpoint
  rw [List.count, List.countP_map] at hone
  constructor
  · rintro hcount ⟨rfl, hmem⟩
    -- the one closure of the output is the one by shutdown, which ends no command
    obtain ⟨c, hc, hends⟩ := List.countP_pos_iff.mp (hcount ▸ Nat.one_pos)
    have hsource : c.source = .output := by
      cases c with
      | high | low => exact absurd hends (by simp [endsCommand])
      | output reason => rfl
    obtain rfl : c = .output .shutdown := List.inj_on_of_nodup_map h.nodup hc hmem hsource
    exact absurd hends (by simp [endsCommand])
  · intro hnot
    rw [← hone]
    refine List.countP_congr fun c hc => ?_
    cases c with
    | high | low => simp [endsCommand, Closure.source]
    | output reason =>
      cases reason with
      | drained | disconnected | protocolError => simp [endsCommand, Closure.source]
      | shutdown =>
        have hne : kind ≠ .response := fun hresponse => hnot ⟨hresponse, hc⟩
        simp [endsCommand, Closure.source, hne]

/-- A terminator is emitted only by an output that ended by itself. -/
theorem CommandRun.no_terminator (h : CommandRun kind r)
    (hclosed : .output .shutdown ∈ r.closures ∨ .output .protocolError ∈ r.closures) :
    ∀ x ∈ r.out, x.1 ≠ .terminator := by
  rintro ⟨origin, frame⟩ hmem rfl
  rcases h.terminated frame hmem with hend | hend <;> rcases hclosed with hclosed | hclosed
  all_goals exact absurd (List.inj_on_of_nodup_map h.nodup hend hclosed rfl) (by simp)

/-- What the hooks see of the end of the command: it is announced once, a terminator is asked
for at most once, and none is sent after shutdown or a protocol error. -/
def CommandEndsOnce (r : ActorRun F E H) : Prop :=
  r.invoked.count .onCommandEnd = 1 ∧ r.invoked.count .streamEndFrame ≤ 1 ∧
    (.output .shutdown ∈ r.closures ∨ .output .protocolError ∈ r.closures →
      ∀ x ∈ r.out, x.1 ≠ .terminator)

/-- **A run that returns has announced the end of its command exactly once, if and only if
shutdown did not find the response stream still active.** -/
theorem commandEndsOnce_iff [CorrelatableFrame F] [Fragmentable F] {fairness : FairnessConfig}
    {fragmenter : Option Fragmenter} {hooks : H} {events : List (ActorEvent F E)}
    (hkind : kind ≠ .none)
    (h : Trace.exec (step cfg) (start kind fairness fragmenter hooks) events = some r)
    (hpoint : r.point = .returned (.ok ())) :
    CommandEndsOnce r ↔
      Trace.Never (step cfg) AbandonsStream (start kind fairness fragmenter hooks) events := by
  have hrun := exec_commandRun h
  have hnever : ¬ (kind = .response ∧ .output .shutdown ∈ r.closures) ↔ _ ∧ _ :=
    Trace.not_flag_iff_never (fun _ _ _ hinv hstep => step_lifecycle hinv hstep)
      (fun _ _ _ hinv hstep => step_abandons hinv hstep)
      (start_lifecycle kind fairness fragmenter hooks) h
  unfold CommandEndsOnce
  rw [hrun.command_ended hkind hpoint, hnever]
  constructor
  · rintro ⟨⟨-, hnever⟩, -⟩
    exact hnever
  · intro hnever
    refine ⟨⟨by simp [start], hnever⟩, ?_, hrun.no_terminator⟩
    rw [← hrun.output_closed hkind hpoint]
    exact hrun.asked

/-- The stream ends by itself, then both queues are closed. -/
def drainedStream : List (ActorEvent FragmentParts Unit) :=
  [.polled 0 0, .outputSent (.ok ⟨1, none, [7]⟩), .outputClosed, .highClosed, .lowClosed,
   .polled 0 0, .polled 0 0, .polled 0 0, .polled 0 0, .polled 0 0, .polled 0 0, .polled 0 0,
   .polled 0 0, .polled 0 0, .polled 0 0, .polled 0 0, .polled 0 0, .polled 0 0, .polled 0 0]

theorem commandEndsOnce_iff_drained :
    ∃ r, Trace.exec (step (bare bincodeHeader)) (start .response ⟨8, none⟩ none ()) drainedStream =
        some r ∧ r.point = .returned (.ok ()) ∧ r.invoked.count .onCommandEnd = 1 ∧
      (CommandEndsOnce r ↔ Trace.Never (step (bare bincodeHeader)) AbandonsStream
        (start .response ⟨8, none⟩ none ()) drainedStream) := by
  have hrun : (Trace.exec (step (bare bincodeHeader)) (start .response ⟨8, none⟩ none ())
      drainedStream).isSome = true := by decide
  refine ⟨_, (Option.some_get hrun).symm, rfl, rfl, ?_⟩
  exact commandEndsOnce_iff (by decide) (Option.some_get hrun).symm rfl

/-- The run returns without having announced the end of the command. -/
theorem cancelledStream_not_announced :
    ∃ r, Trace.exec (step (bare bincodeHeader)) (start .response ⟨8, none⟩ none ()) cancelledStream =
        some r ∧ r.point = .returned (.ok ()) ∧ r.invoked.count .onCommandEnd = 0 ∧
      ¬ CommandEndsOnce r := by
  have hrun : (Trace.exec (step (bare bincodeHeader)) (start .response ⟨8, none⟩ none ())
      cancelledStream).isSome = true := by decide
  refine ⟨_, (Option.some_get hrun).symm, rfl, rfl, fun hends => ?_⟩
  have hone : 0 = 1 := hends.1
  exact absurd hone (by decide)

end ActorRun

end Wireframe
