/-
# Delivery by the connection actor

An actor without a fragmenter and without callbacks forwards frames as they are.  They leave by
two routes, the arms of the `select!` and the drains that fairness makes after a high-priority
frame, and the sources may be closed or cancelled at any time.

`Delivered` is what holds whatever the order of events: for each source, what has been emitted
and what is still waiting is what was sent.  Frames of the active output can be lost, but only
behind a protocol error or when shutdown drops the output.
-/
import Mathlib.Tactic
import Wireframe.ConnectionLifecycle

namespace Wireframe

/-- What happens to a frame of the active output on its way out. -/
def OutputKind.stamp {F : Type} [CorrelatableFrame F] : OutputKind → F → F
  | .multiPacket correlationId, frame => CorrelatableFrame.setCorrelationId frame correlationId
  | .none, frame | .response, frame => frame

/-- The frames among the items of a source. -/
def okFrames {ε F : Type} (items : List (Except ε F)) : List F :=
  items.filterMap Except.toOption

namespace ActorRun

/-! ## Frames by origin -/

variable {F E : Type}

/-- The frames of `out` that came from one source. -/
def emitted {H : Type} (r : ActorRun F E H) (origin : Origin) : List F :=
  (r.out.filter fun x => x.1 = origin).map Prod.snd

theorem emitted_append {H : Type} {r r' : ActorRun F E H} {origin : Origin} {frames : List F}
    (h : r'.out = r.out ++ frames.map (Prod.mk origin)) :
    r'.emitted origin = r.emitted origin ++ frames := by
  unfold emitted
  rw [h]
  simp [List.filter_map, Function.comp_def]

theorem emitted_append_other {H : Type} {r r' : ActorRun F E H} {origin other : Origin}
    {frames : List F} (h : r'.out = r.out ++ frames.map (Prod.mk origin)) (hne : origin ≠ other) :
    r'.emitted other = r.emitted other := by
  unfold emitted
  rw [h]
  simp [List.filter_map, Function.comp_def, hne]

/-- What waits in a queue; nothing once the receiver is dropped. -/
def queued (rx : Option (Channel F)) : List F :=
  match rx with
  | none => []
  | some c => c.queue

/-- What waits in the active output. -/
def pending : ActiveOutput F E → List (Except (WireframeError E) F)
  | .none => []
  | .response stream => stream.queue
  | .multiPacket ctx => (queued ctx.channel).map .ok

variable {headerCodec : HeaderCodec} {kind : OutputKind} {r r' : ActorRun F E Unit}

/-- A bare actor emits a frame as it is. -/
theorem processFrame_bare [Fragmentable F] {origin : Origin} {frame : F}
    (hnone : r.fragmenter = none) (h : r.processFrame (bare headerCodec) origin frame = .ok r') :
    r' = { r with
      out := r.out ++ [(origin, frame)]
      invoked := r.invoked ++ [.beforeSend] } := by
  rw [processFrame_of_none hnone] at h
  exact (Except.ok.inj h).symm

theorem queued_close (rx : Option (Channel F)) : queued (rx.map Channel.close) = queued rx := by
  cases rx <;> rfl

theorem exhausted_pending {output : ActiveOutput F E} (h : Exhausted output) :
    pending output = [] := by
  cases output with
  | none => exact h.elim
  | response stream =>
    obtain rfl : stream = ⟨[], true⟩ := h
    rfl
  | multiPacket ctx =>
    obtain ⟨channel, stamp⟩ := ctx
    cases channel with
    | none => rfl
    | some c =>
      obtain rfl : c = ⟨[], true⟩ := h c rfl
      rfl

/-! ## What is emitted, what waits, what is lost -/

section Delivered

variable [CorrelatableFrame F]

/-- Of the items of the active output, those taken were emitted in order, and the rest waits
or was lost. -/
structure OutputDelivered (kind : OutputKind) (r : ActorRun F E Unit)
    (taken lost : List (Except (WireframeError E) F)) : Prop where
  sent : r.sentOutput = taken ++ (pending r.activeOutput ++ lost)
  emitted : r.emitted .output = (okFrames taken).map kind.stamp
  lost : lost ≠ [] → r.isClosed .output = true ∧
    (.output .shutdown ∈ r.closures ∨ .output .protocolError ∈ r.closures)

/-- Nothing is lost from a queue, and from the active output only behind shutdown or an error. -/
structure Delivered (kind : OutputKind) (r : ActorRun F E Unit) : Prop where
  unfragmented : r.fragmenter = none
  high : r.emitted .high ++ queued r.highRx = r.sentHigh
  low : r.emitted .low ++ queued r.lowRx = r.sentLow
  fits : Fits kind r.activeOutput
  output : ∃ taken lost, OutputDelivered kind r taken lost
  cancelled : .output .shutdown ∈ r.closures → r.shutdown = true
  failed : .output .protocolError ∈ r.closures →
    ∃ err, .response (some (.error (.protocol err))) ∈ r.events

theorem start_delivered (kind : OutputKind) (fairness : FairnessConfig) :
    Delivered kind (start kind fairness none () : ActorRun F E Unit) := by
  have hfits := (start_marked (F := F) (E := E) kind fairness none ()).fits
  refine ⟨rfl, rfl, rfl, hfits, ⟨[], [], ?_, rfl, ?_⟩, ?_, ?_⟩
  · cases kind <;> rfl
  · exact fun hne => absurd rfl hne
  · exact fun hmem => absurd hmem List.not_mem_nil
  · exact fun hmem => absurd hmem List.not_mem_nil

/-! ### The active output -/

/-- Nothing is lost while the output is open. -/
theorem OutputDelivered.lost_eq_nil {taken lost : List (Except (WireframeError E) F)}
    (h : OutputDelivered kind r taken lost) (hopen : r.isClosed .output = false) : lost = [] := by
  by_contra hne
  exact absurd (h.lost hne).1 (by simp [hopen])

/-- An item is taken from the open output; what it yields is emitted. -/
theorem OutputDelivered.take {taken lost : List (Except (WireframeError E) F)}
    (item : Except (WireframeError E) F) (h : OutputDelivered kind r taken lost)
    (hopen : r.isClosed .output = false) (hsent : r'.sentOutput = r.sentOutput)
    (hpending : pending r.activeOutput = item :: pending r'.activeOutput)
    (hemitted : r'.emitted .output = r.emitted .output ++ (okFrames [item]).map kind.stamp) :
    OutputDelivered kind r' (taken ++ [item]) [] where
  sent := by
    rw [hsent, h.sent, hpending, h.lost_eq_nil hopen]
    simp
  emitted := by
    rw [hemitted, h.emitted]
    simp [okFrames]
  lost hne := absurd rfl hne

/-- The output is dropped; what waited in it is lost unless it was empty. -/
theorem OutputDelivered.drop {taken lost : List (Except (WireframeError E) F)} {c : Closure}
    (h : OutputDelivered kind r taken lost) (hsent : r'.sentOutput = r.sentOutput)
    (hout : r'.activeOutput = .none) (hclosures : r'.closures = r.closures ++ [c])
    (hemitted : r'.emitted .output = r.emitted .output)
    (hreason : pending r.activeOutput = [] ∨ c = .output .shutdown ∨ c = .output .protocolError) :
    OutputDelivered kind r' taken (pending r.activeOutput ++ lost) where
  sent := by
    rw [hsent, h.sent, hout]
    rfl
  emitted := hemitted.trans h.emitted
  lost hne := by
    refine ⟨by simp [isClosed, hout], ?_⟩
    rw [hclosures]
    rcases hreason with hempty | rfl | rfl
    · rw [hempty, List.nil_append] at hne
      rcases (h.lost hne).2 with hmem | hmem <;> simp [hmem]
    · simp
    · simp

/-- Closing a queue loses nothing of the output. -/
theorem Delivered.closed_queue (h : Delivered kind r) (closure : Closure)
    (hqueue : ∀ reason, closure ≠ .output reason) :
    (∃ taken lost, OutputDelivered kind (r.markClosed closure) taken lost) ∧
    (.output .shutdown ∈ (r.markClosed closure).closures → r.shutdown = true) ∧
    (.output .protocolError ∈ (r.markClosed closure).closures →
      ∃ err, .response (some (.error (.protocol err))) ∈ r.events) := by
  have hmem : ∀ reason, .output reason ∈ (r.markClosed closure).closures →
      .output reason ∈ r.closures := by
    intro reason hin
    rcases List.mem_append.mp hin with hold | hnew
    · exact hold
    · exact absurd (List.mem_singleton.mp hnew).symm (hqueue reason)
  obtain ⟨taken, lost, hdelivered⟩ := h.output
  refine ⟨⟨taken, lost, hdelivered.sent, hdelivered.emitted, fun hne => ?_⟩,
    fun hin => h.cancelled (hmem _ hin), fun hin => h.failed (hmem _ hin)⟩
  obtain ⟨hclosed, hreason⟩ := hdelivered.lost hne
  exact ⟨hclosed, hreason.imp (List.mem_append_left _) (List.mem_append_left _)⟩

/-! ### Every step -/

/-- A move takes the head of one source and emits it, or closes the source. -/
theorem Move.delivered [Fragmentable F] (hmove : Move (bare headerCodec) r r')
    (h : Delivered kind r) : Delivered kind r' := by
  obtain ⟨taken, lost, hdelivered⟩ := h.output
  cases hmove with
  | cleared => exact { h with output := ⟨taken, lost, { hdelivered with }⟩ }
  | @high frame rest closed _ _ _ hrx hemit _ =>
    obtain rfl := processFrame_bare (by exact h.unfragmented) hemit
    refine ⟨h.unfragmented, ?_, ?_, h.fits, ⟨taken, lost, ?_⟩, h.cancelled, h.failed⟩
    · simpa [emitted, queued, hrx] using h.high
    · simpa [emitted] using h.low
    · exact ⟨hdelivered.sent, by simpa [emitted] using hdelivered.emitted, hdelivered.lost⟩
  | @low frame rest closed _ hrx hemit =>
    obtain rfl := processFrame_bare (by exact h.unfragmented) hemit
    refine ⟨h.unfragmented, ?_, ?_, h.fits, ⟨taken, lost, ?_⟩, h.cancelled, h.failed⟩
    · simpa [emitted] using h.high
    · simpa [emitted, queued, hrx] using h.low
    · exact ⟨hdelivered.sent, by simpa [emitted] using hdelivered.emitted, hdelivered.lost⟩
  | @multi frame rest closed stamp _ hout hemit =>
    obtain ⟨correlationId, c, rfl, hctx⟩ : Fits kind _ := hout ▸ h.fits
    obtain ⟨-, rfl⟩ := MultiPacketContext.mk.inj hctx
    obtain rfl := processFrame_bare (by exact h.unfragmented) hemit
    refine ⟨h.unfragmented, ?_, ?_, ⟨correlationId, _, rfl, rfl⟩, ⟨_, _,
      hdelivered.take (.ok frame) ?_ rfl ?_ ?_⟩, h.cancelled, h.failed⟩
    · simpa [emitted] using h.high
    · simpa [emitted] using h.low
    · simp [isClosed, hout]
    · rw [hout]
      rfl
    · simp [emitted, okFrames, Except.toOption, OutputKind.stamp, applyMultiPacketCorrelation,
        MultiPacketContext.isStampingEnabled, MultiPacketContext.correlationId]
  | @response frame rest closed _ hout hemit =>
    obtain rfl : kind = .response := (hout ▸ h.fits : Fits kind (.response _))
    obtain rfl := processFrame_bare (by exact h.unfragmented) hemit
    refine ⟨h.unfragmented, ?_, ?_, rfl, ⟨_, _,
      hdelivered.take (.ok frame) ?_ rfl ?_ ?_⟩, h.cancelled, h.failed⟩
    · simpa [emitted] using h.high
    · simpa [emitted] using h.low
    · simp [isClosed, hout]
    · rw [hout]
      rfl
    · simp [emitted, okFrames, Except.toOption, OutputKind.stamp]
  | highClosed hrx =>
    obtain ⟨⟨taken, lost, hclosed⟩, hcancelled, hfailed⟩ := h.closed_queue .high (by simp)
    refine ⟨h.unfragmented, ?_, h.low, h.fits, ⟨taken, lost, { hclosed with }⟩, hcancelled,
      hfailed⟩
    rw [← h.high, hrx]
    rfl
  | lowClosed hrx =>
    obtain ⟨⟨taken, lost, hclosed⟩, hcancelled, hfailed⟩ := h.closed_queue .low (by simp)
    refine ⟨h.unfragmented, h.high, ?_, h.fits, ⟨taken, lost, { hclosed with }⟩, hcancelled,
      hfailed⟩
    rw [← h.low, hrx]
    rfl
  | @ended reason _ hout hreason hends =>
    obtain ⟨frames, hooks, fairness, fragmenter, hkeep, -, -, rfl⟩ := hends
    have hother : ∀ origin ≠ Origin.terminator, emitted { r with
        out := r.out ++ frames.map (Prod.mk Origin.terminator) } origin = r.emitted origin := by
      intro origin horigin
      exact emitted_append_other rfl horigin.symm
    refine ⟨hkeep h.unfragmented, ?_, ?_, trivial, ⟨_, _,
      hdelivered.drop rfl rfl rfl (hother _ (by decide)) (Or.inl (exhausted_pending hout))⟩, ?_, ?_⟩
    · exact (congrArg (· ++ _) (hother .high (by decide))).trans h.high
    · exact (congrArg (· ++ _) (hother .low (by decide))).trans h.low
    · rcases hreason with rfl | rfl <;> simpa using h.cancelled
    · rcases hreason with rfl | rfl <;> simpa using h.failed
  | protocolError hout hevent =>
    refine ⟨h.unfragmented, h.high, h.low, trivial, ⟨_, _,
      hdelivered.drop rfl rfl rfl rfl (Or.inr (Or.inr rfl))⟩, ?_, ?_⟩
    · simpa using h.cancelled
    · exact fun _ => ⟨_, hevent⟩
  | @failed err rest closed hout herr =>
    obtain rfl : kind = .response := (hout ▸ h.fits : Fits kind (.response _))
    refine { h with fits := rfl, output := ⟨_, _, hdelivered.take (.error err) ?_ rfl ?_ ?_⟩ }
    · simp [isClosed, hout]
    · rw [hout]
      rfl
    · simp [okFrames, emitted, Except.toOption]

/-- Items are added to the open output. -/
theorem OutputDelivered.send {taken lost items : List (Except (WireframeError E) F)}
    (h : OutputDelivered kind r taken lost) (hopen : r.isClosed .output = false)
    (hsent : r'.sentOutput = r.sentOutput ++ items)
    (hpending : pending r'.activeOutput = pending r.activeOutput ++ items)
    (hout : r'.out = r.out) : OutputDelivered kind r' taken [] where
  sent := by
    rw [hsent, h.sent, hpending, h.lost_eq_nil hopen]
    simp
  emitted := by
    rw [ActorRun.emitted, hout]
    exact h.emitted
  lost hne := absurd rfl hne

/-- Senders only append, so what was taken so far is unchanged. -/
theorem EnvStep.delivered (henv : EnvStep r r') (h : Delivered kind r) : Delivered kind r' := by
  obtain ⟨taken, lost, hdelivered⟩ := h.output
  have hfits := h.fits
  cases henv with
  | highSent frame hrx =>
    refine { h with high := ?_, output := ⟨taken, lost, { hdelivered with }⟩ }
    simp [← h.high, hrx, queued, emitted]
  | lowSent frame hrx =>
    refine { h with low := ?_, output := ⟨taken, lost, { hdelivered with }⟩ }
    simp [← h.low, hrx, queued, emitted]
  | highClosed =>
    refine { h with high := ?_, output := ⟨taken, lost, { hdelivered with }⟩ }
    rw [← h.high]
    cases r.highRx <;> rfl
  | lowClosed =>
    refine { h with low := ?_, output := ⟨taken, lost, { hdelivered with }⟩ }
    rw [← h.low]
    cases r.lowRx <;> rfl
  | responseSent item hout =>
    rw [hout] at hfits
    refine { h with fits := hfits, output := ⟨_, _, hdelivered.send ?_ rfl ?_ rfl⟩ }
    · simp [isClosed, hout]
    · rw [hout]
      rfl
  | multiSent frame hout =>
    rw [hout] at hfits
    obtain ⟨correlationId, c, rfl, hctx⟩ := hfits
    obtain ⟨-, rfl⟩ := MultiPacketContext.mk.inj hctx
    refine { h with
      fits := ⟨correlationId, _, rfl, rfl⟩
      output := ⟨_, _, hdelivered.send ?_ rfl ?_ rfl⟩ }
    · simp [isClosed, hout]
    · rw [hout]
      simp [pending, queued]
  | responseClosed hout =>
    rw [hout] at hfits
    refine { h with
      fits := hfits, output := ⟨_, _, hdelivered.send ?_ (List.append_nil _).symm ?_ rfl⟩ }
    · simp [isClosed, hout]
    · rw [hout]
      simp [pending, Channel.close]
  | multiClosed hout =>
    rw [hout] at hfits
    obtain ⟨correlationId, c, rfl, hctx⟩ := hfits
    obtain ⟨rfl, rfl⟩ := MultiPacketContext.mk.inj hctx
    refine { h with
      fits := ⟨correlationId, _, rfl, rfl⟩
      output := ⟨_, _, hdelivered.send ?_ (List.append_nil _).symm ?_ rfl⟩ }
    · simp [isClosed, hout]
    · rw [hout]
      simp [pending, queued, Channel.close]
  | cancelled =>
    exact { h with cancelled := fun _ => rfl, output := ⟨taken, lost, { hdelivered with }⟩ }

/-- Shutdown closes the queues; only the active output loses what it holds. -/
theorem processShutdown_delivered (h : Delivered kind r) (hcancelled : r.shutdown = true) :
    Delivered kind (r.processShutdown (bare headerCodec)) := by
  obtain ⟨taken, lost, hdelivered⟩ := h.output
  have hhigh : r.emitted .high ++ queued (r.highRx.map Channel.close) = r.sentHigh := by
    rw [queued_close, h.high]
  have hlow : r.emitted .low ++ queued (r.lowRx.map Channel.close) = r.sentLow := by
    rw [queued_close, h.low]
  have hfits := h.fits
  cases hout : r.activeOutput with
  | none =>
    rw [processShutdown_none hout]
    exact { h with high := hhigh, low := hlow, output := ⟨taken, lost, { hdelivered with }⟩ }
  | response stream =>
    rw [processShutdown_response hout]
    refine ⟨h.unfragmented, hhigh, hlow, trivial, ⟨_, _, hdelivered.drop rfl rfl rfl rfl
      (Or.inr (Or.inl rfl))⟩, fun _ => hcancelled, ?_⟩
    simpa using h.failed
  | multiPacket ctx =>
    rw [hout] at hfits
    obtain ⟨correlationId, c, rfl, rfl⟩ := hfits
    rw [processShutdown_multi hout]
    refine ⟨h.unfragmented, hhigh, hlow, trivial, ⟨_, _, hdelivered.drop rfl rfl rfl rfl
      (Or.inr (Or.inl rfl))⟩, fun _ => hcancelled, ?_⟩
    simpa using h.failed

theorem step_delivered [Fragmentable F] {event : ActorEvent F E} (h : Delivered kind r)
    (hstep : step (bare headerCodec) r event = some r') : Delivered kind r' := by
  refine (step_cases hstep).keeps (P := Delivered kind) ?_ ?_ ?_ ?_ ?_ h
  · intro r point h
    obtain ⟨taken, lost, hdelivered⟩ := h.output
    exact { h with output := ⟨taken, lost, { hdelivered with }⟩ }
  · intro r event h
    obtain ⟨taken, lost, hdelivered⟩ := h.output
    refine { h with output := ⟨taken, lost, { hdelivered with }⟩, failed := fun hmem => ?_ }
    obtain ⟨err, herr⟩ := h.failed hmem
    exact ⟨err, List.mem_append_left _ herr⟩
  · exact fun h henv => henv.delivered h
  · exact fun h hmove => hmove.delivered h
  · exact fun h _ hcancelled => processShutdown_delivered h hcancelled

/-! ### What it says -/

/-- What waits in a queue is the rest of what was sent. -/
theorem Delivered.isPrefix (h : Delivered kind r) :
    r.emitted .high <+: r.sentHigh ∧ r.emitted .low <+: r.sentLow ∧
      r.emitted .output <+: (okFrames r.sentOutput).map kind.stamp := by
  obtain ⟨taken, lost, hdelivered⟩ := h.output
  refine ⟨⟨_, h.high⟩, ⟨_, h.low⟩, ?_⟩
  rw [hdelivered.emitted, hdelivered.sent]
  simp [okFrames]

theorem Delivered.queues_of_closed (h : Delivered kind r) (hhigh : r.isClosed .high = true)
    (hlow : r.isClosed .low = true) :
    r.emitted .high = r.sentHigh ∧ r.emitted .low = r.sentLow := by
  obtain hhigh : r.highRx = none := Option.isNone_iff_eq_none.mp hhigh
  obtain hlow : r.lowRx = none := Option.isNone_iff_eq_none.mp hlow
  rw [← h.high, ← h.low, hhigh, hlow]
  simp [queued]

/-- A run that was not cut short has emitted all of the active output. -/
theorem Delivered.output_of_closed (h : Delivered kind r) (hclosed : r.isClosed .output = true)
    (hshutdown : r.shutdown = false)
    (herror : ∀ err, .response (some (.error (.protocol err))) ∉ r.events) :
    r.emitted .output = (okFrames r.sentOutput).map kind.stamp := by
  obtain ⟨taken, lost, hdelivered⟩ := h.output
  have hlost : lost = [] := by
    by_contra hne
    rcases (hdelivered.lost hne).2 with hmem | hmem
    · exact absurd (h.cancelled hmem) (by simp [hshutdown])
    · obtain ⟨err, hlogged⟩ := h.failed hmem
      exact herror err hlogged
  have hpending : pending r.activeOutput = [] := by
    cases hout : r.activeOutput with
    | none => rfl
    | response _ | multiPacket _ => exact absurd hclosed (by simp [isClosed, hout])
  rw [hdelivered.emitted, hdelivered.sent, hpending, hlost]
  simp

end Delivered

/-! ## After the shutdown event -/

section Draining

variable {H : Type} {cfg : ActorSettings F E H} {s r r' : ActorRun F E H}

/-- Shutdown was observed in the state `s`: the output is gone, and the queues hold no more than
what was sent to them by then. -/
structure Draining (s r : ActorRun F E H) : Prop where
  stopped : r.state.runState ≠ .active
  dropped : r.activeOutput = .none
  highClosed : ∀ c, r.highRx = some c → c.closed = true
  lowClosed : ∀ c, r.lowRx = some c → c.closed = true
  sentHigh : r.sentHigh = s.sentHigh
  sentLow : r.sentLow = s.sentLow
  emitted : r.emitted .output = s.emitted .output

theorem markClosed_ne_active {state : ActorState} (h : state.runState ≠ .active) :
    state.markClosed.runState ≠ .active := by
  unfold ActorState.markClosed
  intro heq
  rcases ite_eq_iff.mp heq with ⟨-, ⟨⟩⟩ | ⟨-, heq⟩
  exact h heq

theorem close_closed {rx : Option (Channel F)} :
    ∀ c, rx.map Channel.close = some c → c.closed = true := by
  intro c hc
  obtain ⟨_, -, rfl⟩ := Option.map_eq_some_iff.mp hc
  rfl

theorem processShutdown_draining (hactive : r.state.runState = .active)
    (hfits : Fits kind r.activeOutput) : Draining r (r.processShutdown cfg) := by
  have hstarted : r.state.startShutdown.runState ≠ .active := by
    simp [ActorState.startShutdown, hactive]
  cases hout : r.activeOutput with
  | none =>
    rw [processShutdown_none hout]
    exact ⟨hstarted, hout, close_closed, close_closed, rfl, rfl, rfl⟩
  | response stream =>
    rw [processShutdown_response hout]
    exact ⟨markClosed_ne_active hstarted, rfl, close_closed, close_closed, rfl, rfl, rfl⟩
  | multiPacket ctx =>
    rw [hout] at hfits
    obtain ⟨correlationId, c, rfl, rfl⟩ := hfits
    rw [processShutdown_multi hout]
    exact ⟨markClosed_ne_active hstarted, rfl, close_closed, close_closed, rfl, rfl, rfl⟩

theorem EnvStep.draining (henv : EnvStep r r') (h : Draining s r) : Draining s r' := by
  cases henv with
  | highSent frame hrx => exact absurd (h.highClosed _ hrx) (by simp)
  | lowSent frame hrx => exact absurd (h.lowClosed _ hrx) (by simp)
  | responseSent item hout | responseClosed hout | multiSent frame hout | multiClosed hout =>
    exact absurd (hout.symm.trans h.dropped) (by simp)
  | highClosed => exact { h with highClosed := close_closed }
  | lowClosed => exact { h with lowClosed := close_closed }
  | cancelled => exact { h with }

variable [CorrelatableFrame F] [Fragmentable F]

/-- While draining a move takes from a queue and reopens nothing. -/
theorem Move.draining (hmove : Move cfg r r') (h : Draining s r) : Draining s r' := by
  cases hmove with
  | cleared => exact { h with }
  | high hrx hemit _ =>
    obtain ⟨frames, hooks, fragmenter, -, rfl⟩ := processFrame_emits hemit
    refine { h with highClosed := ?_, emitted := ?_ }
    · have hclosed := h.highClosed _ hrx
      rintro c ⟨⟩
      exact hclosed
    · simpa [ActorRun.emitted, List.filter_map, Function.comp_def] using h.emitted
  | low hrx hemit =>
    obtain ⟨frames, hooks, fragmenter, -, rfl⟩ := processFrame_emits hemit
    refine { h with lowClosed := ?_, emitted := ?_ }
    · have hclosed := h.lowClosed _ hrx
      rintro c ⟨⟩
      exact hclosed
    · simpa [ActorRun.emitted, List.filter_map, Function.comp_def] using h.emitted
  | multi hout _ | response hout _ | protocolError hout _ | failed hout _ =>
    exact absurd (hout.symm.trans h.dropped) (by simp)
  | highClosed hrx =>
    exact { h with stopped := markClosed_ne_active h.stopped, highClosed := nofun }
  | lowClosed hrx =>
    exact { h with stopped := markClosed_ne_active h.stopped, lowClosed := nofun }
  | ended hout hreason hends =>
    rw [h.dropped] at hout
    exact hout.elim

/-! ### Runs -/

/-- The run goes on draining, and can only end with `Ok`. -/
structure DrainingRun (s r : ActorRun F E H) : Prop extends Draining s r where
  noError : ∀ err, r.point ≠ .returned (.error err)

/-- **Step lemma**: draining goes on until the run ends. -/
theorem step_drainingRun {event : ActorEvent F E} (h : DrainingRun s r)
    (hstep : step cfg r event = some r') : DrainingRun s r' := by
  cases step_cases hstep with
  | env henv =>
    refine ⟨henv.draining h.toDraining, ?_⟩
    cases henv <;> exact h.noError
  | passed hne _ => exact ⟨{ h.toDraining with }, fun err => hne _⟩
  | panicked _ | finished _ => exact ⟨{ h.toDraining with }, nofun⟩
  | @handled event r₁ point hevent hmoves hafter =>
    have hdraining : Draining s r₁ :=
      hmoves.keeps (P := Draining s) (fun h hmove => hmove.draining h) { h.toDraining with }
    refine ⟨{ hdraining with }, ?_⟩
    rcases hafter with rfl | ⟨err, -, hresponse⟩
    · exact nofun
    · rw [hdraining.dropped] at hresponse
      exact absurd hresponse (by simp [ActiveOutput.isResponse])
  | shutdown _ hactive _ => exact absurd hactive h.stopped

/-- Moves do not log events. -/
theorem Moves.events_eq (hmoves : Moves cfg r r') : r'.events = r.events := by
  induction hmoves with
  | refl => rfl
  | tail _ hmove ih =>
    rw [← ih]
    cases hmove with
    | cleared | highClosed _ | lowClosed _ | protocolError _ _ | failed _ _ => rfl
    | high _ hemit _ | low _ hemit | multi _ hemit | response _ hemit =>
      obtain ⟨frames, hooks, fragmenter, -, rfl⟩ := processFrame_emits hemit
      rfl
    | ended _ _ hends =>
      obtain ⟨frames, hooks, fairness, fragmenter, -, -, -, rfl⟩ := hends
      rfl

/-- The step that logs the shutdown event starts the draining. -/
theorem step_shutdown {event : ActorEvent F E} (hfits : Fits kind r.activeOutput)
    (hstep : step cfg r event = some r') (hlogged : r'.events = r.events ++ [.shutdown]) :
    DrainingRun r r' := by
  have hlonger : r'.events ≠ r.events := by
    rw [hlogged]
    simp
  cases step_cases hstep with
  | env henv => cases henv <;> exact absurd rfl hlonger
  | passed _ _ | panicked _ | finished _ => exact absurd rfl hlonger
  | handled hevent hmoves _ =>
    have hevents := hmoves.events_eq.symm.trans hlogged
    exact absurd (List.singleton_inj.mp (List.append_cancel_left hevents)) hevent
  | shutdown _ hactive _ =>
    have hdraining : Draining _ (processShutdown cfg { r with events := r.events ++ [.shutdown] }) :=
      processShutdown_draining hactive hfits
    exact ⟨{ hdraining with }, nofun⟩

end Draining

/-! ## The count of a burst -/

section Counted

variable [CorrelatableFrame F] [Fragmentable F]

/-- The count of the present burst is covered by what left of the high-priority queue. -/
structure Counted (r : ActorRun F E Unit) : Prop where
  unfragmented : r.fragmenter = none
  counter : r.fairness.highCounter ≤ (r.emitted .high).length

/-- Only a high-priority frame is counted, and it is emitted; every other move clears the count or
leaves it. -/
theorem Move.counted (hmove : Move (bare headerCodec) r r') (h : Counted r) : Counted r' := by
  obtain ⟨hnone, hcounter⟩ := h
  cases hmove with
  | cleared => exact ⟨hnone, Nat.zero_le _⟩
  | high hrx hemit hrecord =>
    obtain rfl := processFrame_bare (by exact hnone) hemit
    refine ⟨hnone, ?_⟩
    have hcount := (FairnessTracker.recordHighPriority_eq_ok hrecord).2
    simp only at hcount
    simp [emitted] at hcounter ⊢
    omega
  | low _ hemit | multi _ hemit | response _ hemit =>
    obtain rfl := processFrame_bare (by exact hnone) hemit
    exact ⟨hnone, by simpa [emitted] using hcounter⟩
  | highClosed _ | lowClosed _ | protocolError _ _ | failed _ _ => exact ⟨hnone, hcounter⟩
  | ended _ _ hends =>
    obtain ⟨frames, hooks, fairness, fragmenter, hkeep, ⟨-, hless⟩, -, rfl⟩ := hends
    refine ⟨hkeep hnone, hless.trans (hcounter.trans ?_)⟩
    simp [emitted, List.filter_map, Function.comp_def]

theorem step_counted {event : ActorEvent F E} (h : Counted r)
    (hstep : step (bare headerCodec) r event = some r') : Counted r' := by
  refine (step_cases hstep).keeps (P := Counted) ?_ ?_ ?_ ?_ ?_ h
  · exact fun _ hr => { hr with }
  · exact fun _ hr => { hr with }
  · intro r r' hr henv
    cases henv <;> exact { hr with }
  · exact fun hr hmove => hmove.counted hr
  · intro r hr _ _
    obtain ⟨hooks, state, closures, invoked, heq⟩ :
        ∃ _ _ _ _, r.processShutdown (bare headerCodec) = _ := processShutdown_queues
    rw [heq]
    exact { hr with }

end Counted

/-! ## Runs -/

section Runs

variable [CorrelatableFrame F] [Fragmentable F] {fairness : FairnessConfig}
  {events : List (ActorEvent F E)}

/-- A run without a fragmenter, which panics only when it cannot count a burst any further. -/
structure DeliveryRun (kind : OutputKind) (r : ActorRun F E Unit) : Prop extends
    Delivered kind r where
  counted : Counted r
  panicked : ∀ panic, r.point = .panicked panic →
    panic = .arithmeticOverflow ∧ usizeMax ≤ (r.emitted .high).length

/-- One more step of a run without a fragmenter. -/
theorem step_deliveryRun {event : ActorEvent F E} (h : DeliveryRun kind r)
    (hstep : step (bare headerCodec) r event = some r') : DeliveryRun kind r' := by
  refine ⟨step_delivered h.toDelivered hstep, step_counted h.counted hstep, ?_⟩
  cases step_cases hstep with
  | env henv => cases henv <;> exact h.panicked
  | passed _ hpanic => exact fun panic hpoint => absurd hpoint (hpanic panic)
  | panicked hcause =>
    rintro panic ⟨⟩
    obtain ⟨hoverflow, hfull⟩ := hcause.resolve_left fun hsome => hsome h.unfragmented
    exact ⟨hoverflow, hfull.trans h.counted.counter⟩
  | finished _ | shutdown _ _ _ => exact nofun
  | handled _ _ hafter => rcases hafter with rfl | ⟨err, rfl, -⟩ <;> exact nofun

theorem exec_deliveryRun
    (h : Trace.exec (step (bare headerCodec)) (start kind fairness none ()) events = some r) :
    DeliveryRun kind r :=
  Trace.exec_invariant (fun _ _ _ hinv hstep => step_deliveryRun hinv hstep)
    ⟨start_delivered kind fairness, ⟨rfl, Nat.zero_le _⟩, nofun⟩ h

/-- **Delivery.**  What was emitted of each source is what was first sent to it, in order; a run
that returns `Ok`, was not cancelled and met no protocol error has emitted everything; and once
shutdown is observed no further frame of the active output leaves, while everything queued by
then does before the run returns.  The run panics only where the count of a burst leaves its word,
after that many high-priority frames were emitted. -/
theorem delivers_in_order
    (h : Trace.exec (step (bare headerCodec)) (start kind fairness none ()) events = some r) :
    (r.emitted .high <+: r.sentHigh ∧ r.emitted .low <+: r.sentLow ∧
      r.emitted .output <+: (okFrames r.sentOutput).map kind.stamp) ∧
    (r.point = .returned (.ok ()) → r.shutdown = false →
      (∀ err, .response (some (.error (.protocol err))) ∉ r.events) →
      r.emitted .high = r.sentHigh ∧ r.emitted .low = r.sentLow ∧
        r.emitted .output = (okFrames r.sentOutput).map kind.stamp) ∧
    (∀ earlier event later s s', events = earlier ++ event :: later →
      Trace.exec (step (bare headerCodec)) (start kind fairness none ()) earlier = some s →
      step (bare headerCodec) s event = some s' → s'.events = s.events ++ [.shutdown] →
      r.emitted .output = s.emitted .output ∧
        ∀ result, r.point = .returned result →
          r.emitted .high = s.sentHigh ∧ r.emitted .low = s.sentLow) ∧
    ∀ panic, r.point = .panicked panic →
      panic = .arithmeticOverflow ∧ usizeMax ≤ (r.emitted .high).length := by
  have hrun := exec_deliveryRun h
  have hcommand := exec_commandRun h
  have hqueues : r.point = .returned (.ok ()) →
      r.emitted .high = r.sentHigh ∧ r.emitted .low = r.sentLow := by
    intro hpoint
    have hclosed := hcommand.finished_iff.mp (hcommand.returned hpoint)
    refine hrun.queues_of_closed (hclosed _ ?_) (hclosed _ ?_) <;> cases kind <;>
      simp [OutputKind.sources]
  refine ⟨hrun.isPrefix, ?_, ?_, hrun.panicked⟩
  · intro hpoint hshutdown herror
    obtain ⟨hhigh, hlow⟩ := hqueues hpoint
    refine ⟨hhigh, hlow, hrun.output_of_closed ?_ hshutdown herror⟩
    by_contra hopen
    have hmem := hcommand.installed .output (Bool.eq_false_iff.mpr hopen)
    exact hopen (hcommand.finished_iff.mp (hcommand.returned hpoint) _ hmem)
  · rintro earlier event later s s' rfl hs hstep hlogged
    obtain ⟨u, hu, hlater⟩ := Trace.exec_cons_eq_some (Trace.exec_append_eq_some h hs)
    obtain rfl : s' = u := Option.some.inj (hstep.symm.trans hu)
    have hfits := (exec_lifecycle hs).fits
    have hdraining : DrainingRun s r :=
      Trace.exec_invariant (fun _ _ _ hinv hstep => step_drainingRun hinv hstep)
        (step_shutdown hfits hstep hlogged) hlater
    refine ⟨hdraining.emitted, fun result hpoint => ?_⟩
    rw [← hdraining.sentHigh, ← hdraining.sentLow]
    cases result with
    | error err => exact absurd hpoint (hdraining.noError err)
    | ok _ => exact hqueues hpoint

/-- The frame queued before the cancellation is delivered. -/
theorem delivers_in_order_cancelled :
    ∃ r, Trace.exec (step (bare bincodeHeader)) (start .response ⟨8, none⟩ none ())
        cancelledStream = some r ∧ r.point = .returned (.ok ()) ∧
      r.emitted .high = [⟨1, none, [7]⟩] ∧
      r.emitted .high <+: r.sentHigh ∧ r.emitted .low <+: r.sentLow ∧
      r.emitted .output <+: (okFrames r.sentOutput).map OutputKind.response.stamp := by
  have hrun : (Trace.exec (step (bare bincodeHeader)) (start .response ⟨8, none⟩ none ())
      cancelledStream).isSome = true := by decide
  exact ⟨_, (Option.some_get hrun).symm, rfl, rfl,
    (delivers_in_order (Option.some_get hrun).symm).1⟩

end Runs

end ActorRun

end Wireframe
