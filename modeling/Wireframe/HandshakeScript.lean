/-
# What the task of a connection calls and counts

The task calls the handlers of the preamble and the application's setup and teardown, and counts
what it refuses.  `task_script`: in every run of `Handshake` the record of these is the beginning
of one of three scripts, and all of it once the task is over, unless the task panicked.
-/
import Mathlib.Tactic
import Wireframe.HandshakeAgreement

namespace Wireframe

namespace Handshake

/-! ## Scripts -/

variable {T : Type} {decode : PreambleDecoder T} {cfg : HandshakeConfig}

/-- The entry of the success handler, if there is one. -/
def welcome (cfg : HandshakeConfig) (value : T) : List (TaskEntry T) :=
  if cfg.serverSuccess then [.successHandler value] else []

/-- The entry of the setup, if there is one. -/
def opening (cfg : HandshakeConfig) : List (TaskEntry T) :=
  if cfg.onConnect then [.setup] else []

/-- The entry of the teardown, which needs the state that a setup made. -/
def closing (cfg : HandshakeConfig) : List (TaskEntry T) :=
  if cfg.onDisconnect = true ∧ cfg.onConnect = true then [.teardown] else []

/-- What a task goes through that does not panic. -/
inductive Script (cfg : HandshakeConfig) : List (TaskEntry T) → Prop where
  | refused (err : PreambleError) :
      Script cfg (.decodeRejected err :: if cfg.serverFailure then [.failureHandler err] else [])
  | rejected (value : T) (hsuccess : cfg.serverSuccess = true) :
      Script cfg [.successHandler value, .handlerRejected]
  | served (value : T) : Script cfg (welcome cfg value ++ opening cfg ++ closing cfg)

/-! ## Where the task is in its script -/

/-- The record of a task that is not over, phase by phase. -/
def Underway (cfg : HandshakeConfig) (record : List (TaskEntry T)) : ServerPhase T → Prop
  | .reading _ => record = []
  | .refusing err =>
    record = .decodeRejected err :: if cfg.serverFailure then [.failureHandler err] else []
  | .welcoming value _ => record = [.successHandler value] ∧ cfg.serverSuccess = true
  | .connecting value _ => record = welcome cfg value ++ opening cfg
  | .serving value _ _ => record = welcome cfg value ++ opening cfg
  | .disconnecting => ∃ value, record = welcome cfg value ++ opening cfg ++ closing cfg
  | .gone => False

/-- The record of a task that is over. -/
def Over (cfg : HandshakeConfig) (record : List (TaskEntry T)) : Prop :=
  Script cfg record ∨
    ∃ script done, Script cfg script ∧ done <+: script ∧ record = done ++ [.panicked]

/-- The record of a task, over or not. -/
def Recorded (cfg : HandshakeConfig) (e : ServerEnd T) : Prop :=
  Underway cfg e.record e.phase ∨ e.phase = .gone ∧ Over cfg e.record

/-- A task that is not over is on the way through a script. -/
theorem Underway.script {record : List (TaskEntry T)} {phase : ServerPhase T}
    (h : Underway cfg record phase) : ∃ script, Script cfg script ∧ record <+: script := by
  cases phase with
  | reading run => exact ⟨_, .refused timeoutError, h ▸ List.nil_prefix⟩
  | refusing err => exact ⟨_, .refused err, h ▸ List.prefix_rfl⟩
  | welcoming value leftover =>
    obtain ⟨rfl, hsuccess⟩ := h
    exact ⟨_, .rejected value hsuccess, [.handlerRejected], rfl⟩
  | connecting value leftover | serving value leftover stream =>
    exact ⟨_, .served value, h ▸ List.prefix_append _ _⟩
  | disconnecting =>
    obtain ⟨value, rfl⟩ := h
    exact ⟨_, .served value, List.prefix_rfl⟩
  | gone => exact h.elim

theorem Underway.panic {record : List (TaskEntry T)} {phase : ServerPhase T}
    (h : Underway cfg record phase) : Over cfg (record ++ [.panicked]) := by
  obtain ⟨script, hscript, hstarts⟩ := h.script
  exact Or.inr ⟨script, record, hscript, hstarts, rfl⟩

/-- A task that comes to its end has been through its script, or it panics. -/
theorem Underway.ends {record entries : List (TaskEntry T)} {phase : ServerPhase T}
    (h : Underway cfg record phase) (hends : Ends cfg phase entries) :
    Over cfg (record ++ entries) := by
  cases hends with
  | @rejected value leftover =>
    obtain ⟨rfl, hsuccess⟩ := h
    exact Or.inl (.rejected value hsuccess)
  | @refused err =>
    obtain rfl : record = _ := h
    rw [List.append_nil]
    exact Or.inl (.refused err)
  | @returned value leftover stream hhooks =>
    obtain rfl : record = _ := h
    have hclosing : closing cfg = ([] : List (TaskEntry T)) := if_neg hhooks
    have hscript : Script cfg (welcome cfg value ++ opening cfg ++ closing cfg) := .served value
    rw [hclosing] at hscript
    exact Or.inl hscript
  | tornDown =>
    obtain ⟨value, rfl⟩ := h
    rw [List.append_nil]
    exact Or.inl (.served value)
  | panicked hforeign => exact h.panic

/-! ## Every step follows it -/

theorem recorded_handleAppConnection {s : Handshake T} {value : T} {leftover : List UInt8}
    (h : s.server.record = welcome cfg value) :
    Recorded cfg (s.handleAppConnection cfg value leftover).server := by
  refine Or.inl ?_
  unfold handleAppConnection
  split
  case isTrue hconnect =>
    show s.server.record ++ [.setup] = welcome cfg value ++ opening cfg
    rw [h, opening, if_pos hconnect]
  case isFalse hconnect =>
    show s.server.record = welcome cfg value ++ opening cfg
    rw [h, opening, if_neg hconnect, List.append_nil]

/-- The failure path tells the handler and ends the task. -/
theorem recorded_runPreambleFailure {s : Handshake T} {err : PreambleError}
    (h : s.server.record = []) : Recorded cfg (s.runPreambleFailure cfg err).server := by
  unfold runPreambleFailure
  split
  case isTrue hfailure =>
    refine Or.inl ?_
    show s.server.record ++ [.decodeRejected err, .failureHandler err] = _
    rw [h, if_pos hfailure]
    rfl
  case isFalse hfailure =>
    have hscript : Script (T := T) cfg
        (.decodeRejected err :: if cfg.serverFailure then [.failureHandler err] else []) :=
      .refused err
    rw [if_neg hfailure] at hscript
    refine Or.inr ⟨rfl, Or.inl ?_⟩
    show Script cfg (s.server.record ++ [.decodeRejected err])
    rw [h]
    exact hscript

/-- A pass that decides starts the success or the failure path. -/
theorem recorded_afterPass {s : Handshake T} {run : PreambleRun T} (h : s.server.record = []) :
    Recorded cfg (s.afterPass cfg run).server := by
  unfold afterPass
  split
  · unfold runPreambleSuccess
    split
    case isTrue hsuccess =>
      refine Or.inl ⟨?_, hsuccess⟩
      show s.server.record ++ _ = _
      rw [h]
      rfl
    case isFalse hsuccess =>
      exact recorded_handleAppConnection (h.trans (if_neg hsuccess).symm)
  · exact recorded_runPreambleFailure h
  · refine Or.inr ⟨rfl, Or.inr ⟨_, [], .refused timeoutError, List.nil_prefix, ?_⟩⟩
    show s.server.record ++ _ = _
    rw [h]
  · exact Or.inl h

/-- A task that is over does not move; any other keeps to its script. -/
theorem ServerMove.recorded {s s' : Handshake T} (h : ServerMove decode cfg s s')
    (hrecorded : Recorded cfg s.server) : Recorded cfg s'.server := by
  obtain ⟨toServer, toClient, client, ⟨phase, took, read, passes, record⟩⟩ := s
  have hmoves : ∀ {phase' : ServerPhase T}, phase = phase' → phase' ≠ .gone →
      Underway cfg record phase' := by
    rintro phase' rfl hne
    rcases hrecorded with hunderway | ⟨hgone, -⟩
    · exact hunderway
    · exact absurd hgone hne
  cases h with
  | passes hphase hready hrun => exact recorded_afterPass (hmoves hphase (by simp))
  | timesOut hphase => exact recorded_runPreambleFailure (hmoves hphase (by simp))
  | accepts hphase =>
    obtain ⟨hrecord, hsuccess⟩ := hmoves hphase (by simp)
    refine recorded_handleAppConnection ?_
    show record = _
    rw [hrecord, welcome, if_pos hsuccess]
  | serves hphase | polls hphase hpoll =>
    have hrecord := hmoves hphase (by simp)
    exact Or.inl hrecord
  | ends hends =>
    refine Or.inr ⟨rfl, (hmoves rfl ?_).ends hends⟩
    rintro rfl
    cases hends with
    | panicked hforeign => cases hforeign
  | @disconnects value leftover stream hphase hhooks =>
    obtain rfl : record = _ := hmoves hphase (by simp)
    refine Or.inl ⟨value, ?_⟩
    rw [closing, if_pos hhooks]
    rfl
  | takes hbare hn | writes hfree hopen => exact hrecorded

theorem Recorded.step {s s' : Handshake T} {event : HandshakeEvent}
    (h : Recorded cfg s.server) (hstep : step decode cfg s event = some s') :
    Recorded cfg s'.server := by
  cases event with
  | client event =>
    rw [(clientStep_move hstep).frame.1]
    exact h
  | server event => exact (serverStep_move hstep).recorded h
  | breaksToServer err | breaksToClient err =>
    cases hstep
    exact h

theorem recorded_start : Recorded cfg (start cfg : Handshake T).server := by
  refine Or.inl ?_
  unfold start
  simp only
  split
  · rfl
  · unfold clientFailed
    split
    · rfl
    · rfl
  · rfl

/-! ## Whole runs -/

/-- **A task follows a script.**  Whatever the client sends and the handlers do, the callbacks that
the task of a connection has called and the failures it has counted are the beginning of one of
three scripts, in order and each at most once: a refused preamble with its handler, a preamble that
its handler rejected, or a connection that is served between its setup and its teardown.  When the
task is over the script is complete, the teardown included, unless the task panicked, which is then
counted last. -/
theorem task_script {events : List HandshakeEvent} {s : Handshake T}
    (hrun : Trace.exec (step decode cfg) (start cfg) events = some s) :
    ∃ script, Script cfg script ∧
      ((s.server.record <+: script ∧ (s.server.phase = .gone → s.server.record = script)) ∨
        s.server.phase = .gone ∧
          ∃ done, done <+: script ∧ s.server.record = done ++ [.panicked]) := by
  have hrecorded : Recorded cfg s.server := by
    refine @Trace.exec_invariant _ _ (step decode cfg) (start cfg) s
      (fun u => Recorded cfg u.server) ?_ events recorded_start hrun
    intro u event v hu hstep
    exact hu.step hstep
  rcases hrecorded with hunderway | ⟨hgone, hover⟩
  · obtain ⟨script, hscript, hstarts⟩ := hunderway.script
    refine ⟨script, hscript, Or.inl ⟨hstarts, ?_⟩⟩
    intro hgone
    rw [hgone] at hunderway
    exact hunderway.elim
  · rcases hover with hscript | ⟨script, done, hscript, hstarts, hrecord⟩
    · exact ⟨_, hscript, Or.inl ⟨List.prefix_rfl, fun _ => rfl⟩⟩
    · exact ⟨script, hscript, Or.inr ⟨hgone, done, hstarts, hrecord⟩⟩

theorem task_script_served :
    ∃ s, Trace.exec (step pairDecoder pairConfig) (start pairConfig)
        (pairEvents ++ [.server .appReturns, .server .teardownReturns]) = some s ∧
      ∃ script, Script pairConfig script ∧ s.server.record = script := by
  obtain ⟨s, hrun, hgone, hrecord⟩ : ∃ s,
      Trace.exec (step pairDecoder pairConfig) (start pairConfig)
        (pairEvents ++ [.server .appReturns, .server .teardownReturns]) = some s ∧
      s.server.phase = .gone ∧ s.server.record = [.successHandler (7, 8), .setup, .teardown] :=
    ⟨_, rfl, rfl, rfl⟩
  refine ⟨s, hrun, ?_⟩
  obtain ⟨script, hscript, ⟨-, hwhole⟩ | ⟨-, done, -, hpanicked⟩⟩ := task_script hrun
  · exact ⟨script, hscript, hwhole hgone⟩
  · -- the last entry is the teardown
    have hlast := congrArg List.getLast? (hrecord.symm.trans hpanicked)
    rw [List.getLast?_concat] at hlast
    cases hlast

end Handshake

end Wireframe
