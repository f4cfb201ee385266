/-
# Runs of a fallible component

A component is given by its calls: `step s a` is what the call `a` returns in the
state `s` together with the state it leaves, or the failure that ends the run.  `run`
makes a list of calls in order and collects what they return.

The rules below turn what one call preserves into what a whole run preserves.  The second
half does the same for a transition system whose steps are guarded: `step s a` is the state
after the event `a`, or `none` when the event cannot happen in `s`.

Calls that never fail have a `transcript`, the calls with what they returned, and a rule for
what holds between the transcript and the state it leads to.
-/
import Mathlib.Tactic

namespace Trace

/-! ## Runs that can fail -/

variable {σ α β ε : Type*}

/-- Make the calls in order and collect what they return; a failing call ends the run. -/
def run (step : σ → α → Except ε (β × σ)) : σ → List α → Except ε (List β × σ)
  | s, [] => .ok ([], s)
  | s, a :: as =>
    match step s a with
    | .error e => .error e
    | .ok (b, s') =>
      match run step s' as with
      | .error e => .error e
      | .ok (bs, s'') => .ok (b :: bs, s'')

variable {step : σ → α → Except ε (β × σ)} {s s' : σ}

theorem run_cons_of_error {a : α} {e : ε} (h : step s a = .error e) (as : List α) :
    run step s (a :: as) = .error e := by
  rw [run, h]

theorem run_cons_of_ok {a : α} {b : β} {t : σ} (h : step s a = .ok (b, t)) (as : List α) :
    run step s (a :: as) = (run step t as).map fun r => (b :: r.1, r.2) := by
  rw [run, h]
  simp only
  cases run step t as <;> rfl

/-- A nonempty run that succeeds is a successful call followed by a successful run. -/
theorem run_cons_eq_ok {a : α} {as : List α} {out : List β}
    (h : run step s (a :: as) = .ok (out, s')) :
    ∃ b t bs, step s a = .ok (b, t) ∧ run step t as = .ok (bs, s') ∧ out = b :: bs := by
  rcases hstep : step s a with e | ⟨b, t⟩
  · rw [run_cons_of_error hstep] at h
    cases h
  · rw [run_cons_of_ok hstep] at h
    rcases hrun : run step t as with e | ⟨bs, u⟩
    · rw [hrun] at h
      exact absurd h (by simp [Except.map])
    · rw [hrun] at h
      obtain ⟨rfl, rfl⟩ : b :: bs = out ∧ u = s' := by simpa [Except.map] using h
      exact ⟨b, t, bs, rfl, hrun, rfl⟩

/-- A run that fails does so in its first call or in the rest. -/
theorem run_cons_eq_error {a : α} {as : List α} {e : ε} (h : run step s (a :: as) = .error e) :
    step s a = .error e ∨ ∃ b t, step s a = .ok (b, t) ∧ run step t as = .error e := by
  rcases hstep : step s a with e' | ⟨b, t⟩
  · rw [run_cons_of_error hstep] at h
    exact Or.inl (by rw [Except.error.inj h])
  · rw [run_cons_of_ok hstep] at h
    rcases hrun : run step t as with e' | ⟨bs, u⟩
    · rw [hrun] at h
      exact Or.inr ⟨b, t, rfl, hrun.trans h⟩
    · rw [hrun] at h
      exact absurd h (by simp [Except.map])

/-- A run that succeeds goes on with any call that does. -/
theorem run_concat_of_ok {as : List α} {a : α} {out : List β} {b : β} {t : σ}
    (h : run step s as = .ok (out, t)) (ha : step t a = .ok (b, s')) :
    run step s (as ++ [a]) = .ok (out ++ [b], s') := by
  induction as generalizing s out with
  | nil =>
    obtain ⟨rfl, rfl⟩ : [] = out ∧ s = t := by simpa [run] using h
    rw [List.nil_append, run_cons_of_ok ha]
    rfl
  | cons c as ih =>
    obtain ⟨d, u, ds, hd, hds, rfl⟩ := run_cons_eq_ok h
    rw [List.cons_append, run_cons_of_ok hd, ih hds]
    rfl

/-- **Run rule**: what every call preserves holds after every run. -/
theorem run_invariant {Inv : σ → Prop}
    (hstep : ∀ s a b s', Inv s → step s a = .ok (b, s') → Inv s')
    {as : List α} {out : List β} (hs : Inv s) (h : run step s as = .ok (out, s')) : Inv s' := by
  induction as generalizing s out with
  | nil =>
    obtain ⟨-, rfl⟩ : [] = out ∧ s = s' := by simpa [run] using h
    exact hs
  | cons a as ih =>
    obtain ⟨b, t, bs, hb, hbs, -⟩ := run_cons_eq_ok h
    exact ih (hstep s a b t hs hb) hbs

/-- A failure that no call raises under the invariant ends no run. -/
theorem run_ne_error {Inv : σ → Prop}
    (hstep : ∀ s a b s', Inv s → step s a = .ok (b, s') → Inv s')
    {e : ε} (hsafe : ∀ s a, Inv s → step s a ≠ .error e)
    {as : List α} (hs : Inv s) : run step s as ≠ .error e := by
  induction as generalizing s with
  | nil => simp [run]
  | cons a as ih =>
    intro h
    rcases run_cons_eq_error h with h | ⟨b, t, hb, h⟩
    · exact hsafe s a hs h
    · exact ih (hstep s a b t hs hb) h

/-! ## Guarded transitions -/

section Guarded

variable {σ α : Type*} {step : σ → α → Option σ} {s s' : σ}

/-- The state after a list of events, when each of them can happen in its turn. -/
def exec (step : σ → α → Option σ) : σ → List α → Option σ
  | s, [] => some s
  | s, a :: as =>
    match step s a with
    | none => none
    | some t => exec step t as

theorem exec_cons_eq_some {a : α} {as : List α} (h : exec step s (a :: as) = some s') :
    ∃ t, step s a = some t ∧ exec step t as = some s' := by
  rw [exec] at h
  rcases hstep : step s a with _ | t
  · rw [hstep] at h
    cases h
  · rw [hstep] at h
    exact ⟨t, rfl, h⟩

theorem exec_append (as bs : List α) :
    exec step s (as ++ bs) = (exec step s as).bind fun t => exec step t bs := by
  induction as generalizing s with
  | nil => rfl
  | cons a as ih =>
    rw [List.cons_append, exec, exec]
    cases step s a with
    | none => rfl
    | some t => exact ih

/-- A run can be cut anywhere. -/
theorem exec_append_eq_some {as bs : List α} {t : σ} (h : exec step s (as ++ bs) = some s')
    (ht : exec step s as = some t) : exec step t bs = some s' := by
  rw [exec_append, ht] at h
  exact h

/-- A run goes on with any step that is possible. -/
theorem exec_concat {as : List α} {a : α} {t : σ} (h : exec step s as = some t)
    (ht : step t a = some s') : exec step s (as ++ [a]) = some s' := by
  rw [exec_append, h, Option.bind_some, exec, ht]
  rfl

/-! ### Invariants -/

/-- What every step preserves holds in every state reached. -/
theorem exec_invariant {Inv : σ → Prop}
    (hstep : ∀ s a t, Inv s → step s a = some t → Inv t)
    {as : List α} (hs : Inv s) (h : exec step s as = some s') : Inv s' := by
  induction as generalizing s with
  | nil =>
    obtain rfl : s = s' := by simpa [exec] using h
    exact hs
  | cons a as ih =>
    obtain ⟨t, ht, hrest⟩ := exec_cons_eq_some h
    exact ih (hstep s a t hs ht) hrest

/-- What holds before the first event, and is preserved when an event is added to those that
happened, holds between every run and the state it reaches. -/
theorem exec_history {Inv : List α → σ → Prop}
    (hstep : ∀ as s a t, Inv as s → step s a = some t → Inv (as ++ [a]) t)
    {as : List α} (hs : Inv [] s) (h : exec step s as = some s') : Inv as s' := by
  induction as using List.reverseRecOn generalizing s' with
  | nil =>
    obtain rfl : s = s' := by simpa [exec] using h
    exact hs
  | append_singleton as a ih =>
    rw [exec_append] at h
    obtain ⟨t, ht, hlast⟩ := Option.bind_eq_some_iff.mp h
    obtain ⟨u, hu, hnil⟩ := exec_cons_eq_some hlast
    obtain rfl : u = s' := by simpa [exec] using hnil
    exact hstep as t a u (ih ht) hu

/-! ### Logs -/

/-- What the steps of a run note down, in order, up to the first event that cannot happen. -/
def log {β : Type*} (step : σ → α → Option σ) (note : σ → α → List β) : σ → List α → List β
  | _, [] => []
  | s, a :: as =>
    note s a ++
      match step s a with
      | none => []
      | some t => log step note t as

theorem log_cons_of_some {β : Type*} {note : σ → α → List β} {a : α} {as : List α} {t : σ}
    (h : step s a = some t) : log step note s (a :: as) = note s a ++ log step note t as := by
  rw [log, h]

/-! ### States and steps along a run -/

/-- `P` holds in every state a run goes through, up to the first event that cannot happen. -/
def Always (step : σ → α → Option σ) (P : σ → Prop) : σ → List α → Prop
  | s, [] => P s
  | s, a :: as => P s ∧ ∀ t, step s a = some t → Always step P t as

/-- No step of the run is of the kind `Q`. -/
def Never (step : σ → α → Option σ) (Q : σ → α → Prop) : σ → List α → Prop
  | _, [] => True
  | s, a :: as => ¬ Q s a ∧ ∀ t, step s a = some t → Never step Q t as

/-- Whether a step of a run is of a kind that can be decided is decided along the run. -/
instance decidableNever {Q : σ → α → Prop} [∀ s a, Decidable (Q s a)] (s : σ) (as : List α) :
    Decidable (Never step Q s as) :=
  match as with
  | [] => isTrue trivial
  | a :: as =>
    match h : step s a with
    | none => decidable_of_iff (¬ Q s a) (by simp [Never, h])
    | some t =>
      have : Decidable (Never step Q t as) := decidableNever t as
      decidable_of_iff (¬ Q s a ∧ Never step Q t as) (by simp [Never, h])

theorem Always.head {P : σ → Prop} {as : List α} (h : Always step P s as) : P s := by
  cases as with
  | nil => exact h
  | cons a as => exact h.1

/-- What every step preserves while `P` holds, holds at the end of a run that keeps `P`. -/
theorem Always.invariant {P Inv : σ → Prop}
    (hstep : ∀ s a t, P s → P t → Inv s → step s a = some t → Inv t)
    {as : List α} (hs : Inv s) (halways : Always step P s as) (h : exec step s as = some s') :
    Inv s' := by
  induction as generalizing s with
  | nil =>
    obtain rfl : s = s' := by simpa [exec] using h
    exact hs
  | cons a as ih =>
    obtain ⟨t, ht, hrest⟩ := exec_cons_eq_some h
    have hmore := halways.2 t ht
    exact ih (hstep s a t halways.1 hmore.head hs ht) hmore hrest

/-- What every step not of the kind `Q` preserves holds at the end of a run without such steps. -/
theorem Never.invariant {Inv : σ → Prop} {Q : σ → α → Prop}
    (hstep : ∀ s a t, ¬ Q s a → Inv s → step s a = some t → Inv t)
    {as : List α} (hs : Inv s) (hnever : Never step Q s as) (h : exec step s as = some s') :
    Inv s' := by
  induction as generalizing s with
  | nil =>
    obtain rfl : s = s' := by simpa [exec] using h
    exact hs
  | cons a as ih =>
    obtain ⟨t, ht, hrest⟩ := exec_cons_eq_some h
    exact ih (hstep s a t hnever.1 hs ht) (hnever.2 t ht) hrest

/-- An invariant that rules out the steps of the kind `Q`, and that all others keep, rules them out
along every run. -/
theorem never_of_invariant {Inv : σ → Prop} {Q : σ → α → Prop} (hsafe : ∀ s a, Inv s → ¬ Q s a)
    (hstep : ∀ s a t, ¬ Q s a → Inv s → step s a = some t → Inv t) (hs : Inv s) (as : List α) :
    Never step Q s as := by
  induction as generalizing s with
  | nil => trivial
  | cons a as ih =>
    exact ⟨hsafe s a hs, fun t ht => ih (hstep s a t (hsafe s a hs) hs ht)⟩

/-- If the steps of kind `Q` break `P`, and all others keep an invariant that implies it,
then `P` holds along a run exactly when the run has no step of kind `Q`. -/
theorem always_iff_never {Inv P : σ → Prop} {Q : σ → α → Prop} (hP : ∀ s, Inv s → P s)
    (hkeep : ∀ s a t, Inv s → ¬ Q s a → step s a = some t → Inv t)
    (hbreak : ∀ s a, Inv s → Q s a → ∃ t, step s a = some t ∧ ¬ P t)
    (hs : Inv s) (as : List α) : Always step P s as ↔ Never step Q s as := by
  induction as generalizing s with
  | nil => exact ⟨fun _ => trivial, fun _ => hP s hs⟩
  | cons a as ih =>
    constructor
    · rintro ⟨-, hrest⟩
      have hnot : ¬ Q s a := by
        intro hq
        obtain ⟨t, ht, hbad⟩ := hbreak s a hs hq
        exact hbad (hrest t ht).head
      refine ⟨hnot, fun t ht => ?_⟩
      exact (ih (hkeep s a t hs hnot ht)).mp (hrest t ht)
    · rintro ⟨hnot, hrest⟩
      refine ⟨hP s hs, fun t ht => ?_⟩
      exact (ih (hkeep s a t hs hnot ht)).mpr (hrest t ht)

/-- If a flag is raised by the steps of kind `Q` and by no others, and never lowered, then it is
down at the end of a run exactly when it was down at its start and no step was of kind `Q`. -/
theorem not_flag_iff_never {Inv flag : σ → Prop} {Q : σ → α → Prop}
    (hstep : ∀ s a t, Inv s → step s a = some t → Inv t)
    (hflag : ∀ s a t, Inv s → step s a = some t → (flag t ↔ flag s ∨ Q s a))
    {as : List α} (hs : Inv s) (h : exec step s as = some s') :
    ¬ flag s' ↔ ¬ flag s ∧ Never step Q s as := by
  induction as generalizing s with
  | nil =>
    obtain rfl : s = s' := by simpa [exec] using h
    exact (and_iff_left trivial).symm
  | cons a as ih =>
    obtain ⟨t, ht, hrest⟩ := exec_cons_eq_some h
    rw [ih (hstep s a t hs ht) hrest, hflag s a t hs ht, not_or, and_assoc]
    refine and_congr_right fun _ => and_congr_right fun _ => ?_
    constructor
    · intro hnever u hu
      obtain rfl : t = u := Option.some.inj (ht.symm.trans hu)
      exact hnever
    · intro hnever
      exact hnever t ht

end Guarded

/-! ## Calls that never fail -/

section Total

variable {σ α β : Type*} {call : σ → α → β × σ} {s : σ}

/-- The calls in order, each with what it returned. -/
def transcript (call : σ → α → β × σ) : σ → List α → List (α × β)
  | _, [] => []
  | s, a :: as => (a, (call s a).1) :: transcript call (call s a).2 as

/-- The state the calls leave. -/
def after (call : σ → α → β × σ) : σ → List α → σ
  | s, [] => s
  | s, a :: as => after call (call s a).2 as

theorem after_concat (as : List α) (a : α) :
    after call s (as ++ [a]) = (call (after call s as) a).2 := by
  induction as generalizing s with
  | nil => rfl
  | cons b as ih => exact ih

theorem transcript_concat (as : List α) (a : α) :
    transcript call s (as ++ [a]) =
      transcript call s as ++ [(a, (call (after call s as) a).1)] := by
  induction as generalizing s with
  | nil => rfl
  | cons b as ih => exact congrArg (List.cons _) ih

/-- Every answer in a transcript was given in some state. -/
theorem exists_of_mem_transcript {as : List α} {a : α} {b : β}
    (h : (a, b) ∈ transcript call s as) : ∃ t, (call t a).1 = b := by
  induction as generalizing s with
  | nil => cases h
  | cons c as ih =>
    rcases List.mem_cons.mp h with heq | h
    · cases heq
      exact ⟨s, rfl⟩
    · exact ih h

/-- **History rule**: what holds before the first call, and is preserved when a call is added to
the transcript, holds between every transcript and the state it leads to. -/
theorem history_invariant (Inv : List (α × β) → σ → Prop) (hs : Inv [] s)
    (hcall : ∀ history s a, Inv history s → Inv (history ++ [(a, (call s a).1)]) (call s a).2)
    (as : List α) : Inv (transcript call s as) (after call s as) := by
  induction as using List.reverseRecOn with
  | nil => exact hs
  | append_singleton as a ih =>
    rw [transcript_concat, after_concat]
    exact hcall _ _ a ih

end Total

end Trace
