/-
# Tables of tasks

A system that starts tasks keeps them in a table: a task that moves replaces its entry, a new one
is appended.  `total` adds up a weight over the table; with the weight 1 for the tasks that are
alive it counts them, and with a rank it measures how much is left to do.

`exec_add_rank_le` is the rule that goes with a rank: in a run whose steps of one kind lower it and
whose other steps leave it where it is or lower, there are at most as many steps of that kind as the
rank was at the start.
-/
import Mathlib.Tactic
import Wireframe.Trace

namespace TaskTable

variable {τ : Type*} {f : τ → ℕ} {tasks : List τ} {i : ℕ} {a b : τ}

/-- The weight of a table. -/
def total (f : τ → ℕ) (tasks : List τ) : ℕ := (tasks.map f).sum

@[simp] theorem total_nil : total f [] = 0 := rfl

@[simp] theorem total_cons : total f (a :: tasks) = f a + total f tasks := rfl

@[simp] theorem total_concat : total f (tasks ++ [a]) = total f tasks + f a := by
  induction tasks with
  | nil => exact Nat.add_comm _ _
  | cons c tasks ih => rw [List.cons_append, total_cons, total_cons, ih, Nat.add_assoc]

/-- Replacing an entry exchanges its weight. -/
theorem total_set (h : tasks[i]? = some a) :
    total f (tasks.set i b) + f a = total f tasks + f b := by
  induction tasks generalizing i with
  | nil => exact absurd h (by simp)
  | cons c tasks ih =>
    cases i with
    | zero =>
      obtain rfl : c = a := by simpa using h
      rw [List.set_cons_zero, total_cons, total_cons]
      omega
    | succ i =>
      have hrest := ih (i := i) (by simpa using h)
      rw [List.set_cons_succ, total_cons, total_cons]
      omega

/-- The same for a table kept as a function on the tasks that exist, none of them listed twice. -/
theorem total_update {ι : Type*} [DecidableEq ι] {g : ι → τ} {ids : List ι} {p : ι}
    (hids : ids.Nodup) (hp : p ∈ ids) :
    total (fun q => f (Function.update g p b q)) ids + f (g p)
      = total (fun q => f (g q)) ids + f b := by
  induction ids with
  | nil => exact absurd hp List.not_mem_nil
  | cons q ids ih =>
    obtain ⟨hq, hids⟩ := List.nodup_cons.mp hids
    rw [total_cons, total_cons]
    rcases List.mem_cons.mp hp with rfl | hp
    · have hrest : total (fun q => f (Function.update g p b q)) ids
          = total (fun q => f (g q)) ids := by
        refine congrArg List.sum (List.map_congr_left ?_)
        intro r hr
        rw [Function.update_of_ne (ne_of_mem_of_not_mem hr hq)]
      rw [Function.update_self, hrest]
      omega
    · have hrest := ih hids hp
      rw [Function.update_of_ne (ne_of_mem_of_not_mem hp hq).symm]
      omega

theorem le_total (h : tasks[i]? = some a) : f a ≤ total f tasks := by
  induction tasks generalizing i with
  | nil => exact absurd h (by simp)
  | cons c tasks ih =>
    rw [total_cons]
    cases i with
    | zero =>
      obtain rfl : c = a := by simpa using h
      exact Nat.le_add_right _ _
    | succ i =>
      have hrest := ih (i := i) (by simpa using h)
      omega

theorem total_eq_zero_iff : total f tasks = 0 ↔ ∀ a ∈ tasks, f a = 0 := by
  induction tasks with
  | nil => simp
  | cons c tasks ih => rw [total_cons, Nat.add_eq_zero_iff, ih, List.forall_mem_cons]

/-- A property of every entry survives a replacement that has it. -/
theorem forall_mem_set {P : τ → Prop} (hall : ∀ c ∈ tasks, P c) (hb : P b) :
    ∀ c ∈ tasks.set i b, P c := by
  intro c hc
  rcases List.mem_or_eq_of_mem_set hc with hc | rfl
  · exact hall c hc
  · exact hb

theorem forall_mem_concat {P : τ → Prop} (hall : ∀ c ∈ tasks, P c) (ha : P a) :
    ∀ c ∈ tasks ++ [a], P c := by
  intro c hc
  rcases List.mem_append.mp hc with hc | hc
  · exact hall c hc
  · rwa [List.mem_singleton.mp hc]

/-- Replacing an entry by one that agrees on a selection and on what is read from it. -/
theorem map_filter_set {β : Type*} {p : τ → Bool} {g : τ → β} (h : tasks[i]? = some a)
    (hp : p b = p a) (hg : g b = g a) :
    ((tasks.set i b).filter p).map g = (tasks.filter p).map g := by
  induction tasks generalizing i with
  | nil => rfl
  | cons c tasks ih =>
    cases i with
    | zero =>
      obtain rfl : c = a := by simpa using h
      rw [List.set_cons_zero, List.filter_cons, List.filter_cons, hp]
      split
      · rw [List.map_cons, List.map_cons, hg]
      · rfl
    | succ i =>
      have hrest := ih (i := i) (by simpa using h)
      rw [List.set_cons_succ, List.filter_cons, List.filter_cons]
      split
      · rw [List.map_cons, List.map_cons, hrest]
      · exact hrest

/-- A weight that is at most `n` adds up to at most `n` per entry. -/
theorem total_le {n : ℕ} (h : ∀ a, f a ≤ n) : total f tasks ≤ n * tasks.length := by
  induction tasks with
  | nil => exact Nat.zero_le _
  | cons c tasks ih =>
    have hc := h c
    rw [total_cons, List.length_cons, Nat.mul_succ]
    omega

/-! ## Ranks -/

section Rank

variable {σ α : Type*} {step : σ → α → Option σ} {s s' : σ}

/-- **Rank rule**: under an invariant, the steps of kind `Q` lower the rank and no step raises it,
so their number and the rank at the end together stay below the rank at the start. -/
theorem exec_add_rank_le {Inv : σ → Prop} {rank : σ → ℕ} {Q : α → Bool}
    (hstep : ∀ s a t, Inv s → step s a = some t → Inv t)
    (hlower : ∀ s a t, Inv s → step s a = some t → rank t + (if Q a then 1 else 0) ≤ rank s)
    {as : List α} (hs : Inv s) (h : Trace.exec step s as = some s') :
    as.countP Q + rank s' ≤ rank s := by
  induction as generalizing s with
  | nil =>
    obtain rfl : s = s' := by simpa [Trace.exec] using h
    simp
  | cons a as ih =>
    obtain ⟨t, ht, hrest⟩ := Trace.exec_cons_eq_some h
    have hone := hlower s a t hs ht
    have hmore := ih (hstep s a t hs ht) hrest
    rw [List.countP_cons]
    omega

end Rank

end TaskTable
