/-
# Channels that can be closed

The receiving half of a queue: what was sent and not yet received, and whether anything more
can be sent.  A closed channel still yields what it holds, and then reports its end.

A stream of items is the same thing seen from its consumer: items that are ready, and whether
the producer has finished.
-/
import Mathlib.Tactic

/-- What is queued, and whether the channel is closed for new items. -/
structure Channel (α : Type*) where
  queue : List α
  closed : Bool
  deriving DecidableEq, Repr

/-- The outcome of polling a future once. -/
inductive Poll (α : Type*) where
  | pending
  | ready (value : α)
  deriving DecidableEq, Repr

/-- Why a receive that does not wait has no item. -/
inductive TryRecvError where
  | empty
  | disconnected
  deriving DecidableEq, Repr

namespace Channel

variable {α : Type*} {c c' : Channel α} {a : α}

/-- A channel nothing was sent on. -/
def new : Channel α := ⟨[], false⟩

/-- A closed channel refuses the item. -/
def send (c : Channel α) (a : α) : Option (Channel α) :=
  if c.closed then none else some { c with queue := c.queue ++ [a] }

def close (c : Channel α) : Channel α := { c with closed := true }

/-- Poll for the next item; `ready none` is the end of a closed channel. -/
def recv (c : Channel α) : Poll (Option α) × Channel α :=
  match c.queue with
  | a :: rest => (.ready (some a), { c with queue := rest })
  | [] => if c.closed then (.ready none, c) else (.pending, c)

/-- Take the next item if there is one, without waiting. -/
def tryRecv (c : Channel α) : Except TryRecvError α × Channel α :=
  match c.queue with
  | a :: rest => (.ok a, { c with queue := rest })
  | [] => if c.closed then (.error .disconnected, c) else (.error .empty, c)

/-- The three outcomes of a receive that does not wait. -/
theorem tryRecv_cases (c : Channel α) :
    (∃ a rest closed, c = ⟨a :: rest, closed⟩ ∧ c.tryRecv = (.ok a, ⟨rest, closed⟩)) ∨
    (c = ⟨[], true⟩ ∧ c.tryRecv = (.error .disconnected, c)) ∨
    (c = ⟨[], false⟩ ∧ c.tryRecv = (.error .empty, c)) := by
  obtain ⟨queue, closed⟩ := c
  cases queue with
  | cons a rest => exact Or.inl ⟨a, rest, closed, rfl, rfl⟩
  | nil =>
    cases closed with
    | true => exact Or.inr (Or.inl ⟨rfl, rfl⟩)
    | false => exact Or.inr (Or.inr ⟨rfl, rfl⟩)

theorem send_eq_some (h : c.send a = some c') :
    c.closed = false ∧ c' = { c with queue := c.queue ++ [a] } := by
  unfold send at h
  cases hclosed : c.closed with
  | true =>
    rw [hclosed, if_pos rfl] at h
    cases h
  | false =>
    rw [hclosed, if_neg Bool.false_ne_true] at h
    exact ⟨rfl, (Option.some.inj h).symm⟩

end Channel
