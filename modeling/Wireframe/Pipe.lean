/-
# A one-way stream between two parties

What one party writes the other reads, in order and in pieces of any size.  A pipe keeps all that
was ever written and how much of it has been read, so that nothing can be lost or made up: what is
on its way is the rest.  A reader that finds nothing on its way waits, unless the writer is gone.

`reader` is the pipe as a reader sees it at one moment, and `readTo` puts the pipe where that
reader has got to.  `Grows` is all that a writer can do to a pipe.
-/
import Mathlib.Tactic
import Wireframe.ShortReads

namespace ShortReads

variable {α ε : Type*}

/-- All that was written, how much of it was read, and how the stream ends once its writer is
gone. -/
structure Pipe (α ε : Type*) where
  sent : List α
  taken : ℕ
  ending : Option (Option ε)
  taken_le : taken ≤ sent.length

namespace Pipe

def empty : Pipe α ε := ⟨[], 0, none, le_rfl⟩

/-- What is on its way. -/
def transit (p : Pipe α ε) : List α := p.sent.drop p.taken

def write (p : Pipe α ε) (items : List α) : Pipe α ε where
  sent := p.sent ++ items
  taken := p.taken
  ending := p.ending
  taken_le := p.taken_le.trans (List.length_append ▸ Nat.le_add_right _ _)

/-- The writer goes away; a stream ends once. -/
def close (p : Pipe α ε) (ending : Option ε) : Pipe α ε :=
  { p with ending := some (p.ending.getD ending) }

/-- The next items are read; there are no more than are on their way. -/
def take (p : Pipe α ε) (n : ℕ) : Pipe α ε where
  sent := p.sent
  taken := min (p.taken + n) p.sent.length
  ending := p.ending
  taken_le := min_le_right _ _

/-- A read would not wait. -/
def Ready (p : Pipe α ε) : Prop := p.taken < p.sent.length ∨ p.ending.isSome = true

instance (p : Pipe α ε) : Decidable p.Ready := inferInstanceAs (Decidable (_ ∨ _))

/-- The pipe as it is found now. -/
def reader (p : Pipe α ε) (cuts : ℕ → ℕ) : Reader α ε := ⟨p.transit, p.ending.join, cuts⟩

/-- The pipe where a reader has got to. -/
def readTo (p : Pipe α ε) (r : Reader α ε) : Pipe α ε where
  sent := p.sent
  taken := p.sent.length - r.bytes.length
  ending := p.ending
  taken_le := Nat.sub_le _ _

variable (p : Pipe α ε)

theorem taken_take {n : ℕ} (h : n ≤ p.transit.length) : (p.take n).taken = p.taken + n := by
  rw [transit, List.length_drop] at h
  have hle := p.taken_le
  exact min_eq_left (by omega)

/-- A reader that has got to the item `n` leaves the pipe there. -/
theorem taken_readTo {r : Reader α ε} {n : ℕ} (hn : n ≤ p.sent.length)
    (h : r.bytes = p.sent.drop n) : (p.readTo r).taken = n := by
  show p.sent.length - r.bytes.length = n
  rw [h, List.length_drop]
  omega

/-- A reader that has read nothing leaves the pipe as it is. -/
theorem readTo_reader (cuts : ℕ → ℕ) : p.readTo (p.reader cuts) = p := by
  have hle := p.taken_le
  obtain ⟨sent, taken, ending, htaken⟩ := p
  simp only [readTo, reader, transit, List.length_drop, mk.injEq, true_and, and_true]
  exact Nat.sub_sub_self hle

/-- What is read next comes behind what was read since the place `k`. -/
theorem take_behind {k n : ℕ} {seen : List α} (hseen : seen <+: p.sent.drop k)
    (htaken : p.taken = k + seen.length) (hn : n ≤ p.transit.length) :
    seen ++ p.transit.take n <+: p.sent.drop k ∧
      (p.take n).taken = k + (seen ++ p.transit.take n).length := by
  obtain ⟨rest, hrest⟩ := hseen
  have htransit : p.transit = rest := by
    rw [transit, htaken, ← List.drop_drop, ← hrest, List.drop_left]
  constructor
  · rw [htransit, ← hrest]
    exact (List.prefix_append_right_inj seen).mpr ( List.take_prefix n rest)
  · rw [p.taken_take hn, htaken, List.length_append, List.length_take, min_eq_left hn,
      Nat.add_assoc]

/-! ## What a writer does -/

/-- More was written, if the pipe had not ended, and nothing was read. -/
structure Grows (p q : Pipe α ε) : Prop where
  sent : p.sent <+: q.sent
  taken : q.taken = p.taken
  ended : p.ending.isSome = true → q.sent = p.sent ∧ q.ending.isSome = true

theorem Grows.refl : p.Grows p := ⟨List.prefix_rfl, rfl, fun h => ⟨rfl, h⟩⟩

theorem grows_write {items : List α} (h : p.ending = none) : p.Grows (p.write items) := by
  refine ⟨List.prefix_append _ _, rfl, ?_⟩
  intro hended
  rw [h] at hended
  cases hended

theorem grows_close (ending : Option ε) : p.Grows (p.close ending) :=
  ⟨List.prefix_rfl, rfl, fun _ => ⟨rfl, rfl⟩⟩

variable {p} {q : Pipe α ε}

/-- What was written first stays what it was. -/
theorem Grows.take_sent (h : p.Grows q) {n : ℕ} (hn : n ≤ p.sent.length) :
    q.sent.take n = p.sent.take n := by
  obtain ⟨more, hmore⟩ := h.sent
  rw [← hmore, List.take_append_of_le_length hn]

/-- What is written comes behind what is there, seen from any place behind which nothing was
read. -/
theorem Grows.drop_sent (h : p.Grows q) :
    ∃ more, q.transit = p.transit ++ more ∧
      ∀ {n}, n ≤ p.sent.length → q.sent.drop n = p.sent.drop n ++ more := by
  obtain ⟨more, hmore⟩ := h.sent
  have hdrop : ∀ {n}, n ≤ p.sent.length → q.sent.drop n = p.sent.drop n ++ more := by
    intro n hn
    rw [← hmore, List.drop_append_of_le_length hn]
  refine ⟨more, ?_, hdrop⟩
  rw [transit, h.taken]
  exact hdrop p.taken_le

end Pipe

end ShortReads
