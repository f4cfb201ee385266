/-
# Bounded channels with slots

A channel of a fixed capacity.  Whoever wants to send first gets a slot; a slot is used up by the
item that is put into it and comes back when the item is received.  Senders that find no slot wait
in the order they came, and a slot that comes back goes to the first of them.  A closed channel
gives out no more slots, but yields what it holds, also what senders put into slots they already
had.

The channel of the code is third-party (`tokio::sync::mpsc`).  What its documentation promises and
this model takes over, by the names under which it is referred to:

* **Capacity**: a send needs a slot, and there are `capacity` of them (`tryReserve`, `commit`).
* **Order**: items are received in the order in which they were put into their slots (`recv`).
* **Line**: a sender that waits is served before those that come later (`reserve`, `handOver`).
* **Cancellation**: a sender that stops waiting leaves the line, or passes on its slot (`giveUp`).
* **Closing**: after `close` no slot is given out, senders that wait are turned away, and the end is
  reported once nothing is left and all slots are back, or all senders are gone (`close`, `recv`).
* **Spurious failure**: a receiver may be told to wait although an item is there, as when another
  sender is in the middle of writing; whether it is, is an argument of `recv`.

`Sound` is what every operation keeps: slots are conserved, and nobody waits while one is free.
-/
import Mathlib.Tactic

/-! ## The channel -/

/-- The slots of a channel are free, held by a sender, or taken by a queued item. -/
structure BoundedChannel (ι α : Type*) where
  capacity : ℕ
  free : ℕ
  holders : List ι
  waiting : List ι
  queue : List α
  closed : Bool
  deriving DecidableEq, Repr

namespace BoundedChannel

variable {ι α : Type*}

/-- The answer to a sender that asks for a slot. -/
inductive Answer where
  | reserved
  | full
  | closed
  deriving DecidableEq, Repr

/-- What a receiver gets. -/
inductive Received (α : Type*) where
  | item (a : α)
  | pending
  | ended
  deriving DecidableEq, Repr

/-- A channel nobody has used. -/
def new (capacity : ℕ) : BoundedChannel ι α := ⟨capacity, capacity, [], [], [], false⟩

/-! ### The operations -/

/-- A slot comes back: it goes to the first who waits. -/
def handOver (c : BoundedChannel ι α) : BoundedChannel ι α :=
  match c.waiting with
  | [] => { c with free := c.free + 1 }
  | i :: rest => { c with holders := c.holders ++ [i], waiting := rest }

/-- Ask for a slot without waiting. -/
def tryReserve (c : BoundedChannel ι α) (i : ι) : Answer × BoundedChannel ι α :=
  if c.closed then (.closed, c)
  else if c.free = 0 then (.full, c)
  else (.reserved, { c with free := c.free - 1, holders := c.holders ++ [i] })

/-- Ask for a slot, and wait if there is none. -/
def reserve (c : BoundedChannel ι α) (i : ι) : Answer × BoundedChannel ι α :=
  match c.tryReserve i with
  | (.full, c) => (.full, { c with waiting := c.waiting ++ [i] })
  | answer => answer

/-- Receive the next item, unless there is a `spurious` failure; the end is reported when all senders
are `gone`, or when the channel is closed and all slots are back. -/
def recv (c : BoundedChannel ι α) (gone spurious : Bool) : Received α × BoundedChannel ι α :=
  match c.queue with
  | a :: rest =>
    if spurious then (.pending, c) else (.item a, { c with queue := rest }.handOver)
  | [] => if gone ∨ c.closed ∧ c.free = c.capacity then (.ended, c) else (.pending, c)

/-- Close the channel: who waits is turned away. -/
def close (c : BoundedChannel ι α) : BoundedChannel ι α := { c with closed := true, waiting := [] }

section Senders

variable [DecidableEq ι]

/-- Put an item into a slot. -/
def commit (c : BoundedChannel ι α) (i : ι) (a : α) : BoundedChannel ι α :=
  { c with holders := c.holders.erase i, queue := c.queue ++ [a] }

/-- Give up a slot, or the place in the line. -/
def giveUp (c : BoundedChannel ι α) (i : ι) : BoundedChannel ι α :=
  if i ∈ c.holders then { c with holders := c.holders.erase i }.handOver
  else { c with waiting := c.waiting.erase i }

/-- Look again after waiting. -/
def poll (c : BoundedChannel ι α) (i : ι) : Answer × BoundedChannel ι α :=
  if c.closed then (.closed, c.giveUp i)
  else if i ∈ c.holders then (.reserved, c)
  else (.full, c)

end Senders

/-! ## What the operations keep -/

/-- Slots are conserved, nobody waits while one is free or when the channel is closed, and nobody
holds or awaits two. -/
structure Sound (c : BoundedChannel ι α) : Prop where
  conserved : c.free + c.holders.length + c.queue.length = c.capacity
  fair : c.waiting ≠ [] → c.free = 0
  nodup : (c.holders ++ c.waiting).Nodup
  shut : c.closed = true → c.waiting = []

variable {c : BoundedChannel ι α} {i j : ι} {a : α}

/-- A new channel is sound. -/
theorem sound_new (capacity : ℕ) : Sound (new capacity : BoundedChannel ι α) :=
  ⟨by simp [new], by simp [new], List.nodup_nil, fun _ => rfl⟩

/-! ### Handing over a permit -/

/-- A slot that comes back changes hands within the line. -/
theorem line_handOver (c : BoundedChannel ι α) :
    c.handOver.holders ++ c.handOver.waiting = c.holders ++ c.waiting := by
  unfold BoundedChannel.handOver
  rcases hwaiting : c.waiting with _ | ⟨i, rest⟩
  · rfl
  · show c.holders ++ [i] ++ rest = c.holders ++ i :: rest
    rw [List.append_assoc, List.singleton_append]

/-- Nobody loses a slot when another comes back. -/
theorem holders_subset_handOver (c : BoundedChannel ι α) : c.holders ⊆ c.handOver.holders := by
  unfold BoundedChannel.handOver
  rcases c.waiting with _ | ⟨i, rest⟩
  · exact fun _ hi => hi
  · exact List.subset_append_left _ _

@[simp] theorem queue_handOver (c : BoundedChannel ι α) : c.handOver.queue = c.queue := by
  unfold BoundedChannel.handOver
  cases c.waiting <;> rfl

@[simp] theorem capacity_handOver (c : BoundedChannel ι α) :
    c.handOver.capacity = c.capacity := by
  unfold BoundedChannel.handOver
  cases c.waiting <;> rfl

/-- A slot that is missing comes back. -/
theorem Sound.handOver (hconserved : c.free + c.holders.length + c.queue.length + 1 = c.capacity)
    (hfair : c.waiting ≠ [] → c.free = 0) (hnodup : (c.holders ++ c.waiting).Nodup)
    (hshut : c.closed = true → c.waiting = []) : Sound c.handOver := by
  have hline : (c.handOver.holders ++ c.handOver.waiting).Nodup := by
    rwa [line_handOver]
  unfold BoundedChannel.handOver at hline ⊢
  rcases hwaiting : c.waiting with _ | ⟨i, rest⟩
  · rw [hwaiting] at hline
    refine ⟨?_, ?_, hline, fun _ => rfl⟩
    · show c.free + 1 + c.holders.length + c.queue.length = c.capacity
      omega
    · intro hne
      exact absurd rfl hne
  · rw [hwaiting] at hline
    refine ⟨?_, ?_, hline, ?_⟩
    · show c.free + (c.holders ++ [i]).length + c.queue.length = c.capacity
      rw [List.length_append, List.length_singleton]
      omega
    · intro _
      exact hfair (by simp [hwaiting])
    · intro hclosed
      have hempty := hshut hclosed
      rw [hwaiting] at hempty
      cases hempty

/-! ### The answers -/

/-- What a request for a slot does, by its answer. -/
theorem tryReserve_cases (c : BoundedChannel ι α) (i : ι) :
    (c.closed = true ∧ c.tryReserve i = (.closed, c)) ∨
    (c.closed = false ∧ c.free = 0 ∧ c.tryReserve i = (.full, c)) ∨
    (c.closed = false ∧ 0 < c.free ∧ c.tryReserve i =
      (.reserved, { c with free := c.free - 1, holders := c.holders ++ [i] })) := by
  unfold tryReserve
  cases hclosed : c.closed with
  | true => exact Or.inl ⟨rfl, if_pos rfl⟩
  | false =>
    right
    rw [if_neg Bool.false_ne_true]
    by_cases hfree : c.free = 0
    · exact Or.inl ⟨rfl, hfree, if_pos hfree⟩
    · exact Or.inr ⟨rfl, Nat.pos_of_ne_zero hfree, if_neg hfree⟩

/-- The same for a sender that is ready to wait. -/
theorem reserve_cases (c : BoundedChannel ι α) (i : ι) :
    (c.closed = true ∧ c.reserve i = (.closed, c)) ∨
    (c.closed = false ∧ c.free = 0 ∧
      c.reserve i = (.full, { c with waiting := c.waiting ++ [i] })) ∨
    (c.closed = false ∧ 0 < c.free ∧ c.reserve i =
      (.reserved, { c with free := c.free - 1, holders := c.holders ++ [i] })) := by
  unfold reserve
  obtain ⟨hclosed, h⟩ | ⟨hclosed, hfree, h⟩ | ⟨hclosed, hfree, h⟩ := tryReserve_cases c i
  · exact Or.inl ⟨hclosed, by rw [h]⟩
  · exact Or.inr (Or.inl ⟨hclosed, hfree, by rw [h]⟩)
  · exact Or.inr (Or.inr ⟨hclosed, hfree, by rw [h]⟩)

/-- What a receiver gets: the end only if nothing is queued and nobody can queue anything. -/
theorem recv_cases (c : BoundedChannel ι α) (gone spurious : Bool) :
    (∃ a rest, c.queue = a :: rest ∧
      c.recv gone spurious = (.item a, { c with queue := rest }.handOver)) ∨
    (c.queue ≠ [] ∧ spurious = true ∧ c.recv gone spurious = (.pending, c)) ∨
    (c.queue = [] ∧ c.recv gone spurious = (.pending, c)) ∨
    (c.queue = [] ∧ (gone = true ∨ c.closed = true ∧ c.free = c.capacity) ∧
      c.recv gone spurious = (.ended, c)) := by
  unfold recv
  rcases hqueue : c.queue with _ | ⟨a, rest⟩
  · right; right
    by_cases hend : gone = true ∨ c.closed = true ∧ c.free = c.capacity
    · exact Or.inr ⟨rfl, hend, if_pos hend⟩
    · exact Or.inl ⟨rfl, if_neg hend⟩
  · cases spurious with
    | true => exact Or.inr (Or.inl ⟨List.cons_ne_nil a rest, rfl, rfl⟩)
    | false => exact Or.inl ⟨a, rest, rfl, rfl⟩

/-! ### Each operation -/

/-- A free slot is given to somebody new. -/
theorem Sound.reserved (h : Sound c) (hfree : 0 < c.free)
    (hnew : i ∉ c.holders ++ c.waiting) :
    Sound { c with free := c.free - 1, holders := c.holders ++ [i] } := by
  have hempty : c.waiting = [] := by
    by_contra hne
    have hzero := h.fair hne
    omega
  have hconserved := h.conserved
  refine ⟨?_, ?_, ?_, h.shut⟩
  · show c.free - 1 + (c.holders ++ [i]).length + c.queue.length = c.capacity
    rw [List.length_append, List.length_singleton]
    omega
  · intro hne
    exact absurd hempty hne
  · show (c.holders ++ [i] ++ c.waiting).Nodup
    have hnodup := h.nodup
    rw [hempty, List.append_nil] at hnodup hnew ⊢
    rw [← List.concat_eq_append]
    exact hnodup.concat hnew

/-- Somebody new joins the line when no slot is free. -/
theorem Sound.parked (h : Sound c) (hopen : c.closed = false) (hfree : c.free = 0)
    (hnew : i ∉ c.holders ++ c.waiting) : Sound { c with waiting := c.waiting ++ [i] } := by
  refine ⟨h.conserved, fun _ => hfree, ?_, ?_⟩
  · show (c.holders ++ (c.waiting ++ [i])).Nodup
    rw [← List.append_assoc, ← List.concat_eq_append]
    exact h.nodup.concat hnew
  · intro hclosed
    exact absurd (hopen.symm.trans hclosed) Bool.false_ne_true

/-- Closing turns away who waits and keeps the slots. -/
theorem Sound.close (h : Sound c) : Sound c.close := by
  refine ⟨h.conserved, fun hne => absurd rfl hne, ?_, fun _ => rfl⟩
  show (c.holders ++ []).Nodup
  rw [List.append_nil]
  exact (List.nodup_append.mp h.nodup).1

/-- The slot of a received item comes back. -/
theorem Sound.received {rest : List α} (h : Sound c) (hqueue : c.queue = a :: rest) :
    Sound { c with queue := rest }.handOver := by
  refine Sound.handOver ?_ h.fair h.nodup h.shut
  have hconserved := h.conserved
  rw [hqueue, List.length_cons] at hconserved
  show c.free + c.holders.length + rest.length + 1 = c.capacity
  omega

section Senders

variable [DecidableEq ι]

/-- An item takes the place of the slot it is put into. -/
theorem Sound.commit (h : Sound c) (hi : i ∈ c.holders) : Sound (c.commit i a) := by
  have hconserved := h.conserved
  have hpos := List.length_pos_of_mem hi
  refine ⟨?_, h.fair, ?_, h.shut⟩
  · show c.free + (c.holders.erase i).length + (c.queue ++ [a]).length = c.capacity
    rw [List.length_erase_of_mem hi, List.length_append, List.length_singleton]
    omega
  · exact h.nodup.sublist (List.Sublist.append (List.erase_sublist) (List.Sublist.refl _))

/-- A slot that is given up is passed on. -/
theorem Sound.giveUp (h : Sound c) (i : ι) : Sound (c.giveUp i) := by
  unfold BoundedChannel.giveUp
  split_ifs with hi
  · refine Sound.handOver ?_ h.fair ?_ h.shut
    · have hconserved := h.conserved
      have hpos := List.length_pos_of_mem hi
      show c.free + (c.holders.erase i).length + c.queue.length + 1 = c.capacity
      rw [List.length_erase_of_mem hi]
      omega
    · exact h.nodup.sublist (List.Sublist.append (List.erase_sublist) (List.Sublist.refl _))
  · have hnone (hempty : c.waiting = []) : c.waiting.erase i = [] := by
      rw [hempty, List.erase_nil]
    refine ⟨h.conserved, ?_, ?_, fun hclosed => hnone (h.shut hclosed)⟩
    · intro hne
      exact h.fair fun hempty => hne (hnone hempty)
    · exact h.nodup.sublist (List.Sublist.append (List.Sublist.refl _) (List.erase_sublist))

@[simp] theorem queue_giveUp (c : BoundedChannel ι α) (i : ι) : (c.giveUp i).queue = c.queue := by
  unfold BoundedChannel.giveUp
  split_ifs
  · exact queue_handOver _
  · rfl

@[simp] theorem capacity_giveUp (c : BoundedChannel ι α) (i : ι) :
    (c.giveUp i).capacity = c.capacity := by
  unfold BoundedChannel.giveUp
  split_ifs
  · exact capacity_handOver _
  · rfl

/-- Whoever gives up leaves the line, and the others stay in it. -/
theorem line_giveUp (c : BoundedChannel ι α) (i : ι) :
    (c.giveUp i).holders ++ (c.giveUp i).waiting = (c.holders ++ c.waiting).erase i := by
  unfold BoundedChannel.giveUp
  split_ifs with hi
  · rw [line_handOver, List.erase_append_left _ hi]
  · rw [List.erase_append_right _ hi]

/-- The others keep their slots. -/
theorem holders_giveUp (hj : j ∈ c.holders) (hij : j ≠ i) : j ∈ (c.giveUp i).holders := by
  unfold BoundedChannel.giveUp
  split_ifs
  · exact holders_subset_handOver _ ((List.mem_erase_of_ne hij).mpr hj)
  · exact hj

/-- Whoever commits leaves the line. -/
theorem line_commit (hi : i ∈ c.holders) :
    (c.commit i a).holders ++ (c.commit i a).waiting = (c.holders ++ c.waiting).erase i := by
  show c.holders.erase i ++ c.waiting = _
  rw [List.erase_append_left _ hi]

end Senders

/-- A channel all of whose slots are free holds nothing, and nobody has a slot. -/
theorem Sound.idle (h : Sound c) (hfree : c.free = c.capacity) : c.holders = [] ∧ c.queue = [] := by
  have hconserved := h.conserved
  constructor
  · exact List.length_eq_zero_iff.mp (by omega)
  · exact List.length_eq_zero_iff.mp (by omega)

end BoundedChannel
