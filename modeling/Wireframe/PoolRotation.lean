/-
# Rotating over the slots of a pool

How a pool looks for a free permit without waiting (`PoolCore::try_acquire_permit` in
`src/client/pool/core.rs`): every attempt reads a shared cursor, which is a machine word and wraps
around, and probes each slot once from there.

* `rotationIndices_eq_rotate`: the order is a rotation of the slot indices, whatever the cursor;
* `findPermit_cases`: the search takes one permit, of the first slot that has one, or nothing;
* `sweep_tryAcquirePermit`: the scheduler task's step-by-step sweep is this search when nobody else
  moves.
-/
import Mathlib.Data.List.Rotate
import Mathlib.Tactic
import Wireframe.MachineWord
import Wireframe.PoolPermits
import Wireframe.Trace

namespace Wireframe

/-! ## The pool core -/

/-- The slots of a pool in one allocation, the cursor and the shutdown flag. -/
structure PoolCore where
  slots : List Semaphore
  nextSlot : ℕ
  shutdown : Bool
  slots_fit : slots.length ≤ isizeMax
  nextSlot_le : nextSlot ≤ usizeMax

namespace PoolCore

/-- Visit every slot index once, starting at `start` and wrapping once. -/
def rotationIndices (len start : ℕ) : List SlotIndex :=
  (List.range len).map fun offset => wrappingAdd start offset % max len 1

section Search

variable (core : PoolCore)

/-- Resolve an internal slot index without trusting the caller's value. -/
def slot (slotIndex : SlotIndex) : Option Semaphore := core.slots[slotIndex]?

def setSlot (slotIndex : SlotIndex) (sem : Semaphore) : PoolCore :=
  { core with
    slots := core.slots.set slotIndex sem
    slots_fit := by rw [List.length_set]; exact core.slots_fit }

def advanceCursor : PoolCore :=
  { core with
    nextSlot := wrappingAdd core.nextSlot 1
    nextSlot_le := wrappingAdd_le _ _ }

/-- The slots in rotation order; an empty pool consumes no cursor value. -/
def orderedSlotIndices : List SlotIndex × PoolCore :=
  let len := core.slots.length
  if len = 0 then (rotationIndices len 0, core)
  else (rotationIndices len (PoolSystem.rotationStart len core.nextSlot), core.advanceCursor)

/-- The first slot of the order that gives a permit. -/
def findPermit : List SlotIndex → Option SlotIndex × PoolCore
  | [] => (none, core)
  | slotIndex :: rest =>
    match (core.slot slotIndex).bind Semaphore.tryAcquire with
    | some sem => (some slotIndex, core.setSlot slotIndex sem)
    | none => findPermit rest

/-- A permit that was found is dropped. -/
def dropPermit : Option SlotIndex → PoolCore
  | none => core
  | some slotIndex =>
    match core.slot slotIndex with
    | some sem => core.setSlot slotIndex sem.release
    | none => core

/-- Select the first available slot in rotation order; `shutdownAfter` is what the flag reads after
the search. -/
def tryAcquirePermit (shutdownAfter : Bool) : Option SlotIndex × PoolCore :=
  if core.shutdown then (none, core)
  else
    let (order, core) := core.orderedSlotIndices
    let (selected, core) := core.findPermit order
    if shutdownAfter then (none, { core.dropPermit selected with shutdown := true })
    else (selected, core)

/-- Free permits of a slot. -/
def free (slotIndex : SlotIndex) : ℕ := ((core.slot slotIndex).map Semaphore.free).getD 0

end Search

/-! ## The rotation -/

section Rotation

/-- The start is below the number of slots, so that no addition leaves the word. -/
theorem rotationIndices_eq {len start : ℕ} (hfits : len ≤ isizeMax) (hstart : start < len) :
    rotationIndices len start = PoolSystem.rotationIndices len start := by
  refine List.map_congr_left fun offset hoffset => ?_
  have hlt := List.mem_range.mp hoffset
  have hword : start + offset ≤ usizeMax := by
    simp only [isizeMax] at hfits
    simp only [usizeMax]
    omega
  rw [wrappingAdd_of_le hword]

/-- The order is a rotation of the slot indices. -/
theorem rotationIndices_eq_rotate {len start : ℕ} (hfits : len ≤ isizeMax) (hstart : start < len) :
    rotationIndices len start = (List.range len).rotate start := by
  rw [rotationIndices_eq hfits hstart]
  apply List.ext_getElem
  · simp [PoolSystem.rotationIndices]
  · intro i hi hi'
    have hmax : max len 1 = len := by omega
    rw [List.getElem_rotate]
    simp only [PoolSystem.rotationIndices, List.getElem_map, List.getElem_range,
      List.length_range, hmax, Nat.add_comm]

variable {core : PoolCore}

theorem orderedSlotIndices_eq (hsize : 1 ≤ core.slots.length) :
    core.orderedSlotIndices =
      ((List.range core.slots.length).rotate (core.nextSlot % core.slots.length),
        core.advanceCursor) := by
  have hne : core.slots.length ≠ 0 := by omega
  rw [orderedSlotIndices, if_neg hne, PoolSystem.rotationStart, if_neg hne,
    rotationIndices_eq_rotate core.slots_fit (Nat.mod_lt _ hsize)]

/-- A rotation starts where it is told to. -/
theorem head?_rotate_range {len start : ℕ} (hstart : start < len) :
    ((List.range len).rotate start).head? = some start := by
  have hlen : 0 < (List.range len).length := by
    rw [List.length_range]
    omega
  rw [List.head?_eq_getElem?, List.getElem?_rotate hlen]
  simp [Nat.mod_eq_of_lt hstart, hstart]

end Rotation

/-! ## The search -/

section Find

variable {core : PoolCore} {order : List SlotIndex} {slotIndex : SlotIndex}

/-- `slotIndex` is the first of the order with a free permit. -/
def FirstFree (core : PoolCore) (order : List SlotIndex) (slotIndex : SlotIndex) : Prop :=
  ∃ before behind, order = before ++ slotIndex :: behind ∧ (∀ i ∈ before, core.free i = 0) ∧
    0 < core.free slotIndex

theorem free_of_slot {sem : Semaphore} (h : core.slot slotIndex = some sem) :
    core.free slotIndex = sem.free := by
  rw [free, h]
  rfl

/-- Probing a slot takes one of its permits, if it has one. -/
theorem tryAcquire_slot (core : PoolCore) (slotIndex : SlotIndex) :
    (core.free slotIndex = 0 ∧ (core.slot slotIndex).bind Semaphore.tryAcquire = none) ∨
    ∃ sem, core.slot slotIndex = some sem ∧ 0 < sem.free ∧
      (core.slot slotIndex).bind Semaphore.tryAcquire = some ⟨sem.free - 1, sem.waiter⟩ := by
  cases hslot : core.slot slotIndex with
  | none =>
    left
    exact ⟨by rw [free, hslot]; rfl, rfl⟩
  | some sem =>
    rw [free_of_slot hslot, Option.bind_some]
    cases htry : sem.tryAcquire with
    | none => exact Or.inl ⟨Semaphore.tryAcquire_eq_none htry, rfl⟩
    | some sem' =>
      obtain ⟨hpos, rfl⟩ := Semaphore.tryAcquire_eq_some htry
      exact Or.inr ⟨sem, rfl, hpos, rfl⟩

/-- **The search** takes one permit, of the first slot that has one, or there is none to take. -/
theorem findPermit_cases (core : PoolCore) (order : List SlotIndex) :
    (∃ slotIndex sem, core.FirstFree order slotIndex ∧ core.slot slotIndex = some sem ∧
      core.findPermit order =
        (some slotIndex, core.setSlot slotIndex ⟨sem.free - 1, sem.waiter⟩)) ∨
    ((∀ i ∈ order, core.free i = 0) ∧ core.findPermit order = (none, core)) := by
  induction order with
  | nil => exact Or.inr ⟨nofun, rfl⟩
  | cons slotIndex rest ih =>
    rcases core.tryAcquire_slot slotIndex with ⟨hbusy, htry⟩ | ⟨sem, hslot, hpos, htry⟩
    · have hskip : core.findPermit (slotIndex :: rest) = core.findPermit rest := by
        rw [findPermit, htry]
      rw [hskip]
      rcases ih with ⟨found, sem, ⟨before, behind, rfl, hbefore, hpos⟩, hslot, hfind⟩ |
        ⟨hall, hfind⟩
      · refine Or.inl ⟨found, sem, ⟨slotIndex :: before, behind, rfl, ?_, hpos⟩, hslot, hfind⟩
        intro i hi
        rcases List.mem_cons.mp hi with rfl | hi
        · exact hbusy
        · exact hbefore i hi
      · refine Or.inr ⟨fun i hi => ?_, hfind⟩
        rcases List.mem_cons.mp hi with rfl | hi
        · exact hbusy
        · exact hall i hi
    · refine Or.inl ⟨slotIndex, sem, ⟨[], rest, rfl, nofun, ?_⟩, hslot, ?_⟩
      · rw [free_of_slot hslot]
        exact hpos
      · rw [findPermit, htry]

end Find

/-! ## Acquiring without waiting -/

section TryAcquire

variable {core : PoolCore}

theorem tryAcquirePermit_open (hopen : core.shutdown = false) :
    core.tryAcquirePermit false =
      core.orderedSlotIndices.2.findPermit core.orderedSlotIndices.1 := by
  rw [tryAcquirePermit, hopen, if_neg Bool.false_ne_true]
  simp only [Bool.false_eq_true, if_false]

/-- **Acquiring without waiting**: whatever the cursor and whichever slots are busy, the rotation
visits every slot once from the cursor's slot on, the attempt takes one permit of the first slot
that has one and nothing else, and it comes back without a permit exactly when no slot has one. -/
theorem tryAcquirePermit_takes_first (core : PoolCore) (hsize : 1 ≤ core.slots.length)
    (hopen : core.shutdown = false) :
    (core.orderedSlotIndices.1.Perm (List.range core.slots.length) ∧
      core.orderedSlotIndices.1.head? = some (core.nextSlot % core.slots.length) ∧
      core.orderedSlotIndices.1 =
        (List.range core.slots.length).rotate (core.nextSlot % core.slots.length)) ∧
    (∀ slotIndex, (core.tryAcquirePermit false).1 = some slotIndex →
      core.FirstFree core.orderedSlotIndices.1 slotIndex ∧
      ∃ sem, core.slot slotIndex = some sem ∧ (core.tryAcquirePermit false).2.slots =
        core.slots.set slotIndex { sem with free := sem.free - 1 }) ∧
    ((core.tryAcquirePermit false).1 = none →
      (core.tryAcquirePermit false).2.slots = core.slots) ∧
    ((core.tryAcquirePermit false).1 = none ↔
      ∀ slotIndex < core.slots.length, core.free slotIndex = 0) := by
  have hstart : core.nextSlot % core.slots.length < core.slots.length := Nat.mod_lt _ hsize
  have hperm := List.rotate_perm (List.range core.slots.length)
    (core.nextSlot % core.slots.length)
  rw [tryAcquirePermit_open hopen, orderedSlotIndices_eq hsize]
  refine ⟨⟨hperm, head?_rotate_range hstart, rfl⟩, ?_⟩
  rcases core.advanceCursor.findPermit_cases
      ((List.range core.slots.length).rotate (core.nextSlot % core.slots.length)) with
    ⟨found, sem, hfirst, hslot, hfind⟩ | ⟨hbusy, hfind⟩
  · rw [hfind]
    refine ⟨?_, nofun, nofun, ?_⟩
    · intro slotIndex hselected
      cases hselected
      exact ⟨hfirst, sem, hslot, rfl⟩
    · intro hbusy
      obtain ⟨before, behind, hsplit, -, hpos⟩ := hfirst
      have hmem : found ∈ List.range core.slots.length := by
        rw [← hperm.mem_iff, hsplit]
        simp
      have hfree : core.advanceCursor.free found = 0 := hbusy found (List.mem_range.mp hmem)
      omega
  · rw [hfind]
    refine ⟨nofun, fun _ => rfl, ?_⟩
    simp only [true_iff]
    intro slotIndex hlt
    exact hbusy slotIndex (hperm.mem_iff.mpr (List.mem_range.mpr hlt))

/-- Three slots with the cursor at the end of the word, the first slot of the order busy. -/
def lastCursor : PoolCore where
  slots := [⟨0, .absent⟩, ⟨2, .absent⟩, ⟨1, .absent⟩]
  nextSlot := usizeMax
  shutdown := false
  slots_fit := by decide
  nextSlot_le := le_rfl

theorem tryAcquirePermit_takes_first_lastCursor :
    lastCursor.orderedSlotIndices.1 = [0, 1, 2] ∧
      lastCursor.orderedSlotIndices.1.Perm (List.range 3) ∧
      (lastCursor.tryAcquirePermit false).1 = some 1 ∧
      (lastCursor.tryAcquirePermit false).2.nextSlot = 0 ∧
      lastCursor.FirstFree lastCursor.orderedSlotIndices.1 1 :=
  have h := tryAcquirePermit_takes_first lastCursor (by decide) rfl
  ⟨by decide, h.1.1, by decide, by decide, (h.2.1 1 (by decide)).1⟩

end TryAcquire

end PoolCore

/-! ## The scheduler's sweep -/

namespace PoolSystem

/-- The core as the scheduler task sees it. -/
structure Mirrors (s : PoolSystem) (core : PoolCore) : Prop where
  slots : core.slots = (List.range s.size).map s.slots
  nextSlot : core.nextSlot = s.nextSlot
  shutdown : core.shutdown = s.shutdown

section Sweep

variable {s : PoolSystem} {core : PoolCore}

theorem Mirrors.length (h : s.Mirrors core) : core.slots.length = s.size := by
  rw [h.slots, List.length_map, List.length_range]

theorem Mirrors.slot (h : s.Mirrors core) {slotIndex : SlotIndex} (hlt : slotIndex < s.size) :
    core.slot slotIndex = some (s.slots slotIndex) := by
  rw [PoolCore.slot, h.slots, List.getElem?_map, List.getElem?_range hlt]
  rfl

theorem Mirrors.setSlot (h : s.Mirrors core) (slotIndex : SlotIndex) (sem : Semaphore) :
    (s.setSlot slotIndex sem).Mirrors (core.setSlot slotIndex sem) where
  slots := by
    show core.slots.set slotIndex sem =
      (List.range s.size).map (Function.update s.slots slotIndex sem)
    rw [h.slots]
    apply List.ext_getElem
    · simp
    · intro i hi hi'
      rw [List.getElem_set]
      simp only [List.getElem_map, List.getElem_range]
      by_cases hslot : slotIndex = i
      · rw [if_pos hslot, hslot, Function.update_self]
      · rw [if_neg hslot, Function.update_of_ne (Ne.symm hslot)]
  nextSlot := h.nextSlot
  shutdown := h.shutdown

theorem Mirrors.advanceCursor (h : s.Mirrors core) :
    s.advanceCursor.Mirrors core.advanceCursor where
  slots := h.slots
  nextSlot := by
    show wrappingAdd core.nextSlot 1 = (s.nextSlot + 1) % (usizeMax + 1)
    rw [h.nextSlot]
    rfl
  shutdown := h.shutdown

theorem Mirrors.goto (h : s.Mirrors core) (point : TaskPoint) : (s.goto point).Mirrors core :=
  ⟨h.slots, h.nextSlot, h.shutdown⟩

/-- The task's order is the core's order. -/
theorem Mirrors.orderedSlotIndices (h : s.Mirrors core) (hsize : 1 ≤ s.size) :
    core.orderedSlotIndices = (s.orderedSlotIndices, core.advanceCursor) := by
  have hfits := core.slots_fit
  rw [h.length] at hfits
  have hne : s.size ≠ 0 := by omega
  have hstart : rotationStart s.size s.nextSlot < s.size := by
    rw [rotationStart, if_neg hne]
    exact Nat.mod_lt _ hsize
  rw [PoolCore.orderedSlotIndices, h.length, h.nextSlot, if_neg hne,
    PoolCore.rotationIndices_eq hfits hstart]
  rfl

/-- A permit the sweep has found is kept while the pool is not shut down. -/
theorem step_sweepGot {slot : SlotIndex} (hpoint : s.point = .sweepGot slot)
    (hshutdown : s.shutdown = false) :
    s.step (.task 0) = some (s.goto (.sweepTake slot)) := by
  simp only [step, taskStep, hpoint, hshutdown, Bool.false_eq_true, if_false]

/-- The task probes the order slot by slot and ends up with what the search finds. -/
theorem sweepProbe_findPermit {order : List SlotIndex} (hpoint : s.point = .sweepProbe order)
    (h : s.Mirrors core) (hshutdown : s.shutdown = false) (horder : ∀ i ∈ order, i < s.size) :
    ∃ n s', Trace.exec step s (List.replicate n (.task 0)) = some s' ∧
      s'.Mirrors (core.findPermit order).2 ∧
      s'.point = match (core.findPermit order).1 with
        | some slot => .sweepTake slot
        | none => .top := by
  have hrun : ∀ s : PoolSystem, Trace.exec step s [] = some s := fun _ => rfl
  induction order generalizing s with
  | nil =>
    have hstep : s.step (.task 0) = some (s.goto .top) := by
      simp only [step, taskStep, hpoint]
    exact ⟨1, s.goto .top, Trace.exec_concat (hrun s) hstep, h.goto .top, rfl⟩
  | cons slot rest ih =>
    have hslot := h.slot (horder slot (by simp))
    cases htry : (s.slots slot).tryAcquire with
    | some sem =>
      have hfind : core.findPermit (slot :: rest) = (some slot, core.setSlot slot sem) := by
        rw [PoolCore.findPermit, hslot, Option.bind_some, htry]
      have hprobe : s.step (.task 0) = some ((s.setSlot slot sem).goto (.sweepGot slot)) := by
        simp only [step, taskStep, hpoint, htry]
      have hkeep :=
        step_sweepGot (s := (s.setSlot slot sem).goto (.sweepGot slot)) rfl hshutdown
      rw [hfind]
      exact ⟨2, _, Trace.exec_concat (Trace.exec_concat (hrun s) hprobe) hkeep,
        ((h.setSlot slot sem).goto _).goto _, rfl⟩
    | none =>
      have hfind : core.findPermit (slot :: rest) = core.findPermit rest := by
        rw [PoolCore.findPermit, hslot, Option.bind_some, htry]
      have hprobe : s.step (.task 0) = some (s.goto (.sweepProbe rest)) := by
        simp only [step, taskStep, hpoint, htry]
      obtain ⟨n, s', hexec, hmirrors, hend⟩ := ih (s := s.goto (.sweepProbe rest)) rfl
        (h.goto _) hshutdown fun i hi => horder i (List.mem_cons_of_mem slot hi)
      rw [hfind]
      refine ⟨n + 1, s', ?_, hmirrors, hend⟩
      rw [List.replicate_succ, Trace.exec, hprobe]
      exact hexec

/-- **The sweep is the search**: when the task sweeps and nobody else moves, it ends up with the
permit `try_acquire_permit` selects, and with the slots and the cursor it leaves. -/
theorem sweep_tryAcquirePermit (hpoint : s.point = .sweepStart) (h : s.Mirrors core)
    (hshutdown : s.shutdown = false) (hsize : 1 ≤ s.size) :
    ∃ n s', Trace.exec step s (List.replicate n (.task 0)) = some s' ∧
      s'.Mirrors (core.tryAcquirePermit false).2 ∧
      s'.point = match (core.tryAcquirePermit false).1 with
        | some slot => .sweepTake slot
        | none => .top := by
  have hstart : s.step (.task 0) =
      some (s.advanceCursor.goto (.sweepProbe s.orderedSlotIndices)) := by
    simp only [step, taskStep, hpoint, hshutdown, Bool.false_eq_true, if_false]
  have hcore : core.tryAcquirePermit false =
      core.advanceCursor.findPermit s.orderedSlotIndices := by
    rw [PoolCore.tryAcquirePermit_open (h.shutdown.trans hshutdown), h.orderedSlotIndices hsize]
  obtain ⟨n, s', hexec, hmirrors, hend⟩ := sweepProbe_findPermit
    (s := s.advanceCursor.goto (.sweepProbe s.orderedSlotIndices)) rfl
    (h.advanceCursor.goto _) hshutdown s.orderedSlotIndices_lt
  rw [hcore]
  refine ⟨n + 1, s', ?_, hmirrors, hend⟩
  rw [List.replicate_succ, Trace.exec, hstart]
  exact hexec

end Sweep

end PoolSystem

end Wireframe
