/-
# Counters with tickets

Several parties add to one counter and get a ticket, the value the counter has then.  Whoever holds
a ticket leaves with it later, and empties the counter on leaving if the ticket is due; others may
empty it as well.  Adding and leaving are separate steps, in any order.

Nothing that was added is lost or taken twice, and a due ticket that the counter has passed is
still in somebody's hands: so the counter stays below the first due number whenever nobody holds a
ticket.
-/
import Mathlib.Data.Fintype.Card
import Mathlib.Tactic

/-- What is counted and not yet taken, what was taken, how often was added, and the tickets that
are out. -/
structure TicketCounter (P : Type*) where
  pending : ℕ
  taken : ℕ
  added : ℕ
  ticket : P → Option ℕ

namespace TicketCounter

variable {P : Type*}

/-- Nothing counted and nobody there. -/
def new : TicketCounter P := ⟨0, 0, 0, fun _ => none⟩

/-- One step of one party; `due` are the tickets that empty the counter. -/
inductive Step [DecidableEq P] (due : ℕ → Prop) (c : TicketCounter P) :
    TicketCounter P → Prop where
  | add {p : P} (hfree : c.ticket p = none) :
      Step due c
        ⟨c.pending + 1, c.taken, c.added + 1, Function.update c.ticket p (some (c.pending + 1))⟩
  | leave {p : P} {k : ℕ} (hticket : c.ticket p = some k) (hdue : ¬ due k) :
      Step due c { c with ticket := Function.update c.ticket p none }
  | take (p : P) :
      Step due c ⟨0, c.taken + c.pending, c.added, Function.update c.ticket p none⟩

/-- Everything added is pending or taken, and a due number up to the count is on a ticket that is
still out. -/
structure Sound (due : ℕ → Prop) (c : TicketCounter P) : Prop where
  conserved : c.taken + c.pending = c.added
  outstanding : ∀ k, due k → 0 < k → k ≤ c.pending → ∃ p, c.ticket p = some k

variable {due : ℕ → Prop} {c c' : TicketCounter P}

theorem sound_new : Sound due (new : TicketCounter P) where
  conserved := rfl
  outstanding k _ hpos hle := absurd hle (by simp only [new]; omega)

/-- A ticket is still out when another party's has changed. -/
theorem outstanding_update [DecidableEq P] {p : P} {value : Option ℕ} {k : ℕ}
    (hout : ∃ q, c.ticket q = some k) (hother : c.ticket p ≠ some k) :
    ∃ q, Function.update c.ticket p value q = some k := by
  obtain ⟨q, hq⟩ := hout
  refine ⟨q, ?_⟩
  rw [Function.update_of_ne]
  · exact hq
  · rintro rfl
    exact hother hq

/-- **Step rule.** -/
theorem Step.sound [DecidableEq P] (h : Step due c c') (hc : Sound due c) : Sound due c' := by
  cases h with
  | @add p hfree =>
    refine ⟨?_, fun k hdue hpos hle => ?_⟩
    · show c.taken + (c.pending + 1) = c.added + 1
      have := hc.conserved
      omega
    · rcases Nat.lt_or_eq_of_le hle with hlt | heq
      · refine outstanding_update (hc.outstanding k hdue hpos (by simpa using hlt)) ?_
        rw [hfree]
        simp
      · exact ⟨p, by rw [heq]; exact Function.update_self ..⟩
  | @leave p k hticket hnot =>
    refine ⟨hc.conserved, fun j hdue hpos hle => ?_⟩
    refine outstanding_update (hc.outstanding j hdue hpos hle) ?_
    -- the ticket that leaves is not due
    rw [hticket]
    intro heq
    exact hnot (Option.some.inj heq ▸ hdue)
  | take p =>
    refine ⟨?_, fun k _ hpos hle => ?_⟩
    · exact hc.conserved
    · exact absurd hle (by simp only; omega)

/-- **Threshold**: with nobody there, the count is below every due number. -/
theorem Sound.pending_lt (hc : Sound due c) (hquiet : ∀ p, c.ticket p = none) {n : ℕ}
    (hdue : due n) (hpos : 0 < n) : c.pending < n := by
  by_contra hle
  obtain ⟨p, hp⟩ := hc.outstanding n hdue hpos (by omega)
  rw [hquiet p] at hp
  cases hp

/-- There are at most as many due numbers up to the count as tickets out. -/
theorem Sound.card_due_le [Fintype P] [DecidablePred due] (hc : Sound due c) :
    ((Finset.Ioc 0 c.pending).filter due).card ≤
      (Finset.univ.filter fun p => c.ticket p ≠ none).card := by
  have hsubset : (Finset.Ioc 0 c.pending).filter due ⊆
      (Finset.univ.filter fun p => c.ticket p ≠ none).image fun p => (c.ticket p).getD 0 := by
    intro k hk
    rw [Finset.mem_filter, Finset.mem_Ioc] at hk
    obtain ⟨p, hp⟩ := hc.outstanding k hk.2 hk.1.1 hk.1.2
    refine Finset.mem_image.mpr ⟨p, ?_, by rw [hp]; rfl⟩
    rw [Finset.mem_filter, hp]
    simp
  exact (Finset.card_le_card hsubset).trans Finset.card_image_le

end TicketCounter
