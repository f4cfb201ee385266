/-
# Rotations

A list in which one turn sends a member, together with those that were passed over, to the back:
`pre ++ y :: post` becomes `post ++ pre ++ [y]` when `y` has its turn.  `ahead x` are the members
that come before `x`; the lemmas say how they change when members join at the back, leave, or have
their turn.  Nobody gets ahead of `x` by any of these, and a turn of another member takes at least
one away.
-/
import Mathlib.Data.List.TakeWhile
import Mathlib.Tactic

namespace Rotation

variable {α : Type*} [DecidableEq α] {x y : α} {l pre post : List α}

/-- The members before `x`, in order. -/
def ahead (x : α) (order : List α) : List α := order.takeWhile fun y => y != x

theorem ahead_sublist (x : α) (order : List α) : (ahead x order).Sublist order :=
  List.takeWhile_sublist _

/-- Members that join at the back get ahead of nobody. -/
theorem ahead_append_of_mem (h : x ∈ l) (m : List α) : ahead x (l ++ m) = ahead x l := by
  unfold ahead
  rw [List.takeWhile_append, if_neg]
  intro hlen
  have hall := (List.takeWhile_sublist fun y => y != x).eq_of_length hlen
  have hx : x ∈ l.takeWhile fun y => y != x := by rwa [hall]
  simpa using List.mem_takeWhile_imp hx

/-- Members that leave are no longer ahead. -/
theorem ahead_filter {p : α → Bool} (hp : p x = true) (l : List α) :
    ahead x (l.filter p) = (ahead x l).filter p := by
  unfold ahead
  rw [List.takeWhile_filter]
  congr 2
  funext y
  -- those that leave are not `x`
  cases hy : p y with
  | true => rfl
  | false =>
    have hne : y ≠ x := by
      rintro rfl
      exact absurd hp (by simp [hy])
    simpa using hne

/-- Before the turn of `y`, the members up to it are ahead of everybody behind it. -/
theorem ahead_of_behind (hpre : x ∉ pre) (hy : y ≠ x) :
    ahead x (pre ++ y :: post) = pre ++ y :: ahead x post := by
  unfold ahead
  rw [List.takeWhile_append_of_pos, List.takeWhile_cons_of_pos (by simpa using hy)]
  intro z hz
  have hne : z ≠ x := by
    rintro rfl
    exact hpre hz
  simpa using hne

/-- After the turn of `y` they are not. -/
theorem ahead_turn (hpost : x ∈ post) : ahead x (post ++ pre ++ [y]) = ahead x post := by
  rw [List.append_assoc, ahead_append_of_mem hpost]

/-- The member that had its turn is ahead of nobody. -/
theorem notMem_ahead_turn (hnodup : (post ++ pre ++ [y]).Nodup) (hx : x ∈ post ++ pre) :
    y ∉ ahead x (post ++ pre ++ [y]) := by
  rw [ahead_append_of_mem hx]
  intro hy
  have hmem := (ahead_sublist x (post ++ pre)).subset hy
  exact (List.nodup_append.mp hnodup).2.2 y hmem y (List.mem_singleton_self y) rfl

end Rotation
