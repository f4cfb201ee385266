/-
# Keyed maps with aggregate sums

A hash map as an association list with pairwise distinct keys (`AList`), together
with the two operations Mathlib does not provide for it: filtering by a predicate
on entries (`retain`) and summing a weight over all entries (`sumBy`).

The lemmas say how a weighted sum moves under insertion, removal, replacement and
filtering; `size` is the instance with weight one, so every statement about a sum
is also a statement about the number of entries.
-/
import Mathlib.Data.List.AList
import Mathlib.Algebra.BigOperators.Group.List.Basic
import Mathlib.Tactic

/-- A finite map from `κ` to `ν`: an association list whose keys are distinct. -/
abbrev KeyedMap (κ ν : Type*) := AList (fun _ : κ => ν)

namespace AList

variable {κ ν : Type*}

/-! ## Operations -/

/-- Keep exactly the entries on which `p` holds. -/
def retain (p : κ → ν → Bool) (m : KeyedMap κ ν) : KeyedMap κ ν :=
  ⟨m.entries.filter (fun e => p e.1 e.2), m.nodupKeys.sublist List.filter_sublist⟩

/-- Apply `g` to every value. -/
def mapValues (g : ν → ν) (m : KeyedMap κ ν) : KeyedMap κ ν where
  entries := m.entries.map fun e => ⟨e.1, g e.2⟩
  nodupKeys := by
    rw [List.NodupKeys, List.keys, List.map_map]
    exact m.nodupKeys

/-- The sum of the weight `f` over all entries. -/
def sumBy (f : κ → ν → ℕ) (m : KeyedMap κ ν) : ℕ :=
  (m.entries.map fun e => f e.1 e.2).sum

/-- The number of entries. -/
def size (m : KeyedMap κ ν) : ℕ := m.entries.length

theorem size_eq_sumBy (m : KeyedMap κ ν) : m.size = m.sumBy (fun _ _ => 1) := by
  simp [size, sumBy]

@[simp] theorem sumBy_empty (f : κ → ν → ℕ) : sumBy f (∅ : KeyedMap κ ν) = 0 := rfl

@[simp] theorem size_empty : size (∅ : KeyedMap κ ν) = 0 := rfl

theorem sumBy_mapValues (f : κ → ν → ℕ) (g : ν → ν) (m : KeyedMap κ ν) :
    (m.mapValues g).sumBy f = m.sumBy fun k v => f k (g v) := by
  simp only [sumBy, mapValues, List.map_map, Function.comp_def]

/-- The kept and the dropped entries together weigh as much as all of them. -/
theorem sumBy_retain_add (f : κ → ν → ℕ) (m : KeyedMap κ ν) (p : κ → ν → Bool) :
    (m.retain p).sumBy f + (m.retain fun k v => !p k v).sumBy f = m.sumBy f := by
  simp only [sumBy, retain]
  induction m.entries with
  | nil => rfl
  | cons e l ih =>
    rw [List.map_cons, List.sum_cons, ← ih]
    cases hp : p e.1 e.2
    · simp [hp]
      omega
    · simp [hp]
      omega

theorem sumBy_retain_le (f : κ → ν → ℕ) (m : KeyedMap κ ν) (p : κ → ν → Bool) :
    (m.retain p).sumBy f ≤ m.sumBy f := by
  have := sumBy_retain_add f m p
  omega

theorem size_retain_le (m : KeyedMap κ ν) (p : κ → ν → Bool) : (m.retain p).size ≤ m.size := by
  rw [size_eq_sumBy, size_eq_sumBy]
  exact sumBy_retain_le _ m p

variable [DecidableEq κ]

/-! ## Lookup -/

/-- Filtering keeps an entry exactly when the predicate holds on it. -/
theorem lookup_retain (p : κ → ν → Bool) (m : KeyedMap κ ν) (k : κ) :
    (m.retain p).lookup k = (m.lookup k).filter (p k) := by
  apply Option.ext
  intro v
  rw [Option.filter_eq_some_iff, ← Option.mem_def, ← Option.mem_def, AList.mem_lookup_iff,
    AList.mem_lookup_iff]
  simp [retain]

theorem lookup_mapValues (g : ν → ν) (m : KeyedMap κ ν) (k : κ) :
    (m.mapValues g).lookup k = (m.lookup k).map g := by
  apply Option.ext
  intro v
  rw [Option.map_eq_some_iff]
  simp only [← Option.mem_def, AList.mem_lookup_iff, mapValues, List.mem_map]
  constructor
  · rintro ⟨⟨k', v'⟩, hmem, heq⟩
    cases heq
    exact ⟨v', hmem, rfl⟩
  · rintro ⟨v', hmem, rfl⟩
    exact ⟨⟨k, v'⟩, hmem, rfl⟩

/-- Filtering by a predicate that holds on every entry changes nothing. -/
theorem retain_eq_self (p : κ → ν → Bool) (m : KeyedMap κ ν)
    (h : ∀ k v, m.lookup k = some v → p k v = true) : m.retain p = m := by
  apply AList.ext
  simp only [retain, List.filter_eq_self]
  intro e he
  exact h e.1 e.2 (AList.mem_lookup_iff.mpr he)

/-- A map without bindings is empty. -/
theorem eq_empty_of_lookup_none (m : KeyedMap κ ν) (h : ∀ k, m.lookup k = none) : m = ∅ := by
  apply AList.ext
  rw [AList.empty_entries, List.eq_nil_iff_forall_not_mem]
  intro e he
  have hsome := AList.mem_lookup_iff.mpr he
  rw [h e.1] at hsome
  cases hsome

theorem lookup_insert_eq (m : KeyedMap κ ν) (k k' : κ) (v : ν) :
    (m.insert k v).lookup k' = if k' = k then some v else m.lookup k' := by
  by_cases h : k' = k
  · subst h
    rw [if_pos rfl, AList.lookup_insert]
  · rw [if_neg h, AList.lookup_insert_ne h]

/-- A map built by inserting an image of every entry of another one. -/
theorem lookup_foldl_insert {α : Type*} (g : κ → α → ν) (entries : List (Σ _ : κ, α))
    (hkeys : entries.NodupKeys) (m : KeyedMap κ ν) (k : κ) :
    (entries.foldl (fun m e => m.insert e.1 (g e.1 e.2)) m).lookup k =
      ((entries.dlookup k).map (g k)).or (m.lookup k) := by
  induction entries generalizing m with
  | nil => rfl
  | cons e rest ih =>
    obtain ⟨key, a⟩ := e
    rw [List.nodupKeys_cons] at hkeys
    rw [List.foldl_cons, ih hkeys.2]
    by_cases hk : k = key
    · subst hk
      rw [List.dlookup_cons_eq, AList.lookup_insert, List.dlookup_eq_none.mpr hkeys.1]
      rfl
    · rw [List.dlookup_cons_ne _ _ hk, AList.lookup_insert_ne hk]

theorem lookup_erase_eq (m : KeyedMap κ ν) (k k' : κ) :
    (m.erase k).lookup k' = if k' = k then none else m.lookup k' := by
  by_cases h : k' = k
  · subst h
    rw [if_pos rfl, AList.lookup_erase]
  · rw [if_neg h, AList.lookup_erase_ne h]

/-- Replacing an entry changes the lookup of its own key only. -/
theorem dlookup_kreplace (k k' : κ) (w : ν) (l : List (Σ _ : κ, ν)) :
    List.dlookup k' (List.kreplace k w l) =
      if k' = k then (List.dlookup k l).map (fun _ => w) else List.dlookup k' l := by
  induction l with
  | nil => simp [List.kreplace]
  | cons e l ih =>
    obtain ⟨a, b⟩ := e
    by_cases ha : k = a
    · subst ha
      rw [List.kreplace, List.lookmap_cons, if_pos rfl]
      by_cases hk : k' = k
      · subst hk
        simp
      · rw [if_neg hk, List.dlookup_cons_ne _ _ hk, List.dlookup_cons_ne _ _ hk]
    · rw [List.kreplace, List.lookmap_cons, if_neg ha]
      show List.dlookup k' (⟨a, b⟩ :: List.kreplace k w l) = _
      by_cases hk : k' = a
      · subst hk
        rw [if_neg (fun h => ha h.symm), List.dlookup_cons_eq, List.dlookup_cons_eq]
      · have hk' : ∀ l' : List (Σ _ : κ, ν),
            List.dlookup k' (⟨a, b⟩ :: l') = List.dlookup k' l' :=
          fun l' => List.dlookup_cons_ne l' ⟨a, b⟩ hk
        rw [hk', hk', List.dlookup_cons_ne l ⟨a, b⟩ ha, ih]

/-- Updating a bound key in place changes that binding and no other. -/
theorem lookup_replace_eq (m : KeyedMap κ ν) (k k' : κ) (v w : ν) (h : m.lookup k = some v) :
    (m.replace k w).lookup k' = if k' = k then some w else m.lookup k' := by
  have hl := dlookup_kreplace k k' w m.entries
  have hv : List.dlookup k m.entries = some v := h
  rw [hv] at hl
  exact hl

/-- Writing back the value already stored changes nothing. -/
theorem replace_self (m : KeyedMap κ ν) (k : κ) (v : ν) (h : m.lookup k = some v) :
    m.replace k v = m :=
  AList.ext (List.kreplace_self m.nodupKeys (AList.mem_lookup_iff.mp h))

/-- Updating in place is, up to the order of entries, inserting. -/
theorem entries_replace_perm (m : KeyedMap κ ν) (k : κ) (v w : ν) (h : m.lookup k = some v) :
    (m.replace k w).entries.Perm (m.insert k w).entries := by
  apply List.lookup_ext (m.replace k w).nodupKeys (m.insert k w).nodupKeys
  intro k' u
  show u ∈ (m.replace k w).lookup k' ↔ u ∈ (m.insert k w).lookup k'
  rw [lookup_replace_eq m k k' v w h, lookup_insert_eq]

/-! ## Weighted sums -/

/-- Inserting at a fresh key adds the weight of the new entry. -/
theorem sumBy_insert_of_lookup_none (f : κ → ν → ℕ) (m : KeyedMap κ ν) (k : κ) (v : ν)
    (h : m.lookup k = none) : (m.insert k v).sumBy f = m.sumBy f + f k v := by
  have hk : k ∉ m := AList.lookup_eq_none.mp h
  rw [sumBy, AList.entries_insert_of_notMem hk, List.map_cons, List.sum_cons, add_comm]
  rfl

/-- Erasing a bound key removes exactly the weight of its entry. -/
theorem sumBy_erase (f : κ → ν → ℕ) (m : KeyedMap κ ν) (k : κ) (v : ν)
    (h : m.lookup k = some v) : (m.erase k).sumBy f + f k v = m.sumBy f := by
  have hk : k ∈ m.entries.keys := by
    rw [← List.dlookup_isSome]
    exact Option.isSome_iff_exists.mpr ⟨v, h⟩
  obtain ⟨b, l₁, l₂, hnot, hl, he⟩ := List.exists_of_kerase hk
  have hb : b = v := by
    have hmem : (⟨k, b⟩ : Σ _ : κ, ν) ∈ m.entries := by rw [hl]; simp
    have := AList.mem_lookup_iff.mpr hmem
    rw [h] at this
    exact (Option.some.inj this).symm
  subst hb
  show (List.map (fun e => f e.1 e.2) (List.kerase k m.entries)).sum + f k b = _
  rw [he, sumBy, hl]
  simp only [List.map_append, List.map_cons, List.sum_append, List.sum_cons]
  omega

theorem sumBy_erase_le (f : κ → ν → ℕ) (m : KeyedMap κ ν) (k : κ) :
    (m.erase k).sumBy f ≤ m.sumBy f := by
  have hsub := (List.kerase_sublist k m.entries).map fun e => f e.1 e.2
  exact hsub.sum_le_sum fun _ _ => Nat.zero_le _

/-- Updating a bound key in place exchanges the two weights. -/
theorem sumBy_replace (f : κ → ν → ℕ) (m : KeyedMap κ ν) (k : κ) (v w : ν)
    (h : m.lookup k = some v) : (m.replace k w).sumBy f + f k v = m.sumBy f + f k w := by
  have herase := sumBy_erase f m k v h
  have hperm : (m.replace k w).sumBy f = (m.insert k w).sumBy f :=
    ((entries_replace_perm m k v w h).map (fun e : Σ _ : κ, ν => f e.1 e.2)).sum_eq
  have hinsert : (m.insert k w).sumBy f = (m.erase k).sumBy f + f k w := by
    rw [sumBy, AList.entries_insert]
    simp only [List.map_cons, List.sum_cons]
    rw [add_comm]
    rfl
  omega

/-- One entry never outweighs the whole map. -/
theorem le_sumBy (f : κ → ν → ℕ) (m : KeyedMap κ ν) (k : κ) (v : ν)
    (h : m.lookup k = some v) : f k v ≤ m.sumBy f := by
  have := sumBy_erase f m k v h
  omega

/-! ## The number of entries -/

theorem size_insert_of_lookup_none (m : KeyedMap κ ν) (k : κ) (v : ν)
    (h : m.lookup k = none) : (m.insert k v).size = m.size + 1 := by
  rw [size_eq_sumBy, size_eq_sumBy, sumBy_insert_of_lookup_none _ m k v h]

theorem size_replace (m : KeyedMap κ ν) (k : κ) (w : ν) : (m.replace k w).size = m.size := by
  have hlen := congrArg List.length (AList.keys_replace k w m)
  simpa [AList.keys, List.keys, size] using hlen

theorem size_erase_le (m : KeyedMap κ ν) (k : κ) : (m.erase k).size ≤ m.size := by
  show (List.kerase k m.entries).length ≤ m.entries.length
  exact (List.kerase_sublist k m.entries).length_le

/-- A map is determined, up to order, by what its lookups return. -/
theorem entries_perm_of_lookup (m : KeyedMap κ ν) (l : List (Σ _ : κ, ν)) (hl : l.NodupKeys)
    (h : ∀ k v, m.lookup k = some v ↔ (⟨k, v⟩ : Σ _ : κ, ν) ∈ l) : m.entries.Perm l := by
  rw [List.perm_ext_iff_of_nodup m.nodupKeys.nodup hl.nodup]
  rintro ⟨k, v⟩
  rw [← h k v]
  exact AList.mem_lookup_iff.symm

end AList
