/-
# Machine words and bounded arithmetic

Lengths, offsets and limits are natural numbers below `2 ^ 64`.  The definitions
here are the overflow-aware operations the modelled code calls on them; each one
says explicitly what happens at the top of the range, so that a proof never has to
appeal to a machine representation.
-/
import Mathlib.Algebra.Order.Floor.Div
import Mathlib.Tactic

/-- The largest value of an unsigned machine word. -/
def usizeMax : ℕ := 2 ^ 64 - 1

/-- The ways code over machine words and growable collections can panic. -/
inductive Panic where
  /-- an unchecked addition left the word -/
  | arithmeticOverflow
  /-- a subtraction went below zero -/
  | arithmeticUnderflow
  /-- a collection outgrew the address space -/
  | capacityOverflow
  /-- an explicit `panic!` -/
  | explicit
  deriving DecidableEq, Repr

theorem Except.map_map {ε α β γ : Type*} (x : Except ε α) (f : α → β) (g : β → γ) :
    (x.map f).map g = x.map fun a => g (f a) := by
  cases x <;> rfl

theorem Except.map_eq_ok {ε α β : Type*} {x : Except ε α} {f : α → β} {b : β}
    (h : x.map f = .ok b) : ∃ a, x = .ok a ∧ f a = b := by
  cases x with
  | error e => exact absurd h (by simp [Except.map])
  | ok a => exact ⟨a, rfl, Except.ok.inj h⟩

theorem Except.map_eq_error {ε α β : Type*} {x : Except ε α} {f : α → β} {e : ε}
    (h : x.map f = .error e) : x = .error e := by
  cases x with
  | error e' => simpa [Except.map] using h
  | ok a => exact absurd h (by simp [Except.map])

/-! ## Arithmetic -/

/-- Addition that reports overflow. -/
def checkedAdd (a b : ℕ) : Option ℕ :=
  if a + b ≤ usizeMax then some (a + b) else none

/-- Addition that stops at the largest word. -/
def saturatingAdd (a b : ℕ) : ℕ := min (a + b) usizeMax

/-- Addition that wraps around at the end of the word. -/
def wrappingAdd (a b : ℕ) : ℕ := (a + b) % (usizeMax + 1)

/-- Multiplication that stops at the largest word. -/
def saturatingMul (a b : ℕ) : ℕ := min (a * b) usizeMax

/-- Division that rounds up. -/
def divCeil (a b : ℕ) : ℕ := if a % b = 0 then a / b else a / b + 1

/-- It is the ceiling of the quotient. -/
theorem divCeil_eq_ceilDiv {a b : ℕ} (hb : 0 < b) : divCeil a b = a ⌈/⌉ b := by
  have hmod := Nat.mod_lt a hb
  have hsplit : a + b - 1 = a % b + b - 1 + b * (a / b) := by
    have := Nat.mod_add_div a b
    omega
  rw [Nat.ceilDiv_eq_add_pred_div, hsplit, Nat.add_mul_div_left _ _ hb, divCeil]
  split
  · rename_i hexact
    have hnone : (a % b + b - 1) / b = 0 := Nat.div_eq_of_lt (by omega)
    omega
  · rename_i hrest
    have hone : (a % b + b - 1) / b = 1 := Nat.div_eq_of_lt_le (by omega) (by omega)
    omega

theorem lt_divCeil_iff {a b n : ℕ} (hb : 0 < b) : n < divCeil a b ↔ n * b < a := by
  rw [divCeil_eq_ceilDiv hb, ← Nat.not_le, ceilDiv_le_iff_le_mul hb, Nat.mul_comm, Nat.not_le]

theorem checkedAdd_eq_some_iff {a b c : ℕ} :
    checkedAdd a b = some c ↔ a + b ≤ usizeMax ∧ c = a + b := by
  unfold checkedAdd
  split
  · rename_i h
    simp [h, eq_comm]
  · rename_i h
    simp [h]

theorem checkedAdd_eq_none_iff {a b : ℕ} : checkedAdd a b = none ↔ usizeMax < a + b := by
  unfold checkedAdd
  split
  · rename_i h
    simp [h]
  · rename_i h
    simp
    omega

theorem wrappingAdd_of_le {a b : ℕ} (h : a + b ≤ usizeMax) : wrappingAdd a b = a + b :=
  Nat.mod_eq_of_lt (Nat.lt_succ_of_le h)

theorem wrappingAdd_le (a b : ℕ) : wrappingAdd a b ≤ usizeMax :=
  Nat.le_of_lt_succ (Nat.mod_lt _ (Nat.succ_pos _))

theorem saturatingAdd_le_iff {a b c : ℕ} (hc : c < usizeMax) :
    saturatingAdd a b ≤ c ↔ a + b ≤ c := by
  unfold saturatingAdd
  omega

/-! ## Positive sizes -/

/-- A configured limit: a machine word that is not zero. -/
structure NonZeroUsize where
  get : ℕ
  pos : 0 < get
  le_max : get ≤ usizeMax
  deriving DecidableEq, Repr

/-- The largest limit. -/
def NonZeroUsize.max : NonZeroUsize := ⟨usizeMax, by decide, le_rfl⟩

/-- A limit from a word, unless it is zero. -/
def NonZeroUsize.new (n : ℕ) : Option NonZeroUsize :=
  if h : 0 < n ∧ n ≤ usizeMax then some ⟨n, h.1, h.2⟩ else none

theorem NonZeroUsize.new_eq_some {n : ℕ} (hpos : 0 < n) (hle : n ≤ usizeMax) :
    NonZeroUsize.new n = some ⟨n, hpos, hle⟩ := by
  rw [NonZeroUsize.new, dif_pos ⟨hpos, hle⟩]

/-- The smallest limit. -/
def NonZeroUsize.min : NonZeroUsize := ⟨1, by decide, by decide⟩

/-- The stricter of two limits. -/
def NonZeroUsize.stricter (a b : NonZeroUsize) : NonZeroUsize := if b.get < a.get then b else a

/-! ## Slices -/

/-- The bytes `offset..stop` of a buffer, when the range is well formed. -/
def slice {α : Type*} (l : List α) (offset stop : ℕ) : Option (List α) :=
  if offset ≤ stop ∧ stop ≤ l.length then some ((l.take stop).drop offset) else none

theorem slice_eq_some {α : Type*} (l : List α) {offset stop : ℕ} (h₁ : offset ≤ stop)
    (h₂ : stop ≤ l.length) : slice l offset stop = some ((l.take stop).drop offset) := by
  rw [slice, if_pos ⟨h₁, h₂⟩]

/-- A prefix followed by the next slice is the longer prefix. -/
theorem take_append_slice {α : Type*} (l : List α) {offset stop : ℕ} (h : offset ≤ stop) :
    l.take offset ++ (l.take stop).drop offset = l.take stop := by
  have hsplit := List.take_append_drop offset (l.take stop)
  rw [List.take_take, Nat.min_eq_left h] at hsplit
  exact hsplit

/-! ## Byte buffers -/

/-- The largest signed machine word, which is also the largest allocation. -/
def isizeMax : ℕ := 2 ^ 63 - 1

/-- Bytes in memory; no allocation is longer than `isizeMax`. -/
structure ByteBuffer where
  toList : List UInt8
  le_max : toList.length ≤ isizeMax
  deriving DecidableEq, Repr

namespace ByteBuffer

def length (b : ByteBuffer) : ℕ := b.toList.length

/-- Append bytes in place, growing the allocation. -/
def extend (b c : ByteBuffer) : Except Panic ByteBuffer :=
  if h : (b.toList ++ c.toList).length ≤ isizeMax then .ok ⟨b.toList ++ c.toList, h⟩
  else .error .capacityOverflow

/-- Bytes as a buffer; there is no allocation for more than `isizeMax` of them. -/
def ofList (bytes : List UInt8) : Except Panic ByteBuffer :=
  if h : bytes.length ≤ isizeMax then .ok ⟨bytes, h⟩ else .error .capacityOverflow

theorem ofList_eq_ok {bytes : List UInt8} (h : bytes.length ≤ isizeMax) :
    ofList bytes = .ok ⟨bytes, h⟩ := by
  rw [ofList, dif_pos h]

theorem extend_eq_ok {b c d : ByteBuffer} (h : b.extend c = .ok d) :
    d.toList = b.toList ++ c.toList := by
  rw [extend] at h
  split at h
  · rw [← Except.ok.inj h]
  · cases h

/-- Two buffers together fit a machine word. -/
theorem length_add_le (b c : ByteBuffer) : b.length + c.length ≤ usizeMax := by
  have hb := b.le_max
  have hc := c.le_max
  simp only [isizeMax, usizeMax, length] at *
  omega

end ByteBuffer
