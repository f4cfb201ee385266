/-
# Numbers as decimal text

Numbers are printed without leading zeros and read back digit by digit.  A reader accepts more
texts than are printed, with leading zeros and an explicit sign, but the printed text is a shortest
one of its number (`length_formatInt_le`).
-/
import Mathlib.Tactic

namespace DecimalText

/-! ## Digits -/

def digit (d : ℕ) : UInt8 := UInt8.ofNat (48 + d)

/-- The value of an ASCII digit. -/
def digitValue (b : UInt8) : Option ℕ :=
  if 48 ≤ b.toNat ∧ b.toNat ≤ 57 then some (b.toNat - 48) else none

theorem toNat_digit {d : ℕ} (h : d < 10) : (digit d).toNat = 48 + d := by
  rw [digit, UInt8.toNat_ofNat']
  omega

theorem digitValue_digit {d : ℕ} (h : d < 10) : digitValue (digit d) = some d := by
  rw [digitValue, toNat_digit h, if_pos (by omega)]
  congr 1
  omega

theorem digitValue_lt {b : UInt8} {d : ℕ} (h : digitValue b = some d) : d < 10 := by
  unfold digitValue at h
  split_ifs at h with hdigit
  cases h
  omega

/-! ## Printing -/

/-- The decimal text of a number. -/
def format (n : ℕ) : List UInt8 := (Nat.toDigits 10 n).map fun c => UInt8.ofNat c.toNat

theorem digitChar_toNat {d : ℕ} (h : d < 10) : UInt8.ofNat d.digitChar.toNat = digit d := by
  interval_cases d <;> rfl

theorem format_of_lt {n : ℕ} (h : n < 10) : format n = [digit n] := by
  rw [format, Nat.toDigits_of_lt_base h, List.map_singleton, digitChar_toNat h]

theorem format_of_le {n : ℕ} (h : 10 ≤ n) : format n = format (n / 10) ++ [digit (n % 10)] := by
  rw [format, Nat.toDigits_of_base_le (by decide) h, List.map_append, List.map_singleton,
    digitChar_toNat (Nat.mod_lt n (by decide))]
  rfl

theorem length_format_le {n k : ℕ} (hk : 0 < k) (h : n < 10 ^ k) : (format n).length ≤ k := by
  rw [format, List.length_map]
  exact Nat.toDigits_length 10 n k hk h

theorem format_ne_nil (n : ℕ) : format n ≠ [] := by
  rcases Nat.lt_or_ge n 10 with h | h
  · simp [format_of_lt h]
  · simp [format_of_le h]

/-- Every byte of a decimal text is a digit. -/
theorem mem_format {n : ℕ} {b : UInt8} (h : b ∈ format n) : 48 ≤ b.toNat ∧ b.toNat ≤ 57 := by
  induction n using Nat.strong_induction_on with
  | _ n ih =>
    rcases Nat.lt_or_ge n 10 with hn | hn
    · rw [format_of_lt hn, List.mem_singleton] at h
      rw [h, toNat_digit hn]
      omega
    · rw [format_of_le hn, List.mem_append, List.mem_singleton] at h
      rcases h with h | rfl
      · exact ih (n / 10) (by omega) h
      · have hmod : n % 10 < 10 := Nat.mod_lt n (by decide)
        rw [toNat_digit hmod]
        omega

/-- Count digits by dividing: the value that is left and the digits counted so far. -/
def countDigits (value digits : ℕ) : ℕ :=
  if 10 ≤ value then countDigits (value / 10) (digits + 1) else digits
termination_by value

theorem countDigits_eq (value digits : ℕ) :
    countDigits value digits + 1 = digits + (format value).length := by
  induction value using Nat.strong_induction_on generalizing digits with
  | _ value ih =>
    rw [countDigits]
    split_ifs with h
    · rw [ih (value / 10) (by omega), format_of_le h, List.length_append, List.length_singleton]
      omega
    · rw [format_of_lt (by omega), List.length_singleton]

/-! ## Reading -/

/-- Read digits behind a number that has been read so far. -/
def accumulate : ℕ → List UInt8 → Option ℕ
  | acc, [] => some acc
  | acc, b :: rest =>
    match digitValue b with
    | none => none
    | some d => accumulate (acc * 10 + d) rest

/-- The number of a text of digits; there has to be one. -/
def parse (text : List UInt8) : Option ℕ := if text = [] then none else accumulate 0 text

theorem accumulate_append (acc : ℕ) (l l' : List UInt8) :
    accumulate acc (l ++ l') = (accumulate acc l).bind fun acc' => accumulate acc' l' := by
  induction l generalizing acc with
  | nil => rfl
  | cons b l ih =>
    rw [List.cons_append, accumulate, accumulate]
    cases digitValue b with
    | none => rfl
    | some d => exact ih _

theorem accumulate_format (n : ℕ) : accumulate 0 (format n) = some n := by
  induction n using Nat.strong_induction_on with
  | _ n ih =>
    rcases Nat.lt_or_ge n 10 with h | h
    · rw [format_of_lt h, accumulate, digitValue_digit h]
      simp [accumulate]
    · have hdigit := digitValue_digit (Nat.mod_lt n (show 10 > 0 by decide))
      rw [format_of_le h, accumulate_append, ih (n / 10) (by omega), Option.bind_some, accumulate,
        hdigit]
      simp only [accumulate]
      congr 1
      omega

theorem parse_format (n : ℕ) : parse (format n) = some n := by
  rw [parse, if_neg (format_ne_nil n), accumulate_format]

/-- Reading multiplies what was read before by ten for each digit. -/
theorem accumulate_lt {acc v : ℕ} {text : List UInt8} (h : accumulate acc text = some v) :
    v < (acc + 1) * 10 ^ text.length := by
  induction text generalizing acc with
  | nil =>
    cases h
    simp
  | cons b text ih =>
    rw [accumulate] at h
    rcases hdigit : digitValue b with _ | d
    · rw [hdigit] at h
      cases h
    · rw [hdigit] at h
      have hd := digitValue_lt hdigit
      calc v < (acc * 10 + d + 1) * 10 ^ text.length := ih h
        _ ≤ ((acc + 1) * 10) * 10 ^ text.length := Nat.mul_le_mul_right _ (by omega)
        _ = (acc + 1) * 10 ^ (b :: text).length := by
            rw [List.length_cons, pow_succ']
            ring

/-- The printed text is no longer than any text of the number. -/
theorem length_format_of_parse {text : List UInt8} {v : ℕ} (h : parse text = some v) :
    (format v).length ≤ text.length := by
  unfold parse at h
  split_ifs at h with hempty
  have hlt := accumulate_lt h
  rw [Nat.zero_add, Nat.one_mul] at hlt
  exact length_format_le (List.length_pos_iff.mpr hempty) hlt

/-! ## Signs -/

def formatInt (z : ℤ) : List UInt8 :=
  if z < 0 then 45 :: format z.natAbs else format z.natAbs

/-- An optional sign and digits. -/
def parseInt : List UInt8 → Option ℤ
  | 43 :: text => (parse text).map fun n : ℕ => (n : ℤ)
  | 45 :: text => (parse text).map fun n : ℕ => -(n : ℤ)
  | text => (parse text).map fun n : ℕ => (n : ℤ)

/-- Without a sign in front a text is read as its digits. -/
theorem parseInt_of_head {text : List UInt8} (h : ∀ b ∈ text, 48 ≤ b.toNat) :
    parseInt text = (parse text).map fun n : ℕ => (n : ℤ) := by
  unfold parseInt
  split
  · exact absurd (h 43 List.mem_cons_self) (by decide)
  · exact absurd (h 45 List.mem_cons_self) (by decide)
  · rfl

theorem parseInt_formatInt (z : ℤ) : parseInt (formatInt z) = some z := by
  unfold formatInt
  split_ifs with h
  · show (parse (format z.natAbs)).map (fun n : ℕ => -(n : ℤ)) = some z
    rw [parse_format, Option.map_some]
    congr 1
    omega
  · rw [parseInt_of_head fun b hb => (mem_format hb).1, parse_format, Option.map_some]
    congr 1
    omega

/-- **The printed text is a shortest text** of its number. -/
theorem length_formatInt_le {text : List UInt8} {z : ℤ} (h : parseInt text = some z) :
    (formatInt z).length ≤ text.length := by
  have hunsigned : ∀ {text : List UInt8} {n : ℕ}, parse text = some n →
      (formatInt n).length ≤ text.length := by
    intro text n hparse
    rw [formatInt, if_neg (by omega), Int.natAbs_natCast]
    exact length_format_of_parse hparse
  unfold parseInt at h
  split at h
  · obtain ⟨n, hn, rfl⟩ := Option.map_eq_some_iff.mp h
    exact (hunsigned hn).trans (Nat.le_succ _)
  · obtain ⟨n, hn, rfl⟩ := Option.map_eq_some_iff.mp h
    have hlen := length_format_of_parse hn
    rw [formatInt, Int.natAbs_neg, Int.natAbs_natCast, List.length_cons]
    split_ifs
    · rw [List.length_cons]
      omega
    · omega
  · obtain ⟨n, hn, rfl⟩ := Option.map_eq_some_iff.mp h
    exact hunsigned hn

theorem mem_formatInt {z : ℤ} {b : UInt8} (h : b ∈ formatInt z) : 45 ≤ b.toNat ∧ b.toNat ≤ 57 := by
  unfold formatInt at h
  split_ifs at h
  · rcases List.mem_cons.mp h with rfl | h
    · decide
    · have := mem_format h
      omega
  · have := mem_format h
    omega

end DecimalText
