/-
# Variable-length integers in bincode's standard configuration

The wire format of `bincode::config::standard()` for unsigned integers and booleans: a
value below 251 is one byte, larger ones are a tag byte (251, 252, 253) followed by
two, four or eight little-endian bytes; a boolean is the byte 0 or 1.

A decoder returns the value and the unread rest of its input, so decoders compose by
feeding the rest of one to the next.
-/
import Mathlib.Tactic

namespace Bincode

/-- Errors of the decoder; `other` stands for the variants told apart by their text only. -/
inductive DecodeError where
  | unexpectedEnd (additional : ℕ)
  | otherString (text : String)
  | other (text : String)
  deriving DecidableEq, Repr

/-! ## Fixed-width little-endian words -/

/-- The `n` low bytes of `v`, least significant first. -/
def leBytes : ℕ → ℕ → List UInt8
  | 0, _ => []
  | n + 1, v => UInt8.ofNat (v % 256) :: leBytes n (v / 256)

/-- The value of a little-endian byte string. -/
def ofLeBytes : List UInt8 → ℕ
  | [] => 0
  | b :: rest => b.toNat + 256 * ofLeBytes rest

@[simp] theorem length_leBytes (n v : ℕ) : (leBytes n v).length = n := by
  induction n generalizing v with
  | zero => rfl
  | succ n ih => rw [leBytes, List.length_cons, ih]

theorem ofLeBytes_leBytes (n v : ℕ) (h : v < 256 ^ n) : ofLeBytes (leBytes n v) = v := by
  induction n generalizing v with
  | zero =>
    have hv : v = 0 := by simpa using h
    rw [hv]
    rfl
  | succ n ih =>
    have hdiv : v / 256 < 256 ^ n := by
      apply Nat.div_lt_of_lt_mul
      rwa [pow_succ, Nat.mul_comm] at h
    have hbyte : (UInt8.ofNat (v % 256)).toNat = v % 256 := by
      rw [UInt8.toNat_ofNat']
      omega
    rw [leBytes, ofLeBytes, ih _ hdiv, hbyte]
    exact Nat.mod_add_div v 256

/-- A longer word starts with the shorter one. -/
theorem leBytes_add (m n v : ℕ) :
    leBytes (m + n) v = leBytes m v ++ leBytes n (v / 256 ^ m) := by
  induction m generalizing v with
  | zero => simp [leBytes]
  | succ m ih =>
    rw [show m + 1 + n = m + n + 1 by omega, leBytes, leBytes, ih, Nat.div_div_eq_div_mul,
      ← pow_succ', List.cons_append]

/-- The bytes of a word, each from its own position. -/
theorem leBytes_eq_map_range (n v : ℕ) :
    leBytes n v = (List.range n).map fun i => UInt8.ofNat (v / 256 ^ i % 256) := by
  induction n with
  | zero => rfl
  | succ n ih =>
    rw [leBytes_add n 1, ih, List.range_succ, List.map_append]
    rfl

theorem ofLeBytes_zeros (n : ℕ) : ofLeBytes (List.replicate n 0) = 0 := by
  induction n with
  | zero => rfl
  | succ n ih =>
    show (0 : UInt8).toNat + 256 * ofLeBytes (List.replicate n 0) = 0
    rw [ih]
    rfl

/-- Zero bytes at the most significant end do not count. -/
theorem ofLeBytes_append_zeros (bytes : List UInt8) (n : ℕ) :
    ofLeBytes (bytes ++ List.replicate n 0) = ofLeBytes bytes := by
  induction bytes with
  | nil => rw [List.nil_append, ofLeBytes_zeros, ofLeBytes]
  | cons b bytes ih => rw [List.cons_append, ofLeBytes, ih, ofLeBytes]

/-- Read an `n`-byte word off the front of the input. -/
def decodeFixed (n : ℕ) (input : List UInt8) : Except DecodeError (ℕ × List UInt8) :=
  if input.length < n then .error (.unexpectedEnd (n - input.length))
  else .ok (ofLeBytes (input.take n), input.drop n)

theorem decodeFixed_leBytes (n v : ℕ) (rest : List UInt8) (h : v < 256 ^ n) :
    decodeFixed n (leBytes n v ++ rest) = .ok (v, rest) := by
  have hlen : (leBytes n v).length = n := length_leBytes n v
  rw [decodeFixed, if_neg (by rw [List.length_append]; omega), List.take_left' hlen,
    List.drop_left' hlen, ofLeBytes_leBytes n v h]

/-- A word that is read is taken off the front. -/
theorem decodeFixed_rest {n v : ℕ} {input rest : List UInt8}
    (h : decodeFixed n input = .ok (v, rest)) : rest.length + n = input.length := by
  rw [decodeFixed] at h
  split at h
  · cases h
  · rename_i hlen
    cases h
    rw [List.length_drop]
    omega

/-! ## Varints -/

/-- Encode an unsigned integer of at most 64 bits. -/
def encodeVarint (v : ℕ) : List UInt8 :=
  if v < 251 then [UInt8.ofNat v]
  else if v < 2 ^ 16 then 251 :: leBytes 2 v
  else if v < 2 ^ 32 then 252 :: leBytes 4 v
  else 253 :: leBytes 8 v

/-- Decode an unsigned integer of `bits` bits: a tag for a wider word is refused. -/
def decodeVarint (bits : ℕ) : List UInt8 → Except DecodeError (ℕ × List UInt8)
  | [] => .error (.unexpectedEnd 1)
  | b :: rest =>
    if b.toNat < 251 then .ok (b.toNat, rest)
    else if b = 251 then decodeFixed 2 rest
    else if b = 252 then decodeFixed 4 rest
    else if b = 253 ∧ bits = 64 then decodeFixed 8 rest
    else .error (.other "invalid integer type")

/-- Decoding an encoded integer gives it back and leaves what follows. -/
theorem decodeVarint_encodeVarint (bits v : ℕ) (rest : List UInt8) (hbits : bits = 32 ∨ bits = 64)
    (h : v < 2 ^ bits) : decodeVarint bits (encodeVarint v ++ rest) = .ok (v, rest) := by
  unfold encodeVarint
  by_cases h₁ : v < 251
  · have hbyte : (UInt8.ofNat v).toNat = v := by
      rw [UInt8.toNat_ofNat']
      omega
    rw [if_pos h₁, List.singleton_append, decodeVarint, hbyte, if_pos h₁]
  rw [if_neg h₁]
  by_cases h₂ : v < 2 ^ 16
  · rw [if_pos h₂, List.cons_append]
    exact decodeFixed_leBytes 2 v rest h₂
  rw [if_neg h₂]
  by_cases h₃ : v < 2 ^ 32
  · rw [if_pos h₃, List.cons_append]
    exact decodeFixed_leBytes 4 v rest h₃
  · rw [if_neg h₃, List.cons_append]
    rcases hbits with rfl | rfl
    · exact absurd h h₃
    · exact decodeFixed_leBytes 8 v rest h

/-- The bytes an unsigned integer takes. -/
def varintWidth (v : ℕ) : ℕ :=
  if v < 251 then 1 else if v < 2 ^ 16 then 3 else if v < 2 ^ 32 then 5 else 9

@[simp] theorem length_encodeVarint (v : ℕ) : (encodeVarint v).length = varintWidth v := by
  unfold encodeVarint varintWidth
  split_ifs <;> simp

theorem varintWidth_le (v : ℕ) : varintWidth v ≤ 9 := by
  unfold varintWidth
  split_ifs <;> omega

/-- A 32-bit integer never takes the widest form. -/
theorem varintWidth_le_of_lt {v : ℕ} (h : v < 2 ^ 32) : varintWidth v ≤ 5 := by
  unfold varintWidth
  split_ifs <;> omega

/-- A varint is at least its tag. -/
theorem decodeVarint_rest {bits v : ℕ} {input rest : List UInt8}
    (h : decodeVarint bits input = .ok (v, rest)) : rest.length < input.length := by
  cases input with
  | nil => exact absurd h (by simp [decodeVarint])
  | cons b input =>
    rw [decodeVarint] at h
    rw [List.length_cons]
    split_ifs at h
    · cases h
      omega
    all_goals
      have hrest := decodeFixed_rest h
      omega

/-! ## Booleans -/

/-- Encode a boolean. -/
def encodeBool (b : Bool) : List UInt8 := [if b then 1 else 0]

/-- Decode a boolean: any other byte is refused. -/
def decodeBool : List UInt8 → Except DecodeError (Bool × List UInt8)
  | [] => .error (.unexpectedEnd 1)
  | b :: rest =>
    if b = 0 then .ok (false, rest)
    else if b = 1 then .ok (true, rest)
    else .error (.other "invalid boolean value")

theorem decodeBool_encodeBool (b : Bool) (rest : List UInt8) :
    decodeBool (encodeBool b ++ rest) = .ok (b, rest) := by
  cases b <;> rfl

theorem decodeBool_rest {b : Bool} {input rest : List UInt8}
    (h : decodeBool input = .ok (b, rest)) : rest.length < input.length := by
  cases input with
  | nil => exact absurd h (by simp [decodeBool])
  | cons c input =>
    rw [decodeBool] at h
    rw [List.length_cons]
    split_ifs at h
    all_goals
      cases h
      omega

/-! ## Options and byte vectors -/

/-- Encode an optional integer: a tag, and the integer if there is one. -/
def encodeOptionVarint : Option ℕ → List UInt8
  | none => [0]
  | some v => 1 :: encodeVarint v

/-- Encode a vector of bytes: its length and the bytes. -/
def encodeByteVec (bytes : List UInt8) : List UInt8 := encodeVarint bytes.length ++ bytes

/-! ## Decoding under a limit -/

/-- Errors of a decoder that may read a limited number of bytes. -/
inductive LimitedError where
  | limitExceeded
  | decode (err : DecodeError)
  deriving DecidableEq, Repr

/-- Claim `n` bytes before they are read.  What is claimed is the size of the value in memory, not
that of its encoding. -/
def claim (limit n claimed : ℕ) : Except LimitedError ℕ :=
  if claimed + n ≤ limit then .ok (claimed + n) else .error .limitExceeded

/-- Decode an unsigned integer; every limited decoder returns the value, what has been claimed by
then and the unread rest. -/
def limitedVarint (limit bits claimed : ℕ) (input : List UInt8) :
    Except LimitedError (ℕ × ℕ × List UInt8) := do
  let claimed ← claim limit (bits / 8) claimed
  let (v, rest) ← (decodeVarint bits input).mapError .decode
  pure (v, claimed, rest)

/-- Decode an optional integer. -/
def limitedOptionVarint (limit bits claimed : ℕ) (input : List UInt8) :
    Except LimitedError (Option ℕ × ℕ × List UInt8) := do
  let claimed ← claim limit 1 claimed
  match input with
  | [] => throw (.decode (.unexpectedEnd 1))
  | tag :: rest =>
    if tag = 0 then pure (none, claimed, rest)
    else if tag = 1 then
      let (v, claimed, rest) ← limitedVarint limit bits claimed rest
      pure (some v, claimed, rest)
    else throw (.decode (.other "unexpected variant"))

/-- Decode a vector of bytes: the whole vector is claimed before its first byte is read. -/
def limitedByteVec (limit claimed : ℕ) (input : List UInt8) :
    Except LimitedError (List UInt8 × ℕ × List UInt8) := do
  let (len, claimed, rest) ← limitedVarint limit 64 claimed input
  let claimed ← claim limit len claimed
  if rest.length < len then throw (.decode (.unexpectedEnd 1))
  else pure (rest.take len, claimed, rest.drop len)

section Limited

variable {limit claimed : ℕ} (rest : List UInt8)

theorem limitedVarint_encodeVarint {bits v : ℕ} (hbits : bits = 32 ∨ bits = 64)
    (hv : v < 2 ^ bits) :
    limitedVarint limit bits claimed (encodeVarint v ++ rest) =
      (claim limit (bits / 8) claimed).map fun claimed => (v, claimed, rest) := by
  rw [limitedVarint, decodeVarint_encodeVarint bits v rest hbits hv]
  rcases claim limit (bits / 8) claimed with err | claimed
  · rfl
  · rfl

/-- Claims one after the other succeed exactly when they fit together. -/
theorem claim_bind_claim (m n : ℕ) :
    (claim limit m claimed).bind (claim limit n) = claim limit (m + n) claimed := by
  unfold claim
  by_cases hm : claimed + m ≤ limit
  · rw [if_pos hm]
    show (if claimed + m + n ≤ limit then _ else _) = _
    rw [Nat.add_assoc]
  · rw [if_neg hm, if_neg (by omega)]
    rfl

/-- An encoded option is read back if its claim is granted. -/
theorem limitedOptionVarint_encodeOptionVarint {v : Option ℕ} (hv : ∀ n ∈ v, n < 2 ^ 64) :
    limitedOptionVarint limit 64 claimed (encodeOptionVarint v ++ rest) =
      (claim limit (1 + (v.map fun _ => 8).getD 0) claimed).map fun claimed =>
        (v, claimed, rest) := by
  cases v with
  | none =>
    rw [limitedOptionVarint]
    show _ = (claim limit 1 claimed).map _
    rcases claim limit 1 claimed with err | claimed
    · rfl
    · rfl
  | some n =>
    rw [Option.map_some, Option.getD_some, ← claim_bind_claim, limitedOptionVarint]
    rcases claim limit 1 claimed with err | claimed
    · rfl
    · show (limitedVarint limit 64 claimed (encodeVarint n ++ rest)).bind _ = _
      rw [limitedVarint_encodeVarint rest (Or.inr rfl) (hv n rfl)]
      show Except.bind (Except.map _ (claim limit 8 claimed)) _ =
        Except.map _ (claim limit 8 claimed)
      rcases claim limit 8 claimed with err | claimed
      · rfl
      · rfl

theorem limitedByteVec_encodeByteVec {bytes : List UInt8} (hlength : bytes.length < 2 ^ 64) :
    limitedByteVec limit claimed (encodeByteVec bytes ++ rest) =
      (claim limit (8 + bytes.length) claimed).map fun claimed => (bytes, claimed, rest) := by
  rw [← claim_bind_claim, limitedByteVec, encodeByteVec, List.append_assoc,
    limitedVarint_encodeVarint _ (Or.inr rfl) hlength]
  show Except.bind (Except.map _ (claim limit 8 claimed)) _ = _
  rcases claim limit 8 claimed with err | claimed
  · rfl
  · show (claim limit bytes.length claimed).bind _ = (claim limit bytes.length claimed).map _
    rcases claim limit bytes.length claimed with err | claimed
    · rfl
    · show (if (bytes ++ rest).length < bytes.length then _ else _) = _
      rw [if_neg (by rw [List.length_append]; omega), List.take_left, List.drop_left]
      rfl

end Limited

end Bincode
