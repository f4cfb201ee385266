/-
# Length prefixes

The format of the length in front of a frame (`src/frame/format.rs`) and the conversions behind
it (`src/frame/conversion.rs`).  A format is a width and a byte order.  Lengths are written
through a buffer of eight bytes, the big-endian form by keeping the trailing bytes of a 64-bit
word, the little-endian form byte by byte; they are read by filling such a buffer with zeros
around the bytes of the prefix.

Construction admits every width from one to eight bytes, while both conversions know the widths of
the integer types only: `keepsLength_iff` says which lengths survive.
-/
import Mathlib.Tactic
import Wireframe.Bincode
import Wireframe.Fragment

namespace Wireframe

open Bincode (leBytes ofLeBytes)

/-! ## Errors -/

/-- The kinds of I/O error raised by the code of this crate itself; `other` stands for those of a
transport or a reader. -/
inductive StdIoErrorKind where
  | invalidInput
  | invalidData
  | unexpectedEof
  | timedOut
  | other (code : ℕ)
  deriving DecidableEq, Repr

/-- An I/O error with its text. -/
structure StdIoError where
  kind : StdIoErrorKind
  text : String
  deriving DecidableEq, Repr

def errUnsupportedPrefix : String := "unsupported length prefix size"

def errFrameTooLarge : String := "frame too large"

def errIncompletePrefix : String := "incomplete length prefix"

/-! ## Conversions -/

/-- Byte order used for encoding and decoding length prefixes. -/
inductive Endianness where
  | big
  | little
  deriving DecidableEq, Repr

/-- The widths the conversions know: those of the integer types. -/
def IsIntegerWidth (size : ℕ) : Prop := size = 1 ∨ size = 2 ∨ size = 4 ∨ size = 8

instance : DecidablePred IsIntegerWidth := fun _ => inferInstanceAs (Decidable (_ ∨ _))

/-- Serialize a 64-bit word in network byte order. -/
def writeNetworkU64 (value : ℕ) : List Byte := (leBytes 8 value).reverse

/-- Parse a 64-bit word in network byte order. -/
def readNetworkU64 (bytes : List Byte) : ℕ := ofLeBytes bytes.reverse

/-- Parse a 64-bit word in little-endian byte order. -/
def u64FromLeBytes (bytes : List Byte) : ℕ := ofLeBytes bytes

/-- Checked conversion to an unsigned integer of the given number of bits. -/
def checkedPrefixCast (bits len : ℕ) : Except StdIoError ℕ :=
  if len < 2 ^ bits then .ok len else .error ⟨.invalidInput, errFrameTooLarge⟩

/-- Copy bytes into the range of a buffer that starts at `start`, if it is inside. -/
def copyIntoSlice (buf : List Byte) (start : ℕ) (bytes : List Byte) : Option (List Byte) :=
  if start + bytes.length ≤ buf.length then
    some (buf.take start ++ (bytes ++ buf.drop (start + bytes.length)))
  else none

/-- Copy the bytes of a prefix into the appropriate slice of the buffer. -/
def fillBufWithPrefix (buf field : List Byte) (endianness : Endianness) :
    Except StdIoError (List Byte) :=
  if ¬ IsIntegerWidth field.length then .error ⟨.invalidInput, errUnsupportedPrefix⟩
  else
    match endianness with
    | .big =>
      if 8 < field.length then .error ⟨.invalidInput, errUnsupportedPrefix⟩
      else
        match copyIntoSlice buf (8 - field.length) field with
        | none => .error ⟨.invalidInput, errUnsupportedPrefix⟩
        | some buf => .ok buf
    | .little =>
      match copyIntoSlice buf 0 field with
      | none => .error ⟨.invalidInput, errUnsupportedPrefix⟩
      | some buf => .ok buf

/-- Convert the leading bytes of a slice into a 64-bit word. -/
def bytesToU64 (bytes : List Byte) (size : ℕ) (endianness : Endianness) : Except StdIoError ℕ :=
  if ¬ IsIntegerWidth size then .error ⟨.invalidInput, errUnsupportedPrefix⟩
  else if bytes.length < size then .error ⟨.unexpectedEof, errIncompletePrefix⟩
  else
    match slice bytes 0 size with
    | none => .error ⟨.unexpectedEof, errIncompletePrefix⟩
    | some field =>
      (fillBufWithPrefix (List.replicate 8 0) field endianness).map fun buf =>
        match endianness with
        | .big => readNetworkU64 buf
        | .little => u64FromLeBytes buf

/-- Convert a length into a 64-bit word that fits the prefix. -/
def convertLenToValue (len size : ℕ) : Except StdIoError ℕ :=
  match size with
  | 1 => checkedPrefixCast 8 len
  | 2 => checkedPrefixCast 16 len
  | 4 => checkedPrefixCast 32 len
  | 8 => checkedPrefixCast 64 len
  | _ => .error ⟨.invalidInput, errUnsupportedPrefix⟩

/-- Whether a word is representable in the prefix. -/
def valueFitsPrefix (value size : ℕ) : Bool :=
  match size with
  | 1 => decide (value < 2 ^ 8)
  | 2 => decide (value < 2 ^ 16)
  | 4 => decide (value < 2 ^ 32)
  | 8 => true
  | _ => false

/-- Validate the width of the prefix and whether the word fits it. -/
def ensureFitsPrefix (value size : ℕ) : Except StdIoError Unit :=
  if ¬ IsIntegerWidth size then .error ⟨.invalidInput, errUnsupportedPrefix⟩
  else if valueFitsPrefix value size then .ok ()
  else .error ⟨.invalidInput, errFrameTooLarge⟩

/-- The bytes of a prefix in network order: the trailing bytes of the whole word. -/
def writeBigEndianPrefix (value size : ℕ) : Except StdIoError (List Byte) :=
  match ensureFitsPrefix value size with
  | .error err => .error err
  | .ok () =>
    if 8 < size then .error ⟨.invalidInput, errUnsupportedPrefix⟩
    else .ok ((writeNetworkU64 value).drop (8 - size))

/-- The bytes of a prefix in little-endian order. -/
def writeLittleEndianPrefix (value size : ℕ) : List Byte :=
  (List.range size).map fun i => UInt8.ofNat ((value >>> (8 * i)) &&& 0xff)

/-- The bytes of a prefix of the given width. -/
def writeBytesWithEndianness (value : ℕ) (endianness : Endianness) (size : ℕ) :
    Except StdIoError (List Byte) :=
  match endianness with
  | .big => writeBigEndianPrefix value size
  | .little => .ok (writeLittleEndianPrefix value size)

/-- Encode a length into the front of `out` and zero the rest of it; the number of bytes written
and the buffer afterwards. -/
def u64ToBytes (len size : ℕ) (endianness : Endianness) (out : List Byte) :
    Except StdIoError (ℕ × List Byte) :=
  if ¬ IsIntegerWidth size then .error ⟨.invalidInput, errUnsupportedPrefix⟩
  else
    match convertLenToValue len size with
    | .error err => .error err
    | .ok value =>
      match slice out 0 size with
      | none => .error ⟨.invalidInput, errUnsupportedPrefix⟩
      | some _ =>
        match writeBytesWithEndianness value endianness size with
        | .error err => .error err
        | .ok field => .ok (size, field ++ List.replicate (out.length - size) 0)

/-! ## Formats -/

/-- Format of the length prefix preceding each frame; construction admits one to eight bytes. -/
structure LengthFormat where
  bytes : ℕ
  endianness : Endianness
  one_le : 1 ≤ bytes
  le_eight : bytes ≤ 8
  deriving DecidableEq, Repr

namespace LengthFormat

/-- A format of the given width and byte order; any other width panics. -/
def new (bytes : ℕ) (endianness : Endianness) : Except Panic LengthFormat :=
  if h : 1 ≤ bytes ∧ bytes ≤ 8 then .ok ⟨bytes, endianness, h.1, h.2⟩ else .error .explicit

/-- Fallible constructor validating the prefix width. -/
def tryNew (bytes : ℕ) (endianness : Endianness) : Except StdIoError LengthFormat :=
  if h : 1 ≤ bytes ∧ bytes ≤ 8 then .ok ⟨bytes, endianness, h.1, h.2⟩
  else .error ⟨.invalidInput, "invalid length-prefix width"⟩

/-- Both constructors return exactly the formats of the width and byte order they are given. -/
theorem new_eq_ok {bytes : ℕ} {endianness : Endianness} {fmt : LengthFormat} :
    (new bytes endianness = .ok fmt ↔ bytes = fmt.bytes ∧ endianness = fmt.endianness) ∧
      (tryNew bytes endianness = .ok fmt ↔ bytes = fmt.bytes ∧ endianness = fmt.endianness) := by
  obtain ⟨width, order, hone, height⟩ := fmt
  unfold new tryNew
  by_cases h : 1 ≤ bytes ∧ bytes ≤ 8
  · rw [dif_pos h, dif_pos h]
    simp
  · rw [dif_neg h, dif_neg h]
    constructor <;> refine ⟨nofun, ?_⟩
    all_goals
      rintro ⟨rfl, -⟩
      exact absurd ⟨hone, height⟩ h

/-- Four bytes in network order, the default. -/
def u32Be : LengthFormat := ⟨4, .big, by decide, by decide⟩

/-- Read a length prefix. -/
def readLen (fmt : LengthFormat) (bytes : List Byte) : Except StdIoError ℕ :=
  match bytesToU64 bytes fmt.bytes fmt.endianness with
  | .error err => .error err
  | .ok len => if len ≤ usizeMax then .ok len else .error ⟨.invalidInput, errFrameTooLarge⟩

/-- Write a length prefix behind the bytes of `dst`: the result and the destination afterwards.
Growing the destination beyond what can be allocated panics. -/
def writeLen (fmt : LengthFormat) (len : ℕ) (dst : ByteBuffer) :
    Except Panic (Except StdIoError Unit × ByteBuffer) :=
  match u64ToBytes len fmt.bytes fmt.endianness (List.replicate 8 0) with
  | .error err => .ok (.error err, dst)
  | .ok (written, buf) =>
    match slice buf 0 written with
    | none => .ok (.error ⟨.invalidInput, "internal: prefix slice exceeds buffer"⟩, dst)
    | some field =>
      match ByteBuffer.ofList field with
      | .error panic => .error panic
      | .ok field => (dst.extend field).map fun dst => (.ok (), dst)

end LengthFormat

/-! ## What the conversions compute -/

section Conversions

variable {size len : ℕ} {endianness : Endianness} {bytes : List Byte}

/-- The bytes of a prefix of the given width and byte order. -/
def prefixBytes (size : ℕ) : Endianness → ℕ → List Byte
  | .big, len => (leBytes size len).reverse
  | .little, len => leBytes size len

/-- The length a prefix stands for. -/
def prefixValue : Endianness → List Byte → ℕ
  | .big, field => ofLeBytes field.reverse
  | .little, field => ofLeBytes field

theorem length_prefixBytes : (prefixBytes size endianness len).length = size := by
  cases endianness
  · rw [prefixBytes, List.length_reverse, Bincode.length_leBytes]
  · exact Bincode.length_leBytes size len

theorem prefixValue_prefixBytes (h : len < 256 ^ size) :
    prefixValue endianness (prefixBytes size endianness len) = len := by
  cases endianness
  · rw [prefixBytes, prefixValue, List.reverse_reverse, Bincode.ofLeBytes_leBytes size len h]
  · exact Bincode.ofLeBytes_leBytes size len h

theorem IsIntegerWidth.le_eight (h : IsIntegerWidth size) : size ≤ 8 := by
  unfold IsIntegerWidth at h
  omega

/-- The cast to the integer type of the width checks that the length is below `256 ^ size`. -/
theorem convertLenToValue_eq (h : IsIntegerWidth size) : convertLenToValue len size =
    if len < 256 ^ size then .ok len else .error ⟨.invalidInput, errFrameTooLarge⟩ := by
  rcases h with rfl | rfl | rfl | rfl <;> rfl

theorem valueFitsPrefix_of_lt (h : IsIntegerWidth size) (hlen : len < 256 ^ size) :
    valueFitsPrefix len size = true := by
  rcases h with rfl | rfl | rfl | rfl
  · exact decide_eq_true hlen
  · exact decide_eq_true hlen
  · exact decide_eq_true hlen
  · rfl

/-- Keeping the trailing bytes of the whole word in network order, or shifting out its bytes one
by one, gives the bytes of the narrower word. -/
theorem writeBytesWithEndianness_eq (h : IsIntegerWidth size) (hlen : len < 256 ^ size) :
    writeBytesWithEndianness len endianness size = .ok (prefixBytes size endianness len) := by
  cases endianness with
  | big =>
    have hensure : ensureFitsPrefix len size = .ok () := by
      rw [ensureFitsPrefix, if_neg (not_not.mpr h), if_pos (valueFitsPrefix_of_lt h hlen)]
    have hwidth := h.le_eight
    have hwhole : leBytes 8 len = leBytes size len ++ leBytes (8 - size) (len / 256 ^ size) := by
      rw [← Bincode.leBytes_add, Nat.add_sub_cancel' hwidth]
    show writeBigEndianPrefix len size = _
    rw [writeBigEndianPrefix, hensure]
    simp only
    rw [if_neg (by omega), writeNetworkU64, hwhole, List.reverse_append,
      List.drop_left' (by rw [List.length_reverse, Bincode.length_leBytes])]
    rfl
  | little =>
    show Except.ok (writeLittleEndianPrefix len size) = .ok (leBytes size len)
    rw [writeLittleEndianPrefix, Bincode.leBytes_eq_map_range]
    congr 2
    funext i
    have hmask := Nat.and_two_pow_sub_one_eq_mod (len >>> (8 * i)) 8
    rw [show (0xff : ℕ) = 2 ^ 8 - 1 from rfl, hmask, Nat.shiftRight_eq_div_pow, pow_mul,
      show (2 : ℕ) ^ 8 = 256 from rfl]

/-- **The encoder**: it refuses the widths it does not know and the lengths that do not fit. -/
theorem u64ToBytes_eq (size len : ℕ) (endianness : Endianness) {out : List Byte}
    (hout : out.length = 8) : u64ToBytes len size endianness out =
      if ¬ IsIntegerWidth size then .error ⟨.invalidInput, errUnsupportedPrefix⟩
      else if len < 256 ^ size then
        .ok (size, prefixBytes size endianness len ++ List.replicate (8 - size) 0)
      else .error ⟨.invalidInput, errFrameTooLarge⟩ := by
  by_cases h : IsIntegerWidth size
  · have hwidth := h.le_eight
    rw [u64ToBytes, if_neg (not_not.mpr h), if_neg (not_not.mpr h), convertLenToValue_eq h]
    by_cases hlen : len < 256 ^ size
    · rw [if_pos hlen, if_pos hlen]
      simp only
      rw [slice_eq_some out (Nat.zero_le _) (by omega)]
      simp only
      rw [writeBytesWithEndianness_eq h hlen, hout]
    · rw [if_neg hlen, if_neg hlen]
  · rw [u64ToBytes, if_pos h, if_pos h]

/-- The buffer of the decoder holds the prefix at its least significant end. -/
theorem fillBufWithPrefix_eq {field : List Byte} (h : IsIntegerWidth field.length) :
    fillBufWithPrefix (List.replicate 8 0) field endianness = .ok (match endianness with
      | .big => List.replicate (8 - field.length) 0 ++ field
      | .little => field ++ List.replicate (8 - field.length) 0) := by
  have hwidth := h.le_eight
  unfold fillBufWithPrefix
  rw [if_neg (not_not.mpr h)]
  cases endianness with
  | big =>
    simp only
    rw [if_neg (by omega), copyIntoSlice, if_pos (by rw [List.length_replicate]; omega)]
    simp only
    rw [List.take_replicate, List.drop_replicate,
      show 8 - (8 - field.length + field.length) = 0 by omega,
      show min (8 - field.length) 8 = 8 - field.length by omega, List.replicate_zero,
      List.append_nil]
  | little =>
    simp only
    rw [copyIntoSlice, if_pos (by rw [List.length_replicate]; omega)]
    simp only
    rw [List.take_zero, List.nil_append, List.drop_replicate, Nat.zero_add]

/-- **The decoder**: it refuses the widths it does not know and strings that are too short. -/
theorem bytesToU64_eq (bytes : List Byte) (size : ℕ) (endianness : Endianness) :
    bytesToU64 bytes size endianness =
      if ¬ IsIntegerWidth size then .error ⟨.invalidInput, errUnsupportedPrefix⟩
      else if bytes.length < size then .error ⟨.unexpectedEof, errIncompletePrefix⟩
      else .ok (prefixValue endianness (bytes.take size)) := by
  by_cases h : IsIntegerWidth size
  · rw [bytesToU64, if_neg (not_not.mpr h), if_neg (not_not.mpr h)]
    by_cases hshort : bytes.length < size
    · rw [if_pos hshort, if_pos hshort]
    · have hfield : (bytes.take size).length = size := by
        rw [List.length_take]
        omega
      rw [if_neg hshort, if_neg hshort, slice_eq_some bytes (Nat.zero_le _) (by omega)]
      simp only [List.drop_zero]
      rw [fillBufWithPrefix_eq (by rw [hfield]; exact h)]
      cases endianness with
      | big =>
        simp only [Except.map, readNetworkU64, prefixValue]
        rw [List.reverse_append, List.reverse_replicate, Bincode.ofLeBytes_append_zeros]
      | little =>
        simp only [Except.map, u64FromLeBytes, prefixValue]
        rw [Bincode.ofLeBytes_append_zeros]
  · rw [bytesToU64, if_pos h, if_pos h]

end Conversions

namespace LengthFormat

variable {fmt : LengthFormat} {len : ℕ} {dst : ByteBuffer}

/-- A length of a known width is read back, whatever follows it. -/
theorem readLen_prefixBytes (h : IsIntegerWidth fmt.bytes) (hlen : len < 256 ^ fmt.bytes)
    (suffix : List Byte) :
    fmt.readLen (prefixBytes fmt.bytes fmt.endianness len ++ suffix) = .ok len := by
  have hfield : (prefixBytes fmt.bytes fmt.endianness len).length = fmt.bytes := length_prefixBytes
  have hword : len ≤ usizeMax := by
    have hpow : 256 ^ fmt.bytes ≤ 256 ^ 8 := Nat.pow_le_pow_right (by decide) fmt.le_eight
    have hmax : usizeMax = 256 ^ 8 - 1 := by decide
    omega
  rw [readLen, bytesToU64_eq, if_neg (not_not.mpr h),
    if_neg (by rw [List.length_append]; omega), List.take_left' hfield,
    prefixValue_prefixBytes hlen]
  exact if_pos hword

/-- Strings shorter than the width of the prefix are never read. -/
theorem readLen_short (fmt : LengthFormat) {bytes : List Byte} (h : bytes.length < fmt.bytes) :
    ∃ err, fmt.readLen bytes = .error err := by
  rw [readLen, bytesToU64_eq]
  by_cases hwidth : IsIntegerWidth fmt.bytes
  · rw [if_neg (not_not.mpr hwidth), if_pos h]
    exact ⟨_, rfl⟩
  · rw [if_pos hwidth]
    exact ⟨_, rfl⟩

/-- **The writer**: it fails and leaves the destination alone, or it appends the bytes of the
prefix, if there is room for them. -/
theorem writeLen_eq (fmt : LengthFormat) (len : ℕ) (dst : ByteBuffer) : fmt.writeLen len dst =
    if ¬ IsIntegerWidth fmt.bytes then .ok (.error ⟨.invalidInput, errUnsupportedPrefix⟩, dst)
    else if len < 256 ^ fmt.bytes then
      if h : (dst.toList ++ prefixBytes fmt.bytes fmt.endianness len).length ≤ isizeMax then
        .ok (.ok (), ⟨dst.toList ++ prefixBytes fmt.bytes fmt.endianness len, h⟩)
      else .error .capacityOverflow
    else .ok (.error ⟨.invalidInput, errFrameTooLarge⟩, dst) := by
  have hbuf : (List.replicate 8 (0 : Byte)).length = 8 := rfl
  rw [writeLen, u64ToBytes_eq fmt.bytes len fmt.endianness hbuf]
  by_cases hwidth : IsIntegerWidth fmt.bytes
  · rw [if_neg (not_not.mpr hwidth), if_neg (not_not.mpr hwidth)]
    by_cases hlen : len < 256 ^ fmt.bytes
    · have hfield : (prefixBytes fmt.bytes fmt.endianness len).length = fmt.bytes :=
        length_prefixBytes
      have hsmall : (prefixBytes fmt.bytes fmt.endianness len).length ≤ isizeMax := by
        rw [hfield]
        exact fmt.le_eight.trans (by decide)
      rw [if_pos hlen, if_pos hlen]
      simp only
      rw [slice_eq_some _ (Nat.zero_le _) (by rw [List.length_append]; omega)]
      simp only [List.drop_zero]
      rw [List.take_left' hfield, ByteBuffer.ofList_eq_ok hsmall]
      simp only [ByteBuffer.extend]
      split
      · rfl
      · rfl
    · rw [if_neg hlen, if_neg hlen]
  · rw [if_pos hwidth, if_pos hwidth]

/-! ## Which lengths survive -/

/-- A length is kept: it is written exactly when it is below `256 ^ bytes`, as many bytes as the
format has are then appended, and they are read back with anything behind them; a failed write
leaves the destination alone; and strings that are too short are not read. -/
def KeepsLength (fmt : LengthFormat) (len : ℕ) (dst : ByteBuffer) : Prop :=
  (if len < 256 ^ fmt.bytes then
    ∃ dst' field, fmt.writeLen len dst = .ok (.ok (), dst') ∧
      dst'.toList = dst.toList ++ field ∧ field.length = fmt.bytes ∧
      ∀ suffix, fmt.readLen (field ++ suffix) = .ok len
  else ∃ err, fmt.writeLen len dst = .ok (.error err, dst)) ∧
  ∀ bytes : List Byte, bytes.length < fmt.bytes → ∃ err, fmt.readLen bytes = .error err

/-- **A length is kept exactly when it is too long for the prefix, or the width is that of an
integer type** and the destination has room for it. -/
theorem keepsLength_iff (fmt : LengthFormat) (len : ℕ) (dst : ByteBuffer) :
    fmt.KeepsLength len dst ↔ (len < 256 ^ fmt.bytes →
      IsIntegerWidth fmt.bytes ∧ dst.length + fmt.bytes ≤ isizeMax) := by
  have hwrite := fmt.writeLen_eq len dst
  have hfield : (prefixBytes fmt.bytes fmt.endianness len).length = fmt.bytes := length_prefixBytes
  have hroom : (dst.toList ++ prefixBytes fmt.bytes fmt.endianness len).length =
      dst.length + fmt.bytes := by
    rw [List.length_append, hfield]
    rfl
  constructor
  · rintro ⟨hkeep, -⟩ hlen
    rw [if_pos hlen] at hkeep
    obtain ⟨dst', field, hok, -, -, -⟩ := hkeep
    rw [hwrite] at hok
    by_cases hwidth : IsIntegerWidth fmt.bytes
    · refine ⟨hwidth, ?_⟩
      rw [if_neg (not_not.mpr hwidth), if_pos hlen] at hok
      by_contra hfull
      rw [dif_neg (by rw [hroom]; exact hfull)] at hok
      cases hok
    · rw [if_pos hwidth] at hok
      cases hok
  · intro hcond
    refine ⟨?_, fun bytes => fmt.readLen_short⟩
    split
    · rename_i hlen
      obtain ⟨hwidth, hfits⟩ := hcond hlen
      rw [if_neg (not_not.mpr hwidth), if_pos hlen, dif_pos (by rw [hroom]; exact hfits)] at hwrite
      exact ⟨_, _, hwrite, rfl, hfield, readLen_prefixBytes hwidth hlen⟩
    · rename_i hlong
      rw [if_neg hlong] at hwrite
      split at hwrite
      · exact ⟨_, hwrite⟩
      · exact ⟨_, hwrite⟩

/-- The length 5 in a prefix of three bytes is refused, although both constructors admit the
width and three bytes can hold it. -/
theorem threeByteFormat_loses : ∃ fmt, new 3 .big = .ok fmt ∧ tryNew 3 .big = .ok fmt ∧
    5 < 256 ^ fmt.bytes ∧
    fmt.writeLen 5 ⟨[], by decide⟩ =
      .ok (.error ⟨.invalidInput, "unsupported length prefix size"⟩, ⟨[], by decide⟩) ∧
    fmt.readLen [0, 0, 5] = .error ⟨.invalidInput, "unsupported length prefix size"⟩ ∧
    ¬ fmt.KeepsLength 5 ⟨[], by decide⟩ := by
  have hrefused : (⟨3, .big, by decide, by decide⟩ : LengthFormat).writeLen 5 ⟨[], by decide⟩ =
      .ok (.error ⟨.invalidInput, "unsupported length prefix size"⟩, ⟨[], by decide⟩) := rfl
  refine ⟨⟨3, .big, by decide, by decide⟩, rfl, rfl, by decide, hrefused, rfl, ?_⟩
  rintro ⟨hkeep, -⟩
  rw [if_pos (by decide)] at hkeep
  obtain ⟨dst', field, hok, -⟩ := hkeep
  rw [hrefused] at hok
  cases hok

end LengthFormat

end Wireframe
