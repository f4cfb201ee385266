/-
# Round trips of the RESP codec

`Wire` says which bytes the encoder writes for a frame, and `Representable` which frames the
protocol can carry: a text with a line break in it ends early on the wire, and an array with more
elements than the parser admits is written but not read.

* `decode_encode_iff`: a frame that was written is read back exactly when it is representable.
* `relay`: the frames of any stream can be written again, within the same limit and in no more bytes
  than they came in, and are then read as the same frames.
* `encode_all_or_nothing`: the encoder writes the whole frame, as long as it was measured, or
  leaves the buffer alone.
* `readChunks_eq_readAll`: no way of cutting a stream changes what is read.
-/
import Mathlib.Tactic
import Wireframe.RespCodec

namespace Wireframe

namespace Resp

open DecimalText (format formatInt parseInt)
open GrowingBuffer (Answer writeAll readChunks readAll)

/-! ## Frames and their bytes -/

mutual

/-- The bytes of a frame with so many levels of nesting to spare. -/
inductive Wire : ℕ → RespFrame → List Byte → Prop where
  | simpleString {levels : ℕ} (text : String) :
      Wire (levels + 1) (.simpleString text) (ascii '+' :: (utf8Bytes text ++ crlf))
  | error {levels : ℕ} (text : String) :
      Wire (levels + 1) (.error text) (ascii '-' :: (utf8Bytes text ++ crlf))
  | integer {levels : ℕ} (value : Int64) :
      Wire (levels + 1) (.integer value) (ascii ':' :: (formatInt value.toInt ++ crlf))
  | nullBulk {levels : ℕ} :
      Wire (levels + 1) (.bulkString none) (ascii '$' :: (formatInt (-1) ++ crlf))
  | bulkString {levels : ℕ} (data : List Byte) :
      Wire (levels + 1) (.bulkString (some data))
        (ascii '$' :: (formatInt data.length ++ (crlf ++ (data ++ crlf))))
  | nullArray {levels : ℕ} :
      Wire (levels + 1) (.array none) (ascii '*' :: (formatInt (-1) ++ crlf))
  | array {levels : ℕ} {items : List RespFrame} {bytes : List Byte}
      (h : Wires levels items bytes) :
      Wire (levels + 1) (.array (some items))
        (ascii '*' :: (formatInt items.length ++ (crlf ++ bytes)))

/-- The bytes of frames in a row. -/
inductive Wires : ℕ → List RespFrame → List Byte → Prop where
  | nil {levels : ℕ} : Wires levels [] []
  | cons {levels : ℕ} {item : RespFrame} {items : List RespFrame} {wire bytes : List Byte}
      (hitem : Wire levels item wire) (hitems : Wires levels items bytes) :
      Wires levels (item :: items) (wire ++ bytes)

end

/-- The frames that RESP can carry.  A vector holds at most `isize::MAX` bytes. -/
inductive Representable : RespFrame → Prop where
  | simpleString {text : String} (h : ¬ crlf <:+: utf8Bytes text) :
      Representable (.simpleString text)
  | error {text : String} (h : ¬ crlf <:+: utf8Bytes text) : Representable (.error text)
  | integer (value : Int64) : Representable (.integer value)
  | nullBulk : Representable (.bulkString none)
  | bulkString {data : List Byte} (h : data.length ≤ isizeMax) :
      Representable (.bulkString (some data))
  | nullArray : Representable (.array none)
  | array {items : List RespFrame} (hlength : items.length ≤ maxArrayElements)
      (h : ∀ item ∈ items, Representable item) : Representable (.array (some items))

/-! ## Writing -/

theorem format_eq_formatInt (n : ℕ) : format n = formatInt n := by
  rw [formatInt, if_neg (by omega), Int.natAbs_natCast]

section Writing

variable {levels : ℕ} {frame : RespFrame} {items : List RespFrame} {wire bytes : List Byte}

theorem Wires.writeAll_eq
    (hencode : ∀ {item wire}, Wire levels item wire → ∀ dst,
      encodeFrameAt levels item dst = (.ok (), dst ++ wire))
    (h : Wires levels items bytes) (dst : List Byte) :
    writeAll (encodeFrameAt levels) items dst = (.ok (), dst ++ bytes) := by
  induction items generalizing bytes dst with
  | nil =>
    cases h
    rw [List.append_nil]
    rfl
  | cons item items ih =>
    cases h with
    | cons hitem hitems =>
      rw [writeAll, hencode hitem]
      simp only [ih hitems, List.append_assoc]

/-- The encoder writes the bytes of the frame. -/
theorem Wire.encodeFrameAt_eq (h : Wire levels frame wire) (dst : List Byte) :
    encodeFrameAt levels frame dst = (.ok (), dst ++ wire) := by
  induction levels generalizing frame wire dst with
  | zero => cases h
  | succ levels ih =>
    cases h with
    | simpleString text | error text | integer value | nullBulk | nullArray => rfl
    | bulkString data => rw [encodeFrameAt, format_eq_formatInt]
    | array h =>
      rw [encodeFrameAt, h.writeAll_eq fun hitem => ih hitem, format_eq_formatInt]
      simp only [List.append_assoc, List.cons_append]

/-! ### Lengths -/

theorem addLen_eq_ok {lhs rhs sum : ℕ} :
    addLen lhs rhs = .ok sum ↔ lhs + rhs ≤ usizeMax ∧ sum = lhs + rhs := by
  rw [addLen, ← checkedAdd_eq_some_iff]
  cases checkedAdd lhs rhs <;> simp

theorem bind_eq_ok {α β : Type} {x : Except StdIoError α} {f : α → Except StdIoError β} {b : β} :
    x >>= f = .ok b ↔ ∃ a, x = .ok a ∧ f a = .ok b := by
  cases x with
  | error err =>
    constructor
    · intro h
      cases h
    · rintro ⟨_, h, -⟩
      cases h
  | ok a =>
    constructor
    · intro h
      exact ⟨a, rfl, h⟩
    · rintro ⟨_, h, hb⟩
      cases h
      exact hb

theorem digitsLenUsize_eq (n : ℕ) : digitsLenUsize n = (formatInt n).length := by
  have h := DecimalText.countDigits_eq n 1
  rw [digitsLenUsize, ← format_eq_formatInt]
  omega

theorem digitsLenI64_eq (value : Int64) : digitsLenI64 value = (formatInt value.toInt).length := by
  have h := DecimalText.countDigits_eq value.toInt.natAbs 1
  simp only [digitsLenI64, formatInt]
  split_ifs
  · rw [List.length_cons]
    omega
  · omega

theorem length_line (kind : Byte) (line : List Byte) :
    (kind :: (line ++ crlf)).length = line.length + 3 := by
  rw [List.length_cons, List.length_append]
  rfl

/-- A line with its first byte and its end is measured, and what follows it next. -/
theorem lineLen_bind_eq_ok {n total : ℕ} {f : ℕ → Except StdIoError ℕ} :
    (do let head ← addLen 1 (← addLen n 2)
        f head) = .ok total ↔ n + 3 ≤ usizeMax ∧ f (n + 3) = .ok total := by
  simp only [bind_eq_ok, addLen_eq_ok]
  constructor
  · rintro ⟨_, ⟨-, rfl⟩, _, ⟨hle, rfl⟩, hf⟩
    rw [show 1 + (n + 2) = n + 3 by omega] at hle hf
    exact ⟨hle, hf⟩
  · rintro ⟨hle, hf⟩
    exact ⟨n + 2, ⟨by omega, rfl⟩, n + 3, ⟨by omega, by omega⟩, hf⟩

theorem lineLen_eq_ok {n total : ℕ} :
    (do addLen 1 (← addLen n 2)) = .ok total ↔ total ≤ usizeMax ∧ total = n + 3 := by
  rw [← bind_pure (addLen n 2 >>= fun len => addLen 1 len), bind_assoc, lineLen_bind_eq_ok]
  constructor
  · rintro ⟨hle, h⟩
    cases h
    exact ⟨hle, rfl⟩
  · rintro ⟨hle, rfl⟩
    exact ⟨hle, rfl⟩

/-- A frame whose bytes are known has their length. -/
theorem exists_wire_iff {n : ℕ} {wire₀ : List Byte}
    (h : ∀ {wire}, Wire levels frame wire → wire = wire₀) (h₀ : Wire levels frame wire₀) :
    (∃ wire, Wire levels frame wire ∧ wire.length = n) ↔ n = wire₀.length := by
  constructor
  · rintro ⟨wire, hwire, rfl⟩
    rw [h hwire]
  · rintro rfl
    exact ⟨wire₀, h₀, rfl⟩

theorem nullLen_eq_ok {n : ℕ} :
    (.ok 5 : Except StdIoError ℕ) = .ok n ↔ n ≤ usizeMax ∧ n = (formatInt (-1)).length + 3 := by
  constructor
  · intro h
    cases h
    exact ⟨by decide, rfl⟩
  · rintro ⟨-, rfl⟩
    rfl

/-- The length of frames in a row, added up. -/
theorem foldlM_eq_ok {total sum : ℕ}
    (hlen : ∀ {item n}, encodedLenAt levels item = .ok n ↔
      n ≤ usizeMax ∧ ∃ wire, Wire levels item wire ∧ wire.length = n) :
    items.foldlM (fun total item => do addLen total (← encodedLenAt levels item)) total = .ok sum ∧
        total ≤ usizeMax ↔
      sum ≤ usizeMax ∧ ∃ bytes, Wires levels items bytes ∧ sum = total + bytes.length := by
  induction items generalizing total sum with
  | nil =>
    constructor
    · rintro ⟨h, hle⟩
      cases h
      exact ⟨hle, [], .nil, rfl⟩
    · rintro ⟨hle, bytes, h, rfl⟩
      cases h
      exact ⟨rfl, hle⟩
  | cons item items ih =>
    rw [List.foldlM_cons]
    constructor
    · rintro ⟨h, -⟩
      obtain ⟨total', hstep, hrest⟩ := bind_eq_ok.mp h
      obtain ⟨n, hitem, hadd⟩ := bind_eq_ok.mp hstep
      obtain ⟨-, wire, hwire, rfl⟩ := hlen.mp hitem
      obtain ⟨hle, rfl⟩ := addLen_eq_ok.mp hadd
      obtain ⟨hsum, bytes, hbytes, rfl⟩ := ih.mp ⟨hrest, hle⟩
      refine ⟨hsum, wire ++ bytes, .cons hwire hbytes, ?_⟩
      rw [List.length_append, Nat.add_assoc]
    · rintro ⟨hle, _, hbytes, rfl⟩
      cases hbytes with
      | cons hitem hitems =>
        rw [List.length_append, ← Nat.add_assoc] at hle ⊢
        obtain ⟨hrest, hnext⟩ := ih.mpr ⟨hle, _, hitems, rfl⟩
        have hstep := bind_eq_ok.mpr
          ⟨_, hlen.mpr ⟨by omega, _, hitem, rfl⟩, addLen_eq_ok.mpr ⟨hnext, rfl⟩⟩
        exact ⟨bind_eq_ok.mpr ⟨_, hstep, hrest⟩, by omega⟩

/-- **Measuring**: the encoder measures the bytes it writes. -/
theorem encodedLenAt_eq_ok {n : ℕ} : encodedLenAt levels frame = .ok n ↔
    n ≤ usizeMax ∧ ∃ wire, Wire levels frame wire ∧ wire.length = n := by
  induction levels generalizing frame n with
  | zero =>
    constructor
    · intro h
      cases h
    · rintro ⟨-, _, h, -⟩
      cases h
  | succ levels ih =>
    cases frame with
    | simpleString text =>
      rw [encodedLenAt, lineLen_eq_ok, exists_wire_iff (fun h => by cases h; rfl)
        (.simpleString text), length_line]
    | error text =>
      rw [encodedLenAt, lineLen_eq_ok, exists_wire_iff (fun h => by cases h; rfl)
        (.error text), length_line]
    | integer value =>
      rw [encodedLenAt, lineLen_eq_ok, exists_wire_iff (fun h => by cases h; rfl)
        (.integer value), length_line, digitsLenI64_eq]
    | bulkString data =>
      rcases data with _ | data
      · rw [encodedLenAt, exists_wire_iff (fun h => by cases h; rfl) .nullBulk, length_line,
          nullLen_eq_ok]
      · rw [encodedLenAt, lineLen_bind_eq_ok, bind_eq_ok, digitsLenUsize_eq,
          exists_wire_iff (fun h => by cases h; rfl) (.bulkString data)]
        simp only [addLen_eq_ok, List.length_cons, List.length_append,
          show crlf.length = 2 from rfl]
        constructor
        · rintro ⟨-, _, ⟨-, rfl⟩, hle, rfl⟩
          exact ⟨hle, by omega⟩
        · rintro ⟨hle, rfl⟩
          exact ⟨by omega, _, ⟨by omega, rfl⟩, by omega, by omega⟩
    | array items =>
      rcases items with _ | items
      · rw [encodedLenAt, exists_wire_iff (fun h => by cases h; rfl) .nullArray, length_line,
          nullLen_eq_ok]
      · have hlength : ∀ bytes : List Byte,
            (ascii '*' :: (formatInt items.length ++ (crlf ++ bytes))).length =
              (formatInt items.length).length + 3 + bytes.length := by
          intro bytes
          simp only [List.length_cons, List.length_append, show crlf.length = 2 from rfl]
          omega
        rw [encodedLenAt, lineLen_bind_eq_ok, and_comm, foldlM_eq_ok ih, digitsLenUsize_eq]
        constructor
        · rintro ⟨hle, bytes, hbytes, rfl⟩
          exact ⟨hle, _, .array hbytes, hlength bytes⟩
        · rintro ⟨hle, _, h, rfl⟩
          cases h with
          | array hbytes => exact ⟨hle, _, hbytes, hlength _⟩

/-! ### The encoder -/

/-- **All or nothing.**  For every frame and every buffer, the encoder appends the bytes of the
frame, exactly as many as it measured and within the limit, or refuses it and leaves the buffer as
it was. -/
theorem encode_all_or_nothing (maxFrameLength : ℕ) (frame : RespFrame) (dst : List Byte) :
    (∃ wire, encode maxFrameLength frame dst = (.ok (), dst ++ wire) ∧
      encodedLen frame = .ok wire.length ∧ wire.length ≤ maxFrameLength) ∨
    ∃ err, encode maxFrameLength frame dst = (.error err, dst) := by
  unfold encode
  rcases hlen : encodedLen frame with err | len
  · exact Or.inr ⟨err, rfl⟩
  · obtain ⟨-, wire, hwire, rfl⟩ := encodedLenAt_eq_ok.mp hlen
    simp only
    split_ifs with hlong
    · exact Or.inr ⟨_, rfl⟩
    · exact Or.inl ⟨wire, hwire.encodeFrameAt_eq dst, rfl, by omega⟩

/-- What the encoder accepts. -/
theorem encode_eq_ok_iff {maxFrameLength : ℕ} (hmax : maxFrameLength ≤ usizeMax)
    {dst dst' : List Byte} : encode maxFrameLength frame dst = (.ok (), dst') ↔
      ∃ wire, Wire allLevels frame wire ∧ wire.length ≤ maxFrameLength ∧ dst' = dst ++ wire := by
  unfold encode encodedLen
  constructor
  · intro h
    rcases hlen : encodedLenAt allLevels frame with err | len
    · rw [hlen] at h
      cases h
    · obtain ⟨-, wire, hwire, rfl⟩ := encodedLenAt_eq_ok.mp hlen
      simp only [hlen] at h
      split_ifs at h with hlong
      · cases h
      · rw [encodeFrame, hwire.encodeFrameAt_eq] at h
        exact ⟨wire, hwire, by omega, (Prod.mk.inj h).2.symm⟩
  · rintro ⟨wire, hwire, hle, rfl⟩
    rw [encodedLenAt_eq_ok.mpr ⟨hle.trans hmax, wire, hwire, rfl⟩]
    simp only
    rw [if_neg (by omega)]
    exact hwire.encodeFrameAt_eq dst

end Writing

/-! ## Reading what was written -/

section Complete

variable {buf line rest : List Byte} {start maxLen : ℕ} {kind : Byte}

/-- The byte at an offset, and what follows it. -/
theorem of_drop_eq_cons (h : buf.drop start = kind :: rest) :
    buf[start]? = some kind ∧ buf.drop (start + 1) = rest := by
  constructor
  · rw [← List.head?_drop, h]
    rfl
  · rw [← List.drop_drop, h]
    rfl

theorem parseLine_of_drop (h : buf.drop start = line ++ (crlf ++ rest)) (hline : ¬ crlf <:+: line)
    (hlen : line.length ≤ maxLen) :
    parseLine buf start maxLen = .ok (some (line, start + line.length + 2)) := by
  rw [parseLine, h, scanLine_append hline (by omega), Nat.zero_add, Answer.some_andThen,
    List.take_left]

theorem parseTextLine_of_drop {text errorMsg : String}
    (h : buf.drop start = kind :: (utf8Bytes text ++ (crlf ++ rest)))
    (htext : ¬ crlf <:+: utf8Bytes text) (hlen : (utf8Bytes text).length ≤ maxLen) :
    parseTextLine buf start maxLen errorMsg =
      .ok (some (text, start + (utf8Bytes text).length + 3)) := by
  rw [parseTextLine, parseLine_of_drop (of_drop_eq_cons h).2 htext hlen, Answer.some_andThen]
  simp only [fromUtf8_utf8Bytes]
  congr 3
  omega

/-- Bytes below 128 are a text. -/
theorem exists_utf8Bytes_eq {bytes : List Byte} (h : ∀ b ∈ bytes, b.toNat < 128) :
    ∃ text, utf8Bytes text = bytes := by
  have hchar : ∀ b ∈ bytes, String.utf8EncodeChar (Char.ofUInt8 b) = [b] := by
    intro b hb
    have hlt := h b hb
    have hval : (Char.ofUInt8 b).val.toNat = b.toNat := UInt8.toNat_toUInt32 b
    rw [String.utf8EncodeChar, hval, if_pos (by omega), UInt8.ofNat_toNat]
  refine ⟨String.ofList (bytes.map Char.ofUInt8), ?_⟩
  rw [utf8Bytes, String.toByteArray_ofList, List.utf8Encode, List.toList_data_toByteArray,
    List.flatMap_map, List.flatMap_congr hchar, List.flatMap_singleton']

/-- A decimal text has no line break in it. -/
theorem formatInt_isLine (z : ℤ) : ¬ crlf <:+: formatInt z := by
  intro h
  have hmem : cr ∈ formatInt z := h.subset (List.mem_cons_self)
  exact absurd (DecimalText.mem_formatInt hmem).1 (by decide)

theorem parseNumberLine_of_drop {z : ℤ} {errorMsg : String}
    (h : buf.drop start = kind :: (formatInt z ++ (crlf ++ rest))) (hlow : -2 ^ 63 ≤ z)
    (hhigh : z < 2 ^ 63) (hlen : (formatInt z).length ≤ maxLen) :
    parseNumberLine buf start maxLen errorMsg =
      .ok (some (Int64.ofInt z, start + (formatInt z).length + 3)) := by
  obtain ⟨text, htext⟩ : ∃ text, utf8Bytes text = formatInt z := by
    refine exists_utf8Bytes_eq fun b hb => ?_
    have := DecimalText.mem_formatInt hb
    omega
  have hline := formatInt_isLine z
  rw [← htext] at h hline hlen ⊢
  have hvalue : parseI64 text = some (Int64.ofInt z) := by
    rw [parseI64, htext, DecimalText.parseInt_formatInt, Option.bind_some, if_pos ⟨hlow, hhigh⟩]
  rw [parseNumberLine, parseTextLine_of_drop h hline hlen, Answer.some_andThen]
  simp only [hvalue]

/-- Offsets inside what a buffer holds from an offset on. -/
theorem drop_of_append {before after : List Byte} (h : buf.drop start = before ++ after) :
    buf.drop (start + before.length) = after := by
  rw [← List.drop_drop, h, List.drop_left]

theorem length_of_drop (h : buf.drop start = kind :: rest) :
    buf.length = start + rest.length + 1 := by
  have hlength := congrArg List.length h
  rw [List.length_drop, List.length_cons] at hlength
  omega

theorem decimalDigits_eq (n : ℕ) : decimalDigits n = (formatInt n).length := digitsLenUsize_eq n

/-- A payload behind its header. -/
theorem parseBulkPayload_of_drop {data : List Byte} {payloadStart maxFrameLength : ℕ}
    (h : buf.drop payloadStart = data ++ (crlf ++ rest))
    (hmax : (formatInt data.length).length + data.length + 5 ≤ maxFrameLength)
    (hfit : payloadStart + data.length + 2 ≤ usizeMax) :
    parseBulkPayload buf start payloadStart data.length maxFrameLength =
      .ok (some (.bulkString (some data), payloadStart + data.length + 2 - start)) := by
  have hcr : buf.drop (payloadStart + data.length) = cr :: lf :: rest := drop_of_append h
  obtain ⟨hfirst, hlf⟩ := of_drop_eq_cons hcr
  obtain ⟨hsecond, -⟩ := of_drop_eq_cons hlf
  have hlength := length_of_drop hcr
  rw [List.length_cons] at hlength
  have hterminator : validateBulkTerminator buf (payloadStart + data.length) = .ok () := by
    rw [validateBulkTerminator, hfirst, hsecond]
    rfl
  simp only [parseBulkPayload]
  rw [decimalDigits_eq, if_neg (by omega), bulkStop_eq_some.mpr ⟨hfit, rfl⟩]
  simp only
  rw [if_neg (by omega), hterminator, h, List.take_left]

/-! ### The kinds of frames -/

section Kinds

variable {maxFrameLength : ℕ}

theorem consumed_eq (start n : ℕ) : start + n + 3 - start = n + 3 := by omega

theorem parseTextFrame_of_drop {text errorMsg : String} {constructor : String → RespFrame}
    (h : buf.drop start = kind :: (utf8Bytes text ++ (crlf ++ rest)))
    (htext : ¬ crlf <:+: utf8Bytes text) (hmax : (utf8Bytes text).length + 3 ≤ maxFrameLength) :
    parseTextFrame buf start maxFrameLength errorMsg constructor =
      .ok (some (constructor text, (utf8Bytes text).length + 3)) := by
  rw [parseTextFrame, parseTextLine_of_drop h htext (by omega), Answer.some_andThen]
  simp only [consumed_eq]

theorem parseInteger_of_drop {value : Int64}
    (h : buf.drop start = kind :: (formatInt value.toInt ++ (crlf ++ rest)))
    (hmax : (formatInt value.toInt).length + 3 ≤ maxFrameLength) :
    parseInteger buf start maxFrameLength =
      .ok (some (.integer value, (formatInt value.toInt).length + 3)) := by
  rw [parseInteger, parseNumberLine_of_drop h value.le_toInt value.toInt_lt (by omega),
    Answer.some_andThen, Int64.ofInt_toInt]
  simp only [consumed_eq]

theorem toInt_ofInt_neg_one : (Int64.ofInt (-1)).toInt = -1 := by decide

theorem parseBulkString_null_of_drop
    (h : buf.drop start = kind :: (formatInt (-1) ++ (crlf ++ rest)))
    (hmax : (formatInt (-1)).length + 3 ≤ maxFrameLength) :
    parseBulkString buf start maxFrameLength =
      .ok (some (.bulkString none, (formatInt (-1)).length + 3)) := by
  rw [parseBulkString, parseBulkLength, parseNumberLine_of_drop h (by decide) (by decide) (by omega),
    Answer.some_andThen]
  simp only [toInt_ofInt_neg_one]
  rw [if_neg (by decide), if_pos trivial, Answer.some_andThen]
  simp only [consumed_eq]

theorem parseArray_null_of_drop {element : ℕ → Answer StdIoError (RespFrame × ℕ)}
    (h : buf.drop start = kind :: (formatInt (-1) ++ (crlf ++ rest)))
    (hmax : (formatInt (-1)).length + 3 ≤ maxFrameLength) :
    parseArray element buf start maxFrameLength =
      .ok (some (.array none, (formatInt (-1)).length + 3)) := by
  rw [parseArray, parseNumberLine_of_drop h (by decide) (by decide) (by omega), Answer.some_andThen]
  simp only [toInt_ofInt_neg_one]
  rw [if_pos trivial]
  simp only [consumed_eq]

/-- What follows the first line of a frame. -/
theorem drop_behind_line {after : List Byte} (h : buf.drop start = kind :: (line ++ (crlf ++ after))) :
    buf.drop (start + line.length + 3) = after := by
  have hline : buf.drop start = (kind :: (line ++ crlf)) ++ after := by
    rw [h, List.cons_append, List.append_assoc]
  have hbehind := drop_of_append hline
  rwa [length_line, ← Nat.add_assoc] at hbehind

/-- A bulk string is parsed behind its length line. -/
theorem parseBulkString_of_drop {data : List Byte} (hdata : data.length ≤ isizeMax)
    (h : buf.drop start = kind :: (formatInt data.length ++ (crlf ++ (data ++ (crlf ++ rest)))))
    (hmax : (formatInt data.length).length + data.length + 5 ≤ maxFrameLength)
    (hfit : start + (formatInt data.length).length + data.length + 5 ≤ usizeMax) :
    parseBulkString buf start maxFrameLength =
      .ok (some (.bulkString (some data), (formatInt data.length).length + data.length + 5)) := by
  have hhigh : (data.length : ℤ) < 2 ^ 63 := by
    unfold isizeMax at hdata
    omega
  have hvalue : (Int64.ofInt data.length).toInt = data.length :=
    Int64.toInt_ofInt_of_le (by omega) hhigh
  rw [parseBulkString, parseBulkLength, parseNumberLine_of_drop h (by omega) hhigh (by omega),
    Answer.some_andThen]
  simp only [hvalue]
  rw [if_neg (by omega), if_neg (by omega), Answer.some_andThen]
  simp only [Int.toNat_natCast]
  rw [parseBulkPayload_of_drop (drop_behind_line h) hmax (by omega)]
  congr 3
  omega

/-- An array whose elements are read. -/
theorem parseArray_of_drop {element : ℕ → Answer StdIoError (RespFrame × ℕ)}
    {items : List RespFrame} {bytes : List Byte} (hcount : items.length ≤ maxArrayElements)
    (h : buf.drop start = kind :: (formatInt items.length ++ (crlf ++ (bytes ++ rest))))
    (hmax : (formatInt items.length).length + 3 + bytes.length ≤ maxFrameLength)
    (helements : parseElements element items.length (start + (formatInt items.length).length + 3) =
      .ok (some (items, start + (formatInt items.length).length + 3 + bytes.length))) :
    parseArray element buf start maxFrameLength =
      .ok (some (.array (some items), (formatInt items.length).length + 3 + bytes.length)) := by
  have hsmall : items.length ≤ 1024 := hcount
  have hvalue : (Int64.ofInt items.length).toInt = items.length :=
    Int64.toInt_ofInt_of_le (by omega) (by omega)
  rw [parseArray, parseNumberLine_of_drop h (by omega) (by omega) (by omega), Answer.some_andThen]
  simp only [hvalue, Int.toNat_natCast]
  rw [if_neg (by omega), if_neg (by omega), if_neg (by omega), helements, Answer.some_andThen]
  simp only
  rw [if_neg (by omega)]
  congr 3
  omega

end Kinds

/-! ### All of them -/

section Frames

variable {levels cursor maxFrameLength : ℕ} {frame : RespFrame} {items : List RespFrame}
  {wire bytes : List Byte}

/-- Elements in a row, each read as it was written. -/
theorem Wires.parseElements_eq {element : ℕ → Answer StdIoError (RespFrame × ℕ)}
    (helement : ∀ {item wire cursor rest}, Wire levels item wire → Representable item →
      buf.drop cursor = wire ++ rest → wire.length ≤ maxFrameLength →
      cursor + wire.length ≤ usizeMax → element cursor = .ok (some (item, wire.length)))
    (h : Wires levels items bytes) (hitems : ∀ item ∈ items, Representable item)
    (hdrop : buf.drop cursor = bytes ++ rest) (hmax : bytes.length ≤ maxFrameLength)
    (hfit : cursor + bytes.length ≤ usizeMax) :
    parseElements element items.length cursor = .ok (some (items, cursor + bytes.length)) := by
  induction items generalizing cursor bytes with
  | nil =>
    cases h
    rfl
  | cons item items ih =>
    cases h with
    | @cons _ _ _ wire bytes hitem hrest =>
      rw [List.length_append] at hmax hfit
      rw [List.append_assoc] at hdrop
      have hfirst := helement hitem (hitems item List.mem_cons_self) hdrop (by omega) (by omega)
      have hothers := ih hrest (fun item hmem => hitems item (List.mem_cons_of_mem _ hmem))
        (drop_of_append hdrop) (by omega) (by omega)
      rw [List.length_cons, parseElements, hfirst, Answer.some_andThen]
      simp only [hothers, Answer.some_andThen, List.length_append, Nat.add_assoc]

/-- The first byte says what kind of frame it is. -/
theorem parseFrameAt_of_drop (h : buf.drop start = kind :: rest) :
    parseFrameAt (levels + 1) buf start maxFrameLength =
      if kind = ascii '+' then parseSimpleString buf start maxFrameLength
      else if kind = ascii '-' then parseError buf start maxFrameLength
      else if kind = ascii ':' then parseInteger buf start maxFrameLength
      else if kind = ascii '$' then parseBulkString buf start maxFrameLength
      else if kind = ascii '*' then
        parseArray (fun cursor => parseFrameAt levels buf cursor maxFrameLength) buf start
          maxFrameLength
      else .error (invalidData "unsupported RESP prefix") := by
  rw [parseFrameAt, (of_drop_eq_cons h).1]

/-- **What was written is read.** -/
theorem Wire.parseFrameAt_eq (h : Wire levels frame wire) (hframe : Representable frame)
    (hdrop : buf.drop start = wire ++ rest) (hmax : wire.length ≤ maxFrameLength)
    (hfit : start + wire.length ≤ usizeMax) :
    parseFrameAt levels buf start maxFrameLength = .ok (some (frame, wire.length)) := by
  induction levels generalizing frame wire start rest with
  | zero => cases h
  | succ levels ih =>
    cases h with
    | simpleString text =>
      cases hframe with
      | simpleString htext =>
        rw [length_line] at hmax ⊢
        rw [List.cons_append, List.append_assoc] at hdrop
        rw [parseFrameAt_of_drop hdrop, if_pos rfl]
        exact parseTextFrame_of_drop hdrop htext hmax
    | error text =>
      cases hframe with
      | error htext =>
        rw [length_line] at hmax ⊢
        rw [List.cons_append, List.append_assoc] at hdrop
        rw [parseFrameAt_of_drop hdrop, if_neg (by decide), if_pos rfl]
        exact parseTextFrame_of_drop hdrop htext hmax
    | integer value =>
      rw [length_line] at hmax ⊢
      rw [List.cons_append, List.append_assoc] at hdrop
      rw [parseFrameAt_of_drop hdrop, if_neg (by decide), if_neg (by decide), if_pos rfl]
      exact parseInteger_of_drop hdrop hmax
    | nullBulk =>
      rw [length_line] at hmax ⊢
      rw [List.cons_append, List.append_assoc] at hdrop
      rw [parseFrameAt_of_drop hdrop, if_neg (by decide), if_neg (by decide), if_neg (by decide),
        if_pos rfl]
      exact parseBulkString_null_of_drop hdrop hmax
    | bulkString data =>
      cases hframe with
      | bulkString hdata =>
        have hlength : (ascii '$' :: (formatInt data.length ++
            (crlf ++ (data ++ crlf)))).length =
              (formatInt data.length).length + data.length + 5 := by
          simp only [List.length_cons, List.length_append, show crlf.length = 2 from rfl]
          omega
        rw [hlength] at hmax hfit ⊢
        simp only [List.cons_append, List.append_assoc] at hdrop
        rw [parseFrameAt_of_drop hdrop, if_neg (by decide), if_neg (by decide),
          if_neg (by decide), if_pos rfl]
        exact parseBulkString_of_drop hdata hdrop hmax (by omega)
    | nullArray =>
      rw [length_line] at hmax ⊢
      rw [List.cons_append, List.append_assoc] at hdrop
      rw [parseFrameAt_of_drop hdrop, if_neg (by decide), if_neg (by decide), if_neg (by decide),
        if_neg (by decide), if_pos rfl]
      exact parseArray_null_of_drop hdrop hmax
    | @array _ items bytes hbytes =>
      cases hframe with
      | array hcount hitems =>
        have hlength : (ascii '*' :: (formatInt items.length ++ (crlf ++ bytes))).length =
            (formatInt items.length).length + 3 + bytes.length := by
          simp only [List.length_cons, List.length_append, show crlf.length = 2 from rfl]
          omega
        rw [hlength] at hmax hfit ⊢
        simp only [List.cons_append, List.append_assoc] at hdrop
        -- the elements are read one level further down
        have helements := hbytes.parseElements_eq (fun hitem hrep hdrop hmax hfit =>
          ih hitem hrep hdrop hmax hfit) hitems (drop_behind_line hdrop) (by omega) (by omega)
        rw [parseFrameAt_of_drop hdrop, if_neg (by decide), if_neg (by decide),
          if_neg (by decide), if_neg (by decide), if_pos rfl]
        exact parseArray_of_drop hcount hdrop hmax helements

end Frames

end Complete

/-! ## What is accepted -/

/-- What a frame that was parsed is like: RESP can carry it, and it came in at least as many bytes,
all of them in the buffer, as it takes to write it. -/
structure Accepted (levels : ℕ) (buf : List Byte) (start : ℕ) (frame : RespFrame) (consumed : ℕ) :
    Prop where
  representable : Representable frame
  wire : ∃ wire, Wire levels frame wire ∧ wire.length ≤ consumed
  bounded : start + consumed ≤ buf.length

section Sound

variable {levels start next consumed maxFrameLength : ℕ} {buf line : List Byte} {frame : RespFrame}
  {errorMsg : String}

theorem parseLine_eq_some (h : parseLine buf start maxFrameLength = .ok (some (line, next))) :
    ¬ crlf <:+: line ∧ next = start + line.length + 2 ∧ next ≤ buf.length := by
  obtain ⟨length, hscan, hline⟩ := Answer.andThen_eq_some h
  obtain ⟨line', rest, hdrop, rfl, hnot⟩ := scanLine_eq_some hscan
  rw [hdrop, Nat.zero_add, List.take_left] at hline
  obtain ⟨rfl, rfl⟩ := Prod.mk.inj (Option.some.inj (Except.ok.inj hline))
  refine ⟨hnot, rfl, ?_⟩
  have hlength := congrArg List.length hdrop
  simp only [List.length_drop, List.length_append, show crlf.length = 2 from rfl] at hlength
  omega

theorem parseTextLine_eq_some {text : String}
    (h : parseTextLine buf start maxFrameLength errorMsg = .ok (some (text, next))) :
    ¬ crlf <:+: utf8Bytes text ∧ next = start + (utf8Bytes text).length + 3 ∧
      next ≤ buf.length := by
  obtain ⟨⟨line, next'⟩, hparse, htext⟩ := Answer.andThen_eq_some h
  obtain ⟨hline, hnext, hle⟩ := parseLine_eq_some hparse
  rcases hutf8 : fromUtf8 line with _ | text'
  · simp only [hutf8] at htext
    cases htext
  · simp only [hutf8] at htext
    obtain ⟨rfl, rfl⟩ := Prod.mk.inj (Option.some.inj (Except.ok.inj htext))
    rw [utf8Bytes_of_fromUtf8 hutf8]
    exact ⟨hline, by omega, hle⟩

/-- A number may be written longer than it has to be. -/
theorem parseNumberLine_eq_some {value : Int64}
    (h : parseNumberLine buf start maxFrameLength errorMsg = .ok (some (value, next))) :
    start + (formatInt value.toInt).length + 3 ≤ next ∧ next ≤ buf.length := by
  obtain ⟨⟨text, next'⟩, hparse, hvalue⟩ := Answer.andThen_eq_some h
  obtain ⟨-, hnext, hle⟩ := parseTextLine_eq_some hparse
  rcases hi64 : parseI64 text with _ | value'
  · simp only [hi64] at hvalue
    cases hvalue
  · simp only [hi64] at hvalue
    obtain ⟨rfl, rfl⟩ := Prod.mk.inj (Option.some.inj (Except.ok.inj hvalue))
    obtain ⟨z, hz, hrange⟩ := Option.bind_eq_some_iff.mp hi64
    split_ifs at hrange with hin
    cases hrange
    have hlength := DecimalText.length_formatInt_le hz
    rw [Int64.toInt_ofInt_of_le hin.1 hin.2]
    exact ⟨by omega, hle⟩

theorem parseTextFrame_accepted {constructor : String → RespFrame}
    (hrep : ∀ {text}, ¬ crlf <:+: utf8Bytes text → Representable (constructor text))
    (hwire : ∀ text, ∃ kind, Wire levels (constructor text) (kind :: (utf8Bytes text ++ crlf)))
    (h : parseTextFrame buf start maxFrameLength errorMsg constructor =
      .ok (some (frame, consumed))) : Accepted levels buf start frame consumed := by
  obtain ⟨⟨text, next⟩, hparse, hframe⟩ := Answer.andThen_eq_some h
  obtain ⟨htext, rfl, hle⟩ := parseTextLine_eq_some hparse
  obtain ⟨rfl, rfl⟩ := Prod.mk.inj (Option.some.inj (Except.ok.inj hframe))
  obtain ⟨kind, hkind⟩ := hwire text
  refine ⟨hrep htext, ⟨_, hkind, ?_⟩, by omega⟩
  rw [length_line]
  omega

theorem parseInteger_accepted
    (h : parseInteger buf start maxFrameLength = .ok (some (frame, consumed))) :
    Accepted (levels + 1) buf start frame consumed := by
  obtain ⟨⟨value, next⟩, hparse, hframe⟩ := Answer.andThen_eq_some h
  obtain ⟨hnext, hle⟩ := parseNumberLine_eq_some hparse
  obtain ⟨rfl, rfl⟩ := Prod.mk.inj (Option.some.inj (Except.ok.inj hframe))
  refine ⟨.integer value, ⟨_, .integer value, ?_⟩, by omega⟩
  rw [length_line]
  omega

/-- A payload is accepted with its length line and its `CRLF`. -/
theorem parseBulkPayload_accepted {len payloadStart : ℕ} (hlen : len ≤ isizeMax)
    (hstart : start + (formatInt len).length + 3 ≤ payloadStart)
    (h : parseBulkPayload buf start payloadStart len maxFrameLength =
      .ok (some (frame, consumed))) : Accepted (levels + 1) buf start frame consumed := by
  simp only [parseBulkPayload] at h
  split_ifs at h with hsize
  rcases hstop : (checkedAdd payloadStart len).bind (checkedAdd · 2) with _ | stop
  · rw [hstop] at h
    cases h
  obtain ⟨-, rfl⟩ := bulkStop_eq_some.mp hstop
  simp only [hstop] at h
  split_ifs at h with hshort
  · cases h
  rcases hvalid : validateBulkTerminator buf (payloadStart + len) with err | _
  · rw [hvalid] at h
    cases h
  rw [hvalid] at h
  obtain ⟨rfl, rfl⟩ := Prod.mk.inj (Option.some.inj (Except.ok.inj h))
  have hdata : ((buf.drop payloadStart).take len).length = len := by
    rw [List.length_take, List.length_drop]
    omega
  refine ⟨.bulkString (by rw [hdata]; exact hlen), ⟨_, .bulkString _, ?_⟩, by omega⟩
  simp only [List.length_cons, List.length_append, show crlf.length = 2 from rfl, hdata]
  omega

/-- A bulk string is accepted, null or with a payload. -/
theorem parseBulkString_accepted
    (h : parseBulkString buf start maxFrameLength = .ok (some (frame, consumed))) :
    Accepted (levels + 1) buf start frame consumed := by
  obtain ⟨⟨length, next⟩, hparse, hframe⟩ := Answer.andThen_eq_some h
  obtain ⟨⟨value, next'⟩, hnumber, hlength⟩ := Answer.andThen_eq_some hparse
  obtain ⟨hnext, hle⟩ := parseNumberLine_eq_some hnumber
  simp only at hlength
  split_ifs at hlength with hnegative hnull
  · obtain ⟨rfl, rfl⟩ := Prod.mk.inj (Option.some.inj (Except.ok.inj hlength))
    obtain ⟨rfl, rfl⟩ := Prod.mk.inj (Option.some.inj (Except.ok.inj hframe))
    rw [hnull] at hnext
    refine ⟨.nullBulk, ⟨_, .nullBulk, ?_⟩, by omega⟩
    rw [length_line]
    omega
  · obtain ⟨rfl, rfl⟩ := Prod.mk.inj (Option.some.inj (Except.ok.inj hlength))
    have hvalue : (value.toInt.toNat : ℤ) = value.toInt := Int.toNat_of_nonneg (by omega)
    refine parseBulkPayload_accepted ?_ ?_ hframe
    · have hlt := value.toInt_lt
      unfold isizeMax
      omega
    · rw [hvalue]
      exact hnext

/-- The elements of an array are accepted one behind the other. -/
theorem parseElements_accepted {element : ℕ → Answer StdIoError (RespFrame × ℕ)} {count cursor : ℕ}
    {frames : List RespFrame}
    (helement : ∀ {cursor frame consumed}, element cursor = .ok (some (frame, consumed)) →
      Accepted levels buf cursor frame consumed)
    (h : parseElements element count cursor = .ok (some (frames, next)))
    (hcursor : cursor ≤ buf.length) :
    frames.length = count ∧ (∀ frame ∈ frames, Representable frame) ∧ next ≤ buf.length ∧
      ∃ bytes, Wires levels frames bytes ∧ cursor + bytes.length ≤ next := by
  induction count generalizing cursor frames with
  | zero =>
    obtain ⟨rfl, rfl⟩ := Prod.mk.inj (Option.some.inj (Except.ok.inj h))
    exact ⟨rfl, by simp, hcursor, [], .nil, le_rfl⟩
  | succ count ih =>
    obtain ⟨⟨first, consumed⟩, hfirst, hrest⟩ := Answer.andThen_eq_some h
    obtain ⟨⟨others, next'⟩, hothers, hframes⟩ := Answer.andThen_eq_some hrest
    obtain ⟨rfl, rfl⟩ := Prod.mk.inj (Option.some.inj (Except.ok.inj hframes))
    obtain ⟨hrep, ⟨wire, hwire, hlength⟩, hbounded⟩ := helement hfirst
    obtain ⟨rfl, hreps, hnext, bytes, hbytes, hle⟩ := ih hothers hbounded
    refine ⟨rfl, ?_, hnext, wire ++ bytes, .cons hwire hbytes, ?_⟩
    · intro frame hframe
      rcases List.mem_cons.mp hframe with rfl | hframe
      · exact hrep
      · exact hreps frame hframe
    · rw [List.length_append]
      omega

/-- An array is accepted, null or with its elements. -/
theorem parseArray_accepted {element : ℕ → Answer StdIoError (RespFrame × ℕ)}
    (helement : ∀ {cursor frame consumed}, element cursor = .ok (some (frame, consumed)) →
      Accepted levels buf cursor frame consumed)
    (h : parseArray element buf start maxFrameLength = .ok (some (frame, consumed))) :
    Accepted (levels + 1) buf start frame consumed := by
  obtain ⟨⟨count, cursor⟩, hnumber, hframe⟩ := Answer.andThen_eq_some h
  obtain ⟨hcursor, hle⟩ := parseNumberLine_eq_some hnumber
  simp only at hframe
  split_ifs at hframe with hnull hnegative hlimit
  · obtain ⟨rfl, rfl⟩ := Prod.mk.inj (Option.some.inj (Except.ok.inj hframe))
    rw [hnull] at hcursor
    refine ⟨.nullArray, ⟨_, .nullArray, ?_⟩, by omega⟩
    rw [length_line]
    omega
  · obtain ⟨⟨frames, next⟩, helements, hframe⟩ := Answer.andThen_eq_some hframe
    obtain ⟨hcount, hreps, hnext, bytes, hbytes, hbytesLe⟩ :=
      parseElements_accepted helement helements hle
    simp only at hframe
    split_ifs at hframe
    obtain ⟨rfl, rfl⟩ := Prod.mk.inj (Option.some.inj (Except.ok.inj hframe))
    have hvalue : (frames.length : ℤ) = count.toInt := by
      rw [hcount]
      exact Int.toNat_of_nonneg (by omega)
    refine ⟨.array (by omega) hreps, ⟨_, .array hbytes, ?_⟩, by omega⟩
    rw [← hvalue] at hcursor
    simp only [List.length_cons, List.length_append, show crlf.length = 2 from rfl]
    omega

/-- **What the parser accepts** RESP can carry, and the encoder can write it in no more bytes. -/
theorem parseFrameAt_accepted
    (h : parseFrameAt levels buf start maxFrameLength = .ok (some (frame, consumed))) :
    Accepted levels buf start frame consumed := by
  induction levels generalizing start frame consumed with
  | zero => cases h
  | succ levels ih =>
    rw [parseFrameAt] at h
    rcases hkind : buf[start]? with _ | kind
    · rw [hkind] at h
      cases h
    · simp only [hkind] at h
      split_ifs at h
      · exact parseTextFrame_accepted .simpleString (fun text => ⟨_, .simpleString text⟩) h
      · exact parseTextFrame_accepted .error (fun text => ⟨_, .error text⟩) h
      · exact parseInteger_accepted h
      · exact parseBulkString_accepted h
      · exact parseArray_accepted (fun hcursor => ih hcursor) h

end Sound

/-! ## The codec -/

section Codec

variable {maxFrameLength : ℕ} {frame : RespFrame} {src rest wire : List Byte}

theorem Wire.length_pos {levels : ℕ} (h : Wire levels frame wire) : 0 < wire.length := by
  cases h <;> exact Nat.succ_pos _

/-- A frame that is decoded was parsed off the front of the buffer, within the limit. -/
theorem decode_eq_some (h : decode maxFrameLength src = (.ok (some frame), rest)) :
    ∃ consumed, parseFrame src maxFrameLength = .ok (some (frame, consumed)) ∧
      consumed ≤ maxFrameLength ∧ rest = src.drop consumed ∧ consumed ≤ src.length ∧
      Accepted allLevels src 0 frame consumed := by
  unfold decode at h
  rcases hparse : parseFrame src maxFrameLength with err | _ | ⟨frame', consumed⟩
  · rw [hparse] at h
    cases h
  · rw [hparse] at h
    cases h
  · simp only [hparse] at h
    split_ifs at h with hlong
    · cases h
    · obtain ⟨hframe, rfl⟩ := Prod.mk.inj h
      obtain rfl := Option.some.inj (Except.ok.inj hframe)
      have haccepted := parseFrameAt_accepted hparse
      have hbounded := haccepted.bounded
      exact ⟨consumed, rfl, by omega, rfl, by omega, haccepted⟩

/-- **The decoder is incremental.** -/
theorem incremental (maxFrameLength : ℕ) : GrowingBuffer.Incremental (decode maxFrameLength) where
  empty := rfl
  frame := by
    intro buf frame rest h
    obtain ⟨consumed, hparse, hmax, rfl, hle, haccepted⟩ := decode_eq_some h
    obtain ⟨wire, hwire, hlength⟩ := haccepted.wire
    have hpos := hwire.length_pos
    refine ⟨by rw [List.length_drop]; omega, fun more => ?_⟩
    have hmore : parseFrame (buf ++ more) maxFrameLength = .ok (some (frame, consumed)) := by
      rw [← hparse]
      exact parseFrameAt_extends buf more 0 maxFrameLength allLevels (by
        rw [show parseFrameAt allLevels buf 0 maxFrameLength = parseFrame buf maxFrameLength from rfl,
          hparse]
        simp)
    rw [decode, hmore]
    simp only
    rw [if_neg (by omega), List.drop_append_of_le_length hle]
  waiting := by
    intro buf rest h
    unfold decode at h
    rcases hparse : parseFrame buf maxFrameLength with err | _ | ⟨frame, consumed⟩
    · rw [hparse] at h
      cases h
    · rw [hparse] at h
      exact (Prod.mk.inj h).2.symm
    · simp only [hparse] at h
      split_ifs at h
      · cases h
      · cases h
  failed := by
    intro buf err rest h more
    have hextends := parseFrameAt_extends buf more 0 maxFrameLength allLevels
    unfold decode at h ⊢
    unfold parseFrame at h ⊢
    rcases hparse : parseFrameAt allLevels buf 0 maxFrameLength with err' | _ | ⟨frame, consumed⟩
    · rw [hextends (by rw [hparse]; simp), hparse]
      rw [hparse] at h
      exact (Prod.mk.inj h).1
    · rw [hparse] at h
      cases h
    · rw [hextends (by rw [hparse]; simp), hparse]
      simp only [hparse] at h ⊢
      split_ifs at h ⊢
      · exact (Prod.mk.inj h).1
      · cases h

/-- What is written for a representable frame is decoded to it, whatever follows. -/
theorem Wire.decode_eq (h : Wire allLevels frame wire) (hframe : Representable frame)
    (hlength : wire.length ≤ maxFrameLength) (hmax : maxFrameLength ≤ usizeMax) (rest : List Byte) :
    decode maxFrameLength (wire ++ rest) = (.ok (some frame), rest) := by
  have hparse : parseFrame (wire ++ rest) maxFrameLength = .ok (some (frame, wire.length)) :=
    h.parseFrameAt_eq hframe rfl hlength (by omega)
  rw [decode, hparse]
  simp only
  rw [if_neg (by omega), List.drop_left]

/-! ### The round trip -/

/-- **Round trip.**  What the encoder has written for a frame is decoded to that frame, whatever
follows it, exactly when RESP can carry the frame. -/
theorem decode_encode_iff (hmax : maxFrameLength ≤ usizeMax)
    (hencode : encode maxFrameLength frame [] = (.ok (), wire)) (rest : List Byte) :
    decode maxFrameLength (wire ++ rest) = (.ok (some frame), rest) ↔ Representable frame := by
  obtain ⟨_, hwire, hlength, rfl⟩ := (encode_eq_ok_iff hmax).mp hencode
  constructor
  · intro hdecode
    obtain ⟨_, -, -, -, -, haccepted⟩ := decode_eq_some hdecode
    exact haccepted.representable
  · intro hframe
    exact hwire.decode_eq hframe hlength hmax rest

theorem decode_encode_iff_nested :
    encode 64 (.array (some [.integer (-5), .array none])) [] =
        (.ok (), "*2\x0d\x0a:-5\x0d\x0a*-1\x0d\x0a".toList.map ascii) ∧
      (decode 64 ("*2\x0d\x0a:-5\x0d\x0a*-1\x0d\x0a".toList.map ascii ++ [ascii '+']) =
        (.ok (some (.array (some [.integer (-5), .array none]))), [ascii '+']) ↔
          Representable (.array (some [.integer (-5), .array none]))) := by
  have hencode : encode 64 (.array (some [.integer (-5), .array none])) [] =
      (.ok (), "*2\x0d\x0a:-5\x0d\x0a*-1\x0d\x0a".toList.map ascii) :=
    (encode_eq_ok_iff (by decide)).mpr ⟨_, .array (.cons (.integer _) (.cons .nullArray .nil)),
      by decide, by decide⟩
  exact ⟨hencode, decode_encode_iff (by decide) hencode _⟩

/-- A frame that was decoded can be encoded under the same limit, in no more bytes than it came in,
and is then decoded to itself. -/
theorem encode_of_decode (hmax : maxFrameLength ≤ usizeMax)
    (hdecode : decode maxFrameLength src = (.ok (some frame), rest)) :
    ∃ wire, (∀ dst, encode maxFrameLength frame dst = (.ok (), dst ++ wire)) ∧
      wire.length + rest.length ≤ src.length ∧
      ∀ rest', decode maxFrameLength (wire ++ rest') = (.ok (some frame), rest') := by
  obtain ⟨consumed, -, hle, rfl, hsrc, haccepted⟩ := decode_eq_some hdecode
  obtain ⟨wire, hwire, hlength⟩ := haccepted.wire
  refine ⟨wire, fun dst => ?_, ?_, fun rest' => ?_⟩
  · exact (encode_eq_ok_iff hmax).mpr ⟨wire, hwire, by omega, rfl⟩
  · rw [List.length_drop]
    omega
  · exact hwire.decode_eq haccepted.representable (by omega) hmax rest'

/-- The frames of a stream, written again. -/
theorem Reads.writeAll_eq (hmax : maxFrameLength ≤ usizeMax) {frames : List RespFrame}
    {halt : GrowingBuffer.Halt Byte StdIoError}
    (h : GrowingBuffer.Reads (decode maxFrameLength) src frames halt) :
    ∃ wire, (∀ dst, writeAll (encode maxFrameLength) frames dst = (.ok (), dst ++ wire)) ∧
      wire.length ≤ src.length ∧
      GrowingBuffer.Reads (decode maxFrameLength) wire frames (.waiting []) := by
  induction h with
  | waiting _ | failed _ =>
    exact ⟨[], fun dst => by rw [List.append_nil]; rfl, Nat.zero_le _, .waiting rfl⟩
  | frame h _ ih =>
    obtain ⟨wire₁, hwrite₁, hlength₁, hdecode₁⟩ := encode_of_decode hmax h
    obtain ⟨wire₂, hwrite₂, hlength₂, hreads₂⟩ := ih
    refine ⟨wire₁ ++ wire₂, fun dst => ?_, ?_, .frame (hdecode₁ wire₂) hreads₂⟩
    · rw [writeAll, hwrite₁]
      simp only [hwrite₂, List.append_assoc]
    · rw [List.length_append]
      omega

/-! ### Streams -/

/-- **A relay.**  The frames of any stream, up to where it halts, can be written again under the same
limit, in no more bytes than have arrived, and whoever reads them, in whatever chunks, reads the
same frames and nothing else. -/
theorem relay (hmax : maxFrameLength ≤ usizeMax) (chunks : List (List Byte)) :
    ∃ wire, writeAll (encode maxFrameLength) (readChunks (decode maxFrameLength) chunks []).1 [] =
        (.ok (), wire) ∧
      wire.length ≤ chunks.flatten.length ∧
      ∀ chunks', chunks'.flatten = wire → readChunks (decode maxFrameLength) chunks' [] =
        ((readChunks (decode maxFrameLength) chunks []).1, .waiting []) := by
  have hreads := GrowingBuffer.reads_readAll (incremental maxFrameLength) chunks.flatten
  rw [← GrowingBuffer.readChunks_eq (incremental maxFrameLength)] at hreads
  obtain ⟨wire, hwrite, hlength, hwire⟩ := Reads.writeAll_eq hmax hreads
  refine ⟨wire, hwrite [], hlength, ?_⟩
  rintro chunks' rfl
  exact GrowingBuffer.readChunks_of_reads (incremental maxFrameLength) hwire

theorem relay_noncanonical :
    ∃ wire, writeAll (encode 64) (readChunks (decode 64)
        ["*1\x0d\x0a:+0".toList.map ascii, "07\x0d\x0a".toList.map ascii] []).1 [] =
          (.ok (), wire) ∧
      wire.length ≤ (["*1\x0d\x0a:+0".toList.map ascii,
        "07\x0d\x0a".toList.map ascii] : List (List Byte)).flatten.length ∧
      ∀ chunks', chunks'.flatten = wire → readChunks (decode 64) chunks' [] =
        ((readChunks (decode 64)
          ["*1\x0d\x0a:+0".toList.map ascii, "07\x0d\x0a".toList.map ascii] []).1, .waiting []) :=
  relay (by decide) _

/-- **Any cut.**  For every stream, well-formed or not, what is read and how reading halts depend on
its bytes only and not on the chunks they arrive in. -/
theorem readChunks_eq_readAll (maxFrameLength : ℕ) (chunks : List (List Byte)) :
    readChunks (decode maxFrameLength) chunks [] = readAll (decode maxFrameLength) chunks.flatten :=
  GrowingBuffer.readChunks_eq (incremental maxFrameLength) chunks

end Codec

end Resp

end Wireframe
