/-
# The RESP codec

The codec of the RESP example (`examples/resp_codec_impl/`): `parse.rs` reads a frame off a buffer
that is still growing, `encode.rs` writes one, and `codec.rs` bounds both by the frame length.

Frames nest.  Both sides pass down how deep they are and give up beyond `maxRecursionDepth`; here
the functions recurse over the levels that are left, `maxRecursionDepth + 1 - depth`, so that the
check of the depth is the case in which there are none.

Offsets into a buffer are below `isize::MAX`, and adding two of them cannot overflow; the checked
additions of the source are kept where a number from the wire enters.

*Itoa* is assumed of the formatter the encoder calls: `itoa::Buffer::format` writes the digits of a
number in base ten, without leading zeros and behind a minus sign if it is negative.  These are
`DecimalText.format` and `DecimalText.formatInt`.

`incremental`: more input never changes what the decoder has answered.
-/
import Mathlib.Tactic
import Wireframe.DecimalText
import Wireframe.Fragment
import Wireframe.GrowingBuffer
import Wireframe.LengthPrefix
import Wireframe.MachineWord

namespace Wireframe

open GrowingBuffer (Answer Extends writeAll)

/-- A RESP protocol frame. -/
inductive RespFrame where
  | simpleString (text : String)
  | error (text : String)
  | integer (value : Int64)
  | bulkString (data : Option (List Byte))
  | array (items : Option (List RespFrame))

namespace Resp

/-- Maximum number of elements permitted in a RESP array. -/
def maxArrayElements : ℕ := 1024

/-- Maximum recursion depth for nested RESP arrays. -/
def maxRecursionDepth : ℕ := 64

/-- The levels of nesting of a frame that is not inside another. -/
def allLevels : ℕ := maxRecursionDepth + 1

/-! ## Text -/

def ascii (c : Char) : Byte := UInt8.ofNat c.toNat

def cr : Byte := 13

def lf : Byte := 10

def crlf : List Byte := [cr, lf]

/-- `str::as_bytes`. -/
def utf8Bytes (text : String) : List Byte := text.toByteArray.data.toList

/-- `str::from_utf8`. -/
def fromUtf8 (bytes : List Byte) : Option String := String.fromUTF8? ⟨bytes.toArray⟩

/-- `str::parse::<i64>`. -/
def parseI64 (text : String) : Option Int64 :=
  (DecimalText.parseInt (utf8Bytes text)).bind fun z =>
    if -2 ^ 63 ≤ z ∧ z < 2 ^ 63 then some (Int64.ofInt z) else none

theorem fromUtf8_utf8Bytes (text : String) : fromUtf8 (utf8Bytes text) = some text := by
  have hbytes : (⟨(utf8Bytes text).toArray⟩ : ByteArray) = text.toByteArray := by
    simp [utf8Bytes]
  rw [fromUtf8, hbytes, String.fromUTF8?, dif_pos text.isValidUTF8]
  rfl

theorem utf8Bytes_of_fromUtf8 {bytes : List Byte} {text : String}
    (h : fromUtf8 bytes = some text) : utf8Bytes text = bytes := by
  rw [fromUtf8, String.fromUTF8?] at h
  split_ifs at h with hvalid
  cases h
  simp [utf8Bytes, String.fromUTF8]

/-! ## Parsing -/

def invalidData (text : String) : StdIoError := ⟨.invalidData, text⟩

/-- Look for the end of a line; `passed` bytes of it have been looked at. -/
def scanLine (maxLen : ℕ) : ℕ → List Byte → Answer StdIoError ℕ
  | _, [] => .ok none
  | passed, byte :: rest =>
    if passed > maxLen then .error (invalidData "line too long")
    else if byte = cr then
      match rest.head? with
      | none => .ok none
      | some next => if next = lf then .ok (some passed) else scanLine maxLen (passed + 1) rest
    else scanLine maxLen (passed + 1) rest

/-- Find a bounded CRLF line: its bytes, and the offset behind its end. -/
def parseLine (buf : List Byte) (start maxLen : ℕ) : Answer StdIoError (List Byte × ℕ) :=
  (scanLine maxLen 0 (buf.drop start)).andThen fun length =>
    .ok (some ((buf.drop start).take length, start + length + 2))

/-- Parse the line behind the first byte of a frame and convert to UTF-8. -/
def parseTextLine (buf : List Byte) (start maxFrameLength : ℕ) (errorMsg : String) :
    Answer StdIoError (String × ℕ) :=
  (parseLine buf (start + 1) maxFrameLength).andThen fun (line, next) =>
    match fromUtf8 line with
    | none => .error (invalidData errorMsg)
    | some text => .ok (some (text, next))

/-- The number such a line holds, an integer or a length. -/
def parseNumberLine (buf : List Byte) (start maxFrameLength : ℕ) (errorMsg : String) :
    Answer StdIoError (Int64 × ℕ) :=
  (parseTextLine buf start maxFrameLength errorMsg).andThen fun (text, next) =>
    match parseI64 text with
    | none => .error (invalidData errorMsg)
    | some value => .ok (some (value, next))

/-- Parse a text-based RESP frame (simple string or error). -/
def parseTextFrame (buf : List Byte) (start maxFrameLength : ℕ) (errorMsg : String)
    (constructor : String → RespFrame) : Answer StdIoError (RespFrame × ℕ) :=
  (parseTextLine buf start maxFrameLength errorMsg).andThen fun (text, next) =>
    .ok (some (constructor text, next - start))

def parseSimpleString (buf : List Byte) (start maxFrameLength : ℕ) :=
  parseTextFrame buf start maxFrameLength "invalid simple string" .simpleString

def parseError (buf : List Byte) (start maxFrameLength : ℕ) :=
  parseTextFrame buf start maxFrameLength "invalid error" .error

def parseInteger (buf : List Byte) (start maxFrameLength : ℕ) :
    Answer StdIoError (RespFrame × ℕ) :=
  (parseNumberLine buf start maxFrameLength "invalid integer").andThen fun (value, next) =>
    .ok (some (.integer value, next - start))

/-- Whether a bulk header carries a payload or RESP's null marker. -/
inductive BulkLength where
  | null
  | sized (len : ℕ)
  deriving DecidableEq, Repr

/-- Parse the signed length header, accepting only `-1` or non-negative sizes. -/
def parseBulkLength (buf : List Byte) (start maxFrameLength : ℕ) :
    Answer StdIoError (BulkLength × ℕ) :=
  (parseNumberLine buf start maxFrameLength "invalid bulk length").andThen fun (len, next) =>
    if len.toInt < -1 then .error (invalidData "invalid bulk length")
    else if len.toInt = -1 then .ok (some (.null, next))
    else .ok (some (.sized len.toInt.toNat, next))

/-- Count the number of decimal digits required to represent a value. -/
def decimalDigits (value : ℕ) : ℕ := DecimalText.countDigits value 1

/-- Require the CRLF delimiter that terminates every non-null bulk payload. -/
def validateBulkTerminator (buf : List Byte) (cursor : ℕ) : Except StdIoError Unit :=
  match buf[cursor]?, buf[cursor + 1]? with
  | some first, some second =>
    if first ≠ cr ∨ second ≠ lf then .error (invalidData "bulk string missing terminator")
    else .ok ()
  | _, _ => .error (invalidData "missing terminator")

/-- Validate a bulk payload without consuming incomplete input.  The size that is checked is that of
the frame with the shortest header. -/
def parseBulkPayload (buf : List Byte) (start payloadStart len maxFrameLength : ℕ) :
    Answer StdIoError (RespFrame × ℕ) :=
  let headerLen := 1 + decimalDigits len + 2
  let totalFrameSize := headerLen + len + 2
  if totalFrameSize > maxFrameLength then
    .error (invalidData "bulk frame exceeds max frame length")
  else
    match (checkedAdd payloadStart len).bind (checkedAdd · 2) with
    | none => .error (invalidData "bulk length too large")
    | some stop =>
      if buf.length < stop then .ok none
      else
        match validateBulkTerminator buf (payloadStart + len) with
        | .error err => .error err
        | .ok () => .ok (some (.bulkString (some ((buf.drop payloadStart).take len)), stop - start))

/-- Parse a bulk header and, when present, validate and copy its payload. -/
def parseBulkString (buf : List Byte) (start maxFrameLength : ℕ) :
    Answer StdIoError (RespFrame × ℕ) :=
  (parseBulkLength buf start maxFrameLength).andThen fun (length, next) =>
    match length with
    | .null => .ok (some (.bulkString none, next - start))
    | .sized len => parseBulkPayload buf start next len maxFrameLength

/-- The loop of `parse_array`: parse so many elements from `cursor` on, each by `element`. -/
def parseElements (element : ℕ → Answer StdIoError (RespFrame × ℕ)) :
    ℕ → ℕ → Answer StdIoError (List RespFrame × ℕ)
  | 0, cursor => .ok (some ([], cursor))
  | count + 1, cursor =>
    (element cursor).andThen fun (frame, consumed) =>
      (parseElements element count (cursor + consumed)).andThen fun (frames, cursor) =>
        .ok (some (frame :: frames, cursor))

/-- Decode an array while bounding element count, depth, and bytes. -/
def parseArray (element : ℕ → Answer StdIoError (RespFrame × ℕ)) (buf : List Byte)
    (start maxFrameLength : ℕ) : Answer StdIoError (RespFrame × ℕ) :=
  (parseNumberLine buf start maxFrameLength "invalid array length").andThen fun (count, cursor) =>
    if count.toInt = -1 then .ok (some (.array none, cursor - start))
    else if count.toInt < -1 then .error (invalidData "invalid negative array length")
    else if count.toInt.toNat > maxArrayElements then
      .error (invalidData "array element count exceeds limit")
    else
      (parseElements element count.toInt.toNat cursor).andThen fun (frames, cursor) =>
        if cursor - start > maxFrameLength then .error (invalidData "frame too large")
        else .ok (some (.array (some frames), cursor - start))

/-- Dispatch one complete frame while bounding attacker-controlled nesting. -/
def parseFrameAt : ℕ → List Byte → ℕ → ℕ → Answer StdIoError (RespFrame × ℕ)
  | 0, _, _, _ => .error (invalidData "maximum recursion depth exceeded")
  | levels + 1, buf, start, maxFrameLength =>
    match buf[start]? with
    | none => .ok none
    | some kind =>
      if kind = ascii '+' then parseSimpleString buf start maxFrameLength
      else if kind = ascii '-' then parseError buf start maxFrameLength
      else if kind = ascii ':' then parseInteger buf start maxFrameLength
      else if kind = ascii '$' then parseBulkString buf start maxFrameLength
      else if kind = ascii '*' then
        parseArray (fun cursor => parseFrameAt levels buf cursor maxFrameLength) buf start
          maxFrameLength
      else .error (invalidData "unsupported RESP prefix")

/-- Parse a complete RESP frame from the buffer. -/
def parseFrame (buf : List Byte) (maxFrameLength : ℕ) : Answer StdIoError (RespFrame × ℕ) :=
  parseFrameAt allLevels buf 0 maxFrameLength

/-! ## Encoding -/

/-- Add encoded-size components and report overflow as a frame-size error. -/
def addLen (lhs rhs : ℕ) : Except StdIoError ℕ :=
  match checkedAdd lhs rhs with
  | none => .error ⟨.invalidInput, errFrameTooLarge⟩
  | some sum => .ok sum

/-- Count decimal digits without allocating a temporary representation. -/
def digitsLenUsize (value : ℕ) : ℕ := DecimalText.countDigits value 1

/-- Count digits in a signed integer, including its possible minus sign. -/
def digitsLenI64 (value : Int64) : ℕ :=
  let digits := DecimalText.countDigits value.toInt.natAbs 1
  if value.toInt < 0 then digits + 1 else digits

/-- Measure a frame recursively while enforcing the nesting safety limit. -/
def encodedLenAt : ℕ → RespFrame → Except StdIoError ℕ
  | 0, _ => .error (invalidData "maximum recursion depth exceeded")
  | levels + 1, frame =>
    match frame with
    | .simpleString text | .error text => do addLen 1 (← addLen (utf8Bytes text).length 2)
    | .integer value => do addLen 1 (← addLen (digitsLenI64 value) 2)
    | .bulkString none | .array none => .ok 5
    | .bulkString (some data) => do
      let head ← addLen 1 (← addLen (digitsLenUsize data.length) 2)
      let body ← addLen data.length 2
      addLen head body
    | .array (some items) => do
      let head ← addLen 1 (← addLen (digitsLenUsize items.length) 2)
      items.foldlM (fun total item => do addLen total (← encodedLenAt levels item)) head

/-- Compute the encoded length of a RESP frame. -/
def encodedLen (frame : RespFrame) : Except StdIoError ℕ := encodedLenAt allLevels frame

/-- Append one frame and its nested children using RESP wire ordering.  Numbers are written by
`itoa`, under the assumption *Itoa*. -/
def encodeFrameAt : ℕ → RespFrame → List Byte → Except StdIoError Unit × List Byte
  | 0, _, dst => (.error (invalidData "maximum recursion depth exceeded"), dst)
  | levels + 1, frame, dst =>
    match frame with
    | .simpleString text => (.ok (), dst ++ (ascii '+' :: (utf8Bytes text ++ crlf)))
    | .error text => (.ok (), dst ++ (ascii '-' :: (utf8Bytes text ++ crlf)))
    | .integer value =>
      (.ok (), dst ++ (ascii ':' :: (DecimalText.formatInt value.toInt ++ crlf)))
    | .bulkString none => (.ok (), dst ++ (ascii '$' :: ([ascii '-', ascii '1'] ++ crlf)))
    | .bulkString (some data) =>
      (.ok (), dst ++ (ascii '$' :: (DecimalText.format data.length ++ (crlf ++ (data ++ crlf)))))
    | .array none => (.ok (), dst ++ (ascii '*' :: ([ascii '-', ascii '1'] ++ crlf)))
    | .array (some items) =>
      writeAll (encodeFrameAt levels) items
        (dst ++ (ascii '*' :: (DecimalText.format items.length ++ crlf)))

/-- Encode a RESP frame into the destination buffer. -/
def encodeFrame (frame : RespFrame) (dst : List Byte) : Except StdIoError Unit × List Byte :=
  encodeFrameAt allLevels frame dst

/-! ## The adapter -/

/-- `RespAdapter::decode`: bytes are taken off the buffer for a complete frame only. -/
def decode (maxFrameLength : ℕ) (src : List Byte) :
    Except StdIoError (Option RespFrame) × List Byte :=
  match parseFrame src maxFrameLength with
  | .error err => (.error err, src)
  | .ok none => (.ok none, src)
  | .ok (some (frame, consumed)) =>
    if consumed > maxFrameLength then (.error (invalidData "frame too large"), src)
    else (.ok (some frame), src.drop consumed)

/-- `RespAdapter::encode`: measure, then write. -/
def encode (maxFrameLength : ℕ) (item : RespFrame) (dst : List Byte) :
    Except StdIoError Unit × List Byte :=
  match encodedLen item with
  | .error err => (.error err, dst)
  | .ok len =>
    if len > maxFrameLength then (.error ⟨.invalidInput, errFrameTooLarge⟩, dst)
    else encodeFrame item dst

/-! ## Lines -/

section Lines

variable {maxLen passed start : ℕ} {bytes line rest buf more : List Byte}

/-- The end of a line is its first CRLF. -/
theorem scanLine_append (hline : ¬ crlf <:+: line) (hlen : passed + line.length ≤ maxLen) :
    scanLine maxLen passed (line ++ (crlf ++ rest)) = .ok (some (passed + line.length)) := by
  induction line generalizing passed with
  | nil =>
    show scanLine maxLen passed (cr :: lf :: rest) = .ok (some passed)
    rw [List.length_nil] at hlen
    rw [scanLine, if_neg (by omega), if_pos rfl]
    exact if_pos rfl
  | cons byte line ih =>
    rw [List.length_cons] at hlen ⊢
    have htail : ¬ crlf <:+: line := fun h => hline (List.infix_cons h)
    have hih : scanLine maxLen (passed + 1) (line ++ (crlf ++ rest)) =
        .ok (some (passed + (line.length + 1))) := by
      rw [ih htail (by omega)]
      congr 2
      omega
    rw [List.cons_append, scanLine, if_neg (by omega), hih]
    split_ifs with hcr
    · -- a carriage return in the line: what follows it is no line feed
      subst hcr
      rcases line with _ | ⟨next, line⟩
      · show (if cr = lf then _ else _) = _
        rw [if_neg (by decide)]
      · show (if next = lf then _ else _) = _
        rw [if_neg]
        rintro rfl
        exact hline ⟨[], line, rfl⟩
    · rfl

/-- A line that is found ends at the first `CRLF`. -/
theorem scanLine_eq_some {length : ℕ} (h : scanLine maxLen passed bytes = .ok (some length)) :
    ∃ line rest, bytes = line ++ (crlf ++ rest) ∧ length = passed + line.length ∧
      ¬ crlf <:+: line := by
  induction bytes generalizing passed with
  | nil => cases h
  | cons byte bytes ih =>
    have hgo : (byte ≠ cr ∨ bytes.head? ≠ some lf) →
        scanLine maxLen (passed + 1) bytes = .ok (some length) →
        ∃ line rest, byte :: bytes = line ++ (crlf ++ rest) ∧ length = passed + line.length ∧
          ¬ crlf <:+: line := by
      intro hnot hscan
      obtain ⟨line, rest, rfl, rfl, hline⟩ := ih hscan
      refine ⟨byte :: line, rest, rfl, by rw [List.length_cons]; omega, fun hinfix => ?_⟩
      rcases List.infix_cons_iff.mp hinfix with ⟨tail, htail⟩ | hinfix
      · obtain ⟨rfl, hline'⟩ := List.cons.inj htail
        rcases hnot with hbyte | hnext
        · exact hbyte rfl
        · rw [← hline'] at hnext
          exact hnext rfl
      · exact hline hinfix
    rw [scanLine] at h
    split_ifs at h with hlong hcr
    · rcases hnext : bytes.head? with _ | next
      · rw [hnext] at h
        cases h
      · simp only [hnext] at h
        split_ifs at h with hlf
        · subst hcr hlf
          obtain ⟨rest, rfl⟩ := List.head?_eq_some_iff.mp hnext
          obtain rfl := Option.some.inj (Except.ok.inj h)
          exact ⟨[], rest, rfl, rfl, by decide⟩
        · exact hgo (Or.inr (by rw [hnext]; simpa using hlf)) h
    · exact hgo (Or.inl hcr) h

theorem scanLine_extends (maxLen passed : ℕ) (bytes more : List Byte) :
    Extends (scanLine maxLen passed bytes) (scanLine maxLen passed (bytes ++ more)) := by
  induction bytes generalizing passed with
  | nil => exact Extends.of_waiting _
  | cons byte bytes ih =>
    rw [List.cons_append, scanLine, scanLine]
    split_ifs with hlong hcr
    · exact Extends.refl _
    · rcases bytes with _ | ⟨next, bytes⟩
      · exact Extends.of_waiting _
      · show Extends (if next = lf then _ else _) (if next = lf then _ else _)
        split_ifs
        · exact Extends.refl _
        · exact ih _
    · exact ih _

/-- The bytes from an offset on, when the buffer grows.  Beyond its end there is nothing yet. -/
theorem drop_append_cases (buf more : List Byte) (start : ℕ) :
    buf.drop start = [] ∨ (buf ++ more).drop start = buf.drop start ++ more := by
  rcases Nat.lt_or_ge buf.length start with h | h
  · exact Or.inl (List.drop_eq_nil_of_le (by omega))
  · exact Or.inr (List.drop_append_of_le_length h)

theorem parseLine_extends (buf more : List Byte) (start maxLen : ℕ) :
    Extends (parseLine buf start maxLen) (parseLine (buf ++ more) start maxLen) := by
  rw [parseLine, parseLine]
  rcases drop_append_cases buf more start with hempty | hdrop
  · rw [hempty]
    exact Extends.of_waiting _
  · rw [hdrop]
    refine (scanLine_extends maxLen 0 _ more).andThen fun length hlength => ?_
    obtain ⟨line, rest, hbytes, rfl, -⟩ := scanLine_eq_some hlength
    rw [hbytes, Nat.zero_add, List.append_assoc, List.take_left, List.take_left]
    exact Extends.refl _

end Lines

/-! ## Growing buffers -/

section Grow

variable (buf more : List Byte) (start maxFrameLength : ℕ)

theorem parseTextLine_extends (errorMsg : String) :
    Extends (parseTextLine buf start maxFrameLength errorMsg)
      (parseTextLine (buf ++ more) start maxFrameLength errorMsg) :=
  (parseLine_extends buf more _ _).andThen fun _ _ => Extends.refl _

theorem parseNumberLine_extends (errorMsg : String) :
    Extends (parseNumberLine buf start maxFrameLength errorMsg)
      (parseNumberLine (buf ++ more) start maxFrameLength errorMsg) :=
  (parseTextLine_extends buf more _ _ _).andThen fun _ _ => Extends.refl _

theorem bulkStop_eq_some {payloadStart len stop : ℕ} :
    (checkedAdd payloadStart len).bind (checkedAdd · 2) = some stop ↔
      payloadStart + len + 2 ≤ usizeMax ∧ stop = payloadStart + len + 2 := by
  rw [Option.bind_eq_some_iff]
  simp only [checkedAdd_eq_some_iff]
  constructor
  · rintro ⟨sum, ⟨-, rfl⟩, hle, rfl⟩
    exact ⟨hle, rfl⟩
  · rintro ⟨hle, rfl⟩
    exact ⟨payloadStart + len, ⟨by omega, rfl⟩, hle, rfl⟩

/-- More input does not change the answer for a payload that was there. -/
theorem parseBulkPayload_extends (payloadStart len : ℕ) :
    Extends (parseBulkPayload buf start payloadStart len maxFrameLength)
      (parseBulkPayload (buf ++ more) start payloadStart len maxFrameLength) := by
  simp only [parseBulkPayload]
  split_ifs with hsize
  · exact Extends.refl _
  · rcases hstop : (checkedAdd payloadStart len).bind (checkedAdd · 2) with _ | stop
    · exact Extends.refl _
    · obtain ⟨-, rfl⟩ := bulkStop_eq_some.mp hstop
      simp only
      by_cases hshort : buf.length < payloadStart + len + 2
      · rw [if_pos hshort]
        exact Extends.of_waiting _
      -- everything that is looked at lies inside the shorter buffer
      have hfirst : (buf ++ more)[payloadStart + len]? = buf[payloadStart + len]? :=
        List.getElem?_append_left (by omega)
      have hsecond : (buf ++ more)[payloadStart + len + 1]? = buf[payloadStart + len + 1]? :=
        List.getElem?_append_left (by omega)
      have hdata : ((buf ++ more).drop payloadStart).take len = (buf.drop payloadStart).take len := by
        rw [List.drop_append_of_le_length (by omega), List.take_append_of_le_length]
        rw [List.length_drop]
        omega
      rw [if_neg hshort, if_neg (by rw [List.length_append]; omega)]
      simp only [validateBulkTerminator, hfirst, hsecond, hdata]
      exact Extends.refl _

theorem parseElements_extends {element element' : ℕ → Answer StdIoError (RespFrame × ℕ)}
    (h : ∀ cursor, Extends (element cursor) (element' cursor)) (count cursor : ℕ) :
    Extends (parseElements element count cursor) (parseElements element' count cursor) := by
  induction count generalizing cursor with
  | zero => exact Extends.refl _
  | succ count ih =>
    exact (h cursor).andThen fun _ _ => (ih _).andThen fun _ _ => Extends.refl _

/-- **More input does not change an answer**, by induction on the levels left. -/
theorem parseFrameAt_extends (levels : ℕ) :
    Extends (parseFrameAt levels buf start maxFrameLength)
      (parseFrameAt levels (buf ++ more) start maxFrameLength) := by
  induction levels generalizing start with
  | zero => exact Extends.refl _
  | succ levels ih =>
    rw [parseFrameAt, parseFrameAt]
    rcases hkind : buf[start]? with _ | kind
    · exact Extends.of_waiting _
    · have hkind' : (buf ++ more)[start]? = some kind := by
        rw [List.getElem?_append_left (List.getElem?_eq_some_iff.mp hkind).1, hkind]
      rw [hkind']
      simp only
      split_ifs
      · exact (parseTextLine_extends buf more _ _ _).andThen fun _ _ => Extends.refl _
      · exact (parseTextLine_extends buf more _ _ _).andThen fun _ _ => Extends.refl _
      · exact (parseNumberLine_extends buf more _ _ _).andThen fun _ _ => Extends.refl _
      · refine Extends.andThen ?_ fun ⟨length, next⟩ _ => ?_
        · exact (parseNumberLine_extends buf more _ _ _).andThen fun _ _ => Extends.refl _
        · cases length with
          | null => exact Extends.refl _
          | sized len => exact parseBulkPayload_extends buf more _ _ _ _
      · refine (parseNumberLine_extends buf more _ _ _).andThen fun ⟨count, cursor⟩ _ => ?_
        simp only
        split_ifs
        · exact Extends.refl _
        · exact Extends.refl _
        · exact Extends.refl _
        · exact (parseElements_extends (fun cursor => ih cursor) _ _).andThen
            fun _ _ => Extends.refl _
      · exact Extends.refl _

end Grow

end Resp

end Wireframe
