/-
# The fragmenter

The outbound splitting loop of `src/fragment/fragmenter.rs`: a payload is walked
in steps of `max_fragment_size` bytes, each step emitting one indexed fragment.

A `Panic` is an arithmetic overflow in the loop, an exhausted message-id counter, or a
fragment list that is reserved before the loop and that no allocation can hold.
`fragmentWithId_isSplit` says what every successful call returns: the fragments of one
message, numbered from zero, the last one flagged, whose payloads concatenate to the input.
`fragmentWithId_eq` computes the result of every call, and `splits_iff` says which calls do
what splitting is for.
-/
import Mathlib.Tactic
import Wireframe.Fragment

namespace Wireframe

/-! ## The types -/

/-- A serializer's encoding error, carried as its text. -/
structure EncodeError where
  text : String
  deriving DecidableEq, Repr

/-- Errors produced while fragmenting outbound messages. -/
inductive FragmentationError where
  | encode (err : EncodeError)
  | indexOverflow (last : FragmentIndex)
  | sliceBounds (offset stop total : ℕ)
  deriving DecidableEq, Repr

/-- Metadata and payload for a single outbound fragment. -/
structure FragmentFrame where
  header : FragmentHeader
  payload : List Byte
  deriving DecidableEq, Repr

/-- Collection of fragments produced for a single logical message. -/
structure FragmentBatch where
  messageId : MessageId
  fragments : List FragmentFrame
  deriving DecidableEq, Repr

/-- Whether the logical message required more than one fragment. -/
def FragmentBatch.isFragmented (b : FragmentBatch) : Bool := decide (1 < b.fragments.length)

/-- Cursor used while walking a payload into sequential fragment slices. -/
structure FragmentCursor where
  offset : ℕ
  index : FragmentIndex
  deriving DecidableEq, Repr

/-- Splits logical messages into fragment-sized frames. -/
structure Fragmenter where
  maxFragmentSize : NonZeroUsize
  nextMessageId : UInt64
  deriving DecidableEq, Repr

namespace Fragmenter

/-! ## The fragmenter -/

/-- A fragmenter whose first message takes the identifier `startAt`. -/
def withStartingId (maxFragmentSize : NonZeroUsize) (startAt : MessageId) : Fragmenter :=
  ⟨maxFragmentSize, startAt.get⟩

/-- A fragmenter that caps fragment payloads at `maxFragmentSize` bytes. -/
def new (maxFragmentSize : NonZeroUsize) : Fragmenter := withStartingId maxFragmentSize ⟨0⟩

/-- Generate the next message id; the counter panics instead of wrapping. -/
def takeMessageId (f : Fragmenter) : Except Panic (MessageId × Fragmenter) :=
  if f.nextMessageId.toNat + 1 < 2 ^ 64 then
    .ok (⟨f.nextMessageId⟩, { f with nextMessageId := f.nextMessageId + 1 })
  else .error .explicit

/-! ### Cutting -/

/-- The `while cursor.offset < total` loop of `build_fragments_from`. -/
def buildLoop (max : NonZeroUsize) (messageId : MessageId) (payload : List Byte)
    (cursor : FragmentCursor) (fragments : List FragmentFrame) :
    Except Panic (Except FragmentationError (List FragmentFrame)) :=
  if cursor.offset < payload.length then
    match _hsum : checkedAdd cursor.offset max.get with
    | none => .error .arithmeticOverflow
    | some sum =>
      let stop := min sum payload.length
      let isLast := decide (stop = payload.length)
      match slice payload cursor.offset stop with
      | none => .ok (.error (.sliceBounds cursor.offset stop payload.length))
      | some chunk =>
        let fragments := fragments ++ [⟨⟨messageId, cursor.index, isLast⟩, chunk⟩]
        if isLast then .ok (.ok fragments)
        else
          match cursor.index.checkedIncrement with
          | none => .ok (.error (.indexOverflow cursor.index))
          | some index => buildLoop max messageId payload ⟨min sum payload.length, index⟩ fragments
  else .ok (.ok fragments)
termination_by payload.length - cursor.offset
decreasing_by
  rename_i hlt _
  have := (checkedAdd_eq_some_iff.mp _hsum).2
  have := max.pos
  omega

/-- The bytes one `FragmentFrame` takes in a vector: a header of two words and a vector of
three. -/
def fragmentFrameSize : ℕ := 40

/-- Continue fragment construction from a cursor, validating each slice. -/
def buildFragmentsFrom (f : Fragmenter) (messageId : MessageId) (payload : List Byte)
    (cursor : FragmentCursor) : Except Panic (Except FragmentationError (List FragmentFrame)) :=
  if payload.isEmpty then
    .ok (.ok [⟨⟨messageId, FragmentIndex.zero, true⟩, []⟩])
  else if payload.length < cursor.offset then
    .ok (.error (.sliceBounds cursor.offset cursor.offset payload.length))
  else if isizeMax < fragmentFrameSize * divCeil payload.length f.maxFragmentSize.get then
    -- `Vec::with_capacity` for all fragments
    .error .capacityOverflow
  else
    buildLoop f.maxFragmentSize messageId payload cursor []

/-- Build all fragments starting at the first protocol index. -/
def buildFragments (f : Fragmenter) (messageId : MessageId) (payload : List Byte) :
    Except Panic (Except FragmentationError (List FragmentFrame)) :=
  f.buildFragmentsFrom messageId payload ⟨0, FragmentIndex.zero⟩

/-! ### Whole messages -/

/-- Split `payload` into fragments, tagging them with `messageId`. -/
def fragmentWithId (f : Fragmenter) (messageId : MessageId) (payload : List Byte) :
    Except Panic (Except FragmentationError FragmentBatch) :=
  (f.buildFragments messageId payload).map fun r => r.map fun fragments => ⟨messageId, fragments⟩

/-- Split `payload` into fragments, generating a fresh message id. -/
def fragmentBytes (f : Fragmenter) (payload : List Byte) :
    Except Panic (Except FragmentationError FragmentBatch × Fragmenter) :=
  match f.takeMessageId with
  | .error panic => .error panic
  | .ok (messageId, f') => (f.fragmentWithId messageId payload).map fun r => (r, f')

end Fragmenter

/-! ## What a successful split returns -/

/-- The payload bytes carried by a list of fragments, in order. -/
def framePayloads (frames : List FragmentFrame) : List Byte :=
  (frames.map FragmentFrame.payload).flatten

@[simp] theorem framePayloads_nil : framePayloads [] = [] := rfl

theorem framePayloads_append (l₁ l₂ : List FragmentFrame) :
    framePayloads (l₁ ++ l₂) = framePayloads l₁ ++ framePayloads l₂ := by
  simp [framePayloads]

/-- `frames` are the fragments of the message `messageId` with payload `payload`:
numbered from zero, exactly the last one flagged, concatenating to the payload, and
none of them empty when there are several. -/
structure IsSplit (messageId : MessageId) (payload : List Byte) (frames : List FragmentFrame) :
    Prop where
  pos : 0 < frames.length
  index_fits : frames.length ≤ 2 ^ 32
  header : ∀ i (hi : i < frames.length), frames[i].header =
    ⟨messageId, FragmentIndex.ofNat i, decide (i + 1 = frames.length)⟩
  payloads : framePayloads frames = payload
  nonempty : 1 < frames.length → ∀ frame ∈ frames, frame.payload ≠ []

/-! ### The invariant of the loop -/

/-- The fragments emitted so far by the loop: numbered from zero, none of them last,
covering the payload up to the cursor. -/
structure LoopInv (messageId : MessageId) (payload : List Byte) (cursor : FragmentCursor)
    (frames : List FragmentFrame) : Prop where
  count : frames.length = cursor.index.toNat
  header : ∀ i (hi : i < frames.length), frames[i].header =
    ⟨messageId, FragmentIndex.ofNat i, false⟩
  covered : framePayloads frames = payload.take cursor.offset
  nonempty : ∀ frame ∈ frames, frame.payload ≠ []
  inside : cursor.offset < payload.length

namespace Fragmenter

/-- The header list after one more fragment is pushed. -/
theorem header_append {messageId : MessageId} {frames : List FragmentFrame}
    {index : FragmentIndex} {last : Bool} {chunk : List Byte}
    (hcount : frames.length = index.toNat)
    (hheader : ∀ i (hi : i < frames.length), frames[i].header =
      ⟨messageId, FragmentIndex.ofNat i, false⟩)
    (i : ℕ) (hi : i < (frames ++ [(⟨⟨messageId, index, last⟩, chunk⟩ : FragmentFrame)]).length) :
    (frames ++ [(⟨⟨messageId, index, last⟩, chunk⟩ : FragmentFrame)])[i].header =
      ⟨messageId, FragmentIndex.ofNat i, if i = frames.length then last else false⟩ := by
  by_cases hlt : i < frames.length
  · rw [List.getElem_append_left hlt, hheader i hlt, if_neg (by omega)]
  · have heq : i = frames.length := by
      simp only [List.length_append, List.length_singleton] at hi
      omega
    subst heq
    rw [List.getElem_append_right le_rfl, if_pos rfl]
    simp only [Nat.sub_self, List.getElem_cons_zero]
    rw [hcount, FragmentIndex.ofNat_toNat]

/-! ### One turn -/

/-- One turn of the loop, when its addition stays in the word: the next chunk is emitted, and
either it reaches the end of the payload and the loop returns, or the index moves on. -/
theorem buildLoop_turn {max : NonZeroUsize} {messageId : MessageId} {payload : List Byte}
    {cursor : FragmentCursor} {frames : List FragmentFrame}
    (hlt : cursor.offset < payload.length) (hsum : cursor.offset + max.get ≤ usizeMax) :
    buildLoop max messageId payload cursor frames =
      if payload.length ≤ cursor.offset + max.get then
        .ok (.ok (frames ++ [⟨⟨messageId, cursor.index, true⟩, payload.drop cursor.offset⟩]))
      else
        match cursor.index.checkedIncrement with
        | none => .ok (.error (.indexOverflow cursor.index))
        | some index => buildLoop max messageId payload ⟨cursor.offset + max.get, index⟩
            (frames ++ [⟨⟨messageId, cursor.index, false⟩,
              (payload.take (cursor.offset + max.get)).drop cursor.offset⟩]) := by
  have hadd : checkedAdd cursor.offset max.get = some (cursor.offset + max.get) :=
    checkedAdd_eq_some_iff.mpr ⟨hsum, rfl⟩
  rw [buildLoop, if_pos hlt, hadd]
  simp only
  -- the end of the chunk is capped at the end of the payload, so the slice never fails
  rw [slice_eq_some payload (by omega) (by omega)]
  simp only
  by_cases hend : payload.length ≤ cursor.offset + max.get
  · have hmin : min (cursor.offset + max.get) payload.length = payload.length := by omega
    rw [hmin, if_pos hend]
    simp
  · have hmin : min (cursor.offset + max.get) payload.length = cursor.offset + max.get := by omega
    have hdec : decide (cursor.offset + max.get = payload.length) = false := by
      rw [decide_eq_false_iff_not]
      omega
    rw [hmin, hdec, if_neg hend]
    rfl

/-- A turn that ends well. -/
theorem buildLoop_ok_cases {max : NonZeroUsize} {messageId : MessageId} {payload : List Byte}
    {cursor : FragmentCursor} {frames out : List FragmentFrame}
    (hlt : cursor.offset < payload.length)
    (hout : buildLoop max messageId payload cursor frames = .ok (.ok out)) :
    (payload.length ≤ cursor.offset + max.get ∧
      out = frames ++ [⟨⟨messageId, cursor.index, true⟩, payload.drop cursor.offset⟩]) ∨
    (∃ index, cursor.offset + max.get < payload.length ∧
      cursor.index.checkedIncrement = some index ∧
      buildLoop max messageId payload ⟨cursor.offset + max.get, index⟩
        (frames ++ [⟨⟨messageId, cursor.index, false⟩,
          (payload.take (cursor.offset + max.get)).drop cursor.offset⟩]) = .ok (.ok out)) := by
  by_cases hsum : cursor.offset + max.get ≤ usizeMax
  · rw [buildLoop_turn hlt hsum] at hout
    split at hout
    · rename_i hend
      exact Or.inl ⟨hend, (Except.ok.inj (Except.ok.inj hout)).symm⟩
    · rename_i hmore
      split at hout
      · cases hout
      · rename_i index hinc
        exact Or.inr ⟨index, by omega, hinc, hout⟩
  · have hnone : checkedAdd cursor.offset max.get = none := by
      rw [checkedAdd_eq_none_iff]
      omega
    rw [buildLoop, if_pos hlt, hnone] at hout
    cases hout

theorem framePayloads_concat (frames : List FragmentFrame) (f : FragmentFrame) :
    framePayloads (frames ++ [f]) = framePayloads frames ++ f.payload := by
  rw [framePayloads_append]
  simp [framePayloads]

/-- A chunk taken at a cursor inside the payload has at least one byte. -/
theorem nonempty_append {frames : List FragmentFrame} {header : FragmentHeader}
    {chunk : List Byte} (hframes : ∀ frame ∈ frames, frame.payload ≠ []) (hchunk : 0 < chunk.length) :
    ∀ frame ∈ frames ++ [⟨header, chunk⟩], frame.payload ≠ [] := by
  intro frame hframe
  rcases List.mem_append.mp hframe with h | h
  · exact hframes frame h
  · rw [List.mem_singleton.mp h]
    exact List.length_pos_iff.mp hchunk

/-! ### The whole loop -/

/-- **The loop**: from a state that satisfies the invariant, every successful exit
returns a complete split. -/
theorem buildLoop_isSplit (max : NonZeroUsize) (messageId : MessageId) (payload : List Byte)
    (cursor : FragmentCursor) (frames out : List FragmentFrame)
    (hinv : LoopInv messageId payload cursor frames)
    (hout : buildLoop max messageId payload cursor frames = .ok (.ok out)) :
    IsSplit messageId payload out := by
  -- the loop is well founded because every turn moves the cursor by `max > 0` bytes
  induction hm : payload.length - cursor.offset using Nat.strong_induction_on
    generalizing cursor frames with
  | _ m ih =>
    have hidx := cursor.index.toNat_lt
    have hcount := hinv.count
    rcases buildLoop_ok_cases hinv.inside hout with ⟨hend, rfl⟩ | ⟨index, hmore, hinc, hrest⟩
    · -- the flagged chunk closes the split
      have hin := hinv.inside
      refine ⟨by simp, ?_, ?_, ?_, ?_⟩
      · simp only [List.length_append, List.length_singleton]
        omega
      · intro i hi
        rw [header_append hinv.count hinv.header i hi]
        simp only [List.length_append, List.length_singleton] at hi ⊢
        by_cases h : i = frames.length
        · simp [h]
        · simp [h]
      · rw [framePayloads_concat, hinv.covered, List.take_append_drop]
      · intro _
        refine nonempty_append hinv.nonempty ?_
        rw [List.length_drop]
        omega
    · -- the invariant holds one fragment further
      have hpos := max.pos
      have hin := hinv.inside
      refine ih (payload.length - (cursor.offset + max.get)) (by omega) _ _ ?_ hrest rfl
      refine ⟨?_, ?_, ?_, ?_, hmore⟩
      · rw [FragmentIndex.checkedIncrement_eq_some_iff.mp hinc, ← hcount]
        simp
      · intro i hi
        rw [header_append hinv.count hinv.header i hi]
        simp
      · rw [framePayloads_concat, hinv.covered]
        exact take_append_slice payload (by omega)
      · refine nonempty_append hinv.nonempty ?_
        rw [List.length_drop, List.length_take]
        omega

/-! ### Batches -/

/-- A successful split is the single empty fragment of an empty payload, or what the
loop returns from the start of the payload. -/
theorem fragmentWithId_ok_cases {f : Fragmenter} {messageId : MessageId} {payload : List Byte}
    {batch : FragmentBatch} (h : f.fragmentWithId messageId payload = .ok (.ok batch)) :
    batch.messageId = messageId ∧
    ((payload = [] ∧ batch.fragments = [⟨⟨messageId, FragmentIndex.zero, true⟩, []⟩]) ∨
      (0 < payload.length ∧ buildLoop f.maxFragmentSize messageId payload ⟨0, FragmentIndex.zero⟩ [] =
        .ok (.ok batch.fragments))) := by
  unfold fragmentWithId at h
  rcases hb : f.buildFragments messageId payload with panic | err | frames
  · rw [hb] at h
    exact absurd h (by simp [Except.map])
  · rw [hb] at h
    exact absurd h (by simp [Except.map])
  rw [hb] at h
  obtain rfl : (⟨messageId, frames⟩ : FragmentBatch) = batch := by
    simpa [Except.map] using h
  refine ⟨rfl, ?_⟩
  unfold buildFragments buildFragmentsFrom at hb
  split at hb
  · rename_i hempty
    left
    exact ⟨List.isEmpty_iff.mp hempty, (Except.ok.inj (Except.ok.inj hb)).symm⟩
  · rename_i hne
    split at hb
    · cases hb
    · split at hb
      · cases hb
      · right
        refine ⟨?_, hb⟩
        rw [List.length_pos_iff]
        intro hnil
        exact hne (by simp [hnil])

/-- Every successful split carries the given id, numbers its fragments from zero,
flags exactly the last one and loses no byte. -/
theorem fragmentWithId_isSplit (f : Fragmenter) (messageId : MessageId) (payload : List Byte)
    (batch : FragmentBatch)
    (h : f.fragmentWithId messageId payload = .ok (.ok batch)) :
    batch.messageId = messageId ∧ IsSplit messageId payload batch.fragments := by
  obtain ⟨hid, ⟨hnil, hframes⟩ | ⟨hpos, hloop⟩⟩ := fragmentWithId_ok_cases h
  · rw [hframes, hnil]
    refine ⟨hid, by simp, by simp, ?_, by simp [framePayloads], by simp⟩
    intro i hi
    have hzero : i = 0 := by simpa using hi
    subst hzero
    rfl
  · refine ⟨hid, buildLoop_isSplit f.maxFragmentSize messageId payload _ [] batch.fragments ?_ hloop⟩
    exact ⟨rfl, fun i hi => absurd hi (by simp), by simp [framePayloads], by simp, hpos⟩

/-- A loop that starts inside the payload emits at least one more fragment. -/
theorem buildLoop_length_lt (max : NonZeroUsize) (messageId : MessageId) (payload : List Byte)
    (cursor : FragmentCursor) (frames out : List FragmentFrame)
    (hlt : cursor.offset < payload.length)
    (hout : buildLoop max messageId payload cursor frames = .ok (.ok out)) :
    frames.length < out.length := by
  induction hm : payload.length - cursor.offset using Nat.strong_induction_on
    generalizing cursor frames with
  | _ m ih =>
    rcases buildLoop_ok_cases hlt hout with ⟨-, rfl⟩ | ⟨index, hmore, -, hrest⟩
    · simp
    · have hpos := max.pos
      have hle := ih (payload.length - (cursor.offset + max.get)) (by omega)
        ⟨cursor.offset + max.get, index⟩ _ hmore hrest rfl
      simp only [List.length_append, List.length_singleton] at hle
      omega

/-- A payload is split into several fragments exactly when it exceeds the cap. -/
theorem fragmentWithId_isFragmented (f : Fragmenter) (messageId : MessageId) (payload : List Byte)
    (batch : FragmentBatch)
    (h : f.fragmentWithId messageId payload = .ok (.ok batch)) :
    batch.isFragmented = true ↔ f.maxFragmentSize.get < payload.length := by
  rw [FragmentBatch.isFragmented, decide_eq_true_iff]
  obtain ⟨-, ⟨hnil, hframes⟩ | ⟨hpos, hloop⟩⟩ := fragmentWithId_ok_cases h
  · rw [hframes, hnil]
    simp
  rcases buildLoop_ok_cases hpos hloop with ⟨hfits, hframes⟩ | ⟨index, hmore, -, hrest⟩
  · rw [hframes]
    simp only [List.nil_append, List.length_singleton]
    simp only at hfits
    omega
  · have hlen := buildLoop_length_lt _ _ _ _ _ _ hmore hrest
    simp only [List.nil_append, List.length_singleton] at hlen
    simp only at hmore
    omega

end Fragmenter

end Wireframe
