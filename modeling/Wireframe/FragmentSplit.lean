/-
# What a call of the fragmenter returns

`Fragmenter.lean` says what a successful split looks like.  Here the result of every call is
computed: the loop emits the chunks of the payload one after the other (`buildLoop_eq`), so a
call returns all of them, or the index overflow of the fragment after the last index, or panics
because the list of fragments is reserved before the loop (`fragmentWithId_eq`).

`splits_iff` compares this with what splitting is for: the two agree on every payload whose
fragments fit an allocation.
-/
import Mathlib.Tactic
import Wireframe.Fragmenter

namespace Wireframe

namespace Fragmenter

/-! ## The chunks of a payload -/

section Chunks

variable (max : ℕ) (messageId : MessageId) (payload : List Byte)

/-- The `i`-th chunk of the payload. -/
def chunkAt (i : ℕ) : List Byte := (payload.drop (i * max)).take max

/-- The `i`-th fragment of a message that has `divCeil payload.length max` of them. -/
def fragmentAt (i : ℕ) : FragmentFrame :=
  ⟨⟨messageId, FragmentIndex.ofNat i, decide (i + 1 = divCeil payload.length max)⟩,
    chunkAt max payload i⟩

variable {max messageId payload} {i n : ℕ}

theorem length_chunkAt : (chunkAt max payload i).length = min max (payload.length - i * max) := by
  rw [chunkAt, List.length_take, List.length_drop]

/-- The chunks before the `i`-th cover the payload up to it. -/
theorem flatten_chunkAt :
    ((List.range i).map (chunkAt max payload)).flatten = payload.take (i * max) := by
  induction i with
  | zero => simp
  | succ i ih =>
    rw [List.range_succ, List.map_append, List.flatten_append, ih]
    simp only [List.map_cons, List.map_nil, List.flatten_cons, List.flatten_nil, List.append_nil]
    rw [chunkAt, Nat.add_mul, Nat.one_mul, List.take_add]

/-- A chunk starts in the payload and reaches its end: it is the last one. -/
theorem divCeil_eq_succ (hpos : 0 < max) (hlt : i * max < payload.length)
    (hend : payload.length ≤ i * max + max) : divCeil payload.length max = i + 1 := by
  have hmore := (lt_divCeil_iff hpos).mpr hlt
  have hle : divCeil payload.length max ≤ i + 1 := by
    rw [divCeil_eq_ceilDiv hpos, ceilDiv_le_iff_le_mul hpos, Nat.mul_add, Nat.mul_one, Nat.mul_comm]
    exact hend
  omega

theorem succ_lt_divCeil (hpos : 0 < max) (hmore : i * max + max < payload.length) :
    i + 1 < divCeil payload.length max := by
  rw [lt_divCeil_iff hpos, Nat.add_mul, Nat.one_mul]
  exact hmore

/-- What the loop emits for a chunk that does not reach the end of the payload. -/
theorem fragmentAt_inner (hcount : i + 1 < divCeil payload.length max) :
    ⟨⟨messageId, FragmentIndex.ofNat i, false⟩, (payload.take (i * max + max)).drop (i * max)⟩ =
      fragmentAt max messageId payload i := by
  have hlast : decide (i + 1 = divCeil payload.length max) = false := by
    rw [decide_eq_false_iff_not]
    omega
  rw [fragmentAt, hlast, chunkAt, List.drop_take, Nat.add_sub_cancel_left]

/-- What the loop emits for the chunk that reaches the end of the payload: the rest of it. -/
theorem fragmentAt_last (hcount : divCeil payload.length max = i + 1)
    (hend : payload.length ≤ i * max + max) :
    ⟨⟨messageId, FragmentIndex.ofNat i, true⟩, payload.drop (i * max)⟩ =
      fragmentAt max messageId payload i := by
  have hlast : decide (i + 1 = divCeil payload.length max) = true := by
    rw [hcount, decide_eq_true_iff]
  rw [fragmentAt, hlast, chunkAt, List.take_of_length_le]
  rw [List.length_drop]
  omega

end Chunks

/-! ## The loop -/

section Loop

variable {max : NonZeroUsize} {messageId : MessageId} {payload : List Byte}

/-- The end of a chunk is a machine word: the first chunk starts at zero, and every later one
starts at least `max` bytes into the payload. -/
theorem offset_add_le {i : ℕ} (hlen : payload.length ≤ isizeMax)
    (hlt : i * max.get < payload.length) : i * max.get + max.get ≤ usizeMax := by
  rcases Nat.eq_zero_or_pos i with rfl | hpos
  · rw [Nat.zero_mul, Nat.zero_add]
    exact max.le_max
  · have hstart : max.get ≤ i * max.get := Nat.le_mul_of_pos_left _ hpos
    simp only [isizeMax, usizeMax] at *
    omega

/-- **The loop**, from the `i`-th chunk on: it emits the chunks that are left, or stops with the
last index when there are more than `2 ^ 32`. -/
theorem buildLoop_eq (max : NonZeroUsize) (messageId : MessageId)
    (hlen : payload.length ≤ isizeMax) (i : ℕ) (frames : List FragmentFrame)
    (hi : i < 2 ^ 32) (hlt : i * max.get < payload.length) :
    buildLoop max messageId payload ⟨i * max.get, FragmentIndex.ofNat i⟩ frames =
      if 2 ^ 32 < divCeil payload.length max.get then
        .ok (.error (.indexOverflow (FragmentIndex.ofNat (2 ^ 32 - 1))))
      else
        .ok (.ok (frames ++ (List.range' i (divCeil payload.length max.get - i)).map
          (fragmentAt max.get messageId payload))) := by
  -- the induction is on the chunks that are left
  induction hleft : divCeil payload.length max.get - i generalizing i frames with
  | zero =>
    have hmore := (lt_divCeil_iff max.pos).mpr hlt
    omega
  | succ left ih =>
    rw [buildLoop_turn hlt (offset_add_le hlen hlt)]
    have hnext : i * max.get + max.get = (i + 1) * max.get := by
      rw [Nat.add_mul, Nat.one_mul]
    by_cases hend : payload.length ≤ i * max.get + max.get
    · -- the last chunk
      have hcount := divCeil_eq_succ max.pos hlt hend
      obtain rfl : left = 0 := by omega
      rw [if_pos hend, if_neg (by omega), fragmentAt_last hcount hend]
      rfl
    · rw [if_neg hend]
      have hmore := succ_lt_divCeil max.pos (not_le.mp hend)
      by_cases hindex : i + 1 < 2 ^ 32
      · rw [FragmentIndex.checkedIncrement_ofNat hindex, fragmentAt_inner hmore]
        simp only
        rw [hnext, ih (i + 1) _ hindex (by omega) (by omega), List.append_assoc]
        rfl
      · -- the index after `2 ^ 32 - 1` does not exist
        obtain rfl : i = 2 ^ 32 - 1 := by omega
        have hnone : (FragmentIndex.ofNat (2 ^ 32 - 1)).checkedIncrement = none := by decide
        rw [hnone, if_pos (by omega)]

/-- **The result of every call**: the single fragment of an empty payload, the panic of the
reservation, the index overflow, or all fragments. -/
theorem fragmentWithId_eq (f : Fragmenter) (messageId : MessageId) (hlen : payload.length ≤ isizeMax) :
    f.fragmentWithId messageId payload =
      if payload = [] then .ok (.ok ⟨messageId, [⟨⟨messageId, FragmentIndex.zero, true⟩, []⟩]⟩)
      else if isizeMax < fragmentFrameSize * divCeil payload.length f.maxFragmentSize.get then
        .error .capacityOverflow
      else if 2 ^ 32 < divCeil payload.length f.maxFragmentSize.get then
        .ok (.error (.indexOverflow (FragmentIndex.ofNat (2 ^ 32 - 1))))
      else
        .ok (.ok ⟨messageId, (List.range (divCeil payload.length f.maxFragmentSize.get)).map
          (fragmentAt f.maxFragmentSize.get messageId payload)⟩) := by
  unfold fragmentWithId buildFragments buildFragmentsFrom
  by_cases hnil : payload = []
  · rw [if_pos hnil, if_pos (by rw [hnil]; rfl)]
    rfl
  · have hpos : 0 < payload.length := List.length_pos_iff.mpr hnil
    rw [if_neg hnil, if_neg (by simpa using hnil), if_neg (Nat.not_lt.mpr (Nat.zero_le _))]
    split
    · rfl
    · have hloop := buildLoop_eq f.maxFragmentSize messageId hlen 0 [] (by decide)
        (by rw [Nat.zero_mul]; exact hpos)
      rw [Nat.zero_mul] at hloop
      rw [show FragmentIndex.zero = FragmentIndex.ofNat 0 from rfl, hloop]
      split
      · rfl
      · rw [Nat.sub_zero, List.nil_append, ← List.range_eq_range']
        rfl

/-- A payload that fits one fragment is not split. -/
theorem fragmentWithId_single (f : Fragmenter) (messageId : MessageId)
    (hlen : payload.length ≤ isizeMax) (hne : payload ≠ [])
    (hle : payload.length ≤ f.maxFragmentSize.get) :
    f.fragmentWithId messageId payload =
      .ok (.ok ⟨messageId, [⟨⟨messageId, FragmentIndex.zero, true⟩, payload⟩]⟩) := by
  have hlt : 0 * f.maxFragmentSize.get < payload.length := by
    rw [Nat.zero_mul]
    exact List.length_pos_iff.mpr hne
  have hend : payload.length ≤ 0 * f.maxFragmentSize.get + f.maxFragmentSize.get := by
    rw [Nat.zero_mul, Nat.zero_add]
    exact hle
  have hcount := divCeil_eq_succ f.maxFragmentSize.pos hlt hend
  have hfirst : _ = fragmentAt f.maxFragmentSize.get messageId payload 0 :=
    fragmentAt_last hcount hend
  rw [Nat.zero_mul, List.drop_zero] at hfirst
  rw [fragmentWithId_eq f messageId hlen, if_neg hne, hcount, if_neg (by decide),
    if_neg (by decide), List.range_one, List.map_singleton, ← hfirst]
  rfl

/-- A loop that ends well has emitted the chunks from the `i`-th on, however long the payload
is. -/
theorem buildLoop_ok_eq {i : ℕ} {frames out : List FragmentFrame} (hi : i < 2 ^ 32)
    (hlt : i * max.get < payload.length)
    (hout : buildLoop max messageId payload ⟨i * max.get, FragmentIndex.ofNat i⟩ frames =
      .ok (.ok out)) :
    out = frames ++ (List.range' i (divCeil payload.length max.get - i)).map
        (fragmentAt max.get messageId payload) ∧ divCeil payload.length max.get ≤ 2 ^ 32 := by
  induction hleft : divCeil payload.length max.get - i generalizing i frames with
  | zero =>
    have hmore := (lt_divCeil_iff max.pos).mpr hlt
    omega
  | succ left ih =>
    have hnext : i * max.get + max.get = (i + 1) * max.get := by
      rw [Nat.add_mul, Nat.one_mul]
    rcases buildLoop_ok_cases hlt hout with ⟨hend, rfl⟩ | ⟨index, hmore, hinc, hrest⟩
    · have hcount := divCeil_eq_succ max.pos hlt hend
      obtain rfl : left = 0 := by omega
      refine ⟨?_, by omega⟩
      rw [fragmentAt_last hcount hend]
      rfl
    · have hcount := succ_lt_divCeil max.pos hmore
      have hindex : i + 1 < 2 ^ 32 := by
        have hsucc := FragmentIndex.checkedIncrement_eq_some_iff.mp hinc
        have hbound := index.toNat_lt
        rw [show FragmentIndex.toNat _ = i from FragmentIndex.toNat_ofNat hi] at hsucc
        omega
      rw [FragmentIndex.checkedIncrement_ofNat hindex] at hinc
      cases hinc
      rw [fragmentAt_inner hcount] at hrest
      simp only [hnext] at hrest
      obtain ⟨rfl, hle⟩ := ih hindex (hnext ▸ hmore) hrest (by omega)
      refine ⟨?_, hle⟩
      rw [List.append_assoc]
      rfl

/-- The fragments of a call that returns them. -/
theorem fragmentWithId_ok_eq {f : Fragmenter} {batch : FragmentBatch}
    (h : f.fragmentWithId messageId payload = .ok (.ok batch)) :
    (payload = [] ∧ batch.fragments = [⟨⟨messageId, FragmentIndex.zero, true⟩, []⟩]) ∨
      (divCeil payload.length f.maxFragmentSize.get ≤ 2 ^ 32 ∧
        batch.fragments = (List.range (divCeil payload.length f.maxFragmentSize.get)).map
          (fragmentAt f.maxFragmentSize.get messageId payload)) := by
  obtain ⟨-, hnil | ⟨hpos, hloop⟩⟩ := fragmentWithId_ok_cases h
  · exact Or.inl hnil
  · right
    have hzero : buildLoop f.maxFragmentSize messageId payload
        ⟨0 * f.maxFragmentSize.get, FragmentIndex.ofNat 0⟩ [] = .ok (.ok batch.fragments) := by
      rw [Nat.zero_mul]
      exact hloop
    obtain ⟨hframes, hcount⟩ := buildLoop_ok_eq (by decide) (by rw [Nat.zero_mul]; exact hpos) hzero
    rw [Nat.sub_zero, List.nil_append, ← List.range_eq_range'] at hframes
    exact ⟨hcount, hframes⟩

end Loop

/-! ## What splitting is for -/

/-- The fragments of a message: as many as the payload needs, all with the id of the message,
numbered from zero, exactly the last one flagged; all chunks but the last are full, and together
they are the payload. -/
structure SplitsTo (max : NonZeroUsize) (messageId : MessageId) (payload : List Byte)
    (frames : List FragmentFrame) : Prop where
  count : frames.length = if payload = [] then 1 else divCeil payload.length max.get
  messageId_eq : ∀ frame ∈ frames, frame.header.messageId = messageId
  index_eq : ∀ i (hi : i < frames.length), frames[i].header.fragmentIndex.toNat = i
  last_iff : ∀ i (hi : i < frames.length),
    frames[i].header.isLastFragment = true ↔ i + 1 = frames.length
  full : ∀ i (hi : i < frames.length), i + 1 < frames.length →
    frames[i].payload.length = max.get
  last_length : ∀ i (hi : i < frames.length), i + 1 = frames.length →
    if payload = [] then frames[i].payload.length = 0
    else 1 ≤ frames[i].payload.length ∧ frames[i].payload.length ≤ max.get
  payloads : framePayloads frames = payload

/-- A call does what splitting is for: it returns, with an index overflow when the payload needs
more than `2 ^ 32` fragments and with the fragments of the message otherwise. -/
def Splits (f : Fragmenter) (messageId : MessageId) (payload : List Byte) : Prop :=
  if 2 ^ 32 < divCeil payload.length f.maxFragmentSize.get then
    ∃ last, f.fragmentWithId messageId payload = .ok (.error (.indexOverflow last))
  else
    ∃ batch, f.fragmentWithId messageId payload = .ok (.ok batch) ∧
      SplitsTo f.maxFragmentSize messageId payload batch.fragments

/-- An empty payload is split into one empty fragment. -/
theorem splitsTo_nil (max : NonZeroUsize) (messageId : MessageId) :
    SplitsTo max messageId [] [⟨⟨messageId, FragmentIndex.zero, true⟩, []⟩] where
  count := rfl
  messageId_eq := by simp
  index_eq := by
    intro i hi
    obtain rfl : i = 0 := by simpa using hi
    rfl
  last_iff := by
    intro i hi
    obtain rfl : i = 0 := by simpa using hi
    simp
  full := by
    intro i hi hmore
    simp at hmore
  last_length := by
    intro i hi _
    obtain rfl : i = 0 := by simpa using hi
    simp
  payloads := rfl

/-- The fragments at `0, 1, …` are a split of the payload. -/
theorem splitsTo_fragmentAt {max : NonZeroUsize} {payload : List Byte} (messageId : MessageId)
    (hne : payload ≠ []) (hcount : divCeil payload.length max.get ≤ 2 ^ 32) :
    SplitsTo max messageId payload ((List.range (divCeil payload.length max.get)).map
      (fragmentAt max.get messageId payload)) where
  count := by rw [if_neg hne, List.length_map, List.length_range]
  messageId_eq := by
    intro frame hframe
    obtain ⟨i, -, rfl⟩ := List.mem_map.mp hframe
    rfl
  index_eq := by
    intro i hi
    rw [List.length_map, List.length_range] at hi
    rw [List.getElem_map, List.getElem_range]
    exact FragmentIndex.toNat_ofNat (by omega)
  last_iff := by
    intro i hi
    rw [List.getElem_map, List.getElem_range, List.length_map, List.length_range]
    exact decide_eq_true_iff
  full := by
    intro i hi hmore
    rw [List.length_map, List.length_range, lt_divCeil_iff max.pos, Nat.add_mul, Nat.one_mul]
      at hmore
    rw [List.getElem_map, List.getElem_range]
    show (chunkAt max.get payload i).length = max.get
    rw [length_chunkAt]
    omega
  last_length := by
    intro i hi _
    rw [List.length_map, List.length_range, lt_divCeil_iff max.pos] at hi
    rw [if_neg hne, List.getElem_map, List.getElem_range]
    show 1 ≤ (chunkAt max.get payload i).length ∧ (chunkAt max.get payload i).length ≤ max.get
    rw [length_chunkAt]
    have hpos := max.pos
    omega
  payloads := by
    have hall : payload.length ≤ divCeil payload.length max.get * max.get := by
      rw [divCeil_eq_ceilDiv max.pos, Nat.mul_comm]
      exact (ceilDiv_le_iff_le_mul max.pos).mp le_rfl
    rw [framePayloads, List.map_map]
    show ((List.range _).map (chunkAt max.get payload)).flatten = payload
    rw [flatten_chunkAt, List.take_of_length_le hall]

/-- A list of fragments that no allocation can hold makes the call panic. -/
theorem not_splits_of_big (f : Fragmenter) (messageId : MessageId) {payload : List Byte}
    (hlen : payload.length ≤ isizeMax) (hne : payload ≠ [])
    (hbig : isizeMax < fragmentFrameSize * divCeil payload.length f.maxFragmentSize.get) :
    f.fragmentWithId messageId payload = .error .capacityOverflow ∧
      ¬ f.Splits messageId payload := by
  have hpanic : f.fragmentWithId messageId payload = .error .capacityOverflow := by
    rw [fragmentWithId_eq f messageId hlen, if_neg hne, if_pos hbig]
  refine ⟨hpanic, fun hsplits => ?_⟩
  rw [Splits, hpanic] at hsplits
  split at hsplits
  · obtain ⟨last, hlast⟩ := hsplits
    cases hlast
  · obtain ⟨batch, hbatch, -⟩ := hsplits
    cases hbatch

/-- **A call does what splitting is for exactly when the list of fragments fits an allocation**:
that list is reserved before the first fragment is built. -/
theorem splits_iff (f : Fragmenter) (messageId : MessageId) (payload : List Byte)
    (hlen : payload.length ≤ isizeMax) :
    f.Splits messageId payload ↔
      fragmentFrameSize * divCeil payload.length f.maxFragmentSize.get ≤ isizeMax := by
  have heq := f.fragmentWithId_eq messageId hlen
  by_cases hnil : payload = []
  · -- an empty payload is answered before the reservation
    have hzero : divCeil payload.length f.maxFragmentSize.get = 0 := by
      rw [hnil]
      simp [divCeil]
    rw [if_pos hnil] at heq
    rw [Splits, hzero, if_neg (by decide), heq]
    refine ⟨fun _ => by simp, fun _ => ⟨_, rfl, ?_⟩⟩
    rw [hnil]
    exact splitsTo_nil f.maxFragmentSize messageId
  constructor
  · intro hsplits
    by_contra hbig
    exact (f.not_splits_of_big messageId hlen hnil (by omega)).2 hsplits
  · intro hfits
    rw [if_neg hnil, if_neg (by omega)] at heq
    rw [Splits, heq]
    split
    · exact ⟨_, rfl⟩
    · rename_i hcount
      exact ⟨_, rfl, splitsTo_fragmentAt messageId hnil (by omega)⟩

/-- Five bytes in chunks of two. -/
theorem splits_iff_five :
    (new ⟨2, by decide, by decide⟩).Splits ⟨7⟩ [1, 2, 3, 4, 5] ∧
      fragmentFrameSize * divCeil 5 2 ≤ isizeMax := by
  have hfits : fragmentFrameSize * divCeil 5 2 ≤ isizeMax := by decide
  exact ⟨(splits_iff _ ⟨7⟩ [1, 2, 3, 4, 5] (by decide)).mpr hfits, hfits⟩

/-- `2 ^ 60` bytes in chunks of one byte: the payload needs more than `2 ^ 32` fragments, and the
call panics where it has to report an index overflow. -/
theorem hugePayload_panics :
    (List.replicate (2 ^ 60) (0 : Byte)).length ≤ isizeMax ∧
      2 ^ 32 < divCeil (List.replicate (2 ^ 60) (0 : Byte)).length 1 ∧
      (new NonZeroUsize.min).fragmentWithId ⟨0⟩ (List.replicate (2 ^ 60) 0) =
        .error .capacityOverflow ∧
      ¬ (new NonZeroUsize.min).Splits ⟨0⟩ (List.replicate (2 ^ 60) 0) := by
  refine ⟨by rw [List.length_replicate]; decide, by rw [List.length_replicate]; decide, ?_⟩
  refine not_splits_of_big _ _ (by rw [List.length_replicate]; decide) ?_ ?_
  · rw [ne_eq, List.replicate_eq_nil_iff]
    decide
  · rw [List.length_replicate]
    decide

end Fragmenter

end Wireframe
