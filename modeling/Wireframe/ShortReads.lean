/-
# Readers that return less than they are asked for

A stream of bytes behind a reader that answers each request with some of the bytes to come: at
least one while there are any, and never more than were asked for.  How many is up to the reader,
and `cuts` fixes its choices.  Behind the last byte the stream ends or fails, again and again.

`read_spec` is all that is needed of a read: what it returns, followed by what is still to come,
is what was to come before.  `chunks` lists what the reads of a loop return up to the end of the
stream, and `chunk_induction` is the induction along such a loop.
-/
import Mathlib.Tactic

namespace ShortReads

/-! ## A reader -/

variable {α ε : Type*}

/-- What is still to come, how the stream ends, and the sizes of the reads to come. -/
structure Reader (α ε : Type*) where
  bytes : List α
  ending : Option ε
  cuts : ℕ → ℕ

/-- One read into a buffer of the given length.  An empty result means the end of the stream,
unless the buffer is empty. -/
def Reader.read (r : Reader α ε) (len : ℕ) : Except ε (List α) × Reader α ε :=
  if len = 0 then (.ok [], r)
  else
    match r.bytes, r.ending with
    | [], none => (.ok [], r)
    | [], some err => (.error err, r)
    | bytes, _ =>
      let n := min (max 1 (r.cuts 0)) (min len bytes.length)
      (.ok (bytes.take n), { r with bytes := bytes.drop n, cuts := fun i => r.cuts (i + 1) })

/-- What a read does: it fails as the stream does behind its last byte, or it returns the next
bytes, at least one of them if there is any and room for it. -/
theorem Reader.read_spec (r : Reader α ε) (len : ℕ) :
    (∃ err, 0 < len ∧ r.bytes = [] ∧ r.ending = some err ∧ r.read len = (.error err, r)) ∨
    ∃ n r', n ≤ len ∧ n ≤ r.bytes.length ∧ r.read len = (.ok (r.bytes.take n), r') ∧
      r'.bytes = r.bytes.drop n ∧ r'.ending = r.ending ∧
      (n = 0 → len = 0 ∨ r.bytes = [] ∧ r.ending = none) := by
  obtain ⟨bytes, ending, cuts⟩ := r
  unfold Reader.read
  by_cases hlen : len = 0
  · refine Or.inr ⟨0, ⟨bytes, ending, cuts⟩, Nat.zero_le _, Nat.zero_le _, ?_, rfl, rfl,
      fun _ => Or.inl hlen⟩
    rw [if_pos hlen, List.take_zero]
  · rw [if_neg hlen]
    cases bytes with
    | nil =>
      cases ending with
      | none =>
        exact Or.inr ⟨0, _, Nat.zero_le _, le_rfl, rfl, rfl, rfl, fun _ => Or.inr ⟨rfl, rfl⟩⟩
      | some err => exact Or.inl ⟨err, Nat.pos_of_ne_zero hlen, rfl, rfl, rfl⟩
    | cons b rest =>
      -- whatever the reader chose, there is a byte to return and room for it
      have hsome : 0 < min len (b :: rest).length := by
        rw [List.length_cons]
        omega
      refine Or.inr ⟨min (max 1 (cuts 0)) (min len (b :: rest).length), _, ?_, ?_, rfl, rfl, rfl,
        fun hzero => ?_⟩
      · exact (min_le_right _ _).trans (min_le_left _ _)
      · exact (min_le_right _ _).trans (min_le_right _ _)
      · omega

/-! ## Reading to the end -/

section Chunks

variable {r r' : Reader α ε} {len : ℕ} {chunk : List α}

/-- A read that returns something takes it off the front of what is to come. -/
theorem Reader.read_some (h : r.read len = (.ok chunk, r')) (hne : chunk ≠ []) :
    r.bytes = chunk ++ r'.bytes ∧ chunk.length ≤ len ∧ r'.ending = r.ending := by
  rcases r.read_spec len with ⟨err, -, -, -, herr⟩ | ⟨n, r'', hlen, hall, hok, hbytes, hending, -⟩
  · rw [herr] at h
    cases h
  · obtain ⟨hchunk, rfl⟩ := Prod.mk.inj (hok.symm.trans h)
    cases hchunk
    refine ⟨?_, ?_, hending⟩
    · rw [hbytes, List.take_append_drop]
    · rw [List.length_take]
      omega

/-- A read that returns nothing is at the end of the stream. -/
theorem Reader.read_nil (h : r.read len = (.ok [], r')) (hlen : 0 < len) :
    r.bytes = [] ∧ r.ending = none := by
  rcases r.read_spec len with ⟨err, -, -, -, herr⟩ | ⟨n, r'', -, hall, hok, -, -, hzero⟩
  · rw [herr] at h
    cases h
  · obtain ⟨hchunk, -⟩ := Prod.mk.inj (hok.symm.trans h)
    have hn : n = 0 := by
      have hlength := congrArg List.length (Except.ok.inj hchunk)
      rw [List.length_take, List.length_nil] at hlength
      omega
    rcases hzero hn with hlen' | hend
    · omega
    · exact hend

/-- A read that fails is behind the last byte. -/
theorem Reader.read_error {err : ε} (h : r.read len = (.error err, r')) :
    r.bytes = [] ∧ r.ending = some err := by
  rcases r.read_spec len with ⟨err', -, hbytes, hending, herr⟩ | ⟨n, r'', -, -, hok, -⟩
  · obtain ⟨herr', -⟩ := Prod.mk.inj (herr.symm.trans h)
    obtain rfl := Except.error.inj herr'
    exact ⟨hbytes, hending⟩
  · rw [hok] at h
    cases h

/-- What the reads into a buffer of the given length return, up to the end of the stream or its
failure. -/
def Reader.chunks (r : Reader α ε) (len : ℕ) : List (List α) :=
  match _hread : r.read len with
  | (.ok (b :: rest), r') => (b :: rest) :: r'.chunks len
  | (.ok [], _) => []
  | (.error _, _) => []
termination_by r.bytes.length
decreasing_by
  have hsplit := (Reader.read_some _hread (List.cons_ne_nil b rest)).1
  rw [hsplit, List.length_append, List.length_cons]
  omega

theorem Reader.chunks_of_some (h : r.read len = (.ok chunk, r')) (hne : chunk ≠ []) :
    r.chunks len = chunk :: r'.chunks len := by
  obtain ⟨b, rest, rfl⟩ := List.exists_cons_of_ne_nil hne
  rw [Reader.chunks]
  split
  · rename_i b' rest' r'' hread
    obtain ⟨hchunk, rfl⟩ := Prod.mk.inj (h.symm.trans hread)
    rw [Except.ok.inj hchunk]
  · rename_i hread
    exact absurd (h.symm.trans hread) (by simp)
  · rename_i hread
    exact absurd (h.symm.trans hread) (by simp)

theorem Reader.chunks_of_end (h : r.bytes = []) : r.chunks len = [] := by
  rw [Reader.chunks]
  split
  · rename_i hread
    have hsplit := (Reader.read_some hread (List.cons_ne_nil _ _)).1
    rw [h] at hsplit
    cases hsplit
  · rfl
  · rfl

/-- **Induction along a loop of reads**: the loop ends behind the last byte, and every other read
returns a chunk. -/
theorem Reader.chunk_induction {motive : Reader α ε → Prop} (hlen : 0 < len)
    (stop : ∀ r, r.bytes = [] → motive r)
    (turn : ∀ r chunk r', r.read len = (.ok chunk, r') → chunk ≠ [] → motive r' → motive r)
    (r : Reader α ε) : motive r := by
  induction hm : r.bytes.length using Nat.strong_induction_on generalizing r with
  | _ m ih =>
    rcases hread : r.read len with ⟨err | chunk, r'⟩
    · exact stop r (Reader.read_error hread).1
    · by_cases hne : chunk = []
      · subst hne
        exact stop r (Reader.read_nil hread hlen).1
      · have hsplit := (Reader.read_some hread hne).1
        have hpos := List.length_pos_iff.mpr hne
        refine turn r chunk r' hread hne (ih r'.bytes.length ?_ r' rfl)
        rw [← hm, hsplit, List.length_append]
        omega

/-! ### What the chunks hold -/

/-- The chunks of a stream are the stream. -/
theorem Reader.flatten_chunks (hlen : 0 < len) (r : Reader α ε) :
    (r.chunks len).flatten = r.bytes := by
  induction r using Reader.chunk_induction hlen with
  | stop r hend => rw [Reader.chunks_of_end hend, hend, List.flatten_nil]
  | turn r chunk r' hread hne ih =>
    rw [Reader.chunks_of_some hread hne, List.flatten_cons, ih, (Reader.read_some hread hne).1]

/-- No chunk is empty or larger than the buffer. -/
theorem Reader.mem_chunks (hlen : 0 < len) (r : Reader α ε) :
    ∀ chunk ∈ r.chunks len, chunk ≠ [] ∧ chunk.length ≤ len := by
  induction r using Reader.chunk_induction hlen with
  | stop r hend =>
    rw [Reader.chunks_of_end hend]
    simp
  | turn r chunk r' hread hne ih =>
    rw [Reader.chunks_of_some hread hne]
    intro c hc
    rcases List.mem_cons.mp hc with rfl | hc
    · exact ⟨hne, (Reader.read_some hread hne).2.1⟩
    · exact ih c hc

/-- A stream has at least as many bytes as chunks. -/
theorem Reader.length_chunks_le (hlen : 0 < len) (r : Reader α ε) :
    (r.chunks len).length ≤ r.bytes.length := by
  induction r using Reader.chunk_induction hlen with
  | stop r hend =>
    rw [Reader.chunks_of_end hend]
    exact Nat.zero_le _
  | turn r chunk r' hread hne ih =>
    have hpos := List.length_pos_iff.mpr hne
    rw [Reader.chunks_of_some hread hne, (Reader.read_some hread hne).1, List.length_cons,
      List.length_append]
    omega

/-! ### Full reads -/

/-- A stream whose reads return as much as the buffer holds. -/
def Reader.whole (bytes : List α) : Reader α ε := ⟨bytes, none, fun _ => bytes.length⟩

theorem Reader.read_whole {bytes : List α} (hne : bytes ≠ []) (hlen : bytes.length ≤ len) :
    (Reader.whole bytes : Reader α ε).read len = (.ok bytes, ⟨[], none, fun _ => bytes.length⟩) := by
  obtain ⟨b, rest, rfl⟩ := List.exists_cons_of_ne_nil hne
  have hpos : 0 < (b :: rest).length := Nat.zero_lt_succ _
  have hall : min (max 1 (b :: rest).length) (min len (b :: rest).length) = (b :: rest).length := by
    omega
  rw [Reader.read, if_neg (by omega)]
  simp only [Reader.whole, hall, List.take_length, List.drop_length]

theorem Reader.chunks_whole {bytes : List α} (hne : bytes ≠ []) (hlen : bytes.length ≤ len) :
    (Reader.whole bytes : Reader α ε).chunks len = [bytes] := by
  rw [Reader.chunks_of_some (Reader.read_whole hne hlen) hne, Reader.chunks_of_end rfl]

end Chunks

end ShortReads
