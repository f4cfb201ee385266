/-
# The registry of connection handles

`SessionRegistry` (`src/session.rs`) maps connection ids to weak references of push handles.  Any
task may look up, insert, remove, prune or list at any time, while others clone and drop the handles
themselves.  `get` looks its entry up and, when the handle is gone, evicts the entry in a second
access; `prune`, `active_handles` and `active_ids` go through the shards of the map one after the
other.

Each access is one step.  The lock of a shard keeps others out of it during a sweep; nothing here
depends on that, so every order of accesses is allowed.

* `get_answer`: eviction and sweeps are invisible: `get` answers as a map of ids to live handles
  would, to which only `insert` and `remove` are known;
* `swept_exact`: a list of handles has every connection that is registered and alive during the
  whole call, none that is so at no time, and none twice;
* `swept_purges`: a sweep leaves no entry of a handle that was gone before it.
-/
import Mathlib.Tactic
import Wireframe.KeyedMap
import Wireframe.Trace

namespace Wireframe

/-! ## The model -/

/-- Identifier assigned to a connection. -/
structure ConnectionId where
  asU64 : UInt64
  deriving DecidableEq, Repr

/-- A push handle, told apart from the others by a number as its address would. -/
abbrev SessionHandle := ℕ

/-- The calls that go through the whole map. -/
inductive SweepKind where
  | prune
  | activeHandles
  | activeIds
  deriving DecidableEq, Repr

/-- Where a task stands with the registry. -/
inductive SessionPoint where
  | outside
  /-- in `get`, which found no live handle and is about to evict the entry -/
  | missed (id : ConnectionId)
  | got (result : Option SessionHandle)
  /-- in a sweep: the shard, the ids of its entries still to visit, and what was collected -/
  | sweeping (kind : SweepKind) (shard : ℕ) (todo : List ConnectionId)
      (out : List (ConnectionId × SessionHandle))
  | swept (kind : SweepKind) (out : List (ConnectionId × SessionHandle))

/-- The registry with its handles and the tasks that use it, which are numbered.  `strong` counts
the owners of a handle that was created. -/
structure Sessions where
  strong : SessionHandle → Option ℕ
  map : KeyedMap ConnectionId SessionHandle
  points : ℕ → SessionPoint

/-! ### The accesses -/

inductive SessionEvent where
  /-- a connection is established with its handle -/
  | create (h : SessionHandle)
  | clone (h : SessionHandle)
  | drop (h : SessionHandle)
  | insert (id : ConnectionId) (h : SessionHandle)
  | remove (id : ConnectionId)
  /-- the first access of `get` -/
  | lookup (p : ℕ) (id : ConnectionId)
  /-- the second access of `get` -/
  | evict (p : ℕ)
  /-- a sweep begins -/
  | sweep (p : ℕ) (kind : SweepKind)
  /-- a sweep enters its next shard, or ends after the last -/
  | enter (p : ℕ)
  /-- a sweep visits the next entry of its shard -/
  | visit (p : ℕ)

/-- Whether a count of owners is that of a handle in use. -/
def isAlive : Option ℕ → Bool
  | some (_ + 1) => true
  | _ => false

namespace Sessions

/-- An empty registry. -/
def start : Sessions where
  strong := fun _ => none
  map := ∅
  points := fun _ => .outside

variable (s : Sessions)

def isLive (h : SessionHandle) : Bool := isAlive (s.strong h)

def goto (p : ℕ) (point : SessionPoint) : Sessions :=
  { s with points := Function.update s.points p point }

def setStrong (h : SessionHandle) (count : ℕ) : Sessions :=
  { s with strong := Function.update s.strong h (some count) }

/-- One more owner. -/
def retain (h : SessionHandle) : Sessions :=
  match s.strong h with
  | some count => s.setStrong h (count + 1)
  | none => s

/-- The ids of a shard's entries. -/
def idsOf (shardOf : ConnectionId → ℕ) (shard : ℕ) : List ConnectionId :=
  s.map.keys.filter fun id => shardOf id = shard

/-- What a sweep does with an entry whose handle is alive: `active_handles` keeps an owner of it,
`active_ids` only its id, `prune` nothing. -/
def collect (kind : SweepKind) (id : ConnectionId) (h : SessionHandle)
    (out : List (ConnectionId × SessionHandle)) :
    Sessions × List (ConnectionId × SessionHandle) :=
  match kind with
  | .prune => (s, out)
  | .activeHandles => (s.retain h, out ++ [(id, h)])
  | .activeIds => (s, out ++ [(id, h)])

/-- The entry of `id` is visited: it stays if its handle is alive. -/
def visitEntry (kind : SweepKind) (id : ConnectionId) (out : List (ConnectionId × SessionHandle)) :
    Sessions × List (ConnectionId × SessionHandle) :=
  match s.map.lookup id with
  | none => (s, out)
  | some h =>
    if s.isLive h then s.collect kind id h out else ({ s with map := s.map.erase id }, out)

/-- A task that may start a call. -/
def isIdle (p : ℕ) : Bool :=
  match s.points p with
  | .outside | .got _ | .swept _ _ => true
  | _ => false

/-- One access, when it can happen.  `shards` is the number of shards. -/
def step (shardOf : ConnectionId → ℕ) (shards : ℕ) :
    SessionEvent → Option (Sessions)
  | .create h =>
    match s.strong h with
    | none => some (s.setStrong h 1)
    | some _ => none
  | .clone h => if s.isLive h then some (s.retain h) else none
  | .drop h =>
    match s.strong h with
    | some (count + 1) => some (s.setStrong h count)
    | _ => none
  | .insert id h =>
    -- the caller has the handle
    if s.isLive h then some { s with map := s.map.insert id h } else none
  | .remove id => some { s with map := s.map.erase id }
  | .lookup p id =>
    if s.isIdle p then
      match s.map.lookup id with
      | some h =>
        if s.isLive h then some ((s.retain h).goto p (.got (some h)))
        else some (s.goto p (.missed id))
      | none => some (s.goto p (.missed id))
    else none
  | .evict p =>
    match s.points p with
    | .missed id =>
      match s.map.lookup id with
      | some h =>
        if s.isLive h then some (s.goto p (.got none))
        else some ({ s with map := s.map.erase id }.goto p (.got none))
      | none => some (s.goto p (.got none))
    | _ => none
  | .sweep p kind =>
    if s.isIdle p then some (s.goto p (.sweeping kind 0 (s.idsOf shardOf 0) [])) else none
  | .enter p =>
    match s.points p with
    | .sweeping kind shard [] out =>
      if shard + 1 < shards then
        some (s.goto p (.sweeping kind (shard + 1) (s.idsOf shardOf (shard + 1)) out))
      else some (s.goto p (.swept kind out))
    | _ => none
  | .visit p =>
    match s.points p with
    | .sweeping kind shard (id :: todo) out =>
      let visited := s.visitEntry kind id out
      some (visited.1.goto p (.sweeping kind shard todo visited.2))
    | _ => none

/-! ## What an access can do -/

variable {s} {t : Sessions} {shardOf : ConnectionId → ℕ} {shards : ℕ}

@[simp] theorem retain_map (h : SessionHandle) : (s.retain h).map = s.map := by
  rw [retain]
  split <;> rfl

@[simp] theorem retain_points (h : SessionHandle) : (s.retain h).points = s.points := by
  rw [retain]
  split <;> rfl

/-- Handles are created once: a count stays a count, and one that has come to zero stays there. -/
structure Ages (s t : Sessions) : Prop where
  known : ∀ h n, s.strong h = some n → ∃ m, t.strong h = some m
  gone : ∀ h, s.strong h = some 0 → t.strong h = some 0

theorem Ages.refl (s : Sessions) : Ages s s := ⟨fun _ n hn => ⟨n, hn⟩, fun _ => id⟩

theorem Ages.of_strong_eq (h : t.strong = s.strong) : Ages s t := by
  constructor
  · intro handle n hn
    exact ⟨n, by rw [h, hn]⟩
  · intro handle hzero
    rw [h, hzero]

theorem Ages.goto {p : ℕ} {point : SessionPoint} (h : Ages s t) : Ages s (t.goto p point) :=
  ⟨h.known, h.gone⟩

theorem ages_setStrong {h : SessionHandle} {count : ℕ} (hs : s.strong h ≠ some 0) :
    Ages s (s.setStrong h count) := by
  constructor
  · intro handle n hn
    rcases eq_or_ne handle h with rfl | hne
    · exact ⟨count, Function.update_self ..⟩
    · exact ⟨n, (Function.update_of_ne hne ..).trans hn⟩
  · intro handle hzero
    rcases eq_or_ne handle h with rfl | hne
    · exact absurd hzero hs
    · exact (Function.update_of_ne hne ..).trans hzero

theorem strong_of_isLive {h : SessionHandle} (hlive : s.isLive h = true) :
    ∃ n, s.strong h = some (n + 1) := by
  rw [isLive] at hlive
  rcases hcount : s.strong h with _ | _ | n
  · rw [hcount] at hlive
    exact absurd hlive Bool.false_ne_true
  · rw [hcount] at hlive
    exact absurd hlive Bool.false_ne_true
  · exact ⟨n, rfl⟩

theorem isLive_eq_false {h : SessionHandle} (hgone : s.strong h = some 0) : s.isLive h = false := by
  rw [isLive, hgone]
  rfl

theorem ages_retain {h : SessionHandle} (hlive : s.isLive h = true) : Ages s (s.retain h) := by
  obtain ⟨n, hn⟩ := strong_of_isLive hlive
  rw [retain, hn]
  exact ages_setStrong (by rw [hn]; simp)

/-! ### Entries -/

/-- An entry is left alone, or evicted because its handle is gone. -/
def Evicts (s t : Sessions) : Prop :=
  ∀ id, t.map.lookup id = s.map.lookup id ∨
    ∃ h, s.map.lookup id = some h ∧ s.isLive h = false ∧ t.map.lookup id = none

theorem Evicts.of_map_eq (h : t.map = s.map) : Evicts s t := fun id => Or.inl (by rw [h])

theorem evicts_erase {id : ConnectionId} {h : SessionHandle} (hlookup : s.map.lookup id = some h)
    (hgone : s.isLive h = false) (hmap : t.map = s.map.erase id) : Evicts s t := by
  intro id'
  rw [hmap, AList.lookup_erase_eq]
  split
  · rename_i heq
    subst heq
    exact Or.inr ⟨h, hlookup, hgone, rfl⟩
  · exact Or.inl rfl

/-! ### One entry of a sweep -/

/-- What a visit does: the entry is gone, or collected, or evicted. -/
theorem visitEntry_cases (s : Sessions) (kind : SweepKind) (id : ConnectionId)
    (out : List (ConnectionId × SessionHandle)) :
    (s.map.lookup id = none ∧ s.visitEntry kind id out = (s, out)) ∨
    (∃ h, s.map.lookup id = some h ∧ s.isLive h = true ∧
      s.visitEntry kind id out = s.collect kind id h out) ∨
    (∃ h, s.map.lookup id = some h ∧ s.isLive h = false ∧
      s.visitEntry kind id out = ({ s with map := s.map.erase id }, out)) := by
  rw [visitEntry]
  rcases hlookup : s.map.lookup id with _ | h
  · exact Or.inl ⟨rfl, rfl⟩
  · cases hlive : s.isLive h with
    | true => exact Or.inr (Or.inl ⟨h, rfl, hlive, by simp [hlive]⟩)
    | false => exact Or.inr (Or.inr ⟨h, rfl, hlive, by simp [hlive]⟩)

theorem collect_map (kind : SweepKind) (id : ConnectionId) (h : SessionHandle)
    (out : List (ConnectionId × SessionHandle)) : (s.collect kind id h out).1.map = s.map := by
  cases kind with
  | prune | activeIds => rfl
  | activeHandles => exact retain_map h

theorem ages_collect (kind : SweepKind) (id : ConnectionId) {h : SessionHandle}
    (out : List (ConnectionId × SessionHandle)) (hlive : s.isLive h = true) :
    Ages s (s.collect kind id h out).1 := by
  cases kind with
  | prune | activeIds => exact Ages.refl s
  | activeHandles => exact ages_retain hlive

theorem visitEntry_spec (s : Sessions) (kind : SweepKind) (id : ConnectionId)
    (out : List (ConnectionId × SessionHandle)) :
    Ages s (s.visitEntry kind id out).1 ∧ Evicts s (s.visitEntry kind id out).1 := by
  rcases visitEntry_cases s kind id out with ⟨-, heq⟩ | ⟨h, hlookup, hlive, heq⟩ |
    ⟨h, hlookup, hgone, heq⟩
  · rw [heq]
    exact ⟨Ages.refl s, Evicts.of_map_eq rfl⟩
  · rw [heq]
    exact ⟨ages_collect kind id out hlive, Evicts.of_map_eq (collect_map kind id h out)⟩
  · rw [heq]
    exact ⟨Ages.of_strong_eq rfl, evicts_erase hlookup hgone rfl⟩

end Sessions

/-- The id that a call of `insert` or `remove` sets, and to what. -/
def SessionEvent.registers : SessionEvent → Option (ConnectionId × Option SessionHandle)
  | .insert id h => some (id, some h)
  | .remove id => some (id, none)
  | _ => none

namespace Sessions

/-! ### Every access -/

variable {s t : Sessions} {shardOf : ConnectionId → ℕ} {shards : ℕ} {event : SessionEvent}

/-- What an access does to the map and to the handles. -/
structure Accesses (s t : Sessions) (event : SessionEvent) : Prop where
  ages : Ages s t
  entries : match event.registers with
    | some (id, entry) =>
      (∀ id', t.map.lookup id' = if id' = id then entry else s.map.lookup id') ∧
        ∀ h, entry = some h → s.isLive h = true
    | none => Evicts s t

/-- Every event is one access to the map. -/
theorem accesses_of_step (h : s.step shardOf shards event = some t) : Accesses s t event := by
  cases event with
  | create handle =>
    simp only [step] at h
    split at h
    · rename_i hnone
      cases h
      exact ⟨ages_setStrong (by rw [hnone]; simp), Evicts.of_map_eq rfl⟩
    · cases h
  | clone handle =>
    obtain ⟨hlive, ht⟩ := Option.ite_none_right_eq_some.mp h
    cases ht
    exact ⟨ages_retain hlive, Evicts.of_map_eq (retain_map handle)⟩
  | drop handle =>
    simp only [step] at h
    split at h
    · rename_i count hcount
      cases h
      exact ⟨ages_setStrong (by rw [hcount]; simp), Evicts.of_map_eq rfl⟩
    · cases h
  | insert id handle =>
    obtain ⟨hlive, ht⟩ := Option.ite_none_right_eq_some.mp h
    cases ht
    refine ⟨Ages.of_strong_eq rfl, fun id' => AList.lookup_insert_eq .., fun h' heq => ?_⟩
    rwa [← Option.some.inj heq]
  | remove id =>
    cases h
    exact ⟨Ages.of_strong_eq rfl, fun id' => AList.lookup_erase_eq .., by simp⟩
  | lookup p id =>
    obtain ⟨-, ht⟩ := Option.ite_none_right_eq_some.mp h
    rcases hlookup : s.map.lookup id with _ | handle
    · simp only [hlookup] at ht
      cases ht
      exact ⟨Ages.of_strong_eq rfl, Evicts.of_map_eq rfl⟩
    · simp only [hlookup] at ht
      split at ht
      · rename_i hlive
        cases ht
        exact ⟨(ages_retain hlive).goto, Evicts.of_map_eq (retain_map handle)⟩
      · cases ht
        exact ⟨Ages.of_strong_eq rfl, Evicts.of_map_eq rfl⟩
  | evict p =>
    simp only [step] at h
    split at h
    · rename_i id hpoint
      rcases hlookup : s.map.lookup id with _ | handle
      · simp only [hlookup] at h
        cases h
        exact ⟨Ages.of_strong_eq rfl, Evicts.of_map_eq rfl⟩
      · simp only [hlookup] at h
        split at h
        · cases h
          exact ⟨Ages.of_strong_eq rfl, Evicts.of_map_eq rfl⟩
        · rename_i hgone
          cases h
          exact ⟨Ages.of_strong_eq rfl,
            evicts_erase hlookup (Bool.eq_false_iff.mpr hgone) rfl⟩
    · cases h
  | sweep p kind =>
    obtain ⟨-, ht⟩ := Option.ite_none_right_eq_some.mp h
    cases ht
    exact ⟨Ages.of_strong_eq rfl, Evicts.of_map_eq rfl⟩
  | enter p =>
    simp only [step] at h
    split at h
    · split at h
      · cases h
        exact ⟨Ages.of_strong_eq rfl, Evicts.of_map_eq rfl⟩
      · cases h
        exact ⟨Ages.of_strong_eq rfl, Evicts.of_map_eq rfl⟩
    · cases h
  | visit p =>
    simp only [step] at h
    split at h
    · rename_i kind shard id todo out hpoint
      cases h
      obtain ⟨hages, hevicts⟩ := visitEntry_spec s kind id out
      exact ⟨hages.goto, hevicts⟩
    · cases h

/-! ## Eviction is invisible -/

/-- The handle last registered for an id by some calls, if it was not removed since. -/
def latest (id : ConnectionId) (events : List SessionEvent) : Option SessionHandle :=
  events.foldl (fun entry event =>
    match event.registers with
    | some (id', entry') => if id = id' then entry' else entry
    | none => entry) none

theorem latest_concat (id : ConnectionId) (events : List SessionEvent) (event : SessionEvent) :
    latest id (events ++ [event]) =
      match event.registers with
      | some (id', entry) => if id = id' then entry else latest id events
      | none => latest id events := by
  rw [latest, List.foldl_concat]
  rfl

/-- The map has the entries that were registered, except for some whose handle is gone. -/
structure Coherent (events : List SessionEvent) (s : Sessions) : Prop where
  entry : ∀ id, s.map.lookup id = latest id events ∨
    (s.map.lookup id = none ∧ ∃ h, latest id events = some h ∧ s.strong h = some 0)
  known : ∀ id h, latest id events = some h → ∃ n, s.strong h = some n

theorem coherent_start : Coherent [] start :=
  ⟨fun _ => Or.inl rfl, fun _ _ h => absurd h (by simp [latest])⟩

/-- A registered handle that is not alive is gone for good. -/
theorem Coherent.gone {events : List SessionEvent} (h : Coherent events s) {id : ConnectionId}
    {handle : SessionHandle} (hlatest : latest id events = some handle)
    (hdead : s.isLive handle = false) : s.strong handle = some 0 := by
  obtain ⟨n, hn⟩ := h.known id handle hlatest
  rw [isLive, hn] at hdead
  cases n with
  | zero => exact hn
  | succ n => exact absurd hdead (by simp [isAlive])

/-- **Step lemma**: an access adds or removes the entry it says. -/
theorem Coherent.step {events : List SessionEvent} (h : Coherent events s)
    (hstep : s.step shardOf shards event = some t) : Coherent (events ++ [event]) t := by
  obtain ⟨hages, hentries⟩ := accesses_of_step hstep
  constructor
  · intro id
    rw [latest_concat]
    rcases hregisters : event.registers with _ | ⟨id', entry⟩
    · rw [hregisters] at hentries
      rcases h.entry id with heq | ⟨hnone, handle, hlatest, hgone⟩
      · rcases hentries id with hsame | ⟨handle, hlookup, hdead, hnone⟩
        · exact Or.inl (hsame.trans heq)
        · have hlatest := heq.symm.trans hlookup
          exact Or.inr ⟨hnone, handle, hlatest, hages.gone _ (h.gone hlatest hdead)⟩
      · refine Or.inr ⟨?_, handle, hlatest, hages.gone _ hgone⟩
        rcases hentries id with hsame | ⟨_, hsome, -, -⟩
        · exact hsame.trans hnone
        · exact absurd (hnone.symm.trans hsome) (by simp)
    · rw [hregisters] at hentries
      rw [hentries.1 id]
      simp only
      split
      · exact Or.inl rfl
      · rcases h.entry id with heq | ⟨hnone, handle, hlatest, hgone⟩
        · exact Or.inl heq
        · exact Or.inr ⟨hnone, handle, hlatest, hages.gone _ hgone⟩
  · intro id handle hlatest
    rw [latest_concat] at hlatest
    rcases hregisters : event.registers with _ | ⟨id', entry⟩
    · rw [hregisters] at hlatest
      obtain ⟨n, hn⟩ := h.known id handle hlatest
      exact hages.known handle n hn
    · rw [hregisters] at hlatest hentries
      simp only at hlatest
      split at hlatest
      · obtain ⟨n, hn⟩ := strong_of_isLive (hentries.2 handle hlatest)
        exact hages.known handle _ hn
      · obtain ⟨n, hn⟩ := h.known id handle hlatest
        exact hages.known handle n hn

theorem coherent_of_exec {events : List SessionEvent}
    (h : Trace.exec (step · shardOf shards) start events = some s) : Coherent events s :=
  Trace.exec_history (fun _ _ _ _ hs => hs.step) coherent_start h

/-- The live entry of an id is the one that was registered, evictions or not. -/
theorem Coherent.filter_lookup {events : List SessionEvent} (h : Coherent events s)
    (id : ConnectionId) :
    (s.map.lookup id).filter s.isLive = (latest id events).filter s.isLive := by
  rcases h.entry id with heq | ⟨hnone, handle, hlatest, hgone⟩
  · rw [heq]
  · rw [hnone, hlatest, Option.filter_none, Option.filter_some, isLive_eq_false hgone]
    rfl

/-- What `get` has found after its first access. -/
def found (id : ConnectionId) : Option SessionHandle → SessionPoint
  | some h => .got (some h)
  | none => .missed id

/-! ### What a lookup answers -/

/-- **`get` answers as a map of live handles would.**  Whatever was looked up, evicted, pruned and
listed before by whichever tasks, `get` finds exactly the handle that `insert` registered last for
the id and `remove` has not removed, if that handle is alive, and otherwise nothing. -/
theorem get_answer {events : List SessionEvent}
    (h : Trace.exec (step · shardOf shards) start events = some s) {p : ℕ} {id : ConnectionId}
    (hstep : s.step shardOf shards (.lookup p id) = some t) :
    t.points p = found id ((latest id events).filter s.isLive) := by
  rw [← (coherent_of_exec h).filter_lookup id]
  obtain ⟨-, ht⟩ := Option.ite_none_right_eq_some.mp hstep
  rcases hlookup : s.map.lookup id with _ | handle
  · simp only [hlookup] at ht
    cases ht
    exact Function.update_self ..
  · simp only [hlookup] at ht
    rw [Option.filter_some]
    cases hlive : s.isLive handle with
    | true =>
      rw [hlive, if_pos rfl] at ht
      cases ht
      exact Function.update_self ..
    | false =>
      rw [hlive, if_neg Bool.false_ne_true] at ht
      cases ht
      exact Function.update_self ..

/-- A handle is dropped, a lookup misses it, and before the eviction the id is registered anew. -/
def raceRun : List SessionEvent :=
  [.create 7, .insert ⟨1⟩ 7, .drop 7, .lookup 0 ⟨1⟩, .create 8, .insert ⟨1⟩ 8, .evict 0]

theorem get_answer_raceRun :
    ∃ s t, Trace.exec (step · (fun _ => 0) 1) start raceRun = some s ∧
      s.step (fun _ => 0) 1 (.lookup 1 ⟨1⟩) = some t ∧ latest ⟨1⟩ raceRun = some 8 ∧
      s.isLive 8 = true ∧ t.points 1 = found ⟨1⟩ ((latest ⟨1⟩ raceRun).filter s.isLive) := by
  have hview : (Trace.exec (step · (fun _ => 0) 1) start raceRun).map
      (fun s => (s.isLive 8, (s.step (fun _ => 0) 1 (.lookup 1 ⟨1⟩)).isSome)) =
      some (true, true) := by decide
  obtain ⟨s, hs, hfields⟩ := Option.map_eq_some_iff.mp hview
  obtain ⟨hlive, hsome⟩ := Prod.mk.inj hfields
  obtain ⟨t, ht⟩ := Option.isSome_iff_exists.mp hsome
  exact ⟨s, t, hs, ht, rfl, hlive, get_answer hs ht⟩

/-! ## Sweeps -/

/-- The id is registered with a live handle. -/
def Registered (id : ConnectionId) (h : SessionHandle) (s : Sessions) : Prop :=
  s.map.lookup id = some h ∧ s.isLive h = true

theorem mem_idsOf {id : ConnectionId} {h : SessionHandle} {shard : ℕ}
    (hlookup : s.map.lookup id = some h) (hshard : shardOf id = shard) :
    id ∈ s.idsOf shardOf shard := by
  refine List.mem_filter.mpr ⟨?_, decide_eq_true hshard⟩
  exact AList.mem_keys.mp (AList.lookup_isSome.mp (by rw [hlookup]; rfl))

/-- A visit collects the handle of a registered id, unless it only prunes, and nothing else. -/
theorem visitEntry_snd (s : Sessions) (kind : SweepKind) (id : ConnectionId)
    (out : List (ConnectionId × SessionHandle)) :
    (∃ h, Registered id h s ∧ (s.visitEntry kind id out).2 = out ++ [(id, h)]) ∨
      ((kind = .prune ∨ ∀ h, ¬ Registered id h s) ∧ (s.visitEntry kind id out).2 = out) := by
  rcases visitEntry_cases s kind id out with ⟨hnone, heq⟩ | ⟨h, hlookup, hlive, heq⟩ |
    ⟨h, hlookup, hgone, heq⟩
  · refine Or.inr ⟨Or.inr fun h hregistered => ?_, by rw [heq]⟩
    exact absurd (hnone.symm.trans hregistered.1) (by simp)
  · rw [heq]
    cases kind with
    | prune => exact Or.inr ⟨Or.inl rfl, rfl⟩
    | activeHandles | activeIds => exact Or.inl ⟨h, ⟨hlookup, hlive⟩, rfl⟩
  · refine Or.inr ⟨Or.inr fun h' hregistered => ?_, by rw [heq]⟩
    obtain rfl := Option.some.inj (hlookup.symm.trans hregistered.1)
    exact absurd (hgone.symm.trans hregistered.2) Bool.false_ne_true

theorem collect_points (kind : SweepKind) (id : ConnectionId) (h : SessionHandle)
    (out : List (ConnectionId × SessionHandle)) :
    (s.collect kind id h out).1.points = s.points := by
  cases kind with
  | prune | activeIds => rfl
  | activeHandles => exact retain_points h

theorem visitEntry_points (s : Sessions) (kind : SweepKind) (id : ConnectionId)
    (out : List (ConnectionId × SessionHandle)) :
    (s.visitEntry kind id out).1.points = s.points := by
  rcases visitEntry_cases s kind id out with ⟨-, heq⟩ | ⟨h, -, -, heq⟩ | ⟨h, -, -, heq⟩
  · rw [heq]
  · rw [heq, collect_points]
  · rw [heq]

/-! ### Where a task stands -/

/-- What an access does to where a task stands. -/
inductive PointMove (s t : Sessions) (shardOf : ConnectionId → ℕ) (shards : ℕ) (p : ℕ) : Prop where
  | stayed (h : t.points p = s.points p)
  | looked (h : ∀ kind shard todo out, t.points p ≠ .sweeping kind shard todo out)
      (h' : ∀ kind out, t.points p ≠ .swept kind out)
  | began (kind : SweepKind)
      (h : t.points p = .sweeping kind 0 (t.idsOf shardOf 0) [])
  | visited (kind : SweepKind) (shard : ℕ) (id : ConnectionId) (todo : List ConnectionId)
      (out : List (ConnectionId × SessionHandle))
      (hpoint : s.points p = .sweeping kind shard (id :: todo) out)
      (hmap : t.map = (s.visitEntry kind id out).1.map)
      (h : t.points p = .sweeping kind shard todo (s.visitEntry kind id out).2)
  | entered (kind : SweepKind) (shard : ℕ) (out : List (ConnectionId × SessionHandle))
      (hpoint : s.points p = .sweeping kind shard [] out) (hshard : shard + 1 < shards)
      (h : t.points p = .sweeping kind (shard + 1) (t.idsOf shardOf (shard + 1)) out)
  | finished (kind : SweepKind) (shard : ℕ) (out : List (ConnectionId × SessionHandle))
      (hpoint : s.points p = .sweeping kind shard [] out) (hshard : ¬ shard + 1 < shards)
      (h : t.points p = .swept kind out)

theorem goto_points_self (p : ℕ) (point : SessionPoint) : (s.goto p point).points p = point :=
  Function.update_self ..

theorem goto_points_of_ne {p q : ℕ} (hne : p ≠ q) (point : SessionPoint) :
    (s.goto q point).points p = s.points p :=
  Function.update_of_ne hne ..

/-- A task leaves a lookup where it stands outside all sweeps. -/
theorem PointMove.of_goto {u : Sessions} {p q : ℕ} {point : SessionPoint}
    (hpoints : u.points = s.points)
    (h₁ : ∀ kind shard todo out, point ≠ .sweeping kind shard todo out)
    (h₂ : ∀ kind out, point ≠ .swept kind out) :
    PointMove s (u.goto q point) shardOf shards p := by
  rcases eq_or_ne p q with rfl | hne
  · exact .looked (by rw [goto_points_self]; exact h₁) (by rw [goto_points_self]; exact h₂)
  · exact .stayed ((goto_points_of_ne hne point).trans (congrFun hpoints p))

/-- Every event moves one task, and leaves the others where they stand. -/
theorem pointMove_of_step (h : s.step shardOf shards event = some t) (p : ℕ) :
    PointMove s t shardOf shards p := by
  cases event with
  | create handle | drop handle =>
    simp only [step] at h
    split at h
    · exact Option.some.inj h ▸ .stayed rfl
    · cases h
  | clone handle =>
    obtain ⟨-, ht⟩ := Option.ite_none_right_eq_some.mp h
    exact Option.some.inj ht ▸ .stayed (congrFun (retain_points handle) p)
  | insert id handle =>
    obtain ⟨-, ht⟩ := Option.ite_none_right_eq_some.mp h
    exact Option.some.inj ht ▸ .stayed rfl
  | remove id => exact Option.some.inj h ▸ .stayed rfl
  | lookup q id =>
    obtain ⟨-, ht⟩ := Option.ite_none_right_eq_some.mp h
    rcases hlookup : s.map.lookup id with _ | handle
    · simp only [hlookup] at ht
      exact Option.some.inj ht ▸ .of_goto rfl (by simp) (by simp)
    · simp only [hlookup] at ht
      split at ht
      · exact Option.some.inj ht ▸ .of_goto (retain_points handle) (by simp) (by simp)
      · exact Option.some.inj ht ▸ .of_goto rfl (by simp) (by simp)
  | evict q =>
    simp only [step] at h
    split at h
    · rename_i id hpoint
      rcases hlookup : s.map.lookup id with _ | handle
      · simp only [hlookup] at h
        exact Option.some.inj h ▸ .of_goto rfl (by simp) (by simp)
      · simp only [hlookup] at h
        split at h
        · exact Option.some.inj h ▸ .of_goto rfl (by simp) (by simp)
        · exact Option.some.inj h ▸
            .of_goto (u := { s with map := s.map.erase id }) rfl (by simp) (by simp)
    · cases h
  | sweep q kind =>
    obtain ⟨-, ht⟩ := Option.ite_none_right_eq_some.mp h
    cases ht
    rcases eq_or_ne p q with rfl | hne
    · exact .began kind (goto_points_self ..)
    · exact .stayed (goto_points_of_ne hne _)
  | enter q =>
    simp only [step] at h
    split at h
    · rename_i kind shard out hpoint
      split at h
      · rename_i hshard
        cases h
        rcases eq_or_ne p q with rfl | hne
        · exact .entered kind shard out hpoint hshard (goto_points_self ..)
        · exact .stayed (goto_points_of_ne hne _)
      · rename_i hshard
        cases h
        rcases eq_or_ne p q with rfl | hne
        · exact .finished kind shard out hpoint hshard (goto_points_self ..)
        · exact .stayed (goto_points_of_ne hne _)
    · cases h
  | visit q =>
    simp only [step] at h
    split at h
    · rename_i kind shard id todo out hpoint
      cases h
      rcases eq_or_ne p q with rfl | hne
      · exact .visited kind shard id todo out hpoint rfl (goto_points_self ..)
      · refine .stayed ((goto_points_of_ne hne _).trans ?_)
        exact congrFun (visitEntry_points s kind id out) p
    · cases h

/-! ### Nothing is passed over -/

/-- While the id stays registered: it was collected in its shard, or will be. -/
def Covered (shardOf : ConnectionId → ℕ) (p : ℕ) (id : ConnectionId) (h : SessionHandle)
    (s : Sessions) : Prop :=
  match s.points p with
  | .sweeping kind shard todo out =>
    kind ≠ .prune → (shardOf id < shard → (id, h) ∈ out) ∧
      (shardOf id = shard → id ∈ todo ∨ (id, h) ∈ out)
  | .swept kind out => kind ≠ .prune → (id, h) ∈ out
  | _ => True

/-- A sweep does not pass an id that stays registered. -/
theorem Covered.step {p : ℕ} {id : ConnectionId} {h : SessionHandle}
    (hshards : ∀ id, shardOf id < shards) (hcovered : Covered shardOf p id h s)
    (hs : Registered id h s) (ht : Registered id h t)
    (hstep : s.step shardOf shards event = some t) : Covered shardOf p id h t := by
  cases pointMove_of_step hstep p with
  | stayed hpoint =>
    rw [Covered, hpoint]
    exact hcovered
  | looked h₁ h₂ =>
    rw [Covered]
    cases hpoint : t.points p with
    | sweeping kind shard todo out => exact absurd hpoint (h₁ kind shard todo out)
    | swept kind out => exact absurd hpoint (h₂ kind out)
    | _ => trivial
  | began kind hpoint =>
    rw [Covered, hpoint]
    intro _
    refine ⟨fun hlt => absurd hlt (Nat.not_lt_zero _), fun heq => Or.inl ?_⟩
    exact mem_idsOf ht.1 heq
  | visited kind shard id' todo out hpoint hmap hnext =>
    rw [Covered, hpoint] at hcovered
    rw [Covered, hnext]
    intro hkind
    obtain ⟨hbefore, hhere⟩ := hcovered hkind
    have hgrow : ∀ e ∈ out, e ∈ (s.visitEntry kind id' out).2 := by
      intro e he
      rcases visitEntry_snd s kind id' out with ⟨h', -, heq⟩ | ⟨-, heq⟩
      · rw [heq]
        exact List.mem_append_left _ he
      · rwa [heq]
    refine ⟨fun hlt => hgrow _ (hbefore hlt), fun heq => ?_⟩
    rcases hhere heq with hmem | hmem
    · rcases List.mem_cons.mp hmem with rfl | hmem
      · -- the visit of the id itself
        rcases visitEntry_snd s kind id out with ⟨h', hregistered, hout⟩ | ⟨hprune | hnot, -⟩
        · obtain rfl := Option.some.inj (hregistered.1.symm.trans hs.1)
          rw [hout]
          exact Or.inr (List.mem_append_right _ (List.mem_singleton_self _))
        · exact absurd hprune hkind
        · exact absurd hs (hnot h)
      · exact Or.inl hmem
    · exact Or.inr (hgrow _ hmem)
  | entered kind shard out hpoint hshard hnext =>
    rw [Covered, hpoint] at hcovered
    rw [Covered, hnext]
    intro hkind
    obtain ⟨hbefore, hhere⟩ := hcovered hkind
    refine ⟨fun hlt => ?_, fun heq => Or.inl (mem_idsOf ht.1 heq)⟩
    rcases Nat.lt_succ_iff_lt_or_eq.mp hlt with hlt | heq
    · exact hbefore hlt
    · exact (hhere heq).resolve_left List.not_mem_nil
  | finished kind shard out hpoint hshard hnext =>
    rw [Covered, hpoint] at hcovered
    rw [Covered, hnext]
    intro hkind
    obtain ⟨hbefore, hhere⟩ := hcovered hkind
    have hlt := hshards id
    rcases Nat.lt_succ_iff_lt_or_eq.mp (show shardOf id < shard + 1 by omega) with hlt | heq
    · exact hbefore hlt
    · exact (hhere heq).resolve_left List.not_mem_nil

/-! ### What is collected -/

/-- What a task has collected in its sweep. -/
def collected (s : Sessions) (p : ℕ) : List (ConnectionId × SessionHandle) :=
  match s.points p with
  | .sweeping _ _ _ out | .swept _ out => out
  | _ => []

/-- One access adds at most one entry to what a task has collected: one that is registered then. -/
theorem collected_of_step (hstep : s.step shardOf shards event = some t) (p : ℕ) :
    t.collected p = s.collected p ∨ t.collected p = [] ∨
      ∃ id h, Registered id h s ∧ t.collected p = s.collected p ++ [(id, h)] := by
  cases pointMove_of_step hstep p with
  | stayed hpoint => exact Or.inl (by rw [collected, collected, hpoint])
  | looked h₁ h₂ =>
    right
    left
    rw [collected]
    cases hpoint : t.points p with
    | sweeping kind shard todo out => exact absurd hpoint (h₁ kind shard todo out)
    | swept kind out => exact absurd hpoint (h₂ kind out)
    | _ => rfl
  | began kind hpoint => exact Or.inr (Or.inl (by rw [collected, hpoint]))
  | visited kind shard id todo out hpoint hmap hnext =>
    rw [collected, collected, hpoint, hnext]
    rcases visitEntry_snd s kind id out with ⟨h, hregistered, heq⟩ | ⟨-, heq⟩
    · exact Or.inr (Or.inr ⟨id, h, hregistered, heq⟩)
    · exact Or.inl heq
  | entered kind shard out hpoint hshard hnext | finished kind shard out hpoint hshard hnext =>
    exact Or.inl (by rw [collected, collected, hpoint, hnext])

/-- No entry is collected while it is not registered. -/
theorem not_mem_collected_of_step {p : ℕ} {id : ConnectionId} {h : SessionHandle}
    (hnot : (id, h) ∉ s.collected p) (hs : ¬ Registered id h s)
    (hstep : s.step shardOf shards event = some t) : (id, h) ∉ t.collected p := by
  rcases collected_of_step hstep p with heq | hnil | ⟨id', h', hregistered, heq⟩
  · rwa [heq]
  · rw [hnil]
    exact List.not_mem_nil
  · rw [heq]
    intro hmem
    rcases List.mem_append.mp hmem with hmem | hmem
    · exact hnot hmem
    · obtain ⟨rfl, rfl⟩ := Prod.mk.inj (List.mem_singleton.mp hmem)
      exact hs hregistered

/-! ### Nothing twice -/

/-- The ids collected are those of the shards before and of the entries visited, each once. -/
def Distinct (shardOf : ConnectionId → ℕ) (p : ℕ) (s : Sessions) : Prop :=
  match s.points p with
  | .sweeping _ shard todo out =>
    (out.map Prod.fst).Nodup ∧ todo.Nodup ∧ (∀ id ∈ todo, shardOf id = shard) ∧
      ∀ id ∈ out.map Prod.fst, shardOf id ≤ shard ∧ id ∉ todo
  | .swept _ out => (out.map Prod.fst).Nodup
  | _ => True

theorem nodup_idsOf (s : Sessions) (shardOf : ConnectionId → ℕ) (shard : ℕ) :
    (s.idsOf shardOf shard).Nodup := s.map.keys_nodup.filter _

theorem shardOf_of_mem_idsOf {id : ConnectionId} {shard : ℕ} (h : id ∈ s.idsOf shardOf shard) :
    shardOf id = shard := of_decide_eq_true (List.mem_filter.mp h).2

/-- A sweep visits each shard, and each id in it, once. -/
theorem Distinct.step {p : ℕ} (hdistinct : Distinct shardOf p s)
    (hstep : s.step shardOf shards event = some t) : Distinct shardOf p t := by
  cases pointMove_of_step hstep p with
  | stayed hpoint =>
    rw [Distinct, hpoint]
    exact hdistinct
  | looked h₁ h₂ =>
    rw [Distinct]
    cases hpoint : t.points p with
    | sweeping kind shard todo out => exact absurd hpoint (h₁ kind shard todo out)
    | swept kind out => exact absurd hpoint (h₂ kind out)
    | _ => trivial
  | began kind hpoint =>
    rw [Distinct, hpoint]
    exact ⟨List.nodup_nil, nodup_idsOf t shardOf 0, fun _ => shardOf_of_mem_idsOf,
      fun _ hmem => absurd hmem List.not_mem_nil⟩
  | visited kind shard id todo out hpoint hmap hnext =>
    rw [Distinct, hpoint] at hdistinct
    rw [Distinct, hnext]
    obtain ⟨hout, htodo, hshard, hseen⟩ := hdistinct
    obtain ⟨hnot, htodo⟩ := List.nodup_cons.mp htodo
    have hkeep : ∀ id' ∈ out.map Prod.fst, shardOf id' ≤ shard ∧ id' ∉ todo := fun id' hid' =>
      ⟨(hseen id' hid').1, fun hmem => (hseen id' hid').2 (List.mem_cons_of_mem _ hmem)⟩
    have hkept : ∀ id' ∈ todo, shardOf id' = shard := fun id' hid' =>
      hshard id' (List.mem_cons_of_mem _ hid')
    rcases visitEntry_snd s kind id out with ⟨h, -, heq⟩ | ⟨-, heq⟩
    · have hfresh : id ∉ out.map Prod.fst := fun hmem =>
        (hseen id hmem).2 List.mem_cons_self
      have hmap' : (out ++ [(id, h)]).map Prod.fst = out.map Prod.fst ++ [id] := by
        rw [List.map_append]
        rfl
      rw [heq]
      refine ⟨?_, htodo, hkept, fun id' hid' => ?_⟩
      · rw [hmap']
        exact hout.append (List.nodup_singleton _) (List.disjoint_singleton.mpr hfresh)
      · rw [hmap'] at hid'
        rcases List.mem_append.mp hid' with hid' | hid'
        · exact hkeep id' hid'
        · obtain rfl : id' = id := List.mem_singleton.mp hid'
          exact ⟨(hshard id' List.mem_cons_self).le, hnot⟩
    · rw [heq]
      exact ⟨hout, htodo, hkept, hkeep⟩
  | entered kind shard out hpoint hshard hnext =>
    rw [Distinct, hpoint] at hdistinct
    rw [Distinct, hnext]
    obtain ⟨hout, -, -, hseen⟩ := hdistinct
    refine ⟨hout, nodup_idsOf t shardOf _, fun _ => shardOf_of_mem_idsOf, fun id hid => ?_⟩
    have hle := (hseen id hid).1
    refine ⟨by omega, fun hmem => ?_⟩
    have heq := shardOf_of_mem_idsOf hmem
    omega
  | finished kind shard out hpoint hshard hnext =>
    rw [Distinct, hpoint] at hdistinct
    rw [Distinct, hnext]
    exact hdistinct.1

/-! ### Entries of dropped handles -/

/-- The entries of a handle that is gone are still ahead of the sweep. -/
def Purging (shardOf : ConnectionId → ℕ) (p : ℕ) (h : SessionHandle) (s : Sessions) : Prop :=
  s.strong h = some 0 ∧
    match s.points p with
    | .sweeping _ shard todo _ =>
      ∀ id, s.map.lookup id = some h → shard < shardOf id ∨ (shardOf id = shard ∧ id ∈ todo)
    | .swept _ _ => ∀ id, s.map.lookup id ≠ some h
    | _ => True

/-- A handle that is gone is not registered again. -/
theorem lookup_of_step_of_gone {h : SessionHandle} (hgone : s.strong h = some 0)
    (hstep : s.step shardOf shards event = some t) {id : ConnectionId}
    (hlookup : t.map.lookup id = some h) : s.map.lookup id = some h := by
  have hentries := (accesses_of_step hstep).entries
  rcases hregisters : event.registers with _ | ⟨id', entry⟩
  · rw [hregisters] at hentries
    rcases hentries id with hsame | ⟨_, -, -, hnone⟩
    · exact hsame.symm.trans hlookup
    · exact absurd (hlookup.symm.trans hnone) (by simp)
  · rw [hregisters] at hentries
    rw [hentries.1 id] at hlookup
    split at hlookup
    · have hlive := hentries.2 h hlookup
      exact absurd ((isLive_eq_false hgone).symm.trans hlive) Bool.false_ne_true
    · exact hlookup

/-- A sweep removes the entries it passes, and none are added behind it. -/
theorem Purging.step {p : ℕ} {h : SessionHandle} (hshards : ∀ id, shardOf id < shards)
    (hpurging : Purging shardOf p h s) (hstep : s.step shardOf shards event = some t) :
    Purging shardOf p h t := by
  obtain ⟨hgone, hahead⟩ := hpurging
  have hback : ∀ id, t.map.lookup id = some h → s.map.lookup id = some h :=
    fun _ => lookup_of_step_of_gone hgone hstep
  refine ⟨(accesses_of_step hstep).ages.gone h hgone, ?_⟩
  cases pointMove_of_step hstep p with
  | stayed hpoint =>
    rw [hpoint]
    cases hs : s.points p with
    | sweeping kind shard todo out | swept kind out =>
      rw [hs] at hahead
      exact fun id hid => hahead id (hback id hid)
    | _ => trivial
  | looked h₁ h₂ =>
    cases hpoint : t.points p with
    | sweeping kind shard todo out => exact absurd hpoint (h₁ kind shard todo out)
    | swept kind out => exact absurd hpoint (h₂ kind out)
    | _ => trivial
  | began kind hpoint =>
    rw [hpoint]
    intro id hid
    rcases Nat.eq_zero_or_pos (shardOf id) with hzero | hpos
    · exact Or.inr ⟨hzero, mem_idsOf hid hzero⟩
    · exact Or.inl hpos
  | visited kind shard id' todo out hpoint hmap hnext =>
    rw [hpoint] at hahead
    rw [hnext]
    intro id hid
    have hid' := hback id hid
    rcases hahead id hid' with hlt | ⟨heq, hmem⟩
    · exact Or.inl hlt
    · rcases List.mem_cons.mp hmem with rfl | hmem
      · -- its entry was just visited, and is gone
        rw [hmap] at hid
        rcases visitEntry_cases s kind id out with ⟨hnone, -⟩ | ⟨h', hlookup, hlive, -⟩ |
          ⟨h', hlookup, -, heq'⟩
        · exact absurd (hnone.symm.trans hid') (by simp)
        · obtain rfl := Option.some.inj (hlookup.symm.trans hid')
          exact absurd ((isLive_eq_false hgone).symm.trans hlive) Bool.false_ne_true
        · rw [heq'] at hid
          have herase : (s.map.erase id).lookup id = some h := hid
          rw [AList.lookup_erase] at herase
          cases herase
      · exact Or.inr ⟨heq, hmem⟩
  | entered kind shard out hpoint hshard hnext =>
    rw [hpoint] at hahead
    rw [hnext]
    intro id hid
    rcases hahead id (hback id hid) with hlt | ⟨-, hmem⟩
    · rcases Nat.lt_or_eq_of_le (Nat.succ_le_of_lt hlt) with hlt | heq
      · exact Or.inl hlt
      · exact Or.inr ⟨heq.symm, mem_idsOf hid heq.symm⟩
    · exact absurd hmem List.not_mem_nil
  | finished kind shard out hpoint hshard hnext =>
    rw [hpoint] at hahead
    rw [hnext]
    intro id hid
    have hlt := hshards id
    rcases hahead id (hback id hid) with hlt' | ⟨-, hmem⟩
    · omega
    · exact absurd hmem List.not_mem_nil

/-! ### The results -/

section Results

variable {p : ℕ} {kind : SweepKind} {events : List SessionEvent}
  {out : List (ConnectionId × SessionHandle)}

/-- **What a list of connections holds.**  A call of `active_handles` or `active_ids`, with any
accesses of other tasks in between, lists no id twice; it lists every connection that is registered
and alive from its beginning to its end, and none that is so at no time in between. -/
theorem swept_exact (hshards : ∀ id, shardOf id < shards) (hkind : kind ≠ .prune)
    (hbegin : s.step shardOf shards (.sweep p kind) = some t) {u : Sessions}
    (hrun : Trace.exec (step · shardOf shards) t events = some u)
    (hend : u.points p = .swept kind out) :
    (out.map Prod.fst).Nodup ∧
      (∀ id h, Trace.Always (step · shardOf shards) (Registered id h) t events → (id, h) ∈ out) ∧
      ∀ id h, Trace.Always (step · shardOf shards) (fun v => ¬ Registered id h v) t events →
        (id, h) ∉ out := by
  have hpoint : t.points p = .sweeping kind 0 (t.idsOf shardOf 0) [] := by
    obtain ⟨-, ht⟩ := Option.ite_none_right_eq_some.mp hbegin
    cases ht
    exact goto_points_self ..
  refine ⟨?_, fun id h halways => ?_, fun id h hnever => ?_⟩
  · have hfirst : Distinct shardOf p t := by
      rw [Distinct, hpoint]
      exact ⟨List.nodup_nil, nodup_idsOf t shardOf 0, fun _ => shardOf_of_mem_idsOf,
        fun _ hmem => absurd hmem List.not_mem_nil⟩
    have hlast : Distinct shardOf p u :=
      Trace.exec_invariant (fun _ _ _ hs => hs.step) hfirst hrun
    rwa [Distinct, hend] at hlast
  · have hfirst : Covered shardOf p id h t := by
      rw [Covered, hpoint]
      exact fun _ => ⟨fun hlt => absurd hlt (Nat.not_lt_zero _),
        fun heq => Or.inl (mem_idsOf halways.head.1 heq)⟩
    have hlast : Covered shardOf p id h u := halways.invariant
      (fun _ _ _ hs ht hcovered hstep => hcovered.step hshards hs ht hstep) hfirst hrun
    rw [Covered, hend] at hlast
    exact hlast hkind
  · have hfirst : (id, h) ∉ t.collected p := by
      rw [collected, hpoint]
      exact List.not_mem_nil
    have hkeep : ∀ v event w, ¬ Registered id h v → ¬ Registered id h w →
        (id, h) ∉ v.collected p → v.step shardOf shards event = some w → (id, h) ∉ w.collected p :=
      fun _ _ _ hv _ hnot hstep => not_mem_collected_of_step hnot hv hstep
    have hlast := hnever.invariant hkeep hfirst hrun
    rwa [collected, hend] at hlast

/-- Two connections, one of which is gone, and a list of the live ones. -/
theorem swept_exact_two :
    ∃ s t u, Trace.exec (step · (fun _ => 0) 1) start
        [.create 7, .insert ⟨1⟩ 7, .create 8, .insert ⟨2⟩ 8, .drop 7] = some s ∧
      s.step (fun _ => 0) 1 (.sweep 0 .activeIds) = some t ∧
      Trace.exec (step · (fun _ => 0) 1) t [.visit 0, .visit 0, .enter 0] = some u ∧
      u.points 0 = .swept .activeIds [(⟨2⟩, 8)] ∧
      ([((⟨2⟩ : ConnectionId), 8)].map Prod.fst).Nodup ∧
      (∀ id h, Trace.Always (step · (fun _ => 0) 1) (Registered id h) t
        [.visit 0, .visit 0, .enter 0] → (id, h) ∈ [((⟨2⟩ : ConnectionId), 8)]) ∧
      ∀ id h, Trace.Always (step · (fun _ => 0) 1) (fun v => ¬ Registered id h v) t
        [.visit 0, .visit 0, .enter 0] → (id, h) ∉ [((⟨2⟩ : ConnectionId), 8)] := by
  have hview : (Trace.exec (step · (fun _ => 0) 1) start
      [.create 7, .insert ⟨1⟩ 7, .create 8, .insert ⟨2⟩ 8, .drop 7]).bind (fun s =>
        (s.step (fun _ => 0) 1 (.sweep 0 .activeIds)).bind fun t =>
          (Trace.exec (step · (fun _ => 0) 1) t [.visit 0, .visit 0, .enter 0]).map
            (·.points 0)) = some (.swept .activeIds [(⟨2⟩, 8)]) := rfl
  obtain ⟨s, hs, hrest⟩ := Option.bind_eq_some_iff.mp hview
  obtain ⟨t, ht, hrest⟩ := Option.bind_eq_some_iff.mp hrest
  obtain ⟨u, hu, hpoint⟩ := Option.map_eq_some_iff.mp hrest
  exact ⟨s, t, u, hs, ht, hu, hpoint,
    swept_exact (fun _ => Nat.zero_lt_one) (by decide) ht hu hpoint⟩

/-- **What a sweep removes.**  When `prune`, `active_handles` or `active_ids` returns, no entry is
left of a handle that was gone when the call began, whatever others did meanwhile. -/
theorem swept_purges (hshards : ∀ id, shardOf id < shards)
    (hbegin : s.step shardOf shards (.sweep p kind) = some t) {u : Sessions}
    (hrun : Trace.exec (step · shardOf shards) t events = some u)
    (hend : u.points p = .swept kind out) {h : SessionHandle} (hgone : s.strong h = some 0)
    (id : ConnectionId) : u.map.lookup id ≠ some h := by
  obtain ⟨-, ht⟩ := Option.ite_none_right_eq_some.mp hbegin
  cases ht
  have hfirst : Purging shardOf p h (s.goto p (.sweeping kind 0 (s.idsOf shardOf 0) [])) := by
    refine ⟨hgone, ?_⟩
    rw [goto_points_self]
    intro id hid
    rcases Nat.eq_zero_or_pos (shardOf id) with hzero | hpos
    · exact Or.inr ⟨hzero, mem_idsOf hid hzero⟩
    · exact Or.inl hpos
  have hlast : Purging shardOf p h u :=
    Trace.exec_invariant (fun _ _ _ hs => hs.step hshards) hfirst hrun
  have hnone := hlast.2
  rw [hend] at hnone
  exact hnone id

/-- A pruned registry has no entry of the handle that was dropped. -/
theorem swept_purges_one :
    ∃ s t u, Trace.exec (step · (fun _ => 0) 1) start
        [.create 7, .insert ⟨1⟩ 7, .drop 7] = some s ∧ s.strong 7 = some 0 ∧
      s.map.lookup ⟨1⟩ = some 7 ∧ s.step (fun _ => 0) 1 (.sweep 0 .prune) = some t ∧
      Trace.exec (step · (fun _ => 0) 1) t [.visit 0, .enter 0] = some u ∧
      u.points 0 = .swept .prune [] ∧ u.map.lookup ⟨1⟩ ≠ some 7 := by
  have hview : (Trace.exec (step · (fun _ => 0) 1) start
      [.create 7, .insert ⟨1⟩ 7, .drop 7]).bind (fun s =>
        (s.step (fun _ => 0) 1 (.sweep 0 .prune)).bind fun t =>
          (Trace.exec (step · (fun _ => 0) 1) t [.visit 0, .enter 0]).map
            fun u => (s.strong 7, s.map.lookup ⟨1⟩, u.points 0)) =
      some (some 0, some 7, .swept .prune []) := rfl
  obtain ⟨s, hs, hrest⟩ := Option.bind_eq_some_iff.mp hview
  obtain ⟨t, ht, hrest⟩ := Option.bind_eq_some_iff.mp hrest
  obtain ⟨u, hu, hfields⟩ := Option.map_eq_some_iff.mp hrest
  obtain ⟨hgone, hfields⟩ := Prod.mk.inj hfields
  obtain ⟨hlookup, hpoint⟩ := Prod.mk.inj hfields
  exact ⟨s, t, u, hs, hgone, hlookup, ht, hu, hpoint,
    swept_purges (fun _ => Nat.zero_lt_one) ht hu hpoint hgone ⟨1⟩⟩

end Results

end Sessions

end Wireframe
