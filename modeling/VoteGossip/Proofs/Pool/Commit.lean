import Mathlib.Data.List.Basic
import Mathlib.Data.List.Induction
import VoteGossip.Proofs.Pool.Index
import VoteGossip.Proofs.TreeMap

/-!
What a committed block does to a pool. The entries whose transactions were committed leave, and all
others stay what and where they are. On the way the window may let go of tombstones, at other
moments in another order of the transactions. But a window is known by its end and its live entries,
so the pool in the end depends on nothing but which names were committed: not on their order, not on
how often each of them is named, and not on how they are spread over several updates.
-/

set_option autoImplicit false

namespace VoteGossip.Pool

variable {pool before after other first second third start : Pool} {names more : List TxId}
  {id : TxId} {position : Nat} {entry : PoolEntry}

theorem find?_eq_some_iff (indexes : Indexes pool.index pool.log.window) :
    pool.find? id = some (position, entry) ↔
      pool.entry position = .ready entry ∧ entry.id = id := by
  constructor
  · intro found
    rw [find?] at found
    cases indexed : pool.index[id]? with
    | none =>
        rw [indexed] at found
        cases found
    | some place =>
        obtain ⟨holding, live, named⟩ := (indexes id place).mp indexed
        have ready : pool.entry place = .ready holding := Log.get_eq_ready_iff.mpr live
        simp only [indexed, Option.bind_eq_bind, Option.bind_some, ready, Slot.ready?] at found
        cases found
        exact ⟨ready, named⟩
  · intro both
    obtain ⟨ready, named⟩ := both
    rw [← named]
    exact find?_of_live indexes ready

/-- Between the pools before and after, the entries of these names were dropped, and nothing else
happened. -/
structure Drops (before : Pool) (names : List TxId) (after : Pool) : Prop where
  log_valid : after.log.Valid
  indexes : Indexes after.index after.log.window
  live_iff : ∀ position entry, after.log.window.entry? position = some entry ↔
    before.log.window.entry? position = some entry ∧ entry.id ∉ names
  stop_eq : after.log.window.stop = before.log.window.stop
  rest : ∃ index window, after = { before with index, log := { before.log with window } }

theorem Drops.refl (valid : pool.log.Valid) (indexes : Indexes pool.index pool.log.window) :
    Drops pool [] pool where
  log_valid := valid
  indexes := indexes
  live_iff := fun _ _ => (and_iff_left List.not_mem_nil).symm
  stop_eq := rfl
  rest := ⟨pool.index, pool.log.window, rfl⟩

theorem Drops.trans (early : Drops first names second) (late : Drops second more third) :
    Drops first (names ++ more) third where
  log_valid := late.log_valid
  indexes := late.indexes
  live_iff := fun position entry => by
    rw [late.live_iff, early.live_iff, List.mem_append, not_or, and_assoc]
  stop_eq := late.stop_eq.trans early.stop_eq
  rest := by
    obtain ⟨index, window, rfl⟩ := early.rest
    obtain ⟨lastIndex, lastWindow, rfl⟩ := late.rest
    exact ⟨lastIndex, lastWindow, rfl⟩

theorem Indexes.unique {left right : Std.ExtTreeMap TxId Nat} {window : Log.Window PoolEntry}
    (leftIndexes : Indexes left window) (rightIndexes : Indexes right window) : left = right := by
  apply Std.ExtTreeMap.ext_getElem?
  intro id
  apply Option.ext
  intro position
  exact (leftIndexes id position).trans (rightIndexes id position).symm

/-- The pool afterwards depends on which names were dropped and on nothing else. -/
theorem Drops.unique (drops : Drops before names after) (otherDrops : Drops before more other)
    (same : ∀ id, id ∈ names ↔ id ∈ more) : after = other := by
  have live : ∀ position,
      after.log.window.entry? position = other.log.window.entry? position := by
    intro position
    apply Option.ext
    intro entry
    rw [drops.live_iff, otherDrops.live_iff, same]
  have windows : after.log.window = other.log.window :=
    drops.log_valid.window_valid.ext otherDrops.log_valid.window_valid
      (drops.stop_eq.trans otherDrops.stop_eq.symm) live
  have indices : after.index = other.index := by
    have indexes := drops.indexes
    rw [windows] at indexes
    exact indexes.unique otherDrops.indexes
  obtain ⟨index, window, rfl⟩ := drops.rest
  obtain ⟨otherIndex, otherWindow, rfl⟩ := otherDrops.rest
  cases windows
  cases indices
  rfl

theorem found_dropCommitted (indexes : Indexes pool.index pool.log.window) (id : TxId) :
    (pool.dropCommitted id).2 = pool.contains id := by
  unfold dropCommitted
  rw [contains, Std.ExtTreeMap.contains_eq_isSome_getElem?]
  cases indexed : pool.index[id]? with
  | none => rfl
  | some position =>
      obtain ⟨entry, live, _⟩ := (indexes id position).mp indexed
      simp only [Log.remove?, live]
      rfl

theorem Drops.dropCommitted (valid : pool.log.Valid)
    (indexes : Indexes pool.index pool.log.window) (id : TxId) :
    Drops pool [id] (pool.dropCommitted id).1 := by
  rcases dropCommitted_cases pool id with
    ⟨missing, same⟩ | ⟨position, indexed, dead, _⟩ | ⟨position, entry, indexed, live, same⟩
  · rw [same]
    refine ⟨valid, indexes, ?_, rfl, pool.index, pool.log.window, rfl⟩
    intro position entry
    refine (and_iff_left_of_imp ?_).symm
    intro live named
    have pending := (indexes entry.id position).mpr ⟨entry, live, rfl⟩
    rw [List.mem_singleton.mp named, missing] at pending
    cases pending
  -- The index never leads to a dead slot.
  · obtain ⟨entry, live, _⟩ := (indexes id position).mp indexed
    rw [dead] at live
    cases live
  · obtain ⟨found, foundLive, named⟩ := (indexes id position).mp indexed
    rw [live] at foundLive
    cases foundLive
    have erased := indexes.erase live
    rw [named] at erased
    rw [same]
    refine ⟨valid.remove live, erased, ?_, Log.Window.stop_remove _ _, _, _, rfl⟩
    intro place kept
    change Log.Window.entry? (pool.log.window.remove position) place = some kept ↔ _
    rw [Log.Window.entry?_remove (Log.Window.base_le_of_live live), List.mem_singleton]
    by_cases here : place = position
    · rw [if_pos here, here, live]
      constructor
      · intro impossible; cases impossible
      · intro both
        cases both.1
        exact absurd named both.2
    · rw [if_neg here]
      refine (and_iff_left_of_imp ?_).symm
      intro stays sameName
      exact here (indexes.distinct stays live (sameName.trans named.symm))

theorem size_dropCommitted (indexes : Indexes pool.index pool.log.window) (id : TxId) :
    (pool.dropCommitted id).1.size + (if pool.contains id then 1 else 0) = pool.size := by
  rcases dropCommitted_cases pool id with
    ⟨missing, same⟩ | ⟨position, indexed, dead, _⟩ | ⟨position, entry, indexed, live, same⟩
  · rw [same, contains_eq_false_iff.mpr missing]
    rfl
  · obtain ⟨entry, live, _⟩ := (indexes id position).mp indexed
    rw [dead] at live
    cases live
  · rw [same, if_pos (contains_of_indexed indexed)]
    exact TreeMap.size_erase_of_found indexed

theorem dropAll_snoc (pool : Pool) (earlier : List Tx) (last : Tx) :
    pool.dropAll (earlier ++ [last]) =
      (((pool.dropAll earlier).1.dropCommitted last.id).1,
        if ((pool.dropAll earlier).1.dropCommitted last.id).2 then (pool.dropAll earlier).2 + 1
        else (pool.dropAll earlier).2) := by
  rw [dropAll, List.foldl_append]
  rfl

theorem Drops.dropAll (valid : pool.log.Valid) (indexes : Indexes pool.index pool.log.window)
    (committed : List Tx) : Drops pool (committed.map Tx.id) (pool.dropAll committed).1 := by
  induction committed using List.reverseRecOn with
  | nil => exact .refl valid indexes
  | append_singleton earlier last ih =>
      rw [dropAll_snoc, List.map_append]
      exact ih.trans (.dropCommitted ih.log_valid ih.indexes last.id)

theorem count_dropAll (valid : pool.log.Valid) (indexes : Indexes pool.index pool.log.window)
    (committed : List Tx) :
    (pool.dropAll committed).1.size + (pool.dropAll committed).2 = pool.size := by
  induction committed using List.reverseRecOn with
  | nil => rfl
  | append_singleton earlier last ih =>
      have dropped := Drops.dropAll valid indexes earlier
      have smaller := size_dropCommitted dropped.indexes last.id
      rw [dropAll_snoc, found_dropCommitted dropped.indexes]
      dsimp only
      split at smaller
      · rename_i present
        rw [if_pos present]
        omega
      · rename_i absent
        rw [if_neg absent]
        omega

theorem Drops.update (valid : pool.log.Valid) (indexes : Indexes pool.index pool.log.window)
    (height : UInt64) (committed : List Tx) :
    Drops { pool with height } (committed.map Tx.id) (pool.update height committed).pool :=
  @Drops.dropAll { pool with height } valid indexes committed

theorem Drops.ready_iff (drops : Drops before names after) :
    after.entry position = .ready entry ↔
      before.entry position = .ready entry ∧ entry.id ∉ names := by
  change after.log.get position = .ready entry ↔ before.log.get position = .ready entry ∧ _
  rw [Log.get_eq_ready_iff, Log.get_eq_ready_iff, drops.live_iff]

theorem Drops.find?_eq (drops : Drops before names after)
    (indexes : Indexes before.index before.log.window) (id : TxId) :
    after.find? id = if id ∈ names then none else before.find? id := by
  apply Option.ext
  intro found
  obtain ⟨position, entry⟩ := found
  rw [find?_eq_some_iff drops.indexes, drops.ready_iff]
  split
  · rename_i dropped
    constructor
    · intro kept
      obtain ⟨⟨_, stays⟩, rfl⟩ := kept
      exact absurd dropped stays
    · intro impossible; cases impossible
  · rename_i stays
    rw [find?_eq_some_iff indexes]
    constructor
    · intro kept
      exact ⟨kept.1.1, kept.2⟩
    · intro kept
      obtain ⟨ready, rfl⟩ := kept
      exact ⟨⟨ready, stays⟩, rfl⟩

theorem Drops.entries_eq (drops : Drops before names after) :
    after.log.entries = before.log.entries.filter fun entry => entry.id ∉ names := by
  have live : ∀ position, after.log.window.entry? position =
      (before.log.window.entry? position).filter fun entry => entry.id ∉ names := by
    intro position
    apply Option.ext
    intro entry
    rw [drops.live_iff, Option.filter_eq_some_iff, decide_eq_true_iff]
  rw [Log.entries, Log.entries, Log.Window.entries_eq_filterMap, Log.Window.entries_eq_filterMap,
    drops.stop_eq, List.filter_filterMap]
  exact List.filterMap_congr fun position _ => live position

/-- An entry that was dropped is removed, or evicted if nothing live is left in front of it. -/
theorem Drops.gone (drops : Drops before names after)
    (ready : before.entry position = .ready entry) (dropped : entry.id ∈ names) :
    after.entry position = .removed ∨ after.entry position = .evicted := by
  have live := Log.get_eq_ready_iff.mp ready
  have written := Log.Window.lt_stop_of_live live
  cases slot : after.entry position with
  | removed => exact Or.inl rfl
  | evicted => exact Or.inr rfl
  | pending =>
      have beyond := Log.get_eq_pending_iff.mp slot
      rw [drops.stop_eq] at beyond
      exact absurd beyond (Nat.not_le.mpr written)
  | ready found =>
      obtain ⟨foundReady, stays⟩ := drops.ready_iff.mp slot
      rw [ready] at foundReady
      cases foundReady
      exact absurd dropped stays

/-- What a committed block does to a pool. -/
structure Commits (before : Pool) (height : UInt64) (committed : List Tx) : Prop where
  height_eq : (before.update height committed).pool.height = height
  ready_iff : ∀ position entry,
    (before.update height committed).pool.entry position = .ready entry ↔
      before.entry position = .ready entry ∧ entry.id ∉ committed.map Tx.id
  find_eq : ∀ id, (before.update height committed).pool.find? id =
    if id ∈ committed.map Tx.id then none else before.find? id
  entries_eq : (before.update height committed).pool.log.entries =
    before.log.entries.filter fun entry => entry.id ∉ committed.map Tx.id
  holders_eq : (before.update height committed).pool.holders = before.holders
  stop_eq : (before.update height committed).pool.log.written = before.log.written
  gone : ∀ position entry, before.entry position = .ready entry →
    entry.id ∈ committed.map Tx.id →
    (before.update height committed).pool.entry position = .removed ∨
      (before.update height committed).pool.entry position = .evicted
  /-- Neither order nor repetition counts, only which names are committed. -/
  names_only : ∀ other : List Tx, (∀ id, id ∈ committed.map Tx.id ↔ id ∈ other.map Tx.id) →
    (before.update height committed).pool = (before.update height other).pool
  append : ∀ further : List Tx, (before.update height (committed ++ further)).pool =
    ((before.update height committed).pool.update height further).pool
  reported : ∃ removed, before.size = (before.update height committed).pool.size + removed ∧
    (before.update height committed).events =
      [.updated height removed (before.update height committed).pool.size]
  rest : ∃ index window, (before.update height committed).pool =
    { before with height, index, log := { before.log with window } }

theorem Drops.append (drops : Drops before names after) (more : List Tx) :
    Drops before (names ++ more.map Tx.id) (after.update before.height more).pool := by
  have same : ({ after with height := before.height } : Pool) = after := by
    obtain ⟨index, window, rfl⟩ := drops.rest
    rfl
  have further := Drops.update drops.log_valid drops.indexes before.height more
  rw [same] at further
  exact drops.trans further

theorem Coherent.commits (coherent : pool.Coherent) (height : UInt64) (committed : List Tx) :
    pool.Commits height committed := by
  have valid := coherent.log_valid
  have indexes := coherent.indexes
  have drops := Drops.update valid indexes height committed
  obtain ⟨index, window, frame⟩ := drops.rest
  refine
    { height_eq := ?_
      ready_iff := fun _ _ => drops.ready_iff
      find_eq := drops.find?_eq indexes
      entries_eq := drops.entries_eq
      holders_eq := ?_
      stop_eq := ?_
      gone := fun _ _ => drops.gone
      names_only := fun other => drops.unique (Drops.update valid indexes height other)
      append := ?_
      reported := ⟨_, ?_, rfl⟩
      rest := ⟨index, window, frame⟩ }
  · rw [frame]
  · rw [frame]
  · rw [frame]
  · intro further
    have atOnce := Drops.update valid indexes height (committed ++ further)
    refine atOnce.unique (drops.append further) ?_
    intro id
    rw [List.map_append]
  · exact (@count_dropAll { pool with height } valid indexes committed).symm

/-- However a pool was used, a committed block takes out what was committed and nothing else, in
whatever order and however often the transactions are named. -/
theorem run_commits {config : PoolConfig} {validator : Validator}
    (made : Pool.new config validator = .ok start) (operations : List Operation) (height : UInt64)
    (committed : List Tx) : (start.run operations).Commits height committed :=
  ((coherent_new made).run operations).commits height committed

/-- The first entry is let go at once, and the third leaves a tombstone between two live ones. The
same names in another order, and some of them again, lead to the same pool. -/
theorem commits_in_another_order :
    ∃ start, Pool.new { maxTxs := 4, maxRetained := 4 } Validator.acceptAll = .ok start ∧
      let pool := start.run [.submit ⟨[97]⟩ ⟨1⟩, .submit ⟨[98]⟩ ⟨2⟩, .submit ⟨[99]⟩ ⟨3⟩,
        .submit ⟨[100]⟩ ⟨4⟩]
      let after := (pool.update 7 [⟨[99]⟩, ⟨[120]⟩, ⟨[97]⟩, ⟨[99]⟩]).pool
      pool.Commits 7 [⟨[99]⟩, ⟨[120]⟩, ⟨[97]⟩, ⟨[99]⟩] ∧
        after.entry 0 = .evicted ∧ after.entry 2 = .removed ∧ after.front = some 1 ∧
        after.log.retained = 3 ∧ after.size = 2 ∧
        after = (pool.update 7 [⟨[97]⟩, ⟨[99]⟩, ⟨[97]⟩, ⟨[120]⟩]).pool := by
  refine ⟨_, rfl, ?_⟩
  intro pool after
  have made : Pool.new { maxTxs := 4, maxRetained := 4 } Validator.acceptAll = .ok _ := rfl
  have commits : pool.Commits 7 [⟨[99]⟩, ⟨[120]⟩, ⟨[97]⟩, ⟨[99]⟩] := run_commits made _ 7 _
  have seen : after.entry 0 = .evicted ∧ after.entry 2 = .removed ∧ after.front = some 1 ∧
      after.log.retained = 3 ∧ after.size = 2 := by
    decide +kernel
  obtain ⟨evicted, removed, front, retained, size⟩ := seen
  refine ⟨commits, evicted, removed, front, retained, size, commits.names_only _ ?_⟩
  intro id
  simp only [List.map_cons, List.map_nil, List.mem_cons, List.not_mem_nil, or_false]
  constructor
  · rintro (third | unknown | first | third)
    · exact Or.inr (Or.inl third)
    · exact Or.inr (Or.inr (Or.inr unknown))
    · exact Or.inl first
    · exact Or.inr (Or.inl third)
  · rintro (first | third | first | unknown)
    · exact Or.inr (Or.inr (Or.inl first))
    · exact Or.inl third
    · exact Or.inr (Or.inr (Or.inl first))
    · exact Or.inr (Or.inl unknown)

end VoteGossip.Pool
