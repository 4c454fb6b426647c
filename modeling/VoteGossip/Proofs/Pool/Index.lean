import VoteGossip.Proofs.Pool.Run

/-!
The index of a pool and its log say the same. The index leads from a name to a position exactly
when the log has a live entry of that name there, whatever was submitted, committed, flushed or
evicted before.
-/

set_option autoImplicit false

namespace VoteGossip.Pool

def Indexes (index : Std.ExtTreeMap TxId Nat) (window : Log.Window PoolEntry) : Prop :=
  ∀ id position, index[id]? = some position ↔
    ∃ entry, window.entry? position = some entry ∧ entry.id = id

variable {index : Std.ExtTreeMap TxId Nat} {window : Log.Window PoolEntry}

theorem Indexes.distinct (indexes : Indexes index window) {left right : Nat}
    {first second : PoolEntry} (firstLive : window.entry? left = some first)
    (secondLive : window.entry? right = some second) (same : first.id = second.id) :
    left = right := by
  have toLeft := (indexes first.id left).mpr ⟨first, firstLive, rfl⟩
  have toRight := (indexes first.id right).mpr ⟨second, secondLive, same.symm⟩
  rw [toLeft] at toRight
  exact Option.some.inj toRight

theorem indexes_empty {window : Log.Window PoolEntry}
    (dead : ∀ position, window.entry? position = none) : Indexes ∅ window := by
  intro id position
  rw [Std.ExtTreeMap.getElem?_empty, dead]
  simp only [reduceCtorEq, false_and, exists_false]

theorem Indexes.insert (indexes : Indexes index window) {entry : PoolEntry}
    (fresh : index[entry.id]? = none) :
    Indexes (index.insert entry.id window.stop) (window.append entry) := by
  intro id position
  rw [Std.ExtTreeMap.getElem?_insert, Log.Window.entry?_append]
  by_cases named : entry.id = id
  · rw [if_pos (Std.compare_eq_iff_eq.mpr named)]
    constructor
    · intro atEnd
      cases atEnd
      exact ⟨entry, if_pos rfl, named⟩
    · rintro ⟨found, live, sameName⟩
      by_cases atEnd : position = window.stop
      · rw [atEnd]
      · rw [if_neg atEnd] at live
        have old := (indexes id position).mpr ⟨found, live, sameName⟩
        rw [← named, fresh] at old
        cases old
  · rw [if_neg (fun equal => named (Std.compare_eq_iff_eq.mp equal)), indexes id position]
    by_cases atEnd : position = window.stop
    · rw [if_pos atEnd, atEnd, Log.Window.entry?_of_stop_le (Nat.le_refl _)]
      constructor
      · rintro ⟨found, live, _⟩
        cases live
      · rintro ⟨found, live, sameName⟩
        cases live
        exact absurd sameName named
    · rw [if_neg atEnd]

theorem Indexes.erase (indexes : Indexes index window) {removed : Nat} {entry : PoolEntry}
    (gone : window.entry? removed = some entry) :
    Indexes (index.erase entry.id) (window.remove removed) := by
  intro id position
  rw [Std.ExtTreeMap.getElem?_erase, Log.Window.entry?_remove (Log.Window.base_le_of_live gone)]
  by_cases atRemoved : position = removed
  · rw [if_pos atRemoved]
    constructor
    · intro found
      split at found
      · cases found
      · rename_i different
        obtain ⟨other, live, named⟩ := (indexes id position).mp found
        rw [atRemoved, gone] at live
        cases live
        exact absurd (Std.compare_eq_iff_eq.mpr named) different
    · rintro ⟨other, live, _⟩
      cases live
  · rw [if_neg atRemoved]
    by_cases named : entry.id = id
    · rw [if_pos (Std.compare_eq_iff_eq.mpr named)]
      constructor
      · intro found; cases found
      · rintro ⟨other, live, sameName⟩
        exact absurd (indexes.distinct live gone (sameName.trans named.symm)) atRemoved
    · rw [if_neg (fun equal => named (Std.compare_eq_iff_eq.mp equal))]
      exact indexes id position

theorem Indexes.size_eq (indexes : Indexes index window) : index.size = window.entries.length := by
  let pairs := (List.range window.stop).filterMap fun position =>
    (window.entry? position).map fun entry => (entry.id, position)
  have pairsDistinct : pairs.Nodup := by
    refine List.Pairwise.filterMap _ ?_ List.pairwise_lt_range
    intro first second less left leftEq right rightEq same
    obtain ⟨_, _, rfl⟩ := Option.map_eq_some_iff.mp leftEq
    obtain ⟨_, _, rfl⟩ := Option.map_eq_some_iff.mp rightEq
    exact Nat.ne_of_lt less (congrArg Prod.snd same)
  have indexDistinct : index.toList.Nodup := by
    refine Std.ExtTreeMap.distinct_keys_toList.imp ?_
    intro left right different same
    exact different (Std.compare_eq_iff_eq.mpr (congrArg Prod.fst same))
  have members : ∀ pair, pair ∈ index.toList ↔ pair ∈ pairs := by
    rintro ⟨id, position⟩
    rw [Std.ExtTreeMap.mem_toList_iff_getElem?_eq_some, indexes id position, List.mem_filterMap]
    constructor
    · rintro ⟨entry, live, rfl⟩
      refine ⟨position, List.mem_range.mpr (Log.Window.lt_stop_of_live live), ?_⟩
      rw [live]
      rfl
    · rintro ⟨other, _, pairEq⟩
      obtain ⟨entry, live, same⟩ := Option.map_eq_some_iff.mp pairEq
      cases same
      exact ⟨entry, live, rfl⟩
  have listed := (List.perm_ext_iff_of_nodup indexDistinct pairsDistinct).mpr
    (fun {pair} => members pair)
  rw [← Std.ExtTreeMap.length_toList, listed.length_eq, Log.Window.entries_eq_filterMap,
    List.length_filterMap_eq_countP, List.length_filterMap_eq_countP]
  congr 1
  funext position
  exact Option.isSome_map

/-- What an entry went through before it was written. -/
structure Admitted (config : PoolConfig) (validator : Validator) (entry : PoolEntry) : Prop where
  id_eq : entry.id = entry.tx.id
  size_le : entry.tx.size ≤ config.maxTxBytes.toNat
  passed : validator entry.tx = .ok ()

structure Coherent (pool : Pool) : Prop where
  log_valid : pool.log.Valid
  retention_eq : pool.log.retention = max pool.config.maxRetained.toNat 1
  indexes : Indexes pool.index pool.log.window
  admitted : ∀ position entry, pool.log.window.entry? position = some entry →
    Admitted pool.config pool.validator entry
  bounded : pool.size ≤ pool.config.maxTxs.toNat

theorem Coherent.size_eq {pool : Pool} (coherent : pool.Coherent) : pool.size = pool.log.size :=
  coherent.indexes.size_eq.trans (Log.size_eq_length coherent.log_valid).symm

theorem new_eq {config : PoolConfig} {validator : Validator} {pool : Pool}
    (made : Pool.new config validator = .ok pool) :
    config.validate = .ok () ∧ pool =
      { config
        validator
        log := .empty config.maxRetained.toNat
        index := ∅
        holders := #[]
        height := 0 } := by
  unfold Pool.new at made
  cases checked : config.validate with
  | error refusal =>
      rw [checked] at made
      cases made
  | ok usable =>
      rw [checked] at made
      cases made
      exact ⟨rfl, rfl⟩

theorem coherent_new {config : PoolConfig} {validator : Validator} {pool : Pool}
    (made : Pool.new config validator = .ok pool) : pool.Coherent := by
  obtain ⟨_, rfl⟩ := new_eq made
  have dead : ∀ position,
      (Log.empty config.maxRetained.toNat : Log PoolEntry).window.entry? position = none :=
    fun position => rfl
  refine ⟨Log.valid_empty _, rfl, indexes_empty dead, ?_, ?_⟩
  · intro position entry live
    rw [dead] at live
    cases live
  · change (∅ : Std.ExtTreeMap TxId Nat).size ≤ _
    rw [Std.ExtTreeMap.size_empty]
    exact Nat.zero_le _

theorem Coherent.setHolders {pool : Pool} (coherent : pool.Coherent) (holders : Array PeerSet) :
    ({ pool with holders } : Pool).Coherent :=
  ⟨coherent.log_valid, coherent.retention_eq, coherent.indexes, coherent.admitted,
    coherent.bounded⟩

theorem Coherent.setHeight {pool : Pool} (coherent : pool.Coherent) (height : UInt64) :
    ({ pool with height } : Pool).Coherent :=
  ⟨coherent.log_valid, coherent.retention_eq, coherent.indexes, coherent.admitted,
    coherent.bounded⟩

theorem Indexes.accept {pool : Pool} (indexes : Indexes pool.index pool.log.window)
    (valid : pool.log.Valid) {tx : Tx} (sender : PeerId) (fresh : pool.index[tx.id]? = none) :
    Indexes (pool.accept tx tx.id sender).pool.index
      (pool.accept tx tx.id sender).pool.log.window := by
  let entry : PoolEntry := { tx, id := tx.id, height := pool.height }
  have grown : Indexes (pool.index.insert entry.id pool.log.window.stop)
      (pool.log.window.append entry) := indexes.insert fresh
  change Indexes ((pool.log.push entry).evicted.foldl (fun index entry => index.erase entry.id)
    (pool.index.insert entry.id pool.log.window.stop)) (pool.log.push entry).log.window
  rcases Log.push_cases valid entry with
    ⟨_, nothing, window⟩ | ⟨_, oldest, front, one, window⟩
  · rw [nothing, window]
    exact grown
  · rw [one, window]
    exact grown.erase (Log.Window.entry?_append_of_some front entry)

theorem Coherent.accept {pool : Pool} (coherent : pool.Coherent) {tx : Tx} (sender : PeerId)
    (fits : tx.size ≤ pool.config.maxTxBytes.toNat) (fresh : pool.index[tx.id]? = none)
    (passed : pool.validator tx = .ok ()) (few : pool.size < pool.config.maxTxs.toNat) :
    (pool.accept tx tx.id sender).pool.Coherent := by
  let entry : PoolEntry := { tx, id := tx.id, height := pool.height }
  have indexes := coherent.indexes.accept coherent.log_valid sender fresh
  have valid := coherent.log_valid.push entry
  refine ⟨valid, coherent.retention_eq, indexes, ?_, ?_⟩
  · intro position found live
    change (pool.log.push entry).log.window.entry? position = some found at live
    rw [Log.entry?_push coherent.log_valid] at live
    split at live
    · cases live
      exact ⟨rfl, fits, passed⟩
    · split at live
      · cases live
      · exact coherent.admitted position found live
  · have before := coherent.size_eq
    have after := indexes.size_eq.trans (Log.size_eq_length valid).symm
    have pushed := Log.size_push coherent.log_valid entry
    change (pool.accept tx tx.id sender).pool.index.size ≤ pool.config.maxTxs.toNat
    omega

theorem Coherent.submit {pool : Pool} (coherent : pool.Coherent) (tx : Tx) (sender : PeerId) :
    (pool.submit tx sender).pool.Coherent := by
  have ends := submission pool tx sender
  generalize pool.submit tx sender = reply at ends ⊢
  cases ends with
  | duplicate fits position entry indexed live =>
      obtain ⟨holders, same⟩ := addHolder_eq pool position sender
      rw [same]
      exact coherent.setHolders holders
  | accepted fits fresh passed few => exact coherent.accept sender fits fresh passed few
  | tooLarge | stale | invalid | full => exact coherent

theorem Coherent.dropCommitted {pool : Pool} (coherent : pool.Coherent) (id : TxId) :
    (pool.dropCommitted id).1.Coherent := by
  rcases dropCommitted_cases pool id with
    ⟨_, same⟩ | ⟨position, indexed, dead, _⟩ | ⟨position, entry, indexed, live, same⟩
  · rw [same]
    exact coherent
  · obtain ⟨entry, live, _⟩ := (coherent.indexes id position).mp indexed
    rw [dead] at live
    cases live
  · obtain ⟨found, foundLive, named⟩ := (coherent.indexes id position).mp indexed
    rw [live] at foundLive
    cases foundLive
    have indexes := coherent.indexes.erase live
    rw [named] at indexes
    rw [same]
    refine ⟨coherent.log_valid.remove live, coherent.retention_eq, indexes, ?_, ?_⟩
    · intro other kept still
      change Log.Window.entry? (pool.log.window.remove position) other = some kept at still
      rw [Log.Window.entry?_remove (Log.Window.base_le_of_live live)] at still
      split at still
      · cases still
      · exact coherent.admitted other kept still
    · exact Nat.le_trans Std.ExtTreeMap.size_erase_le coherent.bounded

theorem Coherent.update {pool : Pool} (coherent : pool.Coherent) (height : UInt64)
    (committed : List Tx) : (pool.update height committed).pool.Coherent :=
  dropAll_induction Coherent { pool with height } committed (coherent.setHeight height)
    fun _before id kept => kept.dropCommitted id

theorem Coherent.flush {pool : Pool} (coherent : pool.Coherent) : pool.flush.pool.Coherent := by
  have dead : ∀ position, pool.log.clear.window.entry? position = none :=
    fun position => Log.Window.entry?_drained pool.log.window position
  refine ⟨coherent.log_valid.clear, coherent.retention_eq, indexes_empty dead, ?_, ?_⟩
  · intro position entry live
    change pool.log.clear.window.entry? position = some entry at live
    rw [dead] at live
    cases live
  · change (∅ : Std.ExtTreeMap TxId Nat).size ≤ _
    rw [Std.ExtTreeMap.size_empty]
    exact Nat.zero_le _

theorem Coherent.perform {pool : Pool} (coherent : pool.Coherent) (operation : Operation) :
    (pool.perform operation).Coherent := by
  cases operation with
  | submit tx sender => exact coherent.submit tx sender
  | update height committed => exact coherent.update height committed
  | flush => exact coherent.flush
  | addHolder position peer =>
      obtain ⟨holders, same⟩ := addHolder_eq pool position peer
      change (pool.addHolder position peer).1.Coherent
      rw [same]
      exact coherent.setHolders holders

theorem Coherent.run {pool : Pool} (coherent : pool.Coherent) (operations : List Operation) :
    (pool.run operations).Coherent :=
  run_induction Coherent pool operations coherent
    fun _before operation kept => kept.perform operation

theorem Coherent.evolves_submit {pool : Pool} (coherent : pool.Coherent) (tx : Tx)
    (sender : PeerId) : pool.log.Evolves (pool.submit tx sender).pool.log := by
  have ends := submission pool tx sender
  generalize pool.submit tx sender = reply at ends ⊢
  cases ends with
  | duplicate fits position entry indexed live =>
      obtain ⟨holders, same⟩ := addHolder_eq pool position sender
      rw [same]
      exact Log.Evolves.refl pool.log
  | accepted fits fresh passed few => exact Log.evolves_push coherent.log_valid _
  | tooLarge | stale | invalid | full => exact Log.Evolves.refl pool.log

theorem evolves_dropCommitted (pool : Pool) (id : TxId) :
    pool.log.Evolves (pool.dropCommitted id).1.log := by
  rcases dropCommitted_cases pool id with
    ⟨_, same⟩ | ⟨position, _, _, same⟩ | ⟨position, entry, _, live, same⟩
  · rw [same]
    exact Log.Evolves.refl pool.log
  · rw [same]
    exact Log.Evolves.refl pool.log
  · rw [same]
    exact Log.evolves_remove live

theorem Coherent.evolves_update {pool : Pool} (coherent : pool.Coherent) (height : UInt64)
    (committed : List Tx) : pool.log.Evolves (pool.update height committed).pool.log := by
  have dropped := dropAll_induction (fun later => later.Coherent ∧ pool.log.Evolves later.log)
    { pool with height } committed ⟨coherent.setHeight height, Log.Evolves.refl pool.log⟩ <| by
      rintro before id ⟨kept, moved⟩
      exact ⟨kept.dropCommitted id, moved.trans (before.evolves_dropCommitted id)⟩
  exact dropped.2

theorem Coherent.evolves_perform {pool : Pool} (coherent : pool.Coherent) (operation : Operation) :
    pool.log.Evolves (pool.perform operation).log := by
  cases operation with
  | submit tx sender => exact coherent.evolves_submit tx sender
  | update height committed => exact coherent.evolves_update height committed
  | flush => exact Log.evolves_clear pool.log
  | addHolder position peer =>
      obtain ⟨holders, same⟩ := addHolder_eq pool position peer
      change pool.log.Evolves (pool.addHolder position peer).1.log
      rw [same]
      exact Log.Evolves.refl pool.log

theorem Coherent.evolves_run {pool : Pool} (coherent : pool.Coherent)
    (operations : List Operation) : pool.log.Evolves (pool.run operations).log := by
  have moved := run_induction (fun later => later.Coherent ∧ pool.log.Evolves later.log) pool
    operations ⟨coherent, Log.Evolves.refl pool.log⟩ <| by
      rintro before operation ⟨kept, moved⟩
      exact ⟨kept.perform operation, moved.trans (kept.evolves_perform operation)⟩
  exact moved.2

theorem contains_of_indexed {pool : Pool} {id : TxId} {position : Nat}
    (indexed : pool.index[id]? = some position) : pool.contains id = true := by
  rw [contains, Std.ExtTreeMap.contains_eq_isSome_getElem?, indexed]
  rfl

theorem contains_eq_false_iff {pool : Pool} {id : TxId} :
    pool.contains id = false ↔ pool.index[id]? = none := by
  rw [contains, Std.ExtTreeMap.contains_eq_isSome_getElem?, Option.isSome_eq_false_iff,
    Option.isNone_iff_eq_none]

theorem find?_isSome {pool : Pool} (coherent : pool.Coherent) (id : TxId) :
    (pool.find? id).isSome = pool.contains id := by
  rw [contains, Std.ExtTreeMap.contains_eq_isSome_getElem?, find?]
  cases indexed : pool.index[id]? with
  | none => rfl
  | some position =>
      obtain ⟨entry, live, _⟩ := (coherent.indexes id position).mp indexed
      have ready : pool.entry position = .ready entry :=
        Log.get_eq_ready_iff.mpr live
      simp only [Option.bind_eq_bind, Option.bind_some, ready, Slot.ready?]
      rfl

theorem find?_of_live {pool : Pool}
    (indexes : Indexes pool.index pool.log.window) {position : Nat} {entry : PoolEntry}
    (live : pool.entry position = .ready entry) :
    pool.find? entry.id = some (position, entry) := by
  have alive := Log.get_eq_ready_iff.mp live
  have indexed := (indexes entry.id position).mpr ⟨entry, alive, rfl⟩
  rw [find?, indexed]
  simp only [Option.bind_eq_bind, Option.bind_some, live, Slot.ready?]
  rfl

theorem room_of_validate {config : PoolConfig} (usable : config.validate = .ok ()) :
    1 ≤ config.maxTxs.toNat ∧ config.maxTxs.toNat ≤ config.maxRetained.toNat := by
  unfold PoolConfig.validate at usable
  split at usable
  · cases usable
  · rename_i someTxs
    split at usable
    · cases usable
    · split at usable
      · cases usable
      · rename_i enough
        constructor
        · apply Nat.one_le_iff_ne_zero.mpr
          intro zero
          exact someTxs (UInt64.toNat_inj.mp zero)
        · exact UInt64.le_iff_toNat_le.mp (UInt64.not_lt.mp enough)

theorem run_settings (pool : Pool) (operations : List Operation) :
    (pool.run operations).config = pool.config ∧
      (pool.run operations).validator = pool.validator := by
  refine run_induction (fun later =>
    later.config = pool.config ∧ later.validator = pool.validator) pool operations ⟨rfl, rfl⟩ ?_
  rintro before operation ⟨config, validator⟩
  obtain ⟨sameConfig, sameValidator⟩ := perform_settings before operation
  exact ⟨sameConfig.trans config, sameValidator.trans validator⟩

structure Mirrors (config : PoolConfig) (validator : Validator) (pool : Pool) : Prop where
  index_iff : ∀ id position, pool.index[id]? = some position ↔
    ∃ entry, pool.entry position = .ready entry ∧ entry.id = id
  admitted : ∀ position entry, pool.entry position = .ready entry →
    Admitted config validator entry
  ids_distinct : ∀ left right first second, pool.entry left = .ready first →
    pool.entry right = .ready second → first.id = second.id → left = right
  size_eq : pool.size = pool.log.size
  size_counts : pool.log.size = pool.log.entries.length
  find_iff : ∀ id, (pool.find? id).isSome = pool.contains id
  size_le : pool.size ≤ config.maxTxs.toNat
  retained_le : pool.log.retained ≤ config.maxRetained.toNat

/-- Whatever is done to a pool, its index and its log never drift apart, and neither outgrows the
settings. -/
theorem run_mirrors {config : PoolConfig} {validator : Validator} {start : Pool}
    (made : Pool.new config validator = .ok start) (operations : List Operation) :
    (start.run operations).Mirrors config validator := by
  have coherent := (coherent_new made).run operations
  obtain ⟨usable, start_eq⟩ := new_eq made
  obtain ⟨sameConfig, sameValidator⟩ := run_settings start operations
  have configEq : start.config = config := by rw [start_eq]
  have validatorEq : start.validator = validator := by rw [start_eq]
  rw [configEq] at sameConfig
  rw [validatorEq] at sameValidator
  obtain ⟨someTxs, enough⟩ := room_of_validate usable
  have ready : ∀ {position entry}, (start.run operations).entry position = .ready entry ↔
      (start.run operations).log.window.entry? position = some entry :=
    Log.get_eq_ready_iff
  refine
    { index_iff := ?_
      admitted := ?_
      ids_distinct := ?_
      size_eq := coherent.size_eq
      size_counts := Log.size_eq_length coherent.log_valid
      find_iff := find?_isSome coherent
      size_le := ?_
      retained_le := ?_ }
  · intro id position
    simp only [ready]
    exact coherent.indexes id position
  · intro position entry live
    have admitted := coherent.admitted position entry (ready.mp live)
    rw [sameConfig, sameValidator] at admitted
    exact admitted
  · intro left right first second firstLive secondLive same
    exact coherent.indexes.distinct (ready.mp firstLive) (ready.mp secondLive) same
  · rw [← sameConfig]
    exact coherent.bounded
  · have retained := coherent.log_valid.retained_le
    rw [coherent.retention_eq, sameConfig] at retained
    omega

theorem mirrors_after_eviction :
    ∃ start, Pool.new { maxTxs := 2, maxRetained := 2 } Validator.acceptAll = .ok start ∧
      let pool := start.run [.submit ⟨[97]⟩ .unknown, .submit ⟨[98]⟩ .unknown, .update 1 [⟨[98]⟩],
        .submit ⟨[99]⟩ .unknown]
      pool.index.toList.map Prod.snd = [2] ∧
        pool.Mirrors { maxTxs := 2, maxRetained := 2 } Validator.acceptAll :=
  ⟨_, rfl, by decide +kernel, run_mirrors rfl _⟩

end VoteGossip.Pool
