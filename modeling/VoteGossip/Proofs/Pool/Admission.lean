import VoteGossip.Proofs.Pool.History

/-!
What a pool does with a transaction that it takes. The new entry goes to the end of the log, held by
the sender alone. The log counts the slots of its window, the tombstones among them, so a pool that
is not full may still have to let an entry go for the new one. It is the oldest, and it leaves if
the window was as wide as it may be. Every other entry stays what and where it was.
-/

set_option autoImplicit false

namespace VoteGossip.Pool

variable {pool start : Pool} {tx : Tx} {sender peer : PeerId} {position : Nat} {entry : PoolEntry}

structure Admissible (pool : Pool) (tx : Tx) : Prop where
  fits : tx.size ≤ pool.config.maxTxBytes.toNat
  fresh : pool.contains tx.id = false
  passed : pool.validator tx = .ok ()
  few : pool.size < pool.config.maxTxs.toNat

theorem submit_eq_accept (admissible : pool.Admissible tx) (sender : PeerId) :
    pool.submit tx sender = pool.accept tx tx.id sender := by
  have fits := admissible.fits
  have unknown := contains_eq_false_iff.mp admissible.fresh
  have passes := admissible.passed
  have room := admissible.few
  have ends := submission pool tx sender
  generalize pool.submit tx sender = reply at ends ⊢
  cases ends with
  | accepted => rfl
  | tooLarge long => exact absurd fits (Nat.not_le.mpr long)
  | duplicate _ position entry indexed live =>
      rw [unknown] at indexed
      cases indexed
  | stale _ position indexed dead =>
      rw [unknown] at indexed
      cases indexed
  | invalid _ fresh reason refused =>
      rw [passes] at refused
      cases refused
  | full _ fresh passed many => exact absurd room (Nat.not_lt.mpr many)

theorem answer_eq_ok_iff {id : TxId} :
    (pool.submit tx sender).answer = .ok id ↔ id = tx.id ∧ pool.Admissible tx := by
  constructor
  · intro answered
    have ends := submission pool tx sender
    generalize pool.submit tx sender = reply at ends answered
    cases ends with
    | accepted fits fresh passed few =>
        exact ⟨(Except.ok.inj answered).symm, fits, contains_eq_false_iff.mpr fresh, passed, few⟩
    | tooLarge | duplicate | stale | invalid | full => cases answered
  · rintro ⟨named, admissible⟩
    rw [submit_eq_accept admissible, named]
    rfl

/-- Where the entry stands that has to leave for a new one: at the front of a window that is as wide
as it may be. -/
def leaving? (pool : Pool) : Option Nat :=
  pool.front.filter fun front => pool.log.written - front = pool.config.maxRetained.toNat

theorem Sound.leaving?_eq_some_iff (sound : pool.Sound) : pool.leaving? = some position ↔
    position = pool.log.window.base ∧ pool.log.retained = pool.log.retention := by
  have width := pool.log.retained_eq
  rw [leaving?, Option.filter_eq_some_iff, decide_eq_true_iff, sound.log_valid.published,
    ← sound.retention_eq]
  constructor
  · rintro ⟨found, wide⟩
    obtain ⟨rfl, _⟩ := Log.front_eq_some sound.log_valid found
    exact ⟨rfl, width.trans wide⟩
  · rintro ⟨rfl, full⟩
    have room := sound.log_valid.room
    refine ⟨?_, width.symm.trans full⟩
    unfold front Log.front
    apply if_neg
    change ¬ pool.log.retained = 0
    omega

theorem Sound.entry?_accept (sound : pool.Sound) (tx : Tx) (sender : PeerId) (position : Nat) :
    (pool.accept tx tx.id sender).pool.log.window.entry? position =
      if position = pool.log.window.stop then some { tx, id := tx.id, height := pool.height }
      else if pool.leaving? = some position then none
      else pool.log.window.entry? position := by
  simp only [sound.leaving?_eq_some_iff]
  exact Log.entry?_push sound.log_valid _ position

theorem Sound.length_evicted (sound : pool.Sound) (added : PoolEntry) :
    (pool.log.push added).evicted.length = pool.leaving?.toList.length := by
  rcases Log.push_cases sound.log_valid added with
    ⟨narrow, nothing, _⟩ | ⟨wide, oldest, _, one, _⟩
  · have stays : pool.leaving? = none := by
      apply Option.eq_none_iff_forall_ne_some.mpr
      intro front leaves
      exact Nat.ne_of_lt narrow (sound.leaving?_eq_some_iff.mp leaves).2
    rw [nothing, stays]
    rfl
  · rw [one, sound.leaving?_eq_some_iff.mpr ⟨rfl, wide⟩]
    rfl

theorem Sound.base_lt_accept (sound : pool.Sound) (tx : Tx) (sender : PeerId)
    (leaves : pool.leaving? = some position) :
    position < (pool.accept tx tx.id sender).pool.log.window.base := by
  obtain ⟨rfl, wide⟩ := sound.leaving?_eq_some_iff.mp leaves
  let added : PoolEntry := { tx, id := tx.id, height := pool.height }
  change _ < (pool.log.push added).log.window.base
  rcases Log.push_cases sound.log_valid added with
    ⟨narrow, _, _⟩ | ⟨_, oldest, front, _, window⟩
  · exact absurd wide (Nat.ne_of_lt narrow)
  · rw [window]
    exact Log.Window.base_lt_remove (Log.Window.entry?_append_of_some front added)

theorem Sound.written_accept (sound : pool.Sound) (tx : Tx) (sender : PeerId) :
    (pool.accept tx tx.id sender).pool.entry pool.log.written =
      .ready { tx, id := tx.id, height := pool.height } := by
  apply Log.get_eq_ready_iff.mpr
  rw [sound.log_valid.published]
  exact (sound.entry?_accept tx sender _).trans (if_pos rfl)

theorem Sound.kept_accept (sound : pool.Sound) (tx : Tx) (sender : PeerId)
    (live : pool.entry position = .ready entry) (stays : pool.leaving? ≠ some position) :
    (pool.accept tx tx.id sender).pool.entry position = .ready entry := by
  have alive := Log.get_eq_ready_iff.mp live
  have before := Nat.ne_of_lt (Log.Window.lt_stop_of_live alive)
  apply Log.get_eq_ready_iff.mpr
  exact (sound.entry?_accept tx sender position).trans
    ((if_neg before).trans ((if_neg stays).trans alive))

theorem Sound.evicted_accept_iff (sound : pool.Sound) (tx : Tx) (sender : PeerId)
    (live : pool.entry position = .ready entry) :
    (pool.accept tx tx.id sender).pool.entry position = .evicted ↔
      pool.leaving? = some position := by
  constructor
  · intro evicted
    apply Classical.byContradiction
    intro stays
    rw [sound.kept_accept tx sender live stays] at evicted
    cases evicted
  · intro leaves
    exact Log.get_eq_evicted_iff.mpr (sound.base_lt_accept tx sender leaves)

theorem Sound.ready_of_accept (sound : pool.Sound) {tx : Tx}
    (live : (pool.accept tx tx.id sender).pool.entry position = .ready entry) :
    position = pool.log.written ∧ entry.id = tx.id ∨
      pool.leaving? ≠ some position ∧ pool.entry position = .ready entry := by
  have alive := Log.get_eq_ready_iff.mp live
  change (pool.accept tx tx.id sender).pool.log.window.entry? position = some entry at alive
  rw [sound.entry?_accept, ← sound.log_valid.published] at alive
  split at alive
  · rename_i atEnd
    cases alive
    exact Or.inl ⟨atEnd, rfl⟩
  · split at alive
    · cases alive
    · rename_i stays
      exact Or.inr ⟨stays, Log.get_eq_ready_iff.mpr alive⟩

theorem Sound.gone_accept (sound : pool.Sound) {tx : Tx} (sender : PeerId)
    (fresh : pool.index[tx.id]? = none) (live : pool.entry position = .ready entry)
    (leaves : pool.leaving? = some position) :
    (pool.accept tx tx.id sender).pool.contains entry.id = false := by
  have alive := Log.get_eq_ready_iff.mp live
  rw [contains_eq_false_iff]
  cases indexed : (pool.accept tx tx.id sender).pool.index[entry.id]? with
  | none => rfl
  | some other =>
      have indexes := sound.indexes.accept sound.log_valid sender fresh
      obtain ⟨found, foundAlive, named⟩ := (indexes entry.id other).mp indexed
      have foundLive : (pool.accept tx tx.id sender).pool.entry other = .ready found :=
        Log.get_eq_ready_iff.mpr foundAlive
      rcases sound.ready_of_accept foundLive with ⟨_, isNew⟩ | ⟨stays, old⟩
      · have pending := (sound.indexes entry.id position).mpr ⟨entry, alive, rfl⟩
        rw [← named, isNew, fresh] at pending
        cases pending
      · have oldAlive := Log.get_eq_ready_iff.mp old
        have same := sound.indexes.distinct oldAlive alive named
        rw [same] at stays
        exact absurd leaves stays

theorem Sound.size_accept (sound : pool.Sound) {tx : Tx} (sender : PeerId)
    (fresh : pool.index[tx.id]? = none) :
    (pool.accept tx tx.id sender).pool.size + pool.leaving?.toList.length = pool.size + 1 := by
  let added : PoolEntry := { tx, id := tx.id, height := pool.height }
  have valid := sound.log_valid
  have indexes := sound.indexes.accept valid sender fresh
  have before : pool.size = pool.log.size :=
    sound.indexes.size_eq.trans (Log.size_eq_length valid).symm
  have after : (pool.accept tx tx.id sender).pool.size = (pool.log.push added).log.size :=
    indexes.size_eq.trans (Log.size_eq_length (valid.push added)).symm
  rw [before, after, ← sound.length_evicted added]
  exact Log.size_push valid added

/-- What became of a pool that took a transaction from a sender. -/
structure Takes (before : Pool) (tx : Tx) (sender : PeerId) (after : Pool) : Prop where
  written : after.entry before.log.written = .ready { tx, id := tx.id, height := before.height }
  pending : after.find? tx.id =
    some (before.log.written, { tx, id := tx.id, height := before.height })
  holders : ∀ peer, after.holds before.log.written peer = true ↔
    peer = sender ∧ sender.isUnknown = false
  evicted_iff : ∀ position entry, before.entry position = .ready entry →
    (after.entry position = .evicted ↔ before.leaving? = some position)
  gone : ∀ position entry, before.entry position = .ready entry →
    before.leaving? = some position → after.contains entry.id = false
  kept : ∀ position entry, before.entry position = .ready entry →
    before.leaving? ≠ some position →
    after.entry position = .ready entry ∧ after.find? entry.id = some (position, entry) ∧
      ∀ peer, after.holds position peer = true ↔ before.holds position peer = true
  nothing_else : ∀ position entry, after.entry position = .ready entry →
    position = before.log.written ∨ before.entry position = .ready entry
  size : after.size + before.leaving?.toList.length = before.size + 1
  next : after.log.written = before.log.written + 1
  rest : ∃ log index holders, after = { before with log, index, holders }

theorem Sound.takes (sound : pool.Sound) (admissible : pool.Admissible tx) :
    pool.Takes tx sender (pool.submit tx sender).pool := by
  rw [submit_eq_accept admissible]
  have fresh := contains_eq_false_iff.mp admissible.fresh
  have valid := sound.log_valid
  have indexesAfter := sound.indexes.accept valid sender fresh
  have last : pool.holders.size = pool.log.written := sound.tracks.trans valid.published.symm
  have written := sound.written_accept tx sender
  have found := find?_of_live indexesAfter written
  refine
    { written := written
      pending := found
      holders := ?_
      evicted_iff := fun _ _ => sound.evicted_accept_iff tx sender
      gone := fun _ _ => sound.gone_accept sender fresh
      kept := ?_
      nothing_else := ?_
      size := sound.size_accept sender fresh
      next := ?_
      rest := ⟨_, _, _, rfl⟩ }
  · intro peer
    have nobody : ¬ pool.holds pool.log.written peer = true := by
      intro held
      exact Nat.ne_of_lt (sound.tracks.written held) valid.published
    rw [holds_accept_iff, or_iff_right nobody, and_iff_right last.symm]
  · intro position entry live stays
    have still := sound.kept_accept tx sender live stays
    have alive := Log.get_eq_ready_iff.mp live
    have notLast : position ≠ pool.holders.size := Nat.ne_of_lt (sound.tracks.within alive)
    refine ⟨still, find?_of_live indexesAfter still, ?_⟩
    intro peer
    rw [holds_accept_iff, or_iff_left (fun supplied => notLast supplied.1)]
  · intro position entry live
    rcases sound.ready_of_accept live with ⟨atEnd, _⟩ | ⟨_, old⟩
    · exact Or.inl atEnd
    · exact Or.inr old
  · rw [valid.published]
    exact Log.stop_push valid _

/-- However a pool was used, and whatever its validator has come to say: it takes a transaction
exactly if nothing stands against it, and then all but the oldest entry at most stays in place. -/
theorem run_takes {config : PoolConfig} {validator : Validator}
    (made : Pool.new config validator = .ok start) (operations : List Operation) (now : Validator)
    (tx : Tx) (sender : PeerId) :
    let pool : Pool := { start.run operations with validator := now }
    (∀ id, (pool.submit tx sender).answer = .ok id ↔ id = tx.id ∧ pool.Admissible tx) ∧
      (pool.Admissible tx → pool.Takes tx sender (pool.submit tx sender).pool) := by
  intro pool
  have sound : pool.Sound := sound_run made operations now
  exact ⟨fun _ => answer_eq_ok_iff, sound.takes⟩

/-- The tombstone of the second entry widens the window of a pool that is not full. -/
theorem takes_evicting :
    ∃ start, Pool.new { maxTxs := 2, maxRetained := 2 } Validator.acceptAll = .ok start ∧
      let operations := [.submit ⟨[97]⟩ ⟨1⟩, .submit ⟨[98]⟩ ⟨1⟩, .update 7 [⟨[98]⟩]]
      let pool := { start.run operations with validator := Validator.noZeroByte }
      let after := (pool.submit ⟨[99]⟩ ⟨5⟩).pool
      pool.size = 1 ∧ pool.leaving? = some 0 ∧ pool.Admissible ⟨[99]⟩ ∧
        pool.Takes ⟨[99]⟩ ⟨5⟩ after ∧ after.size = 1 := by
  refine ⟨_, rfl, ?_⟩
  intro operations pool after
  have made : Pool.new { maxTxs := 2, maxRetained := 2 } Validator.acceptAll = .ok _ := rfl
  have seen : pool.size = 1 ∧ pool.leaving? = some 0 ∧ pool.contains (Tx.id ⟨[99]⟩) = false ∧
      pool.config.maxTxs = 2 ∧ 1 ≤ pool.config.maxTxBytes.toNat := by
    decide +kernel
  obtain ⟨size, leaving, fresh, room, bytes⟩ := seen
  have admissible : pool.Admissible ⟨[99]⟩ := by
    refine ⟨bytes, fresh, rfl, ?_⟩
    rw [size, room]
    decide
  have takes := (run_takes made operations Validator.noZeroByte ⟨[99]⟩ ⟨5⟩).2 admissible
  have sizes := takes.size
  change after.size + pool.leaving?.toList.length = pool.size + 1 at sizes
  rw [leaving, size] at sizes
  exact ⟨size, leaving, admissible, takes, Nat.succ.inj sizes⟩

end VoteGossip.Pool
