import VoteGossip.Proofs.Pool.Index

/-!
Who is filed as a holder of an entry. A peer comes to be filed in two ways only: it hands the
transaction in, be it for the first time or once more, or it is filed by hand. And it stays filed,
also after the entry has left the pool.
-/

set_option autoImplicit false

namespace VoteGossip.Pool

variable {pool : Pool} {position other : Nat} {peer sender third : PeerId}

theorem holds_iff : pool.holds position peer = true ↔ peer ∈ pool.holdersAt position :=
  Std.ExtTreeSet.contains_iff_mem

theorem mem_initialHolders : third ∈ initialHolders sender ↔
    third = sender ∧ sender.isUnknown = false := by
  unfold initialHolders
  by_cases unknown : sender.isUnknown = true
  · rw [if_pos unknown, unknown]
    constructor
    · intro member
      exact absurd member Std.ExtTreeSet.not_mem_empty
    · rintro ⟨_, known⟩
      cases known
  · rw [if_neg unknown, Std.ExtTreeSet.mem_insert, Std.compare_eq_iff_eq]
    rw [Bool.not_eq_true] at unknown
    constructor
    · rintro (same | member)
      · exact ⟨same.symm, unknown⟩
      · exact absurd member Std.ExtTreeSet.not_mem_empty
    · rintro ⟨same, _⟩
      exact Or.inl same.symm

theorem holds_addHolder_iff :
    (pool.addHolder position peer).1.holds other third = true ↔
      pool.holds other third = true ∨
        other = position ∧ third = peer ∧ peer.isUnknown = false ∧
          position < pool.holders.size := by
  unfold addHolder
  by_cases skipped : (peer.isUnknown || pool.holds position peer) = true
  · rw [if_pos skipped]
    constructor
    · exact Or.inl
    · rintro (held | ⟨rfl, rfl, known, _⟩)
      · exact held
      · rwa [known, Bool.false_or] at skipped
  · rw [if_neg skipped]
    rw [Bool.or_eq_true, not_or, Bool.not_eq_true] at skipped
    have known : peer.isUnknown = false := skipped.1
    rw [holds_iff, holds_iff]
    change third ∈ (pool.holders.setIfInBounds position _).getD other ∅ ↔
      third ∈ pool.holders.getD other ∅ ∨ _
    by_cases written : position = other ∧ position < pool.holders.size
    · obtain ⟨rfl, within⟩ := written
      rw [Array.getD_eq_getD_getElem?, Array.getElem?_setIfInBounds, if_pos rfl, if_pos within,
        Option.getD_some, Std.ExtTreeSet.mem_insert, Std.compare_eq_iff_eq]
      constructor
      · rintro (same | member)
        · exact Or.inr ⟨rfl, same.symm, known, within⟩
        · exact Or.inl member
      · rintro (member | ⟨_, same, _⟩)
        · exact Or.inr member
        · exact Or.inl same.symm
    · have kept : (pool.holders.setIfInBounds position
          ((pool.holdersAt position).insert peer)).getD other ∅ = pool.holders.getD other ∅ := by
        rw [Array.getD_eq_getD_getElem?, Array.getD_eq_getD_getElem?, Array.getElem?_setIfInBounds]
        by_cases same : position = other
        · subst other
          have beyond : ¬ position < pool.holders.size := fun within => written ⟨rfl, within⟩
          rw [if_pos rfl, if_neg beyond, Array.getElem?_eq_none (Nat.le_of_not_lt beyond)]
        · rw [if_neg same]
      rw [kept]
      constructor
      · exact Or.inl
      · rintro (member | ⟨same, _, _, within⟩)
        · exact member
        · exact absurd ⟨same.symm, within⟩ written

theorem holds_accept_iff (tx : Tx) (id : TxId) :
    (pool.accept tx id sender).pool.holds other third = true ↔
      pool.holds other third = true ∨
        other = pool.holders.size ∧ third = sender ∧ sender.isUnknown = false := by
  rw [holds_iff, holds_iff]
  change third ∈ (pool.holders.push (initialHolders sender)).getD other ∅ ↔
    third ∈ pool.holders.getD other ∅ ∨ _
  rw [Array.getD_eq_getD_getElem?, Array.getD_eq_getD_getElem?, Array.getElem?_push]
  by_cases last : other = pool.holders.size
  · have beyond : pool.holders[other]? = none := Array.getElem?_eq_none (Nat.le_of_eq last.symm)
    rw [if_pos last, beyond, Option.getD_some, Option.getD_none, mem_initialHolders]
    constructor
    · exact fun supplied => Or.inr ⟨last, supplied⟩
    · rintro (member | ⟨_, supplied⟩)
      · exact absurd member Std.ExtTreeSet.not_mem_empty
      · exact supplied
  · rw [if_neg last]
    constructor
    · exact Or.inl
    · rintro (member | ⟨same, _⟩)
      · exact member
      · exact absurd same last

theorem holds_perform (operation : Operation) (held : pool.holds other third = true) :
    (pool.perform operation).holds other third = true := by
  cases operation with
  | submit tx sender =>
      change (pool.submit tx sender).pool.holds other third = true
      have ends := submission pool tx sender
      generalize pool.submit tx sender = reply at ends ⊢
      cases ends with
      | duplicate => exact holds_addHolder_iff.mpr (Or.inl held)
      | accepted => exact (holds_accept_iff tx tx.id).mpr (Or.inl held)
      | tooLarge | stale | invalid | full => exact held
  | update height committed =>
      obtain ⟨index, log, same⟩ := dropAll_frame { pool with height } committed
      change ({ pool with height }.dropAll committed).1.holds other third = true
      rw [same]
      exact held
  | flush => exact held
  | addHolder position peer => exact holds_addHolder_iff.mpr (Or.inl held)

/-- There is a set of holders for every position that was written, and for no other. -/
def Tracks (pool : Pool) : Prop := pool.holders.size = pool.log.window.stop

theorem tracks_new {config : PoolConfig} {validator : Validator}
    (made : Pool.new config validator = .ok pool) : pool.Tracks := by
  obtain ⟨_, rfl⟩ := new_eq made
  rfl

theorem holds_new {config : PoolConfig} {validator : Validator}
    (made : Pool.new config validator = .ok pool) : pool.holds position peer = false := by
  obtain ⟨_, rfl⟩ := new_eq made
  rw [← Bool.not_eq_true, holds_iff]
  exact Std.ExtTreeSet.not_mem_empty

theorem size_holders_addHolder (pool : Pool) (position : Nat) (peer : PeerId) :
    (pool.addHolder position peer).1.holders.size = pool.holders.size := by
  unfold addHolder
  split
  · rfl
  · exact Array.size_setIfInBounds

theorem Tracks.addHolder (tracks : pool.Tracks) (position : Nat) (peer : PeerId) :
    (pool.addHolder position peer).1.Tracks := by
  have size := size_holders_addHolder pool position peer
  obtain ⟨holders, same⟩ := addHolder_eq pool position peer
  rw [same] at size ⊢
  exact size.trans tracks

theorem Tracks.dropCommitted (tracks : pool.Tracks) (id : TxId) :
    (pool.dropCommitted id).1.Tracks := by
  rcases dropCommitted_cases pool id with
    ⟨_, same⟩ | ⟨position, _, _, same⟩ | ⟨position, entry, _, _, same⟩
  · rw [same]
    exact tracks
  · rw [same]
    exact tracks
  · rw [same]
    exact tracks.trans (Log.Window.stop_remove pool.log.window position).symm

theorem Tracks.perform (tracks : pool.Tracks) (coherent : pool.Coherent) (operation : Operation) :
    (pool.perform operation).Tracks := by
  cases operation with
  | submit tx sender =>
      change (pool.submit tx sender).pool.Tracks
      have ends := submission pool tx sender
      generalize pool.submit tx sender = reply at ends ⊢
      cases ends with
      | duplicate fits position entry indexed live => exact tracks.addHolder position sender
      | accepted fits fresh passed few =>
          have stop := Log.stop_push coherent.log_valid { tx, id := tx.id, height := pool.height }
          change (pool.holders.push (initialHolders sender)).size = _
          rw [Array.size_push, tracks]
          exact stop.symm
      | tooLarge | stale | invalid | full => exact tracks
  | update height committed =>
      exact dropAll_induction Tracks { pool with height } committed tracks
        fun _before id kept => kept.dropCommitted id
  | flush => exact tracks.trans (Log.Window.stop_drained pool.log.window).symm
  | addHolder position peer => exact tracks.addHolder position peer

theorem Tracks.run (tracks : pool.Tracks) (coherent : pool.Coherent)
    (operations : List Operation) : (pool.run operations).Tracks := by
  have kept := run_induction (fun later => later.Coherent ∧ later.Tracks) pool operations
    ⟨coherent, tracks⟩ <| by
      rintro before operation ⟨coherent, tracks⟩
      exact ⟨coherent.perform operation, tracks.perform coherent operation⟩
  exact kept.2

/-- The parts of a pool fit each other. What its validator says plays no part in it. -/
structure Sound (pool : Pool) : Prop where
  log_valid : pool.log.Valid
  retention_eq : pool.log.retention = pool.config.maxRetained.toNat
  indexes : Indexes pool.index pool.log.window
  tracks : pool.Tracks

theorem sound_run {config : PoolConfig} {validator : Validator} {start : Pool}
    (made : Pool.new config validator = .ok start) (operations : List Operation) (now : Validator) :
    ({ start.run operations with validator := now } : Pool).Sound := by
  have coherent := (coherent_new made).run operations
  refine ⟨coherent.log_valid, ?_, coherent.indexes, (tracks_new made).run (coherent_new made) _⟩
  have configEq := (run_settings start operations).1
  obtain ⟨usable, rfl⟩ := new_eq made
  obtain ⟨someTxs, enough⟩ := room_of_validate usable
  have retention := coherent.retention_eq
  change (run _ operations).log.retention = (run _ operations).config.maxRetained.toNat
  rw [configEq] at retention ⊢
  change _ = max config.maxRetained.toNat 1 at retention
  change _ = config.maxRetained.toNat
  omega

def Reply.Pending (reply : Reply (Except PoolError TxId)) (id : TxId) : Prop :=
  ∀ cause, reply.answer = .error cause → cause = .alreadyPending id

theorem Coherent.entry?_accepted (coherent : pool.Coherent) (tx : Tx) (sender : PeerId) :
    (pool.accept tx tx.id sender).pool.log.window.entry? pool.log.window.stop =
      some { tx, id := tx.id, height := pool.height } := by
  change (pool.log.push _).log.window.entry? pool.log.window.stop = _
  rw [Log.entry?_push coherent.log_valid, if_pos rfl]

/-- Whoever hands in a transaction that is pending afterwards is filed as a holder of it. -/
theorem holds_of_submit (coherent : pool.Coherent) (tracks : pool.Tracks) {tx : Tx}
    (known : sender.isUnknown = false) (pending : (pool.submit tx sender).Pending tx.id)
    {entry : PoolEntry}
    (live : (pool.submit tx sender).pool.log.window.entry? position = some entry)
    (named : entry.id = tx.id) : (pool.submit tx sender).pool.holds position sender = true := by
  have after := coherent.submit tx sender
  have ends := submission pool tx sender
  generalize pool.submit tx sender = reply at ends pending live after ⊢
  cases ends with
  | accepted fits fresh passed few =>
      have written := coherent.entry?_accepted tx sender
      have same : position = pool.log.window.stop :=
        after.indexes.distinct live written named
      refine (holds_accept_iff tx tx.id).mpr (Or.inr ⟨?_, rfl, known⟩)
      rw [same]
      exact tracks.symm
  | duplicate fits found other indexed foundLive =>
      obtain ⟨holders, same⟩ := addHolder_eq pool found sender
      rw [same] at live
      have alive := Log.get_eq_ready_iff.mp foundLive
      obtain ⟨kept, keptLive, keptNamed⟩ := (coherent.indexes tx.id found).mp indexed
      have here : position = found :=
        coherent.indexes.distinct live keptLive (named.trans keptNamed.symm)
      have within : found < pool.holders.size := by
        rw [tracks]
        exact Log.Window.lt_stop_of_live alive
      exact holds_addHolder_iff.mpr (Or.inr ⟨here, rfl, known, within⟩)
  | stale fits found indexed dead =>
      obtain ⟨kept, keptLive, _⟩ := (coherent.indexes tx.id found).mp indexed
      exact absurd (Log.get_eq_ready_iff.mpr keptLive) (dead kept)
  | tooLarge | invalid | full => cases pending _ rfl

inductive Files (pool : Pool) (position : Nat) (peer : PeerId) : Operation → Prop where
  | supplied (tx : Tx) (entry : PoolEntry) (known : peer.isUnknown = false)
      (live : (pool.submit tx peer).pool.log.window.entry? position = some entry)
      (named : entry.id = tx.id) : Files pool position peer (.submit tx peer)
  | byHand : Files pool position peer (.addHolder position peer)

theorem files_of_holds (coherent : pool.Coherent) (tracks : pool.Tracks) {operation : Operation}
    (held : (pool.perform operation).holds position peer = true) :
    pool.holds position peer = true ∨ Files pool position peer operation := by
  cases operation with
  | submit tx sender =>
      change (pool.submit tx sender).pool.holds position peer = true at held
      have ends := submission pool tx sender
      generalize reply_eq : pool.submit tx sender = reply at ends held
      cases ends with
      | duplicate fits found other indexed foundLive =>
          rcases holds_addHolder_iff.mp held with before | ⟨rfl, rfl, known, _⟩
          · exact Or.inl before
          · obtain ⟨kept, keptLive, keptNamed⟩ := (coherent.indexes tx.id position).mp indexed
            refine Or.inr (.supplied tx kept known ?_ keptNamed)
            obtain ⟨holders, same⟩ := addHolder_eq pool position peer
            rw [reply_eq, same]
            exact keptLive
      | accepted fits fresh passed few =>
          rcases (holds_accept_iff tx tx.id).mp held with before | ⟨atEnd, rfl, known⟩
          · exact Or.inl before
          · have written := coherent.entry?_accepted tx peer
            rw [← tracks, ← atEnd, ← reply_eq] at written
            exact Or.inr (.supplied tx _ known written rfl)
      | tooLarge | stale | invalid | full => exact Or.inl held
  | update height committed =>
      obtain ⟨index, log, same⟩ := dropAll_frame { pool with height } committed
      change ({ pool with height }.dropAll committed).1.holds position peer = true at held
      rw [same] at held
      exact Or.inl held
  | flush => exact Or.inl held
  | addHolder filed sender =>
      rcases holds_addHolder_iff.mp held with before | ⟨rfl, rfl, _⟩
      · exact Or.inl before
      · exact Or.inr .byHand

theorem Tracks.written (tracks : pool.Tracks) (held : pool.holds position peer = true) :
    position < pool.log.window.stop := by
  rw [← tracks]
  apply Classical.byContradiction
  intro beyond
  have member : peer ∈ pool.holders.getD position ∅ := holds_iff.mp held
  rw [Array.getD_eq_getD_getElem?, Array.getElem?_eq_none (Nat.le_of_not_lt beyond)] at member
  exact Std.ExtTreeSet.not_mem_empty member

end VoteGossip.Pool
