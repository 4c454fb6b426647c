import VoteGossip.Proofs.Pool.History

/-!
What a pool does with a transaction that it does not take. Of all that can be said against the
transaction the answer says what comes first in a fixed order, so neither a full pool nor a strict
validator hides that the transaction is pending already. A refusal leaves the pool as it was, but
for one thing: the sender of a duplicate is filed as a holder of the entry that is pending under its
name, and there is such an entry.
-/

set_option autoImplicit false

namespace VoteGossip.Pool

variable {pool start : Pool} {tx : Tx} {sender : PeerId}

/-- All that there is to say against a transaction, in the order in which it counts. -/
def objections (pool : Pool) (tx : Tx) : List PoolError :=
  let long := if pool.config.maxTxBytes.toNat < tx.size then
    [.tooLarge tx.size pool.config.maxTxBytes.toNat] else []
  let duplicate := if pool.contains tx.id then [.alreadyPending tx.id] else []
  let invalid := match pool.validator tx with
    | .error reason => [.invalid reason]
    | .ok () => []
  let full := if pool.config.maxTxs.toNat ≤ pool.size then [.full pool.config.maxTxs.toNat] else []
  long ++ duplicate ++ invalid ++ full

/-- The first objection counts, and without one the transaction gets its name. -/
def verdict (id : TxId) : List PoolError → Except PoolError TxId
  | [] => .ok id
  | objection :: _ => .error objection

theorem answer_eq_verdict (pool : Pool) (tx : Tx) (sender : PeerId) :
    (pool.submit tx sender).answer = verdict tx.id (pool.objections tx) := by
  have ends := submission pool tx sender
  generalize pool.submit tx sender = reply at ends ⊢
  unfold objections
  cases ends with
  | tooLarge long =>
      rw [if_pos long]
      rfl
  | duplicate fits position entry indexed live =>
      rw [if_neg (Nat.not_lt.mpr fits), if_pos (contains_of_indexed indexed)]
      rfl
  | stale fits position indexed dead =>
      rw [if_neg (Nat.not_lt.mpr fits), if_pos (contains_of_indexed indexed)]
      rfl
  | invalid fits fresh reason refused =>
      rw [if_neg (Nat.not_lt.mpr fits), contains_eq_false_iff.mpr fresh, refused]
      rfl
  | full fits fresh passed many =>
      rw [if_neg (Nat.not_lt.mpr fits), contains_eq_false_iff.mpr fresh, passed, if_pos many]
      rfl
  | accepted fits fresh passed few =>
      rw [if_neg (Nat.not_lt.mpr fits), contains_eq_false_iff.mpr fresh, passed,
        if_neg (Nat.not_le.mpr few)]
      rfl

theorem submit_eq_of_refused {objection : PoolError}
    (answered : (pool.submit tx sender).answer = .error objection)
    (other : ∀ id, objection ≠ .alreadyPending id) :
    pool.submit tx sender = { pool, answer := .error objection, events := [] } := by
  have ends := submission pool tx sender
  generalize pool.submit tx sender = reply at ends answered ⊢
  cases ends with
  | tooLarge | invalid | full => rw [← answered]
  | duplicate | stale => exact absurd (Except.error.inj answered).symm (other tx.id)
  | accepted => cases answered

/-- Between the pools before and after, a peer was filed as a holder of one entry, unless the peer
is nobody, and nothing else happened. -/
structure OnlyFiles (before after : Pool) (position : Nat) (peer : PeerId) : Prop where
  rest : ∃ holders, after = { before with holders }
  holds_iff : ∀ other third, after.holds other third = true ↔ before.holds other third = true ∨
    other = position ∧ third = peer ∧ peer.isUnknown = false

theorem addHolder_onlyFiles {position : Nat} (within : position < pool.holders.size) :
    OnlyFiles pool (pool.addHolder position sender).1 position sender where
  rest := addHolder_eq pool position sender
  holds_iff := fun other third => by
    rw [holds_addHolder_iff]
    simp only [within, and_true]

structure Alone (pool : Pool) (position : Nat) (entry : PoolEntry) (id : TxId) : Prop where
  ready : pool.entry position = .ready entry
  named : entry.id = id
  unique : ∀ other found, pool.entry other = .ready found → found.id = id → other = position

theorem Sound.alone_of_indexed (sound : pool.Sound) {id : TxId} {position : Nat}
    (indexed : pool.index[id]? = some position) : ∃ entry, pool.Alone position entry id := by
  obtain ⟨entry, live, named⟩ := (sound.indexes id position).mp indexed
  refine ⟨entry, Log.get_eq_ready_iff.mpr live, named, ?_⟩
  intro other found ready sameName
  have otherLive := Log.get_eq_ready_iff.mp ready
  exact sound.indexes.distinct otherLive live (sameName.trans named.symm)

theorem Sound.onlyFiles_of_duplicate (sound : pool.Sound) {id : TxId}
    (answered : (pool.submit tx sender).answer = .error (.alreadyPending id)) :
    id = tx.id ∧ ∃ position entry, pool.Alone position entry id ∧
      OnlyFiles pool (pool.submit tx sender).pool position sender := by
  have ends := submission pool tx sender
  generalize pool.submit tx sender = reply at ends answered ⊢
  cases ends with
  | duplicate fits position entry indexed ready =>
      have named := PoolError.alreadyPending.inj (Except.error.inj answered)
      have live := Log.get_eq_ready_iff.mp ready
      obtain ⟨found, alone⟩ := sound.alone_of_indexed indexed
      rw [named] at alone
      exact ⟨named.symm, position, found, alone, addHolder_onlyFiles (sound.tracks.within live)⟩
  | stale fits position indexed dead =>
      obtain ⟨found, alone⟩ := sound.alone_of_indexed indexed
      exact absurd alone.ready (dead found)
  | tooLarge | invalid | full | accepted => cases answered

/-- What a pool does with a transaction that it does not take. -/
structure Refuses (pool : Pool) (tx : Tx) (sender : PeerId) : Prop where
  first : (pool.submit tx sender).answer = verdict tx.id (pool.objections tx)
  unchanged : ∀ objection, (pool.submit tx sender).answer = .error objection →
    (∀ id, objection ≠ .alreadyPending id) →
    pool.submit tx sender = { pool, answer := .error objection, events := [] }
  duplicate : ∀ id, (pool.submit tx sender).answer = .error (.alreadyPending id) →
    id = tx.id ∧ ∃ position entry, pool.Alone position entry id ∧
      OnlyFiles pool (pool.submit tx sender).pool position sender
  never_hidden : tx.size ≤ pool.config.maxTxBytes.toNat → pool.contains tx.id = true →
    (pool.submit tx sender).answer = .error (.alreadyPending tx.id)
  indexed_alone : ∀ id position, pool.index[id]? = some position →
    ∃ entry, pool.Alone position entry id

theorem Sound.refuses (sound : pool.Sound) : pool.Refuses tx sender where
  first := answer_eq_verdict pool tx sender
  unchanged := fun _ => submit_eq_of_refused
  duplicate := fun _ => sound.onlyFiles_of_duplicate
  never_hidden := fun fits contained => by
    rw [answer_eq_verdict, objections, if_neg (Nat.not_lt.mpr fits), if_pos contained]
    rfl
  indexed_alone := fun _ _ => sound.alone_of_indexed

/-- However a pool was used, and whatever its validator has come to say: a transaction that it does
not take is answered with the first objection, and the pool is left alone. -/
theorem run_refuses {config : PoolConfig} {validator : Validator}
    (made : Pool.new config validator = .ok start) (operations : List Operation) (now : Validator)
    (tx : Tx) (sender : PeerId) :
    ({ start.run operations with validator := now } : Pool).Refuses tx sender :=
  (sound_run made operations now).refuses

theorem refuses_duplicate_when_full_and_closed :
    ∃ start, Pool.new { maxTxs := 1, maxRetained := 1 } Validator.acceptAll = .ok start ∧
      let closed : Validator := fun _ => .error "closed"
      let pool := { start.run [.submit ⟨[97]⟩ ⟨1⟩] with validator := closed }
      let after := (pool.submit ⟨[97]⟩ ⟨2⟩).pool
      pool.objections ⟨[97]⟩ = [.alreadyPending (Tx.id ⟨[97]⟩), .invalid "closed", .full 1] ∧
        pool.objections ⟨[98]⟩ = [.invalid "closed", .full 1] ∧
        pool.Refuses ⟨[97]⟩ ⟨2⟩ ∧
        [1, 2, 3].map (fun number => after.holds 0 ⟨number⟩) = [true, true, false] := by
  refine ⟨_, rfl, ?_⟩
  intro closed pool after
  have made : Pool.new { maxTxs := 1, maxRetained := 1 } Validator.acceptAll = .ok _ := rfl
  have refuses := run_refuses made [.submit ⟨[97]⟩ ⟨1⟩] closed ⟨[97]⟩ ⟨2⟩
  exact ⟨by decide +kernel, by decide +kernel, refuses, by decide +kernel⟩

end VoteGossip.Pool
