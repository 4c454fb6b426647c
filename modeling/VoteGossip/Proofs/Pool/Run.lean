import VoteGossip.Pool.Basic
import VoteGossip.Proofs.Log.Invariant

/-!
What each operation of a pool can come to, and runs of a pool: any operations in any order.
-/

set_option autoImplicit false

namespace VoteGossip.Pool

/-- How a submission ends, with the checks that came before. -/
inductive Submission (pool : Pool) (tx : Tx) (sender : PeerId) :
    Reply (Except PoolError TxId) → Prop where
  | tooLarge (long : pool.config.maxTxBytes.toNat < tx.size) :
      Submission pool tx sender
        { pool
          answer := .error (.tooLarge tx.size pool.config.maxTxBytes.toNat)
          events := [] }
  | duplicate (fits : tx.size ≤ pool.config.maxTxBytes.toNat) (position : Nat) (entry : PoolEntry)
      (indexed : pool.index[tx.id]? = some position)
      (live : pool.entry position = .ready entry) :
      Submission pool tx sender
        { pool := (pool.addHolder position sender).1
          answer := .error (.alreadyPending tx.id)
          events := [] }
  | stale (fits : tx.size ≤ pool.config.maxTxBytes.toNat) (position : Nat)
      (indexed : pool.index[tx.id]? = some position)
      (dead : ∀ entry, pool.entry position ≠ .ready entry) :
      Submission pool tx sender
        { pool, answer := .error (.alreadyPending tx.id), events := [] }
  | invalid (fits : tx.size ≤ pool.config.maxTxBytes.toNat)
      (fresh : pool.index[tx.id]? = none) (reason : String)
      (refused : pool.validator tx = .error reason) :
      Submission pool tx sender { pool, answer := .error (.invalid reason), events := [] }
  | full (fits : tx.size ≤ pool.config.maxTxBytes.toNat)
      (fresh : pool.index[tx.id]? = none) (passed : pool.validator tx = .ok ())
      (many : pool.config.maxTxs.toNat ≤ pool.size) :
      Submission pool tx sender
        { pool, answer := .error (.full pool.config.maxTxs.toNat), events := [] }
  | accepted (fits : tx.size ≤ pool.config.maxTxBytes.toNat)
      (fresh : pool.index[tx.id]? = none) (passed : pool.validator tx = .ok ())
      (few : pool.size < pool.config.maxTxs.toNat) :
      Submission pool tx sender (pool.accept tx tx.id sender)

theorem submission (pool : Pool) (tx : Tx) (sender : PeerId) :
    Submission pool tx sender (pool.submit tx sender) := by
  unfold submit
  by_cases long : pool.config.maxTxBytes.toNat < tx.size
  · rw [if_pos long]
    exact .tooLarge long
  · have fits := Nat.le_of_not_lt long
    rw [if_neg long]
    cases indexed : pool.index[tx.id]? with
    | some position =>
        cases slot : pool.entry position with
        | ready entry =>
            simp only [indexed, slot]
            exact .duplicate fits position entry indexed slot
        | removed | evicted | pending =>
            simp only [indexed, slot]
            exact .stale fits position indexed (fun entry => by rw [slot]; intro equal; cases equal)
    | none =>
        cases checked : pool.validator tx with
        | error reason =>
            simp only [indexed]
            exact .invalid fits indexed reason checked
        | ok passed =>
            simp only [indexed]
            by_cases many : pool.config.maxTxs.toNat ≤ pool.size
            · rw [if_pos many]
              exact .full fits indexed checked many
            · rw [if_neg many]
              exact .accepted fits indexed checked (Nat.lt_of_not_le many)

theorem addHolder_eq (pool : Pool) (position : Nat) (peer : PeerId) :
    ∃ holders, (pool.addHolder position peer).1 = { pool with holders } := by
  unfold addHolder
  split
  · exact ⟨pool.holders, rfl⟩
  · exact ⟨_, rfl⟩

theorem dropCommitted_cases (pool : Pool) (id : TxId) :
    (pool.index[id]? = none ∧ (pool.dropCommitted id).1 = pool) ∨
    (∃ position, pool.index[id]? = some position ∧
      pool.log.window.entry? position = none ∧
      (pool.dropCommitted id).1 = { pool with index := pool.index.erase id }) ∨
    (∃ position entry, pool.index[id]? = some position ∧
      pool.log.window.entry? position = some entry ∧
      (pool.dropCommitted id).1 =
        { pool with
          index := pool.index.erase id
          log := { pool.log with window := pool.log.window.remove position } }) := by
  unfold dropCommitted
  cases indexed : pool.index[id]? with
  | none => exact Or.inl ⟨rfl, rfl⟩
  | some position =>
      right
      simp only [Log.remove?]
      cases live : pool.log.window.entry? position with
      | none => exact Or.inl ⟨position, rfl, live, rfl⟩
      | some entry => exact Or.inr ⟨position, entry, rfl, live, rfl⟩

/-- Dropping a list keeps what dropping each of its transactions keeps. -/
theorem dropAll_induction (holds : Pool → Prop) (pool : Pool) (committed : List Tx)
    (start : holds pool)
    (step : ∀ before id, holds before → holds (before.dropCommitted id).1) :
    holds (pool.dropAll committed).1 := by
  unfold dropAll
  generalize 0 = removed
  induction committed generalizing pool removed with
  | nil => exact start
  | cons tx later ih => exact ih (pool.dropCommitted tx.id).1 (step pool tx.id start) _

inductive Operation where
  | submit (tx : Tx) (sender : PeerId)
  | update (height : UInt64) (committed : List Tx)
  | flush
  | addHolder (position : Nat) (peer : PeerId)

def perform (pool : Pool) : Operation → Pool
  | .submit tx sender => (pool.submit tx sender).pool
  | .update height committed => (pool.update height committed).pool
  | .flush => pool.flush.pool
  | .addHolder position peer => (pool.addHolder position peer).1

def run (pool : Pool) (operations : List Operation) : Pool := operations.foldl perform pool

theorem run_append (pool : Pool) (earlier later : List Operation) :
    pool.run (earlier ++ later) = (pool.run earlier).run later := List.foldl_append

theorem run_snoc (pool : Pool) (earlier : List Operation) (last : Operation) :
    pool.run (earlier ++ [last]) = (pool.run earlier).perform last :=
  run_append pool earlier [last]

theorem run_induction (holds : Pool → Prop) (pool : Pool) (operations : List Operation)
    (start : holds pool)
    (step : ∀ before operation, holds before → holds (before.perform operation)) :
    holds (pool.run operations) := by
  unfold run
  induction operations generalizing pool with
  | nil => exact start
  | cons operation later ih => exact ih (pool.perform operation) (step pool operation start)

theorem dropCommitted_frame (pool : Pool) (id : TxId) :
    ∃ index log, (pool.dropCommitted id).1 = { pool with index, log } := by
  rcases dropCommitted_cases pool id with
    ⟨_, same⟩ | ⟨position, _, _, same⟩ | ⟨position, entry, _, _, same⟩
  · exact ⟨pool.index, pool.log, same⟩
  · exact ⟨_, _, same⟩
  · exact ⟨_, _, same⟩

theorem dropAll_frame (pool : Pool) (committed : List Tx) :
    ∃ index log, (pool.dropAll committed).1 = { pool with index, log } := by
  refine dropAll_induction (fun later => ∃ index log, later = { pool with index, log })
    pool committed ⟨_, _, rfl⟩ ?_
  rintro before id ⟨index, log, rfl⟩
  obtain ⟨nextIndex, nextLog, next⟩ := dropCommitted_frame { pool with index, log } id
  exact ⟨nextIndex, nextLog, next⟩

theorem perform_settings (pool : Pool) (operation : Operation) :
    (pool.perform operation).config = pool.config ∧
      (pool.perform operation).validator = pool.validator := by
  cases operation with
  | submit tx sender =>
      change (pool.submit tx sender).pool.config = _ ∧ (pool.submit tx sender).pool.validator = _
      have ends := submission pool tx sender
      generalize pool.submit tx sender = reply at ends ⊢
      cases ends with
      | duplicate fits position entry indexed live =>
          obtain ⟨holders, same⟩ := addHolder_eq pool position sender
          rw [same]
          exact ⟨rfl, rfl⟩
      | _ => exact ⟨rfl, rfl⟩
  | update height committed =>
      obtain ⟨index, log, same⟩ := dropAll_frame { pool with height } committed
      change ({ pool with height }.dropAll committed).1.config = _ ∧
        ({ pool with height }.dropAll committed).1.validator = _
      rw [same]
      exact ⟨rfl, rfl⟩
  | flush => exact ⟨rfl, rfl⟩
  | addHolder position peer =>
      obtain ⟨holders, same⟩ := addHolder_eq pool position peer
      change (pool.addHolder position peer).1.config = _ ∧
        (pool.addHolder position peer).1.validator = _
      rw [same]
      exact ⟨rfl, rfl⟩

end VoteGossip.Pool
