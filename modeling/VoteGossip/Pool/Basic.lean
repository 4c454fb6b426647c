import Std.Data.ExtTreeMap
import VoteGossip.Log.Basic
import VoteGossip.PeerId
import VoteGossip.Pool.Config
import VoteGossip.Pool.Event
import VoteGossip.Pool.Validator

/-!
The pool of pending transactions.

A transaction that passes the checks on size, duplication, validity and capacity is appended to a
log, and an index leads from the name of every pending transaction to its position. The pool
remembers of every entry which peers are known to hold it. Who holds an entry is filed under the
entry's position and not inside the entry, so a reader who kept a position can still ask, and add,
after the entry has left the pool.
-/

set_option autoImplicit false

namespace VoteGossip

structure PoolEntry where
  tx : Tx
  id : TxId
  /-- Height of the pool when the transaction was admitted. -/
  height : UInt64
  deriving DecidableEq

structure Pool where
  config : PoolConfig
  validator : Validator
  log : Log PoolEntry
  index : Std.ExtTreeMap TxId Nat
  /-- The peers known to hold the entry of each position written so far. -/
  holders : Array PeerSet
  height : UInt64

namespace Pool

def new (config : PoolConfig) (validator : Validator) : Except PoolError Pool := do
  config.validate
  return {
    config
    validator
    log := .empty config.maxRetained.toNat
    index := ∅
    holders := #[]
    height := 0 }

structure Reply (Answer : Type) where
  pool : Pool
  answer : Answer
  events : List PoolEvent

def size (pool : Pool) : Nat := pool.index.size

def contains (pool : Pool) (id : TxId) : Bool := pool.index.contains id

def entry (pool : Pool) (position : Nat) : Slot PoolEntry := pool.log.get position

def find? (pool : Pool) (id : TxId) : Option (Nat × PoolEntry) := do
  let position ← pool.index[id]?
  let entry ← (pool.entry position).ready?
  return (position, entry)

def front (pool : Pool) : Option Nat := pool.log.front

def holdersAt (pool : Pool) (position : Nat) : PeerSet :=
  pool.holders.getD position ∅

def holds (pool : Pool) (position : Nat) (peer : PeerId) : Bool :=
  (pool.holdersAt position).contains peer

/-- Files that a peer holds the entry written at a position. Nobody is never filed. The answer is
whether this was news. -/
def addHolder (pool : Pool) (position : Nat) (peer : PeerId) : Pool × Bool :=
  if peer.isUnknown || pool.holds position peer then (pool, false)
  else
    let holders := (pool.holdersAt position).insert peer
    ({ pool with holders := pool.holders.setIfInBounds position holders }, true)

def initialHolders (sender : PeerId) : PeerSet :=
  if sender.isUnknown then ∅ else (∅ : PeerSet).insert sender

/-- Writes a transaction that passed every check, and forgets what the log evicted for it. -/
def accept (pool : Pool) (tx : Tx) (id : TxId) (sender : PeerId) : Reply (Except PoolError TxId) :=
  let appended := pool.log.push { tx, id, height := pool.height }
  let index := pool.index.insert id appended.position
  { pool :=
      { pool with
        log := appended.log
        index := appended.evicted.foldl (fun index entry => index.erase entry.id) index
        holders := pool.holders.push (initialHolders sender) }
    answer := .ok id
    events :=
      appended.evicted.map (fun entry => .evicted entry.id entry.height) ++
        [.added id pool.height sender appended.position] }

/-- Hands a transaction in. The first check that fails gives the answer: size, duplication,
validity, capacity. A duplicate is refused too, but its sender is filed as a holder first. -/
def submit (pool : Pool) (tx : Tx) (sender : PeerId) : Reply (Except PoolError TxId) :=
  let refuse (pool : Pool) (error : PoolError) : Reply (Except PoolError TxId) :=
    { pool, answer := .error error, events := [] }
  if pool.config.maxTxBytes.toNat < tx.size then
    refuse pool (.tooLarge tx.size pool.config.maxTxBytes.toNat)
  else
    let id := tx.id
    match pool.index[id]? with
    | some position =>
        match pool.entry position with
        | .ready _ => refuse (pool.addHolder position sender).1 (.alreadyPending id)
        | _ => refuse pool (.alreadyPending id)
    | none =>
        match pool.validator tx with
        | .error reason => refuse pool (.invalid reason)
        | .ok () =>
            if pool.config.maxTxs.toNat ≤ pool.size then
              refuse pool (.full pool.config.maxTxs.toNat)
            else pool.accept tx id sender

/-- Drops one committed transaction. The answer is whether the log still had it. -/
def dropCommitted (pool : Pool) (id : TxId) : Pool × Bool :=
  match pool.index[id]? with
  | none => (pool, false)
  | some position =>
      let pool := { pool with index := pool.index.erase id }
      match pool.log.remove? position with
      | none => (pool, false)
      | some (_, log) => ({ pool with log }, true)

def dropAll (pool : Pool) (committed : List Tx) : Pool × Nat :=
  committed.foldl
    (fun (pool, removed) tx =>
      let (pool, found) := pool.dropCommitted tx.id
      (pool, if found then removed + 1 else removed))
    (pool, 0)

def update (pool : Pool) (height : UInt64) (committed : List Tx) : Reply Unit :=
  let (pool, removed) := { pool with height }.dropAll committed
  { pool, answer := (), events := [.updated height removed pool.size] }

def flush (pool : Pool) : Reply Unit :=
  { pool := { pool with index := ∅, log := pool.log.clear }
    answer := ()
    events := [.flushed pool.log.entries.length] }

def described (pool : Pool) : String :=
  let config := pool.config.described
  s!"TxVotePool \x7b config: {config}, size: {pool.size}, height: {pool.height.toNat}, .. \x7d"

end Pool

end VoteGossip
