import VoteGossip.Limits
import VoteGossip.Pool.Error

/-!
Settings of the pool, and when they can be used.
-/

set_option autoImplicit false

namespace VoteGossip

structure PoolConfig where
  maxTxs : UInt64 := 5000
  maxTxBytes : UInt64 := Limits.payloadBytes
  /-- How many slots the log holds before it evicts the oldest. -/
  maxRetained : UInt64 := 10000
  deriving DecidableEq

namespace PoolConfig

def validate (config : PoolConfig) : Except PoolError Unit :=
  if config.maxTxs = 0 then
    .error (.configuration "max_txs must be positive")
  else if config.maxTxBytes = 0 then
    .error (.configuration "max_tx_bytes must be positive")
  else if config.maxRetained < config.maxTxs then
    let retained := config.maxRetained.toNat
    let txs := config.maxTxs.toNat
    .error (.configuration s!"max_retained ({retained}) must be at least max_txs ({txs})")
  else .ok ()

def described (config : PoolConfig) : String :=
  let txs := config.maxTxs.toNat
  let bytes := config.maxTxBytes.toNat
  let retained := config.maxRetained.toNat
  s!"PoolConfig \x7b max_txs: {txs}, max_tx_bytes: {bytes}, max_retained: {retained} \x7d"

end PoolConfig

end VoteGossip
