import VoteGossip.Tx

/-!
Why a transaction cannot enter the pool, and why a pool cannot be set up.
-/

set_option autoImplicit false

namespace VoteGossip

inductive PoolError where
  | tooLarge (size limit : Nat)
  | alreadyPending (id : TxId)
  | full (limit : Nat)
  | invalid (reason : String)
  | configuration (reason : String)
  deriving DecidableEq

namespace PoolError

def message : PoolError → String
  | tooLarge size limit => s!"tx too large: {size} bytes (max {limit})"
  | alreadyPending id => s!"tx already in pool: {id}"
  | full limit => s!"pool is full ({limit} txs)"
  | invalid reason => s!"invalid tx: {reason}"
  | configuration reason => s!"configuration error: {reason}"

instance : ToString PoolError := ⟨message⟩

end PoolError

end VoteGossip
