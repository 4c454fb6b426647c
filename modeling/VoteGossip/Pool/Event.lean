import VoteGossip.PeerId
import VoteGossip.Severity
import VoteGossip.Tx

/-!
What the pool reports while it works.
-/

set_option autoImplicit false

namespace VoteGossip

inductive PoolEvent where
  | evicted (id : TxId) (height : UInt64)
  | added (id : TxId) (height : UInt64) (sender : PeerId) (position : Nat)
  /-- A block was committed; `removed` of its transactions were pending. -/
  | updated (height : UInt64) (removed remaining : Nat)
  | flushed (dropped : Nat)

namespace PoolEvent

def severity : PoolEvent → Severity
  | evicted .. => .warning
  | _ => .debug

def text : PoolEvent → String
  | evicted id height =>
      s!"evicted pending tx past retention window tx={id} height={height.toNat}"
  | added id height sender position =>
      s!"added tx tx={id} height={height.toNat} sender={sender} position={position}"
  | updated height removed remaining =>
      s!"updated pool height={height.toNat} removed={removed} remaining={remaining}"
  | flushed dropped => s!"flushed pool dropped={dropped}"

def line (event : PoolEvent) : String := event.severity.line event.text

end PoolEvent

end VoteGossip
