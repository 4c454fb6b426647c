import VoteGossip.Message
import VoteGossip.Pool.Error

/-!
What can go wrong in gossip, and whose fault it is.
-/

set_option autoImplicit false

namespace VoteGossip

inductive GossipError where
  | decode (cause : DecodeError)
  | rejected (cause : PoolError)
  | configuration (reason : String)
  | io (reason : String)
  deriving DecidableEq

namespace GossipError

def message : GossipError → String
  | decode cause => s!"decode error: {cause}"
  | rejected cause => s!"tx rejected: {cause}"
  | configuration reason => s!"configuration error: {reason}"
  | io reason => s!"io error: {reason}"

instance : ToString GossipError := ⟨message⟩

/-- Only a frame that is no message is held against the peer that sent it. -/
def isPeerFault : GossipError → Bool
  | decode _ => true
  | _ => false

end GossipError

end VoteGossip
