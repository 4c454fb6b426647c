/-!
Sizes that the parts of the protocol agree on.
-/

set_option autoImplicit false

namespace VoteGossip.Limits

def frameBytes : UInt64 := 1048576

/-- What the envelope around a payload is taken to cost. -/
def envelopeBytes : UInt64 := 8

def payloadBytes : UInt64 := frameBytes - envelopeBytes

end VoteGossip.Limits
