import VoteGossip.Gossip.Error

/-!
Settings of gossip, and when they can be used.
-/

set_option autoImplicit false

namespace VoteGossip

structure GossipConfig where
  broadcast : Bool := true
  maxMessageBytes : UInt64 := Limits.frameBytes
  /-- The pause, in milliseconds, before a peer that cannot take an entry is offered it again. -/
  catchupInterval : UInt64 := 100
  channelPriority : UInt8 := 5
  deriving DecidableEq

namespace GossipConfig

/-- The longest payload that is taken to fit into a frame; zero if not even the envelope fits. -/
def maxTxBytes (config : GossipConfig) : UInt64 :=
  if config.maxMessageBytes < Limits.envelopeBytes then 0
  else config.maxMessageBytes - Limits.envelopeBytes

def validate (config : GossipConfig) : Except GossipError Unit :=
  if config.maxMessageBytes ≤ Limits.envelopeBytes then
    let overhead := Limits.envelopeBytes.toNat
    .error (.configuration s!"max_msg_bytes must exceed the {overhead}-byte envelope")
  else if config.catchupInterval = 0 then
    .error (.configuration "catchup_interval_ms must be positive")
  else .ok ()

/-- Sets the pause to a span of seconds and nanoseconds. Parts of a millisecond are dropped, and of
the milliseconds the lowest 64 bits are kept. -/
def setCatchupInterval (config : GossipConfig) (seconds nanoseconds : Nat) : GossipConfig :=
  { config with catchupInterval := (seconds * 1000 + nanoseconds / 1000000).toUInt64 }

def catchupSpan (config : GossipConfig) : Nat × Nat :=
  let milliseconds := config.catchupInterval.toNat
  (milliseconds / 1000, milliseconds % 1000 * 1000000)

def described (config : GossipConfig) : String :=
  let bytes := config.maxMessageBytes.toNat
  let interval := config.catchupInterval.toNat
  let priority := config.channelPriority.toNat
  s!"GossipConfig \x7b broadcast: {config.broadcast}, max_msg_bytes: {bytes}, " ++
    s!"catchup_interval_ms: {interval}, channel_priority: {priority} \x7d"

end GossipConfig

end VoteGossip
