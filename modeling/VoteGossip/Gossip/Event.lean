import VoteGossip.Gossip.Error
import VoteGossip.NodeId
import VoteGossip.PeerId
import VoteGossip.Pool.Event

/-!
What gossip reports while it works: one kind of event for the operations that others ask for, one
for the broadcast routines.
-/

set_option autoImplicit false

namespace VoteGossip

inductive Delivery where
  | sent
  | alreadyHeld
  | peerNotReady
  /-- The peer is more than one block behind the entry. -/
  | peerBehind
  | backpressure
  deriving DecidableEq

namespace Delivery

def name : Delivery → String
  | sent => "Sent"
  | alreadyHeld => "AlreadyHeld"
  | peerNotReady => "PeerNotReady"
  | peerBehind => "PeerBehind"
  | backpressure => "Backpressure"

def isRetry : Delivery → Bool
  | peerNotReady | peerBehind | backpressure => true
  | sent | alreadyHeld => false

end Delivery

inductive GossipEvent where
  | pool (event : PoolEvent)
  | broadcastDisabled
  | gossipStopped
  | peerAdded (node : NodeId) (peer : PeerId)
  | alreadyServed (node : NodeId) (peer : PeerId)
  | peerRemoved (node : NodeId) (peer : Option PeerId) (reason : String)
  | unexpectedChannel (node : NodeId) (channel : UInt8)
  | undecodable (node : NodeId) (channel : UInt8) (length : Nat) (cause : DecodeError)
  | received (node : NodeId) (channel : UInt8) (message : Message)
  | duplicate (id : TxId) (node : NodeId)
  | refused (id : TxId) (node : NodeId) (cause : PoolError)
  | unknownType (node : NodeId) (messageType : UInt32)

namespace GossipEvent

def severity : GossipEvent → Severity
  | pool event => event.severity
  | broadcastDisabled | gossipStopped | refused .. => .info
  | peerAdded .. | alreadyServed .. | peerRemoved .. | received .. | duplicate .. => .debug
  | unexpectedChannel .. => .warning
  | undecodable .. | unknownType .. => .error

def describedPeer : Option PeerId → String
  | some peer => s!"Some({peer.described})"
  | none => "None"

def text : GossipEvent → String
  | pool event => event.text
  | broadcastDisabled => "tx broadcasting is disabled"
  | gossipStopped => "tx gossip stopped"
  | peerAdded node peer => s!"added peer peer={node} peer_id={peer}"
  | alreadyServed node peer =>
      s!"broadcast routine already running peer={node} peer_id={peer}"
  | peerRemoved node peer reason =>
      s!"removed peer peer={node} peer_id={describedPeer peer} reason={reason}"
  | unexpectedChannel node channel =>
      s!"frame on unexpected channel peer={node} channel={channel.toNat}"
  | undecodable node channel length cause =>
      s!"error decoding message peer={node} channel={channel.toNat} len={length} error={cause}"
  | received node channel message =>
      s!"receive peer={node} channel={channel.toNat} msg={message}"
  | duplicate id node => s!"tx already in pool tx={id} peer={node}"
  | refused id node cause => s!"could not check tx tx={id} peer={node} error={cause}"
  | unknownType node messageType =>
      s!"unknown message type peer={node} msg_type={messageType.toNat}"

def line (event : GossipEvent) : String := event.severity.line event.text

end GossipEvent

inductive RoutineEvent where
  | started (node : NodeId) (peer : PeerId)
  | retrying (node : NodeId) (position : Nat) (delivery : Delivery)
  | offered (node : NodeId) (position : Nat) (delivery : Delivery)
  | stopped (node : NodeId) (peer : PeerId)
  deriving DecidableEq

namespace RoutineEvent

def severity : RoutineEvent → Severity
  | started .. | stopped .. => .debug
  | retrying .. | offered .. => .trace

def text : RoutineEvent → String
  | started node peer => s!"tx broadcast routine started peer={node} peer_id={peer}"
  | retrying node position delivery =>
      s!"retrying after catch-up interval peer={node} position={position} " ++
        s!"delivery={delivery.name}"
  | offered node position delivery =>
      s!"offered tx peer={node} position={position} delivery={delivery.name}"
  | stopped node peer => s!"tx broadcast routine stopped peer={node} peer_id={peer}"

def line (event : RoutineEvent) : String := event.severity.line event.text

end RoutineEvent

end VoteGossip
