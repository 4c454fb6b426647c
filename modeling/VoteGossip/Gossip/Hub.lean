import VoteGossip.Gossip.Config
import VoteGossip.Gossip.Routine
import VoteGossip.Registry

/-!
The hub of a gossiping node: the pool, the registered peers, their connections and their broadcast
routines.

Connections and routines are numbered in the order in which they came to be, and neither number is
ever used again. The hub remembers which routine serves a registered node, and of the routines
of nodes that were removed those that had not finished by then.
-/

set_option autoImplicit false

namespace VoteGossip

structure Hub where
  config : GossipConfig
  pool : Pool
  heights : Heights
  registry : Registry
  started : Bool
  shutdown : Bool
  connections : Array Connection
  routines : Array Routine
  /-- The routine that serves a node. -/
  serving : Std.ExtTreeMap NodeId Nat
  /-- Routines of removed nodes. -/
  retired : List Nat
  now : Nat

namespace Hub

def new (config : GossipConfig) (pool : Pool) (registry : Registry) :
    Except GossipError Hub := do
  config.validate
  return {
    config
    pool
    registry
    heights := ∅
    started := false
    shutdown := false
    connections := #[]
    routines := #[]
    serving := ∅
    retired := []
    now := 0 }

structure Reply (Answer : Type) where
  hub : Hub
  answer : Answer
  events : List GossipEvent

def channels (hub : Hub) : List (UInt8 × UInt8) :=
  [(txChannel, hub.config.channelPriority)]

/-- Gossip runs from its start to its stop, and never again. -/
def isRunning (hub : Hub) : Bool := hub.started && !hub.shutdown

def peerCount (hub : Hub) : Nat := hub.registry.size

def described (hub : Hub) : String :=
  let config := hub.config.described
  s!"GossipCoordinator \x7b config: {config}, peers: {hub.peerCount}, " ++
    s!"running: {hub.isRunning}, .. \x7d"

/-- Lets gossip run. Peers that were added before get no routine by this. -/
def start (hub : Hub) : Reply Unit :=
  { hub := { hub with started := true }
    answer := ()
    events := if hub.config.broadcast then [] else [.broadcastDisabled] }

/-- Opens a connection to a node. The node is not registered by this. -/
def openConnection (hub : Hub) (node : NodeId) (capacity : Nat) : Hub × Nat :=
  ({ hub with connections := hub.connections.push (.new node capacity) },
    hub.connections.size)

def withConnection (hub : Hub) (index : Nat) (change : Connection → Connection) : Hub :=
  { hub with connections := hub.connections.modify index change }

def isAlive (hub : Hub) (index : Nat) : Bool :=
  match hub.routines[index]? with
  | some routine => !routine.isFinished
  | none => false

def routinesOn (hub : Hub) (connection : Nat) : Nat :=
  hub.routines.toList.countP fun routine =>
    routine.connection == connection && !routine.isFinished

def launch (hub : Hub) (node : NodeId) (connection : Nat) (peer : PeerId) : Hub :=
  { hub with
    routines := hub.routines.push { connection, peer, phase := .launching }
    serving := hub.serving.insert node hub.routines.size }

def isServed (hub : Hub) (node : NodeId) : Bool :=
  match hub.serving[node]? with
  | some index => hub.isAlive index
  | none => false

/-- Registers the node of a connection and, while gossip runs, creates a routine for the
connection unless the node still has one. A connection that was never opened is nobody's. -/
def addPeer (hub : Hub) (connection : Nat) : Reply (Except Registry.Refusal PeerId) :=
  match hub.connections[connection]? with
  | none => { hub, answer := .ok .unknown, events := [] }
  | some { node, .. } =>
      match hub.registry.reserve node with
      | .error refusal => { hub, answer := .error refusal, events := [] }
      | .ok (peer, registry) =>
          let hub := { hub with registry }
          let added := GossipEvent.peerAdded node peer
          if !hub.config.broadcast || !hub.isRunning then
            { hub, answer := .ok peer, events := [added] }
          else if hub.isServed node then
            { hub, answer := .ok peer, events := [added, .alreadyServed node peer] }
          else
            { hub := hub.launch node connection peer
              answer := .ok peer
              events := [added] }

/-- Takes the routine of a node out of service. Routines that were retired before and have
finished since are forgotten at this occasion. -/
def retire (hub : Hub) (node : NodeId) : Hub :=
  match hub.serving[node]? with
  | none => hub
  | some index =>
      let alive := hub.retired.filter hub.isAlive
      { hub with
        serving := hub.serving.erase node
        retired := if hub.isAlive index then alive ++ [index] else alive }

/-- Takes the number of a node back. Its routine ends by itself once its connection quits. -/
def removePeer (hub : Hub) (node : NodeId) (reason : String) : Reply Unit :=
  let (reclaimed, registry) := hub.registry.reclaim node
  { hub := { hub with registry }.retire node
    answer := ()
    events := [.peerRemoved node reclaimed reason] }

def submit (hub : Hub) (tx : Tx) (sender : PeerId) : Reply (Except PoolError TxId) :=
  let reply := hub.pool.submit tx sender
  { hub := { hub with pool := reply.pool }
    answer := reply.answer
    events := reply.events.map .pool }

def update (hub : Hub) (height : UInt64) (committed : List Tx) : Reply Unit :=
  let reply := hub.pool.update height committed
  { hub := { hub with pool := reply.pool }
    answer := ()
    events := reply.events.map .pool }

def flush (hub : Hub) : Reply Unit :=
  let reply := hub.pool.flush
  { hub := { hub with pool := reply.pool }
    answer := ()
    events := reply.events.map .pool }

def submitFrom (hub : Hub) (node : NodeId) (tx : Tx) : Reply (Except GossipError Unit) :=
  let reply := hub.submit tx (hub.registry.lookup node)
  match reply.answer with
  | .ok _ => { reply with answer := .ok () }
  | .error cause =>
      let event :=
        match cause with
        | .alreadyPending _ => GossipEvent.duplicate tx.id node
        | cause => .refused tx.id node cause
      { reply with
        answer := .error (.rejected cause)
        events := reply.events ++ [event] }

/-- Takes a frame that came in on a connection. A frame that is no message stops the connection; a
transaction that the pool refuses does not. -/
def receive (hub : Hub) (connection : Nat) (channel : UInt8) (frame : List UInt8) :
    Reply (Except GossipError Unit) :=
  match hub.connections[connection]? with
  | none => { hub, answer := .ok (), events := [] }
  | some { node, .. } =>
      if channel ≠ txChannel then
        { hub, answer := .ok (), events := [.unexpectedChannel node channel] }
      else
        let codec : Codec := { maxFrame := hub.config.maxMessageBytes }
        match codec.decode frame with
        | .error cause =>
            { hub := hub.withConnection connection (·.stopForError (.decode cause))
              answer := .error (.decode cause)
              events := [.undecodable node channel frame.length cause] }
        | .ok message =>
            let received := GossipEvent.received node channel message
            match message with
            | .tx vote =>
                let reply := hub.submitFrom node vote
                { reply with events := received :: reply.events }
            | .unknown messageType =>
                { hub
                  answer := .ok ()
                  events := [received, .unknownType node messageType] }

def view (hub : Hub) : Routine.View :=
  { pool := hub.pool
    heights := hub.heights
    shutdown := hub.shutdown
    now := hub.now
    interval := hub.config.catchupInterval.toNat }

def wakesOn (hub : Hub) (index : Nat) (wake : Routine.Wake) : Bool :=
  match hub.routines[index]? with
  | none => false
  | some routine =>
      match hub.connections[routine.connection]? with
      | none => false
      | some connection => routine.wakesOn hub.view connection wake

def resume (hub : Hub) (index : Nat) (wake : Routine.Wake) :
    Hub × List RoutineEvent :=
  match hub.routines[index]? with
  | none => (hub, [])
  | some routine =>
      match hub.connections[routine.connection]? with
      | none => (hub, [])
      | some connection =>
          let turn := routine.resume hub.view connection wake
          ({ hub with
              routines := hub.routines.setIfInBounds index turn.routine
              connections :=
                hub.connections.setIfInBounds routine.connection turn.connection },
            turn.events)

/-- Tells every routine to end and waits for none of them yet. -/
def signalStop (hub : Hub) : Hub :=
  { hub with
    started := false
    shutdown := true
    serving := ∅
    retired := [] }

end Hub

end VoteGossip
