import VoteGossip.Gossip.Error
import VoteGossip.NodeId

/-!
A connection to a node: a bounded queue of outgoing frames and a quit signal.

Queueing never waits. It fails when the queue is full, when nobody takes frames out any more, and
once the connection has quit.
-/

set_option autoImplicit false

namespace VoteGossip

structure Frame where
  channel : UInt8
  bytes : List UInt8
  deriving DecidableEq

structure Connection where
  node : NodeId
  capacity : Nat
  queue : Array Frame
  receiving : Bool
  quit : Bool
  stopReason : Option GossipError

namespace Connection

def defaultCapacity : Nat := 256

/-- An open connection. Its queue has room for at least one frame. -/
def new (node : NodeId) (capacity : Nat) : Connection :=
  { node
    capacity := max capacity 1
    queue := #[]
    receiving := true
    quit := false
    stopReason := none }

def accepts (connection : Connection) : Bool :=
  !connection.quit && connection.receiving &&
    decide (connection.queue.size < connection.capacity)

def trySend (connection : Connection) (frame : Frame) : Connection × Bool :=
  if connection.accepts then
    ({ connection with queue := connection.queue.push frame }, true)
  else (connection, false)

def receive (connection : Connection) (count : Nat) : Connection × List Frame :=
  ({ connection with queue := connection.queue.extract count },
    (connection.queue.extract 0 count).toList)

/-- Stops taking frames out. Those that wait are lost. -/
def dropReceiver (connection : Connection) : Connection :=
  { connection with queue := #[], receiving := false }

def queued? (connection : Connection) : Option Nat :=
  if connection.receiving then some connection.queue.size else none

def disconnect (connection : Connection) : Connection :=
  { connection with quit := true }

def stopForError (connection : Connection) (error : GossipError) : Connection :=
  { connection with quit := true, stopReason := some error }

end Connection

end VoteGossip
