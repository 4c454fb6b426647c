import VoteGossip.Connection
import VoteGossip.Gossip.Event
import VoteGossip.Heights
import VoteGossip.Log.Wait
import VoteGossip.Pool.Basic

/-!
The broadcast routine of one connection.

A routine walks the log of the pool from the oldest live entry on and offers every entry to its
peer. The peer must have reported a height and be at most one block behind the entry; an entry that
the peer is known to hold is passed over; a frame that the peer cannot take now is offered again
after a pause. When the entry at its cursor has fallen out of the window, the routine starts again
from the oldest live entry.

Between two waits a routine runs in one go, and what it does in that time is a `Turn`: it reads the
pool, the heights and the clock, and changes nothing but its own phase and the queue of its own
connection. This is an assumption about those who run routines. From the look at an entry until its
frame is queued nothing else happens: the entry is not removed in between, no peer is filed as its
holder, no height changes, and the connection does not quit.
-/

set_option autoImplicit false

namespace VoteGossip

def txChannel : UInt8 := 0x31

namespace Routine

inductive Phase where
  | launching
  /-- Without a cursor, until the log has a live entry. -/
  | awaitingEntries
  /-- Done with the entry at its cursor, until the next position has been written. -/
  | awaitingSuccessor (position : Nat)
  /-- About to offer the entry at its cursor again at a time of the clock. -/
  | pausing (position wakeAt : Nat)
  | finished
  deriving DecidableEq

inductive Wake where
  | launch
  | entries
  | successor
  | timer
  | cancellation
  deriving DecidableEq

end Routine

/-- A routine, the connection it serves, and the number it knows the peer by. -/
structure Routine where
  connection : Nat
  peer : PeerId
  phase : Routine.Phase
  deriving DecidableEq

namespace Routine

structure View where
  pool : Pool
  heights : Heights
  shutdown : Bool
  now : Nat
  interval : Nat

def View.cancels (view : View) (connection : Connection) : Bool :=
  view.shutdown || connection.quit

structure Turn where
  routine : Routine
  connection : Connection
  events : List RoutineEvent

def isFinished (routine : Routine) : Bool := routine.phase == .finished

def wakesOn (routine : Routine) (view : View) (connection : Connection) (wake : Wake) : Bool :=
  match routine.phase, wake with
  | .launching, .launch => true
  | .awaitingEntries, .entries => view.pool.log.offers .entries
  | .awaitingSuccessor position, .successor => view.pool.log.offers (.successor position)
  | .pausing _ wakeAt, .timer => decide (wakeAt ≤ view.now)
  | .launching, .cancellation | .finished, .cancellation => false
  | _, .cancellation => view.cancels connection
  | _, _ => false

/-- The height up to which entries suit a peer that reported this one: a lag of one block is
allowed. -/
def reach (reported : UInt64) : UInt64 :=
  if reported + 1 = 0 then reported else reported + 1

def deliver (view : View) (connection : Connection) (peer : PeerId) (position : Nat)
    (entry : PoolEntry) : Connection × Delivery :=
  match view.heights.reported? connection.node with
  | none => (connection, .peerNotReady)
  | some reported =>
      if reach reported < entry.height then (connection, .peerBehind)
      else if view.pool.holds position peer then (connection, .alreadyHeld)
      else
        let frame : Frame :=
          { channel := txChannel, bytes := Message.encodePayload entry.tx.payload }
        let (connection, queued) := connection.trySend frame
        (connection, if queued then .sent else .backpressure)

def park (routine : Routine) (connection : Connection) (phase : Phase) : Turn :=
  { routine := { routine with phase }, connection, events := [] }

def finish (routine : Routine) (connection : Connection) : Turn :=
  { routine := { routine with phase := .finished }
    connection
    events := [.stopped connection.node routine.peer] }

def restart (routine : Routine) (view : View) (connection : Connection) : Turn :=
  if view.cancels connection then routine.finish connection
  else routine.park connection .awaitingEntries

def visit (routine : Routine) (view : View) (connection : Connection) (position : Nat) : Turn :=
  match view.pool.entry position with
  | .ready entry =>
      let (served, delivery) := deliver view connection routine.peer position entry
      if delivery.isRetry then
        { routine := { routine with phase := .pausing position (view.now + view.interval) }
          connection := served
          events := [.retrying connection.node position delivery] }
      else
        { routine := { routine with phase := .awaitingSuccessor position }
          connection := served
          events := [.offered connection.node position delivery] }
  | .removed => routine.park connection (.awaitingSuccessor position)
  | .evicted | .pending => routine.restart view connection

def proceed (routine : Routine) (view : View) (connection : Connection) (position : Nat) : Turn :=
  if view.cancels connection then routine.finish connection
  else routine.visit view connection position

/-- Runs from the end of one wait to the next wait. A wait that cannot come to this is none of the
routine's, and it stays where it is. -/
def resume (routine : Routine) (view : View) (connection : Connection) (wake : Wake) : Turn :=
  match routine.phase, wake with
  | .launching, .launch =>
      let turn := routine.restart view connection
      { turn with events := .started connection.node routine.peer :: turn.events }
  | .awaitingEntries, .entries =>
      match view.pool.front with
      | some front => routine.visit view connection front
      | none => routine.restart view connection
  | .awaitingSuccessor position, .successor => routine.proceed view connection (position + 1)
  | .pausing position _, .timer => routine.proceed view connection position
  | .finished, .cancellation | .launching, .cancellation =>
      routine.park connection routine.phase
  | _, .cancellation => routine.finish connection
  | _, _ => routine.park connection routine.phase

end Routine

end VoteGossip
