import Mathlib.Logic.Function.Basic
import VoteGossip.Proofs.Gossip.Due
import VoteGossip.Proofs.Gossip.Service
import VoteGossip.Proofs.Selection

/-!
A hub without one of its nodes. What a hub is to the other nodes leaves out what only concerns that
one: the height that it reported, its routines, the queues of its connections and whether they have
quit. What is left goes on by itself. Of everything that happens, no more has to be known than
what is exposed of it; and of the turns of a routine for that node, nothing is.
-/

set_option autoImplicit false

namespace VoteGossip

/-- The connection itself, or no more than where it leads if it leads to the node. -/
def Connection.masked (node : NodeId) (connection : Connection) : Connection :=
  if connection.node = node then .new node 0 else connection

/-- What a hub is to all nodes but one. -/
structure Elsewhere where
  config : GossipConfig
  pool : Pool
  heights : Heights
  registry : Registry
  started : Bool
  shutdown : Bool
  connections : Array Connection
  routines : List Routine
  serving : NodeId → Option Nat

/-- What can be told of an action without speaking of the node. -/
inductive Exposure where
  | operation (action : Hub.Action)
  | turn (place : Nat) (wake : Routine.Wake) (now : Nat)
  deriving DecidableEq

namespace Hub

def servesOther (hub : Hub) (node : NodeId) (routine : Routine) : Bool :=
  hub.connections[routine.connection]?.any fun connection => connection.node != node

def place? (hub : Hub) (node : NodeId) (index : Nat) : Option Nat :=
  Selection.place? (hub.servesOther node) hub.routines.toList index

def elsewhere (hub : Hub) (node : NodeId) : Elsewhere where
  config := hub.config
  pool := hub.pool
  heights := hub.heights.forget node
  registry := hub.registry
  started := hub.started
  shutdown := hub.shutdown
  connections := hub.connections.map (Connection.masked node)
  routines := hub.routines.toList.filter (hub.servesOther node)
  serving := fun other =>
    if other = node then none else hub.serving[other]?.bind (hub.place? node)

/-- What is exposed of an action. The size of a buffer of the node, the heights reported for it and
what becomes of its connections are not, nor when the clock moves: only at what time a routine for
another node takes a turn. -/
def exposed? (hub : Hub) (node : NodeId) (action : Action) : Option Exposure :=
  match action with
  | .openConnection other capacity =>
      some (.operation (.openConnection other (if other = node then 0 else capacity)))
  | .report other _ | .forget other => if other = node then none else some (.operation action)
  | .send index _ | .drain index _ | .dropReceiver index | .disconnect index
  | .stopForError index _ => if hub.LeadsTo index node then none else some (.operation action)
  | .clock _ => none
  | .resume index wake =>
      if hub.wakesOn index wake then
        (hub.place? node index).map fun place => .turn place wake hub.now
      else none
  | _ => some (.operation action)

def exposures (hub : Hub) (node : NodeId) : List Action → List Exposure
  | [] => []
  | action :: later =>
      (hub.exposed? node action).toList ++ (hub.perform action).exposures node later

end Hub

namespace Elsewhere

variable (node : NodeId) (rest : Elsewhere)

def isRunning : Bool := rest.started && !rest.shutdown

def isServed (other : NodeId) : Bool :=
  (rest.serving other).any fun place => rest.routines[place]?.any fun routine => !routine.isFinished

def view (now : Nat) : Routine.View where
  pool := rest.pool
  heights := rest.heights
  shutdown := rest.shutdown
  now := now
  interval := rest.config.catchupInterval.toNat

def withConnection (index : Nat) (change : Connection → Connection) : Elsewhere :=
  { rest with connections := rest.connections.modify index change }

def addPeer (index : Nat) : Elsewhere :=
  match rest.connections[index]? with
  | none => rest
  | some connection =>
      match rest.registry.reserve connection.node with
      | .error _ => rest
      | .ok (peer, registry) =>
          if connection.node = node || !rest.config.broadcast || !rest.isRunning ||
              rest.isServed connection.node then { rest with registry }
          else
            { rest with
              registry
              routines := rest.routines ++ [{ connection := index, peer, phase := .launching }]
              serving := Function.update rest.serving connection.node rest.routines.length }

def receive (index : Nat) (channel : UInt8) (frame : List UInt8) : Elsewhere :=
  match rest.connections[index]? with
  | none => rest
  | some connection =>
      if channel ≠ txChannel then rest
      else
        match (Codec.mk rest.config.maxMessageBytes).decode frame with
        | .error cause =>
            if connection.node = node then rest
            else rest.withConnection index (·.stopForError (.decode cause))
        | .ok (.tx vote) =>
            { rest with
              pool := (rest.pool.submit vote (rest.registry.lookup connection.node)).pool }
        | .ok (.unknown _) => rest

def operate : Hub.Action → Elsewhere
  | .start => { rest with started := true }
  | .stop => { rest with started := false, shutdown := true, serving := fun _ => none }
  | .openConnection other capacity =>
      { rest with connections := rest.connections.push (.new other capacity) }
  | .addPeer index => rest.addPeer node index
  | .removePeer other _ =>
      { rest with
        registry := (rest.registry.reclaim other).2
        serving := Function.update rest.serving other none }
  | .receive index channel frame => rest.receive node index channel frame
  | .submit tx sender => { rest with pool := (rest.pool.submit tx sender).pool }
  | .update height committed => { rest with pool := (rest.pool.update height committed).pool }
  | .flush => { rest with pool := rest.pool.flush.pool }
  | .addHolder position peer => { rest with pool := (rest.pool.addHolder position peer).1 }
  | .report other height => { rest with heights := rest.heights.report other height }
  | .forget other => { rest with heights := rest.heights.forget other }
  | .send index frame => rest.withConnection index fun connection => (connection.trySend frame).1
  | .drain index count => rest.withConnection index fun connection => (connection.receive count).1
  | .dropReceiver index => rest.withConnection index Connection.dropReceiver
  | .disconnect index => rest.withConnection index Connection.disconnect
  | .stopForError index error => rest.withConnection index (·.stopForError error)
  | .clock _ | .resume _ _ => rest

def turn (place : Nat) (wake : Routine.Wake) (now : Nat) : Elsewhere :=
  match rest.routines[place]? with
  | none => rest
  | some routine =>
      match rest.connections[routine.connection]? with
      | none => rest
      | some connection =>
          let turn := routine.resume (rest.view now) connection wake
          { rest with
            routines := rest.routines.set place turn.routine
            connections := rest.connections.setIfInBounds routine.connection turn.connection }

def perform : Exposure → Elsewhere
  | .operation action => rest.operate node action
  | .turn place wake now => rest.turn place wake now

end Elsewhere

section Masks

variable {node : NodeId} {connection : Connection}

theorem Connection.masked_of_node (leads : connection.node = node) :
    connection.masked node = .new node 0 := if_pos leads

theorem Connection.masked_of_other (leads : connection.node ≠ node) :
    connection.masked node = connection := if_neg leads

theorem Connection.node_masked (node : NodeId) (connection : Connection) :
    (connection.masked node).node = connection.node := by
  unfold masked
  split
  · rename_i leads
    exact leads.symm
  · rfl

theorem Heights.forget_report_self (heights : Heights) (node : NodeId) (height : UInt64) :
    (heights.report node height).forget node = heights.forget node := by
  apply Std.ExtTreeMap.ext_getElem?
  intro other
  unfold report forget
  rw [Std.ExtTreeMap.getElem?_erase, Std.ExtTreeMap.getElem?_erase, Std.ExtTreeMap.getElem?_insert]
  split <;> rfl

theorem Heights.forget_report {other : NodeId} (heights : Heights) (different : other ≠ node)
    (height : UInt64) :
    (heights.report other height).forget node = (heights.forget node).report other height := by
  apply Std.ExtTreeMap.ext_getElem?
  intro third
  unfold report forget
  rw [Std.ExtTreeMap.getElem?_erase, Std.ExtTreeMap.getElem?_insert, Std.ExtTreeMap.getElem?_insert,
    Std.ExtTreeMap.getElem?_erase]
  split
  · rename_i same
    rw [if_neg]
    intro alike
    exact different ((Std.compare_eq_iff_eq.mp alike).trans (Std.compare_eq_iff_eq.mp same).symm)
  · rfl

theorem Heights.forget_comm (heights : Heights) (left right : NodeId) :
    (heights.forget left).forget right = (heights.forget right).forget left := by
  apply Std.ExtTreeMap.ext_getElem?
  intro other
  unfold forget
  rw [Std.ExtTreeMap.getElem?_erase, Std.ExtTreeMap.getElem?_erase, Std.ExtTreeMap.getElem?_erase,
    Std.ExtTreeMap.getElem?_erase]
  split <;> split <;> rfl

theorem Heights.forget_self (heights : Heights) (node : NodeId) :
    (heights.forget node).forget node = heights.forget node := by
  apply Std.ExtTreeMap.ext_getElem?
  intro other
  unfold forget
  rw [Std.ExtTreeMap.getElem?_erase, Std.ExtTreeMap.getElem?_erase]
  split <;> rfl

theorem Heights.reported?_forget {other : NodeId} (heights : Heights) (different : other ≠ node) :
    (heights.forget node).reported? other = heights.reported? other := by
  unfold reported? forget
  rw [Std.ExtTreeMap.getElem?_erase, if_neg]
  intro same
  exact different (Std.compare_eq_iff_eq.mp same).symm

theorem Routine.resume_withHeights {routine : Routine} {view : View} {wake : Wake}
    {heights : Heights}
    (same : heights.reported? connection.node = view.heights.reported? connection.node) :
    routine.resume { view with heights } connection wake = routine.resume view connection wake := by
  have restart : routine.restart { view with heights } connection =
      routine.restart view connection := rfl
  have visit : ∀ position, routine.visit { view with heights } connection position =
      routine.visit view connection position := by
    intro position
    unfold Routine.visit Routine.deliver
    simp only [same]
    rfl
  have proceed : ∀ position, routine.proceed { view with heights } connection position =
      routine.proceed view connection position := by
    intro position
    unfold Routine.proceed
    rw [visit]
    rfl
  unfold resume
  simp only [restart, visit, proceed]

end Masks

end VoteGossip
