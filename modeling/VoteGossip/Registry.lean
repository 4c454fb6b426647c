import Std.Data.ExtTreeMap
import VoteGossip.NodeId
import VoteGossip.PeerId

/-!
Assignment of peer identifiers to nodes.

A node that connects gets the smallest number that nobody has. Finding it needs no search: numbers
that were given back wait in an ordered set, and a cursor stands at the smallest number that was
never given out. Below the cursor a number is therefore either assigned or waiting. The numbers in
use are also kept as a set, nobody's among them, so that nothing has to look through the nodes.
-/

set_option autoImplicit false

namespace VoteGossip

structure Registry where
  capacity : Nat
  assigned : Std.ExtTreeMap NodeId PeerId
  active : PeerSet
  /-- Numbers below the cursor that were given back. -/
  waiting : PeerSet
  /-- The smallest number that was never given out. -/
  cursor : Nat

namespace Registry

/-- Numbers have 16 bits and zero is nobody's. -/
def maxCapacity : Nat := 65535

/-- A registry without nodes. No capacity goes beyond what the numbers allow. -/
def empty (capacity : Nat) : Registry :=
  { capacity := min capacity maxCapacity
    assigned := ∅
    active := (∅ : PeerSet).insert .unknown
    waiting := ∅
    cursor := 1 }

inductive Refusal where
  | full (capacity : Nat)
  | cursorPastEnd (cursor : Nat)
  deriving DecidableEq

def Refusal.message : Refusal → String
  | .full capacity =>
      s!"node has maximum {capacity} active IDs and wanted to get one more"
  | .cursorPastEnd cursor => s!"peer id cursor {cursor} ran past the 16-bit range"

/-- Takes the smallest free number. It is not assigned to anybody yet. -/
def take (registry : Registry) : Except Refusal (PeerId × Registry) :=
  if registry.capacity < registry.active.size then .error (.full registry.capacity)
  else
    match registry.waiting.first? with
    | some peer => .ok (peer, { registry with waiting := registry.waiting.erase peer })
    | none =>
        if maxCapacity < registry.cursor then .error (.cursorPastEnd registry.cursor)
        else .ok (⟨registry.cursor.toUInt16⟩, { registry with cursor := registry.cursor + 1 })

def reserve (registry : Registry) (node : NodeId) : Except Refusal (PeerId × Registry) :=
  match registry.assigned[node]? with
  | some peer => .ok (peer, registry)
  | none =>
      match registry.take with
      | .error refusal => .error refusal
      | .ok (peer, registry) =>
          .ok (peer,
            { registry with
              assigned := registry.assigned.insert node peer
              active := registry.active.insert peer })

def reclaim (registry : Registry) (node : NodeId) : Option PeerId × Registry :=
  match registry.assigned[node]? with
  | none => (none, registry)
  | some peer =>
      (some peer,
        { registry with
          assigned := registry.assigned.erase node
          active := registry.active.erase peer
          waiting := registry.waiting.insert peer })

def lookup (registry : Registry) (node : NodeId) : PeerId :=
  registry.assigned.getD node .unknown

/-- Whether a number is in use. Nobody's always is. -/
def isActive (registry : Registry) (peer : PeerId) : Bool := registry.active.contains peer

def size (registry : Registry) : Nat := registry.assigned.size

def isEmpty (registry : Registry) : Bool := registry.size == 0

end Registry

end VoteGossip
