import VoteGossip.Gossip.Hub

/-!
Running the routines of a hub.

Routines run one at a time. A routine that can go on does so until every wait it has begun is
still open, which takes no time of the clock. Where a wait could come to more than one thing at
once, the end of the routine goes first. The clock only moves while all routines wait, and then
stops at every time at which one of them wants to be woken.
-/

set_option autoImplicit false

namespace VoteGossip.Hub

/-- What a wait can come to, the one that is preferred first. -/
def wakes : List Routine.Wake := [.cancellation, .launch, .entries, .successor, .timer]

def nextWake? (hub : Hub) (index : Nat) : Option Routine.Wake :=
  wakes.find? (hub.wakesOn index)

def activateFor (index : Nat) : Nat → Hub → Hub × List RoutineEvent
  | 0, hub => (hub, [])
  | turns + 1, hub =>
      match hub.nextWake? index with
      | none => (hub, [])
      | some wake =>
          let (hub, events) := hub.resume index wake
          let (hub, further) := activateFor index turns hub
          (hub, events ++ further)

/-- More turns than a routine can take in one go: one for each slot that the log holds, and a few
to launch or to start again from the oldest entry. -/
def turnBound (hub : Hub) : Nat := hub.pool.log.retained + 3

def activate (hub : Hub) (index : Nat) : Hub × List RoutineEvent :=
  activateFor index hub.turnBound hub

def settle (hub : Hub) : Hub × List RoutineEvent :=
  (List.range hub.routines.size).foldl
    (fun (hub, events) index =>
      let (hub, further) := hub.activate index
      (hub, events ++ further))
    (hub, [])

def nextAlarm? (hub : Hub) : Option Nat :=
  let alarms := hub.routines.toList.filterMap fun routine =>
    match routine.phase with
    | .pausing _ wakeAt => some wakeAt
    | _ => none
  alarms.min?

/-- Moves the clock to a time, by way of at most so many alarms. -/
def advanceTo (target : Nat) : Nat → Hub → Hub × List RoutineEvent
  | 0, hub => ({ hub with now := target }, [])
  | alarms + 1, hub =>
      match hub.nextAlarm? with
      | none => ({ hub with now := target }, [])
      | some alarm =>
          if target < alarm then ({ hub with now := target }, [])
          else
            let (hub, events) := { hub with now := alarm }.settle
            let (hub, further) := advanceTo target alarms hub
            (hub, events ++ further)

/-- Moves the clock on. A pause takes at least a millisecond, so no more alarms than milliseconds
can be met on the way, the one at the end included. -/
def advance (hub : Hub) (milliseconds : Nat) : Hub × List RoutineEvent :=
  hub.advanceTo (hub.now + milliseconds) (milliseconds + 1)

/-- Stops gossip for good and waits until every routine has finished. -/
def stop (hub : Hub) : Reply Unit × List RoutineEvent :=
  let (hub, events) := hub.signalStop.settle
  ({ hub, answer := (), events := [.gossipStopped] }, events)

end VoteGossip.Hub
