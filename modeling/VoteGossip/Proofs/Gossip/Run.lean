import Mathlib.Data.List.Induction
import VoteGossip.Gossip.Schedule
import VoteGossip.Proofs.Gossip.Routine
import VoteGossip.Proofs.Pool.Index

/-!
Runs of a hub: whatever can happen to a hub, in any order. The routines take turns, each of them
whenever its wait can come to something, and between two turns the pool, the heights, the
connections and the clock change as they like.
-/

set_option autoImplicit false

namespace VoteGossip.Hub

inductive Action where
  | start
  | stop
  | openConnection (node : NodeId) (capacity : Nat)
  | addPeer (connection : Nat)
  | removePeer (node : NodeId) (reason : String)
  | receive (connection : Nat) (channel : UInt8) (frame : List UInt8)
  | submit (tx : Tx) (sender : PeerId)
  | update (height : UInt64) (committed : List Tx)
  | flush
  | addHolder (position : Nat) (peer : PeerId)
  | report (node : NodeId) (height : UInt64)
  | forget (node : NodeId)
  | send (connection : Nat) (frame : Frame)
  | drain (connection count : Nat)
  | dropReceiver (connection : Nat)
  | disconnect (connection : Nat)
  | stopForError (connection : Nat) (error : GossipError)
  | clock (now : Nat)
  | resume (index : Nat) (wake : Routine.Wake)
  deriving DecidableEq

def Action.clock? : Action → Option Nat
  | .clock now => some now
  | _ => none

def perform (hub : Hub) : Action → Hub
  | .start => hub.start.hub
  | .stop => hub.signalStop
  | .openConnection node capacity => (hub.openConnection node capacity).1
  | .addPeer connection => (hub.addPeer connection).hub
  | .removePeer node reason => (hub.removePeer node reason).hub
  | .receive connection channel frame => (hub.receive connection channel frame).hub
  | .submit tx sender => (hub.submit tx sender).hub
  | .update height committed => (hub.update height committed).hub
  | .flush => hub.flush.hub
  | .addHolder position peer => { hub with pool := (hub.pool.addHolder position peer).1 }
  | .report node height => { hub with heights := hub.heights.report node height }
  | .forget node => { hub with heights := hub.heights.forget node }
  | .send index frame => hub.withConnection index fun connection => (connection.trySend frame).1
  | .drain index count => hub.withConnection index fun connection => (connection.receive count).1
  | .dropReceiver index => hub.withConnection index Connection.dropReceiver
  | .disconnect index => hub.withConnection index Connection.disconnect
  | .stopForError index error => hub.withConnection index (·.stopForError error)
  | .clock now => { hub with now }
  | .resume index wake => if hub.wakesOn index wake then (hub.resume index wake).1 else hub

def run (hub : Hub) (actions : List Action) : Hub := actions.foldl perform hub

theorem run_append (hub : Hub) (earlier later : List Action) :
    hub.run (earlier ++ later) = (hub.run earlier).run later := List.foldl_append

theorem run_snoc (hub : Hub) (earlier : List Action) (last : Action) :
    hub.run (earlier ++ [last]) = (hub.run earlier).perform last := run_append hub earlier [last]

/-- A hub as it is made, over a pool that may have been in use before. -/
def Fresh (hub : Hub) : Prop :=
  ∃ poolConfig validator pool operations config registry,
    Pool.new poolConfig validator = .ok pool ∧
      Hub.new config (pool.run operations) registry = .ok hub

/-! ### Turns -/

/-- The wait of a routine can come to this, so the routine can take a turn. -/
structure Turns (hub : Hub) (index : Nat) (wake : Routine.Wake) (routine : Routine)
    (connection : Connection) : Prop where
  routine_at : hub.routines[index]? = some routine
  connection_at : hub.connections[routine.connection]? = some connection
  wakes : routine.wakesOn hub.view connection wake = true

variable {hub : Hub} {index : Nat} {wake : Routine.Wake} {routine : Routine}
  {connection : Connection}

theorem turns_of_wakesOn (wakes : hub.wakesOn index wake = true) :
    ∃ routine connection, hub.Turns index wake routine connection := by
  unfold wakesOn at wakes
  split at wakes
  · cases wakes
  · rename_i routine found
    split at wakes
    · cases wakes
    · rename_i connection served
      exact ⟨routine, connection, found, served, wakes⟩

theorem Turns.wakesOn_eq (turns : hub.Turns index wake routine connection) :
    hub.wakesOn index wake = true := by
  simp only [wakesOn, turns.routine_at, turns.connection_at, turns.wakes]

theorem Turns.resume_eq (turns : hub.Turns index wake routine connection) :
    hub.resume index wake =
      ({ hub with
          routines := hub.routines.setIfInBounds index
            (routine.resume hub.view connection wake).routine
          connections := hub.connections.setIfInBounds routine.connection
            (routine.resume hub.view connection wake).connection },
        (routine.resume hub.view connection wake).events) := by
  simp only [resume, turns.routine_at, turns.connection_at]

theorem Turns.perform_eq (turns : hub.Turns index wake routine connection) :
    hub.perform (.resume index wake) =
      { hub with
        routines := hub.routines.setIfInBounds index
          (routine.resume hub.view connection wake).routine
        connections := hub.connections.setIfInBounds routine.connection
          (routine.resume hub.view connection wake).connection } := by
  change (if hub.wakesOn index wake then (hub.resume index wake).1 else hub) = _
  rw [if_pos turns.wakesOn_eq, turns.resume_eq]

theorem Turns.connection_after (turns : hub.Turns index wake routine connection) :
    (hub.perform (.resume index wake)).connections[routine.connection]? =
      some (routine.resume hub.view connection wake).connection := by
  have within := (Array.getElem?_eq_some_iff.mp turns.connection_at).1
  rw [turns.perform_eq]
  change (hub.connections.setIfInBounds routine.connection _)[routine.connection]? = _
  rw [Array.getElem?_setIfInBounds, if_pos rfl, if_pos within]

theorem Turns.connection_elsewhere (turns : hub.Turns index wake routine connection) {other : Nat}
    (different : other ≠ routine.connection) :
    (hub.perform (.resume index wake)).connections[other]? = hub.connections[other]? := by
  rw [turns.perform_eq]
  change (hub.connections.setIfInBounds routine.connection _)[other]? = _
  rw [Array.getElem?_setIfInBounds, if_neg (Ne.symm different)]

theorem Turns.routine_after (turns : hub.Turns index wake routine connection) :
    (hub.perform (.resume index wake)).routines[index]? =
      some (routine.resume hub.view connection wake).routine := by
  have within := (Array.getElem?_eq_some_iff.mp turns.routine_at).1
  rw [turns.perform_eq]
  change (hub.routines.setIfInBounds index _)[index]? = _
  rw [Array.getElem?_setIfInBounds, if_pos rfl, if_pos within]

def reported (hub : Hub) (index : Nat) : Action → List RoutineEvent
  | .resume other wake =>
      if other = index ∧ hub.wakesOn other wake then (hub.resume other wake).2 else []
  | _ => []

theorem Turns.reported_eq (turns : hub.Turns index wake routine connection) :
    hub.reported index (.resume index wake) =
      (routine.resume hub.view connection wake).events := by
  change (if index = index ∧ hub.wakesOn index wake = true then _ else _) = _
  rw [if_pos ⟨rfl, turns.wakesOn_eq⟩, turns.resume_eq]

/-! ### What an action changes -/

theorem addPeer_frame (hub : Hub) (connection : Nat) :
    ∃ registry, (hub.addPeer connection).hub = { hub with registry } ∨
      connection < hub.connections.size ∧ ∃ node peer, (hub.addPeer connection).hub =
        ({ hub with registry } : Hub).launch node connection peer := by
  unfold addPeer
  split
  · exact ⟨hub.registry, Or.inl rfl⟩
  · rename_i opened
    have within := (Array.getElem?_eq_some_iff.mp opened).1
    split
    · exact ⟨hub.registry, Or.inl rfl⟩
    · rename_i peer registry _
      refine ⟨registry, ?_⟩
      dsimp only
      split
      · exact Or.inl rfl
      · split
        · exact Or.inl rfl
        · exact Or.inr ⟨within, _, peer, rfl⟩

theorem submitFrom_hub (hub : Hub) (node : NodeId) (tx : Tx) :
    (hub.submitFrom node tx).hub = (hub.submit tx (hub.registry.lookup node)).hub := by
  unfold submitFrom
  dsimp only
  split <;> rfl

theorem receive_frame (hub : Hub) (connection : Nat) (channel : UInt8) (frame : List UInt8) :
    (hub.receive connection channel frame).hub = hub ∨
      (∃ change, (hub.receive connection channel frame).hub =
        hub.withConnection connection change) ∨
      ∃ tx sender, (hub.receive connection channel frame).hub = (hub.submit tx sender).hub := by
  unfold receive
  split
  · exact Or.inl rfl
  · split
    · exact Or.inl rfl
    · dsimp only
      split
      · exact Or.inr (Or.inl ⟨_, rfl⟩)
      · split
        · rename_i tx _
          exact Or.inr (Or.inr ⟨tx, _, hub.submitFrom_hub _ tx⟩)
        · exact Or.inl rfl

theorem removePeer_frame (hub : Hub) (node : NodeId) (reason : String) :
    ∃ registry serving retired,
      (hub.removePeer node reason).hub = { hub with registry, serving, retired } := by
  unfold removePeer retire
  dsimp only
  split
  · exact ⟨_, hub.serving, hub.retired, rfl⟩
  · exact ⟨_, _, _, rfl⟩

/-- All that an action can do to the pool and to the routines, and who reports it. -/
inductive Change (before : Hub) : Action → Hub → Prop where
  | around {action : Action} {after : Hub} (operations : List Pool.Operation)
      (pool_eq : after.pool = before.pool.run operations)
      (routines_eq : after.routines = before.routines)
      (connections_le : before.connections.size ≤ after.connections.size)
      (quiet : ∀ index, before.reported index action = []) :
      Change before action after
  | launched {action : Action} {after : Hub} (routine : Routine)
      (launching : routine.phase = .launching)
      (opened : routine.connection < before.connections.size)
      (pool_eq : after.pool = before.pool)
      (routines_eq : after.routines = before.routines.push routine)
      (connections_eq : after.connections = before.connections)
      (quiet : ∀ index, before.reported index action = []) :
      Change before action after
  | resumed {after : Hub} (index : Nat) (wake : Routine.Wake) (routine : Routine)
      (connection : Connection) (turns : before.Turns index wake routine connection)
      (after_eq : after =
        { before with
          routines := before.routines.setIfInBounds index
            (routine.resume before.view connection wake).routine
          connections := before.connections.setIfInBounds routine.connection
            (routine.resume before.view connection wake).connection }) :
      Change before (.resume index wake) after

theorem change_withConnection {action : Action} (index : Nat) (change : Connection → Connection)
    (quiet : ∀ index, hub.reported index action = []) :
    Change hub action (hub.withConnection index change) :=
  .around [] rfl rfl (Nat.le_of_eq Array.size_modify.symm) quiet

theorem change (hub : Hub) (action : Action) : Change hub action (hub.perform action) := by
  have same := Nat.le_refl hub.connections.size
  cases action with
  | openConnection node capacity =>
      refine .around [] rfl rfl ?_ fun _ => rfl
      change _ ≤ (hub.connections.push _).size
      rw [Array.size_push]
      exact Nat.le_succ _
  | addPeer connection =>
      obtain ⟨registry, frame | ⟨opened, node, peer, frame⟩⟩ := hub.addPeer_frame connection
      · have performed : hub.perform (.addPeer connection) = { hub with registry } := frame
        rw [performed]
        exact .around [] rfl rfl same fun _ => rfl
      · have performed : hub.perform (.addPeer connection) =
          ({ hub with registry } : Hub).launch node connection peer := frame
        rw [performed]
        exact .launched { connection, peer, phase := .launching } rfl opened rfl rfl rfl
          fun _ => rfl
  | removePeer node reason =>
      obtain ⟨registry, serving, retired, frame⟩ := hub.removePeer_frame node reason
      have performed : hub.perform (.removePeer node reason) =
        { hub with registry, serving, retired } := frame
      rw [performed]
      exact .around [] rfl rfl same fun _ => rfl
  | receive connection channel bytes =>
      have performed : hub.perform (.receive connection channel bytes) =
        (hub.receive connection channel bytes).hub := rfl
      rw [performed]
      obtain frame | ⟨change, frame⟩ | ⟨tx, sender, frame⟩ :=
        hub.receive_frame connection channel bytes
      · rw [frame]
        exact .around [] rfl rfl same fun _ => rfl
      · rw [frame]
        exact change_withConnection connection change fun _ => rfl
      · rw [frame]
        exact .around [.submit tx sender] rfl rfl same fun _ => rfl
  | submit tx sender => exact .around [.submit tx sender] rfl rfl same fun _ => rfl
  | update height committed => exact .around [.update height committed] rfl rfl same fun _ => rfl
  | flush => exact .around [.flush] rfl rfl same fun _ => rfl
  | addHolder position peer =>
      exact .around [.addHolder position peer] rfl rfl same fun _ => rfl
  | send index | drain index | dropReceiver index | disconnect index | stopForError index =>
      exact change_withConnection index _ fun _ => rfl
  | resume index wake =>
      by_cases wakes : hub.wakesOn index wake = true
      · obtain ⟨routine, connection, turns⟩ := turns_of_wakesOn wakes
        exact .resumed index wake routine connection turns turns.perform_eq
      · have performed : hub.perform (.resume index wake) = hub := if_neg wakes
        have quiet : ∀ other, hub.reported other (.resume index wake) = [] :=
          fun other => if_neg fun woken => wakes woken.2
        rw [performed]
        exact .around [] rfl rfl same quiet
  | start | stop | report | forget | clock => exact .around [] rfl rfl same fun _ => rfl

/-- What a routine was before an action, seen from after it. -/
inductive Past (before : Hub) (action : Action) (index : Nat) (routine : Routine) : Prop where
  | still (same : before.routines[index]? = some routine)
      (quiet : before.reported index action = [])
  | unborn (absent : before.routines[index]? = none) (launching : routine.phase = .launching)
  | turned (wake : Routine.Wake) (earlier : Routine) (connection : Connection)
      (acted : action = .resume index wake)
      (turns : before.Turns index wake earlier connection)
      (routine_eq : routine = (earlier.resume before.view connection wake).routine)

theorem past {action : Action} (found : (hub.perform action).routines[index]? = some routine) :
    Past hub action index routine := by
  have changed := hub.change action
  generalize hub.perform action = after at found changed
  cases changed with
  | around operations pool_eq routines_eq connections_le quiet =>
      rw [routines_eq] at found
      exact .still found (quiet index)
  | launched created launching opened pool_eq routines_eq connections_eq quiet =>
      rw [routines_eq, Array.getElem?_push] at found
      split at found
      · rename_i atEnd
        cases found
        exact .unborn (Array.getElem?_eq_none (Nat.le_of_eq atEnd.symm)) launching
      · exact .still found (quiet index)
  | resumed acting wake earlier connection turns after_eq =>
      rw [after_eq] at found
      change (hub.routines.setIfInBounds acting _)[index]? = some routine at found
      rw [Array.getElem?_setIfInBounds] at found
      split at found
      · rename_i same
        subst same
        split at found
        · cases found
          exact .turned wake earlier connection rfl turns rfl
        · cases found
      · rename_i different
        exact .still found (if_neg fun acted => different acted.1)

theorem pool_of_turn (wakes : hub.wakesOn index wake = true) :
    (hub.perform (.resume index wake)).pool = hub.pool := by
  obtain ⟨routine, connection, turns⟩ := turns_of_wakesOn wakes
  rw [turns.perform_eq]

theorem perform_pool (hub : Hub) (action : Action) :
    ∃ operations, (hub.perform action).pool = hub.pool.run operations := by
  have changed := hub.change action
  generalize hub.perform action = after at changed
  cases changed with
  | around operations pool_eq => exact ⟨operations, pool_eq⟩
  | launched routine launching opened pool_eq => exact ⟨[], pool_eq⟩
  | resumed acting wake earlier connection turns after_eq =>
      rw [after_eq]
      exact ⟨[], rfl⟩

theorem perform_steady (hub : Hub) (action : Action) :
    (hub.perform action).config = hub.config ∧
      (hub.perform action).now = action.clock?.getD hub.now := by
  cases action with
  | addPeer index =>
      change (hub.addPeer index).hub.config = hub.config ∧ (hub.addPeer index).hub.now = hub.now
      obtain ⟨registry, frame | ⟨_, node, peer, frame⟩⟩ := hub.addPeer_frame index
      · rw [frame]
        exact ⟨rfl, rfl⟩
      · rw [frame]
        exact ⟨rfl, rfl⟩
  | removePeer node reason =>
      obtain ⟨registry, serving, retired, frame⟩ := hub.removePeer_frame node reason
      change (hub.removePeer node reason).hub.config = hub.config ∧
        (hub.removePeer node reason).hub.now = hub.now
      rw [frame]
      exact ⟨rfl, rfl⟩
  | receive index channel bytes =>
      change (hub.receive index channel bytes).hub.config = hub.config ∧
        (hub.receive index channel bytes).hub.now = hub.now
      obtain frame | ⟨change, frame⟩ | ⟨tx, sender, frame⟩ := hub.receive_frame index channel bytes
      · rw [frame]
        exact ⟨rfl, rfl⟩
      · rw [frame]
        exact ⟨rfl, rfl⟩
      · rw [frame]
        exact ⟨rfl, rfl⟩
  | resume index wake =>
      by_cases wakes : hub.wakesOn index wake = true
      · obtain ⟨routine, connection, turns⟩ := turns_of_wakesOn wakes
        rw [turns.perform_eq]
        exact ⟨rfl, rfl⟩
      · have performed : hub.perform (.resume index wake) = hub := if_neg wakes
        rw [performed]
        exact ⟨rfl, rfl⟩
  | _ => exact ⟨rfl, rfl⟩

theorem run_config (hub : Hub) (actions : List Action) :
    (hub.run actions).config = hub.config := by
  induction actions generalizing hub with
  | nil => rfl
  | cons action later ih => exact (ih (hub.perform action)).trans (hub.perform_steady action).1

theorem routines_size_le (hub : Hub) (action : Action) :
    hub.routines.size ≤ (hub.perform action).routines.size := by
  have changed := hub.change action
  generalize hub.perform action = after at changed
  cases changed with
  | around operations pool_eq routines_eq => exact Nat.le_of_eq (by rw [routines_eq])
  | launched routine launching opened pool_eq routines_eq =>
      rw [routines_eq, Array.size_push]
      exact Nat.le_succ _
  | resumed acting wake earlier connection turns after_eq =>
      rw [after_eq]
      exact Nat.le_of_eq Array.size_setIfInBounds.symm

/-- Every routine serves a connection that was opened. -/
def Connected (hub : Hub) : Prop :=
  ∀ (index : Nat) (routine : Routine), hub.routines[index]? = some routine →
    routine.connection < hub.connections.size

theorem Connected.perform (connected : hub.Connected) (action : Action) :
    (hub.perform action).Connected := by
  intro index routine found
  have changed := hub.change action
  generalize hub.perform action = after at found changed
  cases changed with
  | around operations pool_eq routines_eq connections_le =>
      rw [routines_eq] at found
      exact Nat.lt_of_lt_of_le (connected index routine found) connections_le
  | launched created launching opened pool_eq routines_eq connections_eq =>
      rw [connections_eq]
      rw [routines_eq, Array.getElem?_push] at found
      split at found
      · cases found
        exact opened
      · exact connected index routine found
  | resumed acting wake earlier connection turns after_eq =>
      obtain ⟨phase, turned⟩ := earlier.resume_routine hub.view connection wake
      rw [after_eq] at found ⊢
      change (hub.routines.setIfInBounds acting _)[index]? = some routine at found
      change _ < (hub.connections.setIfInBounds earlier.connection _).size
      rw [Array.size_setIfInBounds]
      rw [Array.getElem?_setIfInBounds, turned] at found
      split at found
      · split at found
        · cases found
          exact connected acting earlier turns.routine_at
        · cases found
      · exact connected index routine found

/-! ### Along a run -/

theorem new_eq {config : GossipConfig} {pool : Pool} {registry : Registry}
    (made : Hub.new config pool registry = .ok hub) :
    config.validate = .ok () ∧ hub =
      { config
        pool
        registry
        heights := ∅
        started := false
        shutdown := false
        connections := #[]
        routines := #[]
        serving := ∅
        retired := []
        now := 0 } := by
  unfold Hub.new at made
  cases checked : config.validate with
  | error refusal =>
      rw [checked] at made
      cases made
  | ok usable =>
      rw [checked] at made
      cases made
      exact ⟨rfl, rfl⟩

theorem Fresh.coherent (fresh : hub.Fresh) : hub.pool.Coherent := by
  obtain ⟨poolConfig, validator, pool, operations, config, registry, poolMade, made⟩ := fresh
  obtain ⟨_, rfl⟩ := new_eq made
  exact (Pool.coherent_new poolMade).run operations

theorem Fresh.routines_eq (fresh : hub.Fresh) : hub.routines = #[] := by
  obtain ⟨poolConfig, validator, pool, operations, config, registry, poolMade, made⟩ := fresh
  obtain ⟨_, rfl⟩ := new_eq made
  rfl

theorem coherent_perform (coherent : hub.pool.Coherent) (action : Action) :
    (hub.perform action).pool.Coherent := by
  obtain ⟨operations, pool_eq⟩ := hub.perform_pool action
  rw [pool_eq]
  exact coherent.run operations

theorem evolves_perform (coherent : hub.pool.Coherent) (action : Action) :
    hub.pool.log.Evolves (hub.perform action).pool.log := by
  obtain ⟨operations, pool_eq⟩ := hub.perform_pool action
  rw [pool_eq]
  exact coherent.evolves_run operations

theorem coherent_run (coherent : hub.pool.Coherent) (actions : List Action) :
    (hub.run actions).pool.Coherent := by
  induction actions generalizing hub with
  | nil => exact coherent
  | cons action later ih => exact ih (coherent_perform coherent action)

theorem evolves_run (coherent : hub.pool.Coherent) (actions : List Action) :
    hub.pool.log.Evolves (hub.run actions).pool.log := by
  induction actions generalizing hub with
  | nil => exact Log.Evolves.refl hub.pool.log
  | cons action later ih =>
      exact (evolves_perform coherent action).trans (ih (coherent_perform coherent action))

theorem Fresh.connected (fresh : hub.Fresh) : hub.Connected := by
  intro index routine found
  rw [fresh.routines_eq] at found
  cases found

theorem Connected.run (connected : hub.Connected) (actions : List Action) :
    (hub.run actions).Connected := by
  induction actions generalizing hub with
  | nil => exact connected
  | cons action later ih => exact ih (connected.perform action)

def reports (hub : Hub) (index : Nat) : List Action → List RoutineEvent
  | [] => []
  | action :: later => hub.reported index action ++ (hub.perform action).reports index later

theorem reports_snoc (hub : Hub) (index : Nat) (earlier : List Action) (last : Action) :
    hub.reports index (earlier ++ [last]) =
      hub.reports index earlier ++ (hub.run earlier).reported index last := by
  induction earlier generalizing hub with
  | nil => exact List.append_nil _
  | cons action later ih =>
      change hub.reported index action ++ (hub.perform action).reports index (later ++ [last]) = _
      rw [ih (hub.perform action), ← List.append_assoc]
      rfl

/-! ### Schedules

What a schedule does is a run, so whatever holds along every run holds under every schedule.
-/

def activateEach (indices : List Nat) (hub : Hub) : Hub :=
  indices.foldl (fun hub index => (hub.activate index).1) hub

theorem settle_eq (hub : Hub) :
    hub.settle.1 = activateEach (List.range hub.routines.size) hub :=
  (List.foldl_hom Prod.fst fun _ _ => rfl).symm

/-- The turns of one routine, until it waits or has had so many. -/
def activation (index : Nat) : Nat → Hub → List Action
  | 0, _ => []
  | turns + 1, hub =>
      match hub.nextWake? index with
      | none => []
      | some wake =>
          .resume index wake :: activation index turns (hub.perform (.resume index wake))

def activations : List Nat → Hub → List Action
  | [], _ => []
  | index :: later, hub =>
      let turns := activation index hub.turnBound hub
      turns ++ activations later (hub.run turns)

def settling (hub : Hub) : List Action := activations (List.range hub.routines.size) hub

/-- How the clock gets to a time by way of alarms. -/
def advancing (target : Nat) : Nat → Hub → List Action
  | 0, _ => [.clock target]
  | alarms + 1, hub =>
      match hub.nextAlarm? with
      | none => [.clock target]
      | some alarm =>
          if target < alarm then [.clock target]
          else
            let woken := Action.clock alarm :: (hub.perform (.clock alarm)).settling
            woken ++ advancing target alarms (hub.run woken)

theorem resume_eq_perform (next : hub.nextWake? index = some wake) :
    (hub.resume index wake).1 = hub.perform (.resume index wake) := by
  have wakes : hub.wakesOn index wake = true := List.find?_some next
  exact (if_pos wakes).symm

theorem run_activation (index turns : Nat) (hub : Hub) :
    hub.run (activation index turns hub) = (activateFor index turns hub).1 := by
  induction turns generalizing hub with
  | zero => rfl
  | succ turns ih =>
      unfold activation activateFor
      cases next : hub.nextWake? index with
      | none => rfl
      | some wake =>
          change (hub.perform (.resume index wake)).run _ =
            (activateFor index turns (hub.resume index wake).1).1
          rw [ih, resume_eq_perform next]

theorem run_activations (indices : List Nat) (hub : Hub) :
    hub.run (activations indices hub) = activateEach indices hub := by
  induction indices generalizing hub with
  | nil => rfl
  | cons index later ih =>
      unfold activations
      rw [run_append, ih, run_activation]
      rfl

theorem run_settling (hub : Hub) : hub.run hub.settling = hub.settle.1 := by
  rw [settling, run_activations, settle_eq]

theorem run_advancing (target alarms : Nat) (hub : Hub) :
    hub.run (advancing target alarms hub) = (advanceTo target alarms hub).1 := by
  induction alarms generalizing hub with
  | zero => rfl
  | succ alarms ih =>
      unfold advancing advanceTo
      cases next : hub.nextAlarm? with
      | none => rfl
      | some alarm =>
          dsimp only
          split
          · rfl
          · rw [run_append, ih]
            change (advanceTo target alarms ((hub.perform (.clock alarm)).run
              (hub.perform (.clock alarm)).settling)).1 = _
            rw [run_settling]
            rfl

theorem activateFor_run (index turns : Nat) (hub : Hub) :
    ∃ actions, (activateFor index turns hub).1 = hub.run actions :=
  ⟨activation index turns hub, (run_activation index turns hub).symm⟩

theorem settle_run (hub : Hub) : ∃ actions, hub.settle.1 = hub.run actions :=
  ⟨hub.settling, hub.run_settling.symm⟩

theorem advance_run (hub : Hub) (milliseconds : Nat) :
    hub.run (advancing (hub.now + milliseconds) (milliseconds + 1) hub) =
      (hub.advance milliseconds).1 :=
  run_advancing _ _ hub

theorem stop_run (hub : Hub) : hub.run (.stop :: hub.signalStop.settling) = hub.stop.1.hub :=
  hub.signalStop.run_settling

end VoteGossip.Hub
