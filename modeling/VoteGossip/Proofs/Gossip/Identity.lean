import VoteGossip.Proofs.Gossip.Order
import VoteGossip.Proofs.Pool.Holders
import VoteGossip.Proofs.Registry.Roster

/-!
Who is who in the course of a run. A connection leads to one node for good and never comes back
from quitting. The registry changes only when a peer is added or removed, and a routine keeps the
number that its node had when the peer was added. What goes into the pool came from a caller or in
a frame, and in the latter case under the number of the node that the frame came from.
-/

set_option autoImplicit false

namespace VoteGossip

structure Connection.Continues (earlier later : Connection) : Prop where
  node_eq : later.node = earlier.node
  quit : earlier.quit = true → later.quit = true

namespace Connection.Continues

theorem refl (connection : Connection) : connection.Continues connection := ⟨rfl, id⟩

theorem trans {first second third : Connection} (early : first.Continues second)
    (late : second.Continues third) : first.Continues third :=
  ⟨late.node_eq.trans early.node_eq, late.quit ∘ early.quit⟩

end Connection.Continues

inductive Connection.Becomes (before : Connection) : Connection → Prop where
  | kept : before.Becomes before
  | queued (frames : List Frame) :
      before.Becomes { before with queue := before.queue ++ frames }
  | taken (count : Nat) : before.Becomes (before.receive count).1
  | lost : before.Becomes before.dropReceiver
  | disconnected : before.Becomes before.disconnect
  | stopped (error : GossipError) : before.Becomes (before.stopForError error)

namespace Connection.Becomes

theorem trySend (connection : Connection) (frame : Frame) :
    connection.Becomes (connection.trySend frame).1 := by
  unfold Connection.trySend
  split
  · exact .queued [frame]
  · exact .kept

theorem resume (routine : Routine) (view : Routine.View) (connection : Connection)
    (wake : Routine.Wake) :
    connection.Becomes (routine.resume view connection wake).connection := by
  obtain ⟨entries, _, queued⟩ := routine.resume_queues view connection wake
  rw [queued]
  exact .queued _

theorem continues {before after : Connection} (becomes : before.Becomes after) :
    before.Continues after := by
  cases becomes with
  | kept => exact .refl before
  | queued | taken | lost => exact ⟨rfl, id⟩
  | disconnected | stopped => exact ⟨rfl, fun _ => rfl⟩

end Connection.Becomes

namespace Hub

variable {hub : Hub} {index : Nat} {action : Action} {node : NodeId} {peer : PeerId}

/-- A frame on this connection brings this transaction. -/
structure Carries (hub : Hub) (index : Nat) (frame : List UInt8) (connection : Connection)
    (vote : Tx) : Prop where
  opened : hub.connections[index]? = some connection
  decoded : (Codec.mk hub.config.maxMessageBytes).decode frame = .ok (.tx vote)

/-- All that a frame can do to the hub. -/
inductive Receipt (hub : Hub) (index : Nat) (channel : UInt8) (frame : List UInt8) :
    Hub → Prop where
  | ignored : Receipt hub index channel frame hub
  | stopped (cause : GossipError) :
      Receipt hub index channel frame (hub.withConnection index (·.stopForError cause))
  | handed (connection : Connection) (vote : Tx) (onChannel : channel = txChannel)
      (carries : hub.Carries index frame connection vote) :
      Receipt hub index channel frame
        (hub.submit vote (hub.registry.lookup connection.node)).hub

theorem receive_cases (hub : Hub) (index : Nat) (channel : UInt8) (frame : List UInt8) :
    Receipt hub index channel frame (hub.receive index channel frame).hub := by
  unfold receive
  cases opened : hub.connections[index]? with
  | none => exact .ignored
  | some connection =>
      by_cases other : channel ≠ txChannel
      · simp only [if_pos other]
        exact .ignored
      · simp only [if_neg other]
        cases decoded : (Codec.mk hub.config.maxMessageBytes).decode frame with
        | error cause => exact .stopped (.decode cause)
        | ok message =>
            cases message with
            | unknown messageType => exact .ignored
            | tx vote =>
                simp only [submitFrom_hub]
                exact .handed connection vote (not_not.mp other) ⟨opened, decoded⟩

theorem submitFrom_answer (hub : Hub) (node : NodeId) (tx : Tx) :
    (hub.submitFrom node tx).answer =
      match (hub.pool.submit tx (hub.registry.lookup node)).answer with
      | .ok _ => .ok ()
      | .error cause => .error (.rejected cause) := by
  change (match (hub.pool.submit tx (hub.registry.lookup node)).answer with
    | .ok _ => _
    | .error cause => _ : Reply (Except GossipError Unit)).answer = _
  cases (hub.pool.submit tx (hub.registry.lookup node)).answer <;> rfl

theorem Carries.receive_eq {frame : List UInt8} {connection : Connection} {vote : Tx}
    (carries : hub.Carries index frame connection vote) :
    (hub.receive index txChannel frame).hub =
        (hub.submit vote (hub.registry.lookup connection.node)).hub ∧
      (hub.receive index txChannel frame).answer =
        match (hub.pool.submit vote (hub.registry.lookup connection.node)).answer with
        | .ok _ => .ok ()
        | .error cause => .error (.rejected cause) := by
  obtain ⟨opened, decoded⟩ := carries
  unfold receive
  simp only [opened, ne_eq, not_true_eq_false, if_false, decoded]
  exact ⟨hub.submitFrom_hub connection.node vote, hub.submitFrom_answer connection.node vote⟩

inductive Admission (hub : Hub) (index : Nat) : Hub → Prop where
  | unopened (missing : hub.connections[index]? = none) : Admission hub index hub
  | refused (connection : Connection) (refusal : Registry.Refusal)
      (opened : hub.connections[index]? = some connection)
      (reserved : hub.registry.reserve connection.node = .error refusal) :
      Admission hub index hub
  | registered (connection : Connection) (peer : PeerId) (registry : Registry)
      (opened : hub.connections[index]? = some connection)
      (reserved : hub.registry.reserve connection.node = .ok (peer, registry)) :
      Admission hub index { hub with registry }
  | launched (connection : Connection) (peer : PeerId) (registry : Registry)
      (opened : hub.connections[index]? = some connection)
      (reserved : hub.registry.reserve connection.node = .ok (peer, registry))
      (running : hub.isRunning = true) (unserved : hub.isServed connection.node = false) :
      Admission hub index (({ hub with registry } : Hub).launch connection.node index peer)

theorem addPeer_cases (hub : Hub) (index : Nat) :
    Admission hub index (hub.addPeer index).hub := by
  unfold addPeer
  cases opened : hub.connections[index]? with
  | none => exact .unopened opened
  | some connection =>
      cases reserved : hub.registry.reserve connection.node with
      | error refusal =>
          simp only [reserved]
          exact .refused connection refusal opened reserved
      | ok registration =>
          obtain ⟨peer, registry⟩ := registration
          simp only [reserved]
          split
          · exact .registered connection peer registry opened reserved
          · rename_i runs
            split
            · exact .registered connection peer registry opened reserved
            · rename_i unserved
              have running : hub.isRunning = true := by
                rw [Bool.or_eq_true, not_or, Bool.not_eq_true', Bool.not_eq_true',
                  Bool.not_eq_false] at runs
                exact (Bool.not_eq_false _).mp runs.2
              exact .launched connection peer registry opened reserved running
                ((Bool.not_eq_true _).mp unserved)

/-- What an action asks of the registry. -/
def registryOperations (hub : Hub) : Action → List Registry.Operation
  | .addPeer index =>
      match hub.connections[index]? with
      | some connection => [.reserve connection.node]
      | none => []
  | .removePeer node _ => [.reclaim node]
  | _ => []

theorem registry_perform (hub : Hub) (action : Action) :
    (hub.perform action).registry = hub.registry.run (hub.registryOperations action) := by
  cases action with
  | addPeer index =>
      have admitted := hub.addPeer_cases index
      change (hub.addPeer index).hub.registry = _
      generalize (hub.addPeer index).hub = after at admitted
      unfold registryOperations
      cases admitted with
      | unopened missing =>
          simp only [missing]
          rfl
      | refused connection refusal opened reserved =>
          simp only [opened]
          change hub.registry = (hub.registry.tryReserve connection.node).1
          rw [Registry.tryReserve, reserved]
      | registered connection peer registry opened reserved
      | launched connection peer registry opened reserved =>
          simp only [opened]
          change registry = (hub.registry.tryReserve connection.node).1
          rw [Registry.tryReserve, reserved]
  | removePeer node reason =>
      change (({ hub with registry := (hub.registry.reclaim node).2 } : Hub).retire node).registry =
        (hub.registry.reclaim node).2
      unfold retire
      split <;> rfl
  | receive index channel frame =>
      have received := hub.receive_cases index channel frame
      change (hub.receive index channel frame).hub.registry = hub.registry
      generalize (hub.receive index channel frame).hub = after at received
      cases received <;> rfl
  | resume other wake =>
      change (if hub.wakesOn other wake then (hub.resume other wake).1 else hub).registry =
        hub.registry
      split
      · rename_i wakes
        obtain ⟨routine, connection, turns⟩ := turns_of_wakesOn wakes
        rw [turns.resume_eq]
      · rfl
  | _ => rfl

theorem sound_perform (sound : hub.registry.Sound) (action : Action) :
    (hub.perform action).registry.Sound := by
  rw [registry_perform]
  exact (sound.roster_run _).1

theorem sound_run (sound : hub.registry.Sound) (actions : List Action) :
    (hub.run actions).registry.Sound := by
  induction actions generalizing hub with
  | nil => exact sound
  | cons action later ih => exact ih (sound_perform sound action)

theorem assigned_perform (sound : hub.registry.Sound)
    (found : hub.registry.assigned[node]? = some peer)
    (kept : ∀ reason, action ≠ .removePeer node reason) :
    (hub.perform action).registry.assigned[node]? = some peer := by
  rw [registry_perform]
  cases action with
  | addPeer index =>
      cases opened : hub.connections[index]? with
      | none =>
          simp only [registryOperations, opened]
          exact found
      | some connection =>
          simp only [registryOperations, opened]
          exact sound.assigned_kept found nofun
  | removePeer other reason =>
      have different : Registry.Operation.reclaim other ≠ .reclaim node := by
        intro same
        cases same
        exact kept reason rfl
      exact sound.assigned_kept found different
  | _ => exact found

theorem becomes_withConnection {change : Connection → Connection} (at_ : Nat)
    (changes : ∀ connection : Connection, connection.Becomes (change connection))
    {connection : Connection} (opened : hub.connections[index]? = some connection) :
    ∃ later, (hub.withConnection at_ change).connections[index]? = some later ∧
      connection.Becomes later := by
  change ∃ later, (hub.connections.modify at_ change)[index]? = some later ∧ _
  rw [Array.getElem?_modify, opened]
  split
  · exact ⟨change connection, rfl, changes connection⟩
  · exact ⟨connection, rfl, .kept⟩

theorem becomes_perform {connection : Connection}
    (opened : hub.connections[index]? = some connection) (action : Action) :
    ∃ later, (hub.perform action).connections[index]? = some later ∧
      connection.Becomes later := by
  have same : ∃ later, hub.connections[index]? = some later ∧ connection.Becomes later :=
    ⟨connection, opened, .kept⟩
  cases action with
  | openConnection node capacity =>
      have within := (Array.getElem?_eq_some_iff.mp opened).1
      refine ⟨connection, ?_, .kept⟩
      change (hub.connections.push _)[index]? = some connection
      rw [Array.getElem?_push, if_neg (Nat.ne_of_lt within), opened]
  | addPeer other =>
      have admitted := hub.addPeer_cases other
      change ∃ later, (hub.addPeer other).hub.connections[index]? = some later ∧ _
      generalize (hub.addPeer other).hub = after at admitted
      cases admitted <;> exact same
  | removePeer node reason =>
      obtain ⟨registry, serving, retired, frame⟩ := hub.removePeer_frame node reason
      change ∃ later, (hub.removePeer node reason).hub.connections[index]? = some later ∧ _
      rw [frame]
      exact same
  | receive other channel frame =>
      have received := hub.receive_cases other channel frame
      change ∃ later, (hub.receive other channel frame).hub.connections[index]? = some later ∧ _
      generalize (hub.receive other channel frame).hub = after at received
      cases received with
      | ignored | handed => exact same
      | stopped cause =>
          exact becomes_withConnection other (fun _ => .stopped cause) opened
  | send other frame =>
      exact becomes_withConnection other (fun between => .trySend between frame) opened
  | drain other count =>
      exact becomes_withConnection other (fun _ => .taken count) opened
  | dropReceiver other => exact becomes_withConnection other (fun _ => .lost) opened
  | disconnect other => exact becomes_withConnection other (fun _ => .disconnected) opened
  | stopForError other error =>
      exact becomes_withConnection other (fun _ => .stopped error) opened
  | resume other wake =>
      by_cases wakes : hub.wakesOn other wake = true
      · obtain ⟨routine, served, turns⟩ := turns_of_wakesOn wakes
        rw [turns.perform_eq]
        change ∃ later,
          (hub.connections.setIfInBounds routine.connection _)[index]? = some later ∧ _
        rw [Array.getElem?_setIfInBounds]
        by_cases here : routine.connection = index
        · have within := (Array.getElem?_eq_some_iff.mp turns.connection_at).1
          have alike := turns.connection_at
          rw [here, opened] at alike
          cases alike
          rw [if_pos here, if_pos within]
          exact ⟨_, rfl, .resume routine hub.view connection wake⟩
        · rw [if_neg here]
          exact same
      · have performed : hub.perform (.resume other wake) = hub := if_neg wakes
        rw [performed]
        exact same
  | start | stop | submit | update | flush | addHolder | report | forget | clock => exact same

theorem continues_perform {connection : Connection}
    (opened : hub.connections[index]? = some connection) (action : Action) :
    ∃ later, (hub.perform action).connections[index]? = some later ∧
      connection.Continues later := by
  obtain ⟨later, laterOpened, becomes⟩ := becomes_perform opened action
  exact ⟨later, laterOpened, becomes.continues⟩

theorem continues_run {connection : Connection}
    (opened : hub.connections[index]? = some connection) (actions : List Action) :
    ∃ later, (hub.run actions).connections[index]? = some later ∧ connection.Continues later := by
  induction actions generalizing hub connection with
  | nil => exact ⟨connection, opened, .refl connection⟩
  | cons action later ih =>
      obtain ⟨between, betweenOpened, early⟩ := continues_perform opened action
      obtain ⟨last, lastOpened, late⟩ := ih betweenOpened
      exact ⟨last, lastOpened, early.trans late⟩

theorem routines_perform (other : ∀ index, action ≠ .addPeer index) :
    (hub.perform action).routines.size = hub.routines.size := by
  cases action with
  | addPeer index => exact absurd rfl (other index)
  | removePeer node reason =>
      obtain ⟨registry, serving, retired, frame⟩ := hub.removePeer_frame node reason
      change (hub.removePeer node reason).hub.routines.size = _
      rw [frame]
  | receive index channel frame =>
      have received := hub.receive_cases index channel frame
      change (hub.receive index channel frame).hub.routines.size = _
      generalize (hub.receive index channel frame).hub = after at received
      cases received <;> rfl
  | resume index wake =>
      by_cases wakes : hub.wakesOn index wake = true
      · obtain ⟨routine, connection, turns⟩ := turns_of_wakesOn wakes
        rw [turns.perform_eq]
        exact Array.size_setIfInBounds
      · have performed : hub.perform (.resume index wake) = hub := if_neg wakes
        rw [performed]
  | _ => rfl

/-- What a routine was before an action: itself in some phase, or nothing, and then the action
launched it with the number of its node. -/
theorem routine_perform {routine : Routine}
    (found : (hub.perform action).routines[index]? = some routine) :
    (∃ phase, hub.routines[index]? = some { routine with phase }) ∨
    (action = .addPeer routine.connection ∧ ∃ connection,
      hub.connections[routine.connection]? = some connection ∧
      (hub.perform action).registry.assigned[connection.node]? = some routine.peer) := by
  cases past found with
  | still same quiet => exact Or.inl ⟨routine.phase, same⟩
  | turned wake earlier connection acted turns routine_eq =>
      obtain ⟨phase, turned⟩ := earlier.resume_routine hub.view connection wake
      rw [routine_eq, turned]
      exact Or.inl ⟨earlier.phase, turns.routine_at⟩
  | unborn absent launching =>
      have born : hub.routines.size < (hub.perform action).routines.size :=
        Nat.lt_of_le_of_lt (Array.getElem?_eq_none_iff.mp absent)
          (Array.getElem?_eq_some_iff.mp found).1
      by_cases added : ∃ other, action = .addPeer other
      · obtain ⟨other, rfl⟩ := added
        have admitted := hub.addPeer_cases other
        have performed : hub.perform (.addPeer other) = (hub.addPeer other).hub := rfl
        rw [performed] at found born ⊢
        generalize (hub.addPeer other).hub = after at admitted found born ⊢
        cases admitted with
        | unopened | refused | registered => exact absurd born (Nat.lt_irrefl _)
        | launched connection peer registry opened reserved =>
            change (hub.routines.push _)[index]? = some routine at found
            rw [Array.getElem?_push, absent] at found
            split at found
            · cases found
              exact Or.inr ⟨rfl, connection, opened, Registry.assigned_of_reserve reserved⟩
            · cases found
      · rw [routines_perform fun other same => added ⟨other, same⟩] at born
        exact absurd born (Nat.lt_irrefl _)

/-- The operation of the pool that an action comes down to. -/
inductive Causes (hub : Hub) : Action → Pool.Operation → Prop where
  | submitted (tx : Tx) (sender : PeerId) : Causes hub (.submit tx sender) (.submit tx sender)
  | updated (height : UInt64) (committed : List Tx) :
      Causes hub (.update height committed) (.update height committed)
  | flushed : Causes hub .flush .flush
  | filed (position : Nat) (peer : PeerId) :
      Causes hub (.addHolder position peer) (.addHolder position peer)
  | received (index : Nat) (frame : List UInt8) (connection : Connection) (vote : Tx)
      (carries : hub.Carries index frame connection vote) :
      Causes hub (.receive index txChannel frame)
        (.submit vote (hub.registry.lookup connection.node))

theorem pool_perform (hub : Hub) (action : Action) :
    (hub.perform action).pool = hub.pool ∨
      ∃ operation, hub.Causes action operation ∧
        (hub.perform action).pool = hub.pool.perform operation := by
  cases action with
  | submit tx sender => exact Or.inr ⟨_, .submitted tx sender, rfl⟩
  | update height committed => exact Or.inr ⟨_, .updated height committed, rfl⟩
  | flush => exact Or.inr ⟨_, .flushed, rfl⟩
  | addHolder position peer => exact Or.inr ⟨_, .filed position peer, rfl⟩
  | addPeer index =>
      have admitted := hub.addPeer_cases index
      change (hub.addPeer index).hub.pool = _ ∨ ∃ operation, _ ∧ (hub.addPeer index).hub.pool = _
      generalize (hub.addPeer index).hub = after at admitted
      cases admitted <;> exact Or.inl rfl
  | removePeer node reason =>
      obtain ⟨registry, serving, retired, frame⟩ := hub.removePeer_frame node reason
      left
      change (hub.removePeer node reason).hub.pool = _
      rw [frame]
  | receive index channel frame =>
      have received := hub.receive_cases index channel frame
      change (hub.receive index channel frame).hub.pool = _ ∨
        ∃ operation, _ ∧ (hub.receive index channel frame).hub.pool = _
      generalize (hub.receive index channel frame).hub = after at received
      cases received with
      | ignored | stopped => exact Or.inl rfl
      | handed connection vote onChannel carries =>
          rw [onChannel]
          exact Or.inr ⟨_, .received index frame connection vote carries, rfl⟩
  | resume index wake =>
      left
      by_cases wakes : hub.wakesOn index wake = true
      · exact pool_of_turn wakes
      · have performed : hub.perform (.resume index wake) = hub := if_neg wakes
        rw [performed]
  | _ => exact Or.inl rfl

theorem tracks_perform (coherent : hub.pool.Coherent) (tracks : hub.pool.Tracks)
    (action : Action) : (hub.perform action).pool.Tracks := by
  obtain ⟨operations, pool_eq⟩ := hub.perform_pool action
  rw [pool_eq]
  exact tracks.run coherent operations

theorem tracks_run (coherent : hub.pool.Coherent) (tracks : hub.pool.Tracks)
    (actions : List Action) : (hub.run actions).pool.Tracks := by
  induction actions generalizing hub with
  | nil => exact tracks
  | cons action later ih =>
      exact ih (coherent_perform coherent action) (tracks_perform coherent tracks action)

theorem Fresh.tracks (fresh : hub.Fresh) : hub.pool.Tracks := by
  obtain ⟨poolConfig, validator, pool, operations, config, registry, poolMade, made⟩ := fresh
  obtain ⟨_, rfl⟩ := new_eq made
  exact (Pool.tracks_new poolMade).run (Pool.coherent_new poolMade) operations

theorem holds_run {position : Nat} (held : hub.pool.holds position peer = true)
    (actions : List Action) : (hub.run actions).pool.holds position peer = true := by
  induction actions generalizing hub with
  | nil => exact held
  | cons action later ih =>
      apply ih
      rcases hub.pool_perform action with same | ⟨operation, _, performed⟩
      · rw [same]
        exact held
      · rw [performed]
        exact Pool.holds_perform operation held

end Hub

end VoteGossip
