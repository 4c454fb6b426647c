import VoteGossip.Proofs.Gossip.Identity
import VoteGossip.Proofs.Occurrence

/-!
Which frames are held against the peer that sent them.

A frame on the channel of transactions that is no message stops the connection it came in on, and
it does nothing else. No other frame stops a connection: neither one on another channel, nor one of
an unknown type, nor one with a transaction that the pool refuses. Over a run, a connection has
quit exactly if it was told to or such a frame came in on it.
-/

set_option autoImplicit false

namespace VoteGossip

structure Connection.Stopped (connection : Connection) : Prop where
  quit : connection.quit = true
  recorded : connection.stopReason ≠ none

theorem Connection.stopped_stopForError (connection : Connection) (error : GossipError) :
    (connection.stopForError error).Stopped := ⟨rfl, nofun⟩

theorem Connection.quit_trySend (connection : Connection) (frame : Frame) :
    (connection.trySend frame).1.quit = connection.quit := by
  unfold trySend
  split <;> rfl

namespace Hub

/-- The answer is an error that is held against the peer. -/
def Reply.Blames (reply : Reply (Except GossipError Unit)) : Prop :=
  ∃ error, reply.answer = .error error ∧ error.isPeerFault = true

/-- The frame is on the channel of transactions and is no message. -/
structure Malformed (hub : Hub) (channel : UInt8) (frame : List UInt8) (cause : DecodeError) :
    Prop where
  on_channel : channel = txChannel
  undecodable : (Codec.mk hub.config.maxMessageBytes).decode frame = .error cause

structure Judged (hub : Hub) (index : Nat) (peer : Connection) (channel : UInt8)
    (frame : List UInt8) (reply : Reply (Except GossipError Unit)) : Prop where
  blames_iff : reply.Blames ↔ ∃ cause, hub.Malformed channel frame cause
  /-- A peer that was stopped before is so either way: the two fields below say what becomes of
  it. -/
  stops_iff : ¬ peer.Stopped →
    ((∃ later, reply.hub.connections[index]? = some later ∧ later.Stopped) ↔ reply.Blames)
  stopped : ∀ cause, hub.Malformed channel frame cause →
    reply.answer = .error (.decode cause) ∧
      reply.hub = hub.withConnection index (·.stopForError (.decode cause))
  spared : ¬ reply.Blames → reply.hub.connections = hub.connections
  handed : ∀ vote, channel = txChannel → hub.Carries index frame peer vote →
    let sender := (hub.registry.assigned[peer.node]?).getD ⟨0⟩
    let submitted := hub.pool.submit vote sender
    reply.hub = { hub with pool := submitted.pool } ∧
      reply.answer = (submitted.answer.mapError GossipError.rejected).map fun _ => ()
  passed : (∀ cause, ¬ hub.Malformed channel frame cause) →
    (∀ vote, ¬ (channel = txChannel ∧ hub.Carries index frame peer vote)) →
    reply.answer = .ok () ∧ reply.hub = hub
  registry_eq : reply.hub.registry = hub.registry
  elsewhere : ∀ other, other ≠ index →
    reply.hub.connections[other]? = hub.connections[other]?

variable {hub : Hub} {index : Nat} {peer : Connection} {channel : UInt8} {frame : List UInt8}

theorem Malformed.receive_eq {cause : DecodeError} (malformed : hub.Malformed channel frame cause)
    (opened : hub.connections[index]? = some peer) :
    (hub.receive index channel frame).answer = .error (.decode cause) ∧
      (hub.receive index channel frame).hub =
        hub.withConnection index (·.stopForError (.decode cause)) := by
  obtain ⟨rfl, undecodable⟩ := malformed
  unfold receive
  simp only [opened, ne_eq, not_true_eq_false, if_false, undecodable, and_self]

theorem Malformed.blames {cause : DecodeError} (malformed : hub.Malformed channel frame cause)
    (opened : hub.connections[index]? = some peer) :
    (hub.receive index channel frame).Blames :=
  ⟨.decode cause, (malformed.receive_eq opened).1, rfl⟩

theorem Carries.answer_eq {vote : Tx} (carries : hub.Carries index frame peer vote) :
    (hub.receive index txChannel frame).answer =
      ((hub.pool.submit vote (hub.registry.lookup peer.node)).answer.mapError
        GossipError.rejected).map fun _ => () := by
  rw [carries.receive_eq.2]
  cases (hub.pool.submit vote (hub.registry.lookup peer.node)).answer <;> rfl

theorem Carries.not_blames {vote : Tx} (carries : hub.Carries index frame peer vote) :
    ¬ (hub.receive index txChannel frame).Blames := by
  intro blames
  obtain ⟨error, answer, fault⟩ := blames
  rw [carries.answer_eq] at answer
  cases submitted : (hub.pool.submit vote (hub.registry.lookup peer.node)).answer with
  | ok id =>
      rw [submitted] at answer
      cases answer
  | error cause =>
      rw [submitted] at answer
      cases answer
      cases fault

theorem receive_passed (opened : hub.connections[index]? = some peer)
    (sound : ∀ cause, ¬ hub.Malformed channel frame cause)
    (empty : ∀ vote, ¬ (channel = txChannel ∧ hub.Carries index frame peer vote)) :
    (hub.receive index channel frame).answer = .ok () ∧
      (hub.receive index channel frame).hub = hub := by
  unfold receive
  by_cases other : channel ≠ txChannel
  · simp only [opened, if_pos other, and_self]
  · simp only [opened, if_neg other]
    have on_channel := not_not.mp other
    cases decoded : (Codec.mk hub.config.maxMessageBytes).decode frame with
    | error cause => exact absurd ⟨on_channel, decoded⟩ (sound cause)
    | ok message =>
        cases message with
        | tx vote => exact absurd ⟨on_channel, opened, decoded⟩ (empty vote)
        | unknown messageType => exact ⟨rfl, rfl⟩

theorem connection_withConnection (change : Connection → Connection)
    (opened : hub.connections[index]? = some peer) :
    (hub.withConnection index change).connections[index]? = some (change peer) := by
  change (hub.connections.modify index change)[index]? = _
  rw [Array.getElem?_modify, if_pos rfl, opened, Option.map_some]

theorem connection_withConnection_of_ne {other : Nat} (change : Connection → Connection)
    (different : other ≠ index) :
    (hub.withConnection index change).connections[other]? = hub.connections[other]? := by
  change (hub.connections.modify index change)[other]? = _
  rw [Array.getElem?_modify, if_neg (Ne.symm different)]

theorem receive_elsewhere {other : Nat} (channel : UInt8) (frame : List UInt8)
    (different : other ≠ index) :
    (hub.receive index channel frame).hub.connections[other]? = hub.connections[other]? := by
  have received := hub.receive_cases index channel frame
  generalize (hub.receive index channel frame).hub = after at received
  cases received with
  | ignored | handed => rfl
  | stopped cause => exact connection_withConnection_of_ne _ different

theorem blames_iff_malformed (opened : hub.connections[index]? = some peer) :
    (hub.receive index channel frame).Blames ↔ ∃ cause, hub.Malformed channel frame cause := by
  constructor
  · intro blames
    by_contra sound
    rw [not_exists] at sound
    by_cases empty : ∀ vote, ¬ (channel = txChannel ∧ hub.Carries index frame peer vote)
    · obtain ⟨error, answer, _⟩ := blames
      rw [(receive_passed opened sound empty).1] at answer
      cases answer
    · obtain ⟨vote, brings⟩ := not_forall.mp empty
      obtain ⟨rfl, carries⟩ := not_not.mp brings
      exact carries.not_blames blames
  · intro ⟨cause, malformed⟩
    exact malformed.blames opened

theorem connections_of_not_blames (opened : hub.connections[index]? = some peer)
    (innocent : ¬ (hub.receive index channel frame).Blames) :
    (hub.receive index channel frame).hub.connections = hub.connections := by
  rw [blames_iff_malformed opened, not_exists] at innocent
  by_cases empty : ∀ vote, ¬ (channel = txChannel ∧ hub.Carries index frame peer vote)
  · rw [(receive_passed opened innocent empty).2]
  · obtain ⟨vote, brings⟩ := not_forall.mp empty
    obtain ⟨rfl, carries⟩ := not_not.mp brings
    rw [carries.receive_eq.1]
    rfl

theorem stops_iff_blames (opened : hub.connections[index]? = some peer)
    (running : ¬ peer.Stopped) :
    (∃ later, (hub.receive index channel frame).hub.connections[index]? = some later ∧
      later.Stopped) ↔ (hub.receive index channel frame).Blames := by
  constructor
  · intro ⟨later, found, stopped⟩
    by_contra innocent
    rw [connections_of_not_blames opened innocent, opened] at found
    cases found
    exact running stopped
  · intro blames
    obtain ⟨cause, malformed⟩ := (blames_iff_malformed opened).mp blames
    rw [(malformed.receive_eq opened).2]
    exact ⟨_, connection_withConnection _ opened, peer.stopped_stopForError _⟩

/-- Only a frame that is no message stops the peer it came from, and it changes nothing else. -/
theorem receive_judged (opened : hub.connections[index]? = some peer) (channel : UInt8)
    (frame : List UInt8) :
    hub.Judged index peer channel frame (hub.receive index channel frame) where
  blames_iff := blames_iff_malformed opened
  stops_iff := stops_iff_blames opened
  stopped cause malformed := malformed.receive_eq opened
  spared := connections_of_not_blames opened
  handed vote on_channel carries := by
    subst on_channel
    have sender : hub.registry.lookup peer.node =
        (hub.registry.assigned[peer.node]?).getD ⟨0⟩ := Std.ExtTreeMap.getD_eq_getD_getElem?
    rw [← sender]
    exact ⟨carries.receive_eq.1, carries.answer_eq⟩
  passed := receive_passed opened
  registry_eq := hub.registry_perform (.receive index channel frame)
  elsewhere _ different := receive_elsewhere channel frame different

/-- Two nodes are connected, only the second one is registered, and the first one sends bytes that
are no envelope. -/
theorem judged_unregistered :
    ∃ pool start, Pool.new {} Validator.acceptAll = .ok pool ∧
      Hub.new {} pool (.empty 1) = .ok start ∧
      let unknown : NodeId := ⟨Vector.replicate 32 1⟩
      let node : NodeId := ⟨Vector.replicate 32 2⟩
      let hub := start.run [.start, .openConnection unknown 4, .openConnection node 4, .addPeer 1]
      hub.connections[0]? = some (.new unknown 4) ∧ ¬ (Connection.new unknown 4).Stopped ∧
        hub.Malformed txChannel [255, 255] (.unrecognized
          "invalid envelope: failed to decode Protobuf message: invalid varint") ∧
        hub.Judged 0 (.new unknown 4) txChannel [255, 255]
          (hub.receive 0 txChannel [255, 255]) := by
  refine ⟨_, _, rfl, rfl, rfl, ?running, ⟨rfl, ?undecodable⟩, receive_judged rfl _ _⟩
  case running => exact fun stopped => stopped.recorded rfl
  case undecodable => decide +kernel

def Quits (hub : Hub) (index : Nat) : Action → Prop
  | .disconnect target | .stopForError target _ => target = index
  | .receive target channel frame =>
      target = index ∧ ∃ cause, hub.Malformed channel frame cause
  | _ => False

theorem quit_withConnection {change : Connection → Connection} {ends : Prop} (target : Nat)
    (opened : hub.connections[index]? = some peer)
    (changes : target = index → ((change peer).quit = true ↔ peer.quit = true ∨ ends))
    (here : ends → target = index) :
    ∃ later, (hub.withConnection target change).connections[index]? = some later ∧
      (later.quit = true ↔ peer.quit = true ∨ ends) := by
  by_cases same : target = index
  · refine ⟨change peer, ?_, changes same⟩
    rw [same]
    exact connection_withConnection change opened
  · refine ⟨peer, ?_, (or_iff_left (mt here same)).symm⟩
    rw [connection_withConnection_of_ne change (Ne.symm same), opened]

theorem quit_receive (target : Nat) (channel : UInt8) (frame : List UInt8)
    (opened : hub.connections[index]? = some peer) :
    ∃ later, (hub.receive target channel frame).hub.connections[index]? = some later ∧
      (later.quit = true ↔
        peer.quit = true ∨ target = index ∧ ∃ cause, hub.Malformed channel frame cause) := by
  by_cases same : target = index
  · subst same
    rw [← blames_iff_malformed opened]
    by_cases blames : (hub.receive target channel frame).Blames
    · obtain ⟨cause, malformed⟩ := (blames_iff_malformed opened).mp blames
      rw [(malformed.receive_eq opened).2]
      exact ⟨_, connection_withConnection _ opened, fun _ => Or.inr ⟨rfl, blames⟩, fun _ => rfl⟩
    · rw [connections_of_not_blames opened blames]
      exact ⟨peer, opened, (or_iff_left fun both => blames both.2).symm⟩
  · rw [receive_elsewhere channel frame (Ne.symm same)]
    exact ⟨peer, opened, (or_iff_left fun both => same both.1).symm⟩

theorem quit_perform (opened : hub.connections[index]? = some peer) (action : Action) :
    ∃ later, (hub.perform action).connections[index]? = some later ∧
      (later.quit = true ↔ peer.quit = true ∨ hub.Quits index action) := by
  have same : ∃ later, hub.connections[index]? = some later ∧
      (later.quit = true ↔ peer.quit = true ∨ False) :=
    ⟨peer, opened, (or_iff_left not_false).symm⟩
  cases action with
  | disconnect target | stopForError target =>
      exact quit_withConnection target opened (fun here => ⟨fun _ => Or.inr here, fun _ => rfl⟩) id
  | drain target | dropReceiver target =>
      exact quit_withConnection target opened (fun _ => (or_iff_left not_false).symm) False.elim
  | send target frame =>
      refine quit_withConnection target opened (fun _ => ?_) False.elim
      rw [Connection.quit_trySend]
      exact (or_iff_left not_false).symm
  | receive target channel frame => exact quit_receive target channel frame opened
  | openConnection node capacity =>
      have within := (Array.getElem?_eq_some_iff.mp opened).1
      refine ⟨peer, ?_, (or_iff_left not_false).symm⟩
      change (hub.connections.push _)[index]? = some peer
      rw [Array.getElem?_push, if_neg (Nat.ne_of_lt within), opened]
  | addPeer target =>
      have admitted := hub.addPeer_cases target
      change ∃ later, (hub.addPeer target).hub.connections[index]? = some later ∧ _
      generalize (hub.addPeer target).hub = after at admitted
      cases admitted <;> exact same
  | removePeer node reason =>
      obtain ⟨registry, serving, retired, frame⟩ := hub.removePeer_frame node reason
      change ∃ later, (hub.removePeer node reason).hub.connections[index]? = some later ∧ _
      rw [frame]
      exact same
  | resume other wake =>
      by_cases wakes : hub.wakesOn other wake = true
      · obtain ⟨routine, served, turns⟩ := turns_of_wakesOn wakes
        by_cases here : index = routine.connection
        · have alike := turns.connection_at
          rw [← here, opened] at alike
          cases alike
          refine ⟨_, here ▸ turns.connection_after, ?_⟩
          obtain ⟨entries, _, queued⟩ := routine.resume_queues hub.view peer wake
          rw [queued]
          exact (or_iff_left not_false).symm
        · rw [turns.connection_elsewhere here]
          exact same
      · have performed : hub.perform (.resume other wake) = hub := if_neg wakes
        rw [performed]
        exact same
  | start | stop | submit | update | flush | addHolder | report | forget | clock => exact same

/-- A connection that is open now will have quit exactly if it was told to, or if a frame came in
on it that is no message. -/
theorem quit_run (opened : hub.connections[index]? = some peer) (running : peer.quit = false)
    (actions : List Action) :
    ∃ later, (hub.run actions).connections[index]? = some later ∧
      (later.quit = true ↔
        Occurs (fun earlier action => (hub.run earlier).Quits index action) actions) := by
  induction actions using List.reverseRecOn with
  | nil =>
      refine ⟨peer, opened, iff_of_false ?_ not_occurs_nil⟩
      rw [running]
      exact Bool.false_ne_true
  | append_singleton earlier last ih =>
      obtain ⟨between, found, quit_iff⟩ := ih
      obtain ⟨later, foundLater, step⟩ := quit_perform found last
      rw [run_snoc, occurs_snoc, ← quit_iff]
      exact ⟨later, foundLater, step⟩

end Hub

end VoteGossip
