import VoteGossip.Proofs.Gossip.Identity

/-!
Where it comes from that a peer counts as a holder. A routine passes over an entry as held only
under a number that some node had when a frame with the transaction came in from it. Numbers are
taken back and given to other nodes, and what is filed under them stays. So the node that a routine
serves is known to be the node of that frame only if nobody gave the number back since.
-/

set_option autoImplicit false

namespace VoteGossip.Hub

/-- Holders are filed for what comes in on a connection, and for nothing else. -/
def Action.isUnattributed : Action → Bool
  | .submit _ sender => sender.isUnknown
  | .addHolder _ _ => false
  | _ => true

def Supplies (start : Hub) (before : List Action) (node : NodeId) (id : TxId) : Action → Prop
  | .receive index channel frame => channel = txChannel ∧ ∃ connection vote,
      (start.run before).Carries index frame connection vote ∧ connection.node = node ∧
        vote.id = id
  | _ => False

/-- In the course of these actions a node that has the number gives it back. -/
def GivesBack (hub : Hub) (peer : PeerId) (actions : List Action) : Prop :=
  ∃ earlier node reason later, actions = earlier ++ .removePeer node reason :: later ∧
    (hub.run earlier).registry.assigned[node]? = some peer

variable {hub start : Hub} {actions : List Action} {node : NodeId} {peer : PeerId} {position : Nat}

theorem GivesBack.snoc (given : hub.GivesBack peer actions) (last : Action) :
    hub.GivesBack peer (actions ++ [last]) := by
  obtain ⟨earlier, node, reason, later, rfl, assigned⟩ := given
  refine ⟨earlier, node, reason, later ++ [last], ?_, assigned⟩
  rw [List.append_assoc]
  rfl

theorem assigned_run (sound : hub.registry.Sound)
    (assigned : hub.registry.assigned[node]? = some peer) (actions : List Action) :
    hub.GivesBack peer actions ∨ (hub.run actions).registry.assigned[node]? = some peer := by
  induction actions using List.reverseRecOn with
  | nil => exact Or.inr assigned
  | append_singleton earlier last ih =>
      rcases ih with given | still
      · exact Or.inl (given.snoc last)
      · by_cases removed : ∃ reason, last = .removePeer node reason
        · obtain ⟨reason, rfl⟩ := removed
          exact Or.inl ⟨earlier, node, reason, [], rfl, still⟩
        · right
          rw [run_snoc]
          exact assigned_perform (sound_run sound earlier) still fun reason same =>
            removed ⟨reason, same⟩

/-- In this run, after these first actions, a node supplied a transaction of this name under this
number. -/
structure Attributed (start : Hub) (actions : List Action) (id : TxId) (peer : PeerId)
    (source : NodeId) (before : List Action) (receipt : Action) (later : List Action) : Prop where
  split : actions = before ++ receipt :: later
  supplies : start.Supplies before source id receipt
  number : (start.run before).registry.lookup source = peer
  known : peer.isUnknown = false

variable {id : TxId} {source : NodeId} {before later : List Action} {receipt : Action}

theorem Attributed.snoc
    (attributed : Attributed start actions id peer source before receipt later) (last : Action) :
    Attributed start (actions ++ [last]) id peer source before receipt (later ++ [last]) := by
  obtain ⟨rfl, supplies, number, known⟩ := attributed
  refine ⟨?_, supplies, number, known⟩
  rw [List.append_assoc]
  rfl

/-- Whoever counts as a holder of a live entry supplied it, under the number it had then. -/
def Attributes (start : Hub) (actions : List Action) : Prop :=
  ∀ (position : Nat) (peer : PeerId) (entry : PoolEntry),
    (start.run actions).pool.entry position = .ready entry →
    (start.run actions).pool.holds position peer = true →
    ∃ source before receipt later,
      Attributed start actions entry.id peer source before receipt later

theorem attributes_nil (nobody : ∀ position peer, start.pool.holds position peer = false) :
    Attributes start [] := by
  intro position peer entry _live held
  change start.pool.holds position peer = true at held
  rw [nobody] at held
  cases held

theorem Attributes.snoc (attributes : Attributes start actions)
    (coherent : (start.run actions).pool.Coherent) (tracks : (start.run actions).pool.Tracks)
    {last : Action} (unattributed : last.isUnattributed = true) :
    Attributes start (actions ++ [last]) := by
  intro position peer entry live held
  rw [run_snoc] at live held
  have alive := Log.get_eq_ready_iff.mp live
  -- Whoever was filed before supplied the entry before, for it was live then as well.
  have older : (start.run actions).pool.holds position peer = true →
      ∃ source before receipt later,
        Attributed start (actions ++ [last]) entry.id peer source before receipt later := by
    intro heldBefore
    have moved := evolves_perform coherent last
    have aliveBefore := moved.live_before position entry (tracks.written heldBefore) alive
    have liveBefore := Log.get_eq_ready_iff.mpr aliveBefore
    obtain ⟨source, before, receipt, later, attributed⟩ :=
      attributes position peer entry liveBefore heldBefore
    exact ⟨source, before, receipt, later ++ [last], attributed.snoc last⟩
  rcases (start.run actions).pool_perform last with same | ⟨operation, caused, performed⟩
  · rw [same] at held
    exact older held
  · rw [performed] at held alive
    rcases Pool.files_of_holds coherent tracks held with heldBefore | files
    · exact older heldBefore
    · cases caused with
      | submitted tx sender =>
          cases files with
          | supplied _ _ known =>
              have unknown : peer.isUnknown = true := unattributed
              rw [unknown] at known
              cases known
      | filed => cases unattributed
      | updated | flushed => cases files
      | received index frame connection vote carries =>
          cases files with
          | supplied _ written known writtenLive named =>
              have same : some entry = some written := alive.symm.trans writtenLive
              cases same
              have supplies : start.Supplies actions connection.node entry.id
                  (.receive index txChannel frame) :=
                ⟨rfl, connection, vote, carries, rfl, named.symm⟩
              exact ⟨connection.node, actions, _, [], rfl, supplies, rfl, known⟩

theorem Fresh.attributes (fresh : start.Fresh)
    (nobody : ∀ position peer, start.pool.holds position peer = false)
    (unattributed : ∀ action ∈ actions, action.isUnattributed = true) :
    Attributes start actions := by
  induction actions using List.reverseRecOn with
  | nil => exact attributes_nil nobody
  | append_singleton earlier last ih =>
      have before := ih fun action member => unattributed action (List.mem_append_left _ member)
      exact before.snoc (coherent_run fresh.coherent earlier)
        (tracks_run fresh.coherent fresh.tracks earlier)
        (unattributed last (List.mem_append_right _ (List.mem_singleton_self last)))

theorem Supplies.opened (supplies : start.Supplies before source id receipt)
    (split : actions = before ++ receipt :: later) :
    ∃ index channel frame connection, Action.receive index channel frame ∈ actions ∧
      (start.run actions).connections[index]? = some connection ∧ connection.node = source := by
  cases receipt with
  | receive index channel frame =>
      obtain ⟨_, connection, vote, carries, rfl, _⟩ := supplies
      obtain ⟨now, opened, continues⟩ :=
        continues_run carries.opened (.receive index channel frame :: later)
      rw [← run_append, ← split] at opened
      have member : Action.receive index channel frame ∈ actions := by
        rw [split]
        exact List.mem_append_right before List.mem_cons_self
      exact ⟨index, channel, frame, now, member, opened, continues.node_eq⟩
  | _ => exact supplies.elim

/-- Two nodes that had the same number, one of them at some time and the other after these
actions, are one node unless the number was given back in between. -/
theorem Attributed.source_eq
    (attributed : Attributed start actions id peer source before receipt later)
    (sound : start.registry.Sound) (current : (start.run actions).registry.lookup node = peer) :
    (start.run before).GivesBack peer (receipt :: later) ∨ source = node := by
  obtain ⟨rfl, _, number, known⟩ := attributed
  have assigned := Registry.assigned_of_lookup number known
  rcases assigned_run (sound_run sound before) assigned (receipt :: later) with given | still
  · exact Or.inl given
  · rw [← run_append] at still
    have now := Registry.assigned_of_lookup current known
    exact Or.inr ((sound_run sound _).distinct source node peer still now)

theorem held_of_offered {routine : Routine} {view : Routine.View} {connection : Connection}
    {wake : Routine.Wake} (passed : .offered node position .alreadyHeld ∈
      (routine.resume view connection wake).events) :
    node = connection.node ∧ (∃ entry, view.pool.entry position = .ready entry) ∧
      view.pool.holds position routine.peer = true := by
  cases looks : routine.looksAt? view connection wake with
  | none =>
      have idle := Routine.resume_of_looksAt_none looks
      exact absurd passed (idle.offers_nothing node position .alreadyHeld)
  | some cursor =>
      have visited := Routine.resume_of_looksAt looks
      generalize routine.resume view connection wake = turn at visited passed
      cases visited with
      | held entry live due holds =>
          cases List.mem_singleton.mp passed
          exact ⟨rfl, ⟨entry, live⟩, holds⟩
      | sent | notReady | behind | refused => cases List.mem_singleton.mp passed
      | skipped => cases passed
      | lost gone =>
          unfold Routine.restart at passed
          split at passed
          · cases List.mem_singleton.mp passed
          · cases passed

variable {index : Nat} {last : Action}

theorem turns_of_reported {event : RoutineEvent} (heard : event ∈ hub.reported index last) :
    ∃ wake routine connection, hub.Turns index wake routine connection ∧
      event ∈ (routine.resume hub.view connection wake).events := by
  cases last with
  | resume other wake =>
      by_cases acts : other = index ∧ hub.wakesOn other wake = true
      · obtain ⟨rfl, woken⟩ := acts
        obtain ⟨routine, connection, turns⟩ := turns_of_wakesOn woken
        rw [turns.reported_eq] at heard
        exact ⟨wake, routine, connection, turns, heard⟩
      · have quiet : hub.reported index (.resume other wake) = [] := if_neg acts
        rw [quiet] at heard
        cases heard
  | _ => cases heard

/-- Where holders are filed only for what comes in, an entry that a routine passes over as held was
supplied under the number of the routine; and by the node that the routine serves, if that node
has the number and nobody gave it back since. -/
theorem held_was_supplied (fresh : start.Fresh) (reached : start.registry.Reached)
    (nobody : ∀ position peer, start.pool.holds position peer = false)
    (unattributed : ∀ action ∈ actions, action.isUnattributed = true)
    (passed : .offered node position .alreadyHeld ∈ (start.run actions).reported index last) :
    ∃ routine connection entry, (start.run actions).routines[index]? = some routine ∧
      (start.run actions).connections[routine.connection]? = some connection ∧
      connection.node = node ∧ (start.run actions).pool.entry position = .ready entry ∧
      ∃ source before receipt later,
        Attributed start actions entry.id routine.peer source before receipt later ∧
        ((start.run actions).registry.lookup node = routine.peer →
          (start.run before).GivesBack routine.peer (receipt :: later) ∨ source = node) := by
  obtain ⟨wake, routine, connection, turns, offered⟩ := turns_of_reported passed
  obtain ⟨rfl, ⟨entry, live⟩, holds⟩ := held_of_offered offered
  obtain ⟨source, before, receipt, later, attributed⟩ :=
    fresh.attributes nobody unattributed position routine.peer entry live holds
  exact ⟨routine, connection, entry, turns.routine_at, turns.connection_at, rfl, live,
    source, before, receipt, later, attributed, attributed.source_eq reached.sound⟩

theorem held_by_sender :
    ∃ pool start, Pool.new {} Validator.acceptAll = .ok pool ∧
      Hub.new {} pool (.empty 1) = .ok start ∧
      let node : NodeId := ⟨Vector.replicate 32 7⟩
      let actions : List Action := [.start, .openConnection node 4, .addPeer 0, .report node 1,
        .receive 0 txChannel [8, 1, 18, 1, 97, 24, 1], .resume 0 .launch]
      .offered node 0 .alreadyHeld ∈ (start.run actions).reported 0 (.resume 0 .entries) ∧
        ∃ routine connection entry, (start.run actions).routines[0]? = some routine ∧
          (start.run actions).connections[routine.connection]? = some connection ∧
          connection.node = node ∧ (start.run actions).pool.entry 0 = .ready entry ∧
          ∃ source before receipt later,
            Attributed start actions entry.id routine.peer source before receipt later ∧
            ((start.run actions).registry.lookup node = routine.peer →
              (start.run before).GivesBack routine.peer (receipt :: later) ∨ source = node) := by
  have made : Pool.new {} Validator.acceptAll = .ok _ := rfl
  refine ⟨_, _, made, rfl, ?passed,
    held_was_supplied ⟨{}, Validator.acceptAll, _, [], {}, .empty 1, rfl, rfl⟩
      (Registry.reached_empty 1) ?nobody ?unattributed ?passed⟩
  case nobody => exact fun position peer => Pool.holds_new made
  case unattributed => decide +kernel
  case passed => decide +kernel

/-- A node that got the number of another one is passed over for what the other one supplied: it
never sent anything, and the entry is not sent to it. -/
theorem held_by_namesake :
    ∃ pool start, Pool.new {} Validator.acceptAll = .ok pool ∧
      Hub.new {} pool (.empty 1) = .ok start ∧
      let gone : NodeId := ⟨Vector.replicate 32 1⟩
      let node : NodeId := ⟨Vector.replicate 32 2⟩
      let actions : List Action := [.start, .openConnection gone 4, .addPeer 0,
        .receive 0 txChannel [8, 1, 18, 1, 97, 24, 1], .disconnect 0, .removePeer gone "",
        .openConnection node 4, .report node 0, .addPeer 1, .resume 1 .launch]
      (∀ action ∈ actions, action.isUnattributed = true) ∧
        .offered node 0 .alreadyHeld ∈ (start.run actions).reported 1 (.resume 1 .entries) ∧
        ∀ before receipt later id, actions = before ++ receipt :: later →
          ¬ start.Supplies before node id receipt := by
  refine ⟨_, _, rfl, rfl, ?unattributed, ?passed, ?unsupplied⟩
  case unattributed => decide +kernel
  case passed => decide +kernel
  case unsupplied =>
    intro before receipt later id split supplies
    obtain ⟨index, channel, frame, connection, member, opened, leads⟩ := supplies.opened split
    have first : index = 0 := by
      simp only [List.mem_cons, List.not_mem_nil, reduceCtorEq, false_or, or_false,
        Action.receive.injEq] at member
      exact member.1
    rw [first] at opened
    have other := congrArg (Option.map Connection.node) opened
    rw [Option.map_some, leads] at other
    exact absurd other (by decide +kernel)

end VoteGossip.Hub
