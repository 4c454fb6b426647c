import VoteGossip.Proofs.Gossip.Identity

/-!
No echo. Whoever sent a transaction does not get it back on the connection it came in on, whatever
other peers do. A routine knows its peer by the number that the node had when the peer was added,
and a frame is filed under the number that the node has when it comes in. The two agree as long as
callers keep to an order: no frames from nodes that are not registered, and no node is removed
before its connections have quit.
-/

set_option autoImplicit false

namespace VoteGossip

theorem Routine.of_mem_sent {routine : Routine} {view : View} {connection : Connection}
    {wake : Wake} {position : Nat} (sent : position ∈ (routine.resume view connection wake).sent) :
    view.pool.holds position routine.peer = false ∧ connection.accepts = true := by
  cases looks : routine.looksAt? view connection wake with
  | none =>
      rw [(resume_of_looksAt_none looks).sent_eq] at sent
      cases sent
  | some cursor =>
      have visited := resume_of_looksAt looks
      generalize routine.resume view connection wake = turn at visited sent
      cases visited with
      | sent entry live due unheld accepts =>
          cases List.mem_singleton.mp sent
          exact ⟨unheld, accepts⟩
      | held | notReady | behind | refused | skipped => cases sent
      | lost gone =>
          rw [sent_restart] at sent
          cases sent

namespace Hub

def Action.uses? : Action → Option Nat
  | .addPeer index | .receive index _ _ => some index
  | _ => none

/-- After these actions, a node may be removed if all its connections that were put to use have
quit, and a frame may come in from a node that is registered. -/
def Permits (hub : Hub) (past : List Action) : Action → Prop
  | .removePeer node _ => ∀ index ∈ past.filterMap Action.uses?,
      ∀ connection ∈ hub.connections[index]?, connection.node = node → connection.quit = true
  | .receive index _ _ => ∀ connection ∈ hub.connections[index]?,
      (hub.registry.assigned[connection.node]?).isSome = true
  | _ => True

instance (hub : Hub) (past : List Action) : DecidablePred (hub.Permits past)
  | .removePeer node _ => inferInstanceAs (Decidable (∀ index ∈ past.filterMap Action.uses?,
      ∀ connection ∈ hub.connections[index]?, connection.node = node → connection.quit = true))
  | .receive index _ _ => inferInstanceAs (Decidable (∀ connection ∈ hub.connections[index]?,
      (hub.registry.assigned[connection.node]?).isSome = true))
  | .start | .stop | .openConnection .. | .addPeer .. | .submit .. | .update .. | .flush
  | .addHolder .. | .report .. | .forget .. | .send .. | .drain .. | .dropReceiver ..
  | .disconnect .. | .stopForError .. | .clock .. | .resume .. => isTrue trivial

def OrderlyFrom (hub : Hub) (past : List Action) : List Action → Prop
  | [] => True
  | action :: later =>
      hub.Permits past action ∧ (hub.perform action).OrderlyFrom (past ++ [action]) later

instance decidableOrderlyFrom (hub : Hub) (past : List Action) :
    (actions : List Action) → Decidable (hub.OrderlyFrom past actions)
  | [] => isTrue trivial
  | action :: later =>
      have := decidableOrderlyFrom (hub.perform action) (past ++ [action]) later
      inferInstanceAs (Decidable (_ ∧ _))

/-- Every action of the run is permitted when it happens. -/
def Orderly (start : Hub) (actions : List Action) : Prop := start.OrderlyFrom [] actions

instance (start : Hub) (actions : List Action) : Decidable (start.Orderly actions) :=
  decidableOrderlyFrom start [] actions

variable {hub start : Hub} {index position : Nat} {action : Action} {peer : PeerId}
  {past actions earlier later : List Action}

theorem orderlyFrom_append : hub.OrderlyFrom past (earlier ++ later) ↔
    hub.OrderlyFrom past earlier ∧ (hub.run earlier).OrderlyFrom (past ++ earlier) later := by
  induction earlier generalizing hub past with
  | nil =>
      rw [List.append_nil]
      exact (iff_of_eq (true_and _)).symm
  | cons action rest ih =>
      change _ ∧ (hub.perform action).OrderlyFrom (past ++ [action]) (rest ++ later) ↔ (_ ∧ _) ∧ _
      rw [ih, and_assoc, List.append_assoc]
      rfl

theorem orderly_induction (holds : Hub → List Action → Prop)
    (step : ∀ (hub : Hub) (past : List Action) (action : Action), hub.registry.Sound →
      hub.Permits past action → holds hub past → holds (hub.perform action) (past ++ [action]))
    (sound : hub.registry.Sound) (orderly : hub.OrderlyFrom past actions)
    (start : holds hub past) : holds (hub.run actions) (past ++ actions) := by
  induction actions generalizing hub past with
  | nil =>
      rw [List.append_nil]
      exact start
  | cons action later ih =>
      obtain ⟨permitted, rest⟩ := orderly
      have next := step hub past action sound permitted start
      have last := ih (sound_perform sound action) rest next
      rw [List.append_assoc] at last
      exact last

/-- As long as the connection has not quit, its node has this number. -/
def Bound (hub : Hub) (index : Nat) (peer : PeerId) : Prop :=
  ∃ connection, hub.connections[index]? = some connection ∧
    (connection.quit = false → hub.registry.assigned[connection.node]? = some peer)

theorem Bound.perform (bound : hub.Bound index peer) (sound : hub.registry.Sound)
    (permitted : hub.Permits past action) (used : index ∈ past.filterMap Action.uses?) :
    (hub.perform action).Bound index peer := by
  obtain ⟨connection, opened, number⟩ := bound
  obtain ⟨later, laterOpened, continues⟩ := continues_perform opened action
  refine ⟨later, laterOpened, ?_⟩
  intro goesOn
  have goneOn : connection.quit = false := by
    rw [← Bool.not_eq_true] at goesOn ⊢
    exact mt continues.quit goesOn
  rw [continues.node_eq]
  refine assigned_perform sound (number goneOn) ?_
  rintro reason rfl
  have ended := permitted index used connection opened rfl
  rw [goneOn] at ended
  cases ended

theorem Bound.run (bound : hub.Bound index peer) (sound : hub.registry.Sound)
    (orderly : hub.OrderlyFrom past actions) (used : index ∈ past.filterMap Action.uses?) :
    (hub.run actions).Bound index peer := by
  have kept := orderly_induction
    (fun hub past => index ∈ past.filterMap Action.uses? ∧ hub.Bound index peer) ?_ sound orderly
    ⟨used, bound⟩
  · exact kept.2
  · intro hub past action sound permitted kept
    obtain ⟨used, bound⟩ := kept
    rw [List.filterMap_append]
    exact ⟨List.mem_append_left _ used, bound.perform sound permitted used⟩

/-- Every routine knows its peer by the number that the node has, until the connection quits. -/
def Identified (hub : Hub) (past : List Action) : Prop :=
  ∀ (index : Nat) (routine : Routine), hub.routines[index]? = some routine →
    routine.connection ∈ past.filterMap Action.uses? ∧ hub.Bound routine.connection routine.peer

theorem Identified.perform (identified : hub.Identified past) (sound : hub.registry.Sound)
    (permitted : hub.Permits past action) : (hub.perform action).Identified (past ++ [action]) := by
  intro index routine found
  rw [List.filterMap_append]
  rcases routine_perform found with ⟨phase, before⟩ | ⟨rfl, connection, opened, assigned⟩
  · obtain ⟨used, bound⟩ := identified index { routine with phase } before
    exact ⟨List.mem_append_left _ used, bound.perform sound permitted used⟩
  · obtain ⟨later, laterOpened, continues⟩ := continues_perform opened (.addPeer routine.connection)
    refine ⟨List.mem_append_right _ List.mem_cons_self, later, laterOpened, ?_⟩
    intro _goesOn
    rw [continues.node_eq]
    exact assigned

theorem Identified.run (identified : hub.Identified past) (sound : hub.registry.Sound)
    (orderly : hub.OrderlyFrom past actions) :
    (hub.run actions).Identified (past ++ actions) :=
  orderly_induction Identified (fun _ _ _ sound permitted kept => kept.perform sound permitted)
    sound orderly identified

theorem Fresh.identified (fresh : start.Fresh) : start.Identified [] := by
  intro index routine found
  rw [fresh.routines_eq] at found
  cases found

/-- The turn of a routine adds to a connection the frames of live entries, and only to the
connection that the routine serves. -/
theorem turn_queues (hub : Hub) (other : Nat) (wake : Routine.Wake) (index : Nat) :
    ∃ (positions : List Nat) (entries : List PoolEntry),
      positions.map hub.pool.entry = entries.map .ready ∧
      (hub.perform (.resume other wake)).connections[index]? =
        hub.connections[index]?.map (fun connection =>
          { connection with queue := connection.queue ++ entries.map PoolEntry.frame }) ∧
      ∀ position ∈ positions, ∃ routine connection,
        hub.Turns other wake routine connection ∧ routine.connection = index ∧
        position ∈ (routine.resume hub.view connection wake).sent := by
  have nothing : hub.connections[index]? = hub.connections[index]?.map (fun connection =>
      { connection with
        queue := connection.queue ++ ([] : List PoolEntry).map PoolEntry.frame }) := by
    simp only [List.map_nil, Array.appendList_nil, Option.map_id_fun', id]
  by_cases wakes : hub.wakesOn other wake = true
  · obtain ⟨routine, connection, turns⟩ := turns_of_wakesOn wakes
    rw [turns.perform_eq]
    change ∃ positions entries, _ ∧
      (hub.connections.setIfInBounds routine.connection _)[index]? = _ ∧ _
    rw [Array.getElem?_setIfInBounds]
    by_cases here : routine.connection = index
    · subst index
      have within := (Array.getElem?_eq_some_iff.mp turns.connection_at).1
      obtain ⟨entries, live, queued⟩ := routine.resume_queues hub.view connection wake
      refine ⟨_, entries, live, ?_, fun position sent => ⟨routine, connection, turns, rfl, sent⟩⟩
      rw [if_pos rfl, if_pos within, turns.connection_at, queued]
      rfl
    · rw [if_neg here]
      exact ⟨[], [], rfl, nothing, fun _ none => absurd none List.not_mem_nil⟩
  · have performed : hub.perform (.resume other wake) = hub := if_neg wakes
    rw [performed]
    exact ⟨[], [], rfl, nothing, fun _ none => absurd none List.not_mem_nil⟩

theorem Carries.holds {frame : List UInt8} {connection : Connection} {vote : Tx}
    {entry : PoolEntry} (carries : hub.Carries index frame connection vote)
    (coherent : hub.pool.Coherent) (tracks : hub.pool.Tracks) (sound : hub.registry.Sound)
    (assigned : hub.registry.assigned[connection.node]? = some peer)
    (answered : ∀ cause, (hub.receive index txChannel frame).answer = .error cause →
      cause = .rejected (.alreadyPending vote.id))
    (live : (hub.perform (.receive index txChannel frame)).pool.entry position = .ready entry)
    (named : entry.id = vote.id) :
    (hub.perform (.receive index txChannel frame)).pool.holds position peer = true := by
  obtain ⟨received, answer⟩ := carries.receive_eq
  have number := Registry.lookup_of_assigned assigned
  have known : peer.isUnknown = false := by
    rw [← Bool.not_eq_true, PeerId.isUnknown_iff]
    exact Nat.ne_of_gt (sound.assigned_below connection.node peer assigned).1
  have pool_eq : (hub.perform (.receive index txChannel frame)).pool =
      (hub.pool.submit vote peer).pool := by
    change (hub.receive index txChannel frame).hub.pool = _
    rw [received, number]
    rfl
  rw [number] at answer
  have pending : (hub.pool.submit vote peer).Pending vote.id := by
    intro cause refused
    rw [refused] at answer
    cases answered _ answer
    rfl
  rw [pool_eq] at live ⊢
  have alive := Log.get_eq_ready_iff.mp live
  exact Pool.holds_of_submit coherent tracks known pending alive named

theorem not_sent_of_holds {other : Nat} {wake : Routine.Wake} {routine : Routine}
    {connection : Connection} (turns : hub.Turns other wake routine connection)
    (identified : hub.Identified past) (bound : hub.Bound routine.connection peer)
    (holds : hub.pool.holds position peer = true) :
    position ∉ (routine.resume hub.view connection wake).sent := by
  intro sent
  obtain ⟨unheld, accepts⟩ := Routine.of_mem_sent sent
  have goesOn : connection.quit = false := by
    unfold Connection.accepts at accepts
    rw [Bool.and_eq_true, Bool.and_eq_true, Bool.not_eq_true'] at accepts
    exact accepts.1.1
  obtain ⟨first, firstOpened, firstNumber⟩ := bound
  obtain ⟨_, second, secondOpened, secondNumber⟩ := identified other routine turns.routine_at
  rw [turns.connection_at] at firstOpened secondOpened
  cases firstOpened
  cases secondOpened
  have same : some peer = some routine.peer :=
    (firstNumber goesOn).symm.trans (secondNumber goesOn)
  cases same
  change hub.pool.holds position routine.peer = false at unheld
  rw [holds] at unheld
  cases unheld

/-- What came in on a connection and is pending, be it news or known already, is not queued on that
connection by any later turn of a routine. -/
theorem no_echo {frame : List UInt8} {connection : Connection} {vote : Tx} {entry : PoolEntry}
    {between : List Action} (fresh : start.Fresh) (reached : start.registry.Reached)
    (orderly : start.Orderly (earlier ++ .receive index txChannel frame :: between))
    (carries : (start.run earlier).Carries index frame connection vote)
    (answered : ((start.run earlier).receive index txChannel frame).answer = .ok () ∨
      ((start.run earlier).receive index txChannel frame).answer =
        .error (.rejected (.alreadyPending vote.id)))
    (live : ((start.run earlier).perform (.receive index txChannel frame)).pool.entry position =
      .ready entry)
    (named : entry.id = vote.id) (other : Nat) (wake : Routine.Wake) :
    let hub := start.run (earlier ++ .receive index txChannel frame :: between)
    ∃ (positions : List Nat) (entries : List PoolEntry), position ∉ positions ∧
      positions.map hub.pool.entry = entries.map .ready ∧
      (hub.perform (.resume other wake)).connections[index]? =
        hub.connections[index]?.map (fun connection =>
          { connection with queue := connection.queue ++ entries.map PoolEntry.frame }) := by
  intro hub
  have sound := reached.sound
  have soundBefore := sound_run sound earlier
  obtain ⟨_, permitted, orderlyAfter⟩ := orderlyFrom_append.mp orderly
  -- At the receipt, the node of the connection has a number, and the sender is filed under it.
  obtain ⟨peer, assigned⟩ := Option.isSome_iff_exists.mp (permitted connection carries.opened)
  have onlyKnown : ∀ cause, ((start.run earlier).receive index txChannel frame).answer =
      .error cause → cause = .rejected (.alreadyPending vote.id) := by
    intro cause refused
    rcases answered with accepted | known
    · rw [accepted] at refused
      cases refused
    · rw [known] at refused
      cases refused
      rfl
  have filed := carries.holds (coherent_run fresh.coherent earlier)
    (tracks_run fresh.coherent fresh.tracks earlier) soundBefore assigned onlyKnown live named
  have used : index ∈ ([] ++ earlier ++ [Action.receive index txChannel frame]).filterMap
      Action.uses? := by
    rw [List.filterMap_append]
    exact List.mem_append_right _ List.mem_cons_self
  have bound : ((start.run earlier).perform (.receive index txChannel frame)).Bound index peer := by
    obtain ⟨later, laterOpened, continues⟩ :=
      continues_perform carries.opened (.receive index txChannel frame)
    refine ⟨later, laterOpened, fun _goesOn => ?_⟩
    rw [continues.node_eq]
    exact assigned_perform soundBefore assigned nofun
  -- Both facts last until the turn.
  have run_eq : hub = ((start.run earlier).perform (.receive index txChannel frame)).run between :=
    run_append start earlier _
  have boundNow : hub.Bound index peer := by
    rw [run_eq]
    exact bound.run (sound_perform soundBefore _) orderlyAfter used
  have filedNow : hub.pool.holds position peer = true := by
    rw [run_eq]
    exact holds_run filed between
  have identified := fresh.identified.run sound orderly
  obtain ⟨positions, entries, queued, connections, senders⟩ := hub.turn_queues other wake index
  refine ⟨positions, entries, ?_, queued, connections⟩
  intro member
  obtain ⟨routine, served, turns, rfl, sent⟩ := senders position member
  exact not_sent_of_holds turns identified boundNow filedNow sent

theorem no_echo_after_reuse :
    ∃ pool start, Pool.new {} Validator.acceptAll = .ok pool ∧
      Hub.new {} pool (.empty 2) = .ok start ∧
      let node : NodeId := ⟨Vector.replicate 32 1⟩
      let gone : NodeId := ⟨Vector.replicate 32 2⟩
      let next : NodeId := ⟨Vector.replicate 32 3⟩
      let frame := Message.encodePayload [97]
      let earlier : List Action := [.start, .openConnection gone 4, .addPeer 0,
        .openConnection node 4, .addPeer 1, .report node 1, .receive 0 txChannel frame]
      let between : List Action := [.disconnect 0, .removePeer gone "", .openConnection next 4,
        .addPeer 2, .resume 1 .launch]
      let entry : PoolEntry := { tx := ⟨[97]⟩, id := Tx.id ⟨[97]⟩, height := 0 }
      start.Orderly (earlier ++ .receive 1 txChannel frame :: between) ∧
        ((start.run earlier).receive 1 txChannel frame).answer =
          .error (.rejected (.alreadyPending entry.id)) ∧
        ((start.run earlier).perform (.receive 1 txChannel frame)).pool.entry 0 = .ready entry ∧
        let hub := start.run (earlier ++ .receive 1 txChannel frame :: between)
        hub.wakesOn 1 .entries = true ∧
        ∃ (positions : List Nat) (entries : List PoolEntry), 0 ∉ positions ∧
          positions.map hub.pool.entry = entries.map .ready ∧
          (hub.perform (.resume 1 .entries)).connections[1]? =
            hub.connections[1]?.map (fun connection =>
              { connection with
                queue := connection.queue ++ entries.map PoolEntry.frame }) := by
  refine ⟨_, _, rfl, rfl, ?orderly, ?known, ?live, ?wakes,
    no_echo ⟨{}, Validator.acceptAll, _, [], {}, .empty 2, rfl, rfl⟩ (Registry.reached_empty 2)
      ?orderly ⟨Array.getElem?_eq_getElem ?opened, ?decoded⟩ (Or.inr ?known) ?live rfl 1 .entries⟩
  case orderly => decide +kernel
  case known => decide +kernel
  case live => decide +kernel
  case wakes => decide +kernel
  case opened => decide +kernel
  case decoded => decide +kernel

end Hub

end VoteGossip
