import VoteGossip.Proofs.Gossip.Elsewhere

/-!
What a hub is to all nodes but one goes on by itself: what an action makes of it depends on nothing
but what is exposed of the action.
-/

set_option autoImplicit false

namespace VoteGossip.Hub

structure Standing (hub : Hub) : Prop where
  connected : hub.Connected
  attends : hub.Attends

theorem Standing.perform {hub : Hub} (standing : hub.Standing) (action : Action) :
    (hub.perform action).Standing :=
  ⟨standing.connected.perform action, standing.attends.perform action⟩

theorem Fresh.standing {start : Hub} (fresh : start.Fresh) : start.Standing :=
  ⟨fresh.connected, fresh.attends []⟩

variable {hub : Hub} {node other : NodeId} {index : Nat} {action : Action} {routine : Routine}
  {connection : Connection} {wake : Routine.Wake}

theorem Standing.run (standing : hub.Standing) (actions : List Action) :
    (hub.run actions).Standing := by
  induction actions generalizing hub with
  | nil => exact standing
  | cons action later ih => exact ih (standing.perform action)

theorem connection_elsewhere (hub : Hub) (node : NodeId) (index : Nat) :
    (hub.elsewhere node).connections[index]? =
      hub.connections[index]?.map (Connection.masked node) := Array.getElem?_map

theorem servesOther_eq (opened : hub.connections[routine.connection]? = some connection) :
    hub.servesOther node routine = (connection.node != node) := by
  rw [servesOther, opened, Option.any_some]

/-- Where connections lead is settled, so it never changes who a routine is for. -/
theorem servesOther_perform (within : routine.connection < hub.connections.size)
    (action : Action) :
    (hub.perform action).servesOther node routine = hub.servesOther node routine := by
  obtain ⟨later, laterOpened, continues⟩ :=
    continues_perform (Array.getElem?_eq_getElem within) action
  rw [servesOther_eq laterOpened, servesOther_eq (Array.getElem?_eq_getElem within),
    continues.node_eq]

theorem connection_lt_of_perform (connected : hub.Connected)
    (found : (hub.perform action).routines[index]? = some routine) :
    routine.connection < hub.connections.size := by
  rcases routine_perform found with ⟨phase, before⟩ | ⟨_, connection, opened, _⟩
  · exact connected index { routine with phase } before
  · exact (Array.getElem?_eq_some_iff.mp opened).1

theorem servesOther_of_mem (connected : hub.Connected)
    (member : routine ∈ (hub.perform action).routines.toList) :
    (hub.perform action).servesOther node routine = hub.servesOther node routine := by
  obtain ⟨index, found⟩ := List.mem_iff_getElem?.mp member
  rw [Array.getElem?_toList] at found
  exact servesOther_perform (connection_lt_of_perform connected found) action

theorem place?_perform (connected : hub.Connected) (action : Action) :
    (hub.perform action).place? node =
      Selection.place? (hub.servesOther node) (hub.perform action).routines.toList :=
  funext (Selection.place?_congr fun _routine => servesOther_of_mem connected)

theorem elsewhere_perform_eq (connected : hub.Connected) (action : Action) :
    (hub.perform action).elsewhere node =
      { config := (hub.perform action).config
        pool := (hub.perform action).pool
        heights := (hub.perform action).heights.forget node
        registry := (hub.perform action).registry
        started := (hub.perform action).started
        shutdown := (hub.perform action).shutdown
        connections := (hub.perform action).connections.map (Connection.masked node)
        routines := (hub.perform action).routines.toList.filter (hub.servesOther node)
        serving := fun other =>
          if other = node then none
          else (hub.perform action).serving[other]?.bind
            (Selection.place? (hub.servesOther node) (hub.perform action).routines.toList) } := by
  rw [elsewhere, place?_perform connected,
    List.filter_congr fun _routine => servesOther_of_mem connected]

/-! ### Connections -/

theorem masked_modify_of_leads (leads : hub.LeadsTo index node) {change : Connection → Connection}
    (keeps : ∀ connection, (change connection).node = connection.node) :
    (hub.connections.modify index change).map (Connection.masked node) =
      hub.connections.map (Connection.masked node) := by
  obtain ⟨connection, opened, same⟩ := leads
  apply Array.ext_getElem?
  intro place
  rw [Array.getElem?_map, Array.getElem?_map, Array.getElem?_modify]
  split
  · rename_i here
    rw [← here, opened, Option.map_some, Option.map_some, Option.map_some,
      Connection.masked_of_node same, Connection.masked_of_node ((keeps connection).trans same)]
  · rfl

theorem masked_modify_of_not_leads (leads : ¬ hub.LeadsTo index node)
    {change : Connection → Connection}
    (keeps : ∀ connection, (change connection).node = connection.node) :
    (hub.connections.modify index change).map (Connection.masked node) =
      (hub.connections.map (Connection.masked node)).modify index change := by
  apply Array.ext_getElem?
  intro place
  rw [Array.getElem?_map, Array.getElem?_modify, Array.getElem?_modify, Array.getElem?_map]
  split
  · rename_i here
    cases opened : hub.connections[place]? with
    | none => rfl
    | some connection =>
        have different : connection.node ≠ node := by
          intro same
          rw [← here] at opened
          exact leads ⟨connection, opened, same⟩
        rw [Option.map_some, Option.map_some, Option.map_some, Option.map_some,
          Connection.masked_of_other different,
          Connection.masked_of_other fun same => different ((keeps connection).symm.trans same)]
  · rfl

theorem elsewhere_withConnection (connected : hub.Connected) {change : Connection → Connection}
    (performed : hub.perform action = hub.withConnection index change)
    (keeps : ∀ connection, (change connection).node = connection.node) :
    (hub.perform action).elsewhere node =
      if hub.LeadsTo index node then hub.elsewhere node
      else (hub.elsewhere node).withConnection index change := by
  rw [elsewhere_perform_eq connected, performed]
  change ({ hub.elsewhere node with
    connections := (hub.connections.modify index change).map (Connection.masked node) } :
      Elsewhere) = _
  split
  · rename_i leads
    rw [masked_modify_of_leads leads keeps]
    rfl
  · rename_i leads
    rw [masked_modify_of_not_leads leads keeps]
    rfl

theorem elsewhere_openConnection (connected : hub.Connected) (other : NodeId) (capacity : Nat) :
    (hub.perform (.openConnection other capacity)).elsewhere node =
      (hub.elsewhere node).operate node
        (.openConnection other (if other = node then 0 else capacity)) := by
  have opened : (hub.connections.push (.new other capacity)).map (Connection.masked node) =
      (hub.connections.map (Connection.masked node)).push
        (.new other (if other = node then 0 else capacity)) := by
    rw [Array.map_push]
    by_cases same : other = node
    · rw [if_pos same, same]
      exact congrArg _ (Connection.masked_of_node rfl)
    · rw [if_neg same]
      exact congrArg _ (Connection.masked_of_other same)
  rw [elsewhere_perform_eq connected]
  change ({ hub.elsewhere node with
    connections := (hub.connections.push (.new other capacity)).map (Connection.masked node) } :
      Elsewhere) = _
  rw [opened]
  rfl

/-! ### Registering -/

theorem place?_of_attends (attends : hub.Attends) (different : other ≠ node) {serving : Nat}
    (served : hub.serving[other]? = some serving) :
    ∃ place routine, hub.place? node serving = some place ∧
      hub.routines[serving]? = some routine ∧
      (hub.elsewhere node).routines[place]? = some routine := by
  obtain ⟨routine, found, connection, opened, leads⟩ := attends other serving served
  have selected : hub.servesOther node routine = true := by
    rw [servesOther_eq opened, leads]
    exact bne_iff_ne.mpr different
  have listed : hub.routines.toList[serving]? = some routine := by
    rw [Array.getElem?_toList, found]
  refine ⟨Selection.place (hub.servesOther node) hub.routines.toList serving, routine, ?_, found,
    Selection.getElem?_filter listed selected⟩
  simp only [place?, Selection.place?, listed, if_pos selected]

theorem isServed_elsewhere (attends : hub.Attends) (different : other ≠ node) :
    (hub.elsewhere node).isServed other = hub.isServed other := by
  have serving_eq : (hub.elsewhere node).serving other =
      hub.serving[other]?.bind (hub.place? node) := if_neg different
  unfold Elsewhere.isServed isServed isAlive
  rw [serving_eq]
  cases served : hub.serving[other]? with
  | none => rfl
  | some serving =>
      obtain ⟨place, routine, placed, found, foundElsewhere⟩ :=
        place?_of_attends attends different served
      simp only [Option.bind_some, placed, Option.any_some, foundElsewhere, found]

/-- A new routine moves none of the others. -/
theorem place?_push (attends : hub.Attends) (created : Routine) {serving : Nat}
    (served : hub.serving[other]? = some serving) :
    Selection.place? (hub.servesOther node) (hub.routines.push created).toList serving =
      hub.place? node serving := by
  obtain ⟨routine, found, _⟩ := attends other serving served
  rw [Array.toList_push]
  exact Selection.place?_append (Array.getElem?_eq_some_iff.mp found).1 [created]

theorem routines_launch (created : Routine) :
    (hub.routines.push created).toList.filter (hub.servesOther node) =
      (hub.elsewhere node).routines ++ if hub.servesOther node created then [created] else [] := by
  rw [Array.toList_push, List.filter_append]
  by_cases selected : hub.servesOther node created = true
  · rw [if_pos selected, List.filter_cons_of_pos selected]
    rfl
  · rw [if_neg selected, List.filter_cons_of_neg selected]
    rfl

theorem serving_launch (attends : hub.Attends) (created : Routine) :
    (fun other => if other = node then none
      else (hub.serving.insert connection.node hub.routines.size)[other]?.bind
        (Selection.place? (hub.servesOther node) (hub.routines.push created).toList)) =
      if connection.node = node then (hub.elsewhere node).serving
      else Function.update (hub.elsewhere node).serving connection.node
        (if hub.servesOther node created then some (hub.elsewhere node).routines.length
          else none) := by
  have nobody : (hub.elsewhere node).serving node = none := if_pos rfl
  have others : ∀ other, other ≠ connection.node → other ≠ node →
      (hub.serving.insert connection.node hub.routines.size)[other]?.bind
        (Selection.place? (hub.servesOther node) (hub.routines.push created).toList) =
          (hub.elsewhere node).serving other := by
    intro other elsewhere different
    change _ = if other = node then none else hub.serving[other]?.bind (hub.place? node)
    rw [Std.ExtTreeMap.getElem?_insert, if_neg different,
      if_neg fun same => elsewhere (Std.compare_eq_iff_eq.mp same).symm]
    cases served : hub.serving[other]? with
    | none => rfl
    | some serving => exact place?_push attends created served
  funext other
  by_cases away : other = node
  · subst away
    rw [if_pos rfl]
    split
    · exact nobody.symm
    · rename_i leads
      rw [Function.update_of_ne (Ne.symm leads), nobody]
  · rw [if_neg away]
    by_cases here : other = connection.node
    · subst here
      rw [if_neg away, Function.update_self, Std.ExtTreeMap.getElem?_insert_self,
        Array.toList_push]
      change Selection.place? _ (hub.routines.toList ++ [created]) hub.routines.toList.length = _
      rw [Selection.place?_length]
      rfl
    · rw [others other here away]
      split
      · rfl
      · rw [Function.update_of_ne here]

theorem elsewhere_launch (standing : hub.Standing) {peer : PeerId} {registry : Registry}
    (opened : hub.connections[index]? = some connection)
    (performed : hub.perform action =
      ({ hub with registry } : Hub).launch connection.node index peer) :
    (hub.perform action).elsewhere node =
      if connection.node = node then { hub.elsewhere node with registry }
      else
        { hub.elsewhere node with
          registry
          routines := (hub.elsewhere node).routines ++
            [{ connection := index, peer, phase := .launching }]
          serving := Function.update (hub.elsewhere node).serving connection.node
            (hub.elsewhere node).routines.length } := by
  let created : Routine := { connection := index, peer, phase := .launching }
  have selected : hub.servesOther node created = (connection.node != node) := servesOther_eq opened
  rw [elsewhere_perform_eq standing.connected, performed]
  change ({ hub.elsewhere node with
    registry
    routines := (hub.routines.push created).toList.filter (hub.servesOther node)
    serving := fun other =>
      if other = node then none
      else (hub.serving.insert connection.node hub.routines.size)[other]?.bind
        (Selection.place? (hub.servesOther node) (hub.routines.push created).toList) } :
      Elsewhere) = _
  rw [routines_launch, serving_launch standing.attends, selected]
  by_cases leads : connection.node = node
  · have unselected : ¬ (connection.node != node) = true := fun different =>
      bne_iff_ne.mp different leads
    rw [if_pos leads, if_pos leads, if_neg unselected, List.append_nil]
  · have other : (connection.node != node) = true := bne_iff_ne.mpr leads
    rw [if_neg leads, if_neg leads, if_pos other, if_pos other]

theorem addPeer_eq {peer : PeerId} {registry : Registry}
    (opened : hub.connections[index]? = some connection)
    (reserved : hub.registry.reserve connection.node = .ok (peer, registry)) :
    (hub.addPeer index).hub =
      if !hub.config.broadcast || !hub.isRunning || hub.isServed connection.node then
        { hub with registry }
      else ({ hub with registry } : Hub).launch connection.node index peer := by
  unfold addPeer
  simp only [opened, reserved]
  change (if !hub.config.broadcast || !hub.isRunning then _
    else if hub.isServed connection.node then _ else _ : Reply _).hub = _
  by_cases silent : (!hub.config.broadcast || !hub.isRunning) = true
  · rw [if_pos silent, silent, Bool.true_or, if_pos rfl]
  · rw [if_neg silent, (Bool.not_eq_true _).mp silent, Bool.false_or]
    split <;> rfl

theorem elsewhere_addPeer (standing : hub.Standing) (index : Nat) :
    (hub.perform (.addPeer index)).elsewhere node = (hub.elsewhere node).addPeer node index := by
  unfold Elsewhere.addPeer
  rw [connection_elsewhere]
  cases opened : hub.connections[index]? with
  | none =>
      have performed : hub.perform (.addPeer index) = hub := by
        change (hub.addPeer index).hub = hub
        simp only [addPeer, opened]
      rw [performed]
      rfl
  | some connection =>
      dsimp only [Option.map_some]
      rw [Connection.node_masked]
      have asked : (hub.elsewhere node).registry.reserve connection.node =
        hub.registry.reserve connection.node := rfl
      rw [asked]
      cases reserved : hub.registry.reserve connection.node with
      | error refusal =>
          have performed : hub.perform (.addPeer index) = hub := by
            change (hub.addPeer index).hub = hub
            simp only [addPeer, opened, reserved]
          rw [performed]
      | ok registration =>
          obtain ⟨peer, registry⟩ := registration
          have performed : hub.perform (.addPeer index) = _ := addPeer_eq opened reserved
          change _ = if connection.node = node || !hub.config.broadcast || !hub.isRunning ||
            (hub.elsewhere node).isServed connection.node then _ else _
          by_cases stays : (!hub.config.broadcast || !hub.isRunning ||
              hub.isServed connection.node) = true
          · rw [if_pos stays] at performed
            rw [performed]
            by_cases leads : connection.node = node
            · rw [if_pos (by simp only [leads, decide_true, Bool.true_or])]
              rfl
            · rw [isServed_elsewhere standing.attends leads, decide_eq_false leads, Bool.false_or,
                if_pos stays]
              rfl
          · rw [if_neg stays] at performed
            rw [elsewhere_launch standing opened performed]
            by_cases leads : connection.node = node
            · rw [if_pos leads, if_pos (by simp only [leads, decide_true, Bool.true_or])]
            · rw [if_neg leads, isServed_elsewhere standing.attends leads, decide_eq_false leads,
                Bool.false_or, if_neg stays]

theorem serving_retire (hub : Hub) (gone other : NodeId) :
    (hub.retire gone).serving[other]? = if other = gone then none else hub.serving[other]? := by
  unfold retire
  cases served : hub.serving[gone]? with
  | none =>
      by_cases same : other = gone
      · rw [if_pos same, same]
        exact served
      · rw [if_neg same]
  | some serving =>
      change (hub.serving.erase gone)[other]? = _
      exact TreeMap.getElem?_erase_eq hub.serving gone other

theorem elsewhere_removePeer (connected : hub.Connected) (gone : NodeId) (reason : String) :
    (hub.perform (.removePeer gone reason)).elsewhere node =
      (hub.elsewhere node).operate node (.removePeer gone reason) := by
  let reclaimed : Hub := { hub with registry := (hub.registry.reclaim gone).2 }
  have performed : hub.perform (.removePeer gone reason) =
      { reclaimed with
        serving := (reclaimed.retire gone).serving
        retired := (reclaimed.retire gone).retired } := by
    change reclaimed.retire gone = _
    unfold retire
    split <;> rfl
  have serving : (fun other => if other = node then none
      else (reclaimed.retire gone).serving[other]?.bind (hub.place? node)) =
        Function.update (hub.elsewhere node).serving gone none := by
    funext other
    rw [serving_retire]
    by_cases same : other = gone
    · subst same
      rw [if_pos rfl, Function.update_self]
      split <;> rfl
    · rw [if_neg same, Function.update_of_ne same]
      rfl
  rw [elsewhere_perform_eq connected, performed]
  change ({ hub.elsewhere node with
    registry := (hub.registry.reclaim gone).2
    serving := fun other => if other = node then none
      else (reclaimed.retire gone).serving[other]?.bind (hub.place? node) } : Elsewhere) = _
  rw [serving]
  rfl

/-! ### Frames that come in -/

theorem elsewhere_receive (connected : hub.Connected) (index : Nat) (channel : UInt8)
    (frame : List UInt8) :
    (hub.perform (.receive index channel frame)).elsewhere node =
      (hub.elsewhere node).receive node index channel frame := by
  have received : hub.perform (.receive index channel frame) =
    (hub.receive index channel frame).hub := rfl
  unfold Hub.receive at received
  unfold Elsewhere.receive
  rw [connection_elsewhere]
  cases opened : hub.connections[index]? with
  | none =>
      simp only [opened] at received
      rw [received]
      rfl
  | some connection =>
      simp only [opened] at received
      dsimp only [Option.map_some]
      by_cases elsewhere : channel ≠ txChannel
      · rw [if_pos elsewhere] at received ⊢
        rw [received]
      · rw [if_neg elsewhere] at received ⊢
        have read : (Codec.mk (hub.elsewhere node).config.maxMessageBytes).decode frame =
          (Codec.mk hub.config.maxMessageBytes).decode frame := rfl
        rw [read]
        cases decoded : (Codec.mk hub.config.maxMessageBytes).decode frame with
        | error cause =>
            simp only [decoded] at received
            rw [elsewhere_withConnection connected received fun _ => rfl, Connection.node_masked]
            have leads : hub.LeadsTo index node ↔ connection.node = node := by
              rw [LeadsTo, opened]
              simp only [Option.some.injEq, exists_eq_left']
            simp only [leads]
        | ok message =>
            cases message with
            | unknown messageType =>
                simp only [decoded] at received
                rw [received]
            | tx vote =>
                simp only [decoded, submitFrom_hub] at received
                rw [received, Connection.node_masked]
                rfl

/-! ### Turns -/

theorem place?_turn (node : NodeId) (connected : hub.Connected)
    (turns : hub.Turns index wake routine connection) :
    (hub.perform (.resume index wake)).place? node = hub.place? node := by
  obtain ⟨phase, turned⟩ := routine.resume_routine hub.view connection wake
  have listed : hub.routines.toList[index]? = some routine := by
    rw [Array.getElem?_toList, turns.routine_at]
  have still : hub.servesOther node (routine.resume hub.view connection wake).routine =
      hub.servesOther node routine := by
    rw [turned]
    rfl
  rw [place?_perform connected, turns.perform_eq]
  dsimp only
  rw [Array.toList_setIfInBounds]
  exact funext (Selection.place?_set listed still)

theorem elsewhere_turn_eq (connected : hub.Connected)
    (turns : hub.Turns index wake routine connection) :
    (hub.perform (.resume index wake)).elsewhere node =
      { hub.elsewhere node with
        connections := (hub.connections.setIfInBounds routine.connection
          (routine.resume hub.view connection wake).connection).map (Connection.masked node)
        routines := (hub.routines.toList.set index
          (routine.resume hub.view connection wake).routine).filter (hub.servesOther node) } := by
  have places := place?_turn node connected turns
  rw [place?_perform connected] at places
  rw [elsewhere_perform_eq connected, places, turns.perform_eq]
  dsimp only
  rw [Array.toList_setIfInBounds]
  rfl

theorem elsewhere_turn_of_node (connected : hub.Connected)
    (turns : hub.Turns index wake routine connection) (leads : connection.node = node) :
    hub.place? node index = none ∧
      (hub.perform (.resume index wake)).elsewhere node = hub.elsewhere node := by
  obtain ⟨phase, turned⟩ := routine.resume_routine hub.view connection wake
  have continues := (Connection.Becomes.resume routine hub.view connection wake).continues
  have listed : hub.routines.toList[index]? = some routine := by
    rw [Array.getElem?_toList, turns.routine_at]
  have unselected : hub.servesOther node routine = false := by
    rw [servesOther_eq turns.connection_at, leads, bne_self_eq_false]
  have still : hub.servesOther node (routine.resume hub.view connection wake).routine = false := by
    rw [turned]
    exact unselected
  have masked : (hub.connections.setIfInBounds routine.connection
      (routine.resume hub.view connection wake).connection).map (Connection.masked node) =
        hub.connections.map (Connection.masked node) := by
    apply Array.ext_getElem?
    intro place
    rw [Array.getElem?_map, Array.getElem?_map, Array.getElem?_setIfInBounds]
    split
    · rename_i here
      have within := (Array.getElem?_eq_some_iff.mp turns.connection_at).1
      rw [if_pos within, ← here, turns.connection_at, Option.map_some, Option.map_some,
        Connection.masked_of_node leads,
        Connection.masked_of_node (continues.node_eq.trans leads)]
    · rfl
  constructor
  · simp only [place?, Selection.place?, listed, unselected, Bool.false_eq_true, if_false]
  · rw [elsewhere_turn_eq connected turns, masked,
      Selection.filter_set_of_neg listed unselected still]
    rfl

theorem elsewhere_turn_of_other (connected : hub.Connected)
    (turns : hub.Turns index wake routine connection) (leads : connection.node ≠ node) :
    ∃ place, hub.place? node index = some place ∧
      (hub.perform (.resume index wake)).elsewhere node =
        (hub.elsewhere node).turn place wake hub.now := by
  obtain ⟨phase, turned⟩ := routine.resume_routine hub.view connection wake
  have continues := (Connection.Becomes.resume routine hub.view connection wake).continues
  have listed : hub.routines.toList[index]? = some routine := by
    rw [Array.getElem?_toList, turns.routine_at]
  have selected : hub.servesOther node routine = true := by
    rw [servesOther_eq turns.connection_at]
    exact bne_iff_ne.mpr leads
  have still : hub.servesOther node (routine.resume hub.view connection wake).routine = true := by
    rw [turned]
    exact selected
  have masked : (hub.connections.setIfInBounds routine.connection
      (routine.resume hub.view connection wake).connection).map (Connection.masked node) =
        (hub.connections.map (Connection.masked node)).setIfInBounds routine.connection
          (routine.resume hub.view connection wake).connection := by
    rw [Array.map_setIfInBounds, Connection.masked_of_other]
    exact fun same => leads (continues.node_eq.symm.trans same)
  have foundElsewhere := Selection.getElem?_filter listed selected
  have openedElsewhere : (hub.elsewhere node).connections[routine.connection]? =
      some connection := by
    rw [connection_elsewhere, turns.connection_at, Option.map_some,
      Connection.masked_of_other leads]
  -- The routine asks for no height of the node, so it cannot tell that they were forgotten.
  have alike : routine.resume { hub.view with heights := hub.heights.forget node } connection wake =
      routine.resume hub.view connection wake :=
    Routine.resume_withHeights (Heights.reported?_forget hub.heights leads)
  change routine.resume ((hub.elsewhere node).view hub.now) connection wake = _ at alike
  refine ⟨Selection.place (hub.servesOther node) hub.routines.toList index, ?_, ?_⟩
  · simp only [place?, Selection.place?, listed, if_pos selected]
  · rw [elsewhere_turn_eq connected turns, masked,
      Selection.filter_set_of_pos listed selected still]
    unfold Elsewhere.turn
    have placed : (hub.elsewhere node).routines[Selection.place (hub.servesOther node)
      hub.routines.toList index]? = some routine := foundElsewhere
    rw [placed]
    dsimp only
    rw [openedElsewhere]
    dsimp only
    rw [alike]
    rfl

/-! ### Everything -/

theorem elsewhere_perform (standing : hub.Standing) (action : Action) :
    (hub.perform action).elsewhere node =
      (hub.exposed? node action).elim (hub.elsewhere node)
        ((hub.elsewhere node).perform node) := by
  have connected := standing.connected
  have on : ∀ {index change}, hub.perform action = hub.withConnection index change →
      (∀ connection : Connection, (change connection).node = connection.node) →
      (hub.elsewhere node).operate node action = (hub.elsewhere node).withConnection index change →
      hub.exposed? node action =
        (if hub.LeadsTo index node then none else some (.operation action)) →
      (hub.perform action).elsewhere node =
        (hub.exposed? node action).elim (hub.elsewhere node)
          ((hub.elsewhere node).perform node) := by
    intro index change performed keeps operated exposed
    rw [elsewhere_withConnection connected performed keeps, exposed, ← operated]
    split <;> rfl
  cases action with
  | start | submit | update | flush | addHolder => exact elsewhere_perform_eq connected _
  | clock now => exact elsewhere_perform_eq connected _
  | stop =>
      have nobody : (fun other : NodeId => if other = node then none
          else (∅ : Std.ExtTreeMap NodeId Nat)[other]?.bind (hub.place? node)) =
            fun _ => none := by
        funext other
        rw [Std.ExtTreeMap.getElem?_empty]
        split <;> rfl
      rw [elsewhere_perform_eq connected]
      change ({ hub.elsewhere node with
        started := false
        shutdown := true
        serving := fun other => if other = node then none
          else (∅ : Std.ExtTreeMap NodeId Nat)[other]?.bind (hub.place? node) } : Elsewhere) = _
      rw [nobody]
      rfl
  | openConnection other capacity => exact elsewhere_openConnection connected other capacity
  | addPeer index => exact elsewhere_addPeer standing index
  | removePeer other reason => exact elsewhere_removePeer connected other reason
  | receive index channel frame => exact elsewhere_receive connected index channel frame
  | report other height =>
      rw [elsewhere_perform_eq connected]
      change ({ hub.elsewhere node with
        heights := (hub.heights.report other height).forget node } : Elsewhere) =
          (if other = node then none else some (Exposure.operation (.report other height))).elim _ _
      by_cases same : other = node
      · rw [if_pos same, same, Heights.forget_report_self]
        rfl
      · rw [if_neg same, Heights.forget_report _ same]
        rfl
  | forget other =>
      rw [elsewhere_perform_eq connected]
      change ({ hub.elsewhere node with
        heights := (hub.heights.forget other).forget node } : Elsewhere) =
          (if other = node then none else some (Exposure.operation (.forget other))).elim _ _
      by_cases same : other = node
      · rw [if_pos same, same, Heights.forget_self]
        rfl
      · rw [if_neg same, Heights.forget_comm]
        rfl
  | send index frame =>
      exact on rfl (fun connection =>
        (Connection.Becomes.trySend connection frame).continues.node_eq) rfl rfl
  | drain | dropReceiver | disconnect | stopForError => exact on rfl (fun _ => rfl) rfl rfl
  | resume index wake =>
      change _ = (if hub.wakesOn index wake then
        (hub.place? node index).map fun place => Exposure.turn place wake hub.now
        else none).elim _ _
      by_cases wakes : hub.wakesOn index wake = true
      · obtain ⟨routine, connection, turns⟩ := turns_of_wakesOn wakes
        rw [if_pos wakes]
        by_cases leads : connection.node = node
        · obtain ⟨unplaced, same⟩ := elsewhere_turn_of_node connected turns leads
          rw [unplaced, same]
          rfl
        · obtain ⟨place, placed, turned⟩ := elsewhere_turn_of_other connected turns leads
          rw [placed, turned]
          rfl
      · have performed : hub.perform (.resume index wake) = hub := if_neg wakes
        rw [if_neg wakes, performed]
        rfl

/-- What a run makes of the hub, apart from the node, follows from what is exposed of it. -/
theorem elsewhere_run (standing : hub.Standing) (node : NodeId) (actions : List Action) :
    (hub.run actions).elsewhere node =
      (hub.exposures node actions).foldl (Elsewhere.perform node) (hub.elsewhere node) := by
  induction actions generalizing hub with
  | nil => rfl
  | cons action later ih =>
      change ((hub.perform action).run later).elsewhere node = _
      rw [ih (standing.perform action), elsewhere_perform standing, exposures, List.foldl_append]
      cases hub.exposed? node action <;> rfl

theorem exposures_append (hub : Hub) (node : NodeId) (earlier later : List Action) :
    hub.exposures node (earlier ++ later) =
      hub.exposures node earlier ++ (hub.run earlier).exposures node later := by
  induction earlier generalizing hub with
  | nil => rfl
  | cons action rest ih =>
      change _ ++ (hub.perform action).exposures node (rest ++ later) = (_ ++ _) ++ _
      rw [ih, List.append_assoc]
      rfl

end VoteGossip.Hub
