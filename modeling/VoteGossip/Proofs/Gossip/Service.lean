import VoteGossip.Proofs.Gossip.Settling
import VoteGossip.Proofs.Gossip.Shutdown

/-!
Who gets gossip. While gossip runs, a node that was added is served until it is removed: by a
routine for the connection that it was added with or, if the node was being served on an open
connection by then, by the routine of that one. A routine that serves ends only when its own
connection quits.

A node that comes with a second connection while its first one is open keeps the routine of the
first, so there may be a connection without a routine. Nothing is promised to a node that comes back
when its connection has quit and the routine has not run since. No routine is created then, the old
one ends as soon as it runs, and the node may be served by nobody.
-/

set_option autoImplicit false

namespace VoteGossip

theorem Routine.unfinished_of_goesOn (routine : Routine) {view : View} {connection : Connection}
    {wake : Wake} (goesOn : view.cancels connection = false)
    (wakes : routine.wakesOn view connection wake = true) :
    (routine.resume view connection wake).routine.isFinished = false := by
  have endless : ¬ view.cancels connection = true := (Bool.not_eq_true _).mpr goesOn
  have restarted : (routine.restart view connection).routine.isFinished = false := by
    rw [restart, if_neg endless]
    rfl
  have visited : ∀ position,
      (routine.visit view connection position).routine.isFinished = false := by
    intro position
    have visit := visit_cases routine view connection position
    generalize routine.visit view connection position = turn at visit
    cases visit with
    | lost gone => exact restarted
    | sent | held | notReady | behind | refused | skipped => rfl
  unfold wakesOn at wakes
  unfold resume
  cases phase : routine.phase <;> cases wake <;> rw [phase] at wakes
  case launching.launch => exact restarted
  case awaitingEntries.entries =>
    cases front : view.pool.front with
    | none => exact restarted
    | some position => exact visited position
  case awaitingSuccessor.successor position =>
    simp only [proceed, if_neg endless]
    exact visited (position + 1)
  case pausing.timer position wakeAt =>
    simp only [proceed, if_neg endless]
    exact visited position
  case awaitingEntries.cancellation | awaitingSuccessor.cancellation | pausing.cancellation =>
    rw [goesOn] at wakes
    cases wakes
  all_goals cases wakes

namespace Hub

variable {hub start : Hub} {index serving : Nat} {node : NodeId} {action : Action}
  {actions before later : List Action}

theorem shutdown_perform (shutdown : hub.shutdown = true) (action : Action) :
    (hub.perform action).shutdown = true := by
  have changed := hub.custody action
  generalize hub.perform action = after at changed
  cases changed with
  | kept serving_eq retired_eq shutdown_eq => exact shutdown_eq.trans shutdown
  | launched connection routine running unserved assigned routines_eq serving_eq retired_eq
      shutdown_eq => exact shutdown_eq.trans shutdown
  | retired gone reason retiring served serving_eq retired_eq shutdown_eq =>
      exact shutdown_eq.trans shutdown
  | released => rfl

theorem shutdown_run (shutdown : hub.shutdown = true) (actions : List Action) :
    (hub.run actions).shutdown = true := by
  induction actions generalizing hub with
  | nil => exact shutdown
  | cons action later ih => exact ih (shutdown_perform shutdown action)

/-- What has finished had to: gossip was stopped, or the connection has quit. -/
def EndsForCause (hub : Hub) : Prop :=
  ∀ (index : Nat) (routine : Routine), hub.routines[index]? = some routine →
    routine.isFinished = true → hub.shutdown = true ∨
      ∃ connection, hub.connections[routine.connection]? = some connection ∧ connection.quit = true

theorem EndsForCause.perform (cause : hub.EndsForCause) (action : Action) :
    (hub.perform action).EndsForCause := by
  intro index routine found finished
  have later : (hub.shutdown = true ∨ ∃ connection,
      hub.connections[routine.connection]? = some connection ∧ connection.quit = true) →
      (hub.perform action).shutdown = true ∨ ∃ connection,
        (hub.perform action).connections[routine.connection]? = some connection ∧
          connection.quit = true := by
    intro reason
    rcases reason with shutdown | ⟨connection, opened, quit⟩
    · exact Or.inl (shutdown_perform shutdown action)
    · obtain ⟨next, nextOpened, continues⟩ := continues_perform opened action
      exact Or.inr ⟨next, nextOpened, continues.quit quit⟩
  apply later
  cases past found with
  | still same quiet => exact cause index routine same finished
  | unborn absent launching =>
      rw [Routine.isFinished, launching] at finished
      cases finished
  | turned wake earlier connection acted turns routine_eq =>
      rw [routine_eq] at finished
      have cancels : hub.view.cancels connection = true := by
        rw [← Bool.not_eq_false]
        intro goesOn
        rw [earlier.unfinished_of_goesOn goesOn turns.wakes] at finished
        cases finished
      obtain ⟨phase, turned⟩ := earlier.resume_routine hub.view connection wake
      rw [routine_eq, turned]
      rcases (Bool.or_eq_true _ _).mp cancels with shutdown | quit
      · exact Or.inl shutdown
      · exact Or.inr ⟨connection, turns.connection_at, quit⟩

theorem Fresh.endsForCause (fresh : start.Fresh) (actions : List Action) :
    (start.run actions).EndsForCause := by
  induction actions using List.reverseRecOn with
  | nil =>
      intro index routine found
      change start.routines[index]? = some routine at found
      rw [fresh.routines_eq] at found
      cases found
  | append_singleton earlier last ih =>
      rw [run_snoc]
      exact ih.perform last

theorem Fresh.unfinished_of_open (fresh : start.Fresh)
    (running : (start.run actions).isRunning = true) {routine : Routine} {connection : Connection}
    (found : (start.run actions).routines[serving]? = some routine)
    (opened : (start.run actions).connections[routine.connection]? = some connection)
    (lasts : connection.quit = false) : routine.isFinished = false := by
  rw [← Bool.not_eq_true]
  intro finished
  rcases fresh.endsForCause _ serving routine found finished with shutdown | ⟨same, its, quit⟩
  · rw [isRunning, shutdown, Bool.not_true, Bool.and_false] at running
    cases running
  · rw [opened] at its
    cases its
    rw [lasts] at quit
    cases quit

def LeadsTo (hub : Hub) (index : Nat) (node : NodeId) : Prop :=
  ∃ connection, hub.connections[index]? = some connection ∧ connection.node = node

instance (hub : Hub) (index : Nat) (node : NodeId) : Decidable (hub.LeadsTo index node) :=
  decidable_of_iff (hub.connections[index]?.map Connection.node = some node)
    Option.map_eq_some_iff

theorem LeadsTo.perform (leads : hub.LeadsTo index node) (action : Action) :
    (hub.perform action).LeadsTo index node := by
  obtain ⟨connection, opened, same⟩ := leads
  obtain ⟨later, laterOpened, continues⟩ := continues_perform opened action
  exact ⟨later, laterOpened, continues.node_eq.trans same⟩

theorem LeadsTo.run (leads : hub.LeadsTo index node) (actions : List Action) :
    (hub.run actions).LeadsTo index node := by
  obtain ⟨connection, opened, same⟩ := leads
  obtain ⟨later, laterOpened, continues⟩ := continues_run opened actions
  exact ⟨later, laterOpened, continues.node_eq.trans same⟩

/-- What serves a node is a routine on one of its connections. -/
def Attends (hub : Hub) : Prop :=
  ∀ (node : NodeId) (serving : Nat), hub.serving[node]? = some serving →
    ∃ routine, hub.routines[serving]? = some routine ∧ hub.LeadsTo routine.connection node

inductive Serving (before : Hub) (action : Action) (after : Hub) (node : NodeId) (serving : Nat) :
    Prop where
  | still (served : before.serving[node]? = some serving)
  | launched (index : Nat) (peer : PeerId) (acted : action = .addPeer index)
      (leads : before.LeadsTo index node) (unserved : before.isServed node = false)
      (found : after.routines[serving]? =
        some { connection := index, peer, phase := .launching })

theorem serving_cases (served : (hub.perform action).serving[node]? = some serving) :
    Serving hub action (hub.perform action) node serving := by
  by_cases added : ∃ index, action = .addPeer index
  · obtain ⟨index, rfl⟩ := added
    have admitted := hub.addPeer_cases index
    change (hub.addPeer index).hub.serving[node]? = some serving at served
    change Serving hub _ (hub.addPeer index).hub node serving
    generalize (hub.addPeer index).hub = after at admitted served ⊢
    cases admitted with
    | unopened | refused | registered => exact .still served
    | launched connection peer registry opened reserved running unserved =>
        change (hub.serving.insert connection.node hub.routines.size)[node]? = _ at served
        rw [Std.ExtTreeMap.getElem?_insert] at served
        split at served
        · rename_i same
          cases served
          cases Std.compare_eq_iff_eq.mp same
          refine .launched index peer rfl ⟨connection, opened, rfl⟩ unserved ?_
          exact Array.getElem?_push_size
        · exact .still served
  · have changed := hub.custody action
    generalize hub.perform action = after at changed served ⊢
    cases changed with
    | kept serving_eq =>
        rw [serving_eq] at served
        exact .still served
    | launched connection routine => exact absurd ⟨_, rfl⟩ added
    | retired gone reason retiring servedGone serving_eq =>
        rw [serving_eq, Std.ExtTreeMap.getElem?_erase] at served
        split at served
        · cases served
        · exact .still served
    | released =>
        change (∅ : Std.ExtTreeMap NodeId Nat)[node]? = some serving at served
        rw [Std.ExtTreeMap.getElem?_empty] at served
        cases served

theorem Attends.perform (attends : hub.Attends) (action : Action) :
    (hub.perform action).Attends := by
  intro node serving served
  cases serving_cases served with
  | still servedBefore =>
      obtain ⟨routine, found, leads⟩ := attends node serving servedBefore
      obtain ⟨phase, foundNow⟩ := routine_kept found action
      exact ⟨_, foundNow, leads.perform action⟩
  | launched index peer acted leads unserved found => exact ⟨_, found, leads.perform action⟩

theorem Fresh.attends (fresh : start.Fresh) (actions : List Action) :
    (start.run actions).Attends := by
  induction actions using List.reverseRecOn with
  | nil =>
      intro node serving served
      obtain ⟨routine, found, _⟩ := fresh.serves node serving served
      rw [fresh.routines_eq] at found
      cases found
  | append_singleton earlier last ih =>
      rw [run_snoc]
      exact ih.perform last

def Registers (hub : Hub) (node : NodeId) : Action → Prop
  | .addPeer index => hub.LeadsTo index node
  | .removePeer other _ => other = node
  | _ => False

theorem exists_serving_of_isServed (served : hub.isServed node = true) :
    ∃ serving routine, hub.serving[node]? = some serving ∧
      hub.routines[serving]? = some routine ∧ routine.isFinished = false := by
  unfold isServed at served
  split at served
  · rename_i serving found
    unfold isAlive at served
    split at served
    · rename_i routine there
      exact ⟨serving, routine, found, there, (Bool.not_eq_true' _).mp served⟩
    · cases served
  · cases served

/-- A node that is added while gossip runs is served from then on, unless the registry is full: by
what served it until then, if that has not finished, and else by a new routine. -/
theorem serving_of_addPeer (broadcast : hub.config.broadcast = true)
    (running : hub.isRunning = true) (leads : hub.LeadsTo index node)
    (registered : (hub.perform (.addPeer index)).registry.assigned[node]? ≠ none) :
    ∃ serving, (hub.perform (.addPeer index)).serving[node]? = some serving ∧
      ((hub.isServed node = true ∧ hub.serving[node]? = some serving) ∨
        (hub.isServed node = false ∧ ∃ peer, (hub.perform (.addPeer index)).routines[serving]? =
          some { connection := index, peer, phase := .launching })) := by
  obtain ⟨connection, opened, rfl⟩ := leads
  change (hub.addPeer index).hub.registry.assigned[connection.node]? ≠ none at registered
  change ∃ serving, (hub.addPeer index).hub.serving[connection.node]? = some serving ∧
    (_ ∨ _ ∧ ∃ peer, (hub.addPeer index).hub.routines[serving]? = _)
  unfold addPeer at registered ⊢
  cases reserved : hub.registry.reserve connection.node with
  | error refusal =>
      -- Only a node without a number is refused.
      simp only [opened, reserved] at registered
      unfold Registry.reserve at reserved
      split at reserved
      · cases reserved
      · rename_i unassigned
        exact absurd unassigned registered
  | ok registration =>
      obtain ⟨peer, registry⟩ := registration
      have runs : ({ hub with registry } : Hub).isRunning = true := running
      simp only [opened, reserved, broadcast, runs, Bool.not_true, Bool.or_self,
        Bool.false_eq_true, if_false]
      split
      · rename_i served
        change hub.isServed connection.node = true at served
        obtain ⟨serving, _, found, _⟩ := exists_serving_of_isServed served
        exact ⟨serving, found, Or.inl ⟨served, found⟩⟩
      · rename_i unserved
        change ¬ hub.isServed connection.node = true at unserved
        refine ⟨hub.routines.size, Std.ExtTreeMap.getElem?_insert_self, Or.inr ⟨?_, peer, ?_⟩⟩
        · exact (Bool.not_eq_true _).mp unserved
        · exact Array.getElem?_push_size

theorem serving_kept (served : hub.serving[node]? = some serving)
    (other : ¬ hub.Registers node action) (goesOn : action ≠ .stop) :
    (hub.perform action).serving[node]? = some serving := by
  by_cases added : ∃ index, action = .addPeer index
  · obtain ⟨index, rfl⟩ := added
    have admitted := hub.addPeer_cases index
    change (hub.addPeer index).hub.serving[node]? = some serving
    generalize (hub.addPeer index).hub = after at admitted
    cases admitted with
    | unopened | refused | registered => exact served
    | launched connection peer registry opened =>
        change (hub.serving.insert connection.node hub.routines.size)[node]? = _
        rw [Std.ExtTreeMap.getElem?_insert, if_neg, served]
        intro same
        exact other ⟨connection, opened, Std.compare_eq_iff_eq.mp same⟩
  · have changed := hub.custody action
    generalize hub.perform action = after at changed
    cases changed with
    | kept serving_eq => rw [serving_eq, served]
    | launched connection routine => exact absurd ⟨_, rfl⟩ added
    | retired gone reason retiring servedGone serving_eq =>
        rw [serving_eq, Std.ExtTreeMap.getElem?_erase, if_neg, served]
        intro same
        exact other (Std.compare_eq_iff_eq.mp same)
    | released => exact absurd rfl goesOn

theorem assigned_eq_of_not_registers (sound : hub.registry.Sound)
    (other : ¬ hub.Registers node action) :
    (hub.perform action).registry.assigned[node]? = hub.registry.assigned[node]? := by
  rw [registry_perform]
  cases action with
  | addPeer index =>
      cases opened : hub.connections[index]? with
      | none =>
          simp only [registryOperations, opened]
          rfl
      | some connection =>
          simp only [registryOperations, opened]
          apply sound.assigned_perform
          intro same
          cases same
          exact other ⟨connection, opened, rfl⟩
  | removePeer gone reason =>
      apply sound.assigned_perform (.reclaim gone)
      intro same
      cases same
      exact other rfl
  | _ => rfl

/-- The last time that a node was added or removed in a run, it was added, with this connection. -/
structure LastAdded (start : Hub) (actions : List Action) (node : NodeId) (index : Nat)
    (before later : List Action) : Prop where
  split : actions = before ++ .addPeer index :: later
  leads : (start.run before).LeadsTo index node
  last : ¬ Occurs (fun between action =>
    (start.run (before ++ .addPeer index :: between)).Registers node action) later

theorem kept_of_not_occurs (sound : hub.registry.Sound) (goesOn : .stop ∉ later)
    (quiet : ¬ Occurs (fun between action => (hub.run between).Registers node action) later) :
    (hub.run later).registry.assigned[node]? = hub.registry.assigned[node]? ∧
      ∀ serving, hub.serving[node]? = some serving →
        (hub.run later).serving[node]? = some serving := by
  induction later using List.reverseRecOn with
  | nil => exact ⟨rfl, fun _serving => id⟩
  | append_singleton earlier action ih =>
      rw [occurs_snoc, not_or] at quiet
      rw [List.mem_append, not_or, List.mem_singleton] at goesOn
      obtain ⟨number, routine⟩ := ih goesOn.1 quiet.1
      rw [run_snoc]
      constructor
      · exact (assigned_eq_of_not_registers (sound_run sound earlier) quiet.2).trans number
      · intro serving served
        exact serving_kept (routine serving served) quiet.2 (Ne.symm goesOn.2)

/-- The connection of the routine that serves a node. -/
def servingConnection? (hub : Hub) (node : NodeId) : Option Connection := do
  let serving ← hub.serving[node]?
  let routine ← hub.routines[serving]?
  hub.connections[routine.connection]?

/-- What serves the node has not finished, although its connection has quit. -/
def Lingers (hub : Hub) (node : NodeId) : Prop :=
  hub.isServed node = true ∧ (hub.servingConnection? node).any Connection.quit = true

instance (hub : Hub) (node : NodeId) : Decidable (hub.Lingers node) :=
  inferInstanceAs (Decidable (_ ∧ _))

/-- A node is served at the end of a run: on the connection that it was last added with or, if it
was being served when that happened, still on the connection of that time, which was open. -/
structure IsServedSince (start : Hub) (actions : List Action) (node : NodeId) (index : Nat)
    (before : List Action) (serving : Nat) (routine : Routine) (connection : Connection) :
    Prop where
  serves : (start.run actions).serving[node]? = some serving
  routine_at : (start.run actions).routines[serving]? = some routine
  number : (start.run actions).registry.assigned[node]? = some routine.peer
  connection_at : (start.run actions).connections[routine.connection]? = some connection
  leads : connection.node = node
  unfinished : connection.quit = false → routine.isFinished = false
  launched : (start.run before).isServed node = false → routine.connection = index
  kept : (start.run before).isServed node = true →
    (start.run before).serving[node]? = some serving ∧
      (start.run before).connections[routine.connection]?.map Connection.quit = some false

theorem routine_kept_run {routine : Routine} (found : hub.routines[serving]? = some routine)
    (later : List Action) :
    ∃ phase, (hub.run later).routines[serving]? = some { routine with phase } := by
  induction later generalizing hub routine with
  | nil => exact ⟨routine.phase, found⟩
  | cons action rest ih =>
      obtain ⟨between, keptBetween⟩ := routine_kept found action
      obtain ⟨phase, kept⟩ := ih keptBetween
      exact ⟨phase, kept⟩

/-- What serves a node was launched on one connection and stays there. If it does not linger, that
connection is open. -/
theorem Fresh.connection_open (fresh : start.Fresh)
    (settled : ¬ (start.run before).Lingers node)
    (served : (start.run before).isServed node = true)
    (serves : (start.run before).serving[node]? = some serving) {routine : Routine}
    (found : (start.run (before ++ later)).routines[serving]? = some routine) :
    (start.run before).connections[routine.connection]?.map Connection.quit = some false := by
  obtain ⟨earlier, foundEarlier, connection, opened, _⟩ := fresh.attends before node serving serves
  obtain ⟨phase, kept⟩ := routine_kept_run foundEarlier later
  rw [run_append, kept] at found
  cases found
  have its : (start.run before).servingConnection? node = some connection := by
    simp only [servingConnection?, serves, foundEarlier, Option.bind_eq_bind, Option.bind_some]
    exact opened
  rw [Lingers, its, Option.any_some, not_and, Bool.not_eq_true] at settled
  change (start.run before).connections[earlier.connection]?.map _ = _
  rw [opened, Option.map_some, settled served]

/-- Whatever else happens, a node that was added while gossip runs is served until it is removed,
and what serves it goes on until its own connection quits. This is said of a node that comes while
nothing lingers of an earlier connection. -/
theorem served_since_added (fresh : start.Fresh) (reached : start.registry.Reached)
    (broadcast : start.config.broadcast = true)
    (added : LastAdded start actions node index before later)
    (runningThen : (start.run before).isRunning = true)
    (running : (start.run actions).isRunning = true)
    (registered : (start.run actions).registry.assigned[node]? ≠ none)
    (settled : ¬ (start.run before).Lingers node) :
    ∃ serving routine connection,
      IsServedSince start actions node index before serving routine connection := by
  obtain ⟨rfl, leads, last⟩ := added
  let hub := (start.run before).perform (.addPeer index)
  have since : ∀ between, start.run (before ++ .addPeer index :: between) = hub.run between :=
    fun between => start.run_append before (.addPeer index :: between)
  have goesOn : .stop ∉ later := by
    intro stops
    have member : .stop ∈ before ++ .addPeer index :: later :=
      List.mem_append_right _ (List.mem_cons_of_mem _ stops)
    rw [(stopped_of_mem member).not_running] at running
    cases running
  simp only [since] at last
  -- From here on nobody adds or removes the node, so its number and its routine are kept.
  have sound : hub.registry.Sound := sound_perform (sound_run reached.sound before) _
  obtain ⟨number, kept⟩ := kept_of_not_occurs sound goesOn last
  have registeredThen : hub.registry.assigned[node]? ≠ none := by
    rw [since, number] at registered
    exact registered
  have broadcasts : (start.run before).config.broadcast = true := by
    rw [run_config]
    exact broadcast
  obtain ⟨serving, served, origin⟩ :=
    serving_of_addPeer broadcasts runningThen leads registeredThen
  have serves : (start.run (before ++ .addPeer index :: later)).serving[node]? = some serving := by
    rw [since]
    exact kept serving served
  have all := fresh.serves.run reached.sound (before ++ .addPeer index :: later)
  obtain ⟨routine, found, peer⟩ := all node serving serves
  obtain ⟨attending, foundAttending, connection, opened, leadsTo⟩ :=
    fresh.attends (before ++ .addPeer index :: later) node serving serves
  rw [found] at foundAttending
  cases foundAttending
  refine ⟨serving, routine, connection, serves, found, peer, opened, leadsTo, ?_, ?_, ?_⟩
  · exact fresh.unfinished_of_open running found opened
  · intro unserved
    rcases origin with ⟨wasServed, _⟩ | ⟨_, peer, launched⟩
    · rw [unserved] at wasServed
      cases wasServed
    · obtain ⟨phase, keptRoutine⟩ := routine_kept_run launched later
      rw [since, keptRoutine] at found
      cases found
      rfl
  · intro wasServed
    rcases origin with ⟨_, older⟩ | ⟨unserved, _⟩
    · exact ⟨older, fresh.connection_open settled wasServed older found⟩
    · rw [unserved] at wasServed
      cases wasServed

/-- A node comes back after its connection has quit and the routine has ended, and the routine of
the new connection serves it. -/
theorem served_after_reconnect :
    ∃ pool start, Pool.new {} Validator.acceptAll = .ok pool ∧
      Hub.new {} pool (.empty 1) = .ok start ∧
      let node : NodeId := ⟨Vector.replicate 32 1⟩
      let before : List Action := [.start, .openConnection node 4, .addPeer 0, .disconnect 0,
        .resume 0 .launch, .openConnection node 4]
      let later : List Action := [.resume 1 .launch]
      let actions := before ++ .addPeer 1 :: later
      (start.run before).isRunning = true ∧ (start.run actions).isRunning = true ∧
        (start.run actions).registry.assigned[node]? ≠ none ∧
        ¬ (start.run before).Lingers node ∧ (start.run actions).routinesOn 1 = 1 ∧
        ∃ serving routine connection,
          IsServedSince start actions node 1 before serving routine connection := by
  refine ⟨_, _, rfl, rfl, ?before, ?now, ?registered, ?settled, ?alive,
    served_since_added ⟨{}, Validator.acceptAll, _, [], {}, .empty 1, rfl, rfl⟩
      (Registry.reached_empty 1) rfl ⟨rfl, ?leads, ?last⟩ ?before ?now ?registered ?settled⟩
  case last =>
    rw [← List.nil_append [Action.resume 1 .launch], occurs_snoc]
    intro either
    rcases either with occurs | registers
    · exact not_occurs_nil occurs
    · exact registers
  case leads => decide +kernel
  case before => decide +kernel
  case now => decide +kernel
  case registered => decide +kernel
  case settled => decide +kernel
  case alive => decide +kernel

/-- A node that comes with a second connection while the first one is open keeps the routine of the
first: everybody waits, and the connection that the node was last added with has no routine. -/
theorem second_connection_unserved :
    ¬ ∀ (start : Hub) (actions before later : List Action) (node : NodeId) (index : Nat),
      start.Fresh → start.registry.Reached → start.config.broadcast = true →
      LastAdded start actions node index before later →
      (start.run before).isRunning = true → (start.run actions).isRunning = true →
      (start.run actions).registry.assigned[node]? ≠ none → (start.run actions).Calm →
      (start.run actions).connections[index]?.map Connection.quit = some false →
      0 < (start.run actions).routinesOn index := by
  intro all
  let node : NodeId := ⟨Vector.replicate 32 1⟩
  let before : List Action := [.start, .openConnection node 4, .addPeer 0, .resume 0 .launch,
    .openConnection node 4]
  have served := all _ (before ++ [.addPeer 1]) before [] node 1
    ⟨{}, Validator.acceptAll, _, [], {}, .empty 1, rfl, rfl⟩ (Registry.reached_empty 1) rfl
    ⟨rfl, by decide +kernel, not_occurs_nil⟩ (by decide +kernel) (by decide +kernel)
    (by decide +kernel) (by decide +kernel) (by decide +kernel)
  exact absurd served (by decide +kernel)

/-- A node comes back before the routine of the connection that it lost has run again. That routine
lingers, so none is launched; then it ends, and the open connection stays without one. -/
theorem unserved_after_lingering :
    ∃ pool start, Pool.new {} Validator.acceptAll = .ok pool ∧
      Hub.new {} pool (.empty 1) = .ok start ∧
      let node : NodeId := ⟨Vector.replicate 32 1⟩
      let before : List Action := [.start, .openConnection node 4, .addPeer 0, .resume 0 .launch,
        .disconnect 0, .openConnection node 4]
      let now := start.run (before ++ [.addPeer 1, .resume 0 .cancellation])
      (start.run before).Lingers node ∧ now.isRunning = true ∧ now.Calm ∧
        now.registry.assigned[node]? ≠ none ∧
        now.connections[1]?.map Connection.quit = some false ∧
        now.isServed node = false ∧ now.routinesOn 1 = 0 := by
  refine ⟨_, _, rfl, rfl, ?_⟩
  decide +kernel

end Hub

end VoteGossip
