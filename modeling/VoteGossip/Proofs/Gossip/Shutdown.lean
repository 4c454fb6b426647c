import VoteGossip.Proofs.Gossip.Handles

/-!
Stopping. A stop takes over every handle and comes to its end when each of these routines has
finished; then no routine is left at all. It always can come to its end, since every routine takes
the next opportunity to finish. From then on gossip does not run again and no routine is created.
-/

set_option autoImplicit false

namespace VoteGossip

theorem Routine.finishes_of_cancels (routine : Routine) {view : View} {connection : Connection}
    (cancels : view.cancels connection = true) (unfinished : routine.isFinished = false) :
    ∃ wake, Hub.wakes.find? (routine.wakesOn view connection) = some wake ∧
      (routine.resume view connection wake).routine.isFinished = true := by
  have ends : (routine.finish connection).routine.isFinished = true := rfl
  cases phase : routine.phase with
  | finished =>
      rw [isFinished, phase] at unfinished
      cases unfinished
  | launching =>
      refine ⟨.launch, ?_, ?_⟩
      · simp only [Hub.wakes, List.find?_cons, wakesOn, phase]
      · simp only [resume, phase, restart, if_pos cancels]
        exact ends
  | awaitingEntries | awaitingSuccessor | pausing =>
      refine ⟨.cancellation, ?_, ?_⟩
      · simp only [Hub.wakes, List.find?_cons, wakesOn, phase, cancels]
      · simp only [resume, phase]
        exact ends

namespace Hub

variable {hub start : Hub} {index : Nat} {actions : List Action}

/-- Gossip was stopped, and there is no routine that the hub has a handle on. -/
structure Stopped (hub : Hub) : Prop where
  shutdown : hub.shutdown = true
  released : ∀ index, ¬ hub.Handled index

theorem stopped_signalStop (hub : Hub) : hub.signalStop.Stopped where
  shutdown := rfl
  released := by
    intro index handled
    rcases handled with serves | retired
    · obtain ⟨node, served⟩ := serves
      change (∅ : Std.ExtTreeMap NodeId Nat)[node]? = some index at served
      rw [Std.ExtTreeMap.getElem?_empty] at served
      cases served
    · cases retired

theorem Stopped.not_running (stopped : hub.Stopped) : hub.isRunning = false := by
  rw [isRunning, stopped.shutdown, Bool.not_true, Bool.and_false]

theorem Stopped.perform (stopped : hub.Stopped) (action : Action) :
    (hub.perform action).Stopped ∧
      (hub.perform action).routines.size = hub.routines.size := by
  have changed := hub.custody action
  generalize hub.perform action = after at changed ⊢
  cases changed with
  | kept serving_eq retired_eq shutdown_eq size_eq =>
      refine ⟨⟨shutdown_eq.trans stopped.shutdown, ?_⟩, size_eq⟩
      intro index
      rw [Handled, serving_eq, retired_eq]
      exact stopped.released index
  | launched connection routine running =>
      rw [stopped.not_running] at running
      cases running
  | retired node reason index served =>
      exact absurd (Or.inl ⟨node, served⟩) (stopped.released index)
  | released => exact ⟨hub.stopped_signalStop, rfl⟩

theorem Stopped.run (stopped : hub.Stopped) (actions : List Action) :
    (hub.run actions).Stopped ∧ (hub.run actions).routines.size = hub.routines.size := by
  induction actions generalizing hub with
  | nil => exact ⟨stopped, rfl⟩
  | cons action later ih =>
      obtain ⟨still, size⟩ := stopped.perform action
      obtain ⟨last, lastSize⟩ := ih still
      exact ⟨last, lastSize.trans size⟩

theorem stopped_of_mem (called : .stop ∈ actions) : (start.run actions).Stopped := by
  obtain ⟨before, after, rfl⟩ := List.append_of_mem called
  rw [run_append]
  exact ((start.run before).stopped_signalStop.run after).1

theorem Stopped.finished_run (stopped : hub.Stopped) (finished : hub.isAlive index = false)
    (actions : List Action) : (hub.run actions).isAlive index = false := by
  induction actions generalizing hub with
  | nil => exact finished
  | cons action later ih =>
      obtain ⟨still, size⟩ := stopped.perform action
      apply ih still
      rw [← Bool.not_eq_true]
      intro alive
      rcases alive_before alive with before | new
      · rw [finished] at before
        cases before
      · rw [size] at new
        exact absurd new.2 (Nat.not_lt.mpr new.1)

/-- The routine has to end: gossip is shut down, or its connection has quit. -/
def Ending (hub : Hub) (index : Nat) : Prop :=
  ∃ routine connection, hub.routines[index]? = some routine ∧
    hub.connections[routine.connection]? = some connection ∧ hub.view.cancels connection = true

theorem cancels_of_shutdown (shutdown : hub.shutdown = true) (connection : Connection) :
    hub.view.cancels connection = true := by
  change (hub.shutdown || connection.quit) = true
  rw [shutdown, Bool.true_or]

theorem ending_of_shutdown (shutdown : hub.shutdown = true) (connected : hub.Connected)
    (alive : hub.isAlive index = true) : hub.Ending index := by
  obtain ⟨routine, found, _⟩ := isAlive_iff.mp alive
  have within := connected index routine found
  exact ⟨routine, _, found, Array.getElem?_eq_getElem within, cancels_of_shutdown shutdown _⟩

/-- A routine that has to end and has not finished can take a turn, and the next one that it takes
is its last. -/
theorem Ending.takes_last_turn (ending : hub.Ending index) (alive : hub.isAlive index = true) :
    ∃ wake, hub.nextWake? index = some wake ∧
      (hub.perform (.resume index wake)).isAlive index = false := by
  obtain ⟨routine, connection, found, opened, cancels⟩ := ending
  obtain ⟨same, sameFound, unfinished⟩ := isAlive_iff.mp alive
  rw [found] at sameFound
  cases sameFound
  have wakesOn_eq : hub.wakesOn index = routine.wakesOn hub.view connection := by
    funext wake
    simp only [wakesOn, found, opened]
  obtain ⟨wake, next, finished⟩ := routine.finishes_of_cancels cancels unfinished
  have turns : hub.Turns index wake routine connection := ⟨found, opened, List.find?_some next⟩
  refine ⟨wake, by rw [nextWake?, wakesOn_eq, next], ?_⟩
  rw [turns.isAlive_after, finished]
  rfl

theorem Stopped.activate (stopped : hub.Stopped) (connected : hub.Connected) (index : Nat) :
    (hub.activate index).1.isAlive index = false := by
  by_cases alive : hub.isAlive index = true
  · have ending := ending_of_shutdown stopped.shutdown connected alive
    obtain ⟨wake, next, finished⟩ := ending.takes_last_turn alive
    have woken : hub.wakesOn index wake = true := List.find?_some next
    have first : hub.perform (.resume index wake) = (hub.resume index wake).1 := if_pos woken
    obtain ⟨later, further⟩ :=
      activateFor_run index (hub.pool.log.retained + 2) (hub.resume index wake).1
    have activated : (hub.activate index).1 = (hub.perform (.resume index wake)).run later := by
      rw [first, ← further]
      change (activateFor index (hub.pool.log.retained + 2 + 1) hub).1 = _
      simp only [activateFor, next]
    rw [activated]
    exact (stopped.perform _).1.finished_run finished later
  · obtain ⟨actions, activated⟩ := activateFor_run index hub.turnBound hub
    change (activateFor index hub.turnBound hub).1.isAlive index = false
    rw [activated]
    exact stopped.finished_run ((Bool.not_eq_true _).mp alive) actions

theorem Stopped.activateAll (indices : List Nat) {state : Hub × List RoutineEvent}
    (stopped : state.1.Stopped) (connected : state.1.Connected)
    (covered : index ∈ indices ∨ state.1.isAlive index = false) :
    (indices.foldl (fun state other => ((state.1.activate other).1,
      state.2 ++ (state.1.activate other).2)) state).1.isAlive index = false := by
  induction indices generalizing state with
  | nil =>
      rcases covered with member | finished
      · cases member
      · exact finished
  | cons other later ih =>
      obtain ⟨actions, activated⟩ := activateFor_run other state.1.turnBound state.1
      change (state.1.activate other).1 = state.1.run actions at activated
      apply ih
      · change (state.1.activate other).1.Stopped
        rw [activated]
        exact (stopped.run actions).1
      · change (state.1.activate other).1.Connected
        rw [activated]
        exact connected.run actions
      · change index ∈ later ∨ (state.1.activate other).1.isAlive index = false
        rcases covered with member | finished
        · rcases List.mem_cons.mp member with rfl | rest
          · exact Or.inr (stopped.activate connected index)
          · exact Or.inl rest
        · rw [activated]
          exact Or.inr (stopped.finished_run finished actions)

theorem Stopped.settle (stopped : hub.Stopped) (connected : hub.Connected) (index : Nat) :
    hub.settle.1.isAlive index = false := by
  refine Stopped.activateAll (List.range hub.routines.size) stopped connected ?_
  by_cases within : index < hub.routines.size
  · exact Or.inl (List.mem_range.mpr within)
  · right
    rw [← Bool.not_eq_true]
    intro alive
    obtain ⟨routine, found, _⟩ := isAlive_iff.mp alive
    exact within (Array.getElem?_eq_some_iff.mp found).1

/-- After these actions every routine that was ever created is accounted for. -/
structure Supervised (start : Hub) (actions : List Action) : Prop where
  held : ∀ index, (start.run actions).isAlive index = true →
    (start.run actions).Handled index ∨ Awaited start index actions
  /-- While no stop waits for anything, the hub itself handles whatever has not finished. -/
  handled : Completed start actions → ∀ index, (start.run actions).isAlive index = true →
    (start.run actions).Handled index
  serves : (start.run actions).Serves
  distinct : ∀ (left right : NodeId) (first second : Nat) (routine other : Routine),
    (start.run actions).serving[left]? = some first →
    (start.run actions).serving[right]? = some second →
    (start.run actions).routines[first]? = some routine →
    (start.run actions).routines[second]? = some other →
    routine.peer = other.peer → left = right ∧ first = second
  finished : .stop ∈ actions → Completed start actions →
    ∀ index, (start.run actions).isAlive index = false
  /-- After a stop, nothing that is done later makes gossip run or creates a routine. -/
  for_good : .stop ∈ actions → ∀ later, (start.run (actions ++ later)).isRunning = false ∧
    (start.run (actions ++ later)).routines.size = (start.run actions).routines.size
  completes : ∃ turns, (start.run actions).stop.1.hub = start.run (actions ++ .stop :: turns) ∧
    Completed start (actions ++ .stop :: turns)

theorem no_routine_escapes (fresh : start.Fresh) (reached : start.registry.Reached)
    (actions : List Action) : Supervised start actions := by
  have sound := reached.sound
  have serves := fresh.serves.run sound actions
  have handled : Completed start actions → ∀ index, (start.run actions).isAlive index = true →
      (start.run actions).Handled index := by
    intro completed index alive
    rcases fresh.held alive with held | awaited
    · exact held
    · rw [completed index awaited] at alive
      cases alive
  refine ⟨fun index alive => fresh.held alive, handled, serves, ?_, ?_, ?_, ?_⟩
  · intro left right first second routine other servesLeft servesRight found foundOther same
    exact serves.distinct (sound_run sound actions) servesLeft servesRight found foundOther same
  · intro called completed index
    rw [← Bool.not_eq_true]
    intro alive
    exact (stopped_of_mem called).released index (handled completed index alive)
  · intro called later
    have stopped : (start.run actions).Stopped := stopped_of_mem called
    rw [run_append]
    exact ⟨(stopped.run later).1.not_running, (stopped.run later).2⟩
  · obtain ⟨turns, settled⟩ := (start.run actions).signalStop.settle_run
    have reachedAt : (start.run actions).signalStop.settle.1 =
        start.run (actions ++ .stop :: turns) := by
      rw [settled, run_append]
      rfl
    refine ⟨turns, reachedAt, ?_⟩
    intro index _awaited
    rw [← reachedAt]
    exact (start.run actions).stopped_signalStop.settle
      ((fresh.connected.run actions).perform .stop) index

/-- A routine is retired, another one serves its node, and both finish during a stop. -/
theorem supervised_after_removal :
    ∃ pool start, Pool.new {} Validator.acceptAll = .ok pool ∧
      Hub.new {} pool (.empty 2) = .ok start ∧
      let node : NodeId := ⟨Vector.replicate 32 1⟩
      let running : List Action := [.start, .openConnection node 4, .addPeer 0, .resume 0 .launch,
        .removePeer node "", .openConnection node 4, .addPeer 1]
      let stopping : List Action := [.stop, .resume 0 .cancellation]
      let ended : List Action := [.resume 1 .launch, .start, .addPeer 1]
      (start.run running).retired = [0] ∧ (start.run running).serving[node]? = some 1 ∧
        [0, 1].map (start.run running).isAlive = [true, true] ∧
        [0, 1].map (start.run (running ++ stopping)).isAlive = [false, true] ∧
        [0, 1].map (start.run (running ++ stopping ++ ended)).isAlive = [false, false] ∧
        Supervised start (running ++ stopping ++ ended) := by
  refine ⟨_, _, rfl, rfl, ?_⟩
  intro node running stopping ended
  have supervised := no_routine_escapes
    ⟨{}, Validator.acceptAll, _, [], {}, .empty 2, rfl, rfl⟩ (Registry.reached_empty 2)
    (running ++ stopping ++ ended)
  exact ⟨by decide +kernel, by decide +kernel, by decide +kernel, by decide +kernel,
    by decide +kernel, supervised⟩

end Hub

end VoteGossip
