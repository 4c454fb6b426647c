import VoteGossip.Proofs.Gossip.Service

/-!
What routines still do after their end was signalled. A connection that has quit takes no frame any
more. Of a shutdown a routine takes notice wherever it goes on with a cursor, but not where it sets
one: a routine that was waiting for entries may come by an entry before it comes by the shutdown,
and then it sends this one. Either way it does not come to a wait again that could stay open, so it
finishes the next time it runs, whatever its waits come to.
-/

set_option autoImplicit false

namespace VoteGossip

namespace Routine

variable {routine : Routine} {view : View} {connection : Connection} {wake : Wake}
  {position : Nat}

theorem looksAt?_of_cancels (cancels : view.cancels connection = true)
    (looks : routine.looksAt? view connection wake = some position) :
    wake = .entries ∧ routine.phase = .awaitingEntries := by
  cases look_cases looks with
  | front _ phase_eq => exact ⟨rfl, phase_eq⟩
  | next _ _ goesOn => exact absurd cancels goesOn
  | again _ _ _ goesOn => exact absurd cancels goesOn

theorem resume_queues_one (routine : Routine) (view : View) (connection : Connection)
    (wake : Wake) :
    (routine.resume view connection wake).connection = connection ∨
    ∃ position, routine.looksAt? view connection wake = some position ∧
      connection.accepts = true ∧ (routine.resume view connection wake).sent = [position] := by
  cases looks : routine.looksAt? view connection wake with
  | none => exact Or.inl (resume_of_looksAt_none looks).connection_eq
  | some position =>
      have visited := resume_of_looksAt looks
      generalize routine.resume view connection wake = turn at visited ⊢
      cases visited with
      | sent entry live due unheld accepts => exact Or.inr ⟨position, rfl, accepts, rfl⟩
      | held | notReady | behind | refused | skipped => exact Or.inl rfl
      | lost gone =>
          left
          unfold restart
          split <;> rfl

theorem finishes_turn (cancels : view.cancels connection = true)
    (wakes : routine.wakesOn view connection wake = true)
    (placed : routine.phase ≠ .awaitingEntries) :
    (routine.resume view connection wake).routine.isFinished = true := by
  have ends : (routine.finish connection).routine.isFinished = true := rfl
  unfold wakesOn at wakes
  unfold resume
  cases phase : routine.phase <;> cases wake <;> rw [phase] at wakes
  case launching.launch =>
    simp only [restart, if_pos cancels]
    exact ends
  case awaitingSuccessor.successor | pausing.timer =>
    simp only [proceed, if_pos cancels]
    exact ends
  case awaitingSuccessor.cancellation | pausing.cancellation => exact ends
  case awaitingEntries.entries | awaitingEntries.cancellation => exact absurd phase placed
  all_goals cases wakes

theorem not_awaitingEntries_of_cancels (cancels : view.cancels connection = true)
    (wakes : routine.wakesOn view connection wake = true) :
    (routine.resume view connection wake).routine.phase ≠ .awaitingEntries := by
  have restarted : (routine.restart view connection).routine.phase ≠ .awaitingEntries := by
    rw [restart, if_pos cancels]
    intro waiting
    cases waiting
  have visited : ∀ position,
      (routine.visit view connection position).routine.phase ≠ .awaitingEntries := by
    intro position waiting
    have visit := visit_cases routine view connection position
    generalize routine.visit view connection position = turn at visit waiting
    cases visit with
    | lost gone => exact restarted waiting
    | sent | held | notReady | behind | refused | skipped => cases waiting
  by_cases waited : routine.phase = .awaitingEntries
  · unfold wakesOn at wakes
    unfold resume
    rw [waited] at wakes ⊢
    cases wake with
    | entries =>
        cases front : view.pool.front with
        | none => exact restarted
        | some position => exact visited position
    | cancellation =>
        intro waiting
        cases waiting
    | launch | successor | timer => cases wakes
  · intro waiting
    have finished := finishes_turn cancels wakes waited
    rw [isFinished, waiting] at finished
    cases finished

end Routine

namespace Hub

variable {hub start : Hub} {index number : Nat} {wake : Routine.Wake} {routine : Routine}
  {connection : Connection} {action : Action} {wakes : List Routine.Wake}

theorem turn_queues_one (hub : Hub) (index : Nat) (wake : Routine.Wake) (number : Nat) :
    (hub.perform (.resume index wake)).connections[number]? = hub.connections[number]? ∨
    ∃ routine connection position, hub.Turns index wake routine connection ∧
      routine.connection = number ∧ connection.accepts = true ∧
      routine.looksAt? hub.view connection wake = some position ∧
      (routine.resume hub.view connection wake).sent = [position] := by
  by_cases woken : hub.wakesOn index wake = true
  · obtain ⟨routine, connection, turns⟩ := turns_of_wakesOn woken
    by_cases here : number = routine.connection
    · rw [here, turns.connection_after, turns.connection_at]
      rcases routine.resume_queues_one hub.view connection wake with
        same | ⟨position, looks, accepts, sent⟩
      · exact Or.inl (congrArg some same)
      · exact Or.inr ⟨routine, connection, position, turns, rfl, accepts, looks, sent⟩
    · exact Or.inl (turns.connection_elsewhere here)
  · have still : hub.perform (.resume index wake) = hub := if_neg woken
    rw [still]
    exact Or.inl rfl

theorem quiet_of_quit (opened : hub.connections[number]? = some connection)
    (quit : connection.quit = true) (index : Nat) (wake : Routine.Wake) :
    (hub.perform (.resume index wake)).connections[number]? = hub.connections[number]? := by
  rcases hub.turn_queues_one index wake number with
    same | ⟨routine, served, position, turns, rfl, accepts, _⟩
  · exact same
  · have alike := turns.connection_at
    rw [opened] at alike
    cases alike
    rw [Connection.accepts, quit] at accepts
    cases accepts

/-- The routine waits for entries. -/
def Expectant (hub : Hub) (index : Nat) : Prop :=
  ∃ routine, hub.routines[index]? = some routine ∧ routine.phase = .awaitingEntries

theorem turn_of_shutdown (shutdown : hub.shutdown = true) (index : Nat) (wake : Routine.Wake)
    (number : Nat) :
    (hub.perform (.resume index wake)).connections[number]? = hub.connections[number]? ∨
      wake = .entries ∧ hub.Expectant index ∧ ∃ position,
        (hub.reported index (.resume index wake)).filterMap RoutineEvent.sentAt? = [position] := by
  rcases hub.turn_queues_one index wake number with
    same | ⟨routine, connection, position, turns, _, _, looks, sent⟩
  · exact Or.inl same
  · have cancels := cancels_of_shutdown shutdown connection
    obtain ⟨atEntries, waiting⟩ := Routine.looksAt?_of_cancels cancels looks
    refine Or.inr ⟨atEntries, ⟨routine, turns.routine_at, waiting⟩, position, ?_⟩
    rw [turns.reported_eq]
    exact sent

/-- After a shutdown nothing begins to wait for entries, and what still does has done nothing. -/
theorem Expectant.before (expectant : (hub.perform action).Expectant index)
    (shutdown : hub.shutdown = true) : hub.Expectant index ∧ hub.reported index action = [] := by
  obtain ⟨routine, found, waiting⟩ := expectant
  cases past found with
  | still same quiet => exact ⟨⟨routine, same, waiting⟩, quiet⟩
  | unborn absent launching =>
      rw [waiting] at launching
      cases launching
  | turned wake earlier connection acted turns routine_eq =>
      have cancels := cancels_of_shutdown shutdown connection
      rw [routine_eq] at waiting
      exact absurd waiting (Routine.not_awaitingEntries_of_cancels cancels turns.wakes)

theorem Expectant.throughout {later : List Action} (expectant : (hub.run later).Expectant index)
    (shutdown : hub.shutdown = true) : hub.Expectant index ∧ hub.sent index later = [] := by
  induction later using List.reverseRecOn with
  | nil => exact ⟨expectant, rfl⟩
  | append_singleton earlier last ih =>
      rw [run_snoc] at expectant
      obtain ⟨waited, quiet⟩ := expectant.before (shutdown_run shutdown earlier)
      obtain ⟨first, nothing⟩ := ih waited
      refine ⟨first, ?_⟩
      rw [sent_snoc, nothing, quiet]
      rfl

theorem sent_of_shutdown (shutdown : hub.shutdown = true) (index : Nat) (action : Action) :
    (hub.reported index action).filterMap RoutineEvent.sentAt? = [] ∨
      hub.Expectant index ∧
        ((hub.reported index action).filterMap RoutineEvent.sentAt?).length = 1 := by
  cases action with
  | resume other wake =>
      by_cases acts : other = index ∧ hub.wakesOn other wake = true
      · obtain ⟨rfl, woken⟩ := acts
        obtain ⟨routine, connection, turns⟩ := turns_of_wakesOn woken
        rw [turns.reported_eq]
        change (routine.resume hub.view connection wake).sent = [] ∨ _ ∧
          (routine.resume hub.view connection wake).sent.length = 1
        cases looks : routine.looksAt? hub.view connection wake with
        | none => exact Or.inl (Routine.resume_of_looksAt_none looks).sent_eq
        | some position =>
            have cancels := cancels_of_shutdown shutdown connection
            obtain ⟨_, waiting⟩ := Routine.looksAt?_of_cancels cancels looks
            rcases (Routine.resume_of_looksAt looks).sent_cases with nothing | ⟨one, _⟩
            · exact Or.inl nothing
            · refine Or.inr ⟨⟨routine, turns.routine_at, waiting⟩, ?_⟩
              rw [one]
              rfl
      · have quiet : hub.reported index (.resume other wake) = [] := if_neg acts
        rw [quiet]
        exact Or.inl rfl
  | _ => exact Or.inl rfl

theorem length_sent_le_of_shutdown (shutdown : hub.shutdown = true) (index : Nat)
    (later : List Action) : (hub.sent index later).length ≤ 1 := by
  induction later using List.reverseRecOn with
  | nil => exact Nat.zero_le 1
  | append_singleton earlier last ih =>
      rw [sent_snoc, List.length_append]
      rcases sent_of_shutdown (shutdown_run shutdown earlier) index last with
        nothing | ⟨expectant, one⟩
      · rw [nothing]
        exact ih
      · have nothing := (expectant.throughout shutdown).2
        exact Nat.le_of_eq (by rw [nothing, one]; rfl)

theorem Ending.perform (ending : hub.Ending index) (action : Action) :
    (hub.perform action).Ending index := by
  obtain ⟨routine, connection, found, opened, cancels⟩ := ending
  obtain ⟨phase, kept⟩ := routine_kept found action
  obtain ⟨later, laterOpened, continues⟩ := continues_perform opened action
  refine ⟨_, later, kept, laterOpened, ?_⟩
  rcases (Bool.or_eq_true _ _).mp cancels with shutdown | quit
  · exact cancels_of_shutdown (shutdown_perform shutdown action) later
  · change ((hub.perform action).shutdown || later.quit) = true
    rw [continues.quit quit, Bool.or_true]

/-- The routine takes these turns in one go, whatever each of its waits comes to, and then none of
its waits can come to anything any more. -/
def Activates (hub : Hub) (index : Nat) : List Routine.Wake → Prop
  | [] => ∀ wake, hub.wakesOn index wake = false
  | wake :: later =>
      hub.wakesOn index wake = true ∧ (hub.perform (.resume index wake)).Activates index later

theorem Ending.cancels (ending : hub.Ending index)
    (turns : hub.Turns index wake routine connection) : hub.view.cancels connection = true := by
  obtain ⟨same, opened, found, openedAt, cancels⟩ := ending
  have routine_at := turns.routine_at
  rw [found] at routine_at
  cases routine_at
  have connection_at := turns.connection_at
  rw [openedAt] at connection_at
  cases connection_at
  exact cancels

theorem activates_nil_of_finished (finished : hub.isAlive index = false) :
    hub.Activates index [] := by
  intro wake
  rw [← Bool.not_eq_true]
  intro woken
  rw [alive_of_wakesOn woken] at finished
  cases finished

theorem Ending.exists_activates (ending : hub.Ending index) :
    ∃ wakes, hub.Activates index wakes := by
  by_cases alive : hub.isAlive index = true
  · obtain ⟨wake, next, finished⟩ := ending.takes_last_turn alive
    exact ⟨[wake], List.find?_some next, activates_nil_of_finished finished⟩
  · exact ⟨[], activates_nil_of_finished ((Bool.not_eq_true _).mp alive)⟩

theorem Ending.finished_of_activates_nil (ending : hub.Ending index)
    (stays : hub.Activates index []) : hub.isAlive index = false := by
  rw [← Bool.not_eq_true]
  intro alive
  obtain ⟨wake, next, _⟩ := ending.takes_last_turn alive
  have woken : hub.wakesOn index wake = true := List.find?_some next
  rw [stays wake] at woken
  cases woken

theorem Ending.finishes_of_placed (ending : hub.Ending index) (placed : ¬ hub.Expectant index)
    (activates : hub.Activates index wakes) :
    (hub.run (wakes.map (.resume index))).isAlive index = false ∧ wakes.length ≤ 1 := by
  cases wakes with
  | nil => exact ⟨ending.finished_of_activates_nil activates, Nat.zero_le 1⟩
  | cons wake later =>
      obtain ⟨woken, further⟩ := activates
      obtain ⟨routine, connection, turns⟩ := turns_of_wakesOn woken
      have waitsNot : routine.phase ≠ .awaitingEntries := by
        intro waiting
        exact placed ⟨routine, turns.routine_at, waiting⟩
      have finished : (hub.perform (.resume index wake)).isAlive index = false := by
        rw [turns.isAlive_after, Routine.finishes_turn (ending.cancels turns) turns.wakes waitsNot]
        rfl
      cases later with
      | nil => exact ⟨finished, Nat.le_refl 1⟩
      | cons next rest =>
          rw [alive_of_wakesOn further.1] at finished
          cases finished

theorem Ending.finishes (ending : hub.Ending index) (activates : hub.Activates index wakes) :
    (hub.run (wakes.map (.resume index))).isAlive index = false ∧ wakes.length ≤ 2 := by
  cases wakes with
  | nil => exact ⟨ending.finished_of_activates_nil activates, Nat.zero_le 2⟩
  | cons wake later =>
      obtain ⟨woken, further⟩ := activates
      obtain ⟨routine, connection, turns⟩ := turns_of_wakesOn woken
      have placed : ¬ (hub.perform (.resume index wake)).Expectant index := by
        rintro ⟨turned, found, waiting⟩
        rw [turns.routine_after] at found
        cases found
        exact Routine.not_awaitingEntries_of_cancels (ending.cancels turns) turns.wakes waiting
      obtain ⟨finished, few⟩ := (ending.perform _).finishes_of_placed placed further
      exact ⟨finished, Nat.succ_le_succ few⟩

/-- What the routines of a hub do from now on, in so far as their end was signalled. -/
structure Ceases (hub : Hub) : Prop where
  /-- No routine queues a frame any more on a connection that has quit. -/
  quit : ∀ (number : Nat) (connection : Connection), hub.connections[number]? = some connection →
    connection.quit = true → ∀ later index wake,
    ((hub.run later).perform (.resume index wake)).connections[number]? =
      (hub.run later).connections[number]?
  /-- Once gossip is shut down, a routine queues a frame only if it has been waiting for entries
  since, has sent nothing since, and comes by an entry now. -/
  shutdown : hub.shutdown = true → ∀ later index wake (number : Nat),
    ((hub.run later).perform (.resume index wake)).connections[number]? =
        (hub.run later).connections[number]? ∨
      wake = .entries ∧ hub.Expectant index ∧ hub.sent index later = [] ∧
        ∃ position, hub.sent index (later ++ [.resume index wake]) = [position]
  once : hub.shutdown = true → ∀ later index, (hub.sent index later).length ≤ 1
  ending : hub.shutdown = true → ∀ index, hub.isAlive index = true → hub.Ending index
  finishes : ∀ index, hub.Ending index →
    (∃ wakes, hub.Activates index wakes) ∧
      ∀ wakes, hub.Activates index wakes →
        (hub.run (wakes.map (.resume index))).isAlive index = false ∧ wakes.length ≤ 2

theorem ceases (fresh : start.Fresh) (actions : List Action) : (start.run actions).Ceases := by
  have connected := fresh.connected.run actions
  generalize start.run actions = hub at connected ⊢
  refine ⟨?_, ?_, fun shutdown later index => length_sent_le_of_shutdown shutdown index later,
    fun shutdown _ => ending_of_shutdown shutdown connected,
    fun _ ending => ⟨ending.exists_activates, fun _ => ending.finishes⟩⟩
  · intro number connection opened quit later index wake
    obtain ⟨after, openedAfter, continues⟩ := continues_run opened later
    exact quiet_of_quit openedAfter (continues.quit quit) index wake
  · intro shutdown later index wake number
    rcases turn_of_shutdown (shutdown_run shutdown later) index wake number with
      same | ⟨atEntries, expectant, position, sent⟩
    · exact Or.inl same
    · obtain ⟨waited, nothing⟩ := expectant.throughout shutdown
      refine Or.inr ⟨atEntries, waited, nothing, position, ?_⟩
      rw [sent_snoc, nothing, sent]
      rfl

/-- An entry and the shutdown come to a waiting routine together. It takes the entry first and sends
it, and the second turn of the same activation is its last. -/
theorem ceases_with_a_frame :
    ∃ pool start, Pool.new {} Validator.acceptAll = .ok pool ∧
      Hub.new {} pool (.empty 2) = .ok start ∧
      let node : NodeId := ⟨Vector.replicate 32 1⟩
      let actions : List Action := [.start, .openConnection node 4, .report node 0, .addPeer 0,
        .resume 0 .launch, .submit ⟨[97]⟩ .unknown, .stop]
      let hub := start.run actions
      hub.Ceases ∧ hub.shutdown = true ∧ hub.sent 0 [.resume 0 .entries] = [0] ∧
        [[.entries], [.entries, .cancellation], [.cancellation]].map (fun wakes =>
          (hub.run (wakes.map (.resume 0))).isAlive 0) = [true, false, false] := by
  refine ⟨_, _, rfl, rfl, ?_⟩
  intro node actions hub
  have ends := ceases ⟨{}, Validator.acceptAll, _, [], {}, .empty 2, rfl, rfl⟩ actions
  exact ⟨ends, rfl, by decide +kernel, by decide +kernel⟩

theorem not_silent_after_shutdown :
    ¬ ∀ (start : Hub) (actions : List Action), start.Fresh → .stop ∈ actions →
      ∀ index wake (number : Nat),
        ((start.run actions).perform (.resume index wake)).connections[number]? =
          (start.run actions).connections[number]? := by
  intro silent
  let node : NodeId := ⟨Vector.replicate 32 1⟩
  let actions : List Action := [.start, .openConnection node 4, .report node 0, .addPeer 0,
    .resume 0 .launch, .submit ⟨[97]⟩ .unknown, .stop]
  have made : ∃ pool start, Pool.new {} Validator.acceptAll = .ok pool ∧
      Hub.new {} pool (.empty 2) = .ok start ∧
      ((start.run actions).connections[0]?.map (·.queue.size)) = some 0 ∧
      (((start.run actions).perform (.resume 0 .entries)).connections[0]?.map (·.queue.size)) =
        some 1 :=
    ⟨_, _, rfl, rfl, by decide +kernel, by decide +kernel⟩
  obtain ⟨pool, start, poolMade, hubMade, before, after⟩ := made
  have fresh : start.Fresh := ⟨{}, Validator.acceptAll, pool, [], {}, .empty 2, poolMade, hubMade⟩
  rw [silent start actions fresh (by decide) 0 .entries 0, before] at after
  cases after

end Hub

end VoteGossip
