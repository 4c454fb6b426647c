import VoteGossip.Gossip.Routine
import VoteGossip.Proofs.Log.Invariant

/-!
What a routine can do between two waits: where it looks, and what comes of looking there.
-/

set_option autoImplicit false

namespace VoteGossip

def PoolEntry.frame (entry : PoolEntry) : Frame :=
  { channel := txChannel
    bytes := Message.encodePayload entry.tx.payload }

namespace Routine

/-- The peer has reported a height, and lags behind the entry by one block at most. -/
def Due (view : View) (connection : Connection) (entry : PoolEntry) : Prop :=
  ∃ reported, view.heights.reported? connection.node = some reported ∧
    ¬ reach reported < entry.height

/-- What can come of looking at a position. -/
inductive Visit (routine : Routine) (view : View) (connection : Connection) (position : Nat) :
    Turn → Prop where
  | sent (entry : PoolEntry) (live : view.pool.entry position = .ready entry)
      (due : Due view connection entry) (unheld : view.pool.holds position routine.peer = false)
      (accepts : connection.accepts = true) :
      Visit routine view connection position
        { routine := { routine with phase := .awaitingSuccessor position }
          connection := { connection with queue := connection.queue.push entry.frame }
          events := [.offered connection.node position .sent] }
  | held (entry : PoolEntry) (live : view.pool.entry position = .ready entry)
      (due : Due view connection entry) (holds : view.pool.holds position routine.peer = true) :
      Visit routine view connection position
        { routine := { routine with phase := .awaitingSuccessor position }
          connection
          events := [.offered connection.node position .alreadyHeld] }
  | notReady (entry : PoolEntry) (live : view.pool.entry position = .ready entry)
      (silent : view.heights.reported? connection.node = none) :
      Visit routine view connection position
        { routine := { routine with phase := .pausing position (view.now + view.interval) }
          connection
          events := [.retrying connection.node position .peerNotReady] }
  | behind (entry : PoolEntry) (live : view.pool.entry position = .ready entry)
      (reported : UInt64) (known : view.heights.reported? connection.node = some reported)
      (far : reach reported < entry.height) :
      Visit routine view connection position
        { routine := { routine with phase := .pausing position (view.now + view.interval) }
          connection
          events := [.retrying connection.node position .peerBehind] }
  | refused (entry : PoolEntry) (live : view.pool.entry position = .ready entry)
      (due : Due view connection entry) (unheld : view.pool.holds position routine.peer = false)
      (refuses : connection.accepts = false) :
      Visit routine view connection position
        { routine := { routine with phase := .pausing position (view.now + view.interval) }
          connection
          events := [.retrying connection.node position .backpressure] }
  | skipped (tombstone : view.pool.entry position = .removed) :
      Visit routine view connection position
        { routine := { routine with phase := .awaitingSuccessor position }
          connection
          events := [] }
  | lost (gone : view.pool.entry position = .evicted ∨ view.pool.entry position = .pending) :
      Visit routine view connection position (routine.restart view connection)

theorem visit_cases (routine : Routine) (view : View) (connection : Connection) (position : Nat) :
    Visit routine view connection position (routine.visit view connection position) := by
  unfold visit
  cases slot : view.pool.entry position with
  | removed => exact .skipped slot
  | evicted => exact .lost (Or.inl slot)
  | pending => exact .lost (Or.inr slot)
  | ready entry =>
      simp only [deliver]
      cases known : view.heights.reported? connection.node with
      | none => exact .notReady entry slot known
      | some reported =>
          by_cases far : reach reported < entry.height
          · simp only [if_pos far]
            exact .behind entry slot reported known far
          · have due : Due view connection entry := ⟨reported, known, far⟩
            simp only [if_neg far]
            by_cases holds : view.pool.holds position routine.peer = true
            · simp only [if_pos holds]
              exact .held entry slot due holds
            · have unheld : view.pool.holds position routine.peer = false := by
                simpa only [Bool.not_eq_true] using holds
              simp only [if_neg holds, Connection.trySend]
              by_cases accepts : connection.accepts = true
              · simp only [if_pos accepts]
                exact .sent entry slot due unheld accepts
              · have refuses : connection.accepts = false := by
                  simpa only [Bool.not_eq_true] using accepts
                simp only [if_neg accepts]
                exact .refused entry slot due unheld refuses

/-- The position that a routine looks at when its wait comes to this, if it looks at any. -/
def looksAt? (routine : Routine) (view : View) (connection : Connection) (wake : Wake) :
    Option Nat :=
  match routine.phase, wake with
  | .awaitingEntries, .entries => view.pool.front
  | .awaitingSuccessor position, .successor =>
      if view.cancels connection then none else some (position + 1)
  | .pausing position _, .timer => if view.cancels connection then none else some position
  | _, _ => none

inductive Look (routine : Routine) (view : View) (connection : Connection) : Wake → Nat → Prop where
  | front (position : Nat) (phase_eq : routine.phase = .awaitingEntries)
      (front : view.pool.front = some position) : Look routine view connection .entries position
  | next (cursor : Nat) (phase_eq : routine.phase = .awaitingSuccessor cursor)
      (goesOn : ¬ view.cancels connection) : Look routine view connection .successor (cursor + 1)
  | again (cursor wakeAt : Nat) (phase_eq : routine.phase = .pausing cursor wakeAt)
      (goesOn : ¬ view.cancels connection) : Look routine view connection .timer cursor

theorem look_cases {routine : Routine} {view : View} {connection : Connection} {wake : Wake}
    {position : Nat} (looks : routine.looksAt? view connection wake = some position) :
    Look routine view connection wake position := by
  unfold looksAt? at looks
  cases phase : routine.phase <;> cases wake <;> rw [phase] at looks
  case awaitingEntries.entries => exact .front position phase looks
  case awaitingSuccessor.successor cursor =>
    simp only [Option.ite_none_left_eq_some, Option.some.injEq] at looks
    obtain ⟨goesOn, rfl⟩ := looks
    exact .next cursor phase goesOn
  case pausing.timer cursor wakeAt =>
    simp only [Option.ite_none_left_eq_some, Option.some.injEq] at looks
    obtain ⟨goesOn, rfl⟩ := looks
    exact .again cursor wakeAt phase goesOn
  all_goals cases looks

theorem resume_eq_visit {routine : Routine} {view : View} {connection : Connection} {wake : Wake}
    {position : Nat} (looks : routine.looksAt? view connection wake = some position) :
    routine.resume view connection wake = routine.visit view connection position := by
  unfold resume
  cases look_cases looks with
  | front position phase_eq front => simp only [phase_eq, front]
  | next cursor phase_eq goesOn => simp only [phase_eq, proceed, if_neg goesOn]
  | again cursor wakeAt phase_eq goesOn => simp only [phase_eq, proceed, if_neg goesOn]

theorem resume_of_looksAt {routine : Routine} {view : View} {connection : Connection} {wake : Wake}
    {position : Nat} (looks : routine.looksAt? view connection wake = some position) :
    Visit routine view connection position (routine.resume view connection wake) := by
  rw [resume_eq_visit looks]
  exact visit_cases routine view connection position

def Phase.isUnplaced : Phase → Prop
  | .launching | .awaitingEntries => True
  | _ => False

/-- A turn in which a routine looks at no position. -/
structure Idle (routine : Routine) (connection : Connection) (turn : Turn) : Prop where
  connection_eq : turn.connection = connection
  phase_eq : turn.routine = { routine with phase := turn.routine.phase }
  phase_cases : turn.routine.phase = routine.phase ∨ turn.routine.phase = .finished ∨
    routine.phase.isUnplaced ∧ turn.routine.phase = .awaitingEntries
  offers_nothing : ∀ node position delivery, .offered node position delivery ∉ turn.events

theorem idle_finish (routine : Routine) (connection : Connection) :
    Idle routine connection (routine.finish connection) where
  connection_eq := rfl
  phase_eq := rfl
  phase_cases := Or.inr (Or.inl rfl)
  offers_nothing := fun node position delivery => by
    simp only [finish, List.mem_singleton, reduceCtorEq, not_false_eq_true]

theorem idle_restart (routine : Routine) (view : View) (connection : Connection)
    (unplaced : routine.phase.isUnplaced) :
    Idle routine connection (routine.restart view connection) := by
  unfold restart
  split
  · exact idle_finish routine connection
  · exact ⟨rfl, rfl, Or.inr (Or.inr ⟨unplaced, rfl⟩), fun _ _ _ => List.not_mem_nil⟩

theorem idle_park (routine : Routine) (connection : Connection) :
    Idle routine connection (routine.park connection routine.phase) :=
  ⟨rfl, rfl, Or.inl rfl, fun _ _ _ => List.not_mem_nil⟩

theorem resume_of_looksAt_none {routine : Routine} {view : View} {connection : Connection}
    {wake : Wake} (looks : routine.looksAt? view connection wake = none) :
    Idle routine connection (routine.resume view connection wake) := by
  have parked := idle_park routine connection
  have finished := idle_finish routine connection
  unfold looksAt? at looks
  unfold resume
  cases phase : routine.phase <;> cases wake <;> rw [phase] at looks parked
  case launching.launch =>
    have restarted := idle_restart routine view connection (by rw [phase]; trivial)
    refine ⟨restarted.connection_eq, restarted.phase_eq, restarted.phase_cases, ?_⟩
    intro node position delivery member
    simp only [List.mem_cons, reduceCtorEq, false_or] at member
    exact restarted.offers_nothing node position delivery member
  case awaitingEntries.entries =>
    simp only at looks ⊢
    rw [looks]
    exact idle_restart routine view connection (by rw [phase]; trivial)
  case awaitingSuccessor.successor before =>
    have cancels : view.cancels connection = true := by
      cases ends : view.cancels connection with
      | true => rfl
      | false => simp only [ends, Bool.false_eq_true, if_false, reduceCtorEq] at looks
    simp only [proceed, if_pos cancels]
    exact finished
  case pausing.timer before wakeAt =>
    have cancels : view.cancels connection = true := by
      cases ends : view.cancels connection with
      | true => rfl
      | false => simp only [ends, Bool.false_eq_true, if_false, reduceCtorEq] at looks
    simp only [proceed, if_pos cancels]
    exact finished
  case awaitingEntries.cancellation | awaitingSuccessor.cancellation | pausing.cancellation =>
    exact finished
  all_goals exact parked

theorem resume_routine (routine : Routine) (view : View) (connection : Connection) (wake : Wake) :
    ∃ phase, (routine.resume view connection wake).routine = { routine with phase } := by
  cases looks : routine.looksAt? view connection wake with
  | none => exact ⟨_, (resume_of_looksAt_none looks).phase_eq⟩
  | some position =>
      have visited := resume_of_looksAt looks
      generalize routine.resume view connection wake = turn at visited
      cases visited with
      | lost gone =>
          unfold restart
          split
          · exact ⟨_, rfl⟩
          · exact ⟨_, rfl⟩
      | _ => exact ⟨_, rfl⟩

end Routine

end VoteGossip
