import VoteGossip.Proofs.Gossip.Run

/-!
The cursor of a routine: where it can stand, what it has left behind, and that it never looks at a
position out of turn.
-/

set_option autoImplicit false

namespace VoteGossip

namespace Routine

def Phase.cursor? : Phase → Option Nat
  | .awaitingSuccessor cursor | .pausing cursor _ => some cursor
  | _ => none

/-- The positions that a cursor has passed. The one it stands on belongs to them once the routine
is done with the entry there. -/
def Phase.leftBehind : Phase → Nat → Prop
  | .awaitingSuccessor cursor, position => position ≤ cursor
  | .pausing cursor _, position => position < cursor
  | _, _ => False

theorem Phase.exists_cursor {phase : Phase} {position : Nat} (behind : phase.leftBehind position) :
    ∃ cursor, phase.cursor? = some cursor ∧ position ≤ cursor := by
  cases phase with
  | awaitingSuccessor cursor => exact ⟨cursor, rfl, behind⟩
  | pausing cursor wakeAt => exact ⟨cursor, rfl, Nat.le_of_lt behind⟩
  | launching | awaitingEntries | finished => exact behind.elim

/-- Waiting for the log to grow, and not for a peer that cannot take an entry yet. -/
def Phase.isParked : Phase → Prop
  | .awaitingEntries | .awaitingSuccessor _ => True
  | _ => False

variable {routine : Routine} {view : View} {connection : Connection} {wake : Wake}
  {position : Nat} {turn : Turn}

theorem cursor?_restart (routine : Routine) (view : View) (connection : Connection) :
    (routine.restart view connection).routine.phase.cursor? = none := by
  unfold restart
  split <;> rfl

theorem leftBehind_restart (routine : Routine) (view : View) (connection : Connection)
    (position : Nat) : ¬ (routine.restart view connection).routine.phase.leftBehind position := by
  intro behind
  obtain ⟨cursor, placed, _⟩ := Phase.exists_cursor behind
  rw [cursor?_restart] at placed
  cases placed

theorem Visit.cursor_eq
    (visited : Visit routine view connection position turn) {cursor : Nat}
    (placed : turn.routine.phase.cursor? = some cursor) :
    cursor = position ∧ position < view.pool.log.window.stop := by
  have written : ∀ {entry}, view.pool.entry position = .ready entry →
      position < view.pool.log.window.stop :=
    fun live => Log.Window.lt_stop_of_live (Log.get_eq_ready_iff.mp live)
  cases visited with
  | sent entry live | held entry live | notReady entry live | behind entry live
    | refused entry live =>
      cases placed
      exact ⟨rfl, written live⟩
  | skipped tombstone =>
      cases placed
      exact ⟨rfl, (Log.get_eq_removed_iff.mp tombstone).2.1⟩
  | lost gone =>
      rw [cursor?_restart] at placed
      cases placed

theorem Idle.phase_of_cursor (idle : Idle routine connection turn) {cursor : Nat}
    (placed : turn.routine.phase.cursor? = some cursor) :
    turn.routine.phase = routine.phase := by
  rcases idle.phase_cases with same | finished | ⟨_, waiting⟩
  · exact same
  · rw [finished] at placed
    cases placed
  · rw [waiting] at placed
    cases placed

/-- What lies between the positions left behind and the next one looked at is dead. -/
theorem leftBehind_of_looksAt (valid : view.pool.log.Valid)
    (looks : routine.looksAt? view connection wake = some position) {before : Nat}
    {entry : PoolEntry} (live : view.pool.entry before = .ready entry) (less : before < position) :
    routine.phase.leftBehind before := by
  cases look_cases looks with
  | front position phase_eq front =>
      obtain ⟨atBase, _⟩ := Log.front_eq_some valid front
      have alive := Log.get_eq_ready_iff.mp live
      rw [Log.Window.entry?_of_lt_base (atBase ▸ less)] at alive
      cases alive
  | next cursor phase_eq goesOn =>
      rw [phase_eq]
      exact Nat.le_of_lt_succ less
  | again cursor wakeAt phase_eq goesOn =>
      rw [phase_eq]
      exact less

end Routine

namespace Hub

def Placed (hub : Hub) : Prop :=
  ∀ (index : Nat) (routine : Routine) (cursor : Nat), hub.routines[index]? = some routine →
    routine.phase.cursor? = some cursor → cursor < hub.pool.log.window.stop

variable {hub : Hub}

theorem Placed.perform (placed : hub.Placed) (coherent : hub.pool.Coherent) (action : Action) :
    (hub.perform action).Placed := by
  intro index routine cursor found stands
  have moved := evolves_perform coherent action
  refine Nat.lt_of_lt_of_le ?_ moved.stop_le
  cases past found with
  | still same quiet => exact placed index routine cursor same stands
  | unborn absent launching =>
      rw [launching] at stands
      cases stands
  | turned wake earlier connection acted turns routine_eq =>
      rw [routine_eq] at stands
      cases looks : earlier.looksAt? hub.view connection wake with
      | none =>
          have idle := Routine.resume_of_looksAt_none looks
          rw [idle.phase_of_cursor stands] at stands
          exact placed index earlier cursor turns.routine_at stands
      | some position =>
          have visited := Routine.resume_of_looksAt looks
          obtain ⟨same, written⟩ := visited.cursor_eq stands
          rw [same]
          exact written

theorem Fresh.placed (fresh : hub.Fresh) : hub.Placed := by
  intro index routine cursor found
  rw [fresh.routines_eq] at found
  cases found

theorem Placed.run (placed : hub.Placed) (coherent : hub.pool.Coherent) (actions : List Action) :
    (hub.run actions).Placed := by
  induction actions generalizing hub with
  | nil => exact placed
  | cons action later ih =>
      exact ih (placed.perform coherent action) (coherent_perform coherent action)

end Hub

end VoteGossip
