import VoteGossip.Proofs.Gossip.Handles

/-!
Letting the routines run until all of them wait. While the pool and the clock stand still, every
turn brings a routine closer to its next wait: its cursor moves on in the log, it falls back to the
front of the log at most once, and a pause takes time. So the turns that a routine is given are
enough for it, and once every routine has had its turns, none can go on.
-/

set_option autoImplicit false

namespace VoteGossip

namespace Routine

/-- At least as many turns as a routine in this phase can take while the log and the clock stand
still. -/
def Phase.remaining (base stop now : Nat) : Phase → Nat
  | .launching => stop - base + 2
  | .awaitingEntries => stop - base + 1
  | .awaitingSuccessor cursor => if cursor + 1 < base then stop - base + 2 else stop - cursor
  | .pausing cursor wakeAt =>
      if now < wakeAt then 1 else if cursor < base then stop - base + 2 else stop - cursor + 1
  | .finished => 0

theorem Phase.remaining_le (base stop now : Nat) (phase : Phase) :
    phase.remaining base stop now ≤ stop - base + 2 := by
  cases phase with
  | launching => exact Nat.le_refl _
  | awaitingEntries => exact Nat.le_succ _
  | finished => exact Nat.zero_le _
  | awaitingSuccessor cursor =>
      rw [remaining]
      split <;> omega
  | pausing cursor wakeAt =>
      rw [remaining]
      split
      · omega
      · split <;> omega

variable {routine : Routine} {view : View} {connection : Connection} {wake : Wake}
  {position : Nat} {turn : Turn}

def View.remaining (view : View) (routine : Routine) : Nat :=
  routine.phase.remaining view.pool.log.window.base view.pool.log.window.stop view.now

theorem remaining_pos (unfinished : routine.isFinished = false)
    (placed : ∀ cursor, routine.phase.cursor? = some cursor →
      cursor < view.pool.log.window.stop) : 0 < view.remaining routine := by
  unfold View.remaining
  cases phase : routine.phase with
  | launching | awaitingEntries => exact Nat.succ_pos _
  | finished =>
      rw [isFinished, phase] at unfinished
      cases unfinished
  | awaitingSuccessor cursor =>
      have stands := placed cursor (by rw [phase]; rfl)
      rw [Phase.remaining]
      split <;> omega
  | pausing cursor wakeAt =>
      rw [Phase.remaining]
      split
      · exact Nat.one_pos
      · split <;> omega

theorem remaining_restart_le (routine : Routine) (view : View) (connection : Connection) :
    view.remaining (routine.restart view connection).routine ≤
      view.pool.log.window.stop - view.pool.log.window.base + 1 := by
  unfold restart
  split
  · exact Nat.zero_le _
  · exact Nat.le_refl _

/-- After a look at a position that was written, the cursor stands there, or the position was
evicted and the routine starts again. -/
theorem Visit.remaining_le (visited : Visit routine view connection position turn)
    (written : position < view.pool.log.window.stop) (pauses : 0 < view.interval) :
    (view.pool.log.window.base ≤ position ∧
      view.remaining turn.routine ≤ view.pool.log.window.stop - position) ∨
    (position < view.pool.log.window.base ∧
      view.remaining turn.routine ≤
        view.pool.log.window.stop - view.pool.log.window.base + 1) := by
  have moved : view.pool.log.window.base ≤ position →
      Phase.remaining view.pool.log.window.base view.pool.log.window.stop view.now
        (.awaitingSuccessor position) ≤ view.pool.log.window.stop - position := by
    intro inside
    exact Nat.le_of_eq (if_neg (by omega))
  have paused : Phase.remaining view.pool.log.window.base view.pool.log.window.stop view.now
      (.pausing position (view.now + view.interval)) ≤ view.pool.log.window.stop - position := by
    rw [Phase.remaining, if_pos (by omega)]
    omega
  have within : ∀ {entry}, view.pool.entry position = .ready entry →
      view.pool.log.window.base ≤ position := fun live =>
    Log.Window.base_le_of_live (Log.get_eq_ready_iff.mp live)
  cases visited with
  | sent entry live | held entry live => exact Or.inl ⟨within live, moved (within live)⟩
  | notReady entry live | behind entry live | refused entry live =>
      exact Or.inl ⟨within live, paused⟩
  | skipped tombstone =>
      have inside := (Log.get_eq_removed_iff.mp tombstone).1
      exact Or.inl ⟨inside, moved inside⟩
  | lost gone =>
      rcases gone with evicted | pending
      · have behind := Log.get_eq_evicted_iff.mp evicted
        exact Or.inr ⟨behind, routine.remaining_restart_le view connection⟩
      · exact absurd (Log.get_eq_pending_iff.mp pending) (Nat.not_le.mpr written)

theorem remaining_resume_lt (valid : view.pool.log.Valid)
    (few : view.pool.log.written < UInt64.size)
    (placed : ∀ cursor, routine.phase.cursor? = some cursor → cursor < view.pool.log.window.stop)
    (pauses : 0 < view.interval) (wakes : routine.wakesOn view connection wake = true) :
    view.remaining (routine.resume view connection wake).routine < view.remaining routine := by
  cases looks : routine.looksAt? view connection wake with
  | some position =>
      have written := written_of_looksAt valid few placed wakes looks
      have bound := (resume_of_looksAt looks).remaining_le written pauses
      unfold View.remaining at bound ⊢
      cases look_cases looks with
      | front position phase_eq front =>
          have atBase := (Log.front_eq_some valid front).1
          rw [phase_eq, Phase.remaining]
          omega
      | next cursor phase_eq goesOn =>
          rw [phase_eq, Phase.remaining]
          split <;> omega
      | again cursor wakeAt phase_eq goesOn =>
          simp only [wakesOn, phase_eq] at wakes
          have late := of_decide_eq_true wakes
          rw [phase_eq, Phase.remaining, if_neg (Nat.not_lt.mpr late)]
          split <;> omega
  | none =>
      -- A routine that looks nowhere launches or ends.
      have positive := remaining_pos (not_finished_of_wakesOn wakes) placed
      have ended : view.remaining (routine.finish connection).routine < view.remaining routine :=
        positive
      have cancels : view.cancels connection = true → ∀ position,
          view.remaining (routine.proceed view connection position).routine <
            view.remaining routine := by
        intro ends position
        rw [proceed, if_pos ends]
        exact ended
      unfold wakesOn at wakes
      unfold looksAt? at looks
      unfold resume
      cases phase : routine.phase <;> cases wake <;> rw [phase] at wakes looks
      case launching.launch =>
        refine Nat.lt_of_le_of_lt (routine.remaining_restart_le view connection) ?_
        rw [View.remaining, phase]
        exact Nat.lt_succ_self _
      case awaitingEntries.entries =>
        obtain ⟨position, entry, live⟩ := (Log.offers_entries_iff valid).mp wakes
        rw [Log.front_eq_none looks] at live
        cases live
      case awaitingSuccessor.successor | pausing.timer =>
        simp only [ite_eq_left_iff, reduceCtorEq, imp_false, not_not] at looks
        exact cancels looks _
      case awaitingEntries.cancellation | awaitingSuccessor.cancellation | pausing.cancellation =>
        exact ended
      all_goals cases wakes

end Routine

namespace Hub

/-- What a hub needs for its routines to come to rest. -/
structure Restful (hub : Hub) : Prop where
  coherent : hub.pool.Coherent
  placed : hub.Placed
  few : hub.pool.log.written < UInt64.size
  pauses : 0 < hub.config.catchupInterval.toNat

def Calm (hub : Hub) : Prop :=
  ∀ index < hub.routines.size, hub.nextWake? index = none

instance (hub : Hub) : Decidable hub.Calm :=
  inferInstanceAs (Decidable (∀ index < hub.routines.size, hub.nextWake? index = none))

variable {hub start : Hub} {index other : Nat} {wake : Routine.Wake}

theorem nextWake?_of_size_le (beyond : hub.routines.size ≤ index) :
    hub.nextWake? index = none := by
  apply List.find?_eq_none.mpr
  intro wake _member wakes
  obtain ⟨routine, connection, turns⟩ := turns_of_wakesOn wakes
  exact Nat.not_lt.mpr beyond (Array.getElem?_eq_some_iff.mp turns.routine_at).1

theorem Calm.nextWake?_eq (calm : hub.Calm) (index : Nat) : hub.nextWake? index = none := by
  by_cases within : index < hub.routines.size
  · exact calm index within
  · exact nextWake?_of_size_le (Nat.le_of_not_lt within)

theorem Fresh.pauses (fresh : start.Fresh) : 0 < start.config.catchupInterval.toNat := by
  obtain ⟨poolConfig, validator, pool, operations, config, registry, poolMade, made⟩ := fresh
  obtain ⟨valid, rfl⟩ := new_eq made
  unfold GossipConfig.validate at valid
  split at valid
  · cases valid
  · split at valid
    · cases valid
    · rename_i positive
      apply Nat.pos_of_ne_zero
      intro zero
      exact positive (UInt64.toNat_inj.mp zero)

theorem Fresh.restful (fresh : start.Fresh) (few : start.pool.log.written < UInt64.size) :
    start.Restful :=
  ⟨fresh.coherent, fresh.placed, few, fresh.pauses⟩

theorem Restful.run (restful : hub.Restful) (actions : List Action)
    (few : (hub.run actions).pool.log.written < UInt64.size) : (hub.run actions).Restful where
  coherent := coherent_run restful.coherent actions
  placed := restful.placed.run restful.coherent actions
  few := few
  pauses := by
    rw [run_config]
    exact restful.pauses

theorem Restful.turn (restful : hub.Restful) (wakes : hub.wakesOn index wake = true) :
    (hub.perform (.resume index wake)).Restful := by
  apply restful.run [.resume index wake]
  change (hub.perform (.resume index wake)).pool.log.written < UInt64.size
  rw [pool_of_turn wakes]
  exact restful.few

def remaining (hub : Hub) (index : Nat) : Nat :=
  match hub.routines[index]? with
  | some routine => hub.view.remaining routine
  | none => 0

theorem remaining_lt_turnBound (hub : Hub) (index : Nat) :
    hub.remaining index < hub.turnBound := by
  unfold remaining
  split
  · rename_i routine _
    rw [turnBound, hub.pool.log.retained_eq]
    exact Nat.lt_succ_of_le (Routine.Phase.remaining_le _ _ _ routine.phase)
  · exact Nat.succ_pos _

theorem Turns.remaining_lt {routine : Routine} {connection : Connection}
    (turns : hub.Turns index wake routine connection) (restful : hub.Restful) :
    (hub.perform (.resume index wake)).remaining index < hub.remaining index := by
  have fewer := Routine.remaining_resume_lt restful.coherent.log_valid restful.few
    (fun cursor => restful.placed index routine cursor turns.routine_at) restful.pauses turns.wakes
  have within := (Array.getElem?_eq_some_iff.mp turns.routine_at).1
  rw [turns.perform_eq]
  unfold remaining
  simp only [Array.getElem?_setIfInBounds_self_of_lt within, turns.routine_at]
  exact fewer

theorem activateFor_waits (restful : hub.Restful) {turns : Nat}
    (enough : hub.remaining index < turns) :
    (activateFor index turns hub).1.nextWake? index = none := by
  induction turns generalizing hub with
  | zero => exact absurd enough (Nat.not_lt_zero _)
  | succ turns ih =>
      unfold activateFor
      cases next : hub.nextWake? index with
      | none => exact next
      | some wake =>
          have wakes : hub.wakesOn index wake = true := List.find?_some next
          obtain ⟨routine, connection, taken⟩ := turns_of_wakesOn wakes
          have fewer := taken.remaining_lt restful
          change (activateFor index turns (hub.resume index wake).1).1.nextWake? index = none
          rw [resume_eq_perform next]
          exact ih (restful.turn wakes) (Nat.lt_of_lt_of_le fewer (Nat.le_of_lt_succ enough))

theorem Restful.activateFor (restful : hub.Restful) (index turns : Nat) :
    (activateFor index turns hub).1.Restful := by
  induction turns generalizing hub with
  | zero => exact restful
  | succ turns ih =>
      unfold Hub.activateFor
      cases next : hub.nextWake? index with
      | none => exact restful
      | some wake =>
          change (Hub.activateFor index turns (hub.resume index wake).1).1.Restful
          rw [resume_eq_perform next]
          exact ih (restful.turn (List.find?_some next))

/-- A turn does not decide what the wait of another routine comes to, not even of one that has the
same connection. -/
theorem Turns.wakesOn_other {routine : Routine} {connection : Connection}
    (turns : hub.Turns other wake routine connection) (different : other ≠ index) :
    (hub.perform (.resume other wake)).wakesOn index = hub.wakesOn index := by
  obtain ⟨entries, _, queued⟩ := routine.resume_queues hub.view connection wake
  have opened := turns.connection_at
  rw [turns.perform_eq]
  funext wake
  unfold wakesOn
  simp only [Array.getElem?_setIfInBounds_ne different]
  cases hub.routines[index]? with
  | none => rfl
  | some waiting =>
      dsimp only
      by_cases same : routine.connection = waiting.connection
      · have within := (Array.getElem?_eq_some_iff.mp opened).1
        rw [← same]
        simp only [Array.getElem?_setIfInBounds_self_of_lt within, opened, queued]
        rfl
      · simp only [Array.getElem?_setIfInBounds_ne same]
        rfl

theorem nextWake?_of_turn (different : other ≠ index) (wakes : hub.wakesOn other wake = true) :
    (hub.perform (.resume other wake)).nextWake? index = hub.nextWake? index := by
  obtain ⟨routine, connection, turns⟩ := turns_of_wakesOn wakes
  rw [nextWake?, turns.wakesOn_other different, nextWake?]

theorem activateFor_nextWake?_other (different : other ≠ index) (turns : Nat) (hub : Hub) :
    (activateFor other turns hub).1.nextWake? index = hub.nextWake? index := by
  induction turns generalizing hub with
  | zero => rfl
  | succ turns ih =>
      unfold activateFor
      cases next : hub.nextWake? other with
      | none => rfl
      | some wake =>
          change (activateFor other turns (hub.resume other wake).1).1.nextWake? index = _
          rw [resume_eq_perform next, ih, nextWake?_of_turn different (List.find?_some next)]

theorem activateEach_waits (restful : hub.Restful) (indices : List Nat)
    (covered : index ∈ indices ∨ hub.nextWake? index = none) :
    (activateEach indices hub).nextWake? index = none := by
  induction indices generalizing hub with
  | nil =>
      rcases covered with member | waits
      · cases member
      · exact waits
  | cons first later ih =>
      apply ih (restful.activateFor first hub.turnBound)
      by_cases same : first = index
      · subst same
        exact Or.inr (activateFor_waits restful (hub.remaining_lt_turnBound first))
      · rcases covered with member | waits
        · exact Or.inl ((List.mem_cons.mp member).resolve_left (Ne.symm same))
        · exact Or.inr ((activateFor_nextWake?_other same hub.turnBound hub).trans waits)

theorem Restful.activateEach (restful : hub.Restful) (indices : List Nat) :
    (activateEach indices hub).Restful := by
  induction indices generalizing hub with
  | nil => exact restful
  | cons first later ih => exact ih (restful.activateFor first hub.turnBound)

theorem Restful.settle (restful : hub.Restful) : hub.settle.1.Restful := by
  rw [settle_eq]
  exact restful.activateEach _

/-- However many routines there are, one round is enough. -/
theorem Restful.settle_calm (restful : hub.Restful) : hub.settle.1.Calm := by
  intro index _within
  rw [settle_eq]
  apply activateEach_waits restful
  by_cases within : index < hub.routines.size
  · exact Or.inl (List.mem_range.mpr within)
  · exact Or.inr (nextWake?_of_size_le (Nat.le_of_not_lt within))

end Hub

end VoteGossip
