import VoteGossip.Proofs.Gossip.Aftermath
import VoteGossip.Proofs.Gossip.Delivery
import VoteGossip.Proofs.Gossip.Settling

/-!
What a routine does in one go, from the end of a wait until it waits again. It walks the log, and
there are two ways back in its loop: a cursor that the window has left behind is given up, and a
wait for entries that found none is begun again. Neither lets it spin. The front of the log is live,
and no position from there on is evicted, so after its first turn a routine does not lose its cursor
again. Every further round of the loop takes the cursor one slot on, and there are no more slots
than the log retains.
-/

set_option autoImplicit false

namespace VoteGossip

namespace Routine

/-- How often a turn gives up the cursor because there is nothing at its position: once or not at
all. -/
def resets (routine : Routine) (view : View) (connection : Connection) (wake : Wake) : Nat :=
  match routine.looksAt? view connection wake with
  | none => 0
  | some position =>
      match view.pool.entry position with
      | .evicted | .pending => 1
      | .ready _ | .removed => 0

/-- How often a turn comes to the head of the loop: where it enters the loop or goes on with a
cursor, where there was no entry to set the cursor to, and where it gives up the cursor. -/
def rounds (routine : Routine) (view : View) (connection : Connection) (wake : Wake) : Nat :=
  let begun :=
    match routine.phase, wake with
    | .launching, .launch => 1
    | .awaitingEntries, .entries => if view.pool.front = none then 1 else 0
    | .awaitingSuccessor _, .successor => 1
    | .pausing _ _, .timer => 1
    | _, _ => 0
  begun + routine.resets view connection wake

/-- The window has left behind the position that a routine in this phase looks at next. -/
def Phase.outrun (base : Nat) : Phase → Prop
  | .awaitingSuccessor cursor => cursor + 1 < base
  | .pausing cursor _ => cursor < base
  | _ => False

variable {routine : Routine} {view : View} {connection : Connection} {wake : Wake}
  {position : Nat} {turn : Turn}

theorem resets_le_one (routine : Routine) (view : View) (connection : Connection) (wake : Wake) :
    routine.resets view connection wake ≤ 1 := by
  unfold resets
  split
  · exact Nat.zero_le 1
  · split
    · exact Nat.le_refl 1
    · exact Nat.le_refl 1
    · exact Nat.zero_le 1
    · exact Nat.zero_le 1

theorem rounds_le (routine : Routine) (view : View) (connection : Connection) (wake : Wake) :
    routine.rounds view connection wake ≤ 1 + routine.resets view connection wake := by
  apply Nat.add_le_add_right
  split
  · exact Nat.le_refl 1
  · split
    · exact Nat.le_refl 1
    · exact Nat.zero_le 1
  · exact Nat.le_refl 1
  · exact Nat.le_refl 1
  · exact Nat.zero_le 1

theorem not_outrun_restart (routine : Routine) (view : View) (connection : Connection)
    (base : Nat) : ¬ (routine.restart view connection).routine.phase.outrun base := by
  unfold restart
  split
  · exact id
  · exact id

theorem outrun_of_looksAt (valid : view.pool.log.Valid)
    (looks : routine.looksAt? view connection wake = some position)
    (behind : position < view.pool.log.window.base) :
    routine.phase.outrun view.pool.log.window.base := by
  cases look_cases looks with
  | front _ phase_eq front =>
      have atBase := (Log.front_eq_some valid front).1
      exact absurd atBase (Nat.ne_of_lt behind)
  | next cursor phase_eq goesOn =>
      rw [phase_eq]
      exact behind
  | again cursor wakeAt phase_eq goesOn =>
      rw [phase_eq]
      exact behind

theorem outrun_of_resets (valid : view.pool.log.Valid)
    (few : view.pool.log.written < UInt64.size)
    (placed : ∀ cursor, routine.phase.cursor? = some cursor → cursor < view.pool.log.window.stop)
    (wakes : routine.wakesOn view connection wake = true)
    (loses : routine.resets view connection wake ≠ 0) :
    routine.phase.outrun view.pool.log.window.base := by
  unfold resets at loses
  cases looks : routine.looksAt? view connection wake with
  | none =>
      rw [looks] at loses
      exact absurd rfl loses
  | some position =>
      have written := not_pending_of_looksAt valid few placed wakes looks
      rw [looks] at loses
      cases slot : view.pool.entry position with
      | evicted => exact outrun_of_looksAt valid looks (Log.get_eq_evicted_iff.mp slot)
      | pending => exact absurd slot written
      | ready entry | removed =>
          simp only [slot, ne_eq, not_true_eq_false] at loses

theorem Visit.not_outrun (visited : Visit routine view connection position turn) :
    ¬ turn.routine.phase.outrun view.pool.log.window.base := by
  have inside : ∀ {entry}, view.pool.entry position = .ready entry →
      view.pool.log.window.base ≤ position := fun live =>
    Log.Window.base_le_of_live (Log.get_eq_ready_iff.mp live)
  cases visited with
  | sent entry live | held entry live =>
      exact Nat.not_lt.mpr (Nat.le_succ_of_le (inside live))
  | notReady entry live | behind entry live | refused entry live =>
      exact Nat.not_lt.mpr (inside live)
  | skipped tombstone =>
      exact Nat.not_lt.mpr (Nat.le_succ_of_le (Log.get_eq_removed_iff.mp tombstone).1)
  | lost gone => exact not_outrun_restart routine view connection _

theorem not_outrun_resume (valid : view.pool.log.Valid)
    (few : view.pool.log.written < UInt64.size)
    (placed : ∀ cursor, routine.phase.cursor? = some cursor → cursor < view.pool.log.window.stop)
    (pauses : 0 < view.interval) (wakes : routine.wakesOn view connection wake = true) :
    ¬ (routine.resume view connection wake).routine.phase.outrun view.pool.log.window.base := by
  cases looks : routine.looksAt? view connection wake with
  | some position => exact (resume_of_looksAt looks).not_outrun
  | none =>
      have idle := resume_of_looksAt_none looks
      rcases idle.phase_cases with same | finished | ⟨_, waiting⟩
      · -- A turn that takes place brings the routine on, so its phase is another one.
        have fewer := remaining_resume_lt valid few placed pauses wakes
        unfold View.remaining at fewer
        rw [same] at fewer
        exact absurd fewer (Nat.lt_irrefl _)
      · rw [finished]
        exact id
      · rw [waiting]
        exact id

end Routine

namespace Hub

variable {hub start : Hub} {index : Nat} {wake : Routine.Wake} {routine : Routine}
  {connection : Connection} {wakes : List Routine.Wake}

/-- The routine can take these turns in one go: one after the other, while nothing else runs. -/
def Takes (hub : Hub) (index : Nat) : List Routine.Wake → Prop
  | [] => True
  | wake :: later =>
      hub.wakesOn index wake = true ∧ (hub.perform (.resume index wake)).Takes index later

def counted (count : Routine → Routine.View → Connection → Routine.Wake → Nat) (hub : Hub)
    (index : Nat) (wake : Routine.Wake) : Nat :=
  match hub.routines[index]? with
  | none => 0
  | some routine =>
      match hub.connections[routine.connection]? with
      | none => 0
      | some connection => count routine hub.view connection wake

def total (count : Routine → Routine.View → Connection → Routine.Wake → Nat) (index : Nat) :
    Hub → List Routine.Wake → Nat
  | _, [] => 0
  | hub, wake :: later =>
      hub.counted count index wake + total count index (hub.perform (.resume index wake)) later

theorem Turns.counted_eq (turns : hub.Turns index wake routine connection)
    (count : Routine → Routine.View → Connection → Routine.Wake → Nat) :
    hub.counted count index wake = count routine hub.view connection wake := by
  simp only [counted, turns.routine_at, turns.connection_at]

theorem Takes.restful (takes : hub.Takes index wakes) (restful : hub.Restful) :
    (hub.run (wakes.map (.resume index))).Restful := by
  induction wakes generalizing hub with
  | nil => exact restful
  | cons wake later ih => exact ih takes.2 (restful.turn takes.1)

theorem Takes.length_le (takes : hub.Takes index wakes) (restful : hub.Restful) :
    wakes.length + (hub.run (wakes.map (.resume index))).remaining index ≤
      hub.remaining index := by
  induction wakes generalizing hub with
  | nil => exact Nat.le_of_eq (Nat.zero_add _)
  | cons wake later ih =>
      obtain ⟨woken, further⟩ := takes
      obtain ⟨routine, connection, turns⟩ := turns_of_wakesOn woken
      have fewer := turns.remaining_lt restful
      have rest := ih further (restful.turn woken)
      change later.length + 1 + ((hub.perform (.resume index wake)).run _).remaining index ≤ _
      omega

theorem Takes.total_rounds_le (takes : hub.Takes index wakes) :
    total Routine.rounds index hub wakes ≤ wakes.length + total Routine.resets index hub wakes := by
  induction wakes generalizing hub with
  | nil => exact Nat.zero_le _
  | cons wake later ih =>
      obtain ⟨woken, further⟩ := takes
      obtain ⟨routine, connection, turns⟩ := turns_of_wakesOn woken
      have first := routine.rounds_le hub.view connection wake
      have rest := ih further
      rw [total, total, turns.counted_eq, turns.counted_eq, List.length_cons]
      omega

/-- The window has left behind the position that the routine looks at next. -/
def Outrun (hub : Hub) (index : Nat) : Prop :=
  ∃ routine, hub.routines[index]? = some routine ∧
    routine.phase.outrun hub.pool.log.window.base

theorem Turns.outrun_of_resets (turns : hub.Turns index wake routine connection)
    (restful : hub.Restful) (loses : hub.counted Routine.resets index wake ≠ 0) :
    hub.Outrun index := by
  rw [turns.counted_eq] at loses
  exact ⟨routine, turns.routine_at, Routine.outrun_of_resets restful.coherent.log_valid restful.few
    (fun cursor => restful.placed index routine cursor turns.routine_at) turns.wakes loses⟩

theorem Turns.not_outrun (turns : hub.Turns index wake routine connection)
    (restful : hub.Restful) : ¬ (hub.perform (.resume index wake)).Outrun index := by
  intro outrun
  obtain ⟨turned, found, behind⟩ := outrun
  rw [turns.routine_after] at found
  cases found
  rw [pool_of_turn turns.wakesOn_eq] at behind
  exact Routine.not_outrun_resume restful.coherent.log_valid restful.few
    (fun cursor => restful.placed index routine cursor turns.routine_at) restful.pauses turns.wakes
    behind

theorem Takes.total_resets_eq_zero (takes : hub.Takes index wakes) (restful : hub.Restful)
    (level : ¬ hub.Outrun index) : total Routine.resets index hub wakes = 0 := by
  induction wakes generalizing hub with
  | nil => rfl
  | cons wake later ih =>
      obtain ⟨woken, further⟩ := takes
      obtain ⟨routine, connection, turns⟩ := turns_of_wakesOn woken
      have kept : hub.counted Routine.resets index wake = 0 := by
        apply Classical.byContradiction
        intro loses
        exact level (turns.outrun_of_resets restful loses)
      have rest := ih further (restful.turn woken) (turns.not_outrun restful)
      rw [total, kept, rest]

theorem Takes.total_resets_le (takes : hub.Takes index wakes) (restful : hub.Restful) :
    total Routine.resets index hub wakes ≤ 1 := by
  cases wakes with
  | nil => exact Nat.zero_le 1
  | cons wake later =>
      obtain ⟨woken, further⟩ := takes
      obtain ⟨routine, connection, turns⟩ := turns_of_wakesOn woken
      have first := routine.resets_le_one hub.view connection wake
      have rest := further.total_resets_eq_zero (restful.turn woken) (turns.not_outrun restful)
      rw [total, turns.counted_eq, rest]
      exact first

theorem activates_append (takes : hub.Takes index wakes) {later : List Routine.Wake}
    (activates : (hub.run (wakes.map (.resume index))).Activates index later) :
    hub.Activates index (wakes ++ later) := by
  induction wakes generalizing hub with
  | nil => exact activates
  | cons wake further ih => exact ⟨takes.1, ih takes.2 activates⟩

theorem exists_takes_activation (index turns : Nat) (hub : Hub) :
    ∃ wakes, hub.Takes index wakes ∧
      activation index turns hub = wakes.map (.resume index) := by
  induction turns generalizing hub with
  | zero => exact ⟨[], trivial, rfl⟩
  | succ turns ih =>
      unfold activation
      cases next : hub.nextWake? index with
      | none => exact ⟨[], trivial, rfl⟩
      | some wake =>
          obtain ⟨later, takes, same⟩ := ih (hub.perform (.resume index wake))
          refine ⟨wake :: later, ⟨List.find?_some next, takes⟩, ?_⟩
          simp only [same, List.map_cons]

theorem Restful.exists_activates (restful : hub.Restful) (index : Nat) :
    ∃ wakes, hub.Activates index wakes ∧
      (hub.activate index).1 = hub.run (wakes.map (.resume index)) := by
  obtain ⟨wakes, takes, same⟩ := exists_takes_activation index hub.turnBound hub
  have activated : (hub.activate index).1 = hub.run (wakes.map (.resume index)) := by
    rw [← same, run_activation]
    rfl
  have waits : (hub.activate index).1.nextWake? index = none :=
    activateFor_waits restful (hub.remaining_lt_turnBound index)
  have rests : (hub.run (wakes.map (.resume index))).Activates index [] := by
    intro wake
    rw [← activated]
    exact wakesOn_of_nextWake?_none waits wake
  have whole := activates_append takes rests
  rw [List.append_nil] at whole
  exact ⟨wakes, whole, activated⟩

/-- What a routine can do in one go. -/
structure Rests (hub : Hub) (index : Nat) : Prop where
  rounds_le : ∀ wakes, hub.Takes index wakes →
    total Routine.rounds index hub wakes ≤ hub.pool.log.retained + 3
  resets_le : ∀ wakes, hub.Takes index wakes → total Routine.resets index hub wakes ≤ 1
  /-- Whatever its waits came to so far, the routine comes to a wait that stays open, or ends. -/
  comes_to_rest : ∀ wakes, hub.Takes index wakes → ∃ later, hub.Activates index (wakes ++ later)
  scheduled : ∃ wakes, hub.Activates index wakes ∧
    (hub.activate index).1 = hub.run (wakes.map (.resume index))

/-- In one go a routine comes round its loop at most as often as the log retains slots, and three
times more, and gives up its cursor once at most; then it waits or has finished. Positions are
64-bit numbers, so this is said of a log whose end is one. -/
theorem never_spins (fresh : start.Fresh) (actions : List Action)
    (few : (start.run actions).pool.log.written < UInt64.size) (index : Nat) :
    (start.run actions).Rests index := by
  have fewAtStart : start.pool.log.written < UInt64.size :=
    Nat.lt_of_le_of_lt (written_le_run fresh.coherent actions) few
  have restful := (fresh.restful fewAtStart).run actions few
  generalize start.run actions = hub at restful
  refine ⟨?_, fun wakes takes => takes.total_resets_le restful, ?_, restful.exists_activates index⟩
  · intro wakes takes
    have turns := takes.length_le restful
    have bound : hub.remaining index < hub.pool.log.retained + 3 := hub.remaining_lt_turnBound index
    have lost := takes.total_resets_le restful
    have rounds := takes.total_rounds_le
    omega
  · intro wakes takes
    obtain ⟨later, activates, _⟩ := (takes.restful restful).exists_activates index
    exact ⟨later, activates_append takes activates⟩

/-- The pool was flushed behind the cursor and filled again, with a tombstone in the middle. The
routine gives up its cursor, starts again from the front and walks to the end: three slots, four
rounds. -/
theorem rests_after_flush :
    ∃ pool start, Pool.new {} Validator.acceptAll = .ok pool ∧
      Hub.new {} pool (.empty 1) = .ok start ∧
      let node : NodeId := ⟨Vector.replicate 32 7⟩
      let actions : List Action := [.start, .openConnection node 4, .addPeer 0, .report node 1,
        .submit ⟨[97]⟩ .unknown, .resume 0 .launch, .resume 0 .entries, .flush,
        .submit ⟨[98]⟩ .unknown, .submit ⟨[99]⟩ .unknown, .submit ⟨[100]⟩ .unknown,
        .submit ⟨[101]⟩ .unknown, .update 1 [⟨[98]⟩, ⟨[100]⟩]]
      let wakes : List Routine.Wake := [.successor, .entries, .successor, .successor]
      let hub := start.run actions
      hub.pool.log.written < UInt64.size ∧ hub.Rests 0 ∧ hub.pool.log.retained = 3 ∧
        total Routine.rounds 0 hub wakes = 4 ∧ total Routine.resets 0 hub wakes = 1 ∧
        (hub.run (wakes.map (.resume 0))).nextWake? 0 = none := by
  refine ⟨_, _, rfl, rfl, ?few, never_spins ⟨{}, Validator.acceptAll, _, [], {}, .empty 1, rfl,
    rfl⟩ _ ?few 0, ?computed⟩
  case few => decide +kernel
  -- The rest at once: most of the work is hashing, and it is the same for every part.
  case computed => decide +kernel

end Hub

end VoteGossip
