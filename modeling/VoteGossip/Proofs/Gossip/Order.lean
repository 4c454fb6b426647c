import VoteGossip.Proofs.Gossip.Cursor

/-!
Gossip repeats nothing and keeps to the order of the log. Every position that a routine has sent
lies behind its cursor or, while it has no cursor, behind the window. A routine forgets its cursor
only when the window has passed it, and the window never goes back, so wherever the routine starts
again it finds nothing that it has sent before.
-/

set_option autoImplicit false

namespace VoteGossip

def RoutineEvent.sentAt? : RoutineEvent → Option Nat
  | .offered _ position .sent => some position
  | _ => none

namespace Routine

def Turn.sent (turn : Turn) : List Nat := turn.events.filterMap RoutineEvent.sentAt?

/-- The turn queues the frames of the entries that it reports as sent, and no other frames. -/
def Turn.Queues (turn : Turn) (view : View) (connection : Connection) : Prop :=
  ∃ entries : List PoolEntry, turn.sent.map view.pool.entry = entries.map .ready ∧
    turn.connection =
      { connection with queue := connection.queue ++ entries.map PoolEntry.frame }

/-- The routine will not look at this position again. -/
def Phase.isDoneWith (base : Nat) : Phase → Nat → Prop
  | .launching, position | .awaitingEntries, position => position < base
  | .awaitingSuccessor cursor, position => position ≤ cursor
  | .pausing cursor _, position => position < cursor
  | .finished, _ => True

theorem Phase.isDoneWith_mono {base later : Nat} (grown : base ≤ later) {phase : Phase}
    {position : Nat} (done : phase.isDoneWith base position) : phase.isDoneWith later position := by
  cases phase with
  | launching | awaitingEntries => exact Nat.lt_of_lt_of_le done grown
  | awaitingSuccessor | pausing | finished => exact done

variable {routine : Routine} {view : View} {connection : Connection} {wake : Wake}
  {position : Nat} {turn : Turn} {base : Nat}

theorem isDoneWith_restart (routine : Routine) (view : View) (connection : Connection)
    (less : position < base) :
    (routine.restart view connection).routine.phase.isDoneWith base position := by
  unfold restart
  split
  · exact trivial
  · exact less

theorem sent_restart (routine : Routine) (view : View) (connection : Connection) :
    (routine.restart view connection).sent = [] := by
  unfold restart
  split <;> rfl

theorem lt_of_looksAt (valid : view.pool.log.Valid)
    (looks : routine.looksAt? view connection wake = some position) {before : Nat}
    (done : routine.phase.isDoneWith view.pool.log.window.base before) : before < position := by
  cases look_cases looks with
  | front position phase_eq front =>
      rw [phase_eq] at done
      obtain ⟨atBase, _⟩ := Log.front_eq_some valid front
      rw [atBase]
      exact done
  | next cursor phase_eq goesOn =>
      rw [phase_eq] at done
      exact Nat.lt_succ_of_le done
  | again cursor wakeAt phase_eq goesOn =>
      rw [phase_eq] at done
      exact done

/-- A wait for a successor ends only once the successor was written, and no other wait moves the
cursor, so a routine never looks beyond the end of the log. -/
theorem written_of_looksAt (valid : view.pool.log.Valid)
    (few : view.pool.log.written < UInt64.size)
    (placed : ∀ cursor, routine.phase.cursor? = some cursor → cursor < view.pool.log.window.stop)
    (wakes : routine.wakesOn view connection wake = true)
    (looks : routine.looksAt? view connection wake = some position) :
    position < view.pool.log.window.stop := by
  cases look_cases looks with
  | front position phase_eq front =>
      obtain ⟨_, entry, alive⟩ := Log.front_eq_some valid front
      exact Log.Window.lt_stop_of_live alive
  | next cursor phase_eq goesOn =>
      have stands := placed cursor (by rw [phase_eq]; rfl)
      have published := valid.published
      simp only [wakesOn, phase_eq] at wakes
      have offered : min (cursor + 1) Log.lastPosition < view.pool.log.written :=
        of_decide_eq_true wakes
      unfold Log.lastPosition at offered
      omega
  | again _ wakeAt phase_eq goesOn => exact placed position (by rw [phase_eq]; rfl)

theorem not_pending_of_looksAt (valid : view.pool.log.Valid)
    (few : view.pool.log.written < UInt64.size)
    (placed : ∀ cursor, routine.phase.cursor? = some cursor → cursor < view.pool.log.window.stop)
    (wakes : routine.wakesOn view connection wake = true)
    (looks : routine.looksAt? view connection wake = some position) :
    view.pool.entry position ≠ .pending := by
  intro pending
  have written := written_of_looksAt valid few placed wakes looks
  exact Nat.not_le.mpr written (Log.get_eq_pending_iff.mp pending)

theorem Visit.isDoneWith (visited : Visit routine view connection position turn)
    (written : view.pool.entry position ≠ .pending) {before : Nat} (less : before < position) :
    turn.routine.phase.isDoneWith view.pool.log.window.base before := by
  cases visited with
  | sent | held | skipped => exact Nat.le_of_lt less
  | notReady | behind | refused => exact less
  | lost gone =>
      have evicted := Log.get_eq_evicted_iff.mp (gone.resolve_right written)
      exact isDoneWith_restart routine view connection (Nat.lt_trans less evicted)

theorem Visit.sent_cases (visited : Visit routine view connection position turn) :
    turn.sent = [] ∨
      turn.sent = [position] ∧ turn.routine.phase = .awaitingSuccessor position := by
  cases visited with
  | sent => exact Or.inr ⟨rfl, rfl⟩
  | held | notReady | behind | refused | skipped => exact Or.inl rfl
  | lost gone => exact Or.inl (sent_restart routine view connection)

theorem Visit.queues (visited : Visit routine view connection position turn) :
    turn.Queues view connection := by
  cases visited with
  | sent entry live =>
      refine ⟨[entry], ?_, ?_⟩
      · change [view.pool.entry position] = _
        rw [live]
        rfl
      · simp only [List.map_cons, List.map_nil, Array.appendList_cons, Array.appendList_nil]
  | held | notReady | behind | refused | skipped =>
      exact ⟨[], rfl, by simp only [List.map_nil, Array.appendList_nil]⟩
  | lost gone =>
      refine ⟨[], ?_, ?_⟩
      · rw [sent_restart]
        rfl
      · unfold restart
        split <;> simp only [finish, park, List.map_nil, Array.appendList_nil]

theorem Idle.sent_eq (idle : Idle routine connection turn) : turn.sent = [] := by
  refine List.filterMap_eq_nil_iff.mpr ?_
  intro event member
  cases event with
  | offered node position delivery =>
      exact absurd member (idle.offers_nothing node position delivery)
  | started | retrying | stopped => rfl

theorem Idle.isDoneWith (idle : Idle routine connection turn) {before : Nat}
    (done : routine.phase.isDoneWith base before) : turn.routine.phase.isDoneWith base before := by
  rcases idle.phase_cases with same | finished | ⟨unplaced, waiting⟩
  · rw [same]
    exact done
  · rw [finished]
    exact trivial
  · rw [waiting]
    cases phase : routine.phase with
    | launching | awaitingEntries =>
        rw [phase] at done
        exact done
    | awaitingSuccessor | pausing | finished =>
        rw [phase] at unplaced
        exact unplaced.elim

theorem Idle.queues (idle : Idle routine connection turn) : turn.Queues view connection := by
  refine ⟨[], ?_, ?_⟩
  · rw [idle.sent_eq]
    rfl
  · rw [idle.connection_eq]
    simp only [List.map_nil, Array.appendList_nil]

theorem resume_queues (routine : Routine) (view : View) (connection : Connection) (wake : Wake) :
    (routine.resume view connection wake).Queues view connection := by
  cases looks : routine.looksAt? view connection wake with
  | none => exact (resume_of_looksAt_none looks).queues
  | some position => exact (resume_of_looksAt looks).queues

end Routine

namespace Hub

def sent (hub : Hub) (index : Nat) (actions : List Action) : List Nat :=
  (hub.reports index actions).filterMap RoutineEvent.sentAt?

theorem sent_snoc (hub : Hub) (index : Nat) (earlier : List Action) (last : Action) :
    hub.sent index (earlier ++ [last]) = hub.sent index earlier ++
      ((hub.run earlier).reported index last).filterMap RoutineEvent.sentAt? := by
  rw [sent, reports_snoc, List.filterMap_append]
  rfl

/-- What a routine has sent so far is in order and will not come up again. -/
structure Ordered (hub : Hub) (index : Nat) (sent : List Nat) : Prop where
  increasing : sent.Pairwise (· < ·)
  done : ∀ position ∈ sent, ∃ routine, hub.routines[index]? = some routine ∧
    routine.phase.isDoneWith hub.pool.log.window.base position

variable {hub start : Hub} {index : Nat} {sent : List Nat} {action : Action} {wake : Routine.Wake}

theorem reported_of_absent (absent : hub.routines[index]? = none) (action : Action) :
    hub.reported index action = [] := by
  cases action with
  | resume other wake =>
      refine if_neg ?_
      rintro ⟨rfl, wakes⟩
      obtain ⟨routine, connection, turns⟩ := turns_of_wakesOn wakes
      rw [turns.routine_at] at absent
      cases absent
  | _ => rfl

theorem Ordered.isDoneWith (ordered : hub.Ordered index sent) {routine : Routine}
    (found : hub.routines[index]? = some routine) {position : Nat} (member : position ∈ sent) :
    routine.phase.isDoneWith hub.pool.log.window.base position := by
  obtain ⟨other, otherFound, done⟩ := ordered.done position member
  rw [found] at otherFound
  cases otherFound
  exact done

theorem Ordered.nil_of_absent (ordered : hub.Ordered index sent)
    (absent : hub.routines[index]? = none) : sent = [] := by
  refine List.eq_nil_iff_forall_not_mem.mpr ?_
  intro position member
  obtain ⟨routine, found, _⟩ := ordered.done position member
  rw [absent] at found
  cases found

theorem ordered_nil (hub : Hub) (index : Nat) : hub.Ordered index [] where
  increasing := List.Pairwise.nil
  done := fun _position member => absurd member List.not_mem_nil

theorem Ordered.absent (ordered : hub.Ordered index sent) (absent : hub.routines[index]? = none)
    (action : Action) : (hub.perform action).Ordered index
      (sent ++ (hub.reported index action).filterMap RoutineEvent.sentAt?) := by
  rw [ordered.nil_of_absent absent, reported_of_absent absent]
  exact ordered_nil _ index

theorem Ordered.still (ordered : hub.Ordered index sent) (coherent : hub.pool.Coherent)
    {routine : Routine} (same : hub.routines[index]? = some routine)
    (found : (hub.perform action).routines[index]? = some routine) :
    (hub.perform action).Ordered index sent where
  increasing := ordered.increasing
  done := by
    intro position member
    have moved := evolves_perform coherent action
    have done := ordered.isDoneWith same member
    exact ⟨routine, found, Routine.Phase.isDoneWith_mono moved.base_le done⟩

theorem Turns.not_pending {routine : Routine} {connection : Connection} {position : Nat}
    (turns : hub.Turns index wake routine connection) (coherent : hub.pool.Coherent)
    (placed : hub.Placed) (few : hub.pool.log.written < UInt64.size)
    (looks : routine.looksAt? hub.view connection wake = some position) :
    hub.pool.entry position ≠ .pending :=
  Routine.not_pending_of_looksAt coherent.log_valid few
    (fun cursor => placed index routine cursor turns.routine_at) turns.wakes looks

theorem Ordered.turned (ordered : hub.Ordered index sent) (coherent : hub.pool.Coherent)
    (placed : hub.Placed) (few : hub.pool.log.written < UInt64.size) {routine : Routine}
    {connection : Connection} (turns : hub.Turns index wake routine connection)
    (found : (hub.perform (.resume index wake)).routines[index]? =
      some (routine.resume hub.view connection wake).routine) :
    (hub.perform (.resume index wake)).Ordered index
      (sent ++ (routine.resume hub.view connection wake).sent) := by
  have valid := coherent.log_valid
  have pool_eq := pool_of_turn turns.wakesOn_eq
  cases looks : routine.looksAt? hub.view connection wake with
  | none =>
      have idle := Routine.resume_of_looksAt_none looks
      rw [idle.sent_eq, List.append_nil]
      refine ⟨ordered.increasing, fun position member => ⟨_, found, ?_⟩⟩
      rw [pool_eq]
      exact idle.isDoneWith (ordered.isDoneWith turns.routine_at member)
  | some cursor =>
      have visited := Routine.resume_of_looksAt looks
      -- All that was sent stands behind the position that is looked at now.
      have behind : ∀ position ∈ sent, position < cursor := fun position member =>
        Routine.lt_of_looksAt valid looks (ordered.isDoneWith turns.routine_at member)
      have written := turns.not_pending coherent placed few looks
      have stillDone : ∀ position ∈ sent, Routine.Phase.isDoneWith hub.pool.log.window.base
          (routine.resume hub.view connection wake).routine.phase position :=
        fun position member => visited.isDoneWith written (behind position member)
      rcases visited.sent_cases with nothing | ⟨one, phase⟩
      · rw [nothing, List.append_nil]
        refine ⟨ordered.increasing, fun position member => ⟨_, found, ?_⟩⟩
        rw [pool_eq]
        exact stillDone position member
      · rw [one]
        refine ⟨?_, fun position member => ⟨_, found, ?_⟩⟩
        · refine List.pairwise_append.mpr
            ⟨ordered.increasing, List.pairwise_singleton _ _, fun position member last isLast => ?_⟩
          rw [List.mem_singleton.mp isLast]
          exact behind position member
        · rw [pool_eq]
          rcases List.mem_append.mp member with old | new
          · exact stillDone position old
          · rw [phase, List.mem_singleton.mp new]
            exact Nat.le_refl cursor

theorem Ordered.perform (ordered : hub.Ordered index sent) (coherent : hub.pool.Coherent)
    (placed : hub.Placed) (few : hub.pool.log.written < UInt64.size) (action : Action) :
    (hub.perform action).Ordered index
      (sent ++ (hub.reported index action).filterMap RoutineEvent.sentAt?) := by
  cases found : (hub.perform action).routines[index]? with
  | none =>
      refine ordered.absent ?_ action
      refine Array.getElem?_eq_none ?_
      exact Nat.le_trans (hub.routines_size_le action) (Array.getElem?_eq_none_iff.mp found)
  | some routine =>
      cases past found with
      | unborn absent launching => exact ordered.absent absent action
      | still same quiet =>
          rw [quiet]
          simp only [List.filterMap_nil, List.append_nil]
          exact ordered.still coherent same found
      | turned wake earlier connection acted turns routine_eq =>
          subst acted
          rw [routine_eq] at found
          rw [turns.reported_eq]
          exact ordered.turned coherent placed few turns found

theorem written_le_run (coherent : hub.pool.Coherent) (actions : List Action) :
    hub.pool.log.written ≤ (hub.run actions).pool.log.written := by
  rw [coherent.log_valid.published, (coherent_run coherent actions).log_valid.published]
  exact (evolves_run coherent actions).stop_le

theorem Fresh.ordered (fresh : start.Fresh) (actions : List Action)
    (few : (start.run actions).pool.log.written < UInt64.size) (index : Nat) :
    (start.run actions).Ordered index (start.sent index actions) := by
  induction actions using List.reverseRecOn with
  | nil => exact ordered_nil start index
  | append_singleton earlier last ih =>
      have coherent := coherent_run fresh.coherent earlier
      have placed := fresh.placed.run fresh.coherent earlier
      have fewBefore : (start.run earlier).pool.log.written < UInt64.size := by
        rw [run_append] at few
        exact Nat.lt_of_le_of_lt (written_le_run coherent [last]) few
      have ordered := (ih fewBefore).perform coherent placed fewBefore last
      rw [run_snoc, sent_snoc]
      exact ordered

/-- A routine sends entries in the order in which they were written, none of them twice, and queues
a frame for each; and it never looks at a position that has not been written. Positions are 64-bit
numbers, so this is said of a log whose end is one. -/
theorem sent_in_order (fresh : start.Fresh) (actions : List Action)
    (few : (start.run actions).pool.log.written < UInt64.size) (index : Nat) :
    (start.sent index actions).Pairwise (· < ·) ∧
    ∀ earlier wake later routine connection, actions = earlier ++ .resume index wake :: later →
      (start.run earlier).Turns index wake routine connection →
      (∀ position, routine.looksAt? (start.run earlier).view connection wake = some position →
        (start.run earlier).pool.entry position ≠ .pending) ∧
      (routine.resume (start.run earlier).view connection wake).Queues (start.run earlier).view
        connection := by
  constructor
  · exact (fresh.ordered actions few index).increasing
  · rintro earlier wake later routine connection rfl turns
    have coherent := coherent_run fresh.coherent earlier
    have placed := fresh.placed.run fresh.coherent earlier
    rw [run_append] at few
    have fewBefore := Nat.lt_of_le_of_lt (written_le_run coherent _) few
    constructor
    · intro position looks
      exact turns.not_pending coherent placed fewBefore looks
    · exact routine.resume_queues _ connection wake

theorem in_order_across_eviction :
    ∃ pool start, Pool.new { maxTxs := 2, maxRetained := 2 } Validator.acceptAll = .ok pool ∧
      Hub.new {} pool (.empty 1) = .ok start ∧
      let node : NodeId := ⟨Vector.replicate 32 7⟩
      let actions : List Action := [.start, .openConnection node 4, .addPeer 0, .report node 1,
        .submit ⟨[97]⟩ .unknown, .resume 0 .launch, .resume 0 .entries, .submit ⟨[98]⟩ .unknown,
        .update 1 [⟨[98]⟩], .submit ⟨[99]⟩ .unknown, .resume 0 .successor, .resume 0 .entries]
      (start.run actions).pool.log.written < UInt64.size ∧ start.sent 0 actions = [0, 2] ∧
        (start.sent 0 actions).Pairwise (· < ·) := by
  refine ⟨_, _, rfl, rfl, ?few, ?sent,
    (sent_in_order ⟨{ maxTxs := 2, maxRetained := 2 }, Validator.acceptAll, _, [], {},
      .empty 1, rfl, rfl⟩ _ ?few 0).1⟩
  case few => decide +kernel
  case sent => decide +kernel

end Hub

end VoteGossip
