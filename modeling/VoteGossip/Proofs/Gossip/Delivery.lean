import VoteGossip.Proofs.Gossip.Cursor

/-!
Gossip loses nothing. A live entry that a routine has left behind was handed over when the cursor
passed it: the connection took its frame, or the peer was known to hold the entry. Whatever else
happens to the pool, the peers and the clock, an entry that was not handed over stays ahead of the
cursor for as long as it lives.
-/

set_option autoImplicit false

namespace VoteGossip

namespace Routine

/-- In this turn the routine gets done with an entry. -/
structure HandsOver (view : View) (connection : Connection) (peer : PeerId) (position : Nat)
    (entry : PoolEntry) (turn : Turn) : Prop where
  live : view.pool.entry position = .ready entry
  passed : turn.routine.phase = .awaitingSuccessor position
  delivered :
    (connection.trySend entry.frame = (turn.connection, true) ∧
      turn.events = [.offered connection.node position .sent]) ∨
    (view.pool.holds position peer = true ∧ turn.connection = connection ∧
      turn.events = [.offered connection.node position .alreadyHeld])

variable {routine : Routine} {view : View} {connection : Connection} {position : Nat} {turn : Turn}

/-- A look at a position leaves nothing behind but that position, and that only if the entry there
is handed over. -/
theorem Visit.leaves (visited : Visit routine view connection position turn) {before : Nat}
    {entry : PoolEntry} (live : view.pool.entry before = .ready entry)
    (behind : turn.routine.phase.leftBehind before) :
    before < position ∨
      before = position ∧ HandsOver view connection routine.peer position entry turn := by
  cases visited with
  | sent found foundLive due unheld accepts =>
      rcases Nat.lt_or_eq_of_le behind with less | rfl
      · exact Or.inl less
      · rw [foundLive] at live
        cases live
        refine Or.inr ⟨rfl, foundLive, rfl, Or.inl ⟨?_, rfl⟩⟩
        rw [Connection.trySend, if_pos accepts]
  | held found foundLive due holds =>
      rcases Nat.lt_or_eq_of_le behind with less | rfl
      · exact Or.inl less
      · rw [foundLive] at live
        cases live
        exact Or.inr ⟨rfl, foundLive, rfl, Or.inr ⟨holds, rfl, rfl⟩⟩
  | skipped tombstone =>
      rcases Nat.lt_or_eq_of_le behind with less | rfl
      · exact Or.inl less
      · rw [tombstone] at live
        cases live
  | notReady | behind | refused => exact Or.inl behind
  | lost gone => exact absurd behind (leftBehind_restart routine view connection before)

theorem Idle.leaves (idle : Idle routine connection turn) {before : Nat}
    (behind : turn.routine.phase.leftBehind before) : routine.phase.leftBehind before := by
  obtain ⟨cursor, placed, _⟩ := Phase.exists_cursor behind
  rw [idle.phase_of_cursor placed] at behind
  exact behind

end Routine

namespace Hub

/-- At some time in the run, the routine got done with the entry of a position. The routine was in
some other phase then. -/
def HandedOver (start : Hub) (actions : List Action) (index : Nat) (routine : Routine)
    (position : Nat) (entry : PoolEntry) : Prop :=
  ∃ earlier wake later phase connection,
    actions = earlier ++ .resume index wake :: later ∧
    (start.run earlier).Turns index wake { routine with phase } connection ∧
    Routine.HandsOver (start.run earlier).view connection routine.peer position entry
      ({ routine with phase }.resume (start.run earlier).view connection wake)

variable {start : Hub} {actions : List Action} {index : Nat} {routine : Routine} {position : Nat}
  {entry : PoolEntry}

theorem HandedOver.snoc (handed : HandedOver start actions index routine position entry)
    (last : Action) : HandedOver start (actions ++ [last]) index routine position entry := by
  obtain ⟨earlier, wake, later, phase, connection, rfl, turns, handover⟩ := handed
  refine ⟨earlier, wake, later ++ [last], phase, connection, ?_, turns, handover⟩
  rw [List.append_assoc]
  rfl

/-- Live entries are left behind only by handing them over. -/
def Delivers (start : Hub) (actions : List Action) : Prop :=
  ∀ (index : Nat) (routine : Routine) (position : Nat) (entry : PoolEntry),
    (start.run actions).routines[index]? = some routine →
    (start.run actions).pool.entry position = .ready entry →
    routine.phase.leftBehind position → HandedOver start actions index routine position entry

theorem delivers_nil (fresh : start.Fresh) : Delivers start [] := by
  intro index routine position entry found
  change start.routines[index]? = some routine at found
  rw [fresh.routines_eq] at found
  cases found

theorem Delivers.snoc (delivers : Delivers start actions)
    (coherent : (start.run actions).pool.Coherent) (placed : (start.run actions).Placed)
    (last : Action) : Delivers start (actions ++ [last]) := by
  intro index routine position entry found live behind
  rw [run_snoc] at found live
  have valid := coherent.log_valid
  have moved := evolves_perform coherent last
  -- A position behind a cursor was written before, so an entry that is live there now was then.
  have liveBefore : ∀ {cursor}, cursor < (start.run actions).pool.log.window.stop →
      position ≤ cursor → (start.run actions).pool.entry position = .ready entry := by
    intro cursor written atMost
    refine Log.get_eq_ready_iff.mpr (moved.live_before position entry (by omega) ?_)
    exact Log.get_eq_ready_iff.mp live
  cases past found with
  | still same quiet =>
      obtain ⟨cursor, stands, atMost⟩ := Routine.Phase.exists_cursor behind
      have written := placed index routine cursor same stands
      have liveThen := liveBefore written atMost
      exact (delivers index routine position entry same liveThen behind).snoc last
  | unborn absent launching =>
      rw [launching] at behind
      exact behind.elim
  | turned wake earlier connection acted turns routine_eq =>
      subst acted
      obtain ⟨phase, turned⟩ :=
        earlier.resume_routine (start.run actions).view connection wake
      have served : routine = { earlier with phase } := routine_eq.trans turned
      have pool_eq := pool_of_turn turns.wakesOn_eq
      rw [pool_eq] at live
      rw [routine_eq] at behind
      -- What the routine had left behind before this turn was handed over before it.
      have older : earlier.phase.leftBehind position →
          HandedOver start (actions ++ [.resume index wake]) index routine position entry := by
        intro before
        rw [served]
        exact (delivers index earlier position entry turns.routine_at live before).snoc _
      cases looks : earlier.looksAt? (start.run actions).view connection wake with
      | none => exact older ((Routine.resume_of_looksAt_none looks).leaves behind)
      | some cursor =>
          have visited := Routine.resume_of_looksAt looks
          rcases visited.leaves live behind with less | ⟨same, handover⟩
          · exact older (Routine.leftBehind_of_looksAt valid looks live less)
          · subst same
            rw [served]
            exact ⟨actions, wake, [], earlier.phase, connection, rfl, turns, handover⟩

theorem Fresh.delivers (fresh : start.Fresh) (actions : List Action) : Delivers start actions := by
  induction actions using List.reverseRecOn with
  | nil => exact delivers_nil fresh
  | append_singleton earlier last ih =>
      exact ih.snoc (coherent_run fresh.coherent earlier)
        (fresh.placed.run fresh.coherent earlier) last

theorem wakesOn_of_nextWake?_none {hub : Hub} (waits : hub.nextWake? index = none)
    (wake : Routine.Wake) : hub.wakesOn index wake = false := by
  have every := List.find?_eq_none.mp waits wake
    (by cases wake <;> simp only [wakes, List.mem_cons, true_or, or_true])
  simpa only [Bool.not_eq_true] using every

theorem leftBehind_of_parked {hub : Hub} (coherent : hub.pool.Coherent)
    (connected : hub.Connected) (found : hub.routines[index]? = some routine)
    (waits : hub.nextWake? index = none) (parked : routine.phase.isParked)
    (live : hub.pool.entry position = .ready entry) : routine.phase.leftBehind position := by
  have valid := coherent.log_valid
  have alive := Log.get_eq_ready_iff.mp live
  obtain ⟨connection, opened⟩ : ∃ connection,
      hub.connections[routine.connection]? = some connection :=
    ⟨_, Array.getElem?_eq_getElem (connected index routine found)⟩
  have asleep : ∀ wake, routine.wakesOn hub.view connection wake = false := by
    intro wake
    have silent := wakesOn_of_nextWake?_none waits wake
    simpa only [wakesOn, found, opened] using silent
  cases phase : routine.phase with
  | awaitingEntries =>
      have nothing := asleep .entries
      simp only [Routine.wakesOn, phase] at nothing
      have offered := (Log.offers_entries_iff valid).mpr ⟨position, entry, alive⟩
      change hub.pool.log.offers .entries = false at nothing
      rw [nothing] at offered
      cases offered
  | awaitingSuccessor cursor =>
      have nothing := asleep .successor
      simp only [Routine.wakesOn, phase] at nothing
      change decide (min (cursor + 1) Log.lastPosition < hub.pool.log.written) = false at nothing
      have ended := of_decide_eq_false nothing
      have published := valid.published
      have written := Log.Window.lt_stop_of_live alive
      change position ≤ cursor
      omega
  | launching | pausing | finished =>
      rw [phase] at parked
      exact parked.elim

/-- No live entry is passed over silently: each one that a routine has left behind was handed over
by that routine, and a routine that waits for nothing but the log has handed over all of them. -/
theorem nothing_lost (fresh : start.Fresh) (actions : List Action)
    (found : (start.run actions).routines[index]? = some routine) :
    (∀ position entry, (start.run actions).pool.entry position = .ready entry →
      routine.phase.leftBehind position →
      HandedOver start actions index routine position entry) ∧
    (routine.phase.isParked → (start.run actions).nextWake? index = none →
      ∀ position entry, (start.run actions).pool.entry position = .ready entry →
        HandedOver start actions index routine position entry) := by
  have delivers := fresh.delivers actions
  constructor
  · intro position entry live behind
    exact delivers index routine position entry found live behind
  · intro parked waits position entry live
    have behind := leftBehind_of_parked (coherent_run fresh.coherent actions)
      (fresh.connected.run actions) found waits parked live
    exact delivers index routine position entry found live behind

/-- The routine has left two live entries behind. The peer supplied the second one; the first is in
the queue. -/
theorem handed_over_to_holder :
    ∃ pool start, Pool.new {} Validator.acceptAll = .ok pool ∧
      Hub.new {} pool (.empty 1) = .ok start ∧
      let node : NodeId := ⟨Vector.replicate 32 7⟩
      let actions : List Action := [.start, .openConnection node 4, .addPeer 0, .report node 1,
        .submit ⟨[97]⟩ .unknown, .submit ⟨[98]⟩ ⟨1⟩, .resume 0 .launch, .resume 0 .entries,
        .resume 0 .successor]
      let routine : Routine := { connection := 0, peer := ⟨1⟩, phase := .awaitingSuccessor 1 }
      let sent : PoolEntry := { tx := ⟨[97]⟩, id := Tx.id ⟨[97]⟩, height := 0 }
      let held : PoolEntry := { tx := ⟨[98]⟩, id := Tx.id ⟨[98]⟩, height := 0 }
      (start.run actions).routines[0]? = some routine ∧
        (start.run actions).nextWake? 0 = none ∧
        (start.run actions).pool.entry 0 = .ready sent ∧
        (start.run actions).pool.entry 1 = .ready held ∧
        (start.run actions).connections[0]?.map Connection.queue = some #[sent.frame] ∧
        HandedOver start actions 0 routine 0 sent ∧ HandedOver start actions 0 routine 1 held := by
  refine ⟨_, _, rfl, rfl, ?found, ?waits, ?sent, ?held, ?queued,
    (nothing_lost ⟨{}, Validator.acceptAll, _, [], {}, .empty 1, rfl, rfl⟩ _ ?found).1 0 _ ?sent
      (Nat.zero_le 1),
    (nothing_lost ⟨{}, Validator.acceptAll, _, [], {}, .empty 1, rfl, rfl⟩ _ ?found).2
      (by trivial) ?waits 1 _ ?held⟩
  case found => decide +kernel
  case waits => decide +kernel
  case sent => decide +kernel
  case held => decide +kernel
  case queued => decide +kernel

end Hub

end VoteGossip
