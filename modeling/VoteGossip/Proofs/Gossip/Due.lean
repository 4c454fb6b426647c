import VoteGossip.Proofs.Gossip.Order
import VoteGossip.Proofs.Gossip.Delivery

/-!
Gossip sends what is due, and nothing else. Everything that decides about a frame is looked up in
the turn that queues it: the entry is pending then, the peer has reported a height that is in reach
of it, and the peer is not filed as a holder. Where one of these fails, the entry is not sent, and
unless it is held already the cursor stays where it is.
-/

set_option autoImplicit false

namespace VoteGossip

namespace Routine

/-- Heights are compared as numbers: the reach of the last height does not wrap around. -/
theorem not_reach_lt_iff (reported height : UInt64) :
    ¬ reach reported < height ↔ height.toNat ≤ reported.toNat + 1 := by
  have small := height.toNat_lt
  have sum : (reported + 1).toNat = (reported.toNat + 1) % 2 ^ 64 := UInt64.toNat_add reported 1
  have wraps : reported + 1 = 0 ↔ (reported + 1).toNat = 0 := UInt64.toNat_inj.symm
  have within := reported.toNat_lt
  rw [UInt64.not_lt, UInt64.le_iff_toNat_le, reach]
  by_cases last : (reported + 1).toNat = 0
  · rw [if_pos (wraps.mpr last)]
    omega
  · rw [if_neg (mt wraps.mp last)]
    omega

/-- The height that the peer reported is at most one block behind the entry. -/
def InReach (view : View) (connection : Connection) (entry : PoolEntry) : Prop :=
  ∃ reported, view.heights.reported? connection.node = some reported ∧
    entry.height.toNat ≤ reported.toNat + 1

variable {routine : Routine} {view : View} {connection : Connection} {wake : Wake}
  {position : Nat} {entry : PoolEntry} {turn : Turn}

theorem due_iff_inReach : Due view connection entry ↔ InReach view connection entry := by
  constructor
  · intro due
    obtain ⟨reported, known, near⟩ := due
    exact ⟨reported, known, (not_reach_lt_iff reported entry.height).mp near⟩
  · intro near
    obtain ⟨reported, known, within⟩ := near
    exact ⟨reported, known, (not_reach_lt_iff reported entry.height).mpr within⟩

def withTx (connection : Connection) (entry : PoolEntry) : Connection :=
  { connection with
    queue := connection.queue.push
      { channel := txChannel, bytes := (Message.tx entry.tx).encode } }

/-- The entry is pending at the position, in reach of the peer, and not known to be held by it. -/
structure Wanted (view : View) (connection : Connection) (peer : PeerId) (position : Nat)
    (entry : PoolEntry) : Prop where
  live : view.pool.entry position = .ready entry
  in_reach : InReach view connection entry
  unheld : view.pool.holds position peer = false

theorem resume_sends (routine : Routine) (view : View) (connection : Connection) (wake : Wake) :
    (routine.resume view connection wake).connection = connection ∨
    ∃ position entry, routine.looksAt? view connection wake = some position ∧
      Wanted view connection routine.peer position entry ∧ connection.accepts = true ∧
      (routine.resume view connection wake).connection = withTx connection entry := by
  cases looks : routine.looksAt? view connection wake with
  | none => exact Or.inl (resume_of_looksAt_none looks).connection_eq
  | some position =>
      have visited := resume_of_looksAt looks
      generalize routine.resume view connection wake = turn at visited ⊢
      cases visited with
      | sent entry live due unheld accepts =>
          exact Or.inr ⟨position, entry, rfl, ⟨live, due_iff_inReach.mp due, unheld⟩, accepts, rfl⟩
      | held | notReady | behind | refused | skipped => exact Or.inl rfl
      | lost gone =>
          left
          unfold restart
          split <;> rfl

/-- What keeps a live entry at the cursor from being sent. -/
inductive Withheld (view : View) (connection : Connection) (peer : PeerId) (position : Nat)
    (entry : PoolEntry) : Prop where
  | silent (unreported : view.heights.reported? connection.node = none)
  | behind (reported : UInt64) (known : view.heights.reported? connection.node = some reported)
      (far : reported.toNat + 1 < entry.height.toNat)
  | held (holds : view.pool.holds position peer = true)
  | refused (refuses : connection.accepts = false)

theorem Visit.sent_or_withheld (visited : Visit routine view connection position turn)
    (live : view.pool.entry position = .ready entry) :
    turn.connection = withTx connection entry ∨
      Withheld view connection routine.peer position entry := by
  cases visited with
  | sent found foundLive =>
      rw [live] at foundLive
      cases foundLive
      exact Or.inl rfl
  | held found foundLive due holds => exact Or.inr (.held holds)
  | notReady found foundLive silent => exact Or.inr (.silent silent)
  | behind found foundLive reported known far =>
      rw [live] at foundLive
      cases foundLive
      refine Or.inr (.behind reported known ?_)
      exact Nat.lt_of_not_le fun within => (not_reach_lt_iff reported entry.height).mpr within far
  | refused found foundLive due unheld refuses => exact Or.inr (.refused refuses)
  | skipped tombstone =>
      rw [live] at tombstone
      cases tombstone
  | lost gone =>
      rw [live] at gone
      rcases gone with gone | gone <;> cases gone

theorem Visit.sent_or_held (visited : Visit routine view connection position turn)
    (live : view.pool.entry position = .ready entry)
    (behind : turn.routine.phase.leftBehind position) :
    turn.connection = withTx connection entry ∨
      InReach view connection entry ∧ view.pool.holds position routine.peer = true := by
  cases visited with
  | sent found foundLive =>
      rw [live] at foundLive
      cases foundLive
      exact Or.inl rfl
  | held found foundLive due holds =>
      rw [live] at foundLive
      cases foundLive
      exact Or.inr ⟨due_iff_inReach.mp due, holds⟩
  | notReady | behind | refused => exact absurd behind (Nat.lt_irrefl position)
  | skipped tombstone =>
      rw [live] at tombstone
      cases tombstone
  | lost gone => exact absurd behind (leftBehind_restart routine view connection position)

end Routine

namespace Hub

/-- What a turn of a routine does about the entries of the pool, by what the hub is before it. -/
structure SendsWhatIsDue (before after : Hub) (wake : Routine.Wake) (routine turned : Routine)
    (connection : Connection) : Prop where
  queued : after.connections[routine.connection]? = some connection ∨
    ∃ position entry, routine.looksAt? before.view connection wake = some position ∧
      Routine.Wanted before.view connection routine.peer position entry ∧
      before.pool.find? entry.id = some (position, entry) ∧ connection.accepts = true ∧
      after.connections[routine.connection]? = some (Routine.withTx connection entry)
  elsewhere : ∀ other, other ≠ routine.connection →
    after.connections[other]? = before.connections[other]?
  offered : ∀ position entry, routine.looksAt? before.view connection wake = some position →
    before.pool.entry position = .ready entry →
    after.connections[routine.connection]? = some (Routine.withTx connection entry) ∨
      Routine.Withheld before.view connection routine.peer position entry
  /-- No other live entry is left behind than the one at the cursor, and that one only if it was
  sent, or was in reach of a peer that holds it. -/
  left : ∀ position entry, before.pool.entry position = .ready entry →
    ¬ routine.phase.leftBehind position → turned.phase.leftBehind position →
    routine.looksAt? before.view connection wake = some position ∧
      (after.connections[routine.connection]? = some (Routine.withTx connection entry) ∨
        Routine.InReach before.view connection entry ∧
          before.pool.holds position routine.peer = true)

variable {hub start : Hub} {index : Nat} {wake : Routine.Wake} {routine : Routine}
  {connection : Connection} {position : Nat} {entry : PoolEntry}

/-- Whatever happened before, every turn of a routine sends what is due by then and nothing else. -/
theorem sent_when_due (fresh : start.Fresh) (actions : List Action)
    (turns : (start.run actions).Turns index wake routine connection) :
    ∃ turned, (start.run (actions ++ [.resume index wake])).routines[index]? = some turned ∧
      SendsWhatIsDue (start.run actions) (start.run (actions ++ [.resume index wake])) wake routine
        turned connection := by
  have coherent := coherent_run fresh.coherent actions
  rw [run_snoc]
  generalize start.run actions = hub at turns coherent ⊢
  refine ⟨_, turns.routine_after, ?_, fun other => turns.connection_elsewhere, ?_, ?_⟩
  · rw [turns.connection_after]
    rcases routine.resume_sends hub.view connection wake with
      same | ⟨position, entry, looks, wanted, accepts, sent⟩
    · exact Or.inl (congrArg some same)
    · have pending := Pool.find?_of_live coherent.indexes wanted.live
      exact Or.inr ⟨position, entry, looks, wanted, pending, accepts, congrArg some sent⟩
  · intro position entry looks live
    have visited := Routine.resume_of_looksAt looks
    rw [turns.connection_after, Option.some.injEq]
    exact visited.sent_or_withheld live
  · intro position entry live ahead behind
    rw [turns.connection_after, Option.some.injEq]
    cases looks : routine.looksAt? hub.view connection wake with
    | none => exact absurd ((Routine.resume_of_looksAt_none looks).leaves behind) ahead
    | some cursor =>
        have visited := Routine.resume_of_looksAt looks
        rcases visited.leaves live behind with less | ⟨rfl, _⟩
        · exact absurd (Routine.leftBehind_of_looksAt coherent.log_valid looks live less) ahead
        · exact ⟨rfl, visited.sent_or_held live behind⟩

/-- An entry of the last height is sent to a peer that has reported the last height. -/
theorem sent_at_last_height :
    ∃ pool start, Pool.new {} Validator.acceptAll = .ok pool ∧
      Hub.new {} pool (.empty 1) = .ok start ∧
      let node : NodeId := ⟨Vector.replicate 32 7⟩
      let last : UInt64 := 18446744073709551615
      let actions : List Action := [.start, .openConnection node 4, .addPeer 0, .report node last,
        .update last [], .submit ⟨[97]⟩ .unknown, .resume 0 .launch]
      (start.run actions).wakesOn 0 .entries = true ∧
        ((start.run (actions ++ [.resume 0 .entries])).connections.map Connection.queue) =
          #[#[{ channel := 0x31, bytes := (Message.tx ⟨[97]⟩).encode }]] ∧
        ∃ routine connection, (start.run actions).Turns 0 .entries routine connection ∧
          ∃ turned, (start.run (actions ++ [.resume 0 .entries])).routines[0]? = some turned ∧
            SendsWhatIsDue (start.run actions) (start.run (actions ++ [.resume 0 .entries]))
              .entries routine turned connection := by
  refine ⟨_, _, rfl, rfl, ?wakes, ?frames, ?sends⟩
  case sends =>
    obtain ⟨routine, connection, turns⟩ := turns_of_wakesOn ?wakes
    exact ⟨routine, connection, turns, sent_when_due
      ⟨{}, Validator.acceptAll, _, [], {}, .empty 1, rfl, rfl⟩ _ turns⟩
  case wakes => decide +kernel
  case frames => decide +kernel

end Hub

end VoteGossip
