import VoteGossip.Proofs.Registry.Roster

/-!
How far the numbers of a registry reach. The cursor only moves when no number waits, and then every
number before it is some node's. So however long nodes come and go, the largest number that was ever
given out is the largest number of nodes that were ever registered at the same time, the cursor
never leaves the 16-bit numbers behind, and a registry that has room refuses nobody.
-/

set_option autoImplicit false

namespace VoteGossip.Registry

def Answer.given : Answer → Nat
  | .reserved (.ok peer) => peer.number.toNat
  | _ => 0

/-- The largest number that is given out in the course of a run, zero if none is. -/
def largestGiven (registry : Registry) : List Operation → Nat
  | [] => 0
  | operation :: later =>
      let (next, answer) := registry.perform operation
      max answer.given (next.largestGiven later)

/-- The largest number of nodes that are registered at the same time in the course of a run. The
nodes are counted in the map that the registry stands for, whatever the registry makes of them. -/
def Roster.peak (roster : Roster) : List Operation → Nat
  | [] => roster.numbers.size
  | operation :: later => max roster.numbers.size ((roster.perform operation).1.peak later)

variable {registry next : Registry} {node : NodeId} {peer : PeerId}

theorem Roster.size_le_peak (roster : Roster) (history : List Operation) :
    roster.numbers.size ≤ roster.peak history := by
  cases history with
  | nil => exact Nat.le_refl _
  | cons operation later => exact Nat.le_max_left _ _

theorem Sound.size_lt_cursor (sound : registry.Sound) : registry.size < registry.cursor := by
  have accounting := sound.accounting
  change registry.assigned.size < registry.cursor
  omega

theorem Sound.cursor_reserve (sound : registry.Sound)
    (served : registry.reserve node = .ok (peer, next)) :
    (peer.number.toNat < registry.cursor ∧ next.cursor = registry.cursor) ∨
    (peer.number.toNat = registry.cursor ∧ next.cursor = registry.cursor + 1 ∧
      next.size + 1 = next.cursor) := by
  unfold Registry.reserve at served
  cases found : registry.assigned[node]? with
  | some known =>
      rw [found] at served
      cases served
      exact Or.inl ⟨(sound.assigned_below node peer found).2, rfl⟩
  | none =>
      rw [found] at served
      have taken := sound.take_cases
      generalize registry.take = result at taken served
      cases taken with
      | full all => cases served
      | again taken room smallest waits =>
          cases served
          exact Or.inl ⟨((sound.waiting_iff peer).mp waits).2.1, rfl⟩
      | fresh taken room smallest nothing atCursor =>
          cases served
          -- No number waits, so the nodes have all the numbers below the cursor.
          have after := (sound.give_fresh found room smallest nothing atCursor).accounting
          change _ + registry.waiting.size + 1 = _ at after
          rw [nothing, Std.ExtTreeSet.size_empty] at after
          exact Or.inr ⟨atCursor, rfl, after⟩

theorem cursor_reclaim (registry : Registry) (node : NodeId) :
    (registry.reclaim node).2.cursor = registry.cursor := by
  unfold reclaim
  cases registry.assigned[node]? with
  | some peer => rfl
  | none => rfl

/-- The cursor stands behind every number that was given out, and when it has moved it stands right
behind as many nodes as there are. -/
theorem Sound.cursor_perform (sound : registry.Sound) (operation : Operation) :
    (registry.perform operation).1.cursor =
        max registry.cursor ((registry.perform operation).2.given + 1) ∧
      ((registry.perform operation).1.cursor = registry.cursor ∨
        (registry.perform operation).1.size + 1 = (registry.perform operation).1.cursor) := by
  have started : max registry.cursor (0 + 1) = registry.cursor := by
    have positive := sound.size_lt_cursor
    omega
  cases operation with
  | reserve node =>
      change (registry.tryReserve node).1.cursor =
          max registry.cursor ((Answer.reserved (registry.tryReserve node).2).given + 1) ∧
        ((registry.tryReserve node).1.cursor = registry.cursor ∨
          (registry.tryReserve node).1.size + 1 = (registry.tryReserve node).1.cursor)
      unfold tryReserve
      cases answered : registry.reserve node with
      | error refusal => exact ⟨started.symm, Or.inl rfl⟩
      | ok served =>
          obtain ⟨peer, next⟩ := served
          change next.cursor = max registry.cursor (peer.number.toNat + 1) ∧
            (next.cursor = registry.cursor ∨ next.size + 1 = next.cursor)
          rcases sound.cursor_reserve answered with ⟨below, same⟩ | ⟨atCursor, moved, right⟩
          · refine ⟨?_, Or.inl same⟩
            omega
          · refine ⟨?_, Or.inr right⟩
            omega
  | reclaim node =>
      have same := registry.cursor_reclaim node
      exact ⟨same.trans started.symm, Or.inl same⟩
  | lookup | isActive | size | isEmpty | capacity => exact ⟨started.symm, Or.inl rfl⟩

theorem Sound.cursor_run_given (sound : registry.Sound) (history : List Operation) :
    (registry.run history).cursor = max registry.cursor (registry.largestGiven history + 1) := by
  induction history generalizing registry with
  | nil =>
      have positive := sound.size_lt_cursor
      change registry.cursor = max registry.cursor (0 + 1)
      omega
  | cons operation later ih =>
      have moved := (sound.cursor_perform operation).1
      have further := ih (sound.roster_perform operation).1
      change ((registry.perform operation).1.run later).cursor =
        max registry.cursor (max (registry.perform operation).2.given
          ((registry.perform operation).1.largestGiven later) + 1)
      omega

theorem Sound.cursor_run_peak (sound : registry.Sound) (history : List Operation) :
    (registry.run history).cursor = max registry.cursor (registry.roster.peak history + 1) := by
  have ahead := sound.size_lt_cursor
  induction history generalizing registry with
  | nil =>
      change registry.cursor = max registry.cursor (registry.size + 1)
      omega
  | cons operation later ih =>
      obtain ⟨nextSound, same, _⟩ := sound.roster_perform operation
      have further := ih nextSound nextSound.size_lt_cursor
      have counted := (registry.perform operation).1.roster.size_le_peak later
      have moved := sound.cursor_perform operation
      change (registry.perform operation).1.size ≤ _ at counted
      change ((registry.perform operation).1.run later).cursor =
        max registry.cursor
          (max registry.size ((registry.roster.perform operation).1.peak later) + 1)
      rw [← same]
      omega

structure Compact (capacity : Nat) (history : List Operation) : Prop where
  size_eq : ((empty capacity).run history).size = ((Roster.empty capacity).run history).numbers.size
  largest_eq : (empty capacity).largestGiven history = (Roster.empty capacity).peak history
  cursor_eq : ((empty capacity).run history).cursor = (Roster.empty capacity).peak history + 1
  cursor_le : ((empty capacity).run history).cursor ≤
    ((empty capacity).run history).capacity + 1
  capacity_eq : ((empty capacity).run history).capacity = min capacity maxCapacity
  within : ((empty capacity).run history).capacity + 1 ≤ 65536
  in_range : ∀ node cursor,
    ((empty capacity).run history).reserve node ≠ .error (.cursorPastEnd cursor)
  serves_iff : ∀ node : NodeId,
    (∃ peer next, ((empty capacity).run history).reserve node = .ok (peer, next)) ↔
      ((Roster.empty capacity).run history).numbers.size < min capacity maxCapacity ∨
        ∃ peer, ((Roster.empty capacity).run history).numbers[node]? = some peer

theorem Sound.reserve_ne_cursorPastEnd (sound : registry.Sound) (node : NodeId) (cursor : Nat) :
    registry.reserve node ≠ .error (.cursorPastEnd cursor) := by
  intro refused
  have reserved := sound.reserve_cases node
  rw [refused] at reserved
  cases reserved

theorem Sound.serves_iff (sound : registry.Sound) (node : NodeId) :
    (∃ peer next, registry.reserve node = .ok (peer, next)) ↔
      registry.size < registry.capacity ∨ ∃ peer, registry.assigned[node]? = some peer := by
  have reserved := sound.reserve_cases node
  generalize registry.reserve node = result at reserved
  cases reserved with
  | known peer found => exact ⟨fun _served => Or.inr ⟨peer, found⟩, fun _known => ⟨peer, _, rfl⟩⟩
  | given peer next absent room =>
      exact ⟨fun _served => Or.inl room, fun _room => ⟨peer, next, rfl⟩⟩
  | full absent all =>
      constructor
      · intro served
        obtain ⟨peer, next, impossible⟩ := served
        cases impossible
      · intro either
        rcases either with room | ⟨peer, found⟩
        · exact absurd all (Nat.ne_of_lt room)
        · rw [absent] at found
          cases found

/-- However long nodes come and go, the numbers reach as far as the peak load did and no further. -/
theorem stays_compact (capacity : Nat) (history : List Operation) : Compact capacity history := by
  have initial := sound_empty capacity
  obtain ⟨sound, same⟩ := initial.roster_run history
  have byNumbers := initial.cursor_run_given history
  have byNodes := initial.cursor_run_peak history
  have start : (empty capacity).cursor = 1 := rfl
  have shown : (empty capacity).roster = Roster.empty capacity := rfl
  have capacity_eq : ((empty capacity).run history).capacity = min capacity maxCapacity :=
    (congrArg Roster.capacity same).trans (Roster.capacity_run _ history)
  rw [shown] at same byNodes
  refine
    { size_eq := congrArg (fun roster => roster.numbers.size) same
      largest_eq := by omega
      cursor_eq := by omega
      cursor_le := sound.cursor_le
      capacity_eq
      within := Nat.succ_le_succ sound.capacity_le
      in_range := sound.reserve_ne_cursorPastEnd
      serves_iff := ?_ }
  intro node
  rw [sound.serves_iff node, ← same, ← capacity_eq]
  rfl

/-- Five nodes come, but never more than two of them are there at the same time, and one is turned
away. The numbers two and one go round. -/
theorem compact_in_a_small_registry :
    let node (byte : UInt8) : NodeId := ⟨Vector.replicate 32 byte⟩
    let history : List Operation := [.reserve (node 5), .reserve (node 6), .reserve (node 7),
      .reclaim (node 5), .reserve (node 8), .reclaim (node 6), .reclaim (node 6), .reserve (node 9),
      .reclaim (node 8), .reserve (node 5)]
    (Roster.empty 2).peak history = 2 ∧ (empty 2).largestGiven history = 2 ∧
      ((empty 2).run history).cursor = 3 := by
  intro node history
  have compact := stays_compact 2 history
  have peak : (Roster.empty 2).peak history = 2 := by decide +kernel
  exact ⟨peak, compact.largest_eq.trans peak, compact.cursor_eq.trans (congrArg (· + 1) peak)⟩

end VoteGossip.Registry
