import VoteGossip.Proofs.Log.Sparse

/-!
Positions are for good. A reader who keeps a position finds it pending until the push that assigns
it, then ready with the entry that was pushed, and after that removed or evicted, never anything
else and never backwards, whatever is pushed, removed or cleared in between. Positions are assigned
one after the other, each of them once, and the end and the oldest retained position only grow.
-/

set_option autoImplicit false

namespace VoteGossip

namespace Slot

variable {Entry : Type}

inductive Step : Slot Entry → Slot Entry → Prop where
  | same (slot : Slot Entry) : Step slot slot
  | written (entry : Entry) : Step .pending (.ready entry)
  | removed (entry : Entry) : Step (.ready entry) .removed
  | evicted (entry : Entry) : Step (.ready entry) .evicted
  | pruned : Step .removed .evicted

def stage : Slot Entry → Nat
  | .pending => 0
  | .ready _ => 1
  | .removed => 2
  | .evicted => 3

/-- The later slot is what became of the earlier one in the course of time. -/
structure Onward (earlier later : Slot Entry) : Prop where
  stage_le : earlier.stage ≤ later.stage
  entry_eq : ∀ old new, earlier = .ready old → later = .ready new → old = new

theorem Onward.step {earlier later : Slot Entry} (onward : earlier.Onward later)
    (unskipped : earlier = .pending → later = .pending ∨ ∃ entry, later = .ready entry) :
    earlier.Step later := by
  have forward := onward.stage_le
  cases earlier with
  | pending =>
      rcases unskipped rfl with still | ⟨entry, ready⟩
      · rw [still]
        exact .same _
      · rw [ready]
        exact .written entry
  | ready entry =>
      cases later with
      | pending => exact absurd forward (Nat.not_succ_le_zero 0)
      | ready other =>
          rw [onward.entry_eq entry other rfl rfl]
          exact .same _
      | removed => exact .removed entry
      | evicted => exact .evicted entry
  | removed =>
      cases later with
      | pending => exact absurd forward (Nat.not_succ_le_zero 1)
      | ready => exact absurd forward (Nat.not_succ_le_self 1)
      | removed => exact .same _
      | evicted => exact .pruned
  | evicted =>
      cases later with
      | pending => exact absurd forward (Nat.not_succ_le_zero 2)
      | ready => exact absurd (Nat.le_of_succ_le_succ forward) (Nat.not_succ_le_zero 1)
      | removed => exact absurd forward (Nat.not_succ_le_self 2)
      | evicted => exact .same _

end Slot

namespace Log

variable {Entry : Type}

/-- The oldest position that the log retains, or the next one while it retains nothing. -/
def oldest (log : Log Entry) : Nat := log.front.getD log.written

def Answer.assigned? : Answer Entry → Option Nat
  | .appended place _ => some place
  | _ => none

def run (log : Log Entry) (operations : List (Operation Entry)) : Log Entry :=
  (performAll perform log operations).1

def assigned (log : Log Entry) (operations : List (Operation Entry)) : List Nat :=
  (performAll perform log operations).2.filterMap Answer.assigned?

variable {log later : Log Entry}

theorem run_append (log : Log Entry) (earlier later : List (Operation Entry)) :
    log.run (earlier ++ later) = (log.run earlier).run later := by
  induction earlier generalizing log with
  | nil => rfl
  | cons operation rest ih => exact ih (log.perform operation).1

theorem oldest_eq_base (valid : log.Valid) : log.oldest = log.window.base := by
  unfold oldest
  cases found : log.front with
  | some position => exact (front_eq_some valid found).1
  | none =>
      -- A window without a front slot holds nothing, so it begins where it ends.
      have within := log.window.base_le_stop
      have empty : ¬ log.window.base < log.window.stop := by
        intro inside
        obtain ⟨entry, live⟩ := valid.window_valid.front_live inside
        rw [front_eq_none found] at live
        cases live
      change log.written = log.window.base
      rw [valid.published]
      omega

theorem remove_cases (log : Log Entry) (position : Nat) :
    log.perform (.remove position) = (log, .removed none) ∨
    ∃ entry, log.window.entry? position = some entry ∧ log.perform (.remove position) =
      ({ log with window := log.window.remove position }, .removed (some entry)) := by
  cases live : log.window.entry? position with
  | none =>
      left
      simp only [Log.perform, remove?, live]
  | some entry =>
      right
      refine ⟨entry, rfl, ?_⟩
      simp only [Log.perform, remove?, live]

theorem Valid.perform (valid : log.Valid) (operation : Operation Entry) :
    (log.perform operation).1.Valid ∧ log.Evolves (log.perform operation).1 := by
  cases operation with
  | push entry => exact ⟨valid.push entry, evolves_push valid entry⟩
  | clear => exact ⟨valid.clear, evolves_clear log⟩
  | remove position =>
      rcases log.remove_cases position with same | ⟨entry, live, removed⟩
      · rw [same]
        exact ⟨valid, .refl log⟩
      · rw [removed]
        exact ⟨valid.remove live, evolves_remove live⟩
  | get | front | size | isEmpty | retained | stop => exact ⟨valid, .refl log⟩

theorem stop_perform (valid : log.Valid) (operation : Operation Entry) :
    (operation.isPush = false ∧ (log.perform operation).2.assigned? = none ∧
      (log.perform operation).1.window.stop = log.window.stop) ∨
    ∃ entry, operation = .push entry ∧
      (log.perform operation).2.assigned? = some log.window.stop ∧
      (log.perform operation).1.window.stop = log.window.stop + 1 := by
  cases operation with
  | push entry => exact Or.inr ⟨entry, rfl, rfl, stop_push valid entry⟩
  | clear => exact Or.inl ⟨rfl, rfl, Window.stop_drained log.window⟩
  | remove position =>
      refine Or.inl ⟨rfl, ?_⟩
      rcases log.remove_cases position with same | ⟨entry, _, removed⟩
      · rw [same]
        exact ⟨rfl, rfl⟩
      · rw [removed]
        exact ⟨rfl, Window.stop_remove log.window position⟩
  | get | front | size | isEmpty | retained | stop => exact Or.inl ⟨rfl, rfl, rfl⟩

theorem get_push (valid : log.Valid) (entry : Entry) :
    (log.push entry).log.get log.window.stop = .ready entry := by
  rw [get_eq_ready_iff, entry?_push valid, if_pos rfl]

theorem Evolves.onward (evolves : log.Evolves later) (position : Nat) :
    (log.get position).Onward (later.get position) := by
  have base_le := evolves.base_le
  have stop_le := evolves.stop_le
  have within := log.window.base_le_stop
  -- What is live later was live before, so a slot never becomes ready again or changes its entry.
  have old : ∀ entry, position < log.window.stop → later.get position = .ready entry →
      log.get position = .ready entry := by
    intro entry written live
    have alive := get_eq_ready_iff.mp live
    exact get_eq_ready_iff.mpr (evolves.live_before position entry written alive)
  have unwritten : later.get position = .pending → log.window.stop ≤ position := by
    intro pending
    have beyond := get_eq_pending_iff.mp pending
    omega
  cases before : log.get position with
  | pending => exact ⟨Nat.zero_le _, nofun⟩
  | ready entry =>
      have written := Window.lt_stop_of_live (get_eq_ready_iff.mp before)
      refine ⟨?_, ?_⟩
      · cases after : later.get position with
        | pending => exact absurd (unwritten after) (Nat.not_le.mpr written)
        | ready | removed | evicted => exact Nat.le_add_left 1 _
      · intro first second same after
        rw [old second written after, Slot.ready.injEq] at before
        cases same
        exact before.symm
  | removed =>
      have written := (get_eq_removed_iff.mp before).2.1
      refine ⟨?_, nofun⟩
      cases after : later.get position with
      | pending => exact absurd (unwritten after) (Nat.not_le.mpr written)
      | ready entry =>
          rw [old entry written after] at before
          cases before
      | removed | evicted => exact Nat.le_add_left 2 _
  | evicted =>
      have behind := get_eq_evicted_iff.mp before
      have stillBehind : position < later.window.base := Nat.lt_of_lt_of_le behind base_le
      rw [get_eq_evicted_iff.mpr stillBehind]
      exact ⟨Nat.le_refl _, nofun⟩

/-- The wait for a position ends with the push that assigns it, and with no other operation. -/
theorem pending_ends_iff (valid : log.Valid) (operation : Operation Entry) (position : Nat) :
    (log.get position = .pending ∧ (log.perform operation).1.get position ≠ .pending) ↔
      (log.perform operation).2.assigned? = some position := by
  rw [ne_eq, get_eq_pending_iff, get_eq_pending_iff]
  rcases stop_perform valid operation with ⟨_, none, same⟩ | ⟨entry, _, one, grown⟩
  · rw [none, same]
    constructor
    · intro ends
      exact absurd ends.1 ends.2
    · intro impossible
      cases impossible
  · rw [one, grown, Option.some.injEq]
    omega

theorem ready_of_assigned (valid : log.Valid) {operation : Operation Entry} {position : Nat}
    (assigned : (log.perform operation).2.assigned? = some position) :
    ∃ entry, operation = .push entry ∧
      (log.perform operation).1.get position = .ready entry := by
  rcases stop_perform valid operation with ⟨_, none, _⟩ | ⟨entry, rfl, one, _⟩
  · rw [none] at assigned
    cases assigned
  · rw [one] at assigned
    cases assigned
    exact ⟨entry, rfl, get_push valid entry⟩

theorem slot_step (valid : log.Valid) (operation : Operation Entry) (position : Nat) :
    (log.get position).Step ((log.perform operation).1.get position) := by
  apply ((valid.perform operation).2.onward position).step
  intro before
  by_cases still : (log.perform operation).1.get position = .pending
  · exact Or.inl still
  · have assigned := (pending_ends_iff valid operation position).mp ⟨before, still⟩
    obtain ⟨entry, _, ready⟩ := ready_of_assigned valid assigned
    exact Or.inr ⟨entry, ready⟩

theorem Valid.run (valid : log.Valid) (operations : List (Operation Entry)) :
    (log.run operations).Valid ∧ log.Evolves (log.run operations) := by
  induction operations generalizing log with
  | nil => exact ⟨valid, .refl log⟩
  | cons operation later ih =>
      obtain ⟨nextValid, moved⟩ := valid.perform operation
      obtain ⟨lastValid, further⟩ := ih nextValid
      exact ⟨lastValid, moved.trans further⟩

theorem assigned_eq_range' (valid : log.Valid) (operations : List (Operation Entry)) :
    log.assigned operations =
      List.range' log.window.stop (operations.countP Operation.isPush) := by
  induction operations generalizing log with
  | nil => rfl
  | cons operation later ih =>
      have rest := ih (valid.perform operation).1
      change ((log.perform operation).2 ::
        (performAll perform (log.perform operation).1 later).2).filterMap Answer.assigned? = _
      change (performAll perform (log.perform operation).1 later).2.filterMap Answer.assigned? = _
        at rest
      rw [List.filterMap_cons, rest]
      rcases stop_perform valid operation with ⟨other, none, same⟩ | ⟨entry, rfl, one, grown⟩
      · rw [none, same, List.countP_cons_of_neg (Bool.eq_false_iff.mp other)]
      · rw [one, grown, List.countP_cons_of_pos rfl, List.range'_succ]

/-- What readers who keep positions can rely on while a log is in use. -/
structure Stable (start : Log Entry) (operations : List (Operation Entry)) : Prop where
  onward : ∀ earlier between rest, operations = earlier ++ between ++ rest → ∀ position,
    ((start.run earlier).get position).Onward ((start.run (earlier ++ between)).get position)
  steps : ∀ earlier operation rest, operations = earlier ++ operation :: rest → ∀ position,
    ((start.run earlier).get position).Step ((start.run (earlier ++ [operation])).get position)
  pending_ends : ∀ earlier operation rest, operations = earlier ++ operation :: rest →
    ∀ position,
    ((start.run earlier).get position = .pending ∧
      (start.run (earlier ++ [operation])).get position ≠ .pending) ↔
    ((start.run earlier).perform operation).2.assigned? = some position
  written : ∀ earlier operation rest, operations = earlier ++ operation :: rest → ∀ position,
    ((start.run earlier).perform operation).2.assigned? = some position →
    ∃ entry, operation = .push entry ∧
      (start.run (earlier ++ [operation])).get position = .ready entry
  once : (start.assigned operations).Nodup
  stop_le : ∀ earlier between rest, operations = earlier ++ between ++ rest →
    (start.run earlier).written ≤ (start.run (earlier ++ between)).written
  oldest_le : ∀ earlier between rest, operations = earlier ++ between ++ rest →
    (start.run earlier).oldest ≤ (start.run (earlier ++ between)).oldest

theorem positions_stable (maxRetained : Nat) (operations : List (Operation Entry)) :
    Stable (.empty maxRetained) operations := by
  have valid : ∀ earlier, ((Log.empty maxRetained : Log Entry).run earlier).Valid :=
    fun earlier => ((valid_empty maxRetained).run earlier).1
  have evolves : ∀ earlier between, ((Log.empty maxRetained : Log Entry).run earlier).Evolves
      ((Log.empty maxRetained).run (earlier ++ between)) := by
    intro earlier between
    rw [run_append]
    exact ((valid earlier).run between).2
  have next : ∀ earlier operation,
      (Log.empty maxRetained : Log Entry).run (earlier ++ [operation]) =
        (((Log.empty maxRetained).run earlier).perform operation).1 := by
    intro earlier operation
    rw [run_append]
    rfl
  refine ⟨?_, ?_, ?_, ?_, ?_, ?_, ?_⟩
  · intro earlier between rest _split position
    exact (evolves earlier between).onward position
  · intro earlier operation rest _split position
    rw [next]
    exact slot_step (valid earlier) operation position
  · intro earlier operation rest _split position
    rw [next]
    exact pending_ends_iff (valid earlier) operation position
  · intro earlier operation rest _split position assigned
    rw [next]
    exact ready_of_assigned (valid earlier) assigned
  · rw [assigned_eq_range' (valid_empty maxRetained)]
    exact List.nodup_range'
  · intro earlier between rest _split
    rw [(valid earlier).published, (valid _).published]
    exact (evolves earlier between).stop_le
  · intro earlier between rest _split
    rw [oldest_eq_base (valid earlier), oldest_eq_base (valid _)]
    exact (evolves earlier between).base_le

example : ((Log.empty 2).run [.push 'a', .remove 0, .push 'b', .clear, .push 'c']).oldest = 2 := rfl

end Log

end VoteGossip
