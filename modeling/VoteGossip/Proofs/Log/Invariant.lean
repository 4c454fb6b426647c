import VoteGossip.Log.Wait
import VoteGossip.Proofs.Log.Window

/-!
What a log is between two operations, what each operation does to it, and in which direction the
operations move it. A log only ever moves on: its window never goes back, its end never shrinks, and
no entry appears at a position that was written before.
-/

set_option autoImplicit false

namespace VoteGossip.Log

variable {Entry : Type}

structure Valid (log : Log Entry) : Prop where
  window_valid : log.window.Valid
  room : 1 ≤ log.retention
  retained_le : log.retained ≤ log.retention
  published : log.written = log.window.stop

theorem valid_empty (maxRetained : Nat) : (Log.empty maxRetained : Log Entry).Valid where
  window_valid := Window.valid_empty
  room := Nat.le_max_right maxRetained 1
  retained_le := Nat.zero_le _
  published := rfl

/-- What is found at a position, by where the position lies and what is live there. -/
inductive Found (log : Log Entry) (position : Nat) : Slot Entry → Prop where
  | evicted (behind : position < log.window.base) : Found log position .evicted
  | ready (entry : Entry) (live : log.window.entry? position = some entry) :
      Found log position (.ready entry)
  | removed (reached : log.window.base ≤ position) (written : position < log.window.stop)
      (dead : log.window.entry? position = none) : Found log position .removed
  | pending (beyond : log.window.stop ≤ position) : Found log position .pending

theorem get_cases (log : Log Entry) (position : Nat) :
    log.Found position (log.get position) := by
  unfold get
  by_cases behind : position < log.window.base
  · rw [if_pos behind]
    exact .evicted behind
  · have reached := Nat.le_of_not_lt behind
    rw [if_neg behind]
    by_cases written : position < log.window.stop
    · rw [Window.slot_of_retained reached written]
      cases live : log.window.entry? position with
      | some entry => exact .ready entry live
      | none => exact .removed reached written live
    · have beyond := Nat.le_of_not_lt written
      rw [Array.getElem?_eq_none (Nat.le_sub_of_add_le' beyond)]
      exact .pending beyond

theorem get_eq_ready_iff {log : Log Entry} {position : Nat} {entry : Entry} :
    log.get position = .ready entry ↔ log.window.entry? position = some entry := by
  have found := log.get_cases position
  generalize log.get position = slot at found ⊢
  cases found with
  | evicted behind => simp only [reduceCtorEq, Window.entry?_of_lt_base behind]
  | ready other live => rw [live, Slot.ready.injEq, Option.some.injEq]
  | removed _ _ dead => simp only [reduceCtorEq, dead]
  | pending beyond => simp only [reduceCtorEq, Window.entry?_of_stop_le beyond]

theorem get_eq_evicted_iff {log : Log Entry} {position : Nat} :
    log.get position = .evicted ↔ position < log.window.base := by
  have within := log.window.base_le_stop
  have found := log.get_cases position
  generalize log.get position = slot at found ⊢
  cases found with
  | evicted behind => simp only [behind]
  | ready _ live => simp only [reduceCtorEq, Nat.not_lt.mpr (Window.base_le_of_live live)]
  | removed reached => simp only [reduceCtorEq, Nat.not_lt.mpr reached]
  | pending beyond => simp only [reduceCtorEq, Nat.not_lt.mpr (Nat.le_trans within beyond)]

theorem get_eq_pending_iff {log : Log Entry} {position : Nat} :
    log.get position = .pending ↔ log.window.stop ≤ position := by
  have within := log.window.base_le_stop
  have found := log.get_cases position
  generalize log.get position = slot at found ⊢
  cases found with
  | evicted behind => simp only [reduceCtorEq, Nat.not_le.mpr (Nat.lt_of_lt_of_le behind within)]
  | ready _ live => simp only [reduceCtorEq, Nat.not_le.mpr (Window.lt_stop_of_live live)]
  | removed _ written => simp only [reduceCtorEq, Nat.not_le.mpr written]
  | pending beyond => simp only [beyond]

theorem get_eq_removed_iff {log : Log Entry} {position : Nat} :
    log.get position = .removed ↔ log.window.base ≤ position ∧ position < log.window.stop ∧
      log.window.entry? position = none := by
  have found := log.get_cases position
  generalize log.get position = slot at found ⊢
  cases found with
  | evicted behind => simp only [reduceCtorEq, Nat.not_le.mpr behind, false_and]
  | ready entry live => simp only [reduceCtorEq, live, and_false]
  | removed reached written dead => simp only [reached, written, dead, and_self]
  | pending beyond => simp only [reduceCtorEq, Nat.not_lt.mpr beyond, false_and, and_false]
theorem retained_eq (log : Log Entry) : log.retained = log.window.stop - log.window.base :=
  log.window.retained_eq

theorem front_eq_some {log : Log Entry} (valid : log.Valid) {position : Nat}
    (found : log.front = some position) :
    position = log.window.base ∧ ∃ entry, log.window.entry? position = some entry := by
  unfold front at found
  split at found
  · cases found
  · rename_i holding
    cases found
    refine ⟨rfl, valid.window_valid.front_live ?_⟩
    rw [log.window.retained_eq] at holding
    omega

theorem front_eq_none {log : Log Entry} (missing : log.front = none) (position : Nat) :
    log.window.entry? position = none := by
  unfold front at missing
  split at missing
  · rename_i nothing
    rw [log.window.retained_eq] at nothing
    by_cases behind : position < log.window.base
    · exact Window.entry?_of_lt_base behind
    · exact Window.entry?_of_stop_le (by omega)
  · cases missing

theorem size_eq_length {log : Log Entry} (valid : log.Valid) : log.size = log.entries.length :=
  valid.window_valid.live_counted

theorem mem_entries_iff {log : Log Entry} {entry : Entry} :
    entry ∈ log.entries ↔ ∃ position, log.window.entry? position = some entry := by
  rw [entries, Window.entries_eq_filterMap, List.mem_filterMap]
  constructor
  · rintro ⟨position, _written, live⟩
    exact ⟨position, live⟩
  · rintro ⟨position, live⟩
    exact ⟨position, List.mem_range.mpr (Window.lt_stop_of_live live), live⟩

theorem offers_entries_iff {log : Log Entry} (valid : log.Valid) :
    log.offers .entries = true ↔ ∃ position entry, log.window.entry? position = some entry := by
  have counted := size_eq_length valid
  rw [offers, isEmpty, counted]
  cases held : log.entries with
  | nil =>
      constructor
      · intro impossible; cases impossible
      · rintro ⟨position, entry, live⟩
        have member := mem_entries_iff.mpr ⟨position, live⟩
        rw [held] at member
        cases member
  | cons entry rest =>
      constructor
      · intro _offered
        have member : entry ∈ log.entries := by rw [held]; exact List.mem_cons_self
        obtain ⟨position, live⟩ := mem_entries_iff.mp member
        exact ⟨position, entry, live⟩
      · intro _live
        rfl

/-- All that appending can do: it keeps the window, or lets go of its oldest slot, which is live. -/
theorem push_cases {log : Log Entry} (valid : log.Valid) (entry : Entry) :
    (log.retained < log.retention ∧ (log.push entry).evicted = [] ∧
      (log.push entry).log.window = log.window.append entry) ∨
    (log.retained = log.retention ∧ ∃ oldest, log.window.entry? log.window.base = some oldest ∧
      (log.push entry).evicted = [oldest] ∧
      (log.push entry).log.window = (log.window.append entry).remove log.window.base) := by
  have bounded := valid.retained_le
  have grown : (log.window.append entry).retained = log.retained + 1 := Array.size_push _
  rcases Nat.lt_or_eq_of_le bounded with fits | full
  · left
    have nothing : (log.window.append entry).retained - log.retention = 0 := by omega
    refine ⟨fits, ?_, ?_⟩
    · simp only [push, nothing, Window.evict]
    · simp only [push, nothing, Window.evict]
      exact (valid.window_valid.append entry).prune_eq
  · right
    -- The window was as wide as it may be, so the loop takes one step.
    have one : (log.window.append entry).retained - log.retention = 1 := by omega
    have inside : log.window.base < log.window.stop := by
      have width := log.retained_eq
      have room := valid.room
      omega
    obtain ⟨oldest, found⟩ := valid.window_valid.front_live inside
    have stillLive := Window.entry?_append_of_some found entry
    have holding : (log.window.append entry).base < (log.window.append entry).stop :=
      Window.lt_stop_of_live stillLive
    have front : (log.window.append entry).slots[0]? = some (some oldest) :=
      (Window.front_slot holding).trans (congrArg some stillLive)
    refine ⟨full, oldest, found, ?_, ?_⟩
    · simp only [push, one, Window.evict, front, Option.join_some]
    · simp only [push, one, Window.evict, front, Option.join_some]
      exact (Window.prune_bury_base holding).symm

theorem stop_push {log : Log Entry} (valid : log.Valid) (entry : Entry) :
    (log.push entry).log.window.stop = log.window.stop + 1 := by
  rcases push_cases valid entry with ⟨_, _, window⟩ | ⟨_, oldest, _, _, window⟩
  · rw [window, Window.stop_append]
  · rw [window, Window.stop_remove, Window.stop_append]

theorem entry?_push {log : Log Entry} (valid : log.Valid) (entry : Entry) (position : Nat) :
    (log.push entry).log.window.entry? position =
      if position = log.window.stop then some entry
      else if position = log.window.base ∧ log.retained = log.retention then none
      else log.window.entry? position := by
  rcases push_cases valid entry with ⟨fits, _, window⟩ | ⟨full, oldest, found, _, window⟩
  · have notFull : ¬ (position = log.window.base ∧ log.retained = log.retention) := by omega
    rw [window, Window.entry?_append, if_neg notFull]
  · have inside := Window.lt_stop_of_live found
    have atBase : (log.window.append entry).base ≤ log.window.base := Nat.le_refl _
    rw [window, Window.entry?_remove atBase, Window.entry?_append]
    by_cases front : position = log.window.base
    · have different : position ≠ log.window.stop := by omega
      rw [if_pos front, if_neg different, if_pos ⟨front, full⟩]
    · rw [if_neg front]
      simp only [front, false_and, if_false]

theorem Valid.push {log : Log Entry} (valid : log.Valid) (entry : Entry) :
    (log.push entry).log.Valid := by
  have appended := valid.window_valid.append entry
  have width := log.retained_eq
  have widthAfter := (log.push entry).log.retained_eq
  have within := log.window.base_le_stop
  rw [stop_push valid] at widthAfter
  rcases push_cases valid entry with ⟨fits, _, window⟩ | ⟨full, oldest, found, _, window⟩
  · have sameBase : (log.push entry).log.window.base = log.window.base := by
      rw [window]
      rfl
    refine ⟨?_, valid.room, ?_, rfl⟩
    · rw [window]
      exact appended
    · change (log.push entry).log.retained ≤ log.retention
      omega
  · have stillLive := Window.entry?_append_of_some found entry
    have shorter : log.window.base < (log.push entry).log.window.base := by
      rw [window]
      exact Window.base_lt_remove stillLive
    refine ⟨?_, valid.room, ?_, rfl⟩
    · rw [window]
      exact appended.remove stillLive
    · change (log.push entry).log.retained ≤ log.retention
      omega

theorem size_push {log : Log Entry} (valid : log.Valid) (entry : Entry) :
    (log.push entry).log.size + (log.push entry).evicted.length = log.size + 1 := by
  change (log.push entry).log.window.live + _ = log.window.live + 1
  rcases push_cases valid entry with ⟨_, nothing, window⟩ | ⟨_, oldest, _, one, window⟩
  · rw [window, nothing]
    rfl
  · rw [window, one, Window.remove, Window.live_prune]
    rfl

theorem Valid.remove {log : Log Entry} (valid : log.Valid) {position : Nat} {entry : Entry}
    (live : log.window.entry? position = some entry) :
    ({ log with window := log.window.remove position } : Log Entry).Valid where
  window_valid := valid.window_valid.remove live
  room := valid.room
  retained_le := by
    have bounded := valid.retained_le
    have lower := log.window.base_le_remove position
    rw [retained_eq] at bounded ⊢
    rw [Window.stop_remove]
    exact Nat.le_trans (Nat.sub_le_sub_left lower _) bounded
  published := by
    rw [Window.stop_remove]
    exact valid.published

theorem Valid.clear {log : Log Entry} (valid : log.Valid) : log.clear.Valid where
  window_valid := Window.valid_drained log.window
  room := valid.room
  retained_le := Nat.zero_le _
  published := valid.published

/-- The later log is the earlier one after some operations: nothing behind the earlier end comes
to life, and neither the base nor the end goes back. -/
structure Evolves (earlier later : Log Entry) : Prop where
  base_le : earlier.window.base ≤ later.window.base
  stop_le : earlier.window.stop ≤ later.window.stop
  live_before : ∀ position entry, position < earlier.window.stop →
    later.window.entry? position = some entry → earlier.window.entry? position = some entry

theorem Evolves.refl (log : Log Entry) : log.Evolves log :=
  ⟨Nat.le_refl _, Nat.le_refl _, fun _position _entry _written live => live⟩

theorem Evolves.trans {first second third : Log Entry} (early : first.Evolves second)
    (late : second.Evolves third) : first.Evolves third where
  base_le := Nat.le_trans early.base_le late.base_le
  stop_le := Nat.le_trans early.stop_le late.stop_le
  live_before := fun position entry written live =>
    early.live_before position entry written
      (late.live_before position entry (Nat.lt_of_lt_of_le written early.stop_le) live)

theorem evolves_push {log : Log Entry} (valid : log.Valid) (entry : Entry) :
    log.Evolves (log.push entry).log where
  base_le := by
    rcases push_cases valid entry with ⟨_, _, window⟩ | ⟨_, _, _, _, window⟩
    · rw [window]
      exact Nat.le_refl _
    · rw [window]
      exact (log.window.append entry).base_le_remove log.window.base
  stop_le := by
    rw [stop_push valid]
    exact Nat.le_succ _
  live_before := fun position found written live => by
    rw [entry?_push valid, if_neg (Nat.ne_of_lt written)] at live
    split at live
    · cases live
    · exact live

theorem evolves_remove {log : Log Entry} {position : Nat} {entry : Entry}
    (live : log.window.entry? position = some entry) :
    log.Evolves { log with window := log.window.remove position } where
  base_le := log.window.base_le_remove position
  stop_le := Nat.le_of_eq (Window.stop_remove log.window position).symm
  live_before := fun other found _written still => by
    rw [Window.entry?_remove (Window.base_le_of_live live)] at still
    split at still
    · cases still
    · exact still

theorem evolves_clear (log : Log Entry) : log.Evolves log.clear where
  base_le := log.window.base_le_stop
  stop_le := Nat.le_of_eq (Window.stop_drained log.window).symm
  live_before := fun position found _written still => by
    change log.window.drained.entry? position = some found at still
    rw [Window.entry?_drained] at still
    cases still

end VoteGossip.Log
