import Mathlib.Data.List.Basic
import VoteGossip.Proofs.Pool.Commit

/-!
Heights while the chain grows. An entry carries the height that the pool had when the entry was
written. As long as the height of the pool does not fall, an entry that was written later is at
least as high, whatever left the log in between: committed, flushed, evicted, or written a second
time at a later position.
-/

set_option autoImplicit false

namespace VoteGossip.Pool

def Operation.height? : Operation → Option UInt64
  | .update height _ => some height
  | _ => none

/-- The heights that operations set are in ascending order, from the height of the pool on. -/
def Rises (pool : Pool) (operations : List Operation) : Prop :=
  (pool.height :: operations.filterMap Operation.height?).Pairwise (· ≤ ·)

/-- This height was reached when this position had been written, and nothing that is live behind
the position is lower. -/
structure Above (pool : Pool) (position : Nat) (height : UInt64) : Prop where
  written : position < pool.log.window.stop
  reached : height ≤ pool.height
  later : ∀ further entry, position < further →
    pool.log.window.entry? further = some entry → height ≤ entry.height

/-- No live entry is higher than one behind it, nor than the pool. -/
def Ascending (pool : Pool) : Prop :=
  ∀ position entry, pool.log.window.entry? position = some entry →
    pool.Above position entry.height

variable {pool : Pool} {operation : Operation} {operations : List Operation} {position : Nat}
  {entry : PoolEntry} {height : UInt64}

theorem height_perform (pool : Pool) (operation : Operation) :
    (pool.perform operation).height = operation.height?.getD pool.height := by
  cases operation with
  | submit tx sender =>
      change (pool.submit tx sender).pool.height = pool.height
      have ends := submission pool tx sender
      generalize pool.submit tx sender = reply at ends ⊢
      cases ends with
      | duplicate fits position entry indexed live =>
          obtain ⟨holders, same⟩ := addHolder_eq pool position sender
          rw [same]
      | accepted | tooLarge | stale | invalid | full => rfl
  | update height committed =>
      obtain ⟨index, log, same⟩ := dropAll_frame { pool with height } committed
      change ({ pool with height }.dropAll committed).1.height = height
      rw [same]
  | flush => rfl
  | addHolder position peer =>
      obtain ⟨holders, same⟩ := addHolder_eq pool position peer
      change (pool.addHolder position peer).1.height = pool.height
      rw [same]

theorem Coherent.live_perform (coherent : pool.Coherent)
    (live : (pool.perform operation).log.window.entry? position = some entry) :
    pool.log.window.entry? position = some entry ∨
      position = pool.log.window.stop ∧ entry.height = pool.height := by
  cases operation with
  | submit tx sender =>
      change (pool.submit tx sender).pool.log.window.entry? position = some entry at live
      have ends := submission pool tx sender
      generalize pool.submit tx sender = reply at ends live
      cases ends with
      | duplicate fits other found indexed foundLive =>
          obtain ⟨holders, same⟩ := addHolder_eq pool other sender
          rw [same] at live
          exact Or.inl live
      | accepted fits fresh passed few =>
          change (pool.log.push _).log.window.entry? position = some entry at live
          rw [Log.entry?_push coherent.log_valid] at live
          split at live
          · rename_i atEnd
            cases live
            exact Or.inr ⟨atEnd, rfl⟩
          · split at live
            · cases live
            · exact Or.inl live
      | tooLarge | stale | invalid | full => exact Or.inl live
  | update height committed =>
      have drops := Drops.update coherent.log_valid coherent.indexes height committed
      exact Or.inl ((drops.live_iff position entry).mp live).1
  | flush =>
      change pool.log.window.drained.entry? position = some entry at live
      rw [Log.Window.entry?_drained] at live
      cases live
  | addHolder other peer =>
      obtain ⟨holders, same⟩ := addHolder_eq pool other peer
      change (pool.addHolder other peer).1.log.window.entry? position = some entry at live
      rw [same] at live
      exact Or.inl live

theorem Rises.step (rises : pool.Rises (operation :: operations)) :
    pool.height ≤ (pool.perform operation).height ∧
      (pool.perform operation).Rises operations := by
  unfold Rises at rises ⊢
  rw [height_perform]
  cases set : operation.height? with
  | none =>
      rw [List.filterMap_cons_none set] at rises
      exact ⟨UInt64.le_refl _, rises⟩
  | some height =>
      rw [List.filterMap_cons_some set] at rises
      obtain ⟨lowest, rest⟩ := List.pairwise_cons.mp rises
      exact ⟨lowest height List.mem_cons_self, rest⟩

theorem Above.perform (above : pool.Above position height) (coherent : pool.Coherent)
    (rises : pool.height ≤ (pool.perform operation).height) :
    (pool.perform operation).Above position height where
  written := Nat.lt_of_lt_of_le above.written (coherent.evolves_perform operation).stop_le
  reached := UInt64.le_trans above.reached rises
  later := by
    intro further entry behind live
    rcases coherent.live_perform live with before | ⟨_, atHeight⟩
    · exact above.later further entry behind before
    · rw [atHeight]
      exact above.reached

theorem Ascending.perform (ascending : pool.Ascending) (coherent : pool.Coherent)
    (rises : pool.height ≤ (pool.perform operation).height) :
    (pool.perform operation).Ascending := by
  intro position entry live
  rcases coherent.live_perform live with before | ⟨atEnd, atHeight⟩
  · exact (ascending position entry before).perform coherent rises
  · refine ⟨Log.Window.lt_stop_of_live live, ?_, ?_⟩
    · rw [atHeight]
      exact rises
    · intro further other behind otherLive
      rcases coherent.live_perform otherLive with before | ⟨otherAtEnd, _⟩
      · have within := Log.Window.lt_stop_of_live before
        omega
      · omega

theorem Above.run (above : pool.Above position height) (coherent : pool.Coherent)
    (rises : pool.Rises operations) : (pool.run operations).Above position height := by
  induction operations generalizing pool with
  | nil => exact above
  | cons operation later ih =>
      obtain ⟨higher, further⟩ := rises.step
      exact ih (above.perform coherent higher) (coherent.perform operation) further

theorem Ascending.run (ascending : pool.Ascending) (coherent : pool.Coherent)
    (rises : pool.Rises operations) : (pool.run operations).Ascending := by
  induction operations generalizing pool with
  | nil => exact ascending
  | cons operation later ih =>
      obtain ⟨higher, further⟩ := rises.step
      exact ih (ascending.perform coherent higher) (coherent.perform operation) further

theorem Rises.left {later : List Operation} (rises : pool.Rises (operations ++ later)) :
    pool.Rises operations := by
  unfold Rises at rises ⊢
  rw [List.filterMap_append, ← List.cons_append] at rises
  exact (List.pairwise_append.mp rises).1

theorem Rises.right {later : List Operation} (rises : pool.Rises (operations ++ later)) :
    (pool.run operations).Rises later := by
  induction operations generalizing pool with
  | nil => exact rises
  | cons operation earlier ih => exact ih rises.step.2

theorem ascending_new {config : PoolConfig} {validator : Validator}
    (made : Pool.new config validator = .ok pool) : pool.Ascending := by
  obtain ⟨_, rfl⟩ := new_eq made
  intro position entry live
  cases live

theorem rises_new_iff {config : PoolConfig} {validator : Validator}
    (made : Pool.new config validator = .ok pool) :
    pool.Rises operations ↔ (operations.filterMap Operation.height?).Pairwise (· ≤ ·) := by
  obtain ⟨_, rfl⟩ := new_eq made
  refine List.pairwise_cons.trans (and_iff_right ?_)
  intro height _set
  exact UInt64.zero_le

end VoteGossip.Pool
