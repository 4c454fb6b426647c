import VoteGossip.Log.Wait
import VoteGossip.Proofs.Log.Positions

/-!
What comes to those who wait on a log. A wait that was polled in vain looks again only when
something was published since, and only a push publishes. Nothing is missed by that: what a wait
waits for never comes about without a push. And nothing is reported that is not there: a wait looks
at the log as it is at the poll. So whatever happens between two polls, and to however many waits, a
poll succeeds exactly if what is waited for is the case by then.
-/

set_option autoImplicit false

namespace VoteGossip.Log

variable {Entry : Type}

/-- What a wait waits for is the case. -/
def Fulfils (log : Log Entry) : Awaited → Prop
  | .entries => ∃ position entry, log.get position = .ready entry
  | .successor position => min (position + 1) (UInt64.size - 1) < log.written

structure Watched (Entry : Type) where
  log : Log Entry
  waits : Array Wait

namespace Watched

inductive Action (Entry : Type) where
  | operate (operation : Operation Entry)
  | wait (awaited : Awaited)
  | poll (index : Nat)

def empty (maxRetained : Nat) : Watched Entry :=
  { log := .empty maxRetained
    waits := #[] }

def perform (watched : Watched Entry) : Action Entry → Watched Entry
  | .operate operation => { watched with log := (watched.log.perform operation).1 }
  | .wait awaited => { watched with waits := watched.waits.push (.on awaited) }
  | .poll index => { watched with waits := watched.waits.modify index (·.poll watched.log) }

def run (watched : Watched Entry) (actions : List (Action Entry)) : Watched Entry :=
  actions.foldl perform watched

end Watched

variable {log later : Log Entry} {operation : Operation Entry} {awaited : Awaited} {wait : Wait}

theorem offers_iff (valid : log.Valid) : log.offers awaited = true ↔ log.Fulfils awaited := by
  cases awaited with
  | entries =>
      rw [offers_entries_iff valid]
      simp only [Fulfils, get_eq_ready_iff]
  | successor position => exact decide_eq_true_iff

theorem Evolves.fulfils_successor (evolves : log.Evolves later) (valid : log.Valid)
    (laterValid : later.Valid) {position : Nat} (written : log.Fulfils (.successor position)) :
    later.Fulfils (.successor position) := by
  have grown := evolves.stop_le
  change min (position + 1) (UInt64.size - 1) < log.written at written
  change min (position + 1) (UInt64.size - 1) < later.written
  rw [valid.published] at written
  rw [laterValid.published]
  omega

theorem version_perform (log : Log Entry) (operation : Operation Entry) :
    (log.perform operation).1.version = log.version + [operation].countP Operation.isPush := by
  cases operation with
  | remove position =>
      rcases log.remove_cases position with same | ⟨entry, _, removed⟩
      · rw [same]
        rfl
      · rw [removed]
        rfl
  | push | clear | get | front | size | isEmpty | retained | stop => rfl

theorem fulfils_of_not_push (valid : log.Valid) (quiet : operation.isPush = false)
    (fulfils : (log.perform operation).1.Fulfils awaited) : log.Fulfils awaited := by
  obtain ⟨nextValid, evolves⟩ := valid.perform operation
  have stop : (log.perform operation).1.window.stop = log.window.stop := by
    rcases stop_perform valid operation with ⟨_, _, same⟩ | ⟨entry, rfl, _⟩
    · exact same
    · cases quiet
  cases awaited with
  | entries =>
      obtain ⟨position, entry, ready⟩ := fulfils
      have live := get_eq_ready_iff.mp ready
      have written := Window.lt_stop_of_live live
      rw [stop] at written
      exact ⟨position, entry,
        get_eq_ready_iff.mpr (evolves.live_before position entry written live)⟩
  | successor position =>
      change min (position + 1) (UInt64.size - 1) < (log.perform operation).1.written at fulfils
      rw [nextValid.published, stop, ← valid.published] at fulfils
      exact fulfils

/-- A wait that has looked at all that was published looked in vain, and it still would. -/
structure Alert (log : Log Entry) (wait : Wait) : Prop where
  seen_le : ∀ seen, wait.progress = .parked seen → seen ≤ log.version
  in_vain : wait.progress = .parked log.version → ¬ log.Fulfils wait.awaited

theorem alert_on (log : Log Entry) (awaited : Awaited) : log.Alert (.on awaited) where
  seen_le := nofun
  in_vain := nofun

theorem Alert.perform (alert : log.Alert wait) (valid : log.Valid) (operation : Operation Entry) :
    (log.perform operation).1.Alert wait := by
  have version := log.version_perform operation
  cases pushes : operation.isPush with
  | true =>
      rw [List.countP_singleton, if_pos pushes] at version
      refine ⟨?_, ?_⟩
      · intro seen parked
        have before := alert.seen_le seen parked
        omega
      · intro parked
        have before := alert.seen_le _ parked
        omega
  | false =>
      rw [List.countP_singleton, if_neg (Bool.eq_false_iff.mp pushes), Nat.add_zero] at version
      refine ⟨?_, ?_⟩
      · rw [version]
        exact alert.seen_le
      · rw [version]
        intro parked fulfils
        exact alert.in_vain parked (fulfils_of_not_push valid pushes fulfils)

namespace Wait

theorem awaited_poll (wait : Wait) (log : Log Entry) : (wait.poll log).awaited = wait.awaited := by
  unfold poll
  split
  · rfl
  · split
    · rfl
    · rfl
  · rfl

theorem isDone_look (wait : Wait) (log : Log Entry) :
    (wait.look log).isDone = log.offers wait.awaited := by
  unfold look
  cases log.offers wait.awaited with
  | true => rfl
  | false => rfl

theorem isDone_poll_of_done (done : wait.isDone = true) (log : Log Entry) :
    (wait.poll log).isDone = true := by
  unfold poll
  rw [eq_of_beq done]
  exact done

theorem isDone_poll_iff (alert : log.Alert wait) (valid : log.Valid)
    (waiting : wait.isDone = false) :
    (wait.poll log).isDone = true ↔ log.Fulfils wait.awaited := by
  unfold poll
  cases progress : wait.progress with
  | fresh => rw [isDone_look, offers_iff valid]
  | done =>
      rw [isDone, progress] at waiting
      cases waiting
  | parked seen =>
      dsimp only
      by_cases current : seen = log.version
      · rw [if_pos current, waiting]
        rw [current] at progress
        exact iff_of_false Bool.false_ne_true (alert.in_vain progress)
      · rw [if_neg current, isDone_look, offers_iff valid]

theorem alert_look (wait : Wait) (valid : log.Valid) : log.Alert (wait.look log) := by
  unfold look
  cases offered : log.offers wait.awaited with
  | true => exact ⟨nofun, nofun⟩
  | false =>
      refine ⟨?_, ?_⟩
      · intro seen parked
        cases parked
        exact Nat.le_refl _
      · intro _parked fulfils
        rw [(offers_iff valid).mpr fulfils] at offered
        cases offered

theorem alert_poll (alert : log.Alert wait) (valid : log.Valid) : log.Alert (wait.poll log) := by
  unfold poll
  split
  · exact wait.alert_look valid
  · split
    · exact alert
    · exact wait.alert_look valid
  · exact alert

end Wait

namespace Watched

variable {watched : Watched Entry} {action : Action Entry} {index : Nat}

structure Attentive (watched : Watched Entry) : Prop where
  valid : watched.log.Valid
  alert : ∀ (index : Nat) (wait : Wait), watched.waits[index]? = some wait → watched.log.Alert wait

theorem attentive_empty (maxRetained : Nat) : (empty maxRetained : Watched Entry).Attentive where
  valid := valid_empty maxRetained
  alert := nofun

theorem waits_poll (watched : Watched Entry) (polled index : Nat) :
    (watched.perform (.poll polled)).waits[index]? =
      if polled = index then watched.waits[index]?.map (·.poll watched.log)
      else watched.waits[index]? :=
  Array.getElem?_modify

theorem Attentive.perform (attentive : watched.Attentive) (action : Action Entry) :
    (watched.perform action).Attentive := by
  have valid := attentive.valid
  cases action with
  | operate operation =>
      refine ⟨(valid.perform operation).1, ?_⟩
      intro index wait found
      exact (attentive.alert index wait found).perform valid operation
  | wait awaited =>
      refine ⟨valid, ?_⟩
      intro index wait found
      change (watched.waits.push (.on awaited))[index]? = some wait at found
      rw [Array.getElem?_push] at found
      split at found
      · cases found
        exact alert_on watched.log awaited
      · exact attentive.alert index wait found
  | poll polled =>
      refine ⟨valid, ?_⟩
      intro index wait found
      rw [waits_poll] at found
      split at found
      · obtain ⟨before, beforeFound, same⟩ := Option.map_eq_some_iff.mp found
        rw [← same]
        exact Wait.alert_poll (attentive.alert index before beforeFound) valid
      · exact attentive.alert index wait found

/-- What becomes of a wait in the course of time: it keeps waiting for the same, and once it is over
it stays over. -/
structure Continues (earlier later : Wait) : Prop where
  awaited_eq : later.awaited = earlier.awaited
  done : earlier.isDone = true → later.isDone = true

theorem Continues.refl (wait : Wait) : Continues wait wait := ⟨rfl, id⟩

theorem continues_perform {wait : Wait} (found : watched.waits[index]? = some wait)
    (action : Action Entry) :
    ∃ after, (watched.perform action).waits[index]? = some after ∧ Continues wait after := by
  cases action with
  | operate operation => exact ⟨wait, found, .refl wait⟩
  | wait awaited =>
      refine ⟨wait, ?_, .refl wait⟩
      have within := (Array.getElem?_eq_some_iff.mp found).1
      change (watched.waits.push (.on awaited))[index]? = some wait
      rw [Array.getElem?_push, if_neg (Nat.ne_of_lt within)]
      exact found
  | poll polled =>
      rw [waits_poll, found]
      split
      · exact ⟨_, rfl, wait.awaited_poll watched.log,
          fun done => Wait.isDone_poll_of_done done watched.log⟩
      · exact ⟨wait, rfl, .refl wait⟩

theorem Attentive.evolves_perform (attentive : watched.Attentive) (action : Action Entry) :
    watched.log.Evolves (watched.perform action).log := by
  cases action with
  | operate operation => exact (attentive.valid.perform operation).2
  | wait | poll => exact .refl watched.log

theorem Attentive.run (attentive : watched.Attentive) (actions : List (Action Entry)) :
    (watched.run actions).Attentive ∧ watched.log.Evolves (watched.run actions).log := by
  induction actions generalizing watched with
  | nil => exact ⟨attentive, .refl watched.log⟩
  | cons action later ih =>
      have moved := attentive.evolves_perform action
      obtain ⟨last, further⟩ := ih (attentive.perform action)
      exact ⟨last, moved.trans further⟩

theorem continues_run {wait : Wait} (found : watched.waits[index]? = some wait)
    (actions : List (Action Entry)) :
    ∃ after, (watched.run actions).waits[index]? = some after ∧ Continues wait after := by
  induction actions generalizing watched wait with
  | nil => exact ⟨wait, found, .refl wait⟩
  | cons action later ih =>
      obtain ⟨next, nextFound, moved⟩ := continues_perform found action
      obtain ⟨last, lastFound, further⟩ := ih nextFound
      exact ⟨last, lastFound, further.awaited_eq.trans moved.awaited_eq,
        fun done => further.done (moved.done done)⟩

theorem run_append (watched : Watched Entry) (earlier later : List (Action Entry)) :
    watched.run (earlier ++ later) = (watched.run earlier).run later := List.foldl_append

/-- What those who wait on a log can rely on. -/
structure Reliable (start : Watched Entry) (actions : List (Action Entry)) : Prop where
  poll_iff : ∀ (index : Nat) (wait : Wait), (start.run actions).waits[index]? = some wait →
    wait.isDone = false →
    ∃ polled : Wait, (start.run (actions ++ [.poll index])).waits[index]? = some polled ∧
      polled.awaited = wait.awaited ∧
      (polled.isDone = true ↔ (start.run actions).log.Fulfils wait.awaited)
  begun : ∀ earlier awaited later, actions = earlier ++ .wait awaited :: later →
    ∃ wait : Wait, (start.run actions).waits[(start.run earlier).waits.size]? = some wait ∧
      wait.awaited = awaited
  done_stays : ∀ earlier later, actions = earlier ++ later → ∀ (index : Nat) (wait : Wait),
    (start.run earlier).waits[index]? = some wait → wait.isDone = true →
    ∃ after : Wait, (start.run actions).waits[index]? = some after ∧ after.isDone = true
  /-- A successor counts as written whatever became of it. -/
  lasting : ∀ earlier later, actions = earlier ++ later → ∀ position,
    (start.run earlier).log.Fulfils (.successor position) →
    (start.run actions).log.Fulfils (.successor position)

/-- However a log is used, and however many waits are begun on it and polled in the meantime, no
wake-up is lost and none is false. -/
theorem waits_reliable (maxRetained : Nat) (actions : List (Action Entry)) :
    Reliable (.empty maxRetained) actions := by
  have attentive : ∀ earlier, ((empty maxRetained : Watched Entry).run earlier).Attentive :=
    fun earlier => ((attentive_empty maxRetained).run earlier).1
  refine ⟨?_, ?_, ?_, ?_⟩
  · intro index wait found waiting
    have alert := (attentive actions).alert index wait found
    refine ⟨wait.poll ((empty maxRetained).run actions).log, ?_, wait.awaited_poll _,
      Wait.isDone_poll_iff alert (attentive actions).valid waiting⟩
    rw [run_append]
    change (((empty maxRetained).run actions).perform (.poll index)).waits[index]? = _
    rw [waits_poll, if_pos rfl, found]
    rfl
  · intro earlier awaited later split
    rw [split, run_append]
    have there : (((empty maxRetained).run earlier).perform
        (.wait awaited)).waits[((empty maxRetained).run earlier).waits.size]? =
          some (.on awaited) := Array.getElem?_push_size
    obtain ⟨after, found, continues⟩ := continues_run there later
    exact ⟨after, found, continues.awaited_eq⟩
  · intro earlier later split index wait found done
    rw [split, run_append]
    obtain ⟨after, afterFound, continues⟩ := continues_run found later
    exact ⟨after, afterFound, continues.done done⟩
  · intro earlier later split position written
    obtain ⟨last, evolves⟩ := (attentive earlier).run later
    rw [split, run_append]
    exact evolves.fulfils_successor (attentive earlier).valid last.valid written

-- Entries that come and go between two polls leave the first wait open and end the second.
example :
    ((empty 4).run [.operate (.push 'a'), .operate (.remove 0), .wait .entries,
      .wait (.successor 0), .poll 0, .poll 1, .operate (.push 'b'), .operate .clear, .poll 0,
      .poll 1]).waits.map Wait.isDone = #[false, true] := by
  decide +kernel

end Watched

end VoteGossip.Log
