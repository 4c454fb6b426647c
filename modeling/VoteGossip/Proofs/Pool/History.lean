import VoteGossip.Proofs.Occurrence
import VoteGossip.Proofs.Pool.Holders

/-!
Who holds a pending entry, read off the history of the pool. The entry was written by handing in
its transaction. Its holders are the peer that did so, every peer that has handed the transaction in
again since, and every peer that has been filed by hand since: these and no others. What happened
to the same transaction at an earlier position is forgotten.
-/

set_option autoImplicit false

namespace VoteGossip.Pool

variable {pool start : Pool} {position : Nat} {id : TxId} {entry : PoolEntry}
  {peer sender : PeerId} {operation : Operation} {operations : List Operation}

/-- Done to this pool, the operation tells that the peer holds the entry of this name, which is
pending at this position. -/
inductive Credits (pool : Pool) (position : Nat) (id : TxId) (peer : PeerId) :
    Operation → Prop where
  | again (tx : Tx) (named : tx.id = id)
      (answered : (pool.submit tx peer).answer = .error (.alreadyPending id)) :
      Credits pool position id peer (.submit tx peer)
  | byHand : Credits pool position id peer (.addHolder position peer)

structure Admits (pool : Pool) (position : Nat) (entry : PoolEntry) (tx : Tx) (sender : PeerId) :
    Prop where
  unwritten : pool.entry position = .pending
  answered : (pool.submit tx sender).answer = .ok entry.id
  written : (pool.submit tx sender).pool.entry position = .ready entry

theorem credits_submit_iff {tx : Tx} : Credits pool position id peer (.submit tx sender) ↔
    sender = peer ∧ tx.id = id ∧
      (pool.submit tx sender).answer = .error (.alreadyPending id) := by
  constructor
  · intro credits
    cases credits with
    | again _ named answered => exact ⟨rfl, named, answered⟩
  · intro both
    obtain ⟨rfl, named, answered⟩ := both
    exact .again tx named answered

theorem credits_addHolder_iff {filed : Nat} :
    Credits pool position id peer (.addHolder filed sender) ↔ filed = position ∧ sender = peer := by
  constructor
  · intro credits
    cases credits with
    | byHand => exact ⟨rfl, rfl⟩
  · intro both
    obtain ⟨rfl, rfl⟩ := both
    exact .byHand

theorem Coherent.indexed_iff (coherent : pool.Coherent)
    (live : pool.log.window.entry? position = some entry) :
    pool.index[id]? = some position ↔ id = entry.id := by
  rw [coherent.indexes id position, live]
  constructor
  · intro indexed
    obtain ⟨found, same, named⟩ := indexed
    cases same
    exact named.symm
  · intro named
    exact ⟨entry, rfl, named.symm⟩

theorem Tracks.within (tracks : pool.Tracks) (live : pool.log.window.entry? position = some entry) :
    position < pool.holders.size := by
  rw [tracks]
  exact Log.Window.lt_stop_of_live live

/-- A submission files its sender as a holder of a pending entry exactly if it is refused as a
duplicate of it. -/
theorem holds_submit_iff (coherent : pool.Coherent) (tracks : pool.Tracks)
    (live : pool.log.window.entry? position = some entry) {tx : Tx} :
    (pool.submit tx sender).pool.holds position peer = true ↔
      pool.holds position peer = true ∨ peer.isUnknown = false ∧ sender = peer ∧
        tx.id = entry.id ∧ (pool.submit tx sender).answer = .error (.alreadyPending entry.id) := by
  have within := tracks.within live
  have ends := submission pool tx sender
  generalize pool.submit tx sender = reply at ends ⊢
  cases ends with
  | duplicate fits found other indexed foundLive =>
      rw [holds_addHolder_iff]
      apply or_congr_right
      constructor
      · intro filed
        obtain ⟨rfl, rfl, known, _⟩ := filed
        have named := (coherent.indexed_iff live).mp indexed
        exact ⟨known, rfl, named, congrArg _ (congrArg _ named)⟩
      · intro credited
        obtain ⟨known, rfl, named, _⟩ := credited
        have here := (coherent.indexed_iff live).mpr named
        rw [indexed] at here
        cases here
        exact ⟨rfl, rfl, known, within⟩
  | accepted fits fresh passed few =>
      rw [holds_accept_iff]
      apply or_congr_right
      constructor
      · intro atEnd
        exact absurd atEnd.1 (Nat.ne_of_lt within)
      · intro credited
        cases credited.2.2.2
  | stale fits found indexed dead =>
      obtain ⟨kept, keptLive, _⟩ := (coherent.indexes tx.id found).mp indexed
      exact absurd (Log.get_eq_ready_iff.mpr keptLive) (dead kept)
  | tooLarge | invalid | full =>
      refine (or_iff_left ?_).symm
      intro credited
      cases credited.2.2.2

theorem holds_perform_iff (coherent : pool.Coherent) (tracks : pool.Tracks)
    (live : pool.log.window.entry? position = some entry) :
    (pool.perform operation).holds position peer = true ↔ pool.holds position peer = true ∨
      peer.isUnknown = false ∧ Credits pool position entry.id peer operation := by
  cases operation with
  | submit tx sender =>
      rw [credits_submit_iff]
      exact holds_submit_iff coherent tracks live
  | update height committed =>
      obtain ⟨index, log, same⟩ := dropAll_frame { pool with height } committed
      change ({ pool with height }.dropAll committed).1.holds position peer = true ↔ _
      rw [same]
      refine (or_iff_left ?_).symm
      intro credited
      cases credited.2
  | flush =>
      refine (or_iff_left ?_).symm
      intro credited
      cases credited.2
  | addHolder filed sender =>
      rw [credits_addHolder_iff]
      change (pool.addHolder filed sender).1.holds position peer = true ↔ _
      rw [holds_addHolder_iff]
      apply or_congr_right
      constructor
      · intro added
        obtain ⟨rfl, rfl, known, _⟩ := added
        exact ⟨known, rfl, rfl⟩
      · intro credited
        obtain ⟨known, rfl, rfl⟩ := credited
        exact ⟨rfl, rfl, known, tracks.within live⟩

/-- Some operation of this run credits the peer at the moment it is done. -/
def Credited (pool : Pool) (position : Nat) (id : TxId) (peer : PeerId) : List Operation → Prop :=
  Occurs fun earlier operation => Credits (pool.run earlier) position id peer operation

/-- A run that leaves an entry pending adds to its holders exactly the peers it credits. -/
theorem holds_run_iff (coherent : pool.Coherent) (tracks : pool.Tracks)
    (written : position < pool.log.window.stop)
    (live : (pool.run operations).log.window.entry? position = some entry) :
    (pool.run operations).holds position peer = true ↔ pool.holds position peer = true ∨
      peer.isUnknown = false ∧ Credited pool position entry.id peer operations := by
  induction operations using List.reverseRecOn with
  | nil =>
      refine (or_iff_left ?_).symm
      intro credited
      exact not_occurs_nil credited.2
  | append_singleton earlier last ih =>
      have kept := coherent.run earlier
      have tracked := tracks.run coherent earlier
      rw [run_snoc] at live ⊢
      have stillWritten := Nat.lt_of_lt_of_le written (coherent.evolves_run earlier).stop_le
      have before := (kept.evolves_perform last).live_before position entry stillWritten live
      rw [holds_perform_iff kept tracked before, ih before, Credited, occurs_snoc, or_assoc,
        and_or_left]

theorem accept_of_answer {tx : Tx} (answered : (pool.submit tx sender).answer = .ok id) :
    pool.submit tx sender = pool.accept tx tx.id sender := by
  have ends := submission pool tx sender
  generalize pool.submit tx sender = reply at ends answered ⊢
  cases ends with
  | accepted => rfl
  | tooLarge | duplicate | stale | invalid | full => cases answered

theorem Admits.stop_eq {tx : Tx} (admits : pool.Admits position entry tx sender)
    (coherent : pool.Coherent) : pool.log.window.stop = position := by
  have beyond := Log.get_eq_pending_iff.mp admits.unwritten
  have live := Log.get_eq_ready_iff.mp admits.written
  have inside := Log.Window.lt_stop_of_live live
  rw [accept_of_answer admits.answered] at inside
  change position < (pool.log.push _).log.window.stop at inside
  rw [Log.stop_push coherent.log_valid] at inside
  omega

theorem Admits.holds_iff {tx : Tx} (admits : pool.Admits position entry tx sender)
    (coherent : pool.Coherent) (tracks : pool.Tracks) :
    (pool.submit tx sender).pool.holds position peer = true ↔
      peer.isUnknown = false ∧ peer = sender := by
  have stop := admits.stop_eq coherent
  have nobody : ¬ pool.holds position peer = true := by
    intro held
    exact Nat.ne_of_lt (tracks.written held) stop.symm
  rw [accept_of_answer admits.answered, holds_accept_iff, or_iff_right nobody]
  constructor
  · intro supplied
    obtain ⟨_, rfl, known⟩ := supplied
    exact ⟨known, rfl⟩
  · intro supplied
    obtain ⟨known, rfl⟩ := supplied
    exact ⟨(tracks.trans stop).symm, rfl, known⟩

theorem admits_of_submit {tx : Tx} (coherent : pool.Coherent)
    (unwritten : pool.entry position = .pending)
    (written : (pool.submit tx sender).pool.entry position = .ready entry) :
    pool.Admits position entry tx sender := by
  refine ⟨unwritten, ?_, written⟩
  have beyond := Log.get_eq_pending_iff.mp unwritten
  have live := Log.get_eq_ready_iff.mp written
  have inside := Log.Window.lt_stop_of_live live
  have ends := submission pool tx sender
  generalize pool.submit tx sender = reply at ends live inside ⊢
  cases ends with
  | accepted fits fresh passed few =>
      change (pool.log.push _).log.window.entry? position = some entry at live
      change position < (pool.log.push _).log.window.stop at inside
      rw [Log.stop_push coherent.log_valid] at inside
      have atEnd : position = pool.log.window.stop := by omega
      rw [Log.entry?_push coherent.log_valid, if_pos atEnd] at live
      cases live
      rfl
  | duplicate fits found other indexed foundLive =>
      obtain ⟨holders, same⟩ := addHolder_eq pool found sender
      rw [same] at inside
      exact absurd inside (Nat.not_lt.mpr beyond)
  | tooLarge | stale | invalid | full => exact absurd inside (Nat.not_lt.mpr beyond)

/-- Only handing in its transaction makes an entry appear where nothing was written. -/
theorem admits_of_live (coherent : pool.Coherent) (tracks : pool.Tracks)
    (unwritten : pool.log.window.stop ≤ position)
    (live : (pool.perform operation).log.window.entry? position = some entry) :
    ∃ tx sender, operation = .submit tx sender ∧ pool.Admits position entry tx sender := by
  have inside := Log.Window.lt_stop_of_live live
  cases operation with
  | submit tx sender =>
      have pending := Log.get_eq_pending_iff.mpr unwritten
      have ready := Log.get_eq_ready_iff.mpr live
      exact ⟨tx, sender, rfl, admits_of_submit coherent pending ready⟩
  | update height committed =>
      have tracked := tracks.perform coherent (.update height committed)
      obtain ⟨index, log, same⟩ := dropAll_frame { pool with height } committed
      change ({ pool with height }.dropAll committed).1.Tracks at tracked
      change position < ({ pool with height }.dropAll committed).1.log.window.stop at inside
      rw [← tracked, same] at inside
      change position < pool.holders.size at inside
      rw [tracks] at inside
      exact absurd inside (Nat.not_lt.mpr unwritten)
  | flush =>
      change pool.log.window.drained.entry? position = some entry at live
      rw [Log.Window.entry?_drained] at live
      cases live
  | addHolder filed sender =>
      obtain ⟨holders, same⟩ := addHolder_eq pool filed sender
      change position < (pool.addHolder filed sender).1.log.window.stop at inside
      rw [same] at inside
      exact absurd inside (Nat.not_lt.mpr unwritten)

theorem exists_admission (coherent : pool.Coherent) (tracks : pool.Tracks)
    (unwritten : pool.log.window.stop ≤ position)
    (live : (pool.run operations).log.window.entry? position = some entry) :
    ∃ before tx sender after, operations = before ++ .submit tx sender :: after ∧
      (pool.run before).Admits position entry tx sender := by
  induction operations using List.reverseRecOn with
  | nil => exact absurd (Log.Window.lt_stop_of_live live) (Nat.not_lt.mpr unwritten)
  | append_singleton earlier last ih =>
      have kept := coherent.run earlier
      rw [run_snoc] at live
      by_cases written : position < (pool.run earlier).log.window.stop
      · have liveBefore := (kept.evolves_perform last).live_before position entry written live
        obtain ⟨before, tx, sender, after, rfl, admits⟩ := ih liveBefore
        refine ⟨before, tx, sender, after ++ [last], ?_, admits⟩
        rw [List.append_assoc, List.cons_append]
      · obtain ⟨tx, sender, rfl, admits⟩ := admits_of_live kept (tracks.run coherent earlier)
          (Nat.le_of_not_lt written) live
        exact ⟨earlier, tx, sender, [], rfl, admits⟩

/-- A pending entry was written by handing its transaction in, and it is held by the peer that did
so and by whoever has been credited with it since. -/
theorem holds_iff_credited {config : PoolConfig} {validator : Validator}
    (made : Pool.new config validator = .ok start)
    (live : (start.run operations).entry position = .ready entry) :
    (∃ before tx sender after, operations = before ++ .submit tx sender :: after ∧
      (start.run before).Admits position entry tx sender) ∧
    ∀ before tx sender after, operations = before ++ .submit tx sender :: after →
      (start.run before).Admits position entry tx sender →
      ∀ peer, (start.run operations).holds position peer = true ↔
        peer.isUnknown = false ∧
          (peer = sender ∨
            Credited (start.run (before ++ [.submit tx sender])) position entry.id peer after) := by
  have coherent := coherent_new made
  have tracks := tracks_new made
  have alive := Log.get_eq_ready_iff.mp live
  have empty : start.log.window.stop = 0 := by
    obtain ⟨_, rfl⟩ := new_eq made
    rfl
  refine ⟨exists_admission coherent tracks (by rw [empty]; exact Nat.zero_le _) alive, ?_⟩
  intro before tx sender after split admits peer
  have kept := coherent.run before
  have tracked := tracks.run coherent before
  have written : position < (start.run (before ++ [.submit tx sender])).log.window.stop := by
    have now := Log.get_eq_ready_iff.mp admits.written
    rw [run_snoc]
    exact Log.Window.lt_stop_of_live now
  have parted : start.run operations = (start.run (before ++ [.submit tx sender])).run after := by
    rw [split, List.append_cons, run_append]
  rw [parted] at alive ⊢
  have admitted : (start.run (before ++ [.submit tx sender])).holds position peer = true ↔
      peer.isUnknown = false ∧ peer = sender := by
    rw [run_snoc]
    exact admits.holds_iff kept tracked
  rw [holds_run_iff (coherent.run _) (tracks.run coherent _) written alive, admitted, and_or_left]

theorem credited_after_readmission :
    ∃ start, Pool.new { maxTxs := 2, maxRetained := 2 } Validator.acceptAll = .ok start ∧
      let before := [.submit ⟨[97]⟩ ⟨1⟩, .update 1 [⟨[97]⟩]]
      let after := [.submit ⟨[98]⟩ ⟨4⟩, .submit ⟨[97]⟩ ⟨3⟩, .addHolder 1 ⟨5⟩]
      let admitted := start.run (before ++ [.submit ⟨[97]⟩ ⟨2⟩])
      let pool := start.run (before ++ .submit ⟨[97]⟩ ⟨2⟩ :: after)
      let entry : PoolEntry := { tx := ⟨[97]⟩, id := Tx.id ⟨[97]⟩, height := 1 }
      pool.entry 1 = .ready entry ∧ (start.run before).Admits 1 entry ⟨[97]⟩ ⟨2⟩ ∧
        [1, 2, 3, 4, 5].map (fun number => pool.holds 1 ⟨number⟩) =
          [false, true, true, false, true] ∧
        ∀ peer, pool.holds 1 peer = true ↔ peer.isUnknown = false ∧
          (peer = ⟨2⟩ ∨ admitted.Credited 1 entry.id peer after) := by
  refine ⟨_, rfl, ?_⟩
  intro before after admitted pool entry
  have made : Pool.new { maxTxs := 2, maxRetained := 2 } Validator.acceptAll = .ok _ := rfl
  have live : pool.entry 1 = .ready entry := by decide +kernel
  have admits := @admits_of_submit _ 1 entry ⟨2⟩ ⟨[97]⟩ ((coherent_new made).run before)
    (by decide +kernel) (by decide +kernel)
  have credited := (holds_iff_credited made live).2 before ⟨[97]⟩ ⟨2⟩ after rfl admits
  exact ⟨live, admits, by decide +kernel, credited⟩

end VoteGossip.Pool
