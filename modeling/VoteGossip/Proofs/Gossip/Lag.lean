import VoteGossip.Proofs.Gossip.Due
import VoteGossip.Proofs.Gossip.Identity
import VoteGossip.Proofs.Gossip.Provenance
import VoteGossip.Proofs.Pool.Rising

/-!
Waiting for a peer that lags. A routine that finds its peer too far behind the entry at its cursor
pauses there and does not look further. As long as the height of the pool does not fall, this costs
the peer nothing: what comes later in the log is at least as high, so the peer is too far behind
that as well.
-/

set_option autoImplicit false

namespace VoteGossip

namespace Routine

variable {routine : Routine} {view : View} {connection : Connection} {wake : Wake} {node : NodeId}
  {position : Nat} {delivery : Delivery}

theorem not_retrying_restart (routine : Routine) (view : View) (connection : Connection) :
    .retrying node position delivery ∉ (routine.restart view connection).events := by
  unfold restart
  split
  · simp only [finish, List.mem_singleton, reduceCtorEq, not_false_eq_true]
  · exact List.not_mem_nil

theorem exists_looksAt_of_retrying
    (heard : .retrying node position delivery ∈ (routine.resume view connection wake).events) :
    ∃ cursor, routine.looksAt? view connection wake = some cursor := by
  have finished : .retrying node position delivery ∉ (routine.finish connection).events := by
    simp only [finish, List.mem_singleton, reduceCtorEq, not_false_eq_true]
  unfold resume at heard
  unfold looksAt?
  cases phase : routine.phase <;> cases wake <;> rw [phase] at heard
  case launching.launch =>
    rcases List.mem_cons.mp heard with impossible | restarted
    · cases impossible
    · exact absurd restarted (routine.not_retrying_restart view connection)
  case awaitingEntries.entries =>
    cases front : view.pool.front with
    | none =>
        simp only [front] at heard
        exact absurd heard (routine.not_retrying_restart view connection)
    | some cursor => exact ⟨cursor, rfl⟩
  case awaitingSuccessor.successor cursor =>
    by_cases cancels : view.cancels connection = true
    · simp only [proceed, if_pos cancels] at heard
      exact absurd heard finished
    · exact ⟨cursor + 1, if_neg cancels⟩
  case pausing.timer cursor wakeAt =>
    by_cases cancels : view.cancels connection = true
    · simp only [proceed, if_pos cancels] at heard
      exact absurd heard finished
    · exact ⟨cursor, if_neg cancels⟩
  case awaitingEntries.cancellation | awaitingSuccessor.cancellation | pausing.cancellation =>
    exact absurd heard finished
  all_goals cases heard

theorem behind_of_retrying
    (heard : .retrying node position .peerBehind ∈
      (routine.resume view connection wake).events) :
    node = connection.node ∧ ∃ entry reported, view.pool.entry position = .ready entry ∧
      view.heights.reported? connection.node = some reported ∧
      reported.toNat + 1 < entry.height.toNat := by
  obtain ⟨cursor, looks⟩ := exists_looksAt_of_retrying heard
  have visited := resume_of_looksAt looks
  generalize routine.resume view connection wake = turn at visited heard
  cases visited with
  | behind entry live reported known far =>
      cases List.mem_singleton.mp heard
      refine ⟨rfl, entry, reported, live, known, ?_⟩
      exact Nat.lt_of_not_le fun within => (not_reach_lt_iff reported entry.height).mpr within far
  | sent | held | notReady | refused => cases List.mem_singleton.mp heard
  | skipped => cases heard
  | lost gone => exact absurd heard (routine.not_retrying_restart view connection)

end Routine

namespace Hub

def Action.height? : Action → Option UInt64
  | .update height _ => some height
  | _ => none

/-- The height that this node reported is more than one block below the entry. -/
def Lags (hub : Hub) (node : NodeId) (entry : PoolEntry) : Prop :=
  ∃ reported, hub.heights.reported? node = some reported ∧
    reported.toNat + 1 < entry.height.toNat

variable {hub start : Hub} {action : Action} {actions : List Action} {node : NodeId}
  {position : Nat} {height : UInt64}

theorem Causes.height?_eq {operation : Pool.Operation} (causes : hub.Causes action operation) :
    operation.height? = action.height? := by
  cases causes <;> rfl

theorem pool_of_action (hub : Hub) (action : Action) :
    ∃ operations, (hub.perform action).pool = hub.pool.run operations ∧
      operations.filterMap Pool.Operation.height? = action.height?.toList := by
  cases set : action.height? with
  | some height =>
      cases action with
      | update _ committed =>
          cases set
          exact ⟨[.update height committed], rfl, rfl⟩
      | _ => cases set
  | none =>
      rcases hub.pool_perform action with same | ⟨operation, causes, performed⟩
      · exact ⟨[], same, rfl⟩
      · refine ⟨[operation], performed, ?_⟩
        exact List.filterMap_cons_none (causes.height?_eq.trans set)

theorem pool_of_run (hub : Hub) (actions : List Action) :
    ∃ operations, (hub.run actions).pool = hub.pool.run operations ∧
      operations.filterMap Pool.Operation.height? = actions.filterMap Action.height? := by
  induction actions generalizing hub with
  | nil => exact ⟨[], rfl, rfl⟩
  | cons action later ih =>
      obtain ⟨first, performed, firstHeights⟩ := hub.pool_of_action action
      obtain ⟨further, ran, furtherHeights⟩ := ih (hub.perform action)
      refine ⟨first ++ further, ?_, ?_⟩
      · rw [Pool.run_append, ← performed]
        exact ran
      · rw [List.filterMap_append, firstHeights, furtherHeights, List.filterMap_cons]
        cases action.height? <;> rfl

/-- The heights that actions set are in ascending order, from the height of the pool on. -/
def Rises (hub : Hub) (actions : List Action) : Prop :=
  (hub.pool.height :: actions.filterMap Action.height?).Pairwise (· ≤ ·)

theorem Rises.pool (rises : hub.Rises actions) :
    ∃ operations, (hub.run actions).pool = hub.pool.run operations ∧
      hub.pool.Rises operations := by
  obtain ⟨operations, ran, heights⟩ := hub.pool_of_run actions
  refine ⟨operations, ran, ?_⟩
  rw [Pool.Rises, heights]
  exact rises

theorem Rises.right {later : List Action} (rises : hub.Rises (actions ++ later)) :
    (hub.run actions).Rises later := by
  obtain ⟨first, ran, firstHeights⟩ := hub.pool_of_run actions
  obtain ⟨further, _, furtherHeights⟩ := (hub.run actions).pool_of_run later
  have whole : hub.pool.Rises (first ++ further) := by
    rw [Pool.Rises, List.filterMap_append, firstHeights, furtherHeights, ← List.filterMap_append]
    exact rises
  have rest := whole.right
  rw [← ran, Pool.Rises, furtherHeights] at rest
  exact rest

theorem Rises.left {later : List Action} (rises : hub.Rises (actions ++ later)) :
    hub.Rises actions := by
  unfold Rises at rises ⊢
  rw [List.filterMap_append, ← List.cons_append] at rises
  exact (List.pairwise_append.mp rises).1

/-- No live entry behind this position is lower than the entry, so a peer that lags behind the entry
lags behind all of them. -/
def NothingDueBehind (hub : Hub) (node : NodeId) (position : Nat) (entry : PoolEntry) : Prop :=
  ∀ further other, position < further → hub.pool.entry further = .ready other →
    entry.height ≤ other.height ∧ (hub.Lags node entry → hub.Lags node other)

theorem ascending_run (ascending : hub.pool.Ascending) (coherent : hub.pool.Coherent)
    (rises : hub.Rises actions) : (hub.run actions).pool.Ascending := by
  obtain ⟨operations, ran, rising⟩ := rises.pool
  rw [ran]
  exact ascending.run coherent rising

theorem above_run (above : hub.pool.Above position height) (coherent : hub.pool.Coherent)
    (rises : hub.Rises actions) : (hub.run actions).pool.Above position height := by
  obtain ⟨operations, ran, rising⟩ := rises.pool
  rw [ran]
  exact above.run coherent rising

theorem nothingDueBehind_of_above {entry : PoolEntry}
    (above : hub.pool.Above position entry.height) : hub.NothingDueBehind node position entry := by
  intro further other behind live
  have higher := above.later further other behind (Log.get_eq_ready_iff.mp live)
  refine ⟨higher, ?_⟩
  intro lags
  obtain ⟨reported, known, far⟩ := lags
  exact ⟨reported, known, Nat.lt_of_lt_of_le far (UInt64.le_iff_toNat_le.mp higher)⟩

/-- Where the height of the pool never falls, the heights of the live entries do not fall along the
log. So while a routine pauses because its peer lags behind the entry at its cursor, and for as long
as the peer lags behind this entry, it lags behind every live entry that comes later, also behind
those that are written during the pause. -/
theorem waits_for_nothing_due {poolConfig : PoolConfig} {validator : Validator} {pool : Pool}
    {before : List Pool.Operation} {config : GossipConfig} {registry : Registry}
    (poolMade : Pool.new poolConfig validator = .ok pool)
    (made : Hub.new config (pool.run before) registry = .ok start)
    (rises : (before.filterMap Pool.Operation.height? ++
      actions.filterMap Action.height?).Pairwise (· ≤ ·)) :
    (∀ lower upper first last, lower < upper →
      (start.run actions).pool.entry lower = .ready first →
      (start.run actions).pool.entry upper = .ready last → first.height ≤ last.height) ∧
    ∀ earlier action later index node position, actions = earlier ++ action :: later →
      .retrying node position .peerBehind ∈ (start.run earlier).reported index action →
      ∃ entry, (start.run earlier).pool.entry position = .ready entry ∧
        (start.run earlier).Lags node entry ∧
        (∀ further other, position < further →
          (start.run earlier).pool.entry further = .ready other →
          (start.run earlier).Lags node other) ∧
        ∀ between rest, later = between ++ rest →
          (start.run (earlier ++ action :: between)).NothingDueBehind node position entry := by
  have fresh : start.Fresh :=
    ⟨poolConfig, validator, pool, before, config, registry, poolMade, made⟩
  have pool_eq : start.pool = pool.run before := by
    obtain ⟨_, rfl⟩ := new_eq made
    rfl
  -- The run comes down to operations of one pool, whose heights rise from its start.
  obtain ⟨operations, _, heights⟩ := start.pool_of_run actions
  have whole : pool.Rises (before ++ operations) := by
    rw [Pool.rises_new_iff poolMade, List.filterMap_append, heights]
    exact rises
  have ascending : start.pool.Ascending := by
    rw [pool_eq]
    exact (Pool.ascending_new poolMade).run (Pool.coherent_new poolMade) whole.left
  have risesNow : start.Rises actions := by
    have rest := whole.right
    rw [← pool_eq, Pool.Rises, heights] at rest
    exact rest
  constructor
  · intro lower upper first last less firstLive lastLive
    have sorted := ascending_run ascending fresh.coherent risesNow
    have above := sorted lower first (Log.get_eq_ready_iff.mp firstLive)
    exact above.later upper last less (Log.get_eq_ready_iff.mp lastLive)
  · intro earlier action later index node position split paused
    subst split
    have coherent := coherent_run fresh.coherent earlier
    have sorted := ascending_run ascending fresh.coherent risesNow.left
    obtain ⟨wake, routine, connection, turns, heard⟩ := turns_of_reported paused
    obtain ⟨rfl, entry, reported, live, known, far⟩ := Routine.behind_of_retrying heard
    have above := sorted position entry (Log.get_eq_ready_iff.mp live)
    have lags : (start.run earlier).Lags connection.node entry := ⟨reported, known, far⟩
    refine ⟨entry, live, lags, ?_, ?_⟩
    · intro further other behind otherLive
      exact (nothingDueBehind_of_above above further other behind otherLive).2 lags
    · intro between rest later_eq
      rw [later_eq, ← List.cons_append] at risesNow
      rw [run_append]
      exact nothingDueBehind_of_above (above_run above coherent risesNow.right.left)

/-- Two entries at height five, before a peer that reported three. The first one is committed during
the pause, and an old transaction comes in again at seven. -/
theorem waits_while_chain_grows :
    ∃ pool start, Pool.new {} Validator.acceptAll = .ok pool ∧
      Hub.new {} (pool.run [.submit ⟨[97]⟩ .unknown, .update 5 [⟨[97]⟩]]) (.empty 1) = .ok start ∧
      let node : NodeId := ⟨Vector.replicate 32 7⟩
      let earlier : List Action := [.start, .openConnection node 4, .addPeer 0, .report node 3,
        .submit ⟨[98]⟩ .unknown, .submit ⟨[99]⟩ .unknown, .resume 0 .launch]
      let between : List Action := [.update 7 [⟨[98]⟩], .submit ⟨[97]⟩ .unknown]
      let now := start.run (earlier ++ .resume 0 .entries :: between)
      .retrying node 1 .peerBehind ∈ (start.run earlier).reported 0 (.resume 0 .entries) ∧
        (∃ entry, (start.run earlier).pool.entry 1 = .ready entry ∧
          (start.run earlier).Lags node entry ∧ now.NothingDueBehind node 1 entry) ∧
        [now.pool.entry 1, now.pool.entry 2, now.pool.entry 3].map
          (fun slot => slot.ready?.map (·.height)) = [none, some 5, some 7] := by
  let node : NodeId := ⟨Vector.replicate 32 7⟩
  let earlier : List Action := [.start, .openConnection node 4, .addPeer 0, .report node 3,
    .submit ⟨[98]⟩ .unknown, .submit ⟨[99]⟩ .unknown, .resume 0 .launch]
  let between : List Action := [.update 7 [⟨[98]⟩], .submit ⟨[97]⟩ .unknown]
  have waits := (@waits_for_nothing_due _ (earlier ++ .resume 0 .entries :: between) {}
    Validator.acceptAll _ [.submit ⟨[97]⟩ .unknown, .update 5 [⟨[97]⟩]] {} (.empty 1) rfl rfl
    (by decide)).2
  refine ⟨_, _, rfl, rfl, ?paused,
    Exists.imp ?nothing (waits earlier _ between 0 node 1 rfl ?paused), ?heights⟩
  case paused => decide +kernel
  case heights => decide +kernel
  case nothing =>
    intro entry pauses
    obtain ⟨live, lags, _, nothing⟩ := pauses
    exact ⟨live, lags, nothing between [] (List.append_nil between).symm⟩

end Hub

end VoteGossip
