import VoteGossip.Proofs.Gossip.Identity
import VoteGossip.Proofs.Occurrence

/-!
Handles on routines. A routine that was created and has not finished can be reached: it serves a
registered node, or it was retired when its node was removed, or a stop took it over and waits for
it. Routines that serve carry the number that their node has now, so no two of them carry the same.
-/

set_option autoImplicit false

namespace VoteGossip

theorem Routine.not_finished_of_wakesOn {routine : Routine} {view : View} {connection : Connection}
    {wake : Wake} (wakes : routine.wakesOn view connection wake = true) :
    routine.isFinished = false := by
  unfold isFinished
  cases phase : routine.phase with
  | finished =>
      unfold wakesOn at wakes
      rw [phase] at wakes
      cases wake <;> cases wakes
  | launching | awaitingEntries | awaitingSuccessor | pausing => rfl

namespace Hub

variable {hub start : Hub} {index : Nat} {node : NodeId} {action : Action} {actions : List Action}

/-- The hub keeps a handle on the routine. -/
def Handled (hub : Hub) (index : Nat) : Prop :=
  (∃ node : NodeId, hub.serving[node]? = some index) ∨ index ∈ hub.retired

/-- Some stop in this run took the handle over and waits for the routine from then on. -/
def Awaited (start : Hub) (index : Nat) : List Action → Prop :=
  Occurs fun earlier action => action = .stop ∧ (start.run earlier).Handled index

/-- Every stop that was called has come to its end: whatever it waits for has finished. -/
def Completed (start : Hub) (actions : List Action) : Prop :=
  ∀ index, Awaited start index actions → (start.run actions).isAlive index = false

theorem isAlive_iff : hub.isAlive index = true ↔
    ∃ routine, hub.routines[index]? = some routine ∧ routine.isFinished = false := by
  unfold isAlive
  cases found : hub.routines[index]? with
  | none =>
      constructor
      · intro impossible; cases impossible
      · intro alive
        obtain ⟨routine, impossible, _⟩ := alive
        cases impossible
  | some routine =>
      constructor
      · intro alive
        exact ⟨routine, rfl, (Bool.not_eq_true' _).mp alive⟩
      · intro alive
        obtain ⟨same, equal, unfinished⟩ := alive
        cases equal
        exact (Bool.not_eq_true' _).mpr unfinished

theorem Turns.isAlive_after {wake : Routine.Wake} {routine : Routine} {connection : Connection}
    (turns : hub.Turns index wake routine connection) :
    (hub.perform (.resume index wake)).isAlive index =
      !(routine.resume hub.view connection wake).routine.isFinished := by
  rw [isAlive, turns.routine_after]

theorem alive_of_wakesOn {wake : Routine.Wake} (woken : hub.wakesOn index wake = true) :
    hub.isAlive index = true := by
  obtain ⟨routine, connection, turns⟩ := turns_of_wakesOn woken
  exact isAlive_iff.mpr ⟨routine, turns.routine_at, Routine.not_finished_of_wakesOn turns.wakes⟩

theorem alive_before (alive : (hub.perform action).isAlive index = true) :
    hub.isAlive index = true ∨
      hub.routines.size ≤ index ∧ index < (hub.perform action).routines.size := by
  obtain ⟨routine, found, unfinished⟩ := isAlive_iff.mp alive
  cases past found with
  | still same quiet => exact Or.inl (isAlive_iff.mpr ⟨routine, same, unfinished⟩)
  | unborn absent launching =>
      exact Or.inr ⟨Array.getElem?_eq_none_iff.mp absent, (Array.getElem?_eq_some_iff.mp found).1⟩
  | turned wake earlier connection acted turns routine_eq =>
      exact Or.inl (alive_of_wakesOn turns.wakesOn_eq)

theorem routine_kept {routine : Routine} (found : hub.routines[index]? = some routine)
    (action : Action) :
    ∃ phase, (hub.perform action).routines[index]? = some { routine with phase } := by
  have changed := hub.change action
  generalize hub.perform action = after at changed
  cases changed with
  | around operations pool_eq routines_eq =>
      rw [routines_eq]
      exact ⟨routine.phase, found⟩
  | launched created launching opened pool_eq routines_eq =>
      have within := (Array.getElem?_eq_some_iff.mp found).1
      rw [routines_eq, Array.getElem?_push, if_neg (Nat.ne_of_lt within)]
      exact ⟨routine.phase, found⟩
  | resumed acting wake earlier connection turns after_eq =>
      rw [after_eq]
      change ∃ phase, (hub.routines.setIfInBounds acting _)[index]? = _
      rw [Array.getElem?_setIfInBounds]
      split
      · rename_i same
        subst same
        have alike := turns.routine_at
        rw [found] at alike
        cases alike
        obtain ⟨phase, turned⟩ := routine.resume_routine hub.view connection wake
        rw [if_pos (Array.getElem?_eq_some_iff.mp found).1, turned]
        exact ⟨phase, rfl⟩
      · exact ⟨routine.phase, found⟩

inductive Custody (before : Hub) : Action → Hub → Prop where
  | kept {action : Action} {after : Hub}
      (serving_eq : after.serving = before.serving) (retired_eq : after.retired = before.retired)
      (shutdown_eq : after.shutdown = before.shutdown)
      (size_eq : after.routines.size = before.routines.size)
      (unserved : ∀ node reason, action = .removePeer node reason → before.serving[node]? = none) :
      Custody before action after
  | launched {after : Hub} (connection : Connection) (routine : Routine)
      (running : before.isRunning = true) (unserved : before.isServed connection.node = false)
      (assigned : after.registry.assigned[connection.node]? = some routine.peer)
      (routines_eq : after.routines = before.routines.push routine)
      (serving_eq : after.serving = before.serving.insert connection.node before.routines.size)
      (retired_eq : after.retired = before.retired)
      (shutdown_eq : after.shutdown = before.shutdown) :
      Custody before (.addPeer routine.connection) after
  | retired {after : Hub} (node : NodeId) (reason : String) (index : Nat)
      (served : before.serving[node]? = some index)
      (serving_eq : after.serving = before.serving.erase node)
      (retired_eq : ∀ other, other ∈ after.retired ↔
        before.isAlive other = true ∧ (other ∈ before.retired ∨ other = index))
      (shutdown_eq : after.shutdown = before.shutdown)
      (size_eq : after.routines.size = before.routines.size) :
      Custody before (.removePeer node reason) after
  | released : Custody before .stop before.signalStop

theorem mem_retire {served : Nat} (found : hub.serving[node]? = some served) :
    index ∈ (hub.retire node).retired ↔
      hub.isAlive index = true ∧ (index ∈ hub.retired ∨ index = served) := by
  unfold retire
  simp only [found]
  by_cases alive : hub.isAlive served = true
  · rw [if_pos alive, List.mem_append, List.mem_filter, List.mem_singleton]
    constructor
    · intro either
      rcases either with old | rfl
      · exact ⟨old.2, Or.inl old.1⟩
      · exact ⟨alive, Or.inr rfl⟩
    · intro both
      rcases both.2 with old | same
      · exact Or.inl ⟨old, both.1⟩
      · exact Or.inr same
  · rw [if_neg alive, List.mem_filter]
    constructor
    · intro old
      exact ⟨old.2, Or.inl old.1⟩
    · intro both
      rcases both.2 with old | rfl
      · exact ⟨old, both.1⟩
      · exact absurd both.1 alive

theorem custody (hub : Hub) (action : Action) : Custody hub action (hub.perform action) := by
  cases action with
  | stop => exact .released
  | addPeer index =>
      have admitted := hub.addPeer_cases index
      change Custody hub _ (hub.addPeer index).hub
      generalize (hub.addPeer index).hub = after at admitted ⊢
      cases admitted with
      | unopened | refused | registered => exact .kept rfl rfl rfl rfl nofun
      | launched connection peer registry opened reserved running unserved =>
          exact .launched connection { connection := index, peer, phase := .launching } running
            unserved (Registry.assigned_of_reserve reserved) rfl rfl rfl rfl
  | removePeer node reason =>
      cases served : hub.serving[node]? with
      | none =>
          have performed : hub.perform (.removePeer node reason) =
              { hub with registry := (hub.registry.reclaim node).2 } := by
            change ({ hub with registry := (hub.registry.reclaim node).2 } : Hub).retire node = _
            simp only [retire, served]
          rw [performed]
          refine .kept rfl rfl rfl rfl ?_
          intro other because same
          cases same
          exact served
      | some index =>
          have performed : hub.perform (.removePeer node reason) =
              ({ hub with registry := (hub.registry.reclaim node).2 } : Hub).retire node := rfl
          rw [performed]
          refine .retired node reason index served ?_ (fun other => mem_retire served) ?_ ?_
          all_goals simp only [retire, served]
  | receive index channel frame =>
      have received := hub.receive_cases index channel frame
      change Custody hub _ (hub.receive index channel frame).hub
      generalize (hub.receive index channel frame).hub = after at received ⊢
      cases received <;> exact .kept rfl rfl rfl rfl nofun
  | resume index wake =>
      by_cases wakes : hub.wakesOn index wake = true
      · obtain ⟨routine, connection, turns⟩ := turns_of_wakesOn wakes
        rw [turns.perform_eq]
        exact .kept rfl rfl rfl Array.size_setIfInBounds nofun
      · have performed : hub.perform (.resume index wake) = hub := if_neg wakes
        rw [performed]
        exact .kept rfl rfl rfl rfl nofun
  | _ => exact .kept rfl rfl rfl rfl nofun

/-- A node that is served is registered, and its routine carries the number that it has now. -/
def Serves (hub : Hub) : Prop :=
  ∀ (node : NodeId) (index : Nat), hub.serving[node]? = some index →
    ∃ routine, hub.routines[index]? = some routine ∧
      hub.registry.assigned[node]? = some routine.peer

theorem Serves.perform (serves : hub.Serves) (sound : hub.registry.Sound) (action : Action) :
    (hub.perform action).Serves := by
  intro node index served
  have still : hub.serving[node]? = some index → (∀ reason, action ≠ .removePeer node reason) →
      ∃ routine, (hub.perform action).routines[index]? = some routine ∧
        (hub.perform action).registry.assigned[node]? = some routine.peer := by
    intro servedBefore stays
    obtain ⟨routine, found, assigned⟩ := serves node index servedBefore
    obtain ⟨phase, foundNow⟩ := routine_kept found action
    exact ⟨_, foundNow, assigned_perform sound assigned stays⟩
  have changed := hub.custody action
  generalize hub.perform action = after at changed served still ⊢
  cases changed with
  | kept serving_eq retired_eq shutdown_eq size_eq unserved =>
      rw [serving_eq] at served
      apply still served
      intro reason same
      rw [unserved node reason same] at served
      cases served
  | launched connection routine running unserved assigned routines_eq serving_eq =>
      rw [serving_eq, Std.ExtTreeMap.getElem?_insert] at served
      split at served
      · rename_i same
        cases served
        cases Std.compare_eq_iff_eq.mp same
        rw [routines_eq, Array.getElem?_push, if_pos rfl]
        exact ⟨routine, rfl, assigned⟩
      · exact still served nofun
  | retired gone reason retiring servedGone serving_eq =>
      rw [serving_eq, Std.ExtTreeMap.getElem?_erase] at served
      split at served
      · cases served
      · rename_i different
        apply still served
        intro because same
        cases same
        exact different (Std.compare_eq_iff_eq.mpr rfl)
  | released =>
      change (∅ : Std.ExtTreeMap NodeId Nat)[node]? = some index at served
      rw [Std.ExtTreeMap.getElem?_empty] at served
      cases served

theorem Fresh.serves (fresh : hub.Fresh) : hub.Serves := by
  obtain ⟨poolConfig, validator, pool, operations, config, registry, poolMade, made⟩ := fresh
  obtain ⟨_, rfl⟩ := new_eq made
  intro node index served
  change (∅ : Std.ExtTreeMap NodeId Nat)[node]? = some index at served
  rw [Std.ExtTreeMap.getElem?_empty] at served
  cases served

theorem Serves.run (serves : hub.Serves) (sound : hub.registry.Sound) (actions : List Action) :
    (hub.run actions).Serves := by
  induction actions generalizing hub with
  | nil => exact serves
  | cons action later ih => exact ih (serves.perform sound action) (sound_perform sound action)

theorem Serves.distinct (serves : hub.Serves) (sound : hub.registry.Sound) {left right : NodeId}
    {first second : Nat} {routine other : Routine}
    (servesLeft : hub.serving[left]? = some first) (servesRight : hub.serving[right]? = some second)
    (found : hub.routines[first]? = some routine) (foundOther : hub.routines[second]? = some other)
    (same : routine.peer = other.peer) : left = right ∧ first = second := by
  obtain ⟨leftRoutine, leftFound, leftAssigned⟩ := serves left first servesLeft
  obtain ⟨rightRoutine, rightFound, rightAssigned⟩ := serves right second servesRight
  rw [found] at leftFound
  rw [foundOther] at rightFound
  cases leftFound
  cases rightFound
  rw [same] at leftAssigned
  have node_eq := sound.distinct left right other.peer leftAssigned rightAssigned
  rw [node_eq, servesRight] at servesLeft
  exact ⟨node_eq, (Option.some.inj servesLeft).symm⟩

theorem Handled.perform (handled : hub.Handled index) (alive : hub.isAlive index = true)
    (action : Action) : (hub.perform action).Handled index ∨ action = .stop := by
  have changed := hub.custody action
  generalize hub.perform action = after at changed ⊢
  cases changed with
  | kept serving_eq retired_eq =>
      rw [Handled, serving_eq, retired_eq]
      exact Or.inl handled
  | launched connection routine running unserved assigned routines_eq serving_eq retired_eq =>
      rw [Handled, serving_eq, retired_eq]
      left
      rcases handled with serves | retired
      · obtain ⟨node, served⟩ := serves
        refine Or.inl ⟨node, ?_⟩
        rw [Std.ExtTreeMap.getElem?_insert]
        split
        · -- The handle of a routine is replaced only when the routine has finished.
          rename_i same
          cases Std.compare_eq_iff_eq.mp same
          rw [isServed, served] at unserved
          change hub.isAlive index = false at unserved
          rw [alive] at unserved
          cases unserved
        · exact served
      · exact Or.inr retired
  | retired gone reason retiring servedGone serving_eq retired_eq =>
      rw [Handled, serving_eq, retired_eq]
      left
      rcases handled with serves | retired
      · obtain ⟨node, served⟩ := serves
        by_cases same : gone = node
        · rw [← same, servedGone] at served
          cases served
          exact Or.inr ⟨alive, Or.inr rfl⟩
        · refine Or.inl ⟨node, ?_⟩
          rw [Std.ExtTreeMap.getElem?_erase,
            if_neg (fun equal => same (Std.compare_eq_iff_eq.mp equal))]
          exact served
      · exact Or.inr ⟨alive, Or.inl retired⟩
  | released => exact Or.inr rfl

theorem handled_of_new (unborn : hub.routines.size ≤ index)
    (born : index < (hub.perform action).routines.size) : (hub.perform action).Handled index := by
  have changed := hub.custody action
  generalize hub.perform action = after at changed born ⊢
  cases changed with
  | launched connection routine running unserved assigned routines_eq serving_eq =>
      rw [routines_eq, Array.size_push] at born
      have atEnd : index = hub.routines.size := by omega
      refine Or.inl ⟨connection.node, ?_⟩
      rw [serving_eq, atEnd]
      exact Std.ExtTreeMap.getElem?_insert_self
  | kept serving_eq retired_eq shutdown_eq size_eq =>
      rw [size_eq] at born
      exact absurd born (Nat.not_lt.mpr unborn)
  | retired node reason other served serving_eq retired_eq shutdown_eq size_eq =>
      rw [size_eq] at born
      exact absurd born (Nat.not_lt.mpr unborn)
  | released => exact absurd born (Nat.not_lt.mpr unborn)

/-- Whatever has not finished is handled by the hub or awaited by a stop. -/
theorem Fresh.held (fresh : start.Fresh) (alive : (start.run actions).isAlive index = true) :
    (start.run actions).Handled index ∨ Awaited start index actions := by
  induction actions using List.reverseRecOn with
  | nil =>
      obtain ⟨routine, found, _⟩ := isAlive_iff.mp alive
      change start.routines[index]? = some routine at found
      rw [fresh.routines_eq] at found
      cases found
  | append_singleton earlier last ih =>
      rw [Awaited, occurs_snoc]
      rw [run_snoc] at alive ⊢
      rcases alive_before alive with before | new
      · rcases ih before with handled | awaited
        · rcases handled.perform before last with still | stops
          · exact Or.inl still
          · exact Or.inr (Or.inr ⟨stops, handled⟩)
        · exact Or.inr (Or.inl awaited)
      · exact Or.inl (handled_of_new new.1 new.2)

end Hub

end VoteGossip
