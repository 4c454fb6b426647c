import VoteGossip.Proofs.Gossip.Timetable

/-!
Nobody is disturbed by a node. Two runs that differ only in what concerns one node (the heights it
reports, the size of its buffers, when they are drained or dropped, whether its connections quit)
are the same to everybody else: the frames that are queued on the other connections, the pool and
the registry.
-/

set_option autoImplicit false

namespace VoteGossip

namespace Hub

def waiting (hub : Hub) (index : Nat) : List Frame :=
  (hub.connections[index]?.map fun connection => connection.queue.toList).getD []

/-- The frames by which those that wait on a connection have become more. -/
def gained (before after : Hub) (index : Nat) : List Frame :=
  (after.waiting index).drop (before.waiting index).length

/-- The frames that a run queues on a connection, those included that were taken out or lost
since. -/
def queued (hub : Hub) (index : Nat) : List Action → List Frame
  | [] => []
  | action :: later =>
      hub.gained (hub.perform action) index ++ (hub.perform action).queued index later

variable {hub start : Hub} {node : NodeId} {index : Nat}

theorem waiting_eq {connection : Connection}
    (opened : hub.connections[index]? = some connection) :
    hub.waiting index = connection.queue.toList := by
  rw [waiting, opened]
  rfl

theorem waiting_perform (opened : index < hub.connections.size) (action : Action) :
    (hub.perform action).waiting index <:+
      hub.waiting index ++ hub.gained (hub.perform action) index := by
  obtain ⟨later, laterOpened, becomes⟩ :=
    becomes_perform (Array.getElem?_eq_getElem opened) action
  unfold gained
  rw [waiting_eq laterOpened, waiting_eq (Array.getElem?_eq_getElem opened)]
  generalize hub.connections[index] = connection at becomes
  have fewer : ∀ left : List Frame, left <:+ connection.queue.toList →
      left <:+ connection.queue.toList ++ left.drop connection.queue.toList.length := by
    intro left rest
    rw [List.drop_eq_nil_of_le rest.length_le, List.append_nil]
    exact rest
  cases becomes with
  | kept | disconnected | stopped => exact fewer _ (List.suffix_refl _)
  | queued frames => simp only [Array.toList_appendList, List.drop_left, List.suffix_refl]
  | taken count =>
      apply fewer
      change (connection.queue.extract count).toList <:+ _
      rw [Array.toList_extract, List.extract_eq_take_drop, List.take_of_length_le]
      · exact List.drop_suffix count _
      · rw [List.length_drop]
        exact Nat.le_refl _
  | lost => exact fewer _ (List.nil_suffix)

theorem waiting_run (opened : index < hub.connections.size) (actions : List Action) :
    (hub.run actions).waiting index <:+ hub.waiting index ++ hub.queued index actions := by
  induction actions generalizing hub with
  | nil =>
      rw [queued, List.append_nil]
      exact List.suffix_refl _
  | cons action later ih =>
      obtain ⟨_, laterOpened, _⟩ := becomes_perform (Array.getElem?_eq_getElem opened) action
      obtain ⟨gone, first⟩ := waiting_perform opened action
      refine (ih (Array.getElem?_eq_some_iff.mp laterOpened).1).trans ⟨gone, ?_⟩
      rw [queued, ← List.append_assoc, first, List.append_assoc]

end Hub

namespace Elsewhere

def waiting (rest : Elsewhere) (index : Nat) : List Frame :=
  (rest.connections[index]?.map fun connection => connection.queue.toList).getD []

def queued (node : NodeId) (index : Nat) : List Exposure → Elsewhere → List Frame
  | [], _ => []
  | exposure :: later, rest =>
      let next := rest.perform node exposure
      (next.waiting index).drop (rest.waiting index).length ++ queued node index later next

end Elsewhere

namespace Hub

variable {hub start : Hub} {node : NodeId} {index : Nat}

theorem connection_of_not_leads (leads : ¬ hub.LeadsTo index node) :
    (hub.elsewhere node).connections[index]? = hub.connections[index]? := by
  rw [connection_elsewhere]
  cases opened : hub.connections[index]? with
  | none => rfl
  | some connection =>
      exact congrArg some (Connection.masked_of_other fun same => leads ⟨connection, opened, same⟩)

theorem leadsTo_iff_elsewhere (other : NodeId) : hub.LeadsTo index other ↔
    ((hub.elsewhere node).connections[index]?.map Connection.node) = some other := by
  rw [connection_elsewhere, Option.map_map]
  have same : Connection.node ∘ Connection.masked node = Connection.node :=
    funext fun connection => connection.node_masked node
  rw [same, LeadsTo, Option.map_eq_some_iff]

theorem waiting_elsewhere (leads : ¬ hub.LeadsTo index node) :
    (hub.elsewhere node).waiting index = hub.waiting index := by
  rw [Elsewhere.waiting, connection_of_not_leads leads, waiting]

theorem queued_elsewhere (standing : hub.Standing) (actions : List Action)
    (leads : ¬ (hub.run actions).LeadsTo index node) :
    hub.queued index actions =
      (hub.elsewhere node).queued node index (hub.exposures node actions) := by
  induction actions generalizing hub with
  | nil => rfl
  | cons action later ih =>
      have after : ¬ (hub.perform action).LeadsTo index node := fun found => leads (found.run later)
      have before : ¬ hub.LeadsTo index node := fun found => after (found.perform action)
      have next : (hub.perform action).elsewhere node = _ := elsewhere_perform standing action
      have rest := ih (standing.perform action) leads
      rw [queued, gained, rest, ← waiting_elsewhere after, ← waiting_elsewhere before, exposures]
      cases exposed : hub.exposed? node action with
      | none =>
          rw [exposed] at next
          have same : (hub.perform action).elsewhere node = hub.elsewhere node := next
          rw [same, List.drop_length]
          rfl
      | some exposure =>
          rw [exposed] at next
          have same : (hub.perform action).elsewhere node =
            (hub.elsewhere node).perform node exposure := next
          rw [same]
          rfl

end Hub

/-! ### Commands

A command is carried out in one go: something happens and all routines run until they wait, or the
clock moves on by way of the alarms.
-/

namespace Hub

inductive Command where
  | act (actions : List Action)
  | advance (milliseconds : Nat)

/-- The clock is left to the commands that move it on. -/
def Command.isTimeless : Command → Bool
  | .act actions => actions.all fun action => action.clock?.isNone
  | .advance _ => true

def obey (hub : Hub) : Command → Hub
  | .act actions => (hub.run actions).settle.1
  | .advance milliseconds => (hub.advance milliseconds).1

def script (hub : Hub) : Command → List Action
  | .act actions => actions ++ (hub.run actions).settling
  | .advance milliseconds => advancing (hub.now + milliseconds) (milliseconds + 1) hub

def scripts (hub : Hub) : List Command → List Action
  | [] => []
  | command :: later => hub.script command ++ (hub.obey command).scripts later

inductive Notice where
  | operations (exposures : List Exposure)
  | advance (milliseconds : Nat)
  deriving DecidableEq

def Notice.after (now : Nat) : Notice → Nat
  | .operations _ => now
  | .advance milliseconds => now + milliseconds

/-- What is exposed of a command. A command that only concerns the node is not noticed at all. -/
def noticed? (hub : Hub) (node : NodeId) : Command → Option Notice
  | .act actions =>
      match hub.exposures node actions with
      | [] => none
      | exposures => some (.operations exposures)
  | .advance milliseconds => some (.advance milliseconds)

def notices (hub : Hub) (node : NodeId) : List Command → List Notice
  | [] => []
  | command :: later => (hub.noticed? node command).toList ++ (hub.obey command).notices node later

end Hub

namespace Elsewhere

def script (node : NodeId) (now : Nat) (rest : Elsewhere) : Hub.Notice → List Exposure
  | .operations exposures => exposures ++ (rest.run node exposures).settling node now
  | .advance milliseconds => advancing node (now + milliseconds) (milliseconds + 1) rest

def scripts (node : NodeId) : Nat → Elsewhere → List Hub.Notice → List Exposure
  | _, _, [] => []
  | now, rest, notice :: later =>
      let exposures := rest.script node now notice
      exposures ++ scripts node (notice.after now) (rest.run node exposures) later

end Elsewhere

namespace Hub

variable {hub start : Hub} {node : NodeId} {index : Nat} {command : Command}
  {commands : List Command}

theorem run_script (hub : Hub) (command : Command) :
    hub.run (hub.script command) = hub.obey command := by
  cases command with
  | act actions => rw [script, run_append, run_settling, obey]
  | advance milliseconds => exact hub.advance_run milliseconds

theorem run_scripts (hub : Hub) (commands : List Command) :
    hub.run (hub.scripts commands) = commands.foldl obey hub := by
  induction commands generalizing hub with
  | nil => rfl
  | cons command later ih =>
      rw [scripts, run_append, run_script, ih]
      rfl

theorem now_run {actions : List Action}
    (timeless : (actions.all fun action => action.clock?.isNone) = true) :
    (hub.run actions).now = hub.now := by
  induction actions generalizing hub with
  | nil => rfl
  | cons action later ih =>
      rw [List.all_cons, Bool.and_eq_true, Option.isNone_iff_eq_none] at timeless
      have first := (hub.perform_steady action).2
      rw [timeless.1] at first
      exact (ih timeless.2).trans first

theorem Fresh.idle (fresh : start.Fresh) (few : start.pool.log.written < UInt64.size) :
    start.Idle := by
  refine ⟨fresh.standing, fresh.restful few, ?_⟩
  intro index within
  rw [fresh.routines_eq] at within
  exact absurd within (Nat.not_lt_zero index)

theorem Idle.obey (idle : hub.Idle) (command : Command)
    (few : (hub.obey command).pool.log.written < UInt64.size) : (hub.obey command).Idle := by
  rw [← run_script] at few ⊢
  cases command with
  | advance milliseconds => exact (idle.advancing (Nat.le_add_right _ _) (Nat.lt_succ_self _)).1
  | act actions =>
      rw [script, run_append] at few ⊢
      have coherent := coherent_run idle.restful.coherent actions
      have fewBefore := Nat.lt_of_le_of_lt (written_le_run coherent _) few
      exact idle_run_settling (idle.standing.run actions) (idle.restful.run actions fewBefore)

theorem few_of_foldl (coherent : hub.pool.Coherent)
    (few : (commands.foldl Hub.obey hub).pool.log.written < UInt64.size) :
    hub.pool.log.written < UInt64.size := by
  rw [← run_scripts] at few
  exact Nat.lt_of_le_of_lt (written_le_run coherent _) few

theorem coherent_obey (coherent : hub.pool.Coherent) (command : Command) :
    (hub.obey command).pool.Coherent := by
  rw [← run_script]
  exact coherent_run coherent _

/-- The others notice of a command what is exposed of it, and do by it what they would do alone. -/
theorem Idle.exposures_script (idle : hub.Idle) (timeless : command.isTimeless = true)
    (node : NodeId) :
    hub.exposures node (hub.script command) =
      (hub.noticed? node command).elim [] ((hub.elsewhere node).script node hub.now) := by
  cases command with
  | advance milliseconds =>
      exact idle.exposures_advancing node (Nat.le_add_right _ _) (Nat.lt_succ_self _)
        (Nat.lt_succ_self _)
  | act actions =>
      have onward := elsewhere_run idle.standing node actions
      rw [script, exposures_append, exposures_settling (idle.standing.run actions), onward,
        now_run timeless, noticed?]
      cases exposed : hub.exposures node actions with
      | nil =>
          have nothing : (hub.elsewhere node).settling node hub.now = [] :=
            (idle.calm.elsewhere node).settling_eq
          exact nothing
      | cons first later => rfl

theorem Idle.now_obey (idle : hub.Idle) (timeless : command.isTimeless = true) (node : NodeId) :
    (hub.obey command).now = (hub.noticed? node command).elim hub.now (Notice.after hub.now) := by
  rw [← run_script]
  cases command with
  | advance milliseconds =>
      exact (idle.advancing (Nat.le_add_right _ _) (Nat.lt_succ_self _)).2
  | act actions =>
      have still : (hub.run (hub.script (.act actions))).now = hub.now := by
        rw [script, run_append]
        exact ((idle.standing.run actions).abides_activations _).now_eq.trans (now_run timeless)
      rw [still, noticed?]
      split <;> rfl

theorem Idle.exposures_scripts (idle : hub.Idle) (node : NodeId)
    (timeless : ∀ command ∈ commands, command.isTimeless = true)
    (few : (commands.foldl Hub.obey hub).pool.log.written < UInt64.size) :
    hub.exposures node (hub.scripts commands) =
      Elsewhere.scripts node hub.now (hub.elsewhere node) (hub.notices node commands) := by
  induction commands generalizing hub with
  | nil => rfl
  | cons command later ih =>
      have coherent := coherent_obey idle.restful.coherent command
      have here := timeless command List.mem_cons_self
      have first := idle.exposures_script here node
      have now := idle.now_obey here node
      have onward := elsewhere_run idle.standing node (hub.script command)
      rw [run_script] at onward
      have rest := ih (idle.obey command (few_of_foldl coherent few))
        (fun other member => timeless other (List.mem_cons_of_mem _ member)) few
      rw [scripts, exposures_append, run_script, rest, onward, now, first, notices]
      cases hub.noticed? node command with
      | none => rfl
      | some notice => rfl

/-- Two runs have come to the same for everybody but the node. -/
structure Undisturbed (start : Hub) (node : NodeId) (left right : List Action) : Prop where
  pool_eq : (start.run left).pool = (start.run right).pool
  registry_eq : (start.run left).registry = (start.run right).registry
  leads_iff : ∀ index other,
    (start.run left).LeadsTo index other ↔ (start.run right).LeadsTo index other
  connection_eq : ∀ index, ¬ (start.run left).LeadsTo index node →
    (start.run left).connections[index]? = (start.run right).connections[index]?
  queued_eq : ∀ index, ¬ (start.run left).LeadsTo index node →
    start.queued index left = start.queued index right

/-- However far one of the runs has come, the other one comes to the same at some point: when the
same has been exposed of it. -/
structure InStep (start : Hub) (node : NodeId) (left right : List Action) : Prop where
  ends : start.Undisturbed node left right
  steps : ∀ earlier, earlier <+: left → ∃ matching, matching <+: right ∧
    start.exposures node matching = start.exposures node earlier ∧
    start.Undisturbed node earlier matching

/-- Everything but what one routine owns is as it was. -/
structure Confined (before after : Hub) (index : Nat) : Prop where
  pool_eq : after.pool = before.pool
  registry_eq : after.registry = before.registry
  connection_eq : ∀ other, (∀ routine, before.routines[index]? = some routine →
    other ≠ routine.connection) → after.connections[other]? = before.connections[other]?

theorem Standing.undisturbed (standing : start.Standing) {left right : List Action}
    (exposed : start.exposures node left = start.exposures node right) :
    start.Undisturbed node left right := by
  have same : (start.run left).elsewhere node = (start.run right).elsewhere node := by
    rw [elsewhere_run standing, elsewhere_run standing, exposed]
  have leads : ∀ index other,
      (start.run left).LeadsTo index other ↔ (start.run right).LeadsTo index other := by
    intro index other
    rw [leadsTo_iff_elsewhere other, same, ← leadsTo_iff_elsewhere other]
  refine ⟨congrArg Elsewhere.pool same, congrArg Elsewhere.registry same, leads, ?_, ?_⟩
  · intro index away
    have awayToo := fun found => away ((leads index node).mpr found)
    rw [← connection_of_not_leads away, ← connection_of_not_leads awayToo, same]
  · intro index away
    have awayToo := fun found => away ((leads index node).mpr found)
    rw [queued_elsewhere standing left away, queued_elsewhere standing right awayToo, exposed]

theorem exists_prefix_of_exposures (hub : Hub) (node : NodeId) (actions : List Action)
    {exposures : List Exposure} (part : exposures <+: hub.exposures node actions) :
    ∃ earlier, earlier <+: actions ∧ hub.exposures node earlier = exposures := by
  induction actions generalizing hub exposures with
  | nil => exact ⟨[], List.nil_prefix, (List.prefix_nil.mp part).symm⟩
  | cons action later ih =>
      have onward : ∀ {rest}, rest <+: (hub.perform action).exposures node later →
          ∃ earlier, earlier <+: action :: later ∧
            hub.exposures node earlier = (hub.exposed? node action).toList ++ rest := by
        intro rest remains
        obtain ⟨earlier, starts, same⟩ := ih (hub.perform action) remains
        refine ⟨action :: earlier, List.cons_prefix_cons.mpr ⟨rfl, starts⟩, ?_⟩
        rw [Hub.exposures, same]
      rw [Hub.exposures] at part
      cases exposed : hub.exposed? node action with
      | none =>
          rw [exposed] at part onward
          exact onward part
      | some first =>
          rw [exposed] at part onward
          cases exposures with
          | nil => exact ⟨[], List.nil_prefix, rfl⟩
          | cons head rest =>
              obtain ⟨rfl, remains⟩ := List.cons_prefix_cons.mp part
              exact onward remains

theorem Standing.inStep (standing : start.Standing) {left right : List Action}
    (exposed : start.exposures node left = start.exposures node right) :
    start.InStep node left right := by
  refine ⟨standing.undisturbed exposed, ?_⟩
  intro earlier starts
  obtain ⟨later, rfl⟩ := starts
  have part : start.exposures node earlier <+: start.exposures node right := by
    rw [← exposed, exposures_append]
    exact List.prefix_append _ _
  obtain ⟨matching, begins, same⟩ := exists_prefix_of_exposures start node right part
  exact ⟨matching, begins, same, standing.undisturbed same.symm⟩

theorem confined_turn (hub : Hub) (index : Nat) (wake : Routine.Wake) :
    hub.Confined (hub.perform (.resume index wake)) index := by
  by_cases wakes : hub.wakesOn index wake = true
  · obtain ⟨routine, connection, turns⟩ := turns_of_wakesOn wakes
    refine ⟨pool_of_turn wakes, ?_, ?_⟩
    · rw [turns.perform_eq]
    · intro other different
      exact turns.connection_elsewhere (different routine turns.routine_at)
  · have performed : hub.perform (.resume index wake) = hub := if_neg wakes
    rw [performed]
    exact ⟨rfl, rfl, fun _ _ => rfl⟩

/-- Peers do not disturb each other. Two runs of which the same is exposed are in step, whatever
else becomes of the node, and so are those of two lists of commands of which the same is noticed,
whatever alarms and turns of the node there are in between. And no turn of a routine changes the
pool, the registry or a connection that is not its own. Positions are 64-bit numbers, so commands
are given to a log whose end is one. -/
theorem peers_undisturbed (fresh : start.Fresh) (node : NodeId) :
    (∀ left right : List Action, start.exposures node left = start.exposures node right →
      start.InStep node left right) ∧
    (∀ left right : List Command,
      (∀ command ∈ left, command.isTimeless = true) →
      (∀ command ∈ right, command.isTimeless = true) →
      (left.foldl Hub.obey start).pool.log.written < UInt64.size →
      (right.foldl Hub.obey start).pool.log.written < UInt64.size →
      start.notices node left = start.notices node right →
      start.run (start.scripts left) = left.foldl Hub.obey start ∧
        start.run (start.scripts right) = right.foldl Hub.obey start ∧
        start.InStep node (start.scripts left) (start.scripts right)) ∧
    ∀ actions index wake, (start.run actions).Confined
      (start.run (actions ++ [.resume index wake])) index := by
  have standing := fresh.standing
  refine ⟨fun left right exposed => standing.inStep exposed, ?_, ?_⟩
  · intro left right timelessLeft timelessRight fewLeft fewRight noticed
    have idle := fresh.idle (few_of_foldl fresh.coherent fewLeft)
    refine ⟨start.run_scripts left, start.run_scripts right, standing.inStep ?_⟩
    rw [idle.exposures_scripts node timelessLeft fewLeft,
      idle.exposures_scripts node timelessRight fewRight, noticed]
  · intro actions index wake
    rw [run_snoc]
    exact confined_turn _ index wake

/-- The first node reports no height in one run and in the other one it does, takes its frame and
quits. The second node is sent the same. -/
theorem undisturbed_by_quitting :
    ∃ pool start, Pool.new {} Validator.acceptAll = .ok pool ∧
      Hub.new {} pool (.empty 2) = .ok start ∧
      let first : NodeId := ⟨Vector.replicate 32 1⟩
      let second : NodeId := ⟨Vector.replicate 32 2⟩
      let left : List Command := [.act [.start, .openConnection first 64, .openConnection second 4],
        .act [.addPeer 0, .addPeer 1], .act [.submit ⟨[97]⟩ .unknown], .advance 150,
        .act [.report second 5], .advance 100, .act [.submit ⟨[98]⟩ .unknown]]
      let right : List Command := [.act [.start, .openConnection first 1, .openConnection second 4],
        .act [.report first 0], .act [.addPeer 0, .addPeer 1], .act [.submit ⟨[97]⟩ .unknown],
        .act [.drain 0 1], .advance 150, .act [.disconnect 0], .act [.report second 5],
        .advance 100, .act [.submit ⟨[98]⟩ .unknown]]
      start.notices first left = start.notices first right ∧
        (left.foldl Hub.obey start).pool.log.written < UInt64.size ∧
        (right.foldl Hub.obey start).pool.log.written < UInt64.size ∧
        (start.queued 0 (start.scripts left), start.queued 0 (start.scripts right)) =
          ([], [⟨txChannel, (Message.tx ⟨[97]⟩).encode⟩]) ∧
        start.queued 1 (start.scripts left) =
          [⟨txChannel, (Message.tx ⟨[97]⟩).encode⟩, ⟨txChannel, (Message.tx ⟨[98]⟩).encode⟩] ∧
        start.InStep first (start.scripts left) (start.scripts right) ∧
        start.exposures first (start.scripts right) = start.exposures first (start.scripts left) ∧
        start.InStep first (start.scripts right) (start.scripts left) := by
  refine ⟨_, _, rfl, rfl, ?noticed, ?fewLeft, ?fewRight, ?own, ?others,
    ((peers_undisturbed ⟨{}, Validator.acceptAll, _, [], {}, .empty 2, rfl, rfl⟩ _).2.1 _ _
      ?timelessLeft ?timelessRight ?fewLeft ?fewRight ?noticed).2.2, ?exposed,
    (peers_undisturbed ⟨{}, Validator.acceptAll, _, [], {}, .empty 2, rfl, rfl⟩ _).1 _ _ ?exposed⟩
  case exposed => decide +kernel
  case noticed => decide +kernel
  case fewLeft => decide +kernel
  case fewRight => decide +kernel
  case own => decide +kernel
  case others => decide +kernel
  case timelessLeft => decide +kernel
  case timelessRight => decide +kernel

end Hub

end VoteGossip
