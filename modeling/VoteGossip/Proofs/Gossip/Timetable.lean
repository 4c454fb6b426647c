import VoteGossip.Proofs.Gossip.Undisturbed

/-!
The schedule without one of the nodes. When all routines are let run, the routines for the other
nodes take the turns that they would take if there were no others; and while the clock moves on,
they are not woken at the times at which only routines for that one node are.
-/

set_option autoImplicit false

namespace VoteGossip

namespace Elsewhere

variable (rest : Elsewhere)

def wakesOn (now place : Nat) (wake : Routine.Wake) : Bool :=
  rest.routines[place]?.any fun routine =>
    rest.connections[routine.connection]?.any fun connection =>
      routine.wakesOn (rest.view now) connection wake

def nextWake? (now place : Nat) : Option Routine.Wake :=
  Hub.wakes.find? (rest.wakesOn now place)

def turnBound : Nat := rest.pool.log.retained + 3

def run (node : NodeId) (exposures : List Exposure) : Elsewhere :=
  exposures.foldl (perform node) rest

def activation (now place : Nat) : Nat → Elsewhere → List Exposure
  | 0, _ => []
  | turns + 1, rest =>
      match rest.nextWake? now place with
      | none => []
      | some wake => .turn place wake now :: activation now place turns (rest.turn place wake now)

def activations (node : NodeId) (now : Nat) : List Nat → Elsewhere → List Exposure
  | [], _ => []
  | place :: later, rest =>
      let turns := activation now place rest.turnBound rest
      turns ++ activations node now later (rest.run node turns)

def settling (node : NodeId) (now : Nat) : List Exposure :=
  activations node now (List.range rest.routines.length) rest

end Elsewhere

namespace Hub

variable {hub : Hub} {node : NodeId} {index place : Nat}

theorem servesOther_iff {routine : Routine} : hub.servesOther node routine = true ↔
    ∃ connection, hub.connections[routine.connection]? = some connection ∧
      connection.node ≠ node := by
  unfold servesOther
  cases hub.connections[routine.connection]? with
  | none =>
      constructor
      · intro impossible; cases impossible
      · intro impossible
        obtain ⟨connection, missing, _⟩ := impossible
        cases missing
  | some connection =>
      simp only [Option.any_some, bne_iff_ne, Option.some.injEq, exists_eq_left']

theorem routine_of_place? (placed : hub.place? node index = some place) :
    ∃ routine connection, hub.routines[index]? = some routine ∧
      hub.connections[routine.connection]? = some connection ∧ connection.node ≠ node ∧
      (hub.elsewhere node).routines[place]? = some routine ∧
      (hub.elsewhere node).connections[routine.connection]? = some connection := by
  unfold place? Selection.place? at placed
  rw [Array.getElem?_toList] at placed
  cases found : hub.routines[index]? with
  | none =>
      rw [found] at placed
      cases placed
  | some routine =>
      simp only [found, Option.ite_none_right_eq_some, Option.some.injEq] at placed
      obtain ⟨selected, rfl⟩ := placed
      have listed : hub.routines.toList[index]? = some routine := by
        rw [Array.getElem?_toList, found]
      obtain ⟨connection, opened, other⟩ := servesOther_iff.mp selected
      refine ⟨routine, connection, rfl, opened, other,
        Selection.getElem?_filter listed selected, ?_⟩
      rw [connection_elsewhere, opened, Option.map_some, Connection.masked_of_other other]

theorem wakesOn_elsewhere (placed : hub.place? node index = some place) :
    (hub.elsewhere node).wakesOn hub.now place = hub.wakesOn index := by
  obtain ⟨routine, connection, found, opened, _, foundElsewhere, openedElsewhere⟩ :=
    routine_of_place? placed
  funext wake
  simp only [Elsewhere.wakesOn, wakesOn, found, opened, foundElsewhere, openedElsewhere,
    Option.any_some]
  rfl

theorem nextWake?_elsewhere (placed : hub.place? node index = some place) :
    (hub.elsewhere node).nextWake? hub.now place = hub.nextWake? index := by
  rw [Elsewhere.nextWake?, wakesOn_elsewhere placed, nextWake?]

/-- What a turn of a routine leaves as it is. -/
structure Abides (before after : Hub) : Prop where
  now_eq : after.now = before.now
  place?_eq : ∀ node, after.place? node = before.place? node
  standing : after.Standing

theorem Abides.trans {earlier between later : Hub} (first : earlier.Abides between)
    (rest : between.Abides later) : earlier.Abides later where
  now_eq := rest.now_eq.trans first.now_eq
  place?_eq := fun node => (rest.place?_eq node).trans (first.place?_eq node)
  standing := rest.standing

theorem Standing.abides_turn {wake : Routine.Wake} (standing : hub.Standing)
    (wakes : hub.wakesOn index wake = true) :
    hub.Abides (hub.perform (.resume index wake)) := by
  obtain ⟨routine, connection, turns⟩ := turns_of_wakesOn wakes
  refine ⟨?_, fun node => place?_turn node standing.connected turns, standing.perform _⟩
  rw [turns.perform_eq]

theorem Standing.abides_activation (standing : hub.Standing) (index turns : Nat) :
    hub.Abides (hub.run (activation index turns hub)) := by
  induction turns generalizing hub with
  | zero => exact ⟨rfl, fun _ => rfl, standing⟩
  | succ turns ih =>
      unfold activation
      cases next : hub.nextWake? index with
      | none => exact ⟨rfl, fun _ => rfl, standing⟩
      | some wake =>
          have first := standing.abides_turn (List.find?_some next)
          exact first.trans (ih first.standing)

theorem Standing.abides_activations (standing : hub.Standing) (indices : List Nat) :
    hub.Abides (hub.run (activations indices hub)) := by
  induction indices generalizing hub with
  | nil => exact ⟨rfl, fun _ => rfl, standing⟩
  | cons index later ih =>
      have first := standing.abides_activation index hub.turnBound
      unfold activations
      rw [run_append]
      exact first.trans (ih first.standing)

theorem exposures_activation_of_none (standing : hub.Standing)
    (unplaced : hub.place? node index = none) (turns : Nat) :
    hub.exposures node (activation index turns hub) = [] := by
  induction turns generalizing hub with
  | zero => rfl
  | succ turns ih =>
      unfold activation
      cases next : hub.nextWake? index with
      | none => rfl
      | some wake =>
          have wakes : hub.wakesOn index wake = true := List.find?_some next
          have first := standing.abides_turn wakes
          have exposed : hub.exposed? node (.resume index wake) = none := by
            change (if hub.wakesOn index wake then (hub.place? node index).map _ else none) = none
            rw [unplaced]
            exact ite_self none
          dsimp only [exposures]
          rw [exposed, ih first.standing (by rw [first.place?_eq, unplaced])]
          rfl

theorem exposures_activation_of_some (standing : hub.Standing)
    (placed : hub.place? node index = some place) (turns : Nat) :
    hub.exposures node (activation index turns hub) =
      Elsewhere.activation hub.now place turns (hub.elsewhere node) := by
  induction turns generalizing hub with
  | zero => rfl
  | succ turns ih =>
      unfold activation Elsewhere.activation
      rw [nextWake?_elsewhere placed]
      cases next : hub.nextWake? index with
      | none => rfl
      | some wake =>
          have wakes : hub.wakesOn index wake = true := List.find?_some next
          have first := standing.abides_turn wakes
          have exposed : hub.exposed? node (.resume index wake) =
              some (.turn place wake hub.now) := by
            change (if hub.wakesOn index wake then (hub.place? node index).map _ else none) = _
            rw [if_pos wakes, placed]
            rfl
          have turned : (hub.perform (.resume index wake)).elsewhere node =
              (hub.elsewhere node).turn place wake hub.now := by
            rw [elsewhere_perform standing, exposed]
            rfl
          dsimp only [exposures]
          rw [exposed, ih first.standing (by rw [first.place?_eq, placed]), first.now_eq, turned]
          rfl

theorem exposures_activations (standing : hub.Standing) (node : NodeId) (indices : List Nat) :
    hub.exposures node (activations indices hub) =
      Elsewhere.activations node hub.now (indices.filterMap (hub.place? node))
        (hub.elsewhere node) := by
  induction indices generalizing hub with
  | nil => rfl
  | cons index later ih =>
      let turns := activation index hub.turnBound hub
      have first : hub.Abides (hub.run turns) :=
        standing.abides_activation index hub.turnBound
      have onward : (hub.run turns).elsewhere node =
          (hub.elsewhere node).run node (hub.exposures node turns) :=
        elsewhere_run standing node turns
      change hub.exposures node (turns ++ activations later (hub.run turns)) = _
      rw [exposures_append, ih first.standing, first.now_eq, first.place?_eq, onward]
      cases placed : hub.place? node index with
      | none =>
          have nothing : hub.exposures node turns = [] :=
            exposures_activation_of_none standing placed hub.turnBound
          rw [nothing, List.filterMap_cons_none placed]
          rfl
      | some place =>
          have same : hub.exposures node turns =
              Elsewhere.activation hub.now place hub.turnBound (hub.elsewhere node) :=
            exposures_activation_of_some standing placed hub.turnBound
          rw [same, List.filterMap_cons_some placed]
          rfl

theorem exposures_settling (standing : hub.Standing) (node : NodeId) :
    hub.exposures node hub.settling = (hub.elsewhere node).settling node hub.now := by
  have places : (List.range hub.routines.size).filterMap (hub.place? node) =
      List.range (hub.elsewhere node).routines.length :=
    Selection.filterMap_place? (hub.servesOther node) hub.routines.toList
  rw [settling, exposures_activations standing, places, Elsewhere.settling]

end Hub

namespace Routine

def Phase.alarm? : Phase → Option Nat
  | .pausing _ wakeAt => some wakeAt
  | _ => none

/-- What sleeps goes on sleeping until its alarm. -/
theorem asleep_later {routine : Routine} {connection : Connection} {later : Nat} (view : View)
    (asleep : ∀ wake, routine.wakesOn view connection wake = false)
    (early : ∀ alarm, routine.phase.alarm? = some alarm → later < alarm) (wake : Wake) :
    routine.wakesOn { view with now := later } connection wake = false := by
  have still := asleep wake
  unfold wakesOn at still ⊢
  cases phase : routine.phase <;> cases wake <;> rw [phase] at still
  case pausing.timer position wakeAt =>
    have alarm := early wakeAt (by rw [phase]; rfl)
    exact decide_eq_false (Nat.not_le.mpr alarm)
  all_goals exact still

end Routine

namespace Elsewhere

variable {rest : Elsewhere} {node : NodeId} {now soon : Nat}

def alarms (rest : Elsewhere) : List Nat :=
  rest.routines.filterMap fun routine => routine.phase.alarm?

def nextAlarm? (rest : Elsewhere) : Option Nat := rest.alarms.min?

def advancing (node : NodeId) (target : Nat) : Nat → Elsewhere → List Exposure
  | 0, _ => []
  | alarms + 1, rest =>
      match rest.nextAlarm? with
      | none => []
      | some alarm =>
          if target < alarm then []
          else
            let woken := rest.settling node alarm
            woken ++ advancing node target alarms (rest.run node woken)

def Calm (rest : Elsewhere) (now : Nat) : Prop :=
  ∀ place wake, rest.wakesOn now place wake = false

theorem Calm.later (calm : rest.Calm now) (early : ∀ alarm ∈ rest.alarms, soon < alarm) :
    rest.Calm soon := by
  intro place wake
  unfold wakesOn
  cases found : rest.routines[place]? with
  | none => rfl
  | some routine =>
      rw [Option.any_some]
      cases opened : rest.connections[routine.connection]? with
      | none => rfl
      | some connection =>
          rw [Option.any_some]
          apply Routine.asleep_later (rest.view now)
          · intro wake
            have still := calm place wake
            simp only [wakesOn, found, opened, Option.any_some] at still
            exact still
          · intro alarm wants
            exact early alarm
              (List.mem_filterMap.mpr ⟨routine, List.mem_of_getElem? found, wants⟩)

theorem Calm.activations_eq (calm : rest.Calm now) (places : List Nat) :
    activations node now places rest = [] := by
  induction places with
  | nil => rfl
  | cons place later ih =>
      have waits : rest.nextWake? now place = none :=
        List.find?_eq_none.mpr fun wake _ => Bool.eq_false_iff.mp (calm place wake)
      have nothing : activation now place rest.turnBound rest = [] := by
        change (match rest.nextWake? now place with
          | none => []
          | some wake => _) = _
        rw [waits]
      unfold activations
      rw [nothing]
      exact ih

theorem Calm.settling_eq (calm : rest.Calm now) : rest.settling node now = [] :=
  calm.activations_eq _

end Elsewhere

namespace Hub

variable {hub : Hub} {node : NodeId} {now : Nat}

def alarms (hub : Hub) : List Nat :=
  hub.routines.toList.filterMap fun routine => routine.phase.alarm?

theorem nextAlarm?_eq (hub : Hub) : hub.nextAlarm? = hub.alarms.min? := rfl

theorem mem_alarms_iff {alarm : Nat} : alarm ∈ hub.alarms ↔
    ∃ (index : Nat) (routine : Routine),
      hub.routines[index]? = some routine ∧ routine.phase.alarm? = some alarm := by
  unfold alarms
  rw [List.mem_filterMap]
  constructor
  · intro listed
    obtain ⟨routine, member, wants⟩ := listed
    obtain ⟨index, found⟩ := List.mem_iff_getElem?.mp member
    rw [Array.getElem?_toList] at found
    exact ⟨index, routine, found, wants⟩
  · intro found
    obtain ⟨index, routine, found, wants⟩ := found
    rw [← Array.getElem?_toList] at found
    exact ⟨routine, List.mem_of_getElem? found, wants⟩

theorem mem_alarms_of_elsewhere {alarm : Nat} (member : alarm ∈ (hub.elsewhere node).alarms) :
    alarm ∈ hub.alarms := by
  obtain ⟨routine, listed, wants⟩ := List.mem_filterMap.mp member
  exact List.mem_filterMap.mpr ⟨routine, (List.mem_filter.mp listed).1, wants⟩

theorem Calm.asleep (calm : hub.Calm) {index : Nat} {routine : Routine} {connection : Connection}
    (found : hub.routines[index]? = some routine)
    (opened : hub.connections[routine.connection]? = some connection) (wake : Routine.Wake) :
    routine.wakesOn hub.view connection wake = false := by
  have silent := wakesOn_of_nextWake?_none (calm.nextWake?_eq index) wake
  simpa only [wakesOn, found, opened] using silent

theorem Calm.lt_alarm (calm : hub.Calm) (connected : hub.Connected) {alarm : Nat}
    (member : alarm ∈ hub.alarms) : hub.now < alarm := by
  obtain ⟨index, routine, found, wants⟩ := mem_alarms_iff.mp member
  have opened := Array.getElem?_eq_getElem (connected index routine found)
  have asleep := calm.asleep found opened .timer
  cases phase : routine.phase with
  | pausing position wakeAt =>
      rw [phase] at wants
      cases wants
      simp only [Routine.wakesOn, phase] at asleep
      exact Nat.lt_of_not_le (of_decide_eq_false asleep)
  | launching | awaitingEntries | awaitingSuccessor | finished =>
      rw [phase] at wants
      cases wants

theorem Calm.elsewhere (calm : hub.Calm) (node : NodeId) :
    (hub.elsewhere node).Calm hub.now := by
  intro place wake
  unfold Elsewhere.wakesOn
  cases found : (hub.elsewhere node).routines[place]? with
  | none => rfl
  | some routine =>
      obtain ⟨listed, selected⟩ := List.mem_filter.mp (List.mem_of_getElem? found)
      obtain ⟨index, foundAt⟩ := List.mem_iff_getElem?.mp listed
      rw [Array.getElem?_toList] at foundAt
      obtain ⟨connection, opened, other⟩ := servesOther_iff.mp selected
      rw [Option.any_some, connection_elsewhere, opened, Option.map_some,
        Connection.masked_of_other other, Option.any_some]
      exact calm.asleep foundAt opened wake

theorem Calm.clock (calm : hub.Calm) (early : ∀ alarm ∈ hub.alarms, now < alarm) :
    (hub.perform (.clock now)).Calm := by
  intro index _within
  apply List.find?_eq_none.mpr
  intro wake _member
  rw [Bool.not_eq_true]
  change ({ hub with now } : Hub).wakesOn index wake = false
  unfold wakesOn
  cases found : hub.routines[index]? with
  | none => rfl
  | some routine =>
      dsimp only
      cases opened : hub.connections[routine.connection]? with
      | none => rfl
      | some connection =>
          apply Routine.asleep_later hub.view (calm.asleep found opened)
          intro alarm wants
          exact early alarm (mem_alarms_iff.mpr ⟨index, routine, found, wants⟩)

theorem Restful.clock (restful : hub.Restful) (now : Nat) :
    (hub.perform (.clock now)).Restful :=
  ⟨restful.coherent, restful.placed, restful.few, restful.pauses⟩

structure Idle (hub : Hub) : Prop where
  standing : hub.Standing
  restful : hub.Restful
  calm : hub.Calm

theorem idle_run_settling (standing : hub.Standing) (restful : hub.Restful) :
    (hub.run hub.settling).Idle := by
  refine ⟨(standing.abides_activations _).standing, ?_, ?_⟩
  · rw [run_settling]
    exact restful.settle
  · rw [run_settling]
    exact restful.settle_calm

theorem Idle.clock (idle : hub.Idle) (early : ∀ alarm ∈ hub.alarms, now < alarm) :
    (hub.perform (.clock now)).Idle :=
  ⟨idle.standing.perform _, idle.restful.clock now, idle.calm.clock early⟩

theorem lt_alarms_of_nextAlarm?_none (next : hub.nextAlarm? = none) :
    ∀ alarm ∈ hub.alarms, now < alarm := by
  rw [nextAlarm?_eq, List.min?_eq_none_iff] at next
  rw [next]
  intro alarm member
  cases member

/-- The clock stops at the next alarm, and everybody runs until they wait again. -/
theorem Idle.wake (idle : hub.Idle) (alarm : Nat) :
    let woken := Action.clock alarm :: (hub.perform (.clock alarm)).settling
    (hub.run woken).Idle ∧ (hub.run woken).now = alarm ∧
      ∀ node, hub.exposures node woken = (hub.elsewhere node).settling node alarm := by
  have standing := idle.standing.perform (.clock alarm)
  refine ⟨idle_run_settling standing (idle.restful.clock alarm),
    (standing.abides_activations _).now_eq, ?_⟩
  intro node
  change (hub.perform (.clock alarm)).exposures node (hub.perform (.clock alarm)).settling = _
  rw [exposures_settling standing]
  rfl

theorem Idle.advancing (idle : hub.Idle) {target fuel : Nat} (ahead : hub.now ≤ target)
    (enough : target < hub.now + fuel) :
    (hub.run (advancing target fuel hub)).Idle ∧
      (hub.run (advancing target fuel hub)).now = target := by
  induction fuel generalizing hub with
  | zero => omega
  | succ fuel ih =>
      unfold Hub.advancing
      cases next : hub.nextAlarm? with
      | none => exact ⟨idle.clock (lt_alarms_of_nextAlarm?_none next), rfl⟩
      | some alarm =>
          obtain ⟨member, first⟩ := List.min?_eq_some_iff.mp ((nextAlarm?_eq hub).symm.trans next)
          dsimp only
          by_cases far : target < alarm
          · rw [if_pos far]
            exact ⟨idle.clock fun other listed => Nat.lt_of_lt_of_le far (first other listed), rfl⟩
          · have later := idle.calm.lt_alarm idle.standing.connected member
            obtain ⟨idleThen, nowThen, _⟩ := idle.wake alarm
            rw [if_neg far, run_append]
            exact ih idleThen (by omega) (by omega)

/-- The others cannot tell how many alarms of the node there were on the way. -/
theorem Idle.exposures_advancing (idle : hub.Idle) (node : NodeId) {target fuel others : Nat}
    (ahead : hub.now ≤ target) (enough : target < hub.now + fuel)
    (enoughElsewhere : target < hub.now + others) :
    hub.exposures node (Hub.advancing target fuel hub) =
      Elsewhere.advancing node target others (hub.elsewhere node) := by
  induction fuel generalizing hub others with
  | zero => omega
  | succ fuel ih =>
      -- The others are given one alarm less only where one of them is woken.
      obtain ⟨fewer, rfl⟩ : ∃ fewer, others = fewer + 1 := ⟨others - 1, by omega⟩
      have quiet : (∀ alarm ∈ hub.alarms, target < alarm) →
          Elsewhere.advancing node target (fewer + 1) (hub.elsewhere node) = [] := by
        intro early
        unfold Elsewhere.advancing
        cases nextElsewhere : (hub.elsewhere node).nextAlarm? with
        | none => rfl
        | some alarm =>
            have member := (List.min?_eq_some_iff.mp nextElsewhere).1
            exact if_pos (early alarm (mem_alarms_of_elsewhere member))
      unfold Hub.advancing
      cases next : hub.nextAlarm? with
      | none => exact (quiet (lt_alarms_of_nextAlarm?_none next)).symm
      | some alarm =>
          obtain ⟨member, first⟩ := List.min?_eq_some_iff.mp ((nextAlarm?_eq hub).symm.trans next)
          dsimp only
          by_cases far : target < alarm
          · rw [if_pos far]
            exact (quiet fun other listed => Nat.lt_of_lt_of_le far (first other listed)).symm
          · have later := idle.calm.lt_alarm idle.standing.connected member
            obtain ⟨idleThen, nowThen, exposed⟩ := idle.wake alarm
            have onward := elsewhere_run idle.standing node
              (Action.clock alarm :: (hub.perform (.clock alarm)).settling)
            rw [exposed node] at onward
            rw [if_neg far, exposures_append, exposed node]
            by_cases shared : alarm ∈ (hub.elsewhere node).alarms
            · have nextElsewhere : (hub.elsewhere node).nextAlarm? = some alarm :=
                List.min?_eq_some_iff.mpr
                  ⟨shared, fun other listed => first other (mem_alarms_of_elsewhere listed)⟩
              have enoughFewer : target < alarm + fewer := by omega
              rw [ih idleThen (by omega) (by omega) (nowThen.symm ▸ enoughFewer), onward]
              conv_rhs => rw [Elsewhere.advancing, nextElsewhere]
              exact (if_neg far).symm
            · have early : ∀ other ∈ (hub.elsewhere node).alarms, alarm < other := by
                intro other listed
                have notBefore := first other (mem_alarms_of_elsewhere listed)
                have different : alarm ≠ other := fun same => shared (same ▸ listed)
                omega
              have nothing : (hub.elsewhere node).settling node alarm = [] :=
                ((idle.calm.elsewhere node).later early).settling_eq
              rw [nothing] at onward ⊢
              have enoughStill : target < alarm + (fewer + 1) := by omega
              rw [ih idleThen (by omega) (by omega) (nowThen.symm ▸ enoughStill), onward]
              rfl

end Hub

end VoteGossip
