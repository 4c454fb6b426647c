import Mathlib.Data.Nat.Find
import VoteGossip.Proofs.Registry.Partition

/-!
What a registry is to those who use it: a finite map from nodes to numbers, and a capacity. A node
that is new to the map gets the smallest positive number that no node has, and is refused exactly
when as many nodes as the capacity allows have one. Nothing of the cursor or of the numbers that
wait shows in an answer, however long nodes come and go.
-/

set_option autoImplicit false

namespace VoteGossip.Registry

inductive Operation where
  | reserve (node : NodeId)
  | reclaim (node : NodeId)
  | lookup (node : NodeId)
  | isActive (peer : PeerId)
  | size
  | isEmpty
  | capacity

def Operation.subject? : Operation → Option NodeId
  | .reserve node | .reclaim node => some node
  | _ => none

inductive Answer where
  | reserved (answer : Except Refusal PeerId)
  | reclaimed (peer : Option PeerId)
  | number (peer : PeerId)
  | truth (truth : Bool)
  | count (count : Nat)

/-- Registering as it is seen from outside: a refusal leaves the registry as it was. -/
def tryReserve (registry : Registry) (node : NodeId) : Registry × Except Refusal PeerId :=
  match registry.reserve node with
  | .ok (peer, registry) => (registry, .ok peer)
  | .error refusal => (registry, .error refusal)

def perform (registry : Registry) : Operation → Registry × Answer
  | .reserve node => ((registry.tryReserve node).1, .reserved (registry.tryReserve node).2)
  | .reclaim node => ((registry.reclaim node).2, .reclaimed (registry.reclaim node).1)
  | .lookup node => (registry, .number (registry.lookup node))
  | .isActive peer => (registry, .truth (registry.isActive peer))
  | .size => (registry, .count registry.size)
  | .isEmpty => (registry, .truth registry.isEmpty)
  | .capacity => (registry, .count registry.capacity)

def run (registry : Registry) (operations : List Operation) : Registry :=
  operations.foldl (fun registry operation => (registry.perform operation).1) registry

structure Roster where
  capacity : Nat
  numbers : Std.ExtTreeMap NodeId PeerId

namespace Roster

def empty (capacity : Nat) : Roster :=
  { capacity := min capacity maxCapacity
    numbers := ∅ }

def has (roster : Roster) (peer : PeerId) : Bool :=
  roster.numbers.toList.any fun entry => entry.2 == peer

def isFree (roster : Roster) (number : Nat) : Bool :=
  number != 0 && roster.numbers.toList.all fun entry => entry.2.number.toNat != number

theorem exists_free (roster : Roster) : ∃ number, roster.isFree number = true := by
  refine ⟨UInt16.size, ?_⟩
  rw [isFree, Bool.and_eq_true, List.all_eq_true]
  refine ⟨rfl, ?_⟩
  intro entry _member
  exact bne_iff_ne.mpr (Nat.ne_of_lt entry.2.number.toNat_lt)

def smallestFree (roster : Roster) : Nat := Nat.find roster.exists_free

def reserve (roster : Roster) (node : NodeId) : Roster × Except Refusal PeerId :=
  match roster.numbers[node]? with
  | some peer => (roster, .ok peer)
  | none =>
      if roster.numbers.size = roster.capacity then (roster, .error (.full roster.capacity))
      else
        let peer : PeerId := ⟨roster.smallestFree.toUInt16⟩
        ({ roster with numbers := roster.numbers.insert node peer }, .ok peer)

def perform (roster : Roster) : Operation → Roster × Answer
  | .reserve node => ((roster.reserve node).1, .reserved (roster.reserve node).2)
  | .reclaim node =>
      ({ roster with numbers := roster.numbers.erase node }, .reclaimed roster.numbers[node]?)
  | .lookup node => (roster, .number (roster.numbers[node]?.getD .unknown))
  | .isActive peer => (roster, .truth (peer.isUnknown || roster.has peer))
  | .size => (roster, .count roster.numbers.size)
  | .isEmpty => (roster, .truth (roster.numbers.size == 0))
  | .capacity => (roster, .count roster.capacity)

def run (roster : Roster) (operations : List Operation) : Roster :=
  operations.foldl (fun roster operation => (roster.perform operation).1) roster

theorem has_iff {roster : Roster} {peer : PeerId} :
    roster.has peer = true ↔ ∃ node : NodeId, roster.numbers[node]? = some peer := by
  rw [has, List.any_eq_true]
  constructor
  · rintro ⟨⟨node, other⟩, member, same⟩
    rw [beq_iff_eq] at same
    subst same
    exact ⟨node, Std.ExtTreeMap.mem_toList_iff_getElem?_eq_some.mp member⟩
  · rintro ⟨node, found⟩
    exact ⟨(node, peer), Std.ExtTreeMap.mem_toList_iff_getElem?_eq_some.mpr found,
      beq_iff_eq.mpr rfl⟩

theorem isFree_iff {roster : Roster} {peer : PeerId} :
    roster.isFree peer.number.toNat = true ↔
      0 < peer.number.toNat ∧ ∀ node : NodeId, roster.numbers[node]? ≠ some peer := by
  rw [isFree, Bool.and_eq_true, List.all_eq_true, bne_iff_ne, Nat.pos_iff_ne_zero]
  refine and_congr_right fun _positive => ?_
  constructor
  · intro others node found
    have member := Std.ExtTreeMap.mem_toList_iff_getElem?_eq_some.mpr found
    exact bne_iff_ne.mp (others (node, peer) member) rfl
  · rintro unassigned ⟨node, other⟩ member
    apply bne_iff_ne.mpr
    intro same
    have found := Std.ExtTreeMap.mem_toList_iff_getElem?_eq_some.mp member
    have equal : other = peer := PeerId.eq_of_toNat same
    rw [equal] at found
    exact unassigned node found

theorem capacity_reserve (roster : Roster) (node : NodeId) :
    (roster.reserve node).1.capacity = roster.capacity := by
  unfold reserve
  split
  · rfl
  · split <;> rfl

theorem capacity_run (roster : Roster) (operations : List Operation) :
    (roster.run operations).capacity = roster.capacity := by
  induction operations generalizing roster with
  | nil => rfl
  | cons operation later ih =>
      refine (ih (roster.perform operation).1).trans ?_
      cases operation with
      | reserve node => exact roster.capacity_reserve node
      | reclaim | lookup | isActive | size | isEmpty | capacity => rfl

end Roster

/-- What a registry shows. -/
def roster (registry : Registry) : Roster :=
  { capacity := registry.capacity
    numbers := registry.assigned }

variable {registry : Registry} {peer : PeerId}

theorem SmallestFree.smallestFree_eq (smallest : registry.SmallestFree peer) :
    registry.roster.smallestFree = peer.number.toNat := by
  refine (Nat.find_eq_iff _).mpr ⟨Roster.isFree_iff.mpr ⟨smallest.positive, smallest.free⟩, ?_⟩
  intro number before free
  have within : number < UInt16.size := Nat.lt_trans before peer.number.toNat_lt
  have exact : (⟨number.toUInt16⟩ : PeerId).number.toNat = number :=
    UInt16.toNat_ofNat_of_lt' within
  rw [← exact] at free before
  obtain ⟨positive, unassigned⟩ := Roster.isFree_iff.mp free
  exact Nat.not_lt.mpr (smallest.least _ positive unassigned) before

theorem Sound.roster_reserve (sound : registry.Sound) (node : NodeId) :
    (registry.tryReserve node).1.Sound ∧
      (registry.tryReserve node).1.roster = (registry.roster.reserve node).1 ∧
      (registry.tryReserve node).2 = (registry.roster.reserve node).2 := by
  have reserved := sound.reserve_cases node
  unfold tryReserve Roster.reserve
  have numbers : registry.roster.numbers[node]? = registry.assigned[node]? := rfl
  generalize registry.reserve node = result at reserved
  rw [numbers]
  cases reserved with
  | known peer found =>
      rw [found]
      exact ⟨sound, rfl, rfl⟩
  | full absent all =>
      have everybody : registry.roster.numbers.size = registry.roster.capacity := all
      rw [absent]
      dsimp only
      rw [if_pos everybody]
      exact ⟨sound, rfl, rfl⟩
  | given peer next absent room smallest nextSound assigned_eq capacity_eq =>
      have notFull : registry.roster.numbers.size ≠ registry.roster.capacity := Nat.ne_of_lt room
      have number : (⟨registry.roster.smallestFree.toUInt16⟩ : PeerId) = peer := by
        rw [smallest.smallestFree_eq]
        exact congrArg PeerId.mk UInt16.ofNat_toNat
      rw [absent]
      dsimp only
      rw [if_neg notFull, number]
      refine ⟨nextSound, ?_, rfl⟩
      unfold roster
      rw [assigned_eq, capacity_eq]

theorem roster_reclaim (registry : Registry) (node : NodeId) :
    (registry.reclaim node).2.roster = (registry.roster.perform (.reclaim node)).1 ∧
      (registry.reclaim node).1 = registry.assigned[node]? := by
  unfold reclaim
  cases found : registry.assigned[node]? with
  | some peer => exact ⟨rfl, rfl⟩
  | none =>
      have same : registry.assigned.erase node = registry.assigned := by
        apply Std.ExtTreeMap.ext_getElem?
        intro other
        rw [TreeMap.getElem?_erase_eq]
        split
        · rename_i equal
          rw [equal, found]
        · rfl
      refine ⟨?_, rfl⟩
      change registry.roster = { registry.roster with numbers := registry.assigned.erase node }
      rw [same]
      rfl

theorem Sound.roster_perform (sound : registry.Sound) (operation : Operation) :
    (registry.perform operation).1.Sound ∧
      (registry.perform operation).1.roster = (registry.roster.perform operation).1 ∧
      (registry.perform operation).2 = (registry.roster.perform operation).2 := by
  cases operation with
  | reserve node =>
      obtain ⟨next, same, answered⟩ := sound.roster_reserve node
      exact ⟨next, same, congrArg Answer.reserved answered⟩
  | reclaim node =>
      obtain ⟨same, answered⟩ := registry.roster_reclaim node
      exact ⟨sound.reclaim node, same, congrArg Answer.reclaimed answered⟩
  | lookup node =>
      refine ⟨sound, rfl, congrArg Answer.number ?_⟩
      exact Std.ExtTreeMap.getD_eq_getD_getElem?
  | isActive peer =>
      refine ⟨sound, rfl, congrArg Answer.truth ?_⟩
      rw [Bool.eq_iff_iff, sound.isActive_iff, Bool.or_eq_true, Roster.has_iff]
      rfl
  | size | isEmpty | capacity => exact ⟨sound, rfl, rfl⟩

theorem Sound.roster_run (sound : registry.Sound) (operations : List Operation) :
    (registry.run operations).Sound ∧
      (registry.run operations).roster = registry.roster.run operations := by
  induction operations generalizing registry with
  | nil => exact ⟨sound, rfl⟩
  | cons operation later ih =>
      obtain ⟨next, same, _⟩ := sound.roster_perform operation
      obtain ⟨last, agree⟩ := ih next
      refine ⟨last, agree.trans ?_⟩
      rw [same]
      rfl

theorem Sound.assigned_perform (sound : registry.Sound) (operation : Operation) (node : NodeId)
    (other : operation.subject? ≠ some node) :
    (registry.perform operation).1.assigned[node]? = registry.assigned[node]? := by
  cases operation with
  | reserve subject =>
      have different : node ≠ subject := fun same => other (congrArg some same.symm)
      have reserved := sound.reserve_cases subject
      change (registry.tryReserve subject).1.assigned[node]? = _
      unfold tryReserve
      generalize registry.reserve subject = result at reserved
      cases reserved with
      | known | full => rfl
      | given peer next absent room smallest nextSound assigned_eq capacity_eq =>
          change next.assigned[node]? = _
          rw [assigned_eq, TreeMap.getElem?_insert_eq, if_neg different]
  | reclaim subject =>
      have different : node ≠ subject := fun same => other (congrArg some same.symm)
      have same := (registry.roster_reclaim subject).1
      change (registry.reclaim subject).2.roster.numbers[node]? = _
      rw [same]
      change (registry.assigned.erase subject)[node]? = _
      rw [TreeMap.getElem?_erase_eq, if_neg different]
  | lookup | isActive | size | isEmpty | capacity => rfl

/-- A registry that may have been in use for some time. -/
def Reached (registry : Registry) : Prop :=
  ∃ capacity history, registry = (empty capacity).run history

theorem Reached.sound (reached : registry.Reached) : registry.Sound := by
  obtain ⟨capacity, history, rfl⟩ := reached
  exact ((sound_empty capacity).roster_run history).1

theorem reached_empty (capacity : Nat) : (empty capacity).Reached := ⟨capacity, [], rfl⟩

theorem lookup_of_assigned {node : NodeId} (found : registry.assigned[node]? = some peer) :
    registry.lookup node = peer := by
  unfold lookup
  rw [Std.ExtTreeMap.getD_eq_getD_getElem?, found, Option.getD_some]

theorem assigned_of_lookup {node : NodeId} (number : registry.lookup node = peer)
    (known : peer.isUnknown = false) : registry.assigned[node]? = some peer := by
  unfold lookup at number
  rw [Std.ExtTreeMap.getD_eq_getD_getElem?] at number
  cases found : registry.assigned[node]? with
  | none =>
      rw [found] at number
      subst number
      cases known
  | some other =>
      rw [found] at number
      exact congrArg some number

theorem assigned_of_reserve {next : Registry} {node : NodeId}
    (reserved : registry.reserve node = .ok (peer, next)) : next.assigned[node]? = some peer := by
  unfold reserve at reserved
  split at reserved
  · rename_i found
    cases reserved
    exact found
  · split at reserved
    · cases reserved
    · cases reserved
      rw [TreeMap.getElem?_insert_eq, if_pos rfl]

theorem Sound.assigned_kept (sound : registry.Sound) {operation : Operation} {node : NodeId}
    (found : registry.assigned[node]? = some peer)
    (kept : operation ≠ .reclaim node) :
    (registry.perform operation).1.assigned[node]? = some peer := by
  by_cases about : operation.subject? = some node
  · cases operation with
    | reserve subject =>
        cases about
        change (registry.tryReserve node).1.assigned[node]? = some peer
        unfold tryReserve Registry.reserve
        rw [found]
        exact found
    | reclaim subject =>
        cases about
        exact absurd rfl kept
    | lookup | isActive | size | isEmpty | capacity => cases about
  · rw [sound.assigned_perform operation node about]
    exact found

/-- However nodes come and go, and whatever was refused to them, a registry answers as the map of
their numbers does. -/
theorem answers_eq_roster (capacity : Nat) (history : List Operation) (next : Operation) :
    (((empty capacity).run history).perform next).2 =
        (((Roster.empty capacity).run history).perform next).2 ∧
      (∀ (left right : NodeId) (peer : PeerId),
        ((empty capacity).run history).assigned[left]? = some peer →
        ((empty capacity).run history).assigned[right]? = some peer → left = right) ∧
      (∀ (node : NodeId) (peer : PeerId),
        ((empty capacity).run history).assigned[node]? = some peer →
        0 < peer.number.toNat ∧ peer.number.toNat ≤ min capacity maxCapacity) ∧
      (∀ node, next.subject? ≠ some node →
        (((empty capacity).run history).perform next).1.assigned[node]? =
          ((empty capacity).run history).assigned[node]?) := by
  obtain ⟨sound, same⟩ := (sound_empty capacity).roster_run history
  have initial : (empty capacity).roster = Roster.empty capacity := rfl
  rw [initial] at same
  obtain ⟨_, _, answered⟩ := sound.roster_perform next
  refine ⟨?_, sound.distinct, ?_, sound.assigned_perform next⟩
  · rw [answered, same]
  · intro node peer found
    obtain ⟨positive, below⟩ := sound.assigned_below node peer found
    have cursor := sound.cursor_le
    have capacity_eq : ((empty capacity).run history).capacity = min capacity maxCapacity :=
      (congrArg Roster.capacity same).trans (Roster.capacity_run _ history)
    exact ⟨positive, by omega⟩

-- The third node is refused while the registry is full, and then gets the number given back.
example :
    let node (byte : UInt8) : NodeId := ⟨Vector.replicate 32 byte⟩
    ((empty 2).run [.reserve (node 7), .reserve (node 8), .reserve (node 9), .reclaim (node 7),
      .reserve (node 9)]).lookup (node 9) = ⟨1⟩ := by
  decide +kernel

end VoteGossip.Registry
