import VoteGossip.Proofs.TreeMap
import VoteGossip.Registry

/-!
How the numbers of a registry are divided up. Those before the cursor are either assigned, each to
one node, or wait to be given out again, and none from the cursor on was ever given out. So the
number that is taken next is the smallest free one although nothing is searched, and as long as
there is room the cursor stays within 16 bits. The set of the numbers in use mirrors the map of the
nodes, and nobody's number is in it besides.
-/

set_option autoImplicit false

namespace VoteGossip

theorem PeerId.isUnknown_iff {peer : PeerId} : peer.isUnknown = true ↔ peer.number.toNat = 0 := by
  rw [isUnknown, beq_iff_eq]
  exact UInt16.toNat_inj.symm

theorem PeerId.eq_of_toNat {left right : PeerId}
    (same : left.number.toNat = right.number.toNat) : left = right := by
  cases left
  cases right
  exact congrArg PeerId.mk (UInt16.toNat_inj.mp same)

theorem PeerId.compare_isLE {left right : PeerId} :
    (compare left right).isLE = true ↔ left.number.toNat ≤ right.number.toNat := by
  change (compareOfLessAndEq left.number right.number).isLE = true ↔ _
  rw [isLE_compareOfLessAndEq UInt16.le_antisymm UInt16.not_le UInt16.le_total]
  exact UInt16.le_iff_toNat_le

theorem PeerSet.size_erase_of_mem {peers : PeerSet} {peer : PeerId} (member : peer ∈ peers) :
    (peers.erase peer).size + 1 = peers.size := by
  have holding : peers.size ≠ 0 := by
    intro zero
    rw [Std.ExtTreeSet.eq_empty_iff_size_eq_zero.mpr zero] at member
    exact Std.ExtTreeSet.not_mem_empty member
  have shrunk : (peers.erase peer).size = peers.size - 1 := by
    rw [Std.ExtTreeSet.size_erase]
    exact if_pos member
  omega

theorem PeerSet.size_insert_of_not_mem {peers : PeerSet} {peer : PeerId}
    (missing : ¬ peer ∈ peers) : (peers.insert peer).size = peers.size + 1 := by
  rw [Std.ExtTreeSet.size_insert]
  exact if_neg missing

namespace Registry

/-- The set holds the numbers of the nodes, and nobody's. -/
structure Mirrors (active : PeerSet) (assigned : Std.ExtTreeMap NodeId PeerId) : Prop where
  mem_iff : ∀ peer : PeerId, peer ∈ active ↔
    peer.isUnknown = true ∨ ∃ node : NodeId, assigned[node]? = some peer
  size_eq : active.size = assigned.size + 1

structure Sound (registry : Registry) : Prop where
  capacity_le : registry.capacity ≤ maxCapacity
  cursor_le : registry.cursor ≤ registry.capacity + 1
  distinct : ∀ (left right : NodeId) (peer : PeerId), registry.assigned[left]? = some peer →
    registry.assigned[right]? = some peer → left = right
  assigned_below : ∀ (node : NodeId) (peer : PeerId), registry.assigned[node]? = some peer →
    0 < peer.number.toNat ∧ peer.number.toNat < registry.cursor
  waiting_iff : ∀ peer : PeerId, peer ∈ registry.waiting ↔
    0 < peer.number.toNat ∧ peer.number.toNat < registry.cursor ∧
      ∀ node : NodeId, registry.assigned[node]? ≠ some peer
  accounting : registry.assigned.size + registry.waiting.size + 1 = registry.cursor
  mirrors : Mirrors registry.active registry.assigned

theorem mirrors_empty : Mirrors ((∅ : PeerSet).insert .unknown) ∅ where
  mem_iff := by
    intro peer
    rw [Std.ExtTreeSet.mem_insert, Std.compare_eq_iff_eq]
    constructor
    · rintro (rfl | member)
      · exact Or.inl rfl
      · exact absurd member Std.ExtTreeSet.not_mem_empty
    · rintro (nobody | ⟨node, found⟩)
      · exact Or.inl (PeerId.eq_of_toNat (PeerId.isUnknown_iff.mp nobody).symm)
      · rw [Std.ExtTreeMap.getElem?_empty] at found
        cases found
  size_eq := by
    rw [PeerSet.size_insert_of_not_mem Std.ExtTreeSet.not_mem_empty, Std.ExtTreeSet.size_empty,
      Std.ExtTreeMap.size_empty]

theorem sound_empty (capacity : Nat) : (empty capacity).Sound where
  capacity_le := Nat.min_le_right capacity maxCapacity
  cursor_le := Nat.le_add_left 1 _
  distinct := by
    intro left right peer found
    change (∅ : Std.ExtTreeMap NodeId PeerId)[left]? = some peer at found
    rw [Std.ExtTreeMap.getElem?_empty] at found
    cases found
  assigned_below := by
    intro node peer found
    change (∅ : Std.ExtTreeMap NodeId PeerId)[node]? = some peer at found
    rw [Std.ExtTreeMap.getElem?_empty] at found
    cases found
  waiting_iff := by
    intro peer
    constructor
    · intro member
      exact absurd member Std.ExtTreeSet.not_mem_empty
    · rintro ⟨positive, below, _⟩
      change peer.number.toNat < 1 at below
      omega
  accounting := by
    change (∅ : Std.ExtTreeMap NodeId PeerId).size + (∅ : PeerSet).size + 1 = 1
    rw [Std.ExtTreeMap.size_empty, Std.ExtTreeSet.size_empty]
  mirrors := mirrors_empty

variable {registry : Registry} {node : NodeId} {peer : PeerId}

theorem Sound.size_le (sound : registry.Sound) :
    registry.assigned.size ≤ registry.capacity := by
  have accounting := sound.accounting
  have cursor := sound.cursor_le
  omega

/-! ### Taking a number -/

structure SmallestFree (registry : Registry) (peer : PeerId) : Prop where
  positive : 0 < peer.number.toNat
  free : ∀ node : NodeId, registry.assigned[node]? ≠ some peer
  least : ∀ other : PeerId, 0 < other.number.toNat →
    (∀ node : NodeId, registry.assigned[node]? ≠ some other) →
    peer.number.toNat ≤ other.number.toNat

theorem Sound.smallestFree_of_first (sound : registry.Sound)
    (first : registry.waiting.first? = some peer) :
    peer ∈ registry.waiting ∧ registry.SmallestFree peer := by
  rw [PeerSet.first?_eq_min?, Std.ExtTreeSet.min?_eq_some_iff_mem_and_forall] at first
  obtain ⟨member, least⟩ := first
  obtain ⟨positive, below, free⟩ := (sound.waiting_iff peer).mp member
  refine ⟨member, positive, free, ?_⟩
  intro other otherPositive otherFree
  by_cases before : other.number.toNat < registry.cursor
  · have waits := (sound.waiting_iff other).mpr ⟨otherPositive, before, otherFree⟩
    exact PeerId.compare_isLE.mp (least other waits)
  · omega

theorem Sound.smallestFree_of_cursor (sound : registry.Sound)
    (nothing : registry.waiting.first? = none) (atCursor : peer.number.toNat = registry.cursor) :
    registry.SmallestFree peer := by
  rw [PeerSet.first?_eq_min?, Std.ExtTreeSet.min?_eq_none_iff] at nothing
  have accounting := sound.accounting
  refine ⟨by omega, ?_, ?_⟩
  · intro node found
    obtain ⟨_, below⟩ := sound.assigned_below node peer found
    omega
  · intro other positive free
    apply Nat.le_of_not_lt
    intro before
    have waits := (sound.waiting_iff other).mpr ⟨positive, by omega, free⟩
    rw [nothing] at waits
    exact absurd waits Std.ExtTreeSet.not_mem_empty

/-- A number that is given to a node for the first time, or again after it was given back. -/
inductive Take (registry : Registry) : Except Refusal (PeerId × Registry) → Prop where
  | full (all : registry.assigned.size = registry.capacity) :
      Take registry (.error (.full registry.capacity))
  | again (peer : PeerId) (room : registry.assigned.size < registry.capacity)
      (smallest : registry.SmallestFree peer) (waits : peer ∈ registry.waiting) :
      Take registry (.ok (peer, { registry with waiting := registry.waiting.erase peer }))
  | fresh (peer : PeerId) (room : registry.assigned.size < registry.capacity)
      (smallest : registry.SmallestFree peer) (nothing : registry.waiting = ∅)
      (atCursor : peer.number.toNat = registry.cursor) :
      Take registry (.ok (peer, { registry with cursor := registry.cursor + 1 }))

theorem Sound.take_cases (sound : registry.Sound) : Take registry registry.take := by
  unfold take
  rw [sound.mirrors.size_eq]
  by_cases all : registry.capacity < registry.assigned.size + 1
  · rw [if_pos all]
    exact .full (Nat.le_antisymm sound.size_le (Nat.le_of_lt_succ all))
  · have room : registry.assigned.size < registry.capacity := Nat.le_of_not_lt all
    rw [if_neg all]
    cases first : registry.waiting.first? with
    | some peer =>
        obtain ⟨waits, smallest⟩ := sound.smallestFree_of_first first
        exact .again peer room smallest waits
    | none =>
        have nothing : registry.waiting = ∅ := by
          rw [PeerSet.first?_eq_min?, Std.ExtTreeSet.min?_eq_none_iff] at first
          exact first
        have accounting := sound.accounting
        have capacity := sound.capacity_le
        rw [nothing, Std.ExtTreeSet.size_empty] at accounting
        have within : registry.cursor ≤ 65535 := by
          change registry.capacity ≤ 65535 at capacity
          omega
        have inside : ¬ maxCapacity < registry.cursor := Nat.not_lt.mpr within
        have atCursor : (⟨registry.cursor.toUInt16⟩ : PeerId).number.toNat = registry.cursor :=
          UInt16.toNat_ofNat_of_lt' (Nat.lt_succ_of_le within)
        simp only [if_neg inside]
        exact .fresh _ room (sound.smallestFree_of_cursor first atCursor) nothing atCursor

/-! ### Registering a node -/

/-- A free number becomes the number of a new node: what was said of the assigned numbers stays
true, and one number less is free. -/
theorem Sound.distinct_insert (sound : registry.Sound)
    (free : ∀ node : NodeId, registry.assigned[node]? ≠ some peer)
    (left right : NodeId) (other : PeerId)
    (leftFound : (registry.assigned.insert node peer)[left]? = some other)
    (rightFound : (registry.assigned.insert node peer)[right]? = some other) : left = right := by
  rw [TreeMap.getElem?_insert_eq] at leftFound rightFound
  split at leftFound
  · rename_i leftNew
    split at rightFound
    · rename_i rightNew
      rw [leftNew, rightNew]
    · cases leftFound
      exact absurd rightFound (free right)
  · split at rightFound
    · cases rightFound
      exact absurd leftFound (free left)
    · exact sound.distinct left right other leftFound rightFound

theorem assigned_insert_iff {assigned : Std.ExtTreeMap NodeId PeerId}
    (absent : assigned[node]? = none) (other : PeerId) :
    (∃ key : NodeId, (assigned.insert node peer)[key]? = some other) ↔
      other = peer ∨ ∃ key : NodeId, assigned[key]? = some other := by
  constructor
  · rintro ⟨key, found⟩
    rw [TreeMap.getElem?_insert_eq] at found
    split at found
    · cases found
      exact Or.inl rfl
    · exact Or.inr ⟨key, found⟩
  · rintro (rfl | ⟨key, found⟩)
    · exact ⟨node, by rw [TreeMap.getElem?_insert_eq, if_pos rfl]⟩
    · refine ⟨key, ?_⟩
      rw [TreeMap.getElem?_insert_eq, if_neg, found]
      rintro rfl
      rw [absent] at found
      cases found

theorem unassigned_insert_iff {assigned : Std.ExtTreeMap NodeId PeerId}
    (absent : assigned[node]? = none) (other : PeerId) :
    (∀ key : NodeId, (assigned.insert node peer)[key]? ≠ some other) ↔
      other ≠ peer ∧ ∀ key : NodeId, assigned[key]? ≠ some other := by
  simp only [ne_eq, ← not_exists, assigned_insert_iff absent, not_or]

theorem Sound.mirrors_insert (sound : registry.Sound) (absent : registry.assigned[node]? = none)
    (smallest : registry.SmallestFree peer) :
    Mirrors (registry.active.insert peer) (registry.assigned.insert node peer) where
  mem_iff := by
    intro other
    rw [Std.ExtTreeSet.mem_insert, Std.compare_eq_iff_eq, sound.mirrors.mem_iff,
      assigned_insert_iff absent, eq_comm (a := peer)]
    exact or_left_comm
  size_eq := by
    have idle : ¬ peer ∈ registry.active := by
      rw [sound.mirrors.mem_iff, PeerId.isUnknown_iff, not_or, not_exists]
      exact ⟨Nat.ne_of_gt smallest.positive, smallest.free⟩
    rw [PeerSet.size_insert_of_not_mem idle, TreeMap.size_insert_of_absent absent,
      sound.mirrors.size_eq]

theorem Sound.give_again (sound : registry.Sound) (absent : registry.assigned[node]? = none)
    (smallest : registry.SmallestFree peer) (waits : peer ∈ registry.waiting) :
    ({ registry with
      waiting := registry.waiting.erase peer
      assigned := registry.assigned.insert node peer
      active := registry.active.insert peer } : Registry).Sound where
  capacity_le := sound.capacity_le
  cursor_le := sound.cursor_le
  distinct := sound.distinct_insert smallest.free
  assigned_below := by
    intro other number found
    rw [TreeMap.getElem?_insert_eq] at found
    split at found
    · cases found
      obtain ⟨positive, below, _⟩ := (sound.waiting_iff peer).mp waits
      exact ⟨positive, below⟩
    · exact sound.assigned_below other number found
  waiting_iff := by
    intro other
    rw [unassigned_insert_iff absent, Std.ExtTreeSet.mem_erase, sound.waiting_iff other]
    have apart : compare peer other ≠ .eq ↔ other ≠ peer := by
      rw [ne_eq, Std.compare_eq_iff_eq, eq_comm]
    rw [apart]
    constructor
    · rintro ⟨different, positive, below, unassigned⟩
      exact ⟨positive, below, different, unassigned⟩
    · rintro ⟨positive, below, different, unassigned⟩
      exact ⟨different, positive, below, unassigned⟩
  accounting := by
    have accounting := sound.accounting
    have shrunk := PeerSet.size_erase_of_mem waits
    change (registry.assigned.insert node peer).size + (registry.waiting.erase peer).size + 1 =
      registry.cursor
    rw [TreeMap.size_insert_of_absent absent]
    omega
  mirrors := sound.mirrors_insert absent smallest

theorem Sound.give_fresh (sound : registry.Sound) (absent : registry.assigned[node]? = none)
    (room : registry.assigned.size < registry.capacity) (smallest : registry.SmallestFree peer)
    (nothing : registry.waiting = ∅) (atCursor : peer.number.toNat = registry.cursor) :
    ({ registry with
      cursor := registry.cursor + 1
      assigned := registry.assigned.insert node peer
      active := registry.active.insert peer } : Registry).Sound where
  capacity_le := sound.capacity_le
  cursor_le := by
    have accounting := sound.accounting
    rw [nothing, Std.ExtTreeSet.size_empty] at accounting
    change registry.cursor + 1 ≤ registry.capacity + 1
    omega
  distinct := sound.distinct_insert smallest.free
  assigned_below := by
    intro other number found
    rw [TreeMap.getElem?_insert_eq] at found
    split at found
    · cases found
      change _ ∧ _ < registry.cursor + 1
      exact ⟨smallest.positive, by omega⟩
    · obtain ⟨positive, below⟩ := sound.assigned_below other number found
      exact ⟨positive, Nat.lt_succ_of_lt below⟩
  waiting_iff := by
    intro other
    rw [unassigned_insert_iff absent]
    constructor
    · intro waits
      change other ∈ registry.waiting at waits
      rw [nothing] at waits
      exact absurd waits Std.ExtTreeSet.not_mem_empty
    · rintro ⟨positive, below, different, unassigned⟩
      change other.number.toNat < registry.cursor + 1 at below
      refine (sound.waiting_iff other).mpr ⟨positive, ?_, unassigned⟩
      apply Nat.lt_of_le_of_ne (Nat.le_of_lt_succ below)
      intro same
      exact different (PeerId.eq_of_toNat (same.trans atCursor.symm))
  accounting := by
    have accounting := sound.accounting
    change (registry.assigned.insert node peer).size + registry.waiting.size + 1 =
      registry.cursor + 1
    rw [TreeMap.size_insert_of_absent absent]
    omega
  mirrors := sound.mirrors_insert absent smallest

inductive Reservation (registry : Registry) (node : NodeId) :
    Except Refusal (PeerId × Registry) → Prop where
  | known (peer : PeerId) (found : registry.assigned[node]? = some peer) :
      Reservation registry node (.ok (peer, registry))
  | full (absent : registry.assigned[node]? = none)
      (all : registry.assigned.size = registry.capacity) :
      Reservation registry node (.error (.full registry.capacity))
  | given (peer : PeerId) (next : Registry) (absent : registry.assigned[node]? = none)
      (room : registry.assigned.size < registry.capacity) (smallest : registry.SmallestFree peer)
      (sound : next.Sound) (assigned_eq : next.assigned = registry.assigned.insert node peer)
      (capacity_eq : next.capacity = registry.capacity) :
      Reservation registry node (.ok (peer, next))

theorem Sound.reserve_cases (sound : registry.Sound) (node : NodeId) :
    Reservation registry node (registry.reserve node) := by
  unfold reserve
  cases found : registry.assigned[node]? with
  | some peer => exact .known peer found
  | none =>
      have taken := sound.take_cases
      generalize registry.take = result at taken
      cases taken with
      | full all => exact .full found all
      | again peer room smallest waits =>
          exact .given peer _ found room smallest (sound.give_again found smallest waits) rfl rfl
      | fresh peer room smallest nothing atCursor =>
          have given := sound.give_fresh found room smallest nothing atCursor
          exact .given peer _ found room smallest given rfl rfl

/-! ### Taking a number back -/

theorem Sound.assigned_erase_iff (sound : registry.Sound)
    (found : registry.assigned[node]? = some peer) (other : PeerId) :
    (∃ key : NodeId, (registry.assigned.erase node)[key]? = some other) ↔
      other ≠ peer ∧ ∃ key : NodeId, registry.assigned[key]? = some other := by
  constructor
  · rintro ⟨key, still⟩
    rw [TreeMap.getElem?_erase_eq] at still
    split at still
    · cases still
    · rename_i different
      refine ⟨?_, key, still⟩
      rintro rfl
      exact different (sound.distinct key node other still found)
  · rintro ⟨different, key, assigned⟩
    refine ⟨key, ?_⟩
    rw [TreeMap.getElem?_erase_eq, if_neg, assigned]
    rintro rfl
    rw [found] at assigned
    exact different (Option.some.inj assigned).symm

theorem Sound.unassigned_erase_iff (sound : registry.Sound)
    (found : registry.assigned[node]? = some peer) (other : PeerId) :
    (∀ key : NodeId, (registry.assigned.erase node)[key]? ≠ some other) ↔
      other = peer ∨ ∀ key : NodeId, registry.assigned[key]? ≠ some other := by
  simp only [ne_eq, ← not_exists, sound.assigned_erase_iff found,
    Classical.not_and_iff_not_or_not, Classical.not_not]

theorem assigned_of_erase {other : NodeId} {number : PeerId}
    (still : (registry.assigned.erase node)[other]? = some number) :
    registry.assigned[other]? = some number := by
  rw [TreeMap.getElem?_erase_eq] at still
  split at still
  · cases still
  · exact still

theorem Sound.mirrors_erase (sound : registry.Sound)
    (found : registry.assigned[node]? = some peer) :
    Mirrors (registry.active.erase peer) (registry.assigned.erase node) where
  mem_iff := by
    intro other
    obtain ⟨positive, _⟩ := sound.assigned_below node peer found
    have known : other.isUnknown = true → other ≠ peer := by
      rintro nobody rfl
      rw [PeerId.isUnknown_iff] at nobody
      omega
    rw [Std.ExtTreeSet.mem_erase, ne_eq, Std.compare_eq_iff_eq, sound.mirrors.mem_iff,
      sound.assigned_erase_iff found, eq_comm (a := peer), and_or_left]
    exact or_congr_left (and_iff_right_of_imp known)
  size_eq := by
    have busy : peer ∈ registry.active := (sound.mirrors.mem_iff peer).mpr (Or.inr ⟨node, found⟩)
    have fewer := PeerSet.size_erase_of_mem busy
    have fewerNodes := TreeMap.size_erase_of_found found
    have sizes := sound.mirrors.size_eq
    omega

theorem Sound.reclaim (sound : registry.Sound) (node : NodeId) :
    (registry.reclaim node).2.Sound := by
  unfold Registry.reclaim
  cases found : registry.assigned[node]? with
  | none => exact sound
  | some peer =>
      obtain ⟨positive, below⟩ := sound.assigned_below node peer found
      refine
        { capacity_le := sound.capacity_le
          cursor_le := sound.cursor_le
          distinct := fun left right number leftFound rightFound =>
            sound.distinct left right number (assigned_of_erase leftFound)
              (assigned_of_erase rightFound)
          assigned_below := fun other number still =>
            sound.assigned_below other number (assigned_of_erase still)
          waiting_iff := ?_
          accounting := ?_
          mirrors := sound.mirrors_erase found }
      · intro other
        rw [sound.unassigned_erase_iff found, Std.ExtTreeSet.mem_insert, Std.compare_eq_iff_eq,
          sound.waiting_iff other, eq_comm (a := peer)]
        constructor
        · rintro (rfl | ⟨otherPositive, otherBelow, free⟩)
          · exact ⟨positive, below, Or.inl rfl⟩
          · exact ⟨otherPositive, otherBelow, Or.inr free⟩
        · rintro ⟨otherPositive, otherBelow, same | free⟩
          · exact Or.inl same
          · exact Or.inr ⟨otherPositive, otherBelow, free⟩
      · have busy : ¬ peer ∈ registry.waiting := by
          intro waits
          obtain ⟨_, _, unassigned⟩ := (sound.waiting_iff peer).mp waits
          exact unassigned node found
        -- One node less and one waiting number more: the cursor stays where it is.
        have accounting := sound.accounting
        have shrunk := TreeMap.size_erase_of_found found
        change (registry.assigned.erase node).size + (registry.waiting.insert peer).size + 1 =
          registry.cursor
        rw [PeerSet.size_insert_of_not_mem busy]
        omega

/-! ### Reading -/

/-- A number is in use exactly when it is nobody's or some node has it. -/
theorem Sound.isActive_iff (sound : registry.Sound) (peer : PeerId) :
    registry.isActive peer = true ↔
      peer.isUnknown = true ∨ ∃ node : NodeId, registry.assigned[node]? = some peer := by
  rw [isActive, Std.ExtTreeSet.contains_iff_mem]
  exact sound.mirrors.mem_iff peer

end Registry

end VoteGossip
