import VoteGossip.Proofs.Log.Invariant
import VoteGossip.Proofs.TreeMap

/-!
What a log is to its readers: an end and a finite map from positions before the end to live
entries. Nothing of the window shows in the answers of a log except through this map, however
long it is used. The answers of both are compared over whole sequences of operations.
-/

set_option autoImplicit false

namespace VoteGossip.Log

variable {Entry : Type}

inductive Operation (Entry : Type) where
  | push (entry : Entry)
  | remove (position : Nat)
  | clear
  | get (position : Nat)
  | front
  | size
  | isEmpty
  | retained
  | stop

def Operation.isPush : Operation Entry → Bool
  | .push _ => true
  | _ => false

inductive Answer (Entry : Type) where
  | appended (position : Nat) (evicted : List Entry)
  | removed (entry : Option Entry)
  | cleared (entries : List Entry)
  | slot (slot : Slot Entry)
  | position (position : Option Nat)
  | number (number : Nat)
  | truth (truth : Bool)

def perform (log : Log Entry) : Operation Entry → Log Entry × Answer Entry
  | .push entry =>
      let appended := log.push entry
      (appended.log, .appended appended.position appended.evicted)
  | .remove position =>
      match log.remove? position with
      | some (entry, log) => (log, .removed (some entry))
      | none => (log, .removed none)
  | .clear => (log.clear, .cleared log.entries)
  | .get position => (log, .slot (log.get position))
  | .front => (log, .position log.front)
  | .size => (log, .number log.size)
  | .isEmpty => (log, .truth log.isEmpty)
  | .retained => (log, .number log.retained)
  | .stop => (log, .number log.written)

def performAll {State : Type} (perform : State → Operation Entry → State × Answer Entry) :
    State → List (Operation Entry) → State × List (Answer Entry)
  | state, [] => (state, [])
  | state, operation :: later =>
      let (next, answer) := perform state operation
      let (last, answers) := performAll perform next later
      (last, answer :: answers)

structure Sparse (Entry : Type) where
  retention : Nat
  stop : Nat
  live : Std.ExtTreeMap Nat Entry

namespace Sparse

def empty (maxRetained : Nat) : Sparse Entry :=
  { retention := max maxRetained 1
    stop := 0
    live := ∅ }

def ascending (live : Std.ExtTreeMap Nat Entry) : List Entry := live.toList.map Prod.snd

/-- Whether a position is too old to be kept when so many were written. -/
def outlived (sparse : Sparse Entry) (stop position : Nat) : Bool :=
  decide (position + sparse.retention < stop)

def get (sparse : Sparse Entry) (position : Nat) : Slot Entry :=
  match sparse.live[position]? with
  | some entry => .ready entry
  | none =>
      if sparse.stop ≤ position then .pending
      else if sparse.live.keys.any (fun other => decide (other < position)) then .removed
      else .evicted

def front (sparse : Sparse Entry) : Option Nat := sparse.live.minKey?

def retained (sparse : Sparse Entry) : Nat :=
  match sparse.front with
  | some front => sparse.stop - front
  | none => 0

def perform (sparse : Sparse Entry) : Operation Entry → Sparse Entry × Answer Entry
  | .push entry =>
      let stop := sparse.stop + 1
      let grown := sparse.live.insert sparse.stop entry
      let evicted := grown.filter fun position _ => sparse.outlived stop position
      let kept := grown.filter fun position _ => !sparse.outlived stop position
      ({ sparse with stop, live := kept }, .appended sparse.stop (ascending evicted))
  | .remove position =>
      ({ sparse with live := sparse.live.erase position }, .removed sparse.live[position]?)
  | .clear => ({ sparse with live := ∅ }, .cleared (ascending sparse.live))
  | .get position => (sparse, .slot (sparse.get position))
  | .front => (sparse, .position sparse.front)
  | .size => (sparse, .number sparse.live.size)
  | .isEmpty => (sparse, .truth (sparse.live.size == 0))
  | .retained => (sparse, .number sparse.retained)
  | .stop => (sparse, .number sparse.stop)

private theorem nodup_of_ascending {pairs : List (Nat × Entry)}
    (ordered : pairs.Pairwise fun left right => left.1 < right.1) : pairs.Nodup := by
  refine ordered.imp ?_
  intro left right less same
  rw [same] at less
  exact Nat.lt_irrefl _ less

private theorem eq_of_ascending {first second : List (Nat × Entry)}
    (firstOrdered : first.Pairwise fun left right => left.1 < right.1)
    (secondOrdered : second.Pairwise fun left right => left.1 < right.1)
    (same : ∀ pair, pair ∈ first ↔ pair ∈ second) : first = second := by
  refine List.Perm.eq_of_pairwise ?_ firstOrdered secondOrdered
    ((List.perm_ext_iff_of_nodup (nodup_of_ascending firstOrdered)
      (nodup_of_ascending secondOrdered)).mpr (fun {pair} => same pair))
  intro left right _ _ forward backward
  exact absurd forward (Nat.lt_asymm backward)

theorem toList_eq_filterMap {live : Std.ExtTreeMap Nat Entry} {found? : Nat → Option Entry}
    {stop : Nat} (agree : ∀ position, live[position]? = found? position)
    (below : ∀ position, stop ≤ position → found? position = none) :
    live.toList =
      (List.range stop).filterMap fun position => (found? position).map (Prod.mk position) := by
  have ordered : live.toList.Pairwise fun left right => left.1 < right.1 :=
    Std.ExtTreeMap.ordered_keys_toList.imp fun less => Nat.compare_eq_lt.mp less
  have listed : ((List.range stop).filterMap fun position =>
      (found? position).map (Prod.mk position)).Pairwise fun left right => left.1 < right.1 := by
    rw [List.pairwise_filterMap]
    refine List.pairwise_lt_range.imp ?_
    intro first second less left leftEq right rightEq
    obtain ⟨_, _, rfl⟩ := Option.map_eq_some_iff.mp leftEq
    obtain ⟨_, _, rfl⟩ := Option.map_eq_some_iff.mp rightEq
    exact less
  apply eq_of_ascending ordered listed
  rintro ⟨position, entry⟩
  rw [Std.ExtTreeMap.mem_toList_iff_getElem?_eq_some, agree, List.mem_filterMap]
  constructor
  · intro found
    have before : position < stop := by
      apply Nat.lt_of_not_le
      intro beyond
      rw [below position beyond] at found
      cases found
    exact ⟨position, List.mem_range.mpr before, by rw [found]; rfl⟩
  · rintro ⟨other, _, same⟩
    obtain ⟨found, entryEq, pairEq⟩ := Option.map_eq_some_iff.mp same
    cases pairEq
    exact entryEq

theorem ascending_eq_filterMap {live : Std.ExtTreeMap Nat Entry} {found? : Nat → Option Entry}
    {stop : Nat} (agree : ∀ position, live[position]? = found? position)
    (below : ∀ position, stop ≤ position → found? position = none) :
    ascending live = (List.range stop).filterMap found? := by
  rw [ascending, toList_eq_filterMap agree below, List.map_filterMap]
  congr 1
  funext position
  cases found? position <;> rfl

theorem ascending_empty : ascending (∅ : Std.ExtTreeMap Nat Entry) = [] := by
  have none : (∅ : Std.ExtTreeMap Nat Entry).toList = [] :=
    Std.ExtTreeMap.toList_eq_nil_iff.mpr rfl
  rw [ascending, none]
  rfl

theorem ascending_single {live : Std.ExtTreeMap Nat Entry} (position : Nat) {entry : Entry}
    (agree : ∀ other, live[other]? = if other = position then some entry else none) :
    ascending live = [entry] := by
  have below : ∀ other, position + 1 ≤ other →
      (if other = position then some entry else none) = none := fun other beyond =>
    if_neg (Nat.ne_of_gt beyond)
  have nothing : (List.range position).filterMap
      (fun other => if other = position then some entry else none) = [] := by
    rw [List.filterMap_eq_nil_iff]
    intro other member
    exact if_neg (Nat.ne_of_lt (List.mem_range.mp member))
  rw [ascending_eq_filterMap agree below, List.range_succ, List.filterMap_append, nothing,
    List.filterMap_cons, if_pos rfl]
  rfl

structure Represents (log : Log Entry) (sparse : Sparse Entry) : Prop where
  valid : log.Valid
  retention_eq : sparse.retention = log.retention
  stop_eq : sparse.stop = log.window.stop
  live_eq : ∀ position, sparse.live[position]? = log.window.entry? position

theorem represents_empty (maxRetained : Nat) :
    Represents (Log.empty maxRetained : Log Entry) (Sparse.empty maxRetained) where
  valid := Log.valid_empty maxRetained
  retention_eq := rfl
  stop_eq := rfl
  live_eq := fun position => by
    change (∅ : Std.ExtTreeMap Nat Entry)[position]? = _
    rw [Std.ExtTreeMap.getElem?_empty]
    rfl

variable {log : Log Entry} {sparse : Sparse Entry}

theorem Represents.ascending_live (same : Represents log sparse) :
    ascending sparse.live = log.entries := by
  rw [entries, Window.entries_eq_filterMap]
  exact ascending_eq_filterMap same.live_eq fun position => Window.entry?_of_stop_le

theorem Represents.size_eq (same : Represents log sparse) : sparse.live.size = log.size := by
  rw [size_eq_length same.valid, ← same.ascending_live, ascending, List.length_map,
    Std.ExtTreeMap.length_toList]

theorem Represents.mem_live (same : Represents log sparse) {position : Nat} :
    position ∈ sparse.live ↔ ∃ entry, log.window.entry? position = some entry := by
  rw [Std.ExtTreeMap.mem_iff_isSome_getElem?, same.live_eq, Option.isSome_iff_exists]

theorem Represents.front_eq (same : Represents log sparse) : sparse.front = log.front := by
  unfold Sparse.front
  cases found : log.front with
  | none =>
      have nothing := front_eq_none found
      have noLive : sparse.live = ∅ := by
        apply Std.ExtTreeMap.ext_getElem?
        intro position
        rw [same.live_eq, nothing, Std.ExtTreeMap.getElem?_empty]
      rw [noLive, Std.ExtTreeMap.minKey?_empty]
  | some front =>
      obtain ⟨atBase, entry, live⟩ := front_eq_some same.valid found
      rw [Std.ExtTreeMap.minKey?_eq_some_iff_mem_and_forall]
      refine ⟨same.mem_live.mpr ⟨entry, live⟩, ?_⟩
      intro other member
      obtain ⟨otherEntry, otherLive⟩ := same.mem_live.mp member
      have ordered := Window.base_le_of_live otherLive
      rw [atBase]
      exact Nat.isLE_compare.mpr ordered

theorem Represents.retained_eq (same : Represents log sparse) :
    sparse.retained = log.retained := by
  unfold Sparse.retained
  rw [same.front_eq, same.stop_eq]
  unfold Log.front
  by_cases nothing : log.window.retained = 0
  · rw [if_pos nothing]
    exact nothing.symm
  · rw [if_neg nothing]
    exact log.retained_eq.symm

theorem Represents.get_eq (same : Represents log sparse) (position : Nat) :
    sparse.get position = log.get position := by
  have live := same.live_eq position
  unfold Sparse.get
  rw [live, same.stop_eq]
  cases found : log.window.entry? position with
  | some entry => exact (get_eq_ready_iff.mpr found).symm
  | none =>
      by_cases beyond : log.window.stop ≤ position
      · simp only [if_pos beyond]
        exact (get_eq_pending_iff.mpr beyond).symm
      · simp only [if_neg beyond]
        -- A dead position has a live one before it exactly when the window reaches back to it.
        by_cases behind : position < log.window.base
        · rw [get_eq_evicted_iff.mpr behind, if_neg]
          intro someBefore
          obtain ⟨other, member, before⟩ := List.any_eq_true.mp someBefore
          obtain ⟨entry, otherLive⟩ := same.mem_live.mp (Std.ExtTreeMap.mem_keys.mp member)
          have fromBase := Window.base_le_of_live otherLive
          have earlier : other < position := of_decide_eq_true before
          omega
        · have written : position < log.window.stop := Nat.lt_of_not_le beyond
          have fromBase : log.window.base ≤ position := Nat.le_of_not_lt behind
          obtain ⟨front, frontLive⟩ :=
            same.valid.window_valid.front_live (Nat.lt_of_le_of_lt fromBase written)
          have different : log.window.base ≠ position := by
            intro equal
            rw [equal, found] at frontLive
            cases frontLive
          rw [get_eq_removed_iff.mpr ⟨fromBase, written, found⟩, if_pos]
          refine List.any_eq_true.mpr ⟨log.window.base, ?_, ?_⟩
          · exact Std.ExtTreeMap.mem_keys.mpr (same.mem_live.mpr ⟨front, frontLive⟩)
          · exact decide_eq_true (by omega)

private theorem Represents.grown_eq (same : Represents log sparse) (entry : Entry)
    (position : Nat) :
    (sparse.live.insert sparse.stop entry)[position]? =
      if position = log.window.stop then some entry else log.window.entry? position := by
  rw [TreeMap.getElem?_insert_eq, same.stop_eq, same.live_eq]

private theorem Represents.outlived_iff (same : Represents log sparse) (entry : Entry)
    (position : Nat) (found : Entry)
    (live : (sparse.live.insert sparse.stop entry)[position]? = some found) :
    sparse.outlived (sparse.stop + 1) position = true ↔
      position = log.window.base ∧ log.retained = log.retention := by
  have width := log.retained_eq
  have within := log.window.base_le_stop
  have bounded := same.valid.retained_le
  have room := same.valid.room
  rw [outlived, decide_eq_true_eq, same.stop_eq, same.retention_eq]
  rw [same.grown_eq] at live
  by_cases atEnd : position = log.window.stop
  · omega
  · rw [if_neg atEnd] at live
    have fromBase := Window.base_le_of_live live
    omega

theorem Represents.push (same : Represents log sparse) (entry : Entry) :
    Represents (log.push entry).log (sparse.perform (.push entry)).1 where
  valid := same.valid.push entry
  retention_eq := same.retention_eq
  stop_eq := by
    rw [stop_push same.valid]
    exact congrArg (· + 1) same.stop_eq
  live_eq := fun position => by
    change ((sparse.live.insert sparse.stop entry).filter _)[position]? = _
    have outlived := same.outlived_iff entry position
    rw [Std.ExtTreeMap.getElem?_filter', entry?_push same.valid]
    rw [same.grown_eq] at outlived ⊢
    by_cases atEnd : position = log.window.stop
    · simp only [if_pos atEnd] at outlived ⊢
      have old := outlived entry rfl
      have within := log.window.base_le_stop
      have room := same.valid.room
      have width := log.retained_eq
      have fresh : sparse.outlived (sparse.stop + 1) position = false := by
        rw [Bool.eq_false_iff, ne_eq, old]
        omega
      rw [Option.filter_some, fresh]
      rfl
    · simp only [if_neg atEnd] at outlived ⊢
      cases found : log.window.entry? position with
      | none => simp only [Option.filter_none, ite_self]
      | some other =>
          have old := outlived other found
          by_cases evicted : position = log.window.base ∧ log.retained = log.retention
          · rw [Option.filter_some, if_pos evicted, old.mpr evicted]
            rfl
          · have kept : sparse.outlived (sparse.stop + 1) position = false := by
              rw [Bool.eq_false_iff, ne_eq, old]
              exact evicted
            rw [Option.filter_some, if_neg evicted, kept]
            rfl

theorem Represents.evicted_eq (same : Represents log sparse) (entry : Entry) :
    ascending ((sparse.live.insert sparse.stop entry).filter fun position _ =>
      sparse.outlived (sparse.stop + 1) position) = (log.push entry).evicted := by
  rcases push_cases same.valid entry with ⟨fits, nothing, _⟩ | ⟨full, oldest, front, one, _⟩
  -- With room left nothing is too old. A full window starts with a live slot, and that one is.
  · have kept : (sparse.live.insert sparse.stop entry).filter (fun position _ =>
        sparse.outlived (sparse.stop + 1) position) = ∅ := by
      apply Std.ExtTreeMap.ext_getElem?
      intro position
      rw [Std.ExtTreeMap.getElem?_filter', Std.ExtTreeMap.getElem?_empty]
      cases found : (sparse.live.insert sparse.stop entry)[position]? with
      | none => rfl
      | some other =>
          have old := same.outlived_iff entry position other found
          have young : sparse.outlived (sparse.stop + 1) position = false := by
            rw [Bool.eq_false_iff, ne_eq, old]
            omega
          rw [Option.filter_some, young]
          rfl
    rw [kept, ascending_empty, nothing]
  · rw [one]
    apply ascending_single log.window.base
    intro position
    have inside := Window.lt_stop_of_live front
    rw [Std.ExtTreeMap.getElem?_filter']
    cases found : (sparse.live.insert sparse.stop entry)[position]? with
    | none =>
        have different : position ≠ log.window.base := by
          intro atBase
          rw [same.grown_eq, atBase, if_neg (Nat.ne_of_lt inside), front] at found
          cases found
        rw [if_neg different]
        rfl
    | some other =>
        have old := same.outlived_iff entry position other found
        by_cases atBase : position = log.window.base
        · rw [same.grown_eq, atBase, if_neg (Nat.ne_of_lt inside), front] at found
          cases found
          rw [Option.filter_some, old.mpr ⟨atBase, full⟩, if_pos rfl, if_pos atBase]
        · have young : sparse.outlived (sparse.stop + 1) position = false := by
            rw [Bool.eq_false_iff, ne_eq, old]
            omega
          rw [Option.filter_some, young, if_neg atBase]
          rfl

theorem Represents.remove (same : Represents log sparse) (position : Nat) :
    Represents (log.perform (.remove position)).1 (sparse.perform (.remove position)).1 ∧
      (sparse.perform (.remove position)).2 = (log.perform (.remove position)).2 := by
  have erased : ∀ other, (sparse.live.erase position)[other]? =
      if other = position then none else log.window.entry? other := by
    intro other
    rw [TreeMap.getElem?_erase_eq, same.live_eq]
  unfold Log.perform Sparse.perform remove?
  simp only [same.live_eq]
  cases found : log.window.entry? position with
  | none =>
      refine ⟨⟨same.valid, same.retention_eq, same.stop_eq, ?_⟩, rfl⟩
      intro other
      change (sparse.live.erase position)[other]? = log.window.entry? other
      rw [erased]
      split
      · rename_i equal
        rw [equal, found]
      · rfl
  | some entry =>
      refine ⟨⟨same.valid.remove found, same.retention_eq, ?_, ?_⟩, rfl⟩
      · rw [Window.stop_remove]
        exact same.stop_eq
      · intro other
        rw [Window.entry?_remove (Window.base_le_of_live found)]
        exact erased other

theorem Represents.clear (same : Represents log sparse) :
    Represents log.clear (sparse.perform .clear).1 where
  valid := same.valid.clear
  retention_eq := same.retention_eq
  stop_eq := by
    change sparse.stop = log.window.drained.stop
    rw [Window.stop_drained]
    exact same.stop_eq
  live_eq := fun position => by
    change (∅ : Std.ExtTreeMap Nat Entry)[position]? = log.window.drained.entry? position
    rw [Std.ExtTreeMap.getElem?_empty, Window.entry?_drained]

theorem Represents.perform (same : Represents log sparse) (operation : Operation Entry) :
    Represents (log.perform operation).1 (sparse.perform operation).1 ∧
      (sparse.perform operation).2 = (log.perform operation).2 := by
  cases operation with
  | push entry =>
      refine ⟨same.push entry, ?_⟩
      change Answer.appended sparse.stop _ = Answer.appended log.window.stop _
      rw [same.stop_eq, ← same.evicted_eq entry, same.stop_eq]
  | remove position => exact same.remove position
  | clear => exact ⟨same.clear, congrArg Answer.cleared same.ascending_live⟩
  | get position => exact ⟨same, congrArg Answer.slot (same.get_eq position)⟩
  | front => exact ⟨same, congrArg Answer.position same.front_eq⟩
  | size => exact ⟨same, congrArg Answer.number same.size_eq⟩
  | isEmpty => exact ⟨same, congrArg (fun size => Answer.truth (size == 0)) same.size_eq⟩
  | retained => exact ⟨same, congrArg Answer.number same.retained_eq⟩
  | stop => exact ⟨same, congrArg Answer.number (same.stop_eq.trans same.valid.published.symm)⟩

theorem Represents.performAll (same : Represents log sparse)
    (operations : List (Operation Entry)) :
    Represents (performAll Log.perform log operations).1
        (performAll Sparse.perform sparse operations).1 ∧
      (performAll Sparse.perform sparse operations).2 =
        (performAll Log.perform log operations).2 := by
  induction operations generalizing log sparse with
  | nil => exact ⟨same, rfl⟩
  | cons operation later ih =>
      obtain ⟨next, answered⟩ := same.perform operation
      obtain ⟨last, answers⟩ := ih next
      refine ⟨last, ?_⟩
      change (sparse.perform operation).2 ::
          (Log.performAll Sparse.perform (sparse.perform operation).1 later).2 =
        (log.perform operation).2 ::
          (Log.performAll Log.perform (log.perform operation).1 later).2
      rw [answered, answers]

theorem stop_perform (sparse : Sparse Entry) (operation : Operation Entry) :
    (sparse.perform operation).1.stop = sparse.stop + [operation].countP Operation.isPush := by
  cases operation <;> rfl

theorem stop_performAll (sparse : Sparse Entry) (operations : List (Operation Entry)) :
    (performAll Sparse.perform sparse operations).1.stop =
      sparse.stop + operations.countP Operation.isPush := by
  induction operations generalizing sparse with
  | nil => rfl
  | cons operation later ih =>
      change (Log.performAll Sparse.perform (sparse.perform operation).1 later).1.stop = _
      rw [ih, stop_perform, Nat.add_assoc, ← List.countP_append, List.singleton_append]

end Sparse

/-- However it is used, a log answers as the finite map of its live entries does. Its end counts
the pushes, so fewer than 2^64 of them leave every position a 64-bit number. -/
theorem answers_eq_sparse (maxRetained : Nat) (operations : List (Operation Entry)) :
    (performAll perform (.empty maxRetained) operations).2 =
        (performAll Sparse.perform (.empty maxRetained) operations).2 ∧
      (performAll perform (.empty maxRetained) operations).1.written =
        operations.countP Operation.isPush := by
  obtain ⟨last, answers⟩ := (Sparse.represents_empty maxRetained).performAll operations
  refine ⟨answers.symm, ?_⟩
  rw [last.valid.published, ← last.stop_eq, Sparse.stop_performAll]
  exact Nat.zero_add _

example : (performAll perform (.empty 3)
    [.push 'a', .push 'b', .push 'c', .remove 1, .push 'd', .get 1, .front]).2 =
      [.appended 0 [], .appended 1 [], .appended 2 [], .removed (some 'b'), .appended 3 ['a'],
        .slot .evicted, .position (some 2)] := rfl

end VoteGossip.Log
