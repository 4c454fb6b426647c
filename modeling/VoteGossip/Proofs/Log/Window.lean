import VoteGossip.Log.Window

/-!
What a window is between two operations. Every operation is described by what it does to the live
entry of each position; together with the end and the base of the window this is all that later
proofs look at.
-/

set_option autoImplicit false

namespace VoteGossip.Log.Window

variable {Entry : Type}

/-! ### Positions and slots -/

theorem base_le_stop (window : Window Entry) : window.base ≤ window.stop :=
  Nat.le_add_right _ _

theorem retained_eq (window : Window Entry) : window.retained = window.stop - window.base :=
  (Nat.add_sub_cancel_left window.base window.slots.size).symm

theorem entry?_of_lt_base {window : Window Entry} {position : Nat}
    (behind : position < window.base) : window.entry? position = none :=
  if_pos behind

theorem entry?_of_base_le {window : Window Entry} {position : Nat}
    (reached : window.base ≤ position) :
    window.entry? position = window.slots[position - window.base]?.join :=
  if_neg (Nat.not_lt.mpr reached)

theorem entry?_of_stop_le {window : Window Entry} {position : Nat}
    (beyond : window.stop ≤ position) : window.entry? position = none := by
  have outside : window.slots.size ≤ position - window.base := Nat.le_sub_of_add_le' beyond
  rw [entry?_of_base_le (Nat.le_trans window.base_le_stop beyond), Array.getElem?_eq_none outside]
  rfl

theorem base_le_of_live {window : Window Entry} {position : Nat} {entry : Entry}
    (live : window.entry? position = some entry) : window.base ≤ position := by
  by_cases behind : position < window.base
  · rw [entry?_of_lt_base behind] at live
    cases live
  · exact Nat.le_of_not_lt behind

theorem lt_stop_of_live {window : Window Entry} {position : Nat} {entry : Entry}
    (live : window.entry? position = some entry) : position < window.stop := by
  by_cases beyond : window.stop ≤ position
  · rw [entry?_of_stop_le beyond] at live
    cases live
  · exact Nat.lt_of_not_le beyond

theorem slot_of_retained {window : Window Entry} {position : Nat}
    (reached : window.base ≤ position) (written : position < window.stop) :
    window.slots[position - window.base]? = some (window.entry? position) := by
  have inside : position - window.base < window.slots.size :=
    Nat.sub_lt_left_of_lt_add reached written
  rw [entry?_of_base_le reached, Array.getElem?_eq_getElem inside]
  rfl

theorem slot_of_live {window : Window Entry} {position : Nat} {entry : Entry}
    (live : window.entry? position = some entry) :
    window.slots[position - window.base]? = some (some entry) := by
  rw [slot_of_retained (base_le_of_live live) (lt_stop_of_live live), live]

theorem front_slot {window : Window Entry} (holding : window.base < window.stop) :
    window.slots[0]? = some (window.entry? window.base) := by
  rw [← slot_of_retained (Nat.le_refl _) holding, Nat.sub_self]

theorem getElem?_slots {window : Window Entry} {index : Nat} (inside : index < window.slots.size) :
    window.slots[index]? = some (window.entry? (window.base + index)) := by
  have written : window.base + index < window.stop := Nat.add_lt_add_left inside _
  rw [← slot_of_retained (Nat.le_add_right _ _) written, Nat.add_sub_cancel_left]

theorem entries_eq_filterMap (window : Window Entry) :
    window.entries = (List.range window.stop).filterMap window.entry? := by
  have slots : window.slots.toList =
      (List.range window.slots.size).map fun index => window.entry? (window.base + index) := by
    apply List.ext_getElem?
    intro index
    rw [List.getElem?_map, Array.getElem?_toList]
    by_cases inside : index < window.slots.size
    · rw [List.getElem?_range inside, getElem?_slots inside]
      rfl
    · have outside := Nat.le_of_not_lt inside
      rw [Array.getElem?_eq_none outside, List.getElem?_eq_none (by simpa using outside)]
      rfl
  have behind : (List.range window.base).filterMap window.entry? = [] := by
    rw [List.filterMap_eq_nil_iff]
    intro position member
    exact entry?_of_lt_base (List.mem_range.mp member)
  rw [entries, slots, stop, List.range_add, List.filterMap_append, behind, List.nil_append,
    List.filterMap_map, List.filterMap_map]
  rfl

@[simp] theorem stop_append (window : Window Entry) (entry : Entry) :
    (window.append entry).stop = window.stop + 1 := by
  simp only [append, stop, Array.size_push, Nat.add_assoc]

@[simp] theorem stop_bury (window : Window Entry) (position : Nat) :
    (window.bury position).stop = window.stop := by
  simp only [bury, stop, Array.size_setIfInBounds]

@[simp] theorem stop_drained (window : Window Entry) : window.drained.stop = window.stop := rfl

theorem entry?_append (window : Window Entry) (entry : Entry) (position : Nat) :
    Window.entry? (window.append entry) position =
      if position = window.stop then some entry else window.entry? position := by
  by_cases behind : position < window.base
  · have different : position ≠ window.stop :=
      Nat.ne_of_lt (Nat.lt_of_lt_of_le behind window.base_le_stop)
    rw [if_neg different, entry?_of_lt_base behind]
    exact entry?_of_lt_base behind
  · have reached := Nat.le_of_not_lt behind
    have grown : Window.entry? (window.append entry) position =
        (window.slots.push (some entry))[position - window.base]?.join := entry?_of_base_le reached
    have atEnd : position - window.base = window.slots.size ↔ position = window.stop :=
      Nat.sub_eq_iff_eq_add' reached
    rw [grown, Array.getElem?_push, entry?_of_base_le reached]
    by_cases last : position = window.stop
    · rw [if_pos (atEnd.mpr last), if_pos last]
      rfl
    · rw [if_neg (mt atEnd.mp last), if_neg last]

theorem entry?_bury {window : Window Entry} {buried : Nat} (inside : window.base ≤ buried)
    (position : Nat) :
    Window.entry? (window.bury buried) position =
      if position = buried then none else window.entry? position := by
  by_cases behind : position < window.base
  · rw [entry?_of_lt_base behind, ite_self]
    exact entry?_of_lt_base behind
  · have reached := Nat.le_of_not_lt behind
    have left : Window.entry? (window.bury buried) position =
        (window.slots.setIfInBounds (buried - window.base) none)[position - window.base]?.join :=
      entry?_of_base_le reached
    rw [left, Array.getElem?_setIfInBounds, entry?_of_base_le reached]
    by_cases same : position = buried
    · rw [same, if_pos rfl, if_pos rfl]
      split <;> rfl
    · have apart : buried - window.base ≠ position - window.base := by omega
      rw [if_neg apart, if_neg same]

@[simp] theorem entry?_drained (window : Window Entry) (position : Nat) :
    window.drained.entry? position = none := by
  by_cases behind : position < window.stop
  · exact entry?_of_lt_base behind
  · exact entry?_of_stop_le (Nat.le_of_not_lt behind)

theorem entry?_append_of_some {window : Window Entry} {position : Nat} {entry : Entry}
    (live : window.entry? position = some entry) (added : Entry) :
    Window.entry? (window.append added) position = some entry := by
  rw [entry?_append, if_neg (Nat.ne_of_lt (lt_stop_of_live live))]
  exact live

theorem stop_dropFront {window : Window Entry} (holding : window.base < window.stop) :
    window.dropFront.stop = window.stop := by
  simp only [dropFront, stop, Array.size_extract, Nat.min_self]
  simp only [stop] at holding
  omega

theorem entry?_dropFront (window : Window Entry) (position : Nat) :
    window.dropFront.entry? position =
      if position = window.base then none else window.entry? position := by
  by_cases behind : position < window.base + 1
  · have gone : window.dropFront.entry? position = none := entry?_of_lt_base behind
    rw [gone]
    split
    · rfl
    · rename_i different
      exact (entry?_of_lt_base (by omega)).symm
  · have reached : window.base + 1 ≤ position := Nat.le_of_not_lt behind
    have left : window.dropFront.entry? position =
        (window.slots.extract 1)[position - (window.base + 1)]?.join := entry?_of_base_le reached
    have shifted : 1 + (position - (window.base + 1)) = position - window.base := by omega
    rw [left, if_neg (by omega), entry?_of_base_le (by omega), Array.getElem?_extract, shifted]
    split
    · rfl
    · rename_i outside
      rw [Array.getElem?_eq_none (by omega)]

/-! ### Pruning moves the base and nothing else -/

/-- One window is the other without some of the tombstones in front. -/
structure Prunes (window pruned : Window Entry) : Prop where
  base_le : window.base ≤ pruned.base
  stop_eq : pruned.stop = window.stop
  entry?_eq : ∀ position, pruned.entry? position = window.entry? position
  live_eq : pruned.live = window.live

theorem Prunes.refl (window : Window Entry) : window.Prunes window :=
  ⟨Nat.le_refl _, rfl, fun _position => rfl, rfl⟩

theorem Prunes.trans {first second third : Window Entry} (early : first.Prunes second)
    (late : second.Prunes third) : first.Prunes third where
  base_le := Nat.le_trans early.base_le late.base_le
  stop_eq := late.stop_eq.trans early.stop_eq
  entry?_eq := fun position => (late.entry?_eq position).trans (early.entry?_eq position)
  live_eq := late.live_eq.trans early.live_eq

theorem prunes_dropFront {window : Window Entry} (tombstone : window.slots[0]? = some none) :
    window.Prunes window.dropFront := by
  have holding : window.base < window.stop :=
    Nat.lt_add_of_pos_right (Array.getElem?_eq_some_iff.mp tombstone).1
  have dead : window.entry? window.base = none := by
    rw [front_slot holding] at tombstone
    exact Option.some.inj tombstone
  refine ⟨Nat.le_succ _, stop_dropFront holding, ?_, rfl⟩
  intro position
  rw [entry?_dropFront]
  split
  · rename_i front
    rw [front, dead]
  · rfl

theorem prunes_pruneUpTo (count : Nat) (window : Window Entry) :
    window.Prunes (window.pruneUpTo count) := by
  induction count generalizing window with
  | zero => exact .refl window
  | succ count ih =>
      unfold pruneUpTo
      split
      · rename_i tombstone
        exact (prunes_dropFront tombstone).trans (ih window.dropFront)
      · exact .refl window

theorem prunes_prune (window : Window Entry) : window.Prunes window.prune :=
  prunes_pruneUpTo _ window

@[simp] theorem live_prune (window : Window Entry) : window.prune.live = window.live :=
  window.prunes_prune.live_eq

@[simp] theorem stop_prune (window : Window Entry) : window.prune.stop = window.stop :=
  window.prunes_prune.stop_eq

@[simp] theorem entry?_prune (window : Window Entry) (position : Nat) :
    window.prune.entry? position = window.entry? position :=
  window.prunes_prune.entry?_eq position

theorem base_le_prune (window : Window Entry) : window.base ≤ window.prune.base :=
  window.prunes_prune.base_le

@[simp] theorem entries_prune (window : Window Entry) : window.prune.entries = window.entries := by
  have same : window.prune.entry? = window.entry? := funext window.entry?_prune
  rw [entries_eq_filterMap, entries_eq_filterMap, stop_prune, same]

private theorem pruneUpTo_front (count : Nat) (window : Window Entry)
    (enough : window.slots.size ≤ count) :
    (window.pruneUpTo count).slots[0]? ≠ some none := by
  induction count generalizing window with
  | zero =>
      rw [pruneUpTo, Array.getElem?_eq_none enough]
      exact nofun
  | succ count ih =>
      unfold pruneUpTo
      split
      · apply ih
        simp only [dropFront, Array.size_extract, Nat.min_self]
        omega
      · assumption

theorem front_live_prune {window : Window Entry} (holding : window.prune.base < window.prune.stop) :
    ∃ entry, window.prune.entry? window.prune.base = some entry := by
  have front := front_slot holding
  cases live : window.prune.entry? window.prune.base with
  | some entry => exact ⟨entry, rfl⟩
  | none =>
      rw [live] at front
      exact absurd front (pruneUpTo_front _ window (Nat.le_refl _))

theorem prune_eq_of_front {window : Window Entry} (front : window.slots[0]? ≠ some none) :
    window.prune = window := by
  unfold prune
  cases window.slots.size with
  | zero => rfl
  | succ count =>
      unfold pruneUpTo
      split
      · rename_i tombstone
        exact absurd tombstone front
      · rfl

/-- Letting go of a live front slot, or burying it: pruning makes no difference between them. -/
theorem prune_bury_base {window : Window Entry} (holding : window.base < window.stop) :
    (window.bury window.base).prune =
      Window.prune { window.dropFront with live := window.live - 1 } := by
  have positive : 0 < window.slots.size := Nat.pos_of_lt_add_right holding
  have buried : (window.bury window.base).slots = window.slots.setIfInBounds 0 none := by
    rw [bury, Nat.sub_self]
  have tombstone : (window.bury window.base).slots[0]? = some none := by
    rw [buried, Array.getElem?_setIfInBounds_self_of_lt positive]
  have size : (window.bury window.base).slots.size = (window.slots.extract 1).size + 1 := by
    rw [buried, Array.size_setIfInBounds, Array.size_extract, Nat.min_self]
    omega
  have rest : (window.slots.setIfInBounds 0 none).extract 1 = window.slots.extract 1 := by
    apply Array.ext_getElem?
    intro index
    simp only [Array.getElem?_extract, Array.size_setIfInBounds]
    rw [Array.getElem?_setIfInBounds_ne (by omega)]
  have dropped : (window.bury window.base).dropFront =
      { window.dropFront with live := window.live - 1 } := by
    rw [dropFront, buried, rest]
    rfl
  rw [prune, size, pruneUpTo, tombstone]
  dsimp only
  rw [dropped]
  rfl

theorem entries_append (window : Window Entry) (entry : Entry) :
    (window.append entry).entries = window.entries ++ [entry] := by
  simp only [append, entries, Array.toList_push, List.filterMap_append, List.filterMap_cons,
    List.filterMap_nil, id]

private theorem filterMap_set_length (slots : List (Option Entry)) (index : Nat) (entry : Entry)
    (live : slots[index]? = some (some entry)) :
    ((slots.set index none).filterMap id).length + 1 = (slots.filterMap id).length := by
  induction slots generalizing index with
  | nil => cases live
  | cons slot rest ih =>
      cases index with
      | zero =>
          cases live
          rfl
      | succ index =>
          have shorter := ih index live
          cases slot with
          | none => exact shorter
          | some other =>
              change (other :: (rest.set index none).filterMap id).length + 1 =
                (other :: rest.filterMap id).length
              rw [List.length_cons, List.length_cons, shorter]

theorem entries_bury_length {window : Window Entry} {position : Nat} {entry : Entry}
    (live : window.entry? position = some entry) :
    (window.bury position).entries.length + 1 = window.entries.length := by
  simp only [bury, entries, Array.toList_setIfInBounds]
  exact filterMap_set_length _ _ entry (by rw [Array.getElem?_toList]; exact slot_of_live live)

/-! ### The invariant -/

/-- What holds between two operations: the live entries are counted, and no tombstone is left in
front. -/
structure Valid (window : Window Entry) : Prop where
  live_counted : window.live = window.entries.length
  front_live : window.base < window.stop → ∃ entry, window.entry? window.base = some entry

theorem valid_empty : (Window.empty : Window Entry).Valid where
  live_counted := rfl
  front_live := fun inside => absurd inside (Nat.lt_irrefl 0)

theorem valid_drained (window : Window Entry) : window.drained.Valid where
  live_counted := rfl
  front_live := fun inside => absurd inside (Nat.lt_irrefl _)

theorem valid_prune {window : Window Entry} (counted : window.live = window.entries.length) :
    window.prune.Valid where
  live_counted := by
    rw [live_prune, entries_prune]
    exact counted
  front_live := front_live_prune

theorem Valid.front_ne {window : Window Entry} (valid : window.Valid) :
    window.slots[0]? ≠ some none := by
  intro tombstone
  have holding : window.base < window.stop :=
    Nat.lt_add_of_pos_right (Array.getElem?_eq_some_iff.mp tombstone).1
  obtain ⟨entry, live⟩ := valid.front_live holding
  rw [front_slot holding, live] at tombstone
  cases tombstone

theorem Valid.prune_eq {window : Window Entry} (valid : window.Valid) : window.prune = window :=
  prune_eq_of_front valid.front_ne

theorem Valid.append {window : Window Entry} (valid : window.Valid) (entry : Entry) :
    (window.append entry).Valid where
  live_counted := by
    rw [entries_append, List.length_append]
    change window.live + 1 = _
    rw [valid.live_counted]
    rfl
  front_live := fun _inside => by
    change ∃ found, Window.entry? (window.append entry) window.base = some found
    rw [entry?_append]
    split
    · exact ⟨entry, rfl⟩
    · have within := window.base_le_stop
      exact valid.front_live (by omega)

@[simp] theorem stop_remove (window : Window Entry) (position : Nat) :
    (window.remove position).stop = window.stop := by
  rw [remove, stop_prune, stop_bury]

theorem entry?_remove {window : Window Entry} {removed : Nat} (inside : window.base ≤ removed)
    (position : Nat) :
    Window.entry? (window.remove removed) position =
      if position = removed then none else window.entry? position := by
  rw [remove, entry?_prune, entry?_bury inside]

theorem Valid.remove {window : Window Entry} (valid : window.Valid) {position : Nat} {entry : Entry}
    (live : window.entry? position = some entry) : (window.remove position).Valid := by
  apply valid_prune
  have shorter := entries_bury_length live
  have counted := valid.live_counted
  change window.live - 1 = _
  omega

theorem base_le_remove (window : Window Entry) (position : Nat) :
    window.base ≤ (window.remove position).base :=
  base_le_prune (window.bury position)

theorem base_lt_remove {window : Window Entry} {entry : Entry}
    (live : window.entry? window.base = some entry) :
    window.base < (window.remove window.base).base := by
  have inside := lt_stop_of_live live
  rw [remove, prune_bury_base inside]
  exact base_le_prune { window.dropFront with live := window.live - 1 }

/-! ### A window is known by its end and its live entries -/

theorem Valid.base_le {left right : Window Entry} (rightValid : right.Valid)
    (stop : left.stop = right.stop)
    (live : ∀ position entry, right.entry? position = some entry →
      left.entry? position = some entry) : left.base ≤ right.base := by
  apply Nat.le_of_not_lt
  intro before
  have within := left.base_le_stop
  obtain ⟨front, found⟩ := rightValid.front_live (by omega)
  exact Nat.not_le.mpr before (base_le_of_live (live right.base front found))

theorem Valid.ext {left right : Window Entry} (leftValid : left.Valid) (rightValid : right.Valid)
    (stop : left.stop = right.stop)
    (same : ∀ position, left.entry? position = right.entry? position) : left = right := by
  have base : left.base = right.base := by
    apply Nat.le_antisymm
    · exact rightValid.base_le stop fun position entry found => by
        rw [same]
        exact found
    · exact leftValid.base_le stop.symm fun position entry found => by
        rw [← same]
        exact found
  have size : left.slots.size = right.slots.size := by
    rw [Window.stop, Window.stop, base] at stop
    exact Nat.add_left_cancel stop
  have slots : left.slots = right.slots := by
    apply Array.ext_getElem?
    intro index
    by_cases inside : index < left.slots.size
    · rw [getElem?_slots inside, getElem?_slots (size ▸ inside), same, base]
    · have outside := Nat.le_of_not_lt inside
      rw [Array.getElem?_eq_none outside, Array.getElem?_eq_none (size ▸ outside)]
  have live : left.live = right.live := by
    rw [leftValid.live_counted, rightValid.live_counted, entries, entries, slots]
  cases left
  cases right
  cases base
  cases slots
  cases live
  rfl

end VoteGossip.Log.Window
