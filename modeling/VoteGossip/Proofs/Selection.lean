import Mathlib.Data.List.Basic
import Mathlib.Data.List.Induction

/-!
The elements of a list that pass a test, and the places that they have among each other.
-/

set_option autoImplicit false

namespace VoteGossip.Selection

variable {α : Type} {selected : α → Bool} {items : List α} {index : Nat} {old new : α}

def place (selected : α → Bool) (items : List α) (index : Nat) : Nat :=
  (items.take index).countP selected

def place? (selected : α → Bool) (items : List α) (index : Nat) : Option Nat :=
  match items[index]? with
  | none => none
  | some item => if selected item then some (place selected items index) else none

theorem place_length (selected : α → Bool) (items : List α) :
    place selected items items.length = (items.filter selected).length := by
  rw [place, List.take_length, List.countP_eq_length_filter]

theorem place_append (within : index ≤ items.length) (more : List α) :
    place selected (items ++ more) index = place selected items index := by
  rw [place, List.take_append_of_le_length within, place]

theorem place_set (found : items[index]? = some old) (same : selected new = selected old)
    (other : Nat) : place selected (items.set index new) other = place selected items other := by
  unfold place
  induction items generalizing index other with
  | nil => rfl
  | cons head tail ih =>
      cases other with
      | zero => rfl
      | succ other =>
          cases index with
          | zero =>
              cases found
              rw [List.set_cons_zero, List.take_succ_cons, List.take_succ_cons, List.countP_cons,
                List.countP_cons, same]
          | succ index =>
              rw [List.set_cons_succ, List.take_succ_cons, List.take_succ_cons, List.countP_cons,
                List.countP_cons, ih found other]

theorem getElem?_filter (found : items[index]? = some old) (passes : selected old = true) :
    (items.filter selected)[place selected items index]? = some old := by
  unfold place
  induction items generalizing index with
  | nil => cases found
  | cons head tail ih =>
      cases index with
      | zero =>
          cases found
          rw [List.filter_cons_of_pos passes]
          rfl
      | succ index =>
          have rest := ih found
          rw [List.take_succ_cons, List.countP_cons]
          by_cases first : selected head = true
          · rw [List.filter_cons_of_pos first, if_pos first, List.getElem?_cons_succ, rest]
          · rw [List.filter_cons_of_neg first, if_neg first, Nat.add_zero, rest]

theorem filter_set_of_pos (found : items[index]? = some old) (passes : selected old = true)
    (still : selected new = true) :
    (items.set index new).filter selected =
      (items.filter selected).set (place selected items index) new := by
  unfold place
  induction items generalizing index with
  | nil => cases found
  | cons head tail ih =>
      cases index with
      | zero =>
          cases found
          rw [List.set_cons_zero, List.filter_cons_of_pos still, List.filter_cons_of_pos passes]
          rfl
      | succ index =>
          have rest := ih found
          rw [List.set_cons_succ, List.take_succ_cons, List.countP_cons]
          by_cases first : selected head = true
          · rw [List.filter_cons_of_pos first, List.filter_cons_of_pos first, if_pos first,
              List.set_cons_succ, rest]
          · rw [List.filter_cons_of_neg first, List.filter_cons_of_neg first, if_neg first,
              Nat.add_zero, rest]

theorem filter_set_of_neg (found : items[index]? = some old) (fails : selected old = false)
    (still : selected new = false) :
    (items.set index new).filter selected = items.filter selected := by
  induction items generalizing index with
  | nil => rfl
  | cons head tail ih =>
      cases index with
      | zero =>
          cases found
          rw [List.set_cons_zero, List.filter_cons_of_neg (Bool.eq_false_iff.mp still),
            List.filter_cons_of_neg (Bool.eq_false_iff.mp fails)]
      | succ index =>
          rw [List.set_cons_succ, List.filter_cons, List.filter_cons, ih found]

theorem place?_congr {test : α → Bool} (same : ∀ item ∈ items, test item = selected item)
    (index : Nat) : place? test items index = place? selected items index := by
  have places : place test items index = place selected items index :=
    List.countP_congr fun item member => by rw [same item (List.mem_of_mem_take member)]
  unfold place?
  cases found : items[index]? with
  | none => rfl
  | some item => simp only [places, same item (List.mem_of_getElem? found)]

theorem place?_append (within : index < items.length) (more : List α) :
    place? selected (items ++ more) index = place? selected items index := by
  unfold place?
  rw [List.getElem?_append_left within, place_append (Nat.le_of_lt within)]

theorem place?_length (selected : α → Bool) (items : List α) (last : α) :
    place? selected (items ++ [last]) items.length =
      if selected last then some (items.filter selected).length else none := by
  unfold place?
  rw [List.getElem?_concat_length, place_append (Nat.le_refl _), place_length]

theorem place?_set (found : items[index]? = some old) (same : selected new = selected old)
    (other : Nat) : place? selected (items.set index new) other = place? selected items other := by
  unfold place?
  rw [place_set found same]
  by_cases here : index = other
  · subst here
    have within := (List.getElem?_eq_some_iff.mp found).1
    rw [List.getElem?_set_self within, found]
    simp only [same]
  · rw [List.getElem?_set_ne here]

/-- The places of the selected elements, in order, are all the places there are. -/
theorem filterMap_place? (selected : α → Bool) (items : List α) :
    (List.range items.length).filterMap (place? selected items) =
      List.range (items.filter selected).length := by
  induction items using List.reverseRecOn with
  | nil => rfl
  | append_singleton earlier last ih =>
      have before : (List.range earlier.length).filterMap (place? selected (earlier ++ [last])) =
          (List.range earlier.length).filterMap (place? selected earlier) :=
        List.filterMap_congr fun index member => place?_append (List.mem_range.mp member) [last]
      rw [List.length_append, List.length_singleton, List.range_succ, List.filterMap_append, before,
        ih, List.filterMap_cons, place?_length, List.filter_append, List.filterMap_nil]
      by_cases passes : selected last = true
      · rw [if_pos passes, List.filter_cons_of_pos passes, List.filter_nil, List.length_append,
          List.length_singleton, List.range_succ]
      · rw [if_neg passes, List.filter_cons_of_neg passes, List.filter_nil, List.append_nil,
          List.append_nil]

end VoteGossip.Selection
