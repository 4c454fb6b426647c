import Std.Data.ExtTreeMap

/-!
What an insertion and a removal do to an ordered map, by equality of its keys: to what it answers,
and to its size.
-/

set_option autoImplicit false

namespace VoteGossip.TreeMap

variable {Key Value : Type} [Ord Key] [Std.TransOrd Key] {map : Std.ExtTreeMap Key Value}
  {key : Key} {value : Value}

section Equality

variable [Std.LawfulEqOrd Key] [DecidableEq Key]

theorem getElem?_insert_eq (map : Std.ExtTreeMap Key Value) (key other : Key) (value : Value) :
    (map.insert key value)[other]? = if other = key then some value else map[other]? := by
  rw [Std.ExtTreeMap.getElem?_insert]
  by_cases same : other = key
  · rw [if_pos same, if_pos (Std.compare_eq_iff_eq.mpr same.symm)]
  · rw [if_neg same, if_neg (fun equal => same (Std.compare_eq_iff_eq.mp equal).symm)]

theorem getElem?_erase_eq (map : Std.ExtTreeMap Key Value) (key other : Key) :
    (map.erase key)[other]? = if other = key then none else map[other]? := by
  rw [Std.ExtTreeMap.getElem?_erase]
  by_cases same : other = key
  · rw [if_pos same, if_pos (Std.compare_eq_iff_eq.mpr same.symm)]
  · rw [if_neg same, if_neg (fun equal => same (Std.compare_eq_iff_eq.mp equal).symm)]

end Equality

theorem size_insert_of_absent (absent : map[key]? = none) :
    (map.insert key value).size = map.size + 1 := by
  have missing : ¬ map.contains key = true := by
    rw [Std.ExtTreeMap.contains_eq_isSome_getElem?, absent]
    exact Bool.false_ne_true
  rw [Std.ExtTreeMap.size_insert]
  exact if_neg missing

theorem size_erase_of_found (found : map[key]? = some value) :
    (map.erase key).size + 1 = map.size := by
  have present : map.contains key = true := by
    rw [Std.ExtTreeMap.contains_eq_isSome_getElem?, found]
    rfl
  have holding : map.size ≠ 0 := by
    intro zero
    rw [Std.ExtTreeMap.eq_empty_iff_size_eq_zero.mpr zero, Std.ExtTreeMap.getElem?_empty] at found
    cases found
  have shrunk : (map.erase key).size = map.size - 1 := by
    rw [Std.ExtTreeMap.size_erase]
    exact if_pos present
  omega

end VoteGossip.TreeMap
