import VoteGossip.Json.Basic

/-!
Booleans and natural numbers in JSON. A row of digits is worth its decimal value, however long it
is, and the reader, which gives up as soon as it has exceeded the bound, gives up on no other. The
numbers up to a bound are the words of one width.
-/

set_option autoImplicit false

namespace VoteGossip.Json

inductive Scalar where
  | flag (value : Bool)
  | number (value : Nat)

inductive Is : Json → Scalar → Prop where
  | flag (value : Bool) : Is (.bool value) (.flag value)
  | number (digits : List Char) :
      Is (.number (.natural digits)) (.number (Nat.ofDigitChars 10 digits 0))

/-- Giving up early changes nothing: further digits never make a value smaller. -/
theorem Number.accumulate_eq (bound value : Nat) (digits : List Char) :
    accumulate bound value digits =
      let total := Nat.ofDigitChars 10 digits value
      if total ≤ bound then some total else none := by
  induction digits generalizing value with
  | nil => simp [accumulate]
  | cons digit rest ih =>
      have grown : value ≤ Nat.ofDigitChars 10 (digit :: rest) value := by
        rw [Nat.ofDigitChars_eq_ofDigitChars_zero]
        have longer : 1 ≤ 10 ^ (digit :: rest).length := Nat.one_le_pow _ _ (by omega)
        exact Nat.le_trans (Nat.le_mul_of_pos_left value longer) (Nat.le_add_right _ _)
      rw [accumulate]
      split
      · rename_i exceeded
        exact (if_neg (Nat.not_le.mpr (Nat.lt_of_lt_of_le exceeded grown))).symm
      · rw [ih, Nat.ofDigitChars_cons, Nat.mul_comm 10 value]

theorem upTo?_eq_some_iff (json : Json) (bound value : Nat) :
    json.upTo? bound = some value ↔ json.Is (.number value) ∧ value ≤ bound := by
  constructor
  · intro read
    cases json with
    | number literal =>
        cases literal with
        | natural digits =>
            change Number.accumulate bound 0 digits = some value at read
            simp only [Number.accumulate_eq] at read
            split at read
            · rename_i within
              cases read
              exact ⟨.number digits, within⟩
            · cases read
        | other literal => cases read
    | _ => cases read
  · rintro ⟨scalar, within⟩
    cases scalar with
    | number digits =>
        change Number.accumulate bound 0 digits = _
        simp only [Number.accumulate_eq]
        exact if_pos within

theorem bool?_eq_some_iff (json : Json) (value : Bool) :
    json.bool? = some value ↔ json.Is (.flag value) := by
  constructor
  · intro read
    cases json with
    | bool flag =>
        cases read
        exact .flag value
    | _ => cases read
  · intro scalar
    cases scalar
    rfl

theorem is_ofNat (value : Nat) : (ofNat value).Is (.number value) := by
  have scalar : (ofNat value).Is (.number (Nat.ofDigitChars 10 (Nat.toDigits 10 value) 0)) :=
    .number (Nat.toDigits 10 value)
  rw [Nat.ofDigitChars_ten_toDigits] at scalar
  exact scalar

/-- The numbers up to the bound, and only they, are the words. -/
structure Width {Word : Type} (bound : Nat) (toNat : Word → Nat) (ofNat : Nat → Word) : Prop where
  within : ∀ word, toNat word ≤ bound
  ofNat_toNat : ∀ word, ofNat (toNat word) = word
  toNat_ofNat : ∀ value, value ≤ bound → toNat (ofNat value) = value

theorem width8 : Width 255 UInt8.toNat Nat.toUInt8 where
  within word := Nat.le_of_lt_succ word.toNat_lt
  ofNat_toNat _word := UInt8.ofNat_toNat
  toNat_ofNat _value within := UInt8.toNat_ofNat_of_lt' (Nat.lt_succ_of_le within)

theorem width16 : Width 65535 UInt16.toNat Nat.toUInt16 where
  within word := Nat.le_of_lt_succ word.toNat_lt
  ofNat_toNat _word := UInt16.ofNat_toNat
  toNat_ofNat _value within := UInt16.toNat_ofNat_of_lt (Nat.lt_succ_of_le within)

theorem width64 : Width (UInt64.size - 1) UInt64.toNat Nat.toUInt64 where
  within word := Nat.le_of_lt_succ word.toNat_lt
  ofNat_toNat _word := UInt64.ofNat_toNat
  toNat_ofNat _value within := UInt64.toNat_ofNat_of_lt' (Nat.lt_succ_of_le within)

namespace Width

variable {Word Record : Type} {bound : Nat} {toNat : Word → Nat} {ofNat : Nat → Word}

theorem assign_iff (width : Width bound toNat ofNat) (set : Word → Record) (json : Json)
    (record : Record) :
    ((json.upTo? bound).map fun value => set (ofNat value)) = some record ↔
      ∃ word, json.Is (.number (toNat word)) ∧ set word = record := by
  simp only [Option.map_eq_some_iff, upTo?_eq_some_iff]
  constructor
  · rintro ⟨value, ⟨scalar, within⟩, same⟩
    refine ⟨ofNat value, ?_, same⟩
    rw [width.toNat_ofNat value within]
    exact scalar
  · rintro ⟨word, scalar, same⟩
    refine ⟨toNat word, ⟨scalar, width.within word⟩, ?_⟩
    rw [width.ofNat_toNat]
    exact same

theorem assign_ofNat (width : Width bound toNat ofNat) (set : Word → Record) (word : Word) :
    (((Json.ofNat (toNat word)).upTo? bound).map fun value => set (ofNat value)) =
      some (set word) :=
  (width.assign_iff set _ (set word)).mpr ⟨word, is_ofNat (toNat word), rfl⟩

end Width

end VoteGossip.Json
