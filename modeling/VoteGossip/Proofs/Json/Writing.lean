import Mathlib.Data.List.Basic
import Mathlib.Tactic.IntervalCases
import VoteGossip.Json.Record
import VoteGossip.Proofs.Json.Grammar

/-!
What is written is grammatical. A number is written in decimal, without a zero in front; an array
is grammatical if its items are; a record is if its values are and its names need no escapes.
-/

set_option autoImplicit false

namespace VoteGossip.Json

namespace Number

theorem toDigits_leads (value : Nat) (positive : 0 < value) :
    ∃ first rest, Nat.toDigits 10 value = first :: rest ∧ first ≠ '0' := by
  induction value using Nat.strong_induction_on with
  | _ value ih =>
      by_cases small : value < 10
      · rw [Nat.toDigits_of_lt_base small]
        refine ⟨value.digitChar, [], rfl, ?_⟩
        interval_cases value <;> decide
      · rw [Nat.toDigits_of_base_le (by omega) (by omega)]
        obtain ⟨first, rest, digits, nonzero⟩ := ih (value / 10) (by omega) (by omega)
        rw [digits]
        exact ⟨first, rest ++ [(value % 10).digitChar], rfl, nonzero⟩

theorem whole_toDigits (value : Nat) : Whole (Nat.toDigits 10 value) := by
  have digits : Digits (Nat.toDigits 10 value) :=
    fun char among => Nat.isDigit_of_mem_toDigits (by omega) (by omega) among
  rcases Nat.eq_zero_or_pos value with rfl | positive
  · exact .zero
  · obtain ⟨first, rest, same, nonzero⟩ := toDigits_leads value positive
    rw [same] at digits ⊢
    exact .row first rest (digits first List.mem_cons_self) nonzero
      fun char among => digits char (List.mem_cons_of_mem first among)

end Number

def written (json : Json) : List Char := json.tokens.flatMap Token.write

def Prints (json : Json) : Prop := Derives (.value json) json.written

theorem Prints.element {json : Json} (prints : json.Prints) :
    Derives (.element json) json.written := by
  have derives : Derives (.element json) ([] ++ (json.written ++ [])) :=
    .element json [] json.written [] nofun prints nofun
  rw [List.append_nil] at derives
  exact derives

theorem Prints.spells {json : Json} (prints : json.Prints) : Spells json json.write := by
  rw [Spells, write, String.toList_ofList]
  exact prints.element

theorem prints_bool (value : Bool) : (bool value).Prints := by
  cases value with
  | false => exact .false
  | true => exact .true

theorem prints_ofNat (value : Nat) : (ofNat value).Prints := by
  have digits : (ofNat value).written = Nat.toDigits 10 value := List.append_nil _
  rw [Prints, digits]
  exact .number _ _ (.natural _ (Number.whole_toDigits value))

theorem items_written (item : Json) (rest : List Json)
    (prints : ∀ json ∈ item :: rest, json.Prints) :
    ∃ chars, (item.tokens ++ furtherItemTokens rest).flatMap Token.write = chars ++ [']'] ∧
      Derives (.items (item :: rest)) chars := by
  have first : Derives (.element item) item.written := (prints item List.mem_cons_self).element
  induction rest generalizing item with
  | nil =>
      refine ⟨item.written, ?_, .lastItem item item.written first⟩
      rw [List.flatMap_append]
      rfl
  | cons next later ih =>
      have others : ∀ json ∈ next :: later, json.Prints :=
        fun json among => prints json (List.mem_cons_of_mem item among)
      obtain ⟨chars, chars_eq, derives⟩ :=
        ih next others (others next List.mem_cons_self).element
      refine ⟨item.written ++ ',' :: chars, ?_, .item item (next :: later) _ _ first derives⟩
      rw [furtherItemTokens, List.flatMap_append, List.flatMap_cons, chars_eq, List.append_assoc]
      rfl

theorem prints_array (items : List Json) (prints : ∀ item ∈ items, item.Prints) :
    (array items).Prints := by
  cases items with
  | nil => exact .emptyArray [] nofun
  | cons item rest =>
      obtain ⟨chars, chars_eq, derives⟩ := items_written item rest prints
      have same : (array (item :: rest)).written = '[' :: (chars ++ [']']) := by
        rw [← chars_eq]
        rfl
      rw [Prints, same]
      exact .array (item :: rest) chars derives

theorem writeChar_of_plain {char : Char} (plain : Plain char) : Text.writeChar char = [char] := by
  obtain ⟨printable, notQuote, notBackslash⟩ := plain
  unfold Text.writeChar
  split
  case h_8 => exact if_neg (Nat.not_lt.mpr printable)
  all_goals first
    | exact absurd rfl notQuote
    | exact absurd rfl notBackslash
    | exact absurd printable (by decide)

theorem key_written (name : String) (plain : AllPlain name.toList) :
    Text.write (Text.ofString name) = '"' :: (name.toList ++ ['"']) := by
  have each : ∀ char ∈ name.toList, Text.writePiece (.char char) = [char] :=
    fun char among => writeChar_of_plain (plain char among)
  rw [Text.write, Text.ofString, List.flatMap_map, List.flatMap_congr each, List.flatMap_singleton']

/-- A field as it is written: its name needs no escapes, and its value is grammatical. -/
structure PrintsField (name : String) (value : Json) : Prop where
  plain : AllPlain name.toList
  prints : value.Prints

theorem PrintsField.member {name : String} {value : Json} (prints : PrintsField name value) :
    Derives (.member (Text.ofString name) value)
      ('"' :: (name.toList ++ '"' :: ':' :: value.written)) :=
  .member _ _ [] _ [] _ nofun (Text.spells_plain _ prints.plain) nofun prints.prints.element

def membersOf (fields : List (String × Json)) : List (Text × Json) :=
  fields.map fun (name, value) => (Text.ofString name, value)

theorem members_written (name : String) (value : Json) (rest : List (String × Json))
    (prints : ∀ other json, (other, json) ∈ (name, value) :: rest → PrintsField other json) :
    ∃ chars,
      (memberTokens (membersOf ((name, value) :: rest))).flatMap Token.write = chars ++ ['\x7d'] ∧
        Derives (.members (membersOf ((name, value) :: rest))) chars := by
  have first := prints name value List.mem_cons_self
  have key := key_written name first.plain
  induction rest generalizing name value with
  | nil =>
      refine ⟨_, ?_, .lastMember _ _ _ first.member⟩
      simp [membersOf, memberTokens, furtherMemberTokens, Token.write, written, key]
  | cons field later ih =>
      obtain ⟨next, json⟩ := field
      have others : ∀ other json', (other, json') ∈ (next, json) :: later →
          PrintsField other json' :=
        fun other json' among => prints other json' (List.mem_cons_of_mem _ among)
      have second := others next json List.mem_cons_self
      obtain ⟨chars, chars_eq, derives⟩ :=
        ih next json others second (key_written next second.plain)
      refine ⟨_, ?_, .further _ _ _ _ _ first.member derives⟩
      have tokens : memberTokens (membersOf ((name, value) :: (next, json) :: later)) =
          .text (Text.ofString name) :: .colon :: (value.tokens ++
            .comma :: memberTokens (membersOf ((next, json) :: later))) := rfl
      rw [tokens]
      simp only [List.flatMap_cons, List.flatMap_append, chars_eq, Token.write, key]
      simp [written]

theorem prints_record (fields : List (String × Json))
    (prints : ∀ name value, (name, value) ∈ fields → PrintsField name value) :
    (Record.toJson fields).Prints := by
  cases fields with
  | nil => exact .emptyObject [] nofun
  | cons field rest =>
      obtain ⟨name, value⟩ := field
      obtain ⟨chars, chars_eq, derives⟩ := members_written name value rest prints
      have same : (Record.toJson ((name, value) :: rest)).written =
          '\x7b' :: (chars ++ ['\x7d']) := by
        rw [← chars_eq]
        rfl
      rw [Prints, same]
      exact .object _ chars derives

end VoteGossip.Json
