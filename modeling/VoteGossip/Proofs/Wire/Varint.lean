import Mathlib.Algebra.Group.Nat.Defs
import VoteGossip.Wire.Varint

/-!
A number of variable length takes as many bytes as it has groups of seven bits. It has longer
spellings too, as groups that add nothing may follow the others. A reader takes exactly the
spellings, whatever stands behind them, and what is written is one of them.
-/

set_option autoImplicit false

namespace VoteGossip.Wire.Varint

theorem length_encode (number : Nat) : (encode number).length = encodedLength number := by
  induction number using Nat.strongRecOn with
  | ind number ih =>
      rw [encode, encodedLength]
      by_cases small : number < 128
      · rw [if_pos small, if_pos small]
        rfl
      · have less : number / 128 < number := by omega
        rw [if_neg small, if_neg small, List.length_cons, ih (number / 128) less]

theorem encodedLength_pos (number : Nat) : 0 < encodedLength number := by
  rw [encodedLength]
  split
  · exact Nat.one_pos
  · exact Nat.succ_pos _

theorem toNat_toUInt8 {number : Nat} (small : number < 256) : number.toUInt8.toNat = number :=
  UInt8.toNat_ofNat_of_lt' small

theorem encodedLength_le_iff {number count : Nat} (positive : 0 < count) :
    encodedLength number ≤ count ↔ number < 128 ^ count := by
  induction count generalizing number with
  | zero => exact absurd positive (Nat.lt_irrefl 0)
  | succ count ih =>
      rw [encodedLength, Nat.pow_succ]
      have room : 0 < 128 ^ count := Nat.pow_pos (by decide)
      by_cases small : number < 128
      · rw [if_pos small]
        constructor
        · intro _fits
          omega
        · intro _less
          omega
      · rw [if_neg small]
        cases count with
        | zero =>
            have more := encodedLength_pos (number / 128)
            constructor
            · intro fits
              omega
            · intro less
              omega
        | succ count =>
            have inner : encodedLength (number / 128) ≤ count + 1 ↔
                number / 128 < 128 ^ (count + 1) := ih (Nat.succ_pos count)
            rw [Nat.succ_le_succ_iff, inner, Nat.div_lt_iff_lt_mul (by decide)]

inductive Groups : List UInt8 → Nat → Prop where
  | last (byte : UInt8) (unmarked : byte < 128) : Groups [byte] byte.toNat
  | more (byte : UInt8) (bytes : List UInt8) (high : Nat) (marked : ¬ byte < 128)
      (follow : Groups bytes high) : Groups (byte :: bytes) (byte.toNat % 128 + 128 * high)

/-- At most ten bytes that say a number of 64 bits. -/
structure Spells (bytes : List UInt8) (number : Nat) : Prop where
  groups : Groups bytes number
  length_le : bytes.length ≤ 10
  small : number < UInt64.size

theorem Groups.length_pos {bytes : List UInt8} {number : Nat} (groups : Groups bytes number) :
    0 < bytes.length := by
  cases groups with
  | last byte unmarked => exact Nat.one_pos
  | more byte bytes high marked follow => exact Nat.succ_pos _

theorem toNat_lt_of_unmarked {byte : UInt8} (unmarked : byte < 128) : byte.toNat < 128 :=
  UInt8.lt_iff_toNat_lt.mp unmarked

theorem decodeUpTo_of_groups {bytes : List UInt8} {number : Nat} (groups : Groups bytes number)
    {more : Nat} (fits : bytes.length ≤ more + 1) (small : number < 2 * 128 ^ more)
    (rest : List UInt8) : decodeUpTo more (bytes ++ rest) = some (number, rest) := by
  induction groups generalizing more with
  | last byte unmarked =>
      cases more with
      | zero =>
          have bit : byte ≤ 1 := by
            rw [UInt8.le_iff_toNat_le]
            exact Nat.le_of_lt_succ small
          rw [List.singleton_append, decodeUpTo, if_pos bit]
      | succ more => rw [List.singleton_append, decodeUpTo, if_pos unmarked]
  | more byte bytes high marked follow ih =>
      rw [List.length_cons] at fits
      have positive := follow.length_pos
      cases more with
      | zero => omega
      | succ more =>
          have highSmall : high < 2 * 128 ^ more := by
            rw [Nat.pow_succ] at small
            omega
          rw [List.cons_append, decodeUpTo, if_neg marked, ih (by omega) highSmall]

theorem groups_of_decodeUpTo {more : Nat} {bytes rest : List UInt8} {number : Nat}
    (decoded : decodeUpTo more bytes = some (number, rest)) :
    ∃ front, bytes = front ++ rest ∧ Groups front number ∧ front.length ≤ more + 1 ∧
      number < 2 * 128 ^ more := by
  induction more generalizing bytes number with
  | zero =>
      cases bytes with
      | nil => cases decoded
      | cons byte tail =>
          rw [decodeUpTo] at decoded
          split at decoded
          · rename_i bit
            cases decoded
            -- The last byte that is allowed holds one bit only.
            have atMost : byte.toNat ≤ 1 := UInt8.le_iff_toNat_le.mp bit
            have unmarked : byte < 128 := by
              rw [UInt8.lt_iff_toNat_lt]
              exact Nat.lt_of_le_of_lt atMost (by decide)
            exact ⟨[byte], rfl, .last byte unmarked, Nat.le_refl _, Nat.lt_succ_of_le atMost⟩
          · cases decoded
  | succ more ih =>
      have room : 0 < 128 ^ more := Nat.pow_pos (by decide)
      cases bytes with
      | nil => cases decoded
      | cons byte tail =>
          rw [decodeUpTo] at decoded
          split at decoded
          · rename_i unmarked
            cases decoded
            have below := toNat_lt_of_unmarked unmarked
            refine ⟨[byte], rfl, .last byte unmarked, Nat.le_add_left 1 _, ?_⟩
            rw [Nat.pow_succ]
            omega
          · rename_i marked
            cases inner : decodeUpTo more tail with
            | none =>
                rw [inner] at decoded
                cases decoded
            | some pair =>
                obtain ⟨high, remaining⟩ := pair
                rw [inner] at decoded
                cases decoded
                obtain ⟨front, rfl, groups, fits, small⟩ := ih inner
                refine ⟨byte :: front, rfl, .more byte front high marked groups,
                  Nat.succ_le_succ fits, ?_⟩
                rw [Nat.pow_succ]
                omega

theorem Groups.lt_pow {bytes : List UInt8} {number : Nat} (groups : Groups bytes number) :
    number < 128 ^ bytes.length := by
  induction groups with
  | last byte unmarked => exact toNat_lt_of_unmarked unmarked
  | more byte bytes high marked follow ih =>
      rw [List.length_cons, Nat.pow_succ]
      omega

/-- No spelling is shorter than the one that is written. -/
theorem Groups.encodedLength_le {bytes : List UInt8} {number : Nat}
    (groups : Groups bytes number) : encodedLength number ≤ bytes.length :=
  (encodedLength_le_iff groups.length_pos).mpr groups.lt_pow

theorem encodedLength_mono {low high : Nat} (le : low ≤ high) :
    encodedLength low ≤ encodedLength high := by
  have room : high < 128 ^ encodedLength high :=
    (encodedLength_le_iff (encodedLength_pos high)).mp (Nat.le_refl _)
  exact (encodedLength_le_iff (encodedLength_pos high)).mpr (Nat.lt_of_le_of_lt le room)

theorem decode?_of_spells {bytes : List UInt8} {number : Nat} (spells : Spells bytes number)
    (rest : List UInt8) : decode? (bytes ++ rest) = some (number, rest) :=
  decodeUpTo_of_groups spells.groups spells.length_le spells.small rest

theorem spells_of_decode? {bytes rest : List UInt8} {number : Nat}
    (decoded : decode? bytes = some (number, rest)) :
    ∃ front, bytes = front ++ rest ∧ Spells front number := by
  obtain ⟨front, split, groups, fits, small⟩ := groups_of_decodeUpTo decoded
  exact ⟨front, split, groups, fits, small⟩

theorem groups_encode (number : Nat) : Groups (encode number) number := by
  induction number using Nat.strongRecOn with
  | ind number ih =>
      rw [encode]
      by_cases short : number < 128
      · have byte : number.toUInt8.toNat = number := toNat_toUInt8 (by omega)
        have unmarked : number.toUInt8 < 128 := by
          rw [UInt8.lt_iff_toNat_lt, byte]
          exact short
        have groups := Groups.last number.toUInt8 unmarked
        rw [byte] at groups
        rw [if_pos short]
        exact groups
      · have byte : (number % 128 + 128).toUInt8.toNat = number % 128 + 128 :=
          toNat_toUInt8 (by omega)
        have marked : ¬ (number % 128 + 128).toUInt8 < 128 := by
          rw [UInt8.lt_iff_toNat_lt, byte]
          exact Nat.not_lt.mpr (Nat.le_add_left 128 _)
        have groups := Groups.more _ _ _ marked (ih (number / 128) (by omega))
        have same : (number % 128 + 128) % 128 + 128 * (number / 128) = number := by omega
        rw [byte, same] at groups
        rw [if_neg short]
        exact groups

theorem spells_encode {number : Nat} (small : number < UInt64.size) :
    Spells (encode number) number where
  groups := groups_encode number
  length_le := by
    rw [length_encode, encodedLength_le_iff (by decide)]
    exact Nat.lt_of_lt_of_le small (by decide)
  small := small

end VoteGossip.Wire.Varint
