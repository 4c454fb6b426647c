/-!
Numbers of variable length.

A number is written in groups of seven bits, the lowest first, and every byte but the last has its
high bit set. A reader takes at most ten bytes, of which the tenth may hold one bit only, so what
it reads is below 2^64. It also takes forms that are longer than they need to be.
-/

set_option autoImplicit false

namespace VoteGossip.Wire.Varint

def encode (number : Nat) : List UInt8 :=
  if number < 128 then [number.toUInt8]
  else (number % 128 + 128).toUInt8 :: encode (number / 128)
termination_by number
decreasing_by omega

def encodedLength (number : Nat) : Nat :=
  if number < 128 then 1 else encodedLength (number / 128) + 1
termination_by number
decreasing_by omega

/-- Reads one byte and, if it says so, up to `more` further ones. -/
def decodeUpTo : Nat → List UInt8 → Option (Nat × List UInt8)
  | _, [] => none
  | 0, byte :: rest => if byte ≤ 1 then some (byte.toNat, rest) else none
  | more + 1, byte :: rest =>
      if byte < 128 then some (byte.toNat, rest)
      else
        match decodeUpTo more rest with
        | some (high, rest) => some (byte.toNat % 128 + 128 * high, rest)
        | none => none

def decode? (bytes : List UInt8) : Option (Nat × List UInt8) := decodeUpTo 9 bytes

theorem decodeUpTo_length {more : Nat} {bytes rest : List UInt8} {number : Nat}
    (decoded : decodeUpTo more bytes = some (number, rest)) : rest.length < bytes.length := by
  induction more generalizing bytes rest number with
  | zero =>
      cases bytes with
      | nil => simp [decodeUpTo] at decoded
      | cons byte tail =>
          simp only [decodeUpTo, Option.ite_none_right_eq_some, Option.some.injEq,
            Prod.mk.injEq] at decoded
          simp [← decoded.2.2]
  | succ more ih =>
      cases bytes with
      | nil => simp [decodeUpTo] at decoded
      | cons byte tail =>
          simp only [decodeUpTo] at decoded
          split at decoded
          · cases decoded
            simp
          · cases inner : decodeUpTo more tail with
            | none => simp [inner] at decoded
            | some pair =>
                obtain ⟨high, remaining⟩ := pair
                simp only [inner, Option.some.injEq, Prod.mk.injEq] at decoded
                have shorter : remaining.length < tail.length := ih inner
                simp only [← decoded.2, List.length_cons]
                omega

theorem decode?_length {bytes rest : List UInt8} {number : Nat}
    (decoded : decode? bytes = some (number, rest)) : rest.length < bytes.length :=
  decodeUpTo_length decoded

end VoteGossip.Wire.Varint
