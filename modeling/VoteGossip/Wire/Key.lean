import VoteGossip.Wire.Varint

/-!
Keys of fields, and what can be wrong with a string of fields.

A field opens with a key: one number that holds the tag of the field and, in its three lowest bits,
how the value is written.
-/

set_option autoImplicit false

namespace VoteGossip.Wire

inductive WireType where
  | varint
  | fixed64
  | delimited
  | groupStart
  | groupEnd
  | fixed32
  deriving DecidableEq

namespace WireType

def ofCode? : Nat → Option WireType
  | 0 => some varint
  | 1 => some fixed64
  | 2 => some delimited
  | 3 => some groupStart
  | 4 => some groupEnd
  | 5 => some fixed32
  | _ => none

def code : WireType → Nat
  | varint => 0
  | fixed64 => 1
  | delimited => 2
  | groupStart => 3
  | groupEnd => 4
  | fixed32 => 5

def name : WireType → String
  | varint => "Varint"
  | fixed64 => "SixtyFourBit"
  | delimited => "LengthDelimited"
  | groupStart => "StartGroup"
  | groupEnd => "EndGroup"
  | fixed32 => "ThirtyTwoBit"

end WireType

inductive Fault where
  | badVarint
  | badKey (number : Nat)
  | badWireType (code : Nat)
  | zeroTag
  /-- A known field is written in another way than its own. -/
  | mismatch (found expected : WireType)
  | underflow
  | tooDeep
  /-- A group ends that is not the innermost open one. -/
  | strayGroupEnd
  deriving DecidableEq

namespace Fault

def reason : Fault → String
  | badVarint => "invalid varint"
  | badKey number => s!"invalid key value: {number}"
  | badWireType code => s!"invalid wire type value: {code}"
  | zeroTag => "invalid tag value: 0"
  | mismatch found expected =>
      s!"invalid wire type: {found.name} (expected {expected.name})"
  | underflow => "buffer underflow"
  | tooDeep => "recursion limit reached"
  | strayGroupEnd => "unexpected end group tag"

end Fault

structure Key where
  tag : Nat
  wireType : WireType
  deriving DecidableEq

namespace Key

def number (key : Key) : Nat := key.tag * 8 + key.wireType.code

def encode (key : Key) : List UInt8 := Varint.encode key.number

def decode (bytes : List UInt8) : Except Fault (Key × List UInt8) :=
  match Varint.decode? bytes with
  | none => .error .badVarint
  | some (number, rest) =>
      if UInt32.size ≤ number then .error (.badKey number)
      else
        match WireType.ofCode? (number % 8) with
        | none => .error (.badWireType (number % 8))
        | some wireType =>
            if number / 8 = 0 then .error .zeroTag
            else .ok ({ tag := number / 8, wireType }, rest)

theorem decode_length {bytes rest : List UInt8} {key : Key}
    (decoded : decode bytes = .ok (key, rest)) : rest.length < bytes.length := by
  unfold decode at decoded
  cases read : Varint.decode? bytes with
  | none => simp [read] at decoded
  | some pair =>
      obtain ⟨number, remaining⟩ := pair
      have shorter : remaining.length < bytes.length := Varint.decode?_length read
      simp only [read] at decoded
      split at decoded
      · cases decoded
      · split at decoded
        · cases decoded
        · split at decoded
          · cases decoded
          · cases decoded
            exact shorter

end Key

end VoteGossip.Wire
