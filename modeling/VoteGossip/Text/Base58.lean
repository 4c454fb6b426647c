/-!
Base58 text of a byte string, with the Bitcoin alphabet and no checksum.

The bytes are read as one big-endian number and written in base 58; since a number does not show
its leading zeros, each leading zero byte is written as one `1` in front.
-/

set_option autoImplicit false

namespace VoteGossip.Text.Base58

/-- The digits of base 58 in rising order: no `0`, `O`, `I` or `l`. -/
def alphabet : List Char :=
  "123456789ABCDEFGHJKLMNPQRSTUVWXYZabcdefghijkmnopqrstuvwxyz".toList

def digit (value : Nat) : Char :=
  alphabet.getD value '1'

def value (bytes : List UInt8) : Nat :=
  bytes.foldl (fun total byte => total * 256 + byte.toNat) 0

/-- Puts the digits of `number` in front of `rest`; zero has none. -/
def prependDigits (number : Nat) (rest : List Char) : List Char :=
  if number = 0 then rest
  else prependDigits (number / 58) (digit (number % 58) :: rest)
termination_by number
decreasing_by omega

def encode (bytes : List UInt8) : String :=
  let zeros := bytes.takeWhile (· == 0)
  String.ofList (zeros.map (fun _ => '1') ++ prependDigits (value bytes) [])

end VoteGossip.Text.Base58
