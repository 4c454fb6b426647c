import VoteGossip.Digest.Blake3
import VoteGossip.Text.Base58

/-!
Transactions and their names.

A transaction is an opaque payload, here a vote. It is named by the BLAKE3 digest of the payload,
so equal payloads are the same transaction wherever they came from.
-/

set_option autoImplicit false

namespace VoteGossip

structure Tx where
  payload : List UInt8
  deriving DecidableEq

structure TxId where
  bytes : Vector UInt8 32
  deriving DecidableEq

namespace TxId

instance : Ord TxId := ⟨compareOn TxId.bytes⟩

instance : Std.TransOrd TxId := inferInstanceAs (Std.TransCmp (compareOn TxId.bytes))

instance : Std.LawfulEqOrd TxId where
  eq_of_compare {left right} same := by
    have equal : compare left.bytes right.bytes = .eq := same
    have bytes : left.bytes = right.bytes := Std.compare_eq_iff_eq.mp equal
    cases left
    cases right
    exact congrArg TxId.mk bytes

instance : ToString TxId := ⟨fun id => Text.Base58.encode id.bytes.toList⟩

end TxId

namespace Tx

def size (tx : Tx) : Nat := tx.payload.length

def isEmpty (tx : Tx) : Bool := tx.payload.isEmpty

def id (tx : Tx) : TxId := ⟨Digest.Blake3.hash tx.payload⟩

end Tx

end VoteGossip
