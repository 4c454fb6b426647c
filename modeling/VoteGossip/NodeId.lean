import VoteGossip.Text.Base58

/-!
Identities that the transport vouches for.

A node is known by its public key, 32 bytes that this library never looks into. Nodes are ordered
bytewise and shown in base58.
-/

set_option autoImplicit false

namespace VoteGossip

structure NodeId where
  bytes : Vector UInt8 32
  deriving DecidableEq

namespace NodeId

instance : Ord NodeId := ⟨compareOn NodeId.bytes⟩

instance : Std.TransOrd NodeId := inferInstanceAs (Std.TransCmp (compareOn NodeId.bytes))

instance : Std.LawfulEqOrd NodeId where
  eq_of_compare {left right} same := by
    have equal : compare left.bytes right.bytes = .eq := same
    have bytes : left.bytes = right.bytes := Std.compare_eq_iff_eq.mp equal
    cases left
    cases right
    exact congrArg NodeId.mk bytes

instance : ToString NodeId := ⟨fun node => Text.Base58.encode node.bytes.toList⟩

end NodeId

end VoteGossip
