import Std.Data.ExtTreeSet

/-!
Compact peer identifiers.

A connected peer is denoted by a 16-bit number, so that an entry of the pool can remember who
holds it at two bytes a peer. Zero denotes nobody: it is the provenance of a transaction that was
submitted locally and is never assigned to a peer.
-/

set_option autoImplicit false

namespace VoteGossip

structure PeerId where
  number : UInt16
  deriving DecidableEq

namespace PeerId

def unknown : PeerId := ⟨0⟩

def isUnknown (peer : PeerId) : Bool := peer.number == 0

instance : Ord PeerId := ⟨compareOn PeerId.number⟩

instance : Std.TransOrd PeerId := inferInstanceAs (Std.TransCmp (compareOn PeerId.number))

instance : Std.LawfulEqOrd PeerId where
  eq_of_compare {left right} same := by
    have equal : compare left.number right.number = .eq := same
    have numbers : left.number = right.number := Std.compare_eq_iff_eq.mp equal
    cases left
    cases right
    exact congrArg PeerId.mk numbers

instance : ToString PeerId := ⟨fun peer => toString peer.number.toNat⟩

def described (peer : PeerId) : String := s!"PeerId({peer})"

end PeerId

/-- A set of peers. Equal contents are equal sets. -/
abbrev PeerSet := Std.ExtTreeSet PeerId

def PeerSet.first? (peers : PeerSet) : Option PeerId := peers.atIdx? 0

theorem PeerSet.first?_eq_min? (peers : PeerSet) : peers.first? = peers.min? := by
  rw [Std.ExtTreeSet.min?_eq_head?_toList]
  obtain ⟨⟨entries⟩⟩ := peers
  induction entries using Std.ExtDTreeMap.inductionOn with
  | _ entries =>
      change entries.inner.keyAtIdx? 0 = entries.inner.keys.head?
      rw [Std.DTreeMap.Internal.Impl.keyAtIdx?_eq_getElem? entries.wf.balanced,
        Std.DTreeMap.Internal.Impl.keys_eq_keys, Std.Internal.List.keys_eq_map,
        List.head?_map, List.head?_eq_getElem?]

end VoteGossip
