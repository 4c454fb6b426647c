import VoteGossip.Json.Record
import VoteGossip.NodeId
import VoteGossip.PeerId
import VoteGossip.Tx

/-!
Identities and transactions in JSON.

A peer identifier is its number, a transaction the array of its bytes, and the name of a
transaction an array of exactly 32 bytes. A node is a record with the one field `bytes`, which has
to be given.
-/

set_option autoImplicit false

namespace VoteGossip

namespace Json

def ofBytes (bytes : List UInt8) : Json :=
  .array (bytes.map fun byte => ofNat byte.toNat)

def byte? (json : Json) : Option UInt8 := (json.upTo? 255).map Nat.toUInt8

def bytes? : Json → Option (List UInt8)
  | .array items => items.mapM byte?
  | _ => none

def bytes32? (json : Json) : Option (Vector UInt8 32) :=
  match json.bytes? with
  | none => none
  | some bytes =>
      if size : bytes.length = 32 then some ⟨bytes.toArray, by simpa using size⟩ else none

end Json

namespace PeerId

def toJson (peer : PeerId) : Json := .ofNat peer.number.toNat

def ofJson? (json : Json) : Option PeerId :=
  (json.upTo? 65535).map fun number => ⟨number.toUInt16⟩

end PeerId

namespace Tx

def toJson (tx : Tx) : Json := .ofBytes tx.payload

def ofJson? (json : Json) : Option Tx := json.bytes?.map Tx.mk

end Tx

namespace TxId

def toJson (id : TxId) : Json := .ofBytes id.bytes.toList

def ofJson? (json : Json) : Option TxId := json.bytes32?.map TxId.mk

end TxId

namespace NodeId

/-- The fields of a node, read into a place that is empty as long as they are not given. -/
def fields : List (Json.Field (Option NodeId)) :=
  [{ name := "bytes", assign := fun json _ => json.bytes32?.map fun bytes => some ⟨bytes⟩ }]

def toJson (node : NodeId) : Json :=
  Json.Record.toJson [("bytes", .ofBytes node.bytes.toList)]

def ofJson? (json : Json) : Option NodeId :=
  match Json.Record.ofJson? fields none json with
  | some (some node) => some node
  | _ => none

end NodeId

end VoteGossip
