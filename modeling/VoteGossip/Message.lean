import VoteGossip.Limits
import VoteGossip.Tx
import VoteGossip.Wire.Envelope

/-!
Messages between nodes and the frames they travel in.

A frame is one envelope. A message of a type that this node does not know is still a message: its
type is kept and its payload is not. A frame is refused if it is too long, which is decided before
its content is looked at, if it is no envelope, if its version is not supported, or if it names no
type.
-/

set_option autoImplicit false

namespace VoteGossip

inductive Message where
  | tx (vote : Tx)
  | unknown (messageType : UInt32)
  deriving DecidableEq

inductive DecodeError where
  | tooLarge (size limit : Nat)
  | unrecognized (reason : String)
  deriving DecidableEq

namespace DecodeError

def message : DecodeError → String
  | tooLarge size limit => s!"msg exceeds max size ({size} > {limit})"
  | unrecognized reason => s!"unrecognized message: {reason}"

instance : ToString DecodeError := ⟨message⟩

end DecodeError

namespace Message

def version : UInt32 := 1

def txType : UInt32 := 1

def kind : Message → String
  | tx _ => "Tx"
  | unknown _ => "Unknown"

instance : ToString Message where
  toString
    | tx vote => s!"[TxMessage {vote.id}]"
    | unknown messageType => s!"[Unknown type {messageType.toNat}]"

def envelope : Message → Wire.Envelope
  | tx vote => { messageType := txType, payload := vote.payload, version }
  | unknown messageType => { messageType, version }

/-- The frame of a message. Its length is not checked here. -/
def encode (message : Message) : List UInt8 := message.envelope.encode

def encodePayload (payload : List UInt8) : List UInt8 :=
  { messageType := txType, payload, version : Wire.Envelope }.encode

def ofEnvelope (envelope : Wire.Envelope) : Except DecodeError Message :=
  if envelope.version = 0 ∨ version < envelope.version then
    let found := envelope.version.toNat
    let newest := version.toNat
    .error (.unrecognized s!"unsupported wire version: {found} (max supported: {newest})")
  else if envelope.messageType = 0 then .error (.unrecognized "missing message type")
  else if envelope.messageType = txType then .ok (tx ⟨envelope.payload⟩)
  else .ok (unknown envelope.messageType)

end Message

structure Codec where
  maxFrame : UInt64 := Limits.frameBytes
  deriving DecidableEq

namespace Codec

def decode (codec : Codec) (frame : List UInt8) : Except DecodeError Message :=
  let limit := codec.maxFrame.toNat
  if limit < frame.length then .error (.tooLarge frame.length limit)
  else
    match Wire.Envelope.decode frame with
    | .error flaw => .error (.unrecognized s!"invalid envelope: {flaw.message}")
    | .ok envelope => Message.ofEnvelope envelope

end Codec

end VoteGossip
