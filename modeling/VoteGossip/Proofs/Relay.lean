import VoteGossip.Proofs.Acceptance
import VoteGossip.Proofs.RoundTrip
import VoteGossip.Proofs.Wire.Economy

/-!
Passing a message on costs no more than taking it in. However a frame was spelled, the frame that
is written for its message is not longer, says the same, and is written again as it is.
-/

set_option autoImplicit false

namespace VoteGossip

namespace Message

theorem length_encode_le {envelope : Wire.Envelope} {message : Message}
    (read : ofEnvelope envelope = .ok message) :
    message.encode.length ≤ envelope.encode.length := by
  obtain ⟨supported, typed, message_eq⟩ := ofEnvelope_eq_ok_iff.mp read
  obtain ⟨messageType, payload, version⟩ := envelope
  simp only at supported typed message_eq
  rw [supported]
  by_cases known : messageType = 1
  · rw [if_pos known] at message_eq
    rw [message_eq, known]
    exact Nat.le_refl _
  · rw [if_neg known] at message_eq
    rw [message_eq, encode, Wire.Envelope.length_encode, Wire.Envelope.length_encode]
    exact Nat.add_le_add_left (Nat.add_le_add_right (Nat.zero_le _) _) _

theorem ne_unknown_of_ofEnvelope {envelope : Wire.Envelope} {message : Message}
    (read : ofEnvelope envelope = .ok message) :
    message ≠ unknown 0 ∧ message ≠ unknown txType := by
  obtain ⟨_, typed, message_eq⟩ := ofEnvelope_eq_ok_iff.mp read
  by_cases known : envelope.messageType = 1
  · rw [if_pos known] at message_eq
    rw [message_eq]
    exact ⟨nofun, nofun⟩
  · rw [if_neg known] at message_eq
    rw [message_eq]
    exact ⟨fun same => typed (unknown.inj same), fun same => known (unknown.inj same)⟩

end Message

namespace Codec

variable {codec : Codec} {frame : List UInt8} {message : Message}

/-- The frame in which a node passes on what it took in. -/
def respell (codec : Codec) (frame : List UInt8) : Except DecodeError (List UInt8) :=
  (codec.decode frame).map Message.encode

theorem respell_eq (accepted : codec.decode frame = .ok message) :
    codec.respell frame = .ok message.encode := by
  rw [respell, accepted]
  rfl

theorem length_encode_le (accepted : codec.decode frame = .ok message) :
    message.encode.length ≤ frame.length := by
  obtain ⟨_, entries, row, means⟩ := decode_eq_ok_iff.mp accepted
  have shorter := Message.length_encode_le (Message.means_iff.mpr means)
  exact Nat.le_trans shorter row.length_encode_le

theorem decode_encode_of_decode (accepted : codec.decode frame = .ok message) :
    codec.decode message.encode = .ok message := by
  obtain ⟨fits, entries, _, means⟩ := decode_eq_ok_iff.mp accepted
  have again := Nat.le_trans (length_encode_le accepted) fits
  rw [Message.decode_encode again, Message.ofEnvelope_envelope_iff]
  exact Message.ne_unknown_of_ofEnvelope (Message.means_iff.mpr means)

structure Relays (codec : Codec) (frame : List UInt8) (message : Message) : Prop where
  length_le : message.encode.length ≤ frame.length
  heard : codec.decode message.encode = .ok message
  /-- Whatever its limit is, no codec reads the message from a shorter frame. -/
  least : ∀ (other : Codec) (spelled : List UInt8), other.decode spelled = .ok message →
    message.encode.length ≤ spelled.length
  respelled : codec.respell frame = .ok message.encode
  settled : codec.respell message.encode = .ok message.encode
  relayed : ∀ vote, message = .tx vote →
    codec.decode (Message.encodePayload vote.payload) = .ok (.tx vote)

/-- Whatever frame a message came in, it goes out in the shortest frame that says it. -/
theorem relays_shortest (accepted : codec.decode frame = .ok message) :
    codec.Relays frame message := by
  have same := decode_encode_of_decode accepted
  refine ⟨length_encode_le accepted, same, ?_, respell_eq accepted, respell_eq same, ?_⟩
  · intro other spelled read
    exact length_encode_le read
  · intro vote message_eq
    rw [message_eq] at same
    exact same

/-- A transaction in a frame with overlong numbers, a type above 2^32, a field and a group without
a meaning, and a payload that is not heard. -/
theorem relays_wasteful :
    let codec : Codec := { maxFrame := 27 }
    let frame : List UInt8 := [0x88, 0x00, 0x81, 0x80, 0x80, 0x80, 0x10, 0x12, 0x01, 0x62, 0x20,
      0x05, 0x2b, 0x08, 0x07, 0x2c, 0x12, 0x81, 0x80, 0x00, 0x61, 0x98, 0x80, 0x00, 0x81, 0x80,
      0x00]
    codec.decode frame = .ok (.tx ⟨[0x61]⟩) ∧
      (Message.tx ⟨[0x61]⟩).encode = [0x08, 0x01, 0x12, 0x01, 0x61, 0x18, 0x01] ∧
      codec.Relays frame (.tx ⟨[0x61]⟩) := by
  intro codec frame
  have accepted : codec.decode frame = .ok (.tx ⟨[0x61]⟩) := by decide +kernel
  exact ⟨accepted, by decide +kernel, relays_shortest accepted⟩

end Codec

end VoteGossip
