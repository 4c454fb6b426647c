import VoteGossip.Message
import VoteGossip.Proofs.Wire.Envelope

/-!
Frames of transactions: how long they are, and that a codec gives the transaction back.

The envelope costs five bytes and the length prefix of the payload, which grows by a byte for
every seven bits of the length. Only the frame of an empty payload is shorter: its payload is left
out together with its prefix.
-/

set_option autoImplicit false

namespace VoteGossip

namespace Message

theorem length_encodePayload_nil : (encodePayload []).length = 4 := by
  decide +kernel

theorem length_encodePayload {payload : List UInt8} (some : payload ≠ []) :
    (encodePayload payload).length =
      payload.length + 5 + Wire.Varint.encodedLength payload.length := by
  have positive : payload.length ≠ 0 := mt List.length_eq_zero_iff.mp some
  have type : Wire.Envelope.numberLength .messageType txType = 2 := by decide +kernel
  have last : Wire.Envelope.numberLength .version version = 2 := by decide +kernel
  have body : Wire.Envelope.bytesLength .payload payload.length =
      1 + (Wire.Varint.encodedLength payload.length + payload.length) := by
    rw [Wire.Envelope.bytesLength, if_neg positive, Wire.Envelope.Field.encodedLength_key]
  rw [encodePayload, Wire.Envelope.length_encode, Wire.Envelope.encodedLength, type, last, body]
  omega

end Message

namespace Codec

open Message

theorem decode_tooLong {codec : Codec} {frame : List UInt8}
    (long : codec.maxFrame.toNat < frame.length) :
    codec.decode frame = .error (.tooLarge frame.length codec.maxFrame.toNat) := by
  unfold decode
  exact if_pos long

/-- Within the limit, a frame is judged by the envelope that it was written from. -/
theorem decode_envelope {codec : Codec} {envelope : Wire.Envelope}
    (small : envelope.payload.length < UInt64.size)
    (fits : envelope.encode.length ≤ codec.maxFrame.toNat) :
    codec.decode envelope.encode = ofEnvelope envelope := by
  unfold decode
  rw [if_neg (Nat.not_lt.mpr fits), Wire.Envelope.decode_encode small]

theorem decode_encode {codec : Codec} {payload : List UInt8}
    (small : payload.length < UInt64.size)
    (fits : (encodePayload payload).length ≤ codec.maxFrame.toNat) :
    codec.decode (encodePayload payload) = .ok (.tx ⟨payload⟩) :=
  @decode_envelope codec { messageType := txType, payload, version } small fits

end Codec

end VoteGossip
