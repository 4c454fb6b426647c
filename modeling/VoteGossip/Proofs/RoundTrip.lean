import VoteGossip.Proofs.Message

/-!
Every message comes back from its frame, but for two. What is written with type zero has no type
for its reader, and what is written with the type of transactions is one, with no payload. No
transaction is written like that, and nothing else is lost: a frame is refused only for its length.
-/

set_option autoImplicit false

namespace VoteGossip

namespace Message

theorem ofEnvelope_envelope_tx (vote : Tx) : ofEnvelope (tx vote).envelope = .ok (tx vote) := rfl

theorem ofEnvelope_envelope_unknown (messageType : UInt32) :
    ofEnvelope (unknown messageType).envelope =
      if messageType = 0 then .error (.unrecognized "missing message type")
      else if messageType = txType then .ok (tx ⟨[]⟩)
      else .ok (unknown messageType) := rfl

theorem ofEnvelope_envelope_iff (message : Message) :
    ofEnvelope message.envelope = .ok message ↔ message ≠ unknown 0 ∧ message ≠ unknown txType := by
  cases message with
  | tx vote =>
      constructor
      · intro _same
        exact ⟨nofun, nofun⟩
      · intro _other
        exact ofEnvelope_envelope_tx vote
  | unknown messageType =>
      rw [ofEnvelope_envelope_unknown, ne_eq, ne_eq, unknown.injEq, unknown.injEq]
      by_cases missing : messageType = 0
      · rw [if_pos missing]
        constructor
        · intro read
          cases read
        · intro others
          exact absurd missing others.1
      · rw [if_neg missing]
        by_cases known : messageType = txType
        · rw [if_pos known]
          constructor
          · intro read
            cases read
          · intro others
            exact absurd known others.2
        · rw [if_neg known]
          exact iff_of_true rfl ⟨missing, known⟩

theorem decode_encode {codec : Codec} {message : Message}
    (fits : message.encode.length ≤ codec.maxFrame.toNat) :
    codec.decode message.encode = ofEnvelope message.envelope := by
  have held : message.envelope.payload.length ≤ codec.maxFrame.toNat :=
    Nat.le_trans message.envelope.length_payload_le fits
  exact Codec.decode_envelope (Nat.lt_of_le_of_lt held codec.maxFrame.toNat_lt) fits

end Message

/-- Whatever the limit, a frame that is longer is refused for its length; from any other the
message comes back exactly unless it is one of unknown type zero, which has no type then, or of
unknown type one, which comes back as an empty transaction. -/
theorem Codec.decode_encode_iff (codec : Codec) (message : Message) :
    let frame := message.encode
    let limit := codec.maxFrame.toNat
    (limit < frame.length → codec.decode frame = .error (.tooLarge frame.length limit)) ∧
    (frame.length ≤ limit →
      (codec.decode frame = .ok message ↔ message ≠ .unknown 0 ∧ message ≠ .unknown 1) ∧
      (message = .unknown 0 →
        codec.decode frame = .error (.unrecognized "missing message type")) ∧
      (message = .unknown 1 → codec.decode frame = .ok (.tx ⟨[]⟩))) ∧
    ∀ payload, Message.encodePayload payload = (Message.tx ⟨payload⟩).encode := by
  intro frame limit
  refine ⟨Codec.decode_tooLong, ?_, fun _payload => rfl⟩
  intro fits
  have read : codec.decode frame = Message.ofEnvelope message.envelope :=
    Message.decode_encode fits
  rw [read]
  refine ⟨message.ofEnvelope_envelope_iff, ?_, ?_⟩
  · rintro rfl
    exact Message.ofEnvelope_envelope_unknown 0
  · rintro rfl
    exact Message.ofEnvelope_envelope_unknown 1

end VoteGossip
