import VoteGossip.Gossip.Config
import VoteGossip.Proofs.Message

/-!
Which of the admissible payloads fit into a frame.

The configuration counts eight bytes for the envelope around a payload: five for its own fields
and three for the length prefix. Three bytes carry lengths below 2^21. A payload of that length or
more has a longer prefix, so where the limit is above two mebibytes the longest payloads that the
configuration admits do not fit into a frame.
-/

set_option autoImplicit false

namespace VoteGossip.GossipConfig

variable {config : GossipConfig} {payload : List UInt8}

theorem envelope_lt (valid : config.validate = .ok ()) : 8 < config.maxMessageBytes.toNat := by
  unfold validate at valid
  by_cases low : config.maxMessageBytes ≤ Limits.envelopeBytes
  · rw [if_pos low] at valid
    cases valid
  · have above : ¬ config.maxMessageBytes.toNat ≤ Limits.envelopeBytes.toNat :=
      mt UInt64.le_iff_toNat_le.mpr low
    exact Nat.not_le.mp above

theorem toNat_maxTxBytes (valid : config.validate = .ok ()) :
    config.maxTxBytes.toNat + 8 = config.maxMessageBytes.toNat := by
  have room := envelope_lt valid
  have enough : Limits.envelopeBytes ≤ config.maxMessageBytes := by
    rw [UInt64.le_iff_toNat_le]
    exact Nat.le_of_lt room
  have eight : Limits.envelopeBytes.toNat = 8 := rfl
  rw [maxTxBytes, if_neg (UInt64.not_lt.mpr enough), UInt64.toNat_sub_of_le _ _ enough, eight]
  omega

/-- The bytes of a length prefix beyond the three that the envelope is counted with. -/
def excess (length : Nat) : Nat := Wire.Varint.encodedLength length - 3

theorem excess_eq_zero_iff (length : Nat) : excess length = 0 ↔ length < 2 ^ 21 := by
  have three : Wire.Varint.encodedLength length ≤ 3 ↔ length < 128 ^ 3 :=
    Wire.Varint.encodedLength_le_iff (by decide)
  have power : (128 : Nat) ^ 3 = 2 ^ 21 := by decide
  rw [power] at three
  rw [excess, Nat.sub_eq_zero_iff_le]
  exact three

theorem length_encodePayload_le_iff (valid : config.validate = .ok ())
    (admissible : payload.length ≤ config.maxTxBytes.toNat) :
    (Message.encodePayload payload).length ≤ config.maxMessageBytes.toNat ↔
      payload.length + excess payload.length ≤ config.maxTxBytes.toNat := by
  have limit := toNat_maxTxBytes valid
  by_cases empty : payload = []
  · subst payload
    have none : excess 0 = 0 := (excess_eq_zero_iff 0).mpr (by decide)
    rw [Message.length_encodePayload_nil, List.length_nil, none]
    omega
  · rw [Message.length_encodePayload empty]
    unfold excess
    omega

/-- An admissible payload arrives if its length prefix takes no more than three bytes or the limit
leaves room for the others; otherwise its frame is refused as too long, however sound it is. -/
theorem decode_admissible (valid : config.validate = .ok ())
    (admissible : payload.length ≤ config.maxTxBytes.toNat) :
    let codec : Codec := { maxFrame := config.maxMessageBytes }
    let frame := Message.encodePayload payload
    let limit := config.maxMessageBytes.toNat
    (payload.length < 2 ^ 21 ∨ payload.length + excess payload.length ≤ config.maxTxBytes.toNat →
      frame.length ≤ limit ∧ codec.decode frame = .ok (.tx ⟨payload⟩)) ∧
    (2 ^ 21 ≤ payload.length ∧ config.maxTxBytes.toNat < payload.length + excess payload.length →
      limit < frame.length ∧ codec.decode frame = .error (.tooLarge frame.length limit)) := by
  intro codec frame limit
  have fits := length_encodePayload_le_iff valid admissible
  have small : payload.length < UInt64.size :=
    Nat.lt_of_le_of_lt admissible config.maxTxBytes.toNat_lt
  constructor
  · intro room
    have within : frame.length ≤ limit := by
      apply fits.mpr
      rcases room with short | room
      · rw [(excess_eq_zero_iff _).mpr short]
        exact admissible
      · exact room
    exact ⟨within, Codec.decode_encode small within⟩
  · intro ⟨_, crowded⟩
    have beyond : limit < frame.length :=
      Nat.not_le.mp fun within => Nat.not_le.mpr crowded (fits.mp within)
    exact ⟨beyond, Codec.decode_tooLong beyond⟩

theorem decode_admissible_default :
    let config : GossipConfig := {}
    let payload : List UInt8 := [1, 2, 3]
    config.validate = .ok () ∧ payload.length ≤ config.maxTxBytes.toNat ∧
      (Message.encodePayload payload).length ≤ config.maxMessageBytes.toNat ∧
      (Codec.mk config.maxMessageBytes).decode (Message.encodePayload payload) =
        .ok (.tx ⟨payload⟩) := by
  have valid : GossipConfig.validate {} = .ok () := rfl
  have admissible : [1, 2, (3 : UInt8)].length ≤ (GossipConfig.maxTxBytes {}).toNat := by decide
  exact ⟨valid, admissible, (decode_admissible valid admissible).1 (.inl (by decide))⟩

/-- Two mebibytes are admitted by a limit of two mebibytes and eight bytes, and do not fit. -/
theorem not_all_admissible_fit :
    ¬ ∀ (config : GossipConfig) (payload : List UInt8), config.validate = .ok () →
      payload.length ≤ config.maxTxBytes.toNat →
      (Message.encodePayload payload).length ≤ config.maxMessageBytes.toNat ∧
        (Codec.mk config.maxMessageBytes).decode (Message.encodePayload payload) =
          .ok (.tx ⟨payload⟩) := by
  intro all
  have valid : GossipConfig.validate { maxMessageBytes := 2097160 } = .ok () := rfl
  have length : (List.replicate 2097152 (0 : UInt8)).length = 2097152 := List.length_replicate
  have limit : (GossipConfig.maxTxBytes { maxMessageBytes := 2097160 }).toNat = 2097152 := rfl
  have admissible : (List.replicate 2097152 (0 : UInt8)).length ≤
      (GossipConfig.maxTxBytes { maxMessageBytes := 2097160 }).toNat :=
    Nat.le_of_eq (length.trans limit.symm)
  have fits := (length_encodePayload_le_iff valid admissible).mp (all _ _ valid admissible).1
  rw [length, limit] at fits
  have none : excess 2097152 = 0 := by omega
  exact absurd ((excess_eq_zero_iff _).mp none) (by decide)

end VoteGossip.GossipConfig
