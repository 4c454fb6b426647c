import VoteGossip.Proofs.Wire.Spelling

/-!
Envelopes come back as they were written, and take as many bytes as their parts announce.

A written field is one key and one value. Reading takes both off the front of the bytes and leaves
what stands behind them, so the fields of an envelope are read one by one, and a field that was
left out is one that still has its default.
-/

set_option autoImplicit false

namespace VoteGossip.Wire

theorem Key.decode_encode {key : Key} (tagged : 0 < key.tag) (small : key.number < UInt32.size)
    (rest : List UInt8) : Key.decode (key.encode ++ rest) = .ok (key, rest) := by
  have wide : key.number < UInt64.size := Nat.lt_trans small (by decide)
  exact decode_of_spells ⟨Varint.spells_encode wide, small, tagged⟩ rest

namespace Envelope

namespace Field

theorem ofTag?_tag (field : Field) : ofTag? field.tag = some field := by
  cases field <;> rfl

theorem tag_pos (field : Field) : 0 < field.tag := by
  cases field <;> decide

theorem number_key_lt (field : Field) : field.key.number < 128 := by
  cases field <;> decide

theorem decode_key (field : Field) (rest : List UInt8) :
    Key.decode (field.key.encode ++ rest) = .ok (field.key, rest) :=
  Key.decode_encode field.tag_pos (Nat.lt_trans field.number_key_lt (by decide)) rest

theorem encodedLength_key (field : Field) : Varint.encodedLength field.key.number = 1 := by
  rw [Varint.encodedLength, if_pos field.number_key_lt]

end Field

section Length

theorem length_encodeNumber (field : Field) (number : UInt32) :
    (encodeNumber field number).length = numberLength field number := by
  unfold encodeNumber numberLength
  split
  · rfl
  · rw [List.length_append, Key.encode, Varint.length_encode, Varint.length_encode]

theorem length_encodeBytes (field : Field) (bytes : List UInt8) :
    (encodeBytes field bytes).length = bytesLength field bytes.length := by
  unfold encodeBytes bytesLength
  by_cases empty : bytes = []
  · subst bytes
    rfl
  · have some : bytes.length ≠ 0 := mt List.length_eq_zero_iff.mp empty
    rw [if_neg (mt List.isEmpty_iff.mp empty), if_neg some, List.length_append,
      List.length_append, Key.encode, Varint.length_encode, Varint.length_encode]

theorem length_encode (envelope : Envelope) : envelope.encode.length = envelope.encodedLength := by
  unfold encode encodedLength
  rw [List.length_append, List.length_append, length_encodeNumber, length_encodeBytes,
    length_encodeNumber]

theorem length_payload_le (envelope : Envelope) :
    envelope.payload.length ≤ envelope.encode.length := by
  have body : envelope.payload.length ≤ bytesLength .payload envelope.payload.length := by
    unfold bytesLength
    split
    · omega
    · omega
  rw [length_encode, encodedLength]
  omega

end Length

section Value

theorem takeNumber_encode {number : Nat} (small : number < UInt64.size) (rest : List UInt8) :
    takeNumber (Varint.encode number ++ rest) = .ok (number, rest) :=
  takeNumber_of_spells (Varint.spells_encode small) rest

theorem takeNumber_toNat (number : UInt32) (rest : List UInt8) :
    takeNumber (Varint.encode number.toNat ++ rest) = .ok (number.toNat, rest) :=
  takeNumber_encode (Nat.lt_trans number.toNat_lt (by decide)) rest

theorem takeDelimited_encode {bytes : List UInt8} (small : bytes.length < UInt64.size)
    (rest : List UInt8) :
    takeDelimited (Varint.encode bytes.length ++ (bytes ++ rest)) = .ok (bytes, rest) := by
  have delimited := Delimited.announced _ (Varint.spells_encode small)
  rw [← List.append_assoc]
  exact takeDelimited_of_delimited delimited rest

end Value

section Fields

variable {envelope after : Envelope} {field : Field}

theorem readFields_nil (envelope : Envelope) :
    readFields { envelope := envelope } [] = .ok envelope := by
  rw [readFields]
  rfl

/-- One field in front of the others is read, and the others are read after it. -/
theorem readFields_step {reading next : Reading} {key : Key} {bytes middle rest : List UInt8}
    (opened : Key.decode bytes = .ok (key, middle))
    (read : reading.value key middle = .ok (next, rest)) :
    readFields reading bytes = readFields next rest := by
  have more : bytes.isEmpty = false := by
    cases bytes with
    | nil => exact absurd (Key.decode_length opened) (Nat.not_lt_zero _)
    | cons byte tail => rfl
  rw [readFields, more, Bool.false_and, if_neg Bool.false_ne_true]
  split
  · rename_i fault failed
    rw [opened] at failed
    cases failed
  · rename_i found remaining again
    rw [opened] at again
    cases again
    split
    · rename_i flaw failed
      rw [read] at failed
      cases failed
    · rename_i after remaining taken
      rw [read] at taken
      cases taken
      rfl

theorem readFields_append {value : List UInt8} (rest : List UInt8)
    (assigned : Reading.assign envelope field field.wireType (value ++ rest) = .ok (after, rest)) :
    readFields { envelope := envelope } (field.key.encode ++ (value ++ rest)) =
      readFields { envelope := after } rest := by
  apply readFields_step (field.decode_key (value ++ rest))
  unfold Reading.value
  simp only [Field.key, Field.ofTag?_tag, assigned]

theorem readFields_encodeNumber {number : UInt32} (rest : List UInt8)
    (omitted : number = 0 → after = envelope)
    (assigned : Reading.assign envelope field field.wireType
      (Varint.encode number.toNat ++ rest) = .ok (after, rest)) :
    readFields { envelope := envelope } (encodeNumber field number ++ rest) =
      readFields { envelope := after } rest := by
  unfold encodeNumber
  by_cases zero : number = 0
  · rw [if_pos zero, List.nil_append, omitted zero]
  · rw [if_neg zero, List.append_assoc]
    exact readFields_append rest assigned

theorem readFields_messageType (envelope : Envelope) (number : UInt32) (rest : List UInt8)
    (fresh : envelope.messageType = 0) :
    readFields { envelope := envelope } (encodeNumber .messageType number ++ rest) =
      readFields { envelope := { envelope with messageType := number } } rest := by
  apply readFields_encodeNumber
  · intro zero
    rw [zero, ← fresh]
  · simp [Reading.assign, takeNumber_toNat]

theorem readFields_version (envelope : Envelope) (number : UInt32) (rest : List UInt8)
    (fresh : envelope.version = 0) :
    readFields { envelope := envelope } (encodeNumber .version number ++ rest) =
      readFields { envelope := { envelope with version := number } } rest := by
  apply readFields_encodeNumber
  · intro zero
    rw [zero, ← fresh]
  · simp [Reading.assign, takeNumber_toNat]

theorem readFields_payload (envelope : Envelope) {bytes : List UInt8}
    (small : bytes.length < UInt64.size) (rest : List UInt8) (fresh : envelope.payload = []) :
    readFields { envelope := envelope } (encodeBytes .payload bytes ++ rest) =
      readFields { envelope := { envelope with payload := bytes } } rest := by
  unfold encodeBytes
  by_cases empty : bytes = []
  · subst bytes
    rw [List.isEmpty_nil, if_pos rfl, List.nil_append, ← fresh]
  · rw [if_neg (mt List.isEmpty_iff.mp empty), List.append_assoc]
    refine readFields_append rest ?_
    simp [Reading.assign, takeDelimited_encode small]

theorem decode_encode {envelope : Envelope} (small : envelope.payload.length < UInt64.size) :
    decode envelope.encode = .ok envelope := by
  unfold decode encode
  rw [readFields_messageType {} _ _ rfl, readFields_payload _ small _ rfl,
    ← List.append_nil (encodeNumber .version envelope.version),
    readFields_version _ _ _ rfl, readFields_nil]

end Fields

end Envelope

end VoteGossip.Wire
