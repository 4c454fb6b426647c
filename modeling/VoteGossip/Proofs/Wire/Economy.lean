import VoteGossip.Proofs.Wire.Layout

/-!
No row of fields says an envelope in fewer bytes than the envelope is written with. Every entry of
a row takes at least the bytes of its shortest spelling, and entering it makes the envelope longer
by no more than that. Fields without a meaning and entries that are not heard only cost bytes.
-/

set_option autoImplicit false

namespace VoteGossip.Wire

theorem Key.Spells.length_pos {key : Key} {bytes : List UInt8} (spells : key.Spells bytes) :
    0 < bytes.length :=
  spells.number.groups.length_pos

namespace Envelope

def Entry.leastLength : Entry → Nat
  | messageType number => 1 + Varint.encodedLength number
  | payload bytes => 1 + (Varint.encodedLength bytes.length + bytes.length)
  | version number => 1 + Varint.encodedLength number

def Entry.leastTotal : List Entry → Nat
  | [] => 0
  | entry :: later => entry.leastLength + leastTotal later

theorem Delimited.le_length {body bytes : List UInt8} (delimited : Delimited body bytes) :
    Varint.encodedLength body.length + body.length ≤ bytes.length := by
  cases delimited with
  | announced length spells =>
      have announcement := spells.groups.encodedLength_le
      rw [List.length_append]
      omega

theorem Entry.leastLength_le {entry : Entry} {opening value : List UInt8}
    (opens : entry.field.key.Spells opening) (spells : entry.Spells value) :
    entry.leastLength ≤ opening.length + value.length := by
  have key := opens.length_pos
  cases spells with
  | messageType bytes number spells | version bytes number spells =>
      have shortest := spells.groups.encodedLength_le
      simp only [leastLength]
      omega
  | payload bytes body delimited =>
      have shortest := delimited.le_length
      simp only [leastLength]
      omega

/-- The entries of a row take their bytes at different places of it. -/
theorem Layout.leastTotal_le {depth : Nat} {bytes : List UInt8} {entries : List Entry}
    (layout : Layout depth bytes entries) :
    Entry.leastTotal entries ≤ bytes.length := by
  induction layout with
  | nil depth => exact Nat.le_refl 0
  | entry entry opening value rest entries opens spells follow ih =>
      have first := Entry.leastLength_le opens spells
      rw [Entry.leastTotal, List.length_append, List.length_append]
      omega
  | plain depth key opening value rest entries unknown shallow opens valued follow ih =>
      rw [List.length_append, List.length_append]
      omega
  | group depth tag opening body closing rest entries unknown shallow opens inside closes follow
      _ ih =>
      rw [List.length_append, List.length_append, List.length_append]
      omega

theorem numberLength_toUInt32_le (field : Field) (number : Nat) :
    numberLength field number.toUInt32 ≤ 1 + Varint.encodedLength number := by
  unfold numberLength
  split
  · exact Nat.zero_le _
  · have less : number.toUInt32.toNat ≤ number := Nat.mod_le number _
    have shorter := Varint.encodedLength_mono less
    rw [field.encodedLength_key]
    omega

theorem bytesLength_le (field : Field) (length : Nat) :
    bytesLength field length ≤ 1 + (Varint.encodedLength length + length) := by
  unfold bytesLength
  split
  · exact Nat.zero_le _
  · exact Nat.le_of_eq (by rw [field.encodedLength_key])

theorem encodedLength_enter_le (envelope : Envelope) (entry : Entry) :
    (entry.enter envelope).encodedLength ≤ envelope.encodedLength + entry.leastLength := by
  unfold encodedLength
  cases entry with
  | messageType number =>
      have written := numberLength_toUInt32_le .messageType number
      simp only [Entry.enter, Entry.leastLength]
      omega
  | payload bytes =>
      have written := bytesLength_le .payload bytes.length
      simp only [Entry.enter, Entry.leastLength]
      omega
  | version number =>
      have written := numberLength_toUInt32_le .version number
      simp only [Entry.enter, Entry.leastLength]
      omega

theorem encodedLength_foldl_enter_le (envelope : Envelope) (entries : List Entry) :
    (entries.foldl Entry.enter envelope).encodedLength ≤
      envelope.encodedLength + Entry.leastTotal entries := by
  induction entries generalizing envelope with
  | nil => exact Nat.le_refl _
  | cons entry later ih =>
      have first := encodedLength_enter_le envelope entry
      have rest := ih (entry.enter envelope)
      rw [List.foldl_cons, Entry.leastTotal]
      omega

/-- What the entries of a row come to is written in no more bytes than the row has. -/
theorem Layout.length_encode_le {bytes : List UInt8} {entries : List Entry}
    (layout : Layout 0 bytes entries) :
    (entries.foldl Entry.enter {}).encode.length ≤ bytes.length := by
  have entered := encodedLength_foldl_enter_le {} entries
  have empty : ({} : Envelope).encodedLength = 0 := rfl
  have spelled := layout.leastTotal_le
  rw [length_encode]
  omega

end Envelope

end VoteGossip.Wire
