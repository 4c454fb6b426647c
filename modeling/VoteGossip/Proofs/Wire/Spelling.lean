import VoteGossip.Proofs.Wire.Varint
import VoteGossip.Wire.Envelope

/-!
What readers of keys and values accept, said without reading. A key is a number of 32 bits with a
tag in it, and a value is spelled as its key announces it. Each reader takes exactly the spellings,
and takes them off the front of the bytes.
-/

set_option autoImplicit false

namespace VoteGossip.Wire

theorem WireType.code_lt (wireType : WireType) : wireType.code < 8 := by
  cases wireType <;> decide

theorem WireType.ofCode?_code (wireType : WireType) : ofCode? wireType.code = some wireType := by
  cases wireType <;> rfl

namespace Key

/-- A spelling of a key: a number of 32 bits with a tag in it. -/
structure Spells (key : Key) (bytes : List UInt8) : Prop where
  number : Varint.Spells bytes key.number
  small : key.number < UInt32.size
  tagged : 0 < key.tag

variable {key : Key} {bytes rest : List UInt8}

theorem number_mod (key : Key) : key.number % 8 = key.wireType.code := by
  have code := key.wireType.code_lt
  unfold number
  omega

theorem number_div (key : Key) : key.number / 8 = key.tag := by
  have code := key.wireType.code_lt
  unfold number
  omega

theorem decode_of_spells (spells : key.Spells bytes) (rest : List UInt8) :
    decode (bytes ++ rest) = .ok (key, rest) := by
  unfold decode
  rw [Varint.decode?_of_spells spells.number]
  simp only
  rw [if_neg (Nat.not_le.mpr spells.small), key.number_mod, WireType.ofCode?_code]
  simp only
  rw [key.number_div, if_neg (Nat.ne_of_gt spells.tagged)]

theorem code_of_ofCode? {code : Nat} {wireType : WireType}
    (found : WireType.ofCode? code = some wireType) : wireType.code = code := by
  unfold WireType.ofCode? at found
  split at found
  all_goals cases found
  all_goals rfl

theorem spells_of_decode (decoded : decode bytes = .ok (key, rest)) :
    ∃ front, bytes = front ++ rest ∧ key.Spells front := by
  unfold decode at decoded
  cases read : Varint.decode? bytes with
  | none =>
      rw [read] at decoded
      cases decoded
  | some pair =>
      obtain ⟨found, remaining⟩ := pair
      obtain ⟨front, split, spells⟩ := Varint.spells_of_decode? read
      rw [read] at decoded
      simp only at decoded
      split at decoded
      · cases decoded
      · rename_i small
        split at decoded
        · cases decoded
        · rename_i wireType known
          split at decoded
          · cases decoded
          · rename_i tagged
            cases decoded
            have code := code_of_ofCode? known
            have same : ({ tag := found / 8, wireType } : Key).number = found := by
              change found / 8 * 8 + wireType.code = found
              omega
            refine ⟨front, split, ?_, ?_, Nat.pos_of_ne_zero tagged⟩
            · rw [same]
              exact spells
            · rw [same]
              exact Nat.lt_of_not_le small

end Key

namespace Envelope

variable {bytes rest : List UInt8}

theorem takeNumber_eq_ok {number : Nat} (taken : takeNumber bytes = .ok (number, rest)) :
    ∃ front, bytes = front ++ rest ∧ Varint.Spells front number := by
  unfold takeNumber at taken
  split at taken
  · rename_i read decoded
    cases taken
    exact Varint.spells_of_decode? decoded
  · cases taken

theorem takeNumber_of_spells {front : List UInt8} {number : Nat}
    (spells : Varint.Spells front number) (rest : List UInt8) :
    takeNumber (front ++ rest) = .ok (number, rest) := by
  unfold takeNumber
  rw [Varint.decode?_of_spells spells]

theorem takeBytes_eq_ok {count : Nat} {front : List UInt8}
    (taken : takeBytes count bytes = .ok (front, rest)) :
    bytes = front ++ rest ∧ front.length = count := by
  simp only [takeBytes] at taken
  split at taken
  · cases taken
  · rename_i enough
    cases taken
    rw [List.length_take] at enough ⊢
    exact ⟨(List.take_append_drop count bytes).symm, by omega⟩

theorem takeBytes_append (front rest : List UInt8) :
    takeBytes front.length (front ++ rest) = .ok (front, rest) := by
  unfold takeBytes
  rw [List.take_left, List.drop_left]
  exact if_neg (Nat.lt_irrefl _)

inductive Delimited (body : List UInt8) : List UInt8 → Prop where
  | announced (length : List UInt8) (spells : Varint.Spells length body.length) :
      Delimited body (length ++ body)

theorem takeDelimited_eq_ok {body : List UInt8}
    (taken : takeDelimited bytes = .ok (body, rest)) :
    ∃ front, bytes = front ++ rest ∧ Delimited body front := by
  unfold takeDelimited at taken
  split at taken
  · rename_i count middle number
    obtain ⟨length, rfl, spells⟩ := takeNumber_eq_ok number
    obtain ⟨rfl, rfl⟩ := takeBytes_eq_ok taken
    exact ⟨length ++ body, (List.append_assoc length body rest).symm, .announced length spells⟩
  · cases taken

theorem takeDelimited_of_delimited {body front : List UInt8} (delimited : Delimited body front)
    (rest : List UInt8) : takeDelimited (front ++ rest) = .ok (body, rest) := by
  cases delimited with
  | announced length spells =>
      unfold takeDelimited
      rw [List.append_assoc, takeNumber_of_spells spells]
      exact takeBytes_append body rest

/-- A value as a field announces it. The marks of groups have none. -/
inductive Value : WireType → List UInt8 → Prop where
  | varint (bytes : List UInt8) (number : Nat) (spells : Varint.Spells bytes number) :
      Value .varint bytes
  | fixed64 (bytes : List UInt8) (length_eq : bytes.length = 8) : Value .fixed64 bytes
  | delimited (bytes body : List UInt8) (delimited : Delimited body bytes) : Value .delimited bytes
  | fixed32 (bytes : List UInt8) (length_eq : bytes.length = 4) : Value .fixed32 bytes

theorem pass_of_value {wireType : WireType} {front : List UInt8} (value : Value wireType front)
    (rest : List UInt8) : Reading.pass wireType (front ++ rest) = .ok rest := by
  cases value with
  | varint bytes number spells =>
      change (takeNumber (front ++ rest)).map Prod.snd = _
      rw [takeNumber_of_spells spells]
      rfl
  | fixed64 bytes length_eq | fixed32 bytes length_eq =>
      change (takeBytes _ (front ++ rest)).map Prod.snd = _
      rw [← length_eq, takeBytes_append]
      rfl
  | delimited bytes body delimited =>
      change (takeDelimited (front ++ rest)).map Prod.snd = _
      rw [takeDelimited_of_delimited delimited]
      rfl

theorem map_snd_eq_ok {Taken : Type} {read : Except Fault (Taken × List UInt8)}
    (passed : read.map Prod.snd = .ok rest) : ∃ taken, read = .ok (taken, rest) := by
  cases read with
  | error fault => cases passed
  | ok pair =>
      obtain ⟨taken, remaining⟩ := pair
      cases passed
      exact ⟨taken, rfl⟩

def hasValue : WireType → Bool
  | .groupStart | .groupEnd => false
  | _ => true

theorem value_of_pass {wireType : WireType} (valued : hasValue wireType = true)
    (passed : Reading.pass wireType bytes = .ok rest) :
    ∃ front, bytes = front ++ rest ∧ Value wireType front := by
  cases wireType with
  | groupStart | groupEnd => cases valued
  | varint =>
      obtain ⟨number, taken⟩ := map_snd_eq_ok passed
      obtain ⟨front, split, spells⟩ := takeNumber_eq_ok taken
      exact ⟨front, split, .varint front number spells⟩
  | fixed64 =>
      obtain ⟨front, taken⟩ := map_snd_eq_ok passed
      obtain ⟨split, length⟩ := takeBytes_eq_ok taken
      exact ⟨front, split, .fixed64 front length⟩
  | fixed32 =>
      obtain ⟨front, taken⟩ := map_snd_eq_ok passed
      obtain ⟨split, length⟩ := takeBytes_eq_ok taken
      exact ⟨front, split, .fixed32 front length⟩
  | delimited =>
      obtain ⟨body, taken⟩ := map_snd_eq_ok passed
      obtain ⟨front, split, delimited⟩ := takeDelimited_eq_ok taken
      exact ⟨front, split, .delimited front body delimited⟩

end Envelope

end VoteGossip.Wire
