import VoteGossip.Wire.Key

/-!
The envelope of a message: a type, a payload and a version.

Fields are written in the order of their tags, and one that holds zero or nothing is left out. A
reader takes the fields in any order, lets the last occurrence of a field count, and skips fields
it does not know, groups of fields included. Groups are skipped in the same pass as everything
else: the reader carries the tags of the groups that are still open, innermost first, and gives
the known tags their meaning only where none is.
-/

set_option autoImplicit false

namespace VoteGossip.Wire

structure Envelope where
  messageType : UInt32 := 0
  payload : List UInt8 := []
  version : UInt32 := 0
  deriving DecidableEq

namespace Envelope

inductive Field where
  | messageType
  | payload
  | version
  deriving DecidableEq

namespace Field

def tag : Field → Nat
  | messageType => 1
  | payload => 2
  | version => 3

def wireType : Field → WireType
  | payload => .delimited
  | _ => .varint

def ofTag? : Nat → Option Field
  | 1 => some messageType
  | 2 => some payload
  | 3 => some version
  | _ => none

def name : Field → String
  | messageType => "WireTxVoteMessage.msg_type"
  | payload => "WireTxVoteMessage.payload"
  | version => "WireTxVoteMessage.version"

def key (field : Field) : Key := { tag := field.tag, wireType := field.wireType }

end Field

/-- A number field; zero is not written. -/
def encodeNumber (field : Field) (number : UInt32) : List UInt8 :=
  if number = 0 then [] else field.key.encode ++ Varint.encode number.toNat

/-- A field of bytes behind their length; no bytes are not written. -/
def encodeBytes (field : Field) (bytes : List UInt8) : List UInt8 :=
  if bytes.isEmpty then [] else field.key.encode ++ (Varint.encode bytes.length ++ bytes)

def encode (envelope : Envelope) : List UInt8 :=
  encodeNumber .messageType envelope.messageType ++
    (encodeBytes .payload envelope.payload ++ encodeNumber .version envelope.version)

def numberLength (field : Field) (number : UInt32) : Nat :=
  if number = 0 then 0
  else Varint.encodedLength field.key.number + Varint.encodedLength number.toNat

def bytesLength (field : Field) (length : Nat) : Nat :=
  if length = 0 then 0
  else Varint.encodedLength field.key.number + (Varint.encodedLength length + length)

def encodedLength (envelope : Envelope) : Nat :=
  numberLength .messageType envelope.messageType +
    (bytesLength .payload envelope.payload.length + numberLength .version envelope.version)

/-- What is wrong, and in which field if it is the value of a known one. -/
structure Flaw where
  field : Option Field := none
  fault : Fault
  deriving DecidableEq

def Flaw.message (flaw : Flaw) : String :=
  let place :=
    match flaw.field with
    | some field => field.name ++ ": "
    | none => ""
  "failed to decode Protobuf message: " ++ place ++ flaw.fault.reason

/-- How many groups may be open around a field that is skipped. -/
def maxOpenGroups : Nat := 99

def takeNumber (bytes : List UInt8) : Except Fault (Nat × List UInt8) :=
  match Varint.decode? bytes with
  | some read => .ok read
  | none => .error .badVarint

def takeBytes (count : Nat) (bytes : List UInt8) : Except Fault (List UInt8 × List UInt8) :=
  let taken := bytes.take count
  if taken.length < count then .error .underflow else .ok (taken, bytes.drop count)

def takeDelimited (bytes : List UInt8) : Except Fault (List UInt8 × List UInt8) :=
  match takeNumber bytes with
  | .ok (length, rest) => takeBytes length rest
  | .error fault => .error fault

structure Reading where
  envelope : Envelope := {}
  /-- Tags of the open groups, the innermost first. -/
  groups : List Nat := []

namespace Reading

/-- Takes the value of a known field over into the envelope. A number keeps its lowest 32 bits. -/
def assign (envelope : Envelope) (field : Field) (wireType : WireType) (bytes : List UInt8) :
    Except Fault (Envelope × List UInt8) :=
  if wireType ≠ field.wireType then .error (.mismatch wireType field.wireType)
  else
    match field with
    | .messageType =>
        match takeNumber bytes with
        | .ok (number, rest) => .ok ({ envelope with messageType := number.toUInt32 }, rest)
        | .error fault => .error fault
    | .payload =>
        match takeDelimited bytes with
        | .ok (payload, rest) => .ok ({ envelope with payload }, rest)
        | .error fault => .error fault
    | .version =>
        match takeNumber bytes with
        | .ok (number, rest) => .ok ({ envelope with version := number.toUInt32 }, rest)
        | .error fault => .error fault

/-- The groups that are open after a key. Only the mark that ends the innermost group is welcome
however deep the groups are nested. -/
def nest (groups : List Nat) (key : Key) : Except Fault (List Nat) :=
  match key.wireType, groups with
  | .groupEnd, [] => .error .strayGroupEnd
  | .groupEnd, innermost :: outer =>
      if key.tag = innermost then .ok outer else .error .strayGroupEnd
  | .groupStart, groups =>
      if maxOpenGroups < groups.length then .error .tooDeep else .ok (key.tag :: groups)
  | _, groups => if maxOpenGroups < groups.length then .error .tooDeep else .ok groups

def pass (wireType : WireType) (bytes : List UInt8) : Except Fault (List UInt8) :=
  match wireType with
  | .groupStart | .groupEnd => .ok bytes
  | .varint => (takeNumber bytes).map Prod.snd
  | .fixed64 => (takeBytes 8 bytes).map Prod.snd
  | .fixed32 => (takeBytes 4 bytes).map Prod.snd
  | .delimited => (takeDelimited bytes).map Prod.snd

def skip (groups : List Nat) (key : Key) (bytes : List UInt8) :
    Except Fault (List Nat × List UInt8) :=
  match nest groups key with
  | .error fault => .error fault
  | .ok groups =>
      match pass key.wireType bytes with
      | .error fault => .error fault
      | .ok rest => .ok (groups, rest)

/-- Reads what belongs to a key. A tag has a meaning only outside all groups. -/
def value (reading : Reading) (key : Key) (bytes : List UInt8) :
    Except Flaw (Reading × List UInt8) :=
  match reading.groups, Field.ofTag? key.tag with
  | [], some field =>
      match assign reading.envelope field key.wireType bytes with
      | .ok (envelope, rest) => .ok ({ reading with envelope }, rest)
      | .error fault => .error { field := some field, fault }
  | groups, _ =>
      match skip groups key bytes with
      | .ok (groups, rest) => .ok ({ reading with groups }, rest)
      | .error fault => .error { fault }

end Reading

theorem takeNumber_length {bytes rest : List UInt8} {number : Nat}
    (taken : takeNumber bytes = .ok (number, rest)) : rest.length ≤ bytes.length := by
  unfold takeNumber at taken
  split at taken
  · rename_i read decoded
    cases taken
    exact Nat.le_of_lt (Varint.decode?_length decoded)
  · cases taken

theorem takeBytes_length {count : Nat} {bytes front rest : List UInt8}
    (taken : takeBytes count bytes = .ok (front, rest)) : rest.length ≤ bytes.length := by
  simp only [takeBytes] at taken
  split at taken
  · cases taken
  · cases taken
    simp

theorem takeDelimited_length {bytes front rest : List UInt8}
    (taken : takeDelimited bytes = .ok (front, rest)) : rest.length ≤ bytes.length := by
  unfold takeDelimited at taken
  split at taken
  · rename_i length middle number
    exact Nat.le_trans (takeBytes_length taken) (takeNumber_length number)
  · cases taken

theorem Reading.assign_length {envelope result : Envelope} {field : Field} {wireType : WireType}
    {bytes rest : List UInt8}
    (assigned : assign envelope field wireType bytes = .ok (result, rest)) :
    rest.length ≤ bytes.length := by
  unfold assign at assigned
  split at assigned
  · cases assigned
  · cases field with
    | messageType | version =>
        simp only at assigned
        split at assigned
        · rename_i number middle taken
          cases assigned
          exact takeNumber_length taken
        · cases assigned
    | payload =>
        simp only at assigned
        split at assigned
        · rename_i payload middle taken
          cases assigned
          exact takeDelimited_length taken
        · cases assigned

theorem Reading.pass_length {wireType : WireType} {bytes rest : List UInt8}
    (passed : pass wireType bytes = .ok rest) : rest.length ≤ bytes.length := by
  cases wireType with
  | groupStart | groupEnd =>
      cases passed
      exact Nat.le_refl _
  | varint =>
      cases taken : takeNumber bytes with
      | error fault => simp [pass, taken, Except.map] at passed
      | ok pair =>
          simp only [pass, taken, Except.map, Except.ok.injEq] at passed
          exact passed ▸ takeNumber_length taken
  | fixed64 =>
      cases taken : takeBytes 8 bytes with
      | error fault => simp [pass, taken, Except.map] at passed
      | ok pair =>
          simp only [pass, taken, Except.map, Except.ok.injEq] at passed
          exact passed ▸ takeBytes_length taken
  | fixed32 =>
      cases taken : takeBytes 4 bytes with
      | error fault => simp [pass, taken, Except.map] at passed
      | ok pair =>
          simp only [pass, taken, Except.map, Except.ok.injEq] at passed
          exact passed ▸ takeBytes_length taken
  | delimited =>
      cases taken : takeDelimited bytes with
      | error fault => simp [pass, taken, Except.map] at passed
      | ok pair =>
          simp only [pass, taken, Except.map, Except.ok.injEq] at passed
          exact passed ▸ takeDelimited_length taken

theorem Reading.skip_length {groups result : List Nat} {key : Key} {bytes rest : List UInt8}
    (skipped : skip groups key bytes = .ok (result, rest)) : rest.length ≤ bytes.length := by
  unfold skip at skipped
  split at skipped
  · cases skipped
  · split at skipped
    · cases skipped
    · rename_i passed
      cases skipped
      exact pass_length passed

theorem Reading.value_length {reading result : Reading} {key : Key} {bytes rest : List UInt8}
    (read : reading.value key bytes = .ok (result, rest)) : rest.length ≤ bytes.length := by
  unfold value at read
  split at read
  · split at read
    · rename_i assigned
      cases read
      exact assign_length assigned
    · cases read
  · split at read
    · rename_i skipped
      cases read
      exact skip_length skipped
    · cases read

def readFields (reading : Reading) (bytes : List UInt8) : Except Flaw Envelope :=
  if bytes.isEmpty && reading.groups.isEmpty then .ok reading.envelope
  else
    match _opened : Key.decode bytes with
    | .error fault => .error { fault }
    | .ok (key, rest) =>
        match _closed : reading.value key rest with
        | .error flaw => .error flaw
        | .ok (reading, rest) => readFields reading rest
termination_by bytes.length
decreasing_by
  exact Nat.lt_of_le_of_lt (Reading.value_length _closed) (Key.decode_length _opened)

def decode (bytes : List UInt8) : Except Flaw Envelope := readFields {} bytes

end Envelope

end VoteGossip.Wire
