import VoteGossip.Json.Basic

/-!
Records in JSON.

A record is written as an object and read from an object or from an array. In an object the members
may come in any order, a known field at most once, and members with other keys are ignored; every
key has to denote a string. In an array the fields come in the order of their declaration, and the
last ones may be missing. A field that is not given keeps the value it had before.
-/

set_option autoImplicit false

namespace VoteGossip.Json

structure Field (Record : Type) where
  name : String
  assign : Json → Record → Option Record

namespace Record

variable {Record : Type}

/-- Reads members one after the other; `given` names the fields that were given before. -/
def ofMembers (fields : List (Field Record)) :
    List String → List (Text × Json) → Record → Option Record
  | _, [], record => some record
  | given, (key, value) :: rest, record =>
      match Text.string? key with
      | none => none
      | some name =>
          match fields.find? (·.name == name) with
          | none => ofMembers fields given rest record
          | some field =>
              if given.contains name then none
              else
                match field.assign value record with
                | none => none
                | some record => ofMembers fields (name :: given) rest record

def ofItems : List (Field Record) → List Json → Record → Option Record
  | _, [], record => some record
  | [], _ :: _, _ => none
  | field :: fields, value :: rest, record =>
      match field.assign value record with
      | none => none
      | some record => ofItems fields rest record

def ofJson? (fields : List (Field Record)) (initial : Record) : Json → Option Record
  | .object members => ofMembers fields [] members initial
  | .array items => ofItems fields items initial
  | _ => none

def toJson (members : List (String × Json)) : Json :=
  .object (members.map fun (name, value) => (Text.ofString name, value))

end Record

end VoteGossip.Json
