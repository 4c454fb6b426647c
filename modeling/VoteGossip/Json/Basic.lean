import VoteGossip.Json.Token

/-!
JSON documents.

A document is read in two passes, characters to tokens and tokens to a tree. The second pass keeps
the arrays and objects that are still open on a stack, so that documents may be nested to any
depth. Members keep their order and may repeat a key: what a repetition means is for the reader of
the object to say.
-/

set_option autoImplicit false

namespace VoteGossip

inductive Json where
  | null
  | bool (value : Bool)
  | number (number : Json.Number)
  | text (text : Json.Text)
  | array (items : List Json)
  | object (members : List (Json.Text × Json))

namespace Json

/-- An array or object that is still open. What it holds so far comes last first. -/
inductive Open where
  | array (items : List Json)
  | object (members : List (Text × Json)) (key : Text)

inductive Expect where
  | value
  | item
  /-- A key of an object with these members so far; the end is welcome before the first one. -/
  | key (members : List (Text × Json))
  /-- A key that must follow, since a comma came before it. -/
  | nextKey (members : List (Text × Json))
  | colon (members : List (Text × Json)) (key : Text)
  | close (value : Json)

/-- A reader of tokens part of the way through. -/
structure Building where
  stack : List Open
  expect : Expect

namespace Building

def start : Building := { stack := [], expect := .value }

def beginValue (stack : List Open) : Token → Option Building
  | .null => some { stack, expect := .close .null }
  | .bool value => some { stack, expect := .close (.bool value) }
  | .number literal => some { stack, expect := .close (.number literal) }
  | .text pieces => some { stack, expect := .close (.text pieces) }
  | .arrayStart => some { stack := .array [] :: stack, expect := .item }
  | .objectStart => some { stack, expect := .key [] }
  | _ => none

def endValue (stack : List Open) (value : Json) (token : Token) : Option Building :=
  match stack, token with
  | .array items :: outer, .comma =>
      some { stack := .array (value :: items) :: outer, expect := .value }
  | .array items :: outer, .arrayEnd =>
      some { stack := outer, expect := .close (.array (value :: items).reverse) }
  | .object members key :: outer, .comma =>
      some { stack := outer, expect := .nextKey ((key, value) :: members) }
  | .object members key :: outer, .objectEnd =>
      some { stack := outer, expect := .close (.object ((key, value) :: members).reverse) }
  | _, _ => none

def step (building : Building) (token : Token) : Option Building :=
  match building.expect, token with
  | .value, token => beginValue building.stack token
  | .item, .arrayEnd =>
      match building.stack with
      | .array items :: outer => some { stack := outer, expect := .close (.array items.reverse) }
      | _ => none
  | .item, token => beginValue building.stack token
  | .key members, .objectEnd =>
      some { building with expect := .close (.object members.reverse) }
  | .key members, .text key => some { building with expect := .colon members key }
  | .nextKey members, .text key => some { building with expect := .colon members key }
  | .colon members key, .colon =>
      some { stack := .object members key :: building.stack, expect := .value }
  | .close value, token => endValue building.stack value token
  | _, _ => none

def finish? (building : Building) : Option Json :=
  match building.stack, building.expect with
  | [], .close value => some value
  | _, _ => none

end Building

def ofTokens? (tokens : List Token) : Option Json :=
  match tokens.foldlM Building.step Building.start with
  | some building => building.finish?
  | none => none

def parse? (source : String) : Option Json :=
  match Token.scan source.toList with
  | some tokens => ofTokens? tokens
  | none => none

mutual

def tokens : Json → List Token
  | null => [.null]
  | bool value => [.bool value]
  | number literal => [.number literal]
  | text pieces => [.text pieces]
  | array items => .arrayStart :: itemTokens items
  | object members => .objectStart :: memberTokens members

def itemTokens : List Json → List Token
  | [] => [.arrayEnd]
  | item :: rest => item.tokens ++ furtherItemTokens rest

def furtherItemTokens : List Json → List Token
  | [] => [.arrayEnd]
  | item :: rest => .comma :: (item.tokens ++ furtherItemTokens rest)

def memberTokens : List (Text × Json) → List Token
  | [] => [.objectEnd]
  | (key, value) :: rest => .text key :: .colon :: (value.tokens ++ furtherMemberTokens rest)

def furtherMemberTokens : List (Text × Json) → List Token
  | [] => [.objectEnd]
  | (key, value) :: rest =>
      .comma :: .text key :: .colon :: (value.tokens ++ furtherMemberTokens rest)

end

def write (json : Json) : String := String.ofList (json.tokens.flatMap Token.write)

def ofNat (value : Nat) : Json := .number (.ofNat value)

/-- The natural number that a document is, if it is one up to the bound. -/
def upTo? (bound : Nat) : Json → Option Nat
  | number literal => literal.upTo? bound
  | _ => none

def bool? : Json → Option Bool
  | bool value => some value
  | _ => none

end Json

end VoteGossip
