import VoteGossip.Json.Number
import VoteGossip.Json.Text

/-!
The tokens of a JSON document.

White space, which is only space, tab, line feed and carriage return, may stand between any two
tokens and means nothing.
-/

set_option autoImplicit false

namespace VoteGossip.Json

inductive Token where
  | arrayStart
  | arrayEnd
  | objectStart
  | objectEnd
  | colon
  | comma
  | null
  | bool (value : Bool)
  | number (number : Number)
  | text (text : Text)
  deriving DecidableEq

namespace Token

def isBlank (char : Char) : Bool :=
  char == ' ' || char == '\t' || char == '\n' || char == '\r'

def mark? : Char → Option Token
  | '[' => some arrayStart
  | ']' => some arrayEnd
  | '\x7b' => some objectStart
  | '\x7d' => some objectEnd
  | ':' => some colon
  | ',' => some comma
  | _ => none

def scanOne (chars : List Char) : Option (Token × List Char) :=
  match chars with
  | [] => none
  | 'n' :: 'u' :: 'l' :: 'l' :: rest => some (null, rest)
  | 't' :: 'r' :: 'u' :: 'e' :: rest => some (bool true, rest)
  | 'f' :: 'a' :: 'l' :: 's' :: 'e' :: rest => some (bool false, rest)
  | '"' :: rest =>
      match Text.scan [] rest with
      | some (scanned, rest) => some (text scanned, rest)
      | none => none
  | char :: rest =>
      match mark? char with
      | some token => some (token, rest)
      | none =>
          match Number.scan (char :: rest) with
          | some (scanned, rest) => some (number scanned, rest)
          | none => none

theorem scanOne_length {chars rest : List Char} {token : Token}
    (scanned : scanOne chars = some (token, rest)) : rest.length < chars.length := by
  unfold scanOne at scanned
  split at scanned
  · cases scanned
  · cases scanned
    simp only [List.length_cons]
    omega
  · cases scanned
    simp only [List.length_cons]
    omega
  · cases scanned
    simp only [List.length_cons]
    omega
  · split at scanned
    · rename_i inner
      cases scanned
      have shorter := Text.scan_length inner
      simp only [List.length_cons]
      omega
    · cases scanned
  · split at scanned
    · cases scanned
      simp
    · split at scanned
      · rename_i inner
        cases scanned
        exact Number.scan_length inner
      · cases scanned

def scanFrom (read : List Token) (chars : List Char) : Option (List Token) :=
  match chars with
  | [] => some read.reverse
  | char :: rest =>
      if isBlank char then scanFrom read rest
      else
        match _scanned : scanOne (char :: rest) with
        | some (token, rest) => scanFrom (token :: read) rest
        | none => none
termination_by chars.length
decreasing_by
  · simp
  · exact scanOne_length _scanned

def scan (chars : List Char) : Option (List Token) := scanFrom [] chars

def write : Token → List Char
  | arrayStart => ['[']
  | arrayEnd => [']']
  | objectStart => ['\x7b']
  | objectEnd => ['\x7d']
  | colon => [':']
  | comma => [',']
  | null => "null".toList
  | bool value => (if value then "true" else "false").toList
  | number literal => literal.write
  | text pieces => Text.write pieces

end Token

end VoteGossip.Json
