/-!
Text between quotes.

A written text is a sequence of pieces: characters, and code units that were given as four
hexadecimal digits. The units are UTF-16, so a character beyond the first 65536 takes two of them,
a high surrogate and a low one. A text can be well formed and still denote no string, namely when
a surrogate stands alone; only who needs the string has to refuse it.
-/

set_option autoImplicit false

namespace VoteGossip.Json

inductive Piece where
  | char (char : Char)
  | unit (unit : UInt16)
  deriving DecidableEq

abbrev Text := List Piece

namespace Text

def ofString (string : String) : Text := string.toList.map .char

def isHighSurrogate (unit : UInt16) : Bool := 0xD800 ≤ unit && unit < 0xDC00

def isLowSurrogate (unit : UInt16) : Bool := 0xDC00 ≤ unit && unit < 0xE000

def joinSurrogates (high low : UInt16) : Char :=
  Char.ofNat (0x10000 + (high.toNat - 0xD800) * 0x400 + (low.toNat - 0xDC00))

/-- The characters that a text denotes, unless a surrogate stands alone. -/
def chars? : Text → Option (List Char)
  | [] => some []
  | .char char :: rest => (chars? rest).map (char :: ·)
  | .unit high :: .unit low :: rest =>
      if isHighSurrogate high then
        if isLowSurrogate low then (chars? rest).map (joinSurrogates high low :: ·) else none
      else if isLowSurrogate high then none
      else (chars? (.unit low :: rest)).map (Char.ofNat high.toNat :: ·)
  | .unit unit :: rest =>
      if isHighSurrogate unit || isLowSurrogate unit then none
      else (chars? rest).map (Char.ofNat unit.toNat :: ·)

def string? (text : Text) : Option String := (chars? text).map String.ofList

def shortEscape? : Char → Option Char
  | '"' => some '"'
  | '\\' => some '\\'
  | '/' => some '/'
  | 'b' => some '\x08'
  | 'f' => some '\x0c'
  | 'n' => some '\n'
  | 'r' => some '\r'
  | 't' => some '\t'
  | _ => none

def hexValue? (char : Char) : Option Nat :=
  if '0' ≤ char ∧ char ≤ '9' then some (char.toNat - '0'.toNat)
  else if 'a' ≤ char ∧ char ≤ 'f' then some (char.toNat - 'a'.toNat + 10)
  else if 'A' ≤ char ∧ char ≤ 'F' then some (char.toNat - 'A'.toNat + 10)
  else none

def hexUnit? (first second third fourth : Char) : Option UInt16 := do
  let a ← hexValue? first
  let b ← hexValue? second
  let c ← hexValue? third
  let d ← hexValue? fourth
  return (a * 4096 + b * 256 + c * 16 + d).toUInt16

/-- Reads up to the closing quote; `read` holds the pieces so far, the last one first. -/
def scan (read : List Piece) : List Char → Option (Text × List Char)
  | [] => none
  | '"' :: rest => some (read.reverse, rest)
  | '\\' :: 'u' :: a :: b :: c :: d :: rest =>
      match hexUnit? a b c d with
      | some unit => scan (.unit unit :: read) rest
      | none => none
  | '\\' :: escape :: rest =>
      match shortEscape? escape with
      | some char => scan (.char char :: read) rest
      | none => none
  | char :: rest =>
      if char.toNat < 0x20 || char = '\\' then none else scan (.char char :: read) rest

theorem scan_length {read : List Piece} {chars rest : List Char} {text : Text}
    (scanned : scan read chars = some (text, rest)) : rest.length < chars.length := by
  fun_induction scan read chars with
  | case1 read => cases scanned
  | case2 read tail =>
      cases scanned
      simp
  | case3 read a b c d tail unit known ih =>
      have shorter := ih scanned
      simp only [List.length_cons]
      omega
  | case4 read a b c d tail unknown => cases scanned
  | case5 read escape tail notHex char known ih =>
      have shorter := ih scanned
      simp only [List.length_cons]
      omega
  | case6 read escape tail notHex unknown => cases scanned
  | case7 read char tail => cases scanned
  | case8 read char tail notQuote notHex notEscape plain ih =>
      have shorter := ih scanned
      simp only [List.length_cons]
      omega

def hexDigit (value : Nat) : Char :=
  if value < 10 then Char.ofNat ('0'.toNat + value) else Char.ofNat ('a'.toNat + (value - 10))

def writeUnit (unit : Nat) : List Char :=
  ['\\', 'u', hexDigit (unit / 4096 % 16), hexDigit (unit / 256 % 16),
    hexDigit (unit / 16 % 16), hexDigit (unit % 16)]

/-- The shortest way to write a character: only quote, backslash and controls are escaped. -/
def writeChar : Char → List Char
  | '"' => ['\\', '"']
  | '\\' => ['\\', '\\']
  | '\x08' => ['\\', 'b']
  | '\x0c' => ['\\', 'f']
  | '\n' => ['\\', 'n']
  | '\r' => ['\\', 'r']
  | '\t' => ['\\', 't']
  | char => if char.toNat < 0x20 then writeUnit char.toNat else [char]

def writePiece : Piece → List Char
  | .char char => writeChar char
  | .unit unit => writeUnit unit.toNat

def write (text : Text) : List Char :=
  '"' :: (text.flatMap writePiece ++ ['"'])

end Text

end VoteGossip.Json
