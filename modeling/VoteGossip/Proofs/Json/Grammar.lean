import VoteGossip.Json.Basic

/-!
The grammar of JSON documents: which characters spell a number, a text and a whole document, and
which string a text denotes. Blanks may stand around every value and every key. The grammar knows
nothing of tokens, of a stack of open arrays and objects, or of how a reader finds its way.
-/

set_option autoImplicit false

namespace VoteGossip.Json

namespace Number

def Digits (chars : List Char) : Prop := ∀ char ∈ chars, char.isDigit = true

inductive Whole : List Char → Prop where
  | zero : Whole ['0']
  | row (first : Char) (rest : List Char) (leads : first.isDigit = true) (nonzero : first ≠ '0')
      (digits : Digits rest) : Whole (first :: rest)

inductive Fraction : List Char → Prop where
  | absent : Fraction []
  | present (digits : List Char) (nonempty : digits ≠ []) (row : Digits digits) :
      Fraction ('.' :: digits)

inductive Exponent : List Char → Prop where
  | absent : Exponent []
  | present (mark : Char) (sign digits : List Char) (marked : mark = 'e' ∨ mark = 'E')
      (signed : sign = [] ∨ sign = ['+'] ∨ sign = ['-']) (nonempty : digits ≠ [])
      (row : Digits digits) : Exponent (mark :: (sign ++ digits))

/-- A literal is kept as it is spelled. -/
inductive Spells : Number → List Char → Prop where
  | natural (whole : List Char) (wellFormed : Whole whole) : Spells (.natural whole) whole
  | other (sign whole fraction exponent : List Char) (signed : sign = [] ∨ sign = ['-'])
      (wellFormed : Whole whole) (fractional : Fraction fraction) (exponential : Exponent exponent)
      (more : sign ++ fraction ++ exponent ≠ []) :
      Spells (.other (sign ++ (whole ++ (fraction ++ exponent))))
        (sign ++ (whole ++ (fraction ++ exponent)))

end Number

/-- Letters and marks that stand for another character behind a backslash. -/
def shortEscapes : List (Char × Char) :=
  [('"', '"'), ('\\', '\\'), ('/', '/'), ('b', '\x08'), ('f', '\x0c'), ('n', '\n'), ('r', '\r'),
    ('t', '\t')]

def HexDigit (char : Char) (value : Nat) : Prop :=
  value < 16 ∧ (char = Nat.digitChar value ∨ char = (Nat.digitChar value).toUpper)

instance (char : Char) (value : Nat) : Decidable (HexDigit char value) :=
  inferInstanceAs (Decidable (_ ∧ _))

def Plain (char : Char) : Prop := 0x20 ≤ char.toNat ∧ char ≠ '"' ∧ char ≠ '\\'

instance (char : Char) : Decidable (Plain char) :=
  inferInstanceAs (Decidable (_ ∧ _))

def AllPlain (chars : List Char) : Prop := ∀ char ∈ chars, Plain char

instance (chars : List Char) : Decidable (AllPlain chars) := List.decidableBAll Plain chars

inductive Piece.Spells : Piece → List Char → Prop where
  | plain (char : Char) (plain : Plain char) : Spells (.char char) [char]
  | escape (letter char : Char) (listed : (letter, char) ∈ shortEscapes) :
      Spells (.char char) ['\\', letter]
  | unit (first second third fourth : Char) (a b c d : Nat) (unit : UInt16)
      (firstDigit : HexDigit first a) (secondDigit : HexDigit second b)
      (thirdDigit : HexDigit third c) (fourthDigit : HexDigit fourth d)
      (value : unit.toNat = ((a * 16 + b) * 16 + c) * 16 + d) :
      Spells (.unit unit) ['\\', 'u', first, second, third, fourth]

inductive Text.Spells : Text → List Char → Prop where
  | nil : Spells [] []
  | cons (piece : Piece) (rest : Text) (front back : List Char) (first : piece.Spells front)
      (follow : Text.Spells rest back) : Spells (piece :: rest) (front ++ back)

theorem Text.spells_plain (chars : List Char) (plain : AllPlain chars) :
    Text.Spells (chars.map .char) chars := by
  induction chars with
  | nil => exact .nil
  | cons char later ih =>
      have first : Piece.Spells (.char char) [char] := .plain char (plain char List.mem_cons_self)
      have others : AllPlain later :=
        fun other among => plain other (List.mem_cons_of_mem char among)
      exact .cons _ _ _ _ first (ih others)

/-- A character in UTF-16: one unit below 65536, and two surrogates from there on. -/
def utf16 (char : Char) : List UInt16 :=
  if char.toNat < 0x10000 then [char.toNat.toUInt16]
  else
    let offset := char.toNat - 0x10000
    [(0xD800 + offset / 0x400).toUInt16, (0xDC00 + offset % 0x400).toUInt16]

/-- The string that a text denotes. Every character is written as itself or in UTF-16. -/
inductive Text.Denotes : Text → List Char → Prop where
  | nil : Denotes [] []
  | char (char : Char) (text : Text) (chars : List Char) (follow : Text.Denotes text chars) :
      Denotes (.char char :: text) (char :: chars)
  | units (char : Char) (text : Text) (chars : List Char) (follow : Text.Denotes text chars) :
      Denotes ((utf16 char).map .unit ++ text) (char :: chars)

theorem Text.denotes_plain (chars : List Char) : Text.Denotes (chars.map .char) chars := by
  induction chars with
  | nil => exact .nil
  | cons char later ih => exact .char char _ _ ih

def Blank (chars : List Char) : Prop := ∀ char ∈ chars, char ∈ [' ', '\t', '\n', '\r']

instance (chars : List Char) : Decidable (Blank chars) :=
  List.decidableBAll (fun char => char ∈ [' ', '\t', '\n', '\r']) chars

/-- What a stretch of a document can be. -/
inductive Phrase where
  | value (json : Json)
  | element (json : Json)
  | items (items : List Json)
  | member (key : Text) (json : Json)
  | members (members : List (Text × Json))

inductive Derives : Phrase → List Char → Prop where
  | null : Derives (.value .null) ['n', 'u', 'l', 'l']
  | true : Derives (.value (.bool true)) ['t', 'r', 'u', 'e']
  | false : Derives (.value (.bool false)) ['f', 'a', 'l', 's', 'e']
  | number (number : Number) (chars : List Char) (spells : number.Spells chars) :
      Derives (.value (.number number)) chars
  | text (text : Text) (chars : List Char) (spells : text.Spells chars) :
      Derives (.value (.text text)) ('"' :: (chars ++ ['"']))
  | emptyArray (blanks : List Char) (blank : Blank blanks) :
      Derives (.value (.array [])) ('[' :: (blanks ++ [']']))
  | array (items : List Json) (chars : List Char) (inside : Derives (.items items) chars) :
      Derives (.value (.array items)) ('[' :: (chars ++ [']']))
  | emptyObject (blanks : List Char) (blank : Blank blanks) :
      Derives (.value (.object [])) ('\x7b' :: (blanks ++ ['\x7d']))
  | object (members : List (Text × Json)) (chars : List Char)
      (inside : Derives (.members members) chars) :
      Derives (.value (.object members)) ('\x7b' :: (chars ++ ['\x7d']))
  | element (json : Json) (before chars after : List Char) (blankBefore : Blank before)
      (value : Derives (.value json) chars) (blankAfter : Blank after) :
      Derives (.element json) (before ++ (chars ++ after))
  | lastItem (json : Json) (chars : List Char) (element : Derives (.element json) chars) :
      Derives (.items [json]) chars
  | item (json : Json) (items : List Json) (front back : List Char)
      (element : Derives (.element json) front) (follow : Derives (.items items) back) :
      Derives (.items (json :: items)) (front ++ ',' :: back)
  | member (key : Text) (json : Json) (before chars after value : List Char)
      (blankBefore : Blank before) (spells : key.Spells chars) (blankAfter : Blank after)
      (element : Derives (.element json) value) :
      Derives (.member key json) (before ++ '"' :: (chars ++ '"' :: (after ++ ':' :: value)))
  | lastMember (key : Text) (json : Json) (chars : List Char)
      (member : Derives (.member key json) chars) : Derives (.members [(key, json)]) chars
  | further (key : Text) (json : Json) (members : List (Text × Json)) (front back : List Char)
      (member : Derives (.member key json) front) (follow : Derives (.members members) back) :
      Derives (.members ((key, json) :: members)) (front ++ ',' :: back)

def Spells (json : Json) (text : String) : Prop := Derives (.element json) text.toList

end VoteGossip.Json
