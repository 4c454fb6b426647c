/-!
Number literals.

A literal is kept as it was written. Only one that is a plain row of digits, without sign, fraction
or exponent, denotes a natural number here, however the others would come out.
-/

set_option autoImplicit false

namespace VoteGossip.Json

inductive Number where
  | natural (digits : List Char)
  /-- A literal with a sign, a fraction or an exponent. -/
  | other (literal : List Char)
  deriving DecidableEq

namespace Number

def isDigit (char : Char) : Bool := '0' ≤ char && char ≤ '9'

def scanWhole : List Char → Option (List Char × List Char)
  | [] => none
  | char :: rest =>
      if char = '0' then some (['0'], rest)
      else if isDigit char then
        some (char :: rest.takeWhile isDigit, rest.dropWhile isDigit)
      else none

def scanDigits (mark chars : List Char) : Option (List Char × List Char) :=
  let digits := chars.takeWhile isDigit
  if digits.isEmpty then none else some (mark ++ digits, chars.dropWhile isDigit)

def scanFraction : List Char → Option (List Char × List Char)
  | '.' :: rest => scanDigits ['.'] rest
  | chars => some ([], chars)

def scanExponent : List Char → Option (List Char × List Char)
  | [] => some ([], [])
  | char :: rest =>
      if char = 'e' ∨ char = 'E' then
        match rest with
        | '+' :: rest => scanDigits [char, '+'] rest
        | '-' :: rest => scanDigits [char, '-'] rest
        | rest => scanDigits [char] rest
      else some ([], char :: rest)

def scanUnsigned (chars : List Char) : Option (Number × List Char) :=
  match scanWhole chars with
  | none => none
  | some (whole, rest) =>
      match scanFraction rest with
      | none => none
      | some (fraction, rest) =>
          match scanExponent rest with
          | none => none
          | some (exponent, rest) =>
              if fraction.isEmpty && exponent.isEmpty then some (.natural whole, rest)
              else some (.other (whole ++ fraction ++ exponent), rest)

def write : Number → List Char
  | natural digits => digits
  | other literal => literal

def scan : List Char → Option (Number × List Char)
  | '-' :: rest =>
      match scanUnsigned rest with
      | some (number, rest) => some (.other ('-' :: number.write), rest)
      | none => none
  | chars => scanUnsigned chars

theorem scanWhole_length {chars whole rest : List Char}
    (scanned : scanWhole chars = some (whole, rest)) : rest.length < chars.length := by
  cases chars with
  | nil => cases scanned
  | cons char tail =>
      simp only [scanWhole] at scanned
      split at scanned
      · cases scanned
        simp
      · split at scanned
        · cases scanned
          have shorter : (tail.dropWhile isDigit).length ≤ tail.length :=
            (List.dropWhile_sublist isDigit).length_le
          simp only [List.length_cons]
          omega
        · cases scanned

theorem scanDigits_length {mark chars digits rest : List Char}
    (scanned : scanDigits mark chars = some (digits, rest)) : rest.length ≤ chars.length := by
  simp only [scanDigits] at scanned
  split at scanned
  · cases scanned
  · cases scanned
    exact (List.dropWhile_sublist isDigit).length_le

theorem scanFraction_length {chars fraction rest : List Char}
    (scanned : scanFraction chars = some (fraction, rest)) : rest.length ≤ chars.length := by
  unfold scanFraction at scanned
  split at scanned
  · have shorter := scanDigits_length scanned
    simp only [List.length_cons]
    omega
  · cases scanned
    exact Nat.le_refl _

theorem scanExponent_length {chars exponent rest : List Char}
    (scanned : scanExponent chars = some (exponent, rest)) : rest.length ≤ chars.length := by
  unfold scanExponent at scanned
  split at scanned
  · cases scanned
    exact Nat.le_refl _
  · split at scanned
    · split at scanned
      all_goals
        have shorter := scanDigits_length scanned
        simp only [List.length_cons]
        omega
    · cases scanned
      exact Nat.le_refl _

theorem scanUnsigned_length {chars rest : List Char} {number : Number}
    (scanned : scanUnsigned chars = some (number, rest)) : rest.length < chars.length := by
  unfold scanUnsigned at scanned
  split at scanned
  · cases scanned
  · rename_i whole behindWhole wholeScanned
    have first := scanWhole_length wholeScanned
    split at scanned
    · cases scanned
    · rename_i fraction behindFraction fractionScanned
      have second := scanFraction_length fractionScanned
      split at scanned
      · cases scanned
      · rename_i exponent behindExponent exponentScanned
        have third := scanExponent_length exponentScanned
        split at scanned
        all_goals
          cases scanned
          omega

theorem scan_length {chars rest : List Char} {number : Number}
    (scanned : scan chars = some (number, rest)) : rest.length < chars.length := by
  unfold scan at scanned
  split at scanned
  · split at scanned
    · rename_i inner
      cases scanned
      have shorter := scanUnsigned_length inner
      simp only [List.length_cons]
      omega
    · cases scanned
  · exact scanUnsigned_length scanned

def ofNat (value : Nat) : Number := .natural (Nat.toDigits 10 value)

/-- Continues the value of a row of digits and gives up once it exceeds the bound. -/
def accumulate (bound : Nat) : Nat → List Char → Option Nat
  | value, [] => if value ≤ bound then some value else none
  | value, digit :: rest =>
      if bound < value then none
      else accumulate bound (value * 10 + (digit.toNat - '0'.toNat)) rest

def upTo? (bound : Nat) : Number → Option Nat
  | natural digits => accumulate bound 0 digits
  | other _ => none

end Number

end VoteGossip.Json
