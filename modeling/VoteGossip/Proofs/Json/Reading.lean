import Mathlib.Tactic.IntervalCases
import VoteGossip.Proofs.Json.Grammar

/-!
The reader accepts whatever the grammar derives and finds the document that was spelled.

Both passes are followed in one induction on the grammar: characters that spell a phrase are read
as tokens, and these take the stack of open arrays and objects from waiting for the phrase to
having it. Only a number does not show where it ends. It ends where nothing follows that would
carry it on, and nothing of that kind follows a value in a document.
-/

set_option autoImplicit false

namespace VoteGossip.Json

/-! ### Numbers -/

namespace Number

variable {whole fraction exponent rest : List Char} {number : Number}

def NoDigit (rest : List Char) : Prop := ∀ char ∈ rest.head?, char.isDigit = false

def NoFraction (rest : List Char) : Prop :=
  ∀ char ∈ rest.head?, char.isDigit = false ∧ char ≠ '.'

def Ends (rest : List Char) : Prop :=
  ∀ char ∈ rest.head?, char.isDigit = false ∧ char ≠ '.' ∧ char ≠ 'e' ∧ char ≠ 'E'

theorem NoDigit.scans (stops : NoDigit rest) :
    rest.takeWhile isDigit = [] ∧ rest.dropWhile isDigit = rest := by
  cases rest with
  | nil => exact ⟨rfl, rfl⟩
  | cons char later =>
      have other : isDigit char = false := stops char rfl
      simp [other]

theorem takeWhile_digits {digits : List Char} (row : Digits digits) (stops : NoDigit rest) :
    (digits ++ rest).takeWhile isDigit = digits := by
  have all : ∀ char ∈ digits, isDigit char = true := row
  rw [List.takeWhile_append_of_pos all, stops.scans.1, List.append_nil]

theorem dropWhile_digits {digits : List Char} (row : Digits digits) (stops : NoDigit rest) :
    (digits ++ rest).dropWhile isDigit = rest := by
  have all : ∀ char ∈ digits, isDigit char = true := row
  rw [List.dropWhile_append_of_pos all, stops.scans.2]

theorem scanWhole_of_whole (wellFormed : Whole whole) (stops : NoDigit rest) :
    scanWhole (whole ++ rest) = some (whole, rest) := by
  cases wellFormed with
  | zero => rfl
  | row first later leads nonzero digits =>
      have leading : isDigit first = true := leads
      simp only [List.cons_append, scanWhole, if_neg nonzero, leading, if_true,
        takeWhile_digits digits stops, dropWhile_digits digits stops]

theorem scanDigits_of_digits {digits : List Char} (nonempty : digits ≠ []) (row : Digits digits)
    (stops : NoDigit rest) (mark : List Char) :
    scanDigits mark (digits ++ rest) = some (mark ++ digits, rest) := by
  simp [scanDigits, takeWhile_digits row stops, dropWhile_digits row stops, nonempty]

theorem scanFraction_of_fraction (fractional : Fraction fraction) (stops : NoFraction rest) :
    scanFraction (fraction ++ rest) = some (fraction, rest) := by
  cases fractional with
  | absent =>
      cases rest with
      | nil => rfl
      | cons char later =>
          have other : char ≠ '.' := (stops char rfl).2
          simp [scanFraction, other]
  | present digits nonempty row =>
      exact scanDigits_of_digits nonempty row (fun char first => (stops char first).1) ['.']

theorem scanExponent_of_exponent (exponential : Exponent exponent) (stops : Ends rest) :
    scanExponent (exponent ++ rest) = some (exponent, rest) := by
  cases exponential with
  | absent =>
      cases rest with
      | nil => rfl
      | cons char later =>
          have other := (stops char rfl).2.2
          simp [scanExponent, other]
  | present mark sign digits marked signed nonempty row =>
      have scanned (sign : List Char) : scanDigits (mark :: sign) (digits ++ rest) =
          some (mark :: (sign ++ digits), rest) :=
        scanDigits_of_digits nonempty row (fun char first => (stops char first).1) (mark :: sign)
      rcases signed with rfl | rfl | rfl
      · obtain ⟨first, later, rfl⟩ := List.exists_cons_of_ne_nil nonempty
        have leads : first.isDigit = true := row first List.mem_cons_self
        have notPlus : first ≠ '+' := by
          rintro rfl
          cases leads
        have notMinus : first ≠ '-' := by
          rintro rfl
          cases leads
        simpa [scanExponent, marked, notPlus, notMinus] using scanned []
      · simpa [scanExponent, marked] using scanned ['+']
      · simpa [scanExponent, marked] using scanned ['-']

theorem Exponent.noFraction (exponential : Exponent exponent) (stops : Ends rest) :
    NoFraction (exponent ++ rest) := by
  cases exponential with
  | absent => exact fun char first => ⟨(stops char first).1, (stops char first).2.1⟩
  | present mark sign digits marked =>
      intro char first
      cases first
      rcases marked with rfl | rfl <;> decide

theorem Fraction.noDigit (fractional : Fraction fraction) (stops : NoFraction rest) :
    NoDigit (fraction ++ rest) := by
  cases fractional with
  | absent => exact fun char first => (stops char first).1
  | present digits nonempty row =>
      intro char first
      cases first
      rfl

theorem scanUnsigned_eq (wellFormed : Whole whole) (fractional : Fraction fraction)
    (exponential : Exponent exponent) (stops : Ends rest) :
    scanUnsigned (whole ++ (fraction ++ (exponent ++ rest))) =
      if fraction ++ exponent = [] then some (.natural whole, rest)
      else some (.other (whole ++ (fraction ++ exponent)), rest) := by
  have afterFraction := exponential.noFraction stops
  have afterWhole := fractional.noDigit afterFraction
  simp only [scanUnsigned, scanWhole_of_whole wellFormed afterWhole,
    scanFraction_of_fraction fractional afterFraction, scanExponent_of_exponent exponential stops,
    Bool.and_eq_true, List.isEmpty_iff, List.append_eq_nil_iff, List.append_assoc]

theorem Whole.leads (wellFormed : Whole whole) :
    ∃ first later, whole = first :: later ∧ first.isDigit = true := by
  cases wellFormed with
  | zero => exact ⟨'0', [], rfl, rfl⟩
  | row first later leads => exact ⟨first, later, rfl, leads⟩

theorem Spells.leads {chars : List Char} (spells : number.Spells chars) :
    ∃ first later, chars = first :: later ∧ (first.isDigit = true ∨ first = '-') := by
  cases spells with
  | natural whole wellFormed =>
      obtain ⟨first, later, rfl, leads⟩ := wellFormed.leads
      exact ⟨first, later, rfl, Or.inl leads⟩
  | other sign whole fraction exponent signed wellFormed =>
      obtain ⟨first, later, rfl, leads⟩ := wellFormed.leads
      rcases signed with rfl | rfl
      · exact ⟨first, _, rfl, Or.inl leads⟩
      · exact ⟨'-', _, rfl, Or.inr rfl⟩

theorem scan_of_digit {first : Char} (leads : first.isDigit = true) (later : List Char) :
    scan (first :: later) = scanUnsigned (first :: later) := by
  have notMinus : first ≠ '-' := by
    rintro rfl
    cases leads
  simp [scan, notMinus]

theorem scan_of_spells {chars : List Char} (spells : number.Spells chars) (stops : Ends rest) :
    scan (chars ++ rest) = some (number, rest) := by
  cases spells with
  | natural whole wellFormed =>
      obtain ⟨first, later, rfl, leads⟩ := wellFormed.leads
      rw [List.cons_append, scan_of_digit leads]
      exact scanUnsigned_eq wellFormed .absent .absent stops
  | other sign whole fraction exponent signed wellFormed fractional exponential more =>
      have scanned := scanUnsigned_eq wellFormed fractional exponential stops
      simp only [List.append_assoc]
      rcases signed with rfl | rfl
      · obtain ⟨first, later, rfl, leads⟩ := wellFormed.leads
        rw [List.nil_append, List.cons_append, scan_of_digit leads, ← List.cons_append, scanned]
        exact if_neg more
      · simp only [List.cons_append, List.nil_append, scan, scanned]
        by_cases plain : fraction ++ exponent = []
        · rw [if_pos plain, plain, List.append_nil]
          rfl
        · rw [if_neg plain]
          rfl

end Number

/-! ### Texts -/

theorem hexValue?_of_hexDigit {char : Char} {value : Nat} (digit : HexDigit char value) :
    Text.hexValue? char = some value := by
  obtain ⟨within, lower | upper⟩ := digit
  · subst lower
    interval_cases value <;> rfl
  · subst upper
    interval_cases value <;> rfl

theorem shortEscape?_of_listed {letter char : Char} (listed : (letter, char) ∈ shortEscapes) :
    Text.shortEscape? letter = some char ∧ letter ≠ 'u' := by
  simp only [shortEscapes, List.mem_cons, Prod.mk.injEq, List.not_mem_nil, or_false] at listed
  rcases listed with ⟨rfl, rfl⟩ | ⟨rfl, rfl⟩ | ⟨rfl, rfl⟩ | ⟨rfl, rfl⟩ | ⟨rfl, rfl⟩ | ⟨rfl, rfl⟩ |
    ⟨rfl, rfl⟩ | ⟨rfl, rfl⟩
  all_goals exact ⟨rfl, by decide⟩

namespace Text

theorem scan_of_piece {piece : Piece} {chars : List Char} (spells : piece.Spells chars)
    (read : List Piece) (rest : List Char) :
    scan read (chars ++ rest) = scan (piece :: read) rest := by
  cases spells with
  | plain char plain =>
      obtain ⟨printable, notQuote, notBackslash⟩ := plain
      rw [List.singleton_append, scan.eq_def]
      simp [notBackslash, Nat.not_lt.mpr printable]
  | escape letter char listed =>
      obtain ⟨known, notHex⟩ := shortEscape?_of_listed listed
      change scan read ('\\' :: letter :: rest) = _
      rw [scan.eq_def]
      simp [notHex, known]
  | unit first second third fourth a b c d unit firstDigit secondDigit thirdDigit fourthDigit
      value =>
      have known : hexUnit? first second third fourth = some unit := by
        simp only [hexUnit?, hexValue?_of_hexDigit firstDigit, hexValue?_of_hexDigit secondDigit,
          hexValue?_of_hexDigit thirdDigit, hexValue?_of_hexDigit fourthDigit, Option.bind_eq_bind,
          Option.bind_some, Option.pure_def, Option.some.injEq]
        have same : a * 4096 + b * 256 + c * 16 + d = unit.toNat := by omega
        rw [same]
        exact UInt16.ofNat_toNat
      change scan read ('\\' :: 'u' :: first :: second :: third :: fourth :: rest) = _
      rw [scan.eq_def]
      simp [known]

theorem scan_of_spells {text : Text} {chars : List Char} (spells : text.Spells chars)
    (read : List Piece) (rest : List Char) :
    scan read (chars ++ '"' :: rest) = some (read.reverse ++ text, rest) := by
  induction spells generalizing read with
  | nil => simp [scan]
  | cons piece later front back first follow ih =>
      rw [List.append_assoc, scan_of_piece first, ih]
      simp

theorem isHighSurrogate_iff (unit : UInt16) :
    isHighSurrogate unit = true ↔ 0xD800 ≤ unit.toNat ∧ unit.toNat < 0xDC00 := by
  simp [isHighSurrogate, UInt16.le_iff_toNat_le, UInt16.lt_iff_toNat_lt]

theorem isLowSurrogate_iff (unit : UInt16) :
    isLowSurrogate unit = true ↔ 0xDC00 ≤ unit.toNat ∧ unit.toNat < 0xE000 := by
  simp [isLowSurrogate, UInt16.le_iff_toNat_le, UInt16.lt_iff_toNat_lt]

theorem chars?_unit {unit : UInt16} (notHigh : isHighSurrogate unit = false)
    (notLow : isLowSurrogate unit = false) (text : Text) :
    chars? (.unit unit :: text) = (chars? text).map (Char.ofNat unit.toNat :: ·) := by
  cases text with
  | nil => simp [chars?, notHigh, notLow]
  | cons piece later => cases piece <;> simp [chars?, notHigh, notLow]

theorem toNat_cases (char : Char) :
    char.toNat < 0xD800 ∨ 0xDFFF < char.toNat ∧ char.toNat < 0x110000 := char.valid

theorem chars?_utf16 (char : Char) (text : Text) :
    chars? ((utf16 char).map .unit ++ text) = (chars? text).map (char :: ·) := by
  have valid := toNat_cases char
  by_cases single : char.toNat < 0x10000
  · have unit_toNat : char.toNat.toUInt16.toNat = char.toNat := UInt16.toNat_ofNat_of_lt single
    have notHigh : isHighSurrogate char.toNat.toUInt16 = false := by
      rw [← Bool.not_eq_true, isHighSurrogate_iff, unit_toNat]
      omega
    have notLow : isLowSurrogate char.toNat.toUInt16 = false := by
      rw [← Bool.not_eq_true, isLowSurrogate_iff, unit_toNat]
      omega
    rw [utf16, if_pos single, List.map_singleton, List.singleton_append,
      chars?_unit notHigh notLow, unit_toNat, Char.ofNat_toNat]
  · rw [utf16, if_neg single]
    generalize offset_eq : char.toNat - 0x10000 = offset
    have high_toNat : (0xD800 + offset / 0x400).toUInt16.toNat = 0xD800 + offset / 0x400 :=
      UInt16.toNat_ofNat_of_lt (by change _ < 65536; omega)
    have low_toNat : (0xDC00 + offset % 0x400).toUInt16.toNat = 0xDC00 + offset % 0x400 :=
      UInt16.toNat_ofNat_of_lt (by change _ < 65536; omega)
    have isHigh : isHighSurrogate (0xD800 + offset / 0x400).toUInt16 = true := by
      rw [isHighSurrogate_iff, high_toNat]
      omega
    have isLow : isLowSurrogate (0xDC00 + offset % 0x400).toUInt16 = true := by
      rw [isLowSurrogate_iff, low_toNat]
      omega
    have joined : joinSurrogates (0xD800 + offset / 0x400).toUInt16
        (0xDC00 + offset % 0x400).toUInt16 = char := by
      have code : 0x10000 + (0xD800 + offset / 0x400 - 0xD800) * 0x400 +
          (0xDC00 + offset % 0x400 - 0xDC00) = char.toNat := by omega
      rw [joinSurrogates, high_toNat, low_toNat, code, Char.ofNat_toNat]
    simp only [List.map_cons, List.map_nil, List.cons_append, List.nil_append, chars?, isHigh,
      isLow, if_true, joined]

theorem chars?_of_denotes {text : Text} {chars : List Char} (denotes : text.Denotes chars) :
    chars? text = some chars := by
  induction denotes with
  | nil => rfl
  | char char text chars follow ih => simp only [chars?, ih, Option.map_some]
  | units char text chars follow ih => rw [chars?_utf16, ih, Option.map_some]

theorem string?_of_denotes {text : Text} {name : String} (denotes : text.Denotes name.toList) :
    string? text = some name := by
  rw [string?, chars?_of_denotes denotes, Option.map_some, String.ofList_toList]

end Text

/-! ### Tokens -/

namespace Token

variable {front back : List Char} {early late : List Token} {token : Token}

/-- Wherever a number may end behind them, these characters are read as these tokens. -/
def Reads (chars : List Char) (tokens : List Token) : Prop :=
  ∀ read rest, Number.Ends rest →
    scanFrom read (chars ++ rest) = scanFrom (tokens.reverse ++ read) rest

theorem scanFrom_of_scanOne {char : Char} {rest later : List Char} (ink : isBlank char = false)
    (scanned : scanOne (char :: rest) = some (token, later)) (read : List Token) :
    scanFrom read (char :: rest) = scanFrom (token :: read) later := by
  rw [scanFrom, if_neg (Bool.not_eq_true _ ▸ ink)]
  split
  · rename_i found
    rw [scanned] at found
    cases found
    rfl
  · rename_i missing
    rw [scanned] at missing
    cases missing

theorem scanFrom_blank {blanks : List Char} (blank : Blank blanks) (read : List Token)
    (rest : List Char) : scanFrom read (blanks ++ rest) = scanFrom read rest := by
  induction blanks with
  | nil => rfl
  | cons char later ih =>
      have first : isBlank char = true := by
        have listed := blank char List.mem_cons_self
        simpa [isBlank, or_assoc] using listed
      rw [List.cons_append, scanFrom, if_pos first]
      exact ih fun other among => blank other (List.mem_cons_of_mem char among)

theorem scanOne_of_mark {char : Char} (marks : mark? char = some token) (rest : List Char) :
    scanOne (char :: rest) = some (token, rest) ∧ isBlank char = false := by
  unfold mark? at marks
  split at marks
  all_goals
    cases marks
    try exact ⟨rfl, rfl⟩

theorem scanOne_of_number {first : Char} {later rest : List Char} {number : Number}
    (leads : first.isDigit = true ∨ first = '-')
    (scanned : Number.scan (first :: later) = some (number, rest)) :
    scanOne (first :: later) = some (.number number, rest) ∧ isBlank first = false := by
  have unmarked : mark? first = none := by
    unfold mark?
    split
    all_goals first
      | rfl
      | exact absurd leads (by decide)
  constructor
  · unfold scanOne
    split
    case h_6 same =>
      cases same
      simp only [unmarked, scanned]
    all_goals
      rename_i same
      cases same
      try exact absurd leads (by decide)
  · rw [← Bool.not_eq_true]
    intro blank
    simp only [isBlank, Bool.or_eq_true, beq_iff_eq] at blank
    rcases blank with ((rfl | rfl) | rfl) | rfl
    all_goals exact absurd leads (by decide)

theorem ends_of_mark {char : Char} (marks : mark? char = some token) (rest : List Char) :
    Number.Ends (char :: rest) := by
  intro other first
  cases first
  unfold mark? at marks
  split at marks
  all_goals first
    | decide
    | cases marks

theorem ends_of_blank {blanks rest : List Char} (blank : Blank blanks) (stops : Number.Ends rest) :
    Number.Ends (blanks ++ rest) := by
  cases blanks with
  | nil => exact stops
  | cons char later =>
      intro other first
      cases first
      have listed := blank char List.mem_cons_self
      simp only [List.mem_cons, List.not_mem_nil, or_false] at listed
      rcases listed with rfl | rfl | rfl | rfl
      all_goals decide

namespace Reads

theorem nil : Reads [] [] := fun _read _rest _stops => rfl

theorem append (first : Reads front early) (second : Reads back late)
    (apart : ∀ rest, Number.Ends rest → Number.Ends (back ++ rest)) :
    Reads (front ++ back) (early ++ late) := by
  intro read rest stops
  rw [List.append_assoc, first read _ (apart rest stops), second _ rest stops, List.reverse_append,
    List.append_assoc]

theorem blank (blank : Blank front) (follow : Reads back late) : Reads (front ++ back) late := by
  intro read rest stops
  rw [List.append_assoc, scanFrom_blank blank]
  exact follow read rest stops

theorem behind (follow : Reads back late) (token : Token) (read : List Token) {rest : List Char}
    (stops : Number.Ends rest) :
    scanFrom (token :: read) (back ++ rest) = scanFrom ((token :: late).reverse ++ read) rest := by
  rw [follow _ rest stops, List.reverse_cons, List.append_assoc]
  rfl

/-- A literal that is a word of its own. -/
theorem word {char : Char} {later : List Char} (ink : isBlank char = false)
    (scanned : ∀ rest, scanOne (char :: (later ++ rest)) = some (token, rest)) :
    Reads (char :: later) [token] :=
  fun read rest _stops => scanFrom_of_scanOne ink (scanned rest) read

theorem mark {char : Char} (marks : mark? char = some token) (follow : Reads back late) :
    Reads (char :: back) (token :: late) := by
  intro read rest stops
  obtain ⟨scanned, ink⟩ := scanOne_of_mark marks (back ++ rest)
  rw [List.cons_append, scanFrom_of_scanOne ink scanned]
  exact follow.behind token read stops

theorem append_mark {char : Char} (first : Reads front early) (marks : mark? char = some token)
    (follow : Reads back late) : Reads (front ++ char :: back) (early ++ token :: late) :=
  first.append (.mark marks follow) fun _rest _stops => ends_of_mark marks _

theorem text {text : Text} {chars : List Char} (spells : text.Spells chars)
    (follow : Reads back late) : Reads ('"' :: (chars ++ '"' :: back)) (.text text :: late) := by
  intro read rest stops
  have scanned : scanOne ('"' :: (chars ++ '"' :: (back ++ rest))) =
      some (.text text, back ++ rest) := by
    simp [scanOne, Text.scan_of_spells spells]
  rw [List.cons_append, List.append_assoc, List.cons_append, scanFrom_of_scanOne rfl scanned]
  exact follow.behind (.text text) read stops

theorem number {number : Number} {chars : List Char} (spells : number.Spells chars) :
    Reads chars [.number number] := by
  intro read rest stops
  obtain ⟨first, later, rfl, leads⟩ := spells.leads
  have literal := Number.scan_of_spells spells stops
  obtain ⟨scanned, ink⟩ := scanOne_of_number leads literal
  exact scanFrom_of_scanOne ink scanned read

end Reads

end Token

/-! ### Documents -/

namespace Building

/-- A reader that can do all that another one can from here comes to the same, unless there is
nothing to do. -/
theorem foldlM_of_step {early late result : Building}
    (kept : ∀ token after, step late token = some after → step early token = some after)
    (moved : late ≠ result) {tokens : List Token}
    (read : tokens.foldlM step late = some result) : tokens.foldlM step early = some result := by
  cases tokens with
  | nil => exact absurd (Option.some.inj read) moved
  | cons token later =>
      rw [List.foldlM_cons] at read ⊢
      cases stepped : step late token with
      | none =>
          rw [stepped] at read
          cases read
      | some after =>
          rw [stepped] at read
          rw [kept token after stepped]
          exact read

theorem foldlM_item {stack outer : List Open} {json : Json} {tokens : List Token}
    (read : tokens.foldlM step { stack, expect := .value } =
      some { stack := outer, expect := .close json }) :
    tokens.foldlM step { stack, expect := .item } =
      some { stack := outer, expect := .close json } := by
  refine foldlM_of_step ?_ ?_ read
  · intro token after stepped
    cases token with
    | arrayEnd => cases stepped
    | _ => exact stepped
  · nofun

theorem foldlM_key {stack outer : List Open} {json : Json} {tokens : List Token}
    {members : List (Text × Json)}
    (read : tokens.foldlM step { stack, expect := .nextKey members } =
      some { stack := outer, expect := .close json }) :
    tokens.foldlM step { stack, expect := .key members } =
      some { stack := outer, expect := .close json } := by
  refine foldlM_of_step ?_ ?_ read
  · intro token after stepped
    cases token with
    | text key => exact stepped
    | _ => cases stepped
  · nofun

end Building

namespace Phrase

/-- The tokens take the stack from waiting for a phrase to having it; items and members together
with the token that closes them. -/
def Builds : Phrase → List Token → Prop
  | .value json, tokens
  | .element json, tokens =>
      ∀ stack, tokens.foldlM Building.step { stack, expect := .value } =
        some { stack, expect := .close json }
  | .items row, tokens =>
      ∀ outer done,
        (tokens ++ [Token.arrayEnd]).foldlM Building.step
            { stack := .array done :: outer, expect := .value } =
          some { stack := outer, expect := .close (.array (done.reverse ++ row)) }
  | .member key json, tokens =>
      ∀ stack done, tokens.foldlM Building.step { stack, expect := .nextKey done } =
        some { stack := .object done key :: stack, expect := .close json }
  | .members row, tokens =>
      ∀ stack done,
        (tokens ++ [Token.objectEnd]).foldlM Building.step { stack, expect := .nextKey done } =
          some { stack, expect := .close (.object (done.reverse ++ row)) }

end Phrase

/-- What the grammar derives is read as tokens that build the phrase. Of what stands around it,
the characters behind it only have to end a number, and the stack below it may be any. -/
theorem Derives.exists_tokens {phrase : Phrase} {chars : List Char}
    (derives : Derives phrase chars) :
    ∃ tokens, Token.Reads chars tokens ∧ phrase.Builds tokens := by
  induction derives with
  | null => exact ⟨[.null], .word rfl fun _rest => rfl, fun _stack => rfl⟩
  | true => exact ⟨[.bool Bool.true], .word rfl fun _rest => rfl, fun _stack => rfl⟩
  | false => exact ⟨[.bool Bool.false], .word rfl fun _rest => rfl, fun _stack => rfl⟩
  | number number chars spells =>
      exact ⟨[.number number], .number spells, fun _stack => rfl⟩
  | text text chars spells =>
      exact ⟨[.text text], .text spells .nil, fun _stack => rfl⟩
  | emptyArray blanks blank =>
      exact ⟨[.arrayStart, .arrayEnd], .mark rfl (.blank blank (.mark rfl .nil)), fun _stack => rfl⟩
  | array items chars inside ih =>
      obtain ⟨tokens, reads, builds⟩ := ih
      refine ⟨.arrayStart :: (tokens ++ [.arrayEnd]), .mark rfl (reads.append_mark rfl .nil), ?_⟩
      intro stack
      exact Building.foldlM_item (builds stack [])
  | emptyObject blanks blank =>
      exact ⟨[.objectStart, .objectEnd], .mark rfl (.blank blank (.mark rfl .nil)),
        fun _stack => rfl⟩
  | object members chars inside ih =>
      obtain ⟨tokens, reads, builds⟩ := ih
      refine ⟨.objectStart :: (tokens ++ [.objectEnd]), .mark rfl (reads.append_mark rfl .nil), ?_⟩
      intro stack
      exact Building.foldlM_key (builds stack [])
  | element json before chars after blankBefore value blankAfter ih =>
      obtain ⟨tokens, reads, builds⟩ := ih
      refine ⟨tokens, ?_, builds⟩
      -- Blanks end a number as well, so the value may stand in front of them.
      have followed : Token.Reads (chars ++ after) (tokens ++ []) :=
        .append reads (List.append_nil after ▸ .blank blankAfter .nil)
          fun _rest stops => Token.ends_of_blank blankAfter stops
      rw [List.append_nil] at followed
      exact .blank blankBefore followed
  | lastItem json chars element ih =>
      obtain ⟨tokens, reads, builds⟩ := ih
      refine ⟨tokens, reads, ?_⟩
      intro outer done
      rw [List.foldlM_append, builds]
      simp [Building.step, Building.endValue]
  | item json items front back element follow elementIh followIh =>
      obtain ⟨early, readsEarly, buildsEarly⟩ := elementIh
      obtain ⟨late, readsLate, buildsLate⟩ := followIh
      refine ⟨early ++ .comma :: late, readsEarly.append_mark rfl readsLate, ?_⟩
      intro outer done
      have built := buildsLate outer (json :: done)
      rw [List.reverse_cons, List.append_assoc] at built
      rw [List.append_assoc, List.foldlM_append, buildsEarly]
      exact built
  | member key json before chars after value blankBefore spells blankAfter element ih =>
      obtain ⟨tokens, reads, builds⟩ := ih
      have separated : Token.Reads (after ++ ':' :: value) (.colon :: tokens) :=
        .blank blankAfter (.mark rfl reads)
      refine ⟨.text key :: .colon :: tokens, .blank blankBefore (.text spells separated), ?_⟩
      intro stack done
      exact builds (.object done key :: stack)
  | lastMember key json chars member ih =>
      obtain ⟨tokens, reads, builds⟩ := ih
      refine ⟨tokens, reads, ?_⟩
      intro stack done
      rw [List.foldlM_append, builds]
      simp [Building.step, Building.endValue]
  | further key json members front back member follow memberIh followIh =>
      obtain ⟨early, readsEarly, buildsEarly⟩ := memberIh
      obtain ⟨late, readsLate, buildsLate⟩ := followIh
      refine ⟨early ++ .comma :: late, readsEarly.append_mark rfl readsLate, ?_⟩
      intro stack done
      have built := buildsLate stack ((key, json) :: done)
      rw [List.reverse_cons, List.append_assoc] at built
      rw [List.append_assoc, List.foldlM_append, buildsEarly]
      exact built

/-- Every text that the grammar derives is read as the document that it spells. -/
theorem parse?_of_spells {json : Json} {text : String} (spells : Spells json text) :
    parse? text = some json := by
  obtain ⟨tokens, reads, builds⟩ := spells.exists_tokens
  have scanned : Token.scan text.toList = some tokens := by
    have read := reads [] [] nofun
    rw [List.append_nil, List.append_nil, Token.scanFrom, List.reverse_reverse] at read
    exact read
  have built : tokens.foldlM Building.step Building.start =
      some { stack := [], expect := .close json } := builds []
  simp only [parse?, scanned, ofTokens?, built, Building.finish?]

end VoteGossip.Json
