import Mathlib.Data.List.Induction
import VoteGossip.Proofs.Message
import VoteGossip.Proofs.Wire.Layout

/-!
Which frames a codec accepts, and as what. A frame within the limit is accepted if it is a row of
fields whose last version is the supported one and whose last type is a type at all, both taken
modulo 2^32. What else stands in the row does not matter: fields without a meaning may stand
anywhere, numbers may be spelled longer than they need, and of entries of one field only the last
is heard.
-/

set_option autoImplicit false

namespace VoteGossip

namespace Wire.Envelope

namespace Entry

def messageType? : Entry → Option Nat
  | messageType number => some number
  | _ => none

def payload? : Entry → Option (List UInt8)
  | payload bytes => some bytes
  | _ => none

def version? : Entry → Option Nat
  | version number => some number
  | _ => none

/-- What the last of the entries that speaks of a content makes it. -/
def last {Content : Type} (content? : Entry → Option Content) (entries : List Entry) :
    Option Content :=
  (entries.filterMap content?).getLast?

variable {Content : Type} {content? : Entry → Option Content}

theorem last_snoc (entries : List Entry) (entry : Entry) :
    last content? (entries ++ [entry]) = (content? entry).or (last content? entries) := by
  unfold last
  rw [List.filterMap_append, List.getLast?_append]
  cases said : content? entry <;> simp only [List.filterMap_cons, said] <;> rfl

theorem last_overwritten {early late : List Entry} {entry : Entry}
    (overwritten : (content? entry).isSome = true →
      ∃ later ∈ late, (content? later).isSome = true) :
    last content? (early ++ entry :: late) = last content? (early ++ late) := by
  unfold last
  rw [List.filterMap_append, List.filterMap_append]
  cases said : content? entry with
  | none => rw [List.filterMap_cons_none said]
  | some content =>
      rw [said] at overwritten
      obtain ⟨later, member, speaks⟩ := overwritten rfl
      obtain ⟨heard, content_eq⟩ := Option.isSome_iff_exists.mp speaks
      have present : heard ∈ late.filterMap content? :=
        List.mem_filterMap.mpr ⟨later, member, content_eq⟩
      obtain ⟨final, ends⟩ := Option.isSome_iff_exists.mp
        (List.getLast?_isSome.mpr (List.ne_nil_of_mem present))
      rw [List.filterMap_cons_some said, List.getLast?_append, List.getLast?_append,
        List.getLast?_cons, ends]
      rfl

theorem foldl_enter (entries : List Entry) :
    entries.foldl enter {} =
      { messageType := ((last messageType? entries).getD 0).toUInt32
        payload := (last payload? entries).getD []
        version := ((last version? entries).getD 0).toUInt32 } := by
  induction entries using List.reverseRecOn with
  | nil => rfl
  | append_singleton earlier entry ih =>
      rw [List.foldl_append, ih, last_snoc, last_snoc, last_snoc]
      cases entry <;> rfl

theorem isSome_messageType? (entry : Entry) :
    entry.messageType?.isSome = decide (entry.field = .messageType) := by
  cases entry <;> rfl

theorem isSome_payload? (entry : Entry) :
    entry.payload?.isSome = decide (entry.field = .payload) := by
  cases entry <;> rfl

theorem isSome_version? (entry : Entry) :
    entry.version?.isSome = decide (entry.field = .version) := by
  cases entry <;> rfl

theorem foldl_enter_overwritten {early late : List Entry} {entry later : Entry}
    (member : later ∈ late) (same : later.field = entry.field) :
    (early ++ entry :: late).foldl enter {} = (early ++ late).foldl enter {} := by
  have unheard : ∀ {Content : Type} {content? : Entry → Option Content} {field : Field},
      (∀ entry, (content? entry).isSome = decide (entry.field = field)) →
      last content? (early ++ entry :: late) = last content? (early ++ late) := by
    intro Content content? field speaks
    apply last_overwritten
    intro said
    rw [speaks, ← same, ← speaks] at said
    exact ⟨later, member, said⟩
  rw [foldl_enter, foldl_enter, unheard isSome_messageType?, unheard isSome_payload?,
    unheard isSome_version?]

end Entry

end Wire.Envelope

open Wire.Envelope

namespace Message

theorem ofEnvelope_eq_ok_iff {envelope : Wire.Envelope} {message : Message} :
    ofEnvelope envelope = .ok message ↔
      envelope.version = 1 ∧ envelope.messageType ≠ 0 ∧
        message = if envelope.messageType = 1 then tx ⟨envelope.payload⟩
          else unknown envelope.messageType := by
  have supported :
      ¬ (envelope.version = 0 ∨ version < envelope.version) ↔ envelope.version = 1 := by
    rw [← UInt32.toNat_inj, ← UInt32.toNat_inj, UInt32.lt_iff_toNat_lt]
    change ¬ (envelope.version.toNat = 0 ∨ 1 < envelope.version.toNat) ↔ envelope.version.toNat = 1
    omega
  unfold ofEnvelope
  by_cases refused : envelope.version = 0 ∨ version < envelope.version
  · rw [if_pos refused]
    constructor
    · intro read
      cases read
    · intro accepted
      exact absurd refused (supported.mpr accepted.1)
  · rw [if_neg refused, and_iff_right (supported.mp refused)]
    by_cases missing : envelope.messageType = 0
    · rw [if_pos missing]
      constructor
      · intro read
        cases read
      · intro accepted
        exact absurd missing accepted.1
    · rw [if_neg missing, and_iff_right missing]
      change (if envelope.messageType = 1 then _ else _) = _ ↔ _
      by_cases known : envelope.messageType = 1
      · rw [if_pos known, if_pos known, Except.ok.injEq, eq_comm]
      · rw [if_neg known, if_neg known, Except.ok.injEq, eq_comm]

/-- What the entries of a frame come to, judged by the last version, type and payload among them. -/
structure Means (entries : List Entry) (message : Message) : Prop where
  supported : ∃ version, Entry.last Entry.version? entries = some version ∧ version % 2 ^ 32 = 1
  typed : ∃ messageType, Entry.last Entry.messageType? entries = some messageType ∧
    messageType % 2 ^ 32 ≠ 0 ∧
    message =
      if messageType % 2 ^ 32 = 1 then tx ⟨(Entry.last Entry.payload? entries).getD []⟩
      else unknown messageType.toUInt32

theorem toUInt32_eq_iff {number : Nat} {word : UInt32} :
    number.toUInt32 = word ↔ number % 2 ^ 32 = word.toNat := by
  rw [← UInt32.toNat_inj]
  exact Iff.rfl

theorem means_iff {entries : List Entry} {message : Message} :
    ofEnvelope (entries.foldl Entry.enter {}) = .ok message ↔ Means entries message := by
  rw [Entry.foldl_enter, ofEnvelope_eq_ok_iff]
  simp only [ne_eq, toUInt32_eq_iff]
  constructor
  · intro accepted
    obtain ⟨supported, typed, message_eq⟩ := accepted
    constructor
    · cases said : Entry.last Entry.version? entries with
      | none =>
          rw [said] at supported
          cases supported
      | some version =>
          rw [said] at supported
          exact ⟨version, rfl, supported⟩
    · cases said : Entry.last Entry.messageType? entries with
      | none =>
          rw [said] at typed
          exact absurd rfl typed
      | some messageType =>
          rw [said] at typed message_eq
          exact ⟨messageType, rfl, typed, message_eq⟩
  · intro means
    obtain ⟨version, saidVersion, supported⟩ := means.supported
    obtain ⟨messageType, saidType, typed, message_eq⟩ := means.typed
    rw [saidVersion, saidType]
    exact ⟨supported, typed, message_eq⟩

end Message

namespace Codec

variable {codec : Codec} {frame : List UInt8}

theorem decode_row {entries : List Entry} (row : Layout 0 frame entries)
    (fits : frame.length ≤ codec.maxFrame.toNat) :
    codec.decode frame = Message.ofEnvelope (entries.foldl Entry.enter {}) := by
  unfold decode
  rw [if_neg (Nat.not_lt.mpr fits), decode_layout row]

theorem decode_eq_ok_iff {message : Message} :
    codec.decode frame = .ok message ↔ frame.length ≤ codec.maxFrame.toNat ∧
      ∃ entries, Layout 0 frame entries ∧ Message.Means entries message := by
  constructor
  · intro accepted
    unfold decode at accepted
    by_cases long : codec.maxFrame.toNat < frame.length
    · rw [if_pos long] at accepted
      cases accepted
    · rw [if_neg long] at accepted
      refine ⟨Nat.le_of_not_lt long, ?_⟩
      cases read : Wire.Envelope.decode frame with
      | error flaw =>
          rw [read] at accepted
          cases accepted
      | ok envelope =>
          rw [read] at accepted
          obtain ⟨entries, row, rfl⟩ := Wire.Envelope.decode_eq_ok_iff.mp read
          exact ⟨entries, row, Message.means_iff.mp accepted⟩
  · intro described
    obtain ⟨fits, entries, row, means⟩ := described
    rw [decode_row row fits]
    exact Message.means_iff.mpr means

/-- The codec accepts what the grammar describes within the limit, as what it means, and hears
nothing else. -/
structure Grammatical (codec : Codec) : Prop where
  accepts_iff : ∀ (frame : List UInt8) (message : Message),
    codec.decode frame = .ok message ↔ frame.length ≤ codec.maxFrame.toNat ∧
      ∃ entries, Layout 0 frame entries ∧ Message.Means entries message
  unknown_unheard : ∀ (front middle back : List UInt8) (early late : List Entry),
    Layout 0 front early → Layout 0 middle [] → Layout 0 back late →
    (front ++ (middle ++ back)).length ≤ codec.maxFrame.toNat →
    codec.decode (front ++ (middle ++ back)) = codec.decode (front ++ back)
  spelling_unheard : ∀ (left right : List UInt8) (entries : List Entry),
    Layout 0 left entries → Layout 0 right entries →
    left.length ≤ codec.maxFrame.toNat → right.length ≤ codec.maxFrame.toNat →
    codec.decode left = codec.decode right
  overwritten_unheard : ∀ (left right : List UInt8) (early late : List Entry) (entry later : Entry),
    Layout 0 left (early ++ entry :: late) → Layout 0 right (early ++ late) →
    later ∈ late → later.field = entry.field →
    left.length ≤ codec.maxFrame.toNat → right.length ≤ codec.maxFrame.toNat →
    codec.decode left = codec.decode right

theorem grammatical (codec : Codec) : codec.Grammatical where
  accepts_iff _frame _message := decode_eq_ok_iff
  unknown_unheard := by
    intro front middle back early late first without second fits
    have shorter : (front ++ back).length ≤ codec.maxFrame.toNat := by
      rw [List.length_append, List.length_append] at fits
      rw [List.length_append]
      omega
    have row : Layout 0 (front ++ (middle ++ back)) (early ++ late) :=
      first.append (without.append second)
    rw [decode_row row fits, decode_row (first.append second) shorter]
  spelling_unheard := by
    intro left right entries leftRow rightRow leftFits rightFits
    rw [decode_row leftRow leftFits, decode_row rightRow rightFits]
  overwritten_unheard := by
    intro left right early late entry later leftRow rightRow member same leftFits rightFits
    rw [decode_row leftRow leftFits, decode_row rightRow rightFits,
      Entry.foldl_enter_overwritten member same]

end Codec

end VoteGossip
