import VoteGossip.Proofs.Wire.Envelope

/-!
The grammar of envelopes. An envelope is a row of fields. Outside all groups, the tags of entries
are written as entries and any other field passes for what it is; inside a group no tag has a
meaning, and the group ends with the mark of its own tag. No field stands inside a hundred groups.

The reader keeps the open groups on a stack and knows nothing of rows. Yet it reads exactly the
rows, and of each row the entries: a row inside the open groups is read and leaves them open, and
whatever the reader gets through closes the open groups one by one, each after a row.
-/

set_option autoImplicit false

namespace VoteGossip.Wire.Envelope

/-- A field with a meaning, and what it holds. -/
inductive Entry where
  | messageType (number : Nat)
  | payload (bytes : List UInt8)
  | version (number : Nat)

namespace Entry

def field : Entry → Field
  | messageType _ => .messageType
  | payload _ => .payload
  | version _ => .version

inductive Spells : Entry → List UInt8 → Prop where
  | messageType (bytes : List UInt8) (number : Nat) (spells : Varint.Spells bytes number) :
      Spells (.messageType number) bytes
  | payload (bytes body : List UInt8) (delimited : Delimited body bytes) :
      Spells (.payload body) bytes
  | version (bytes : List UInt8) (number : Nat) (spells : Varint.Spells bytes number) :
      Spells (.version number) bytes

/-- The envelope with what the entry holds. Of a number the lowest 32 bits are kept. -/
def enter (envelope : Envelope) : Entry → Envelope
  | messageType number => { envelope with messageType := number.toUInt32 }
  | payload bytes => { envelope with payload := bytes }
  | version number => { envelope with version := number.toUInt32 }

end Entry

/-- A row of fields inside so many groups, and the entries among the fields. -/
inductive Layout : Nat → List UInt8 → List Entry → Prop where
  | nil (depth : Nat) : Layout depth [] []
  | entry (entry : Entry) (opening value rest : List UInt8) (entries : List Entry)
      (opens : entry.field.key.Spells opening) (spells : entry.Spells value)
      (follow : Layout 0 rest entries) :
      Layout 0 (opening ++ (value ++ rest)) (entry :: entries)
  | plain (depth : Nat) (key : Key) (opening value rest : List UInt8) (entries : List Entry)
      (unknown : depth = 0 → Field.ofTag? key.tag = none) (shallow : depth < 100)
      (opens : key.Spells opening) (valued : Value key.wireType value)
      (follow : Layout depth rest entries) :
      Layout depth (opening ++ (value ++ rest)) entries
  | group (depth tag : Nat) (opening body closing rest : List UInt8) (entries : List Entry)
      (unknown : depth = 0 → Field.ofTag? tag = none) (shallow : depth < 100)
      (opens : Key.Spells { tag, wireType := .groupStart } opening)
      (inside : Layout (depth + 1) body [])
      (closes : Key.Spells { tag, wireType := .groupEnd } closing)
      (follow : Layout depth rest entries) :
      Layout depth (opening ++ (body ++ (closing ++ rest))) entries

theorem Layout.append {depth : Nat} {front back : List UInt8} {early late : List Entry}
    (first : Layout depth front early) (second : Layout depth back late) :
    Layout depth (front ++ back) (early ++ late) := by
  induction first with
  | nil depth => exact second
  | entry entry opening value rest entries opens spells follow ih =>
      rw [List.append_assoc, List.append_assoc]
      exact .entry entry opening value _ _ opens spells (ih second)
  | plain depth key opening value rest entries unknown shallow opens valued follow ih =>
      rw [List.append_assoc, List.append_assoc]
      exact .plain depth key opening value _ _ unknown shallow opens valued (ih second)
  | group depth tag opening body closing rest entries unknown shallow opens inside closes follow
      _ ih =>
      rw [List.append_assoc, List.append_assoc, List.append_assoc]
      exact .group depth tag opening body closing _ _ unknown shallow opens inside closes
        (ih second)

section Field

variable {envelope : Envelope} {groups : List Nat} {key : Key} {front : List UInt8}

theorem value_of_entry {entry : Entry} (spells : entry.Spells front) (rest : List UInt8) :
    Reading.value { envelope } entry.field.key (front ++ rest) =
      .ok ({ envelope := entry.enter envelope }, rest) := by
  have known : Field.ofTag? entry.field.key.tag = some entry.field := entry.field.ofTag?_tag
  have assigned : Reading.assign envelope entry.field entry.field.wireType (front ++ rest) =
      .ok (entry.enter envelope, rest) := by
    unfold Reading.assign
    rw [if_neg fun different => different rfl]
    cases spells with
    | messageType bytes number spells | version bytes number spells =>
        simp only [Entry.field, takeNumber_of_spells spells, Entry.enter]
    | payload bytes body delimited =>
        simp only [Entry.field, takeDelimited_of_delimited delimited, Entry.enter]
  unfold Reading.value
  simp only [known]
  simp only [Field.key, assigned]

theorem value_eq_skip (unknown : groups = [] → Field.ofTag? key.tag = none) (bytes : List UInt8) :
    Reading.value { envelope, groups } key bytes =
      match Reading.skip groups key bytes with
      | .ok (groups, rest) => .ok ({ envelope, groups }, rest)
      | .error fault => .error { fault } := by
  unfold Reading.value
  cases groups with
  | nil =>
      have nothing := unknown rfl
      generalize Field.ofTag? key.tag = found at nothing ⊢
      cases nothing
      rfl
  | cons innermost outer => rfl

theorem nest_of_hasValue (valued : hasValue key.wireType = true) :
    Reading.nest groups key =
      if maxOpenGroups < groups.length then .error .tooDeep else .ok groups := by
  unfold Reading.nest
  cases kind : key.wireType with
  | groupStart | groupEnd =>
      rw [kind] at valued
      cases valued
  | varint | fixed64 | delimited | fixed32 => cases groups <;> rfl

theorem nest_groupStart (tag : Nat) :
    Reading.nest groups { tag, wireType := .groupStart } =
      if maxOpenGroups < groups.length then .error .tooDeep else .ok (tag :: groups) := by
  unfold Reading.nest
  cases groups <;> rfl

theorem Value.hasValue {wireType : WireType} (value : Value wireType front) :
    hasValue wireType = true := by
  cases value <;> rfl

theorem value_of_plain (unknown : groups = [] → Field.ofTag? key.tag = none)
    (shallow : groups.length < 100) (valued : Value key.wireType front) (rest : List UInt8) :
    Reading.value { envelope, groups } key (front ++ rest) = .ok ({ envelope, groups }, rest) := by
  have room : ¬ maxOpenGroups < groups.length := Nat.not_lt.mpr (Nat.le_of_lt_succ shallow)
  rw [value_eq_skip unknown, Reading.skip, nest_of_hasValue valued.hasValue, if_neg room]
  simp only [pass_of_value valued]

theorem value_of_groupStart {tag : Nat} (unknown : groups = [] → Field.ofTag? tag = none)
    (shallow : groups.length < 100) (rest : List UInt8) :
    Reading.value { envelope, groups } { tag, wireType := .groupStart } rest =
      .ok ({ envelope, groups := tag :: groups }, rest) := by
  have room : ¬ maxOpenGroups < groups.length := Nat.not_lt.mpr (Nat.le_of_lt_succ shallow)
  rw [value_eq_skip unknown, Reading.skip, nest_groupStart, if_neg room]
  rfl

theorem value_of_groupEnd (tag : Nat) (rest : List UInt8) :
    Reading.value { envelope, groups := tag :: groups } { tag, wireType := .groupEnd } rest =
      .ok ({ envelope, groups }, rest) := by
  have inside : tag :: groups = [] → Field.ofTag? tag = none := nofun
  have ends : Reading.nest (tag :: groups) { tag, wireType := .groupEnd } = .ok groups :=
    if_pos rfl
  rw [value_eq_skip inside, Reading.skip, ends]
  rfl

inductive Passed (reading : Reading) : Key → List UInt8 → Reading → List UInt8 → Prop where
  | entry (entry : Entry) (front rest : List UInt8) (outside : reading.groups = [])
      (spells : entry.Spells front) :
      Passed reading entry.field.key (front ++ rest)
        { reading with envelope := entry.enter reading.envelope } rest
  | plain (key : Key) (front rest : List UInt8)
      (unknown : reading.groups = [] → Field.ofTag? key.tag = none)
      (shallow : reading.groups.length < 100) (valued : Value key.wireType front) :
      Passed reading key (front ++ rest) reading rest
  | groupStart (tag : Nat) (rest : List UInt8)
      (unknown : reading.groups = [] → Field.ofTag? tag = none)
      (shallow : reading.groups.length < 100) :
      Passed reading { tag, wireType := .groupStart } rest
        { reading with groups := tag :: reading.groups } rest
  | groupEnd (tag : Nat) (outer : List Nat) (rest : List UInt8)
      (innermost : reading.groups = tag :: outer) :
      Passed reading { tag, wireType := .groupEnd } rest { reading with groups := outer } rest

theorem entry_of_assign {after : Envelope} {field : Field} {wireType : WireType}
    {bytes rest : List UInt8}
    (assigned : Reading.assign envelope field wireType bytes = .ok (after, rest)) :
    wireType = field.wireType ∧ ∃ (entry : Entry) (front : List UInt8), entry.field = field ∧
      bytes = front ++ rest ∧ entry.Spells front ∧ after = entry.enter envelope := by
  unfold Reading.assign at assigned
  split at assigned
  · cases assigned
  · rename_i agrees
    refine ⟨Decidable.not_not.mp agrees, ?_⟩
    cases field with
    | messageType =>
        simp only at assigned
        split at assigned
        · rename_i number middle taken
          cases assigned
          obtain ⟨front, split, spells⟩ := takeNumber_eq_ok taken
          exact ⟨.messageType number, front, rfl, split, .messageType front number spells, rfl⟩
        · cases assigned
    | payload =>
        simp only at assigned
        split at assigned
        · rename_i body middle taken
          cases assigned
          obtain ⟨front, split, delimited⟩ := takeDelimited_eq_ok taken
          exact ⟨.payload body, front, rfl, split, .payload front body delimited, rfl⟩
        · cases assigned
    | version =>
        simp only at assigned
        split at assigned
        · rename_i number middle taken
          cases assigned
          obtain ⟨front, split, spells⟩ := takeNumber_eq_ok taken
          exact ⟨.version number, front, rfl, split, .version front number spells, rfl⟩
        · cases assigned

theorem tag_of_ofTag? {tag : Nat} {field : Field} (found : Field.ofTag? tag = some field) :
    tag = field.tag := by
  unfold Field.ofTag? at found
  split at found
  all_goals cases found
  all_goals rfl

theorem groups_of_nest {tag : Nat} {opened : List Nat}
    (nests : Reading.nest groups { tag, wireType := .groupEnd } = .ok opened) :
    groups = tag :: opened := by
  unfold Reading.nest at nests
  cases groups with
  | nil => cases nests
  | cons innermost outer =>
      simp only at nests
      split at nests
      · rename_i same
        cases nests
        rw [same]
      · cases nests

theorem passed_of_skip {reading : Reading} {opened : List Nat} {bytes rest : List UInt8}
    (unknown : reading.groups = [] → Field.ofTag? key.tag = none)
    (skipped : Reading.skip reading.groups key bytes = .ok (opened, rest)) :
    Passed reading key bytes { reading with groups := opened } rest := by
  unfold Reading.skip at skipped
  split at skipped
  · cases skipped
  · rename_i nested nests
    split at skipped
    · cases skipped
    · rename_i remaining passed
      cases skipped
      obtain ⟨tag, wireType⟩ := key
      cases wireType with
      | varint | fixed64 | delimited | fixed32 =>
          rw [nest_of_hasValue rfl] at nests
          split at nests
          · cases nests
          · rename_i room
            cases nests
            obtain ⟨front, rfl, value⟩ := value_of_pass rfl passed
            exact .plain _ front _ unknown (Nat.lt_succ_of_le (Nat.le_of_not_lt room)) value
      | groupStart =>
          cases passed
          rw [nest_groupStart] at nests
          split at nests
          · cases nests
          · rename_i room
            cases nests
            exact .groupStart tag _ unknown (Nat.lt_succ_of_le (Nat.le_of_not_lt room))
      | groupEnd =>
          cases passed
          exact .groupEnd tag opened _ (groups_of_nest nests)

theorem passed_of_value {reading next : Reading} {bytes rest : List UInt8}
    (read : reading.value key bytes = .ok (next, rest)) : Passed reading key bytes next rest := by
  obtain ⟨envelope, groups⟩ := reading
  by_cases entries : groups = [] ∧ ∃ field, Field.ofTag? key.tag = some field
  · obtain ⟨rfl, field, known⟩ := entries
    unfold Reading.value at read
    simp only [known] at read
    split at read
    · rename_i after remaining assigned
      cases read
      obtain ⟨agrees, entry, front, rfl, rfl, spells, rfl⟩ := entry_of_assign assigned
      obtain rfl : key = entry.field.key := congrArg₂ Key.mk (tag_of_ofTag? known) agrees
      exact .entry entry front _ rfl spells
    · cases read
  · have unknown : groups = [] → Field.ofTag? key.tag = none := by
      intro outside
      rw [Option.eq_none_iff_forall_ne_some]
      intro field known
      exact entries ⟨outside, field, known⟩
    rw [value_eq_skip unknown] at read
    split at read
    · rename_i opened remaining skipped
      cases read
      exact passed_of_skip unknown skipped
    · cases read

end Field

theorem readFields_layout {depth : Nat} {bytes : List UInt8} {entries : List Entry}
    (layout : Layout depth bytes entries) (envelope : Envelope) {groups : List Nat}
    (height : groups.length = depth) (rest : List UInt8) :
    readFields { envelope, groups } (bytes ++ rest) =
      readFields { envelope := entries.foldl Entry.enter envelope, groups } rest := by
  induction layout generalizing envelope groups rest with
  | nil depth => rfl
  | entry entry opening value tail entries opens spells follow ih =>
      obtain rfl := List.length_eq_zero_iff.mp height
      rw [List.append_assoc, List.append_assoc,
        readFields_step (Key.decode_of_spells opens _) (value_of_entry spells _), ih _ rfl]
      rfl
  | plain depth key opening value tail entries unknown shallow opens valued follow ih =>
      have outside : groups = [] → Field.ofTag? key.tag = none := by
        intro none
        rw [none] at height
        exact unknown height.symm
      rw [← height] at shallow
      rw [List.append_assoc, List.append_assoc,
        readFields_step (Key.decode_of_spells opens _) (value_of_plain outside shallow valued _),
        ih _ height]
  | group depth tag opening body closing tail entries unknown shallow opens inside closes follow
      bodyRead ih =>
      have outside : groups = [] → Field.ofTag? tag = none := by
        intro none
        rw [none] at height
        exact unknown height.symm
      have deeper : (tag :: groups).length = depth + 1 := by
        rw [List.length_cons, height]
      rw [← height] at shallow
      rw [List.append_assoc, List.append_assoc, List.append_assoc,
        readFields_step (Key.decode_of_spells opens _) (value_of_groupStart outside shallow _),
        bodyRead _ deeper,
        readFields_step (Key.decode_of_spells closes _) (value_of_groupEnd tag _), ih _ height]
      rfl

theorem decode_layout {bytes : List UInt8} {entries : List Entry}
    (layout : Layout 0 bytes entries) :
    decode bytes = .ok (entries.foldl Entry.enter {}) := by
  have read := readFields_layout layout {} List.length_nil []
  rw [List.append_nil] at read
  exact read.trans (readFields_nil _)

/-- Bytes that close the open groups, the innermost first and each after a row inside it, and go
on with a row outside. -/
inductive Closing : List Nat → List UInt8 → List Entry → Prop where
  | outside (bytes : List UInt8) (entries : List Entry) (row : Layout 0 bytes entries) :
      Closing [] bytes entries
  | inside (tag : Nat) (outer : List Nat) (body closing rest : List UInt8) (entries : List Entry)
      (row : Layout (outer.length + 1) body [])
      (closes : Key.Spells { tag, wireType := .groupEnd } closing)
      (follow : Closing outer rest entries) :
      Closing (tag :: outer) (body ++ (closing ++ rest)) entries

namespace Closing

variable {groups : List Nat} {rest : List UInt8} {entries : List Entry}

theorem prepend {front : List UInt8} (row : Layout groups.length front [])
    (closing : Closing groups rest entries) : Closing groups (front ++ rest) entries := by
  cases closing with
  | outside bytes entries behind => exact .outside _ _ (row.append behind)
  | inside tag outer body closing rest entries behind closes follow =>
      rw [← List.append_assoc]
      exact .inside tag outer _ closing rest entries (row.append behind) closes follow

theorem openGroup {tag : Nat} {opening : List UInt8}
    (unknown : groups = [] → Field.ofTag? tag = none) (shallow : groups.length < 100)
    (opens : Key.Spells { tag, wireType := .groupStart } opening)
    (closing : Closing (tag :: groups) rest entries) :
    Closing groups (opening ++ rest) entries := by
  cases closing with
  | inside _ _ body closing rest _ inside closes follow =>
      have outside : groups.length = 0 → Field.ofTag? tag = none :=
        unknown ∘ List.length_eq_zero_iff.mp
      have group : Layout groups.length (opening ++ (body ++ (closing ++ []))) [] :=
        .group _ tag opening body closing [] [] outside shallow opens inside closes (.nil _)
      have longer := follow.prepend group
      rw [List.append_nil, List.append_assoc, List.append_assoc] at longer
      exact longer

end Closing

theorem closing_of_readFields {reading : Reading} {bytes : List UInt8} {envelope : Envelope}
    (read : readFields reading bytes = .ok envelope) :
    ∃ entries, Closing reading.groups bytes entries ∧
      envelope = entries.foldl Entry.enter reading.envelope := by
  induction reading, bytes using readFields.induct with
  | case1 reading bytes ended =>
      rw [Bool.and_eq_true, List.isEmpty_iff, List.isEmpty_iff] at ended
      obtain ⟨rfl, outside⟩ := ended
      obtain ⟨before, groups⟩ := reading
      obtain rfl : groups = [] := outside
      rw [readFields_nil] at read
      cases read
      exact ⟨[], .outside [] [] (.nil 0), rfl⟩
  | case2 reading bytes goesOn fault failed =>
      rw [readFields, if_neg goesOn] at read
      split at read
      · cases read
      · rename_i key middle opened
        rw [failed] at opened
        cases opened
  | case3 reading bytes goesOn key middle opened flaw failed =>
      rw [readFields, if_neg goesOn] at read
      split at read
      · cases read
      · rename_i found remaining again
        rw [opened] at again
        cases again
        split at read
        · cases read
        · rename_i next rest taken
          rw [failed] at taken
          cases taken
  | case4 reading bytes goesOn key middle opened next rest taken ih =>
      rw [readFields_step opened taken] at read
      obtain ⟨entries, closing, rfl⟩ := ih read
      obtain ⟨opening, rfl, opens⟩ := Key.spells_of_decode opened
      cases passed_of_value taken with
      | entry entry front rest outside spells =>
          change Closing reading.groups rest entries at closing
          rw [outside] at closing ⊢
          cases closing with
          | outside bytes entries row =>
              exact ⟨entry :: entries, .outside _ _ (.entry entry _ _ _ _ opens spells row), rfl⟩
      | plain key front rest unknown shallow valued =>
          -- The field alone is a row inside the open groups, and it goes in front of the next one.
          have field : Layout reading.groups.length (opening ++ (front ++ [])) [] :=
            .plain _ key opening front [] [] (unknown ∘ List.length_eq_zero_iff.mp) shallow opens
              valued (.nil _)
          have longer := closing.prepend field
          rw [List.append_nil, List.append_assoc] at longer
          exact ⟨entries, longer, rfl⟩
      | groupStart tag rest unknown shallow =>
          exact ⟨entries, closing.openGroup unknown shallow opens, rfl⟩
      | groupEnd tag outer rest innermost =>
          rw [innermost]
          exact ⟨entries, .inside tag outer [] opening _ entries (.nil _) opens closing, rfl⟩

/-- The reader gets through exactly the rows outside all groups. -/
theorem decode_eq_ok_iff {bytes : List UInt8} {envelope : Envelope} :
    decode bytes = .ok envelope ↔
      ∃ entries, Layout 0 bytes entries ∧ envelope = entries.foldl Entry.enter {} := by
  constructor
  · intro decoded
    obtain ⟨entries, closing, entered⟩ := closing_of_readFields decoded
    cases closing with
    | outside bytes entries row => exact ⟨entries, row, entered⟩
  · intro described
    obtain ⟨entries, layout, entered⟩ := described
    rw [decode_layout layout, entered]

end VoteGossip.Wire.Envelope
