import Mathlib.Data.List.Nodup
import VoteGossip.Json.Record
import VoteGossip.Proofs.Json.Reading
import VoteGossip.Proofs.Json.Scalar

/-!
Settings, and what it means to read a configuration from a text: the defaults, with exactly those
settings replaced that the text gives. An object gives them in any order and among members with
other keys, an array the first ones in the order of their declaration. A name that is given twice
or with a value that is not one of its own spoils the whole text.
-/

set_option autoImplicit false

namespace VoteGossip.Json

/-- What can be set in a configuration. A setting is a name together with a value; the names are
listed in the order of their declaration. -/
structure Settings (Config Setting : Type) where
  names : List String
  name : Setting → String
  scalar : Setting → Scalar
  apply : Setting → Config → Config

namespace Settings

variable {Config Setting Error : Type}

def override (settings : Settings Config Setting) (given : List Setting) (config : Config) :
    Config :=
  given.foldl (fun config setting => settings.apply setting config) config

/-- The members of an object that gives these settings. Every key denotes a string, in whatever way
it is written; where the string is the name of no setting, the value may be any. -/
inductive Gives (settings : Settings Config Setting) :
    List (Text × Json) → List Setting → Prop where
  | nil : settings.Gives [] []
  | setting (key : Text) (value : Json) (setting : Setting) (members : List (Text × Json))
      (given : List Setting) (named : key.Denotes (settings.name setting).toList)
      (valued : value.Is (settings.scalar setting)) (follow : settings.Gives members given) :
      settings.Gives ((key, value) :: members) (setting :: given)
  | other (key : Text) (value : Json) (name : String) (members : List (Text × Json))
      (given : List Setting) (named : key.Denotes name.toList) (unknown : name ∉ settings.names)
      (follow : settings.Gives members given) : settings.Gives ((key, value) :: members) given

structure Lists (settings : Settings Config Setting) (items : List Json) (given : List Setting) :
    Prop where
  valued : List.Forall₂ (fun item setting => item.Is (settings.scalar setting)) items given
  first : given.map settings.name <+: settings.names

/-- No setting of this name has this value: it is of another kind, or out of range. -/
def Unfit (settings : Settings Config Setting) (name : String) (value : Json) : Prop :=
  ∀ setting, settings.name setting = name → ¬ value.Is (settings.scalar setting)

def usable (validate : Config → Except Error Unit) (config : Config) : Except Error Config := do
  validate config
  return config

theorem usable_eq_ok_iff (validate : Config → Except Error Unit) (config after : Config) :
    usable validate config = .ok after ↔ validate config = .ok () ∧ config = after := by
  unfold usable
  cases validate config <;> simp

theorem usable_eq_error_iff (validate : Config → Except Error Unit) (config : Config)
    (error : Error) : usable validate config = .error error ↔ validate config = .error error := by
  unfold usable
  cases validate config <;> simp

/-- The reader takes the defaults and overrides them with what a text gives. -/
structure Governs (settings : Settings Config Setting) (defaults : Config)
    (validate : Config → Except Error Unit) (fault : String → Error)
    (read : String → Except Error Config) : Prop where
  object : ∀ text members given all, Spells (.object members) text →
    settings.Gives members given → given.Perm all → (all.map settings.name).Nodup →
    read text = usable validate (settings.override all defaults)
  array : ∀ text items given, Spells (.array items) text → settings.Lists items given →
    read text = usable validate (settings.override given defaults)
  alike : ∀ row items listed object members given, Spells (.array items) row →
    settings.Lists items listed → Spells (.object members) object → settings.Gives members given →
    given.Perm listed → read row = read object
  twice : ∀ text front between back firstKey firstValue secondKey secondValue name,
    Spells (.object
      (front ++ (firstKey, firstValue) :: (between ++ (secondKey, secondValue) :: back))) text →
    name ∈ settings.names → firstKey.Denotes name.toList → secondKey.Denotes name.toList →
    ∃ reason, read text = .error (fault reason)
  unfit : ∀ text members key value name, Spells (.object members) text → (key, value) ∈ members →
    name ∈ settings.names → key.Denotes name.toList → settings.Unfit name value →
    ∃ reason, read text = .error (fault reason)
  unfitItem : ∀ text items (index : Nat) item name, Spells (.array items) text →
    items[index]? = some item → settings.names[index]? = some name → settings.Unfit name item →
    ∃ reason, read text = .error (fault reason)
  valid : ∀ text config, read text = .ok config → validate config = .ok ()
  faults : ∀ text error, read text = .error error → ∃ reason, error = fault reason

/-- The fields of a reader take the settings, each field those of its own name. -/
structure Describes (settings : Settings Config Setting) (fields : List (Field Config)) : Prop where
  names_eq : fields.map Field.name = settings.names
  distinct : settings.names.Nodup
  named : ∀ setting, settings.name setting ∈ settings.names
  assigns : ∀ field ∈ fields, ∀ json before after,
    field.assign json before = some after ↔
      ∃ setting, settings.name setting = field.name ∧ json.Is (settings.scalar setting) ∧
        settings.apply setting before = after
  commute : ∀ first second, settings.name first ≠ settings.name second → ∀ config,
    settings.apply first (settings.apply second config) =
      settings.apply second (settings.apply first config)

theorem exists_made_iff (settings : Settings Config Setting) {Value : Type} (make : Value → Setting)
    (worth : Value → Scalar) {name : String}
    (made : ∀ setting, settings.name setting = name ↔ ∃ value, make value = setting)
    (scalar_eq : ∀ value, settings.scalar (make value) = worth value) (json : Json)
    (before after : Config) :
    (∃ value, json.Is (worth value) ∧ settings.apply (make value) before = after) ↔
      ∃ setting, settings.name setting = name ∧ json.Is (settings.scalar setting) ∧
        settings.apply setting before = after := by
  constructor
  · rintro ⟨value, scalar, same⟩
    rw [← scalar_eq value] at scalar
    exact ⟨make value, (made (make value)).mpr ⟨value, rfl⟩, scalar, same⟩
  · rintro ⟨setting, named, scalar, same⟩
    obtain ⟨value, rfl⟩ := (made setting).mp named
    rw [scalar_eq value] at scalar
    exact ⟨value, scalar, same⟩

theorem assign_flag_iff (settings : Settings Config Setting) (make : Bool → Setting)
    {name : String}
    (made : ∀ setting, settings.name setting = name ↔ ∃ value, make value = setting)
    (scalar_eq : ∀ value, settings.scalar (make value) = .flag value) (json : Json)
    (before after : Config) :
    (json.bool?.map fun value => settings.apply (make value) before) = some after ↔
      ∃ setting, settings.name setting = name ∧ json.Is (settings.scalar setting) ∧
        settings.apply setting before = after := by
  simp only [Option.map_eq_some_iff, bool?_eq_some_iff]
  exact settings.exists_made_iff make .flag made scalar_eq json before after

theorem assign_word_iff (settings : Settings Config Setting) {Word : Type} {bound : Nat}
    {toNat : Word → Nat} {ofNat : Nat → Word} (width : Width bound toNat ofNat)
    (make : Word → Setting) {name : String}
    (made : ∀ setting, settings.name setting = name ↔ ∃ word, make word = setting)
    (scalar_eq : ∀ word, settings.scalar (make word) = .number (toNat word)) (json : Json)
    (before after : Config) :
    ((json.upTo? bound).map fun value => settings.apply (make (ofNat value)) before) = some after ↔
      ∃ setting, settings.name setting = name ∧ json.Is (settings.scalar setting) ∧
        settings.apply setting before = after := by
  rw [width.assign_iff fun word => settings.apply (make word) before]
  exact settings.exists_made_iff make (fun word => .number (toNat word)) made scalar_eq json before
    after

variable {settings : Settings Config Setting} {fields : List (Field Config)}
  {defaults config : Config} {members : List (Text × Json)} {items : List Json}
  {given all : List Setting} {name : String} {value : Json}

namespace Describes

theorem find?_known (describes : settings.Describes fields) (known : name ∈ settings.names) :
    ∃ field ∈ fields, field.name = name ∧ fields.find? (·.name == name) = some field := by
  rw [← describes.names_eq] at known
  obtain ⟨declared, among, same⟩ := List.mem_map.mp known
  have some_found : (fields.find? (·.name == name)).isSome :=
    List.find?_isSome.mpr ⟨declared, among, beq_iff_eq.mpr same⟩
  obtain ⟨field, found⟩ := Option.isSome_iff_exists.mp some_found
  have named := List.find?_some found
  simp only [beq_iff_eq] at named
  exact ⟨field, List.mem_of_find?_eq_some found, named, found⟩

theorem find?_unknown (describes : settings.Describes fields) (unknown : name ∉ settings.names) :
    fields.find? (·.name == name) = none := by
  rw [List.find?_eq_none]
  intro field among same
  apply unknown
  rw [← describes.names_eq, ← beq_iff_eq.mp same]
  exact List.mem_map_of_mem among

theorem assign_setting (describes : settings.Describes fields) {field : Field Config}
    (among : field ∈ fields) {setting : Setting} (same : settings.name setting = field.name)
    (valued : value.Is (settings.scalar setting)) (record : Config) :
    field.assign value record = some (settings.apply setting record) :=
  (describes.assigns field among value record _).mpr ⟨setting, same, valued, rfl⟩

theorem assign_unfit (describes : settings.Describes fields) {field : Field Config}
    (among : field ∈ fields) (unfit : settings.Unfit field.name value) (record : Config) :
    field.assign value record = none := by
  rw [Option.eq_none_iff_forall_ne_some]
  intro after assigned
  obtain ⟨setting, same, valued, _⟩ :=
    (describes.assigns field among value record after).mp assigned
  exact unfit setting same valued

/-- Settings of different names can be taken in any order. -/
theorem override_perm (describes : settings.Describes fields) (perm : given.Perm all)
    (distinct : (all.map settings.name).Nodup) (config : Config) :
    settings.override given config = settings.override all config := by
  refine List.Perm.foldl_eq' perm ?_ config
  intro first among second amongToo between
  by_cases same : settings.name first = settings.name second
  · rw [List.inj_on_of_nodup_map distinct (perm.subset among) (perm.subset amongToo) same]
  · exact describes.commute second first (Ne.symm same) between

theorem ofMembers_of_gives (describes : settings.Describes fields)
    (gives : settings.Gives members given) (distinct : (given.map settings.name).Nodup)
    {earlier : List String} (fresh : ∀ setting ∈ given, settings.name setting ∉ earlier)
    (record : Config) :
    Record.ofMembers fields earlier members record = some (settings.override given record) := by
  induction gives generalizing earlier record with
  | nil => rfl
  | setting key value setting members given named valued follow ih =>
      obtain ⟨field, among, same, found⟩ := describes.find?_known (describes.named setting)
      have assigned := describes.assign_setting among same.symm valued record
      have new : earlier.contains (settings.name setting) = false := by
        rw [← Bool.not_eq_true, List.contains_iff_mem]
        exact fresh setting List.mem_cons_self
      simp only [Record.ofMembers, Text.string?_of_denotes named, found, new, assigned,
        Bool.false_eq_true, if_false]
      have others := List.nodup_cons.mp distinct
      refine ih others.2 ?_ (settings.apply setting record)
      intro later amongLater
      rw [List.mem_cons, not_or]
      refine ⟨?_, fresh later (List.mem_cons_of_mem setting amongLater)⟩
      intro alike
      exact others.1 (alike ▸ List.mem_map_of_mem amongLater)
  | other key value name members given named unknown follow ih =>
      simp only [Record.ofMembers, Text.string?_of_denotes named, describes.find?_unknown unknown]
      exact ih distinct fresh record

end Describes

/-- Members that spoil what comes behind any others spoil it here. The names in front of them can
only add to those that were given. -/
theorem ofMembers_append_eq_none {front back : List (Text × Json)} {earlier : List String}
    (spoiled : ∀ more record, Record.ofMembers fields (more ++ earlier) back record = none)
    (record : Config) : Record.ofMembers fields earlier (front ++ back) record = none := by
  induction front generalizing earlier record with
  | nil => exact spoiled [] record
  | cons member later ih =>
      obtain ⟨key, value⟩ := member
      rw [List.cons_append, Record.ofMembers]
      split
      · rfl
      · rename_i name denoted
        split
        · exact ih spoiled record
        · split
          · rfl
          · split
            · rfl
            · rename_i after assigned
              refine ih ?_ after
              intro more between
              have spoiledBehind := spoiled (more ++ [name]) between
              rw [List.append_assoc] at spoiledBehind
              exact spoiledBehind

namespace Describes

theorem ofMembers_given (describes : settings.Describes fields) (known : name ∈ settings.names)
    {key : Text} (named : key.Denotes name.toList) {earlier : List String} (before : name ∈ earlier)
    (rest : List (Text × Json)) (record : Config) :
    Record.ofMembers fields earlier ((key, value) :: rest) record = none := by
  obtain ⟨field, among, same, found⟩ := describes.find?_known known
  have contained : earlier.contains name = true := List.contains_iff_mem.mpr before
  simp only [Record.ofMembers, Text.string?_of_denotes named, found, contained, if_true]

theorem ofMembers_twice (describes : settings.Describes fields) (known : name ∈ settings.names)
    {firstKey secondKey : Text} (firstNamed : firstKey.Denotes name.toList)
    (secondNamed : secondKey.Denotes name.toList) (front between back : List (Text × Json))
    (firstValue secondValue : Json) (earlier : List String) (record : Config) :
    Record.ofMembers fields earlier
      (front ++ (firstKey, firstValue) :: (between ++ (secondKey, secondValue) :: back)) record =
        none := by
  obtain ⟨field, among, same, found⟩ := describes.find?_known known
  apply ofMembers_append_eq_none
  intro more record
  simp only [Record.ofMembers, Text.string?_of_denotes firstNamed, found]
  split
  · rfl
  · split
    · rfl
    · apply ofMembers_append_eq_none
      intro further record
      apply describes.ofMembers_given known secondNamed
      exact List.mem_append_right further List.mem_cons_self

theorem ofMembers_unfit (describes : settings.Describes fields) (known : name ∈ settings.names)
    {key : Text} (named : key.Denotes name.toList) (unfit : settings.Unfit name value)
    (among : (key, value) ∈ members) (earlier : List String) (record : Config) :
    Record.ofMembers fields earlier members record = none := by
  obtain ⟨front, back, rfl⟩ := List.append_of_mem among
  obtain ⟨field, declared, rfl, found⟩ := describes.find?_known known
  apply ofMembers_append_eq_none
  intro more record
  simp only [Record.ofMembers, Text.string?_of_denotes named, found,
    describes.assign_unfit declared unfit]
  split <;> rfl

theorem ofItems_of_lists (describes : settings.Describes fields) {declared : List (Field Config)}
    (among : declared ⊆ fields)
    (valued : List.Forall₂ (fun item setting => item.Is (settings.scalar setting)) items given)
    (first : given.map settings.name <+: declared.map Field.name) (record : Config) :
    Record.ofItems declared items record = some (settings.override given record) := by
  induction valued generalizing declared record with
  | nil => cases declared <;> rfl
  | @cons item setting items given fits _ ih =>
      cases declared with
      | nil =>
          cases List.prefix_nil.mp first
      | cons field later =>
          rw [List.map_cons, List.map_cons, List.cons_prefix_cons] at first
          obtain ⟨same, further⟩ := first
          obtain ⟨present, amongLater⟩ := List.cons_subset.mp among
          simp only [Record.ofItems, describes.assign_setting present same fits]
          exact ih amongLater further _

theorem ofItems_unfit (describes : settings.Describes fields) {declared : List (Field Config)}
    (among : declared ⊆ fields) {index : Nat} {item : Json} (item_at : items[index]? = some item)
    (name_at : (declared.map Field.name)[index]? = some name) (unfit : settings.Unfit name item)
    (record : Config) : Record.ofItems declared items record = none := by
  induction items generalizing declared index record with
  | nil => cases item_at
  | cons first rest ih =>
      cases declared with
      | nil => cases name_at
      | cons field later =>
          obtain ⟨present, amongLater⟩ := List.cons_subset.mp among
          rw [Record.ofItems]
          cases index with
          | zero =>
              cases item_at
              cases name_at
              simp only [describes.assign_unfit present unfit]
          | succ index =>
              split
              · rfl
              · exact ih amongLater item_at name_at _

theorem ofJson?_of_gives (describes : settings.Describes fields)
    (gives : settings.Gives members given) (distinct : (given.map settings.name).Nodup)
    (defaults : Config) :
    Record.ofJson? fields defaults (.object members) = some (settings.override given defaults) :=
  describes.ofMembers_of_gives gives distinct (fun _setting _among => List.not_mem_nil) defaults

theorem ofJson?_of_lists (describes : settings.Describes fields)
    (lists : settings.Lists items given) (defaults : Config) :
    Record.ofJson? fields defaults (.array items) = some (settings.override given defaults) := by
  have first := lists.first
  rw [← describes.names_eq] at first
  exact describes.ofItems_of_lists (List.Subset.refl fields) lists.valued first defaults

end Describes

theorem Lists.distinct (lists : settings.Lists items given)
    (describes : settings.Describes fields) : (given.map settings.name).Nodup :=
  lists.first.sublist.nodup describes.distinct

def ofText (fields : List (Field Config)) (defaults : Config)
    (validate : Config → Except Error Unit) (fault : String → Error) (text : String) :
    Except Error Config :=
  match (parse? text).bind (Record.ofJson? fields defaults) with
  | none => .error (fault "invalid JSON")
  | some config => usable validate config

section OfText

variable {validate : Config → Except Error Unit} {fault : String → Error} {text : String}
  {json : Json}

theorem ofText_of_some (spells : Spells json text)
    (taken : Record.ofJson? fields defaults json = some config) :
    ofText fields defaults validate fault text = usable validate config := by
  rw [ofText, parse?_of_spells spells, Option.bind_some, taken]

theorem ofText_eq_ok_iff (spells : Spells json text)
    (taken : Record.ofJson? fields defaults json = some config) :
    ofText fields defaults validate fault text = .ok config ↔ validate config = .ok () := by
  rw [ofText_of_some spells taken, usable_eq_ok_iff]
  exact and_iff_left rfl

theorem ofText_of_none (spells : Spells json text)
    (refused : Record.ofJson? fields defaults json = none) :
    ∃ reason, ofText fields defaults validate fault text = .error (fault reason) := by
  refine ⟨"invalid JSON", ?_⟩
  rw [ofText, parse?_of_spells spells, Option.bind_some, refused]

theorem validate_of_ofText (taken : ofText fields defaults validate fault text = .ok config) :
    validate config = .ok () := by
  unfold ofText at taken
  split at taken
  · cases taken
  · obtain ⟨accepted, rfl⟩ := (usable_eq_ok_iff validate _ config).mp taken
    exact accepted

theorem fault_of_ofText {error : Error}
    (refuses : ∀ config error, validate config = .error error → ∃ reason, error = fault reason)
    (refused : ofText fields defaults validate fault text = .error error) :
    ∃ reason, error = fault reason := by
  unfold ofText at refused
  split at refused
  · cases refused
    exact ⟨"invalid JSON", rfl⟩
  · exact refuses _ error ((usable_eq_error_iff validate _ error).mp refused)

end OfText

namespace Describes

variable {validate : Config → Except Error Unit} {fault : String → Error} {text : String}

theorem ofText_object (describes : settings.Describes fields)
    (spells : Spells (.object members) text) (gives : settings.Gives members given)
    (perm : given.Perm all) (distinct : (all.map settings.name).Nodup) :
    ofText fields defaults validate fault text =
      usable validate (settings.override all defaults) := by
  have apart := (perm.map settings.name).nodup_iff.mpr distinct
  rw [← describes.override_perm perm distinct]
  exact ofText_of_some spells (describes.ofJson?_of_gives gives apart defaults)

theorem ofText_array (describes : settings.Describes fields) (spells : Spells (.array items) text)
    (lists : settings.Lists items given) :
    ofText fields defaults validate fault text =
      usable validate (settings.override given defaults) :=
  ofText_of_some spells (describes.ofJson?_of_lists lists defaults)

theorem governs (describes : settings.Describes fields)
    (refuses : ∀ config error, validate config = .error error → ∃ reason, error = fault reason) :
    settings.Governs defaults validate fault (ofText fields defaults validate fault) where
  object text members given all spells gives perm distinct :=
    describes.ofText_object spells gives perm distinct
  array text items given spells lists := describes.ofText_array spells lists
  alike row items listed object members given rowSpells lists objectSpells gives perm := by
    rw [describes.ofText_array rowSpells lists,
      describes.ofText_object objectSpells gives perm (lists.distinct describes)]
  twice text front between back firstKey firstValue secondKey secondValue name spells known
      firstNamed secondNamed := by
    apply ofText_of_none spells
    exact describes.ofMembers_twice known firstNamed secondNamed front between back firstValue
      secondValue [] defaults
  unfit text members key value name spells among known named unfit := by
    apply ofText_of_none spells
    exact describes.ofMembers_unfit known named unfit among [] defaults
  unfitItem text items index item name spells item_at name_at unfit := by
    rw [← describes.names_eq] at name_at
    apply ofText_of_none spells
    exact describes.ofItems_unfit (List.Subset.refl fields) item_at name_at unfit defaults
  valid text config taken := validate_of_ofText taken
  faults text error refused := fault_of_ofText refuses refused

end Describes

end Settings

end VoteGossip.Json
