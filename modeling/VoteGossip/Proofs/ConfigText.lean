import VoteGossip.Gossip.ConfigJson
import VoteGossip.Pool.ConfigJson
import VoteGossip.Proofs.Json.Settings

/-!
Configurations from their texts. A text of the pool or of gossip means the defaults with exactly the
settings replaced that it gives, provided that the result can be used.
-/

set_option autoImplicit false

namespace VoteGossip

namespace PoolConfig

inductive Setting where
  | maxTxs (value : UInt64)
  | maxTxBytes (value : UInt64)
  | maxRetained (value : UInt64)

def settings : Json.Settings PoolConfig Setting where
  names := ["max_txs", "max_tx_bytes", "max_retained"]
  name
    | .maxTxs _ => "max_txs"
    | .maxTxBytes _ => "max_tx_bytes"
    | .maxRetained _ => "max_retained"
  scalar
    | .maxTxs value | .maxTxBytes value | .maxRetained value => .number value.toNat
  apply
    | .maxTxs value, config => { config with maxTxs := value }
    | .maxTxBytes value, config => { config with maxTxBytes := value }
    | .maxRetained value, config => { config with maxRetained := value }

theorem settings_describe : settings.Describes fields where
  names_eq := rfl
  distinct := by decide
  named setting := by cases setting <;> simp [settings]
  assigns field among json before after := by
    simp only [fields, List.mem_cons, List.not_mem_nil, or_false] at among
    rcases among with rfl | rfl | rfl
    · refine settings.assign_word_iff Json.width64 .maxTxs ?_ (fun _ => rfl) json before after
      rintro (_ | _ | _) <;> simp [settings]
    · refine settings.assign_word_iff Json.width64 .maxTxBytes ?_ (fun _ => rfl) json before after
      rintro (_ | _ | _) <;> simp [settings]
    · refine settings.assign_word_iff Json.width64 .maxRetained ?_ (fun _ => rfl) json before after
      rintro (_ | _ | _) <;> simp [settings]
  commute first second different config := by
    cases first <;> cases second <;> first
      | rfl
      | exact absurd rfl different

theorem validate_refuses (config : PoolConfig) (error : PoolError)
    (refused : config.validate = .error error) : ∃ reason, error = .configuration reason := by
  unfold validate at refused
  split at refused
  · cases refused
    exact ⟨_, rfl⟩
  · split at refused
    · cases refused
      exact ⟨_, rfl⟩
    · split at refused
      · cases refused
        exact ⟨_, rfl⟩
      · cases refused

theorem ofText_eq : ofText = Json.Settings.ofText fields {} validate .configuration := by
  funext text
  unfold ofText Json.Settings.ofText ofJson?
  cases (Json.parse? text).bind (Json.Record.ofJson? fields {}) <;> rfl

end PoolConfig

namespace GossipConfig

inductive Setting where
  | broadcast (value : Bool)
  | maxMessageBytes (value : UInt64)
  | catchupInterval (value : UInt64)
  | channelPriority (value : UInt8)

def settings : Json.Settings GossipConfig Setting where
  names := ["broadcast", "max_msg_bytes", "catchup_interval_ms", "channel_priority"]
  name
    | .broadcast _ => "broadcast"
    | .maxMessageBytes _ => "max_msg_bytes"
    | .catchupInterval _ => "catchup_interval_ms"
    | .channelPriority _ => "channel_priority"
  scalar
    | .broadcast value => .flag value
    | .maxMessageBytes value | .catchupInterval value => .number value.toNat
    | .channelPriority value => .number value.toNat
  apply
    | .broadcast value, config => { config with broadcast := value }
    | .maxMessageBytes value, config => { config with maxMessageBytes := value }
    | .catchupInterval value, config => { config with catchupInterval := value }
    | .channelPriority value, config => { config with channelPriority := value }

theorem settings_describe : settings.Describes fields where
  names_eq := rfl
  distinct := by decide
  named setting := by cases setting <;> simp [settings]
  assigns field among json before after := by
    simp only [fields, List.mem_cons, List.not_mem_nil, or_false] at among
    rcases among with rfl | rfl | rfl | rfl
    · refine settings.assign_flag_iff .broadcast ?_ (fun _ => rfl) json before after
      rintro (_ | _ | _ | _) <;> simp [settings]
    · refine settings.assign_word_iff Json.width64 .maxMessageBytes ?_ (fun _ => rfl) json before
        after
      rintro (_ | _ | _ | _) <;> simp [settings]
    · refine settings.assign_word_iff Json.width64 .catchupInterval ?_ (fun _ => rfl) json before
        after
      rintro (_ | _ | _ | _) <;> simp [settings]
    · refine settings.assign_word_iff Json.width8 .channelPriority ?_ (fun _ => rfl) json before
        after
      rintro (_ | _ | _ | _) <;> simp [settings]
  commute first second different config := by
    cases first <;> cases second <;> first
      | rfl
      | exact absurd rfl different

theorem validate_refuses (config : GossipConfig) (error : GossipError)
    (refused : config.validate = .error error) : ∃ reason, error = .configuration reason := by
  unfold validate at refused
  split at refused
  · cases refused
    exact ⟨_, rfl⟩
  · split at refused
    · cases refused
      exact ⟨_, rfl⟩
    · cases refused

theorem ofText_eq : ofText = Json.Settings.ofText fields {} validate .configuration := by
  funext text
  unfold ofText Json.Settings.ofText ofJson?
  cases (Json.parse? text).bind (Json.Record.ofJson? fields {}) <;> rfl

end GossipConfig

/-- A text of settings means the defaults with exactly the given ones replaced, for the pool and for
gossip. -/
theorem ConfigText.settings_govern :
    PoolConfig.settings.Governs {} PoolConfig.validate .configuration PoolConfig.ofText ∧
      GossipConfig.settings.Governs {} GossipConfig.validate .configuration
        GossipConfig.ofText := by
  constructor
  · rw [PoolConfig.ofText_eq]
    exact PoolConfig.settings_describe.governs PoolConfig.validate_refuses
  · rw [GossipConfig.ofText_eq]
    exact GossipConfig.settings_describe.governs GossipConfig.validate_refuses

namespace ConfigText

open Json

/-- An unknown member comes first, and the key of the known one starts with an escape. -/
def scrambled : String := "\x7b\"x\":[\x7b\x7d],\"\\u006Dax_txs\" : 7\x7d"

def unknownMember : Text × Json := ([.char 'x'], .array [.object []])

def escapedMember : Text × Json :=
  (.unit 0x6d :: ['a', 'x', '_', 't', 'x', 's'].map .char, .number (.natural ['7']))

theorem spells_scrambled : Spells (.object [unknownMember, escapedMember]) scrambled := by
  have items : Derives (.items [.object []]) ['\x7b', '\x7d'] :=
    .lastItem _ _ (.element _ [] _ [] nofun (.emptyObject [] nofun) nofun)
  have array : Derives (.element unknownMember.2) ['[', '\x7b', '\x7d', ']'] :=
    .element _ [] _ [] nofun (.array _ _ items) nofun
  have unknownKey : Text.Spells unknownMember.1 ['x'] := Text.spells_plain ['x'] (by decide)
  have unknown := Derives.member _ _ [] _ [] _ nofun unknownKey nofun array
  have seven : Number.Whole ['7'] := .row '7' [] rfl (by decide) nofun
  have number : Derives (.element escapedMember.2) [' ', '7'] :=
    .element _ [' '] _ [] (by decide) (.number _ _ (.natural _ seven)) nofun
  have escape : Piece.Spells (.unit 0x6d) ['\\', 'u', '0', '0', '6', 'D'] :=
    .unit _ _ _ _ 0 0 6 13 _ (by decide) (by decide) (by decide) (by decide) rfl
  have escapedKey : Text.Spells escapedMember.1
      (['\\', 'u', '0', '0', '6', 'D'] ++ ['a', 'x', '_', 't', 'x', 's']) :=
    .cons _ _ _ _ escape (Text.spells_plain _ (by decide))
  have known := Derives.member _ _ [] _ [' '] _ nofun escapedKey (by decide) number
  have members := Derives.further _ _ _ _ _ unknown (.lastMember _ _ _ known)
  exact .element _ [] _ [] nofun (.object _ _ members) nofun

theorem scrambled_settings_govern : PoolConfig.ofText scrambled = .ok { maxTxs := 7 } := by
  have gives : PoolConfig.settings.Gives [unknownMember, escapedMember]
      [PoolConfig.Setting.maxTxs 7] := by
    refine .other _ _ "x" _ _ (Text.denotes_plain ['x']) (by decide) ?_
    refine .setting _ _ (PoolConfig.Setting.maxTxs 7) _ _ ?_ (.number ['7']) .nil
    exact .units 'm' _ _ (Text.denotes_plain ['a', 'x', '_', 't', 'x', 's'])
  exact settings_govern.1.object scrambled _ _ _ spells_scrambled gives (.refl _) (by decide)

end ConfigText

end VoteGossip
