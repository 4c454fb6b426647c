import VoteGossip.Json.Identity
import VoteGossip.Proofs.ConfigText
import VoteGossip.Proofs.Json.Writing

/-!
Serialized values. Whatever has a text reads back from it unchanged, configurations that cannot be
used among them; these are refused only by who wants to use them.
-/

set_option autoImplicit false

namespace VoteGossip

namespace Json

/-- Every value reads back from its text, and the text of a value that was read from any text at
all reads back as that value and is written the same again. -/
structure ReadsBack {Value : Type} (toJson : Value → Json) (ofJson? : Json → Option Value) :
    Prop where
  back : ∀ value, (parse? (toJson value).write).bind ofJson? = some value
  stable : ∀ text value, (parse? text).bind ofJson? = some value →
    let printed := (toJson value).write
    (parse? printed).bind ofJson? = some value ∧
      ((parse? printed).bind ofJson?).map (fun again => (toJson again).write) = some printed

theorem readsBack {Value : Type} {toJson : Value → Json} {ofJson? : Json → Option Value}
    (prints : ∀ value, (toJson value).Prints)
    (taken : ∀ value, ofJson? (toJson value) = some value) : ReadsBack toJson ofJson? := by
  have back (value : Value) : (parse? (toJson value).write).bind ofJson? = some value := by
    rw [parse?_of_spells (prints value).spells, Option.bind_some, taken]
  refine ⟨back, ?_⟩
  intro text value _read
  refine ⟨back value, ?_⟩
  rw [back value, Option.map_some]

theorem prints_ofBytes (bytes : List UInt8) : (ofBytes bytes).Prints := by
  apply prints_array
  intro item among
  obtain ⟨byte, _, rfl⟩ := List.mem_map.mp among
  exact prints_ofNat byte.toNat

theorem byte?_ofNat (byte : UInt8) : (ofNat byte.toNat).byte? = some byte :=
  width8.assign_ofNat id byte

theorem bytes?_ofBytes (bytes : List UInt8) : (ofBytes bytes).bytes? = some bytes := by
  change (bytes.map fun byte => ofNat byte.toNat).mapM byte? = some bytes
  induction bytes with
  | nil => rfl
  | cons byte later ih =>
      rw [List.map_cons, List.mapM_cons, byte?_ofNat, ih]
      rfl

theorem bytes32?_ofBytes (bytes : Vector UInt8 32) :
    (ofBytes bytes.toList).bytes32? = some bytes := by
  unfold bytes32?
  rw [bytes?_ofBytes]
  simp [Vector.toList]

end Json

open Json

theorem PeerId.readsBack : ReadsBack PeerId.toJson PeerId.ofJson? :=
  Json.readsBack (fun peer => prints_ofNat peer.number.toNat)
    fun peer => width16.assign_ofNat PeerId.mk peer.number

theorem Tx.readsBack : ReadsBack Tx.toJson Tx.ofJson? := by
  apply Json.readsBack
  · intro tx
    exact prints_ofBytes tx.payload
  · intro tx
    rw [Tx.ofJson?, Tx.toJson, bytes?_ofBytes, Option.map_some]

theorem TxId.readsBack : ReadsBack TxId.toJson TxId.ofJson? := by
  apply Json.readsBack
  · intro id
    exact prints_ofBytes id.bytes.toList
  · intro id
    rw [TxId.ofJson?, TxId.toJson, bytes32?_ofBytes, Option.map_some]

theorem NodeId.readsBack : ReadsBack NodeId.toJson NodeId.ofJson? := by
  apply Json.readsBack
  · intro node
    apply prints_record
    intro name value among
    cases List.mem_singleton.mp among
    exact ⟨by decide, prints_ofBytes node.bytes.toList⟩
  · intro node
    have key : Text.string? (Text.ofString "bytes") = some "bytes" :=
      Text.string?_of_denotes (Text.denotes_plain _)
    simp [NodeId.ofJson?, NodeId.toJson, NodeId.fields, Record.toJson, Record.ofJson?,
      Record.ofMembers, key, bytes32?_ofBytes]

namespace PoolConfig

theorem prints_toJson (config : PoolConfig) : config.toJson.Prints := by
  apply prints_record
  intro name value among
  simp only [List.mem_cons, Prod.mk.injEq, List.not_mem_nil, or_false] at among
  rcases among with ⟨rfl, rfl⟩ | ⟨rfl, rfl⟩ | ⟨rfl, rfl⟩
  all_goals exact ⟨by decide, prints_ofNat _⟩

def allSettings (config : PoolConfig) : List Setting :=
  [.maxTxs config.maxTxs, .maxTxBytes config.maxTxBytes, .maxRetained config.maxRetained]

theorem override_allSettings (config : PoolConfig) :
    settings.override config.allSettings {} = config := by
  cases config
  rfl

theorem ofJson?_toJson (config : PoolConfig) : ofJson? config.toJson = some config := by
  have gives : settings.Gives _ config.allSettings :=
    .setting _ _ _ _ _ (Text.denotes_plain _) (is_ofNat _)
      (.setting _ _ _ _ _ (Text.denotes_plain _) (is_ofNat _)
        (.setting _ _ _ _ _ (Text.denotes_plain _) (is_ofNat _) .nil))
  have taken := settings_describe.ofJson?_of_gives gives settings_describe.distinct {}
  rw [override_allSettings] at taken
  exact taken

theorem ofText_toJson_iff (config : PoolConfig) :
    ofText config.toJson.write = .ok config ↔ config.validate = .ok () := by
  rw [ofText_eq]
  exact Settings.ofText_eq_ok_iff config.prints_toJson.spells config.ofJson?_toJson

end PoolConfig

namespace GossipConfig

theorem prints_toJson (config : GossipConfig) : config.toJson.Prints := by
  apply prints_record
  intro name value among
  simp only [List.mem_cons, Prod.mk.injEq, List.not_mem_nil, or_false] at among
  rcases among with ⟨rfl, rfl⟩ | ⟨rfl, rfl⟩ | ⟨rfl, rfl⟩ | ⟨rfl, rfl⟩
  · exact ⟨by decide, prints_bool _⟩
  all_goals exact ⟨by decide, prints_ofNat _⟩

def allSettings (config : GossipConfig) : List Setting :=
  [.broadcast config.broadcast, .maxMessageBytes config.maxMessageBytes,
    .catchupInterval config.catchupInterval, .channelPriority config.channelPriority]

theorem override_allSettings (config : GossipConfig) :
    settings.override config.allSettings {} = config := by
  cases config
  rfl

theorem ofJson?_toJson (config : GossipConfig) : ofJson? config.toJson = some config := by
  have gives : settings.Gives _ config.allSettings :=
    .setting _ _ _ _ _ (Text.denotes_plain _) (.flag _)
      (.setting _ _ _ _ _ (Text.denotes_plain _) (is_ofNat _)
        (.setting _ _ _ _ _ (Text.denotes_plain _) (is_ofNat _)
          (.setting _ _ _ _ _ (Text.denotes_plain _) (is_ofNat _) .nil)))
  have taken := settings_describe.ofJson?_of_gives gives settings_describe.distinct {}
  rw [override_allSettings] at taken
  exact taken

theorem ofText_toJson_iff (config : GossipConfig) :
    ofText config.toJson.write = .ok config ↔ config.validate = .ok () := by
  rw [ofText_eq]
  exact Settings.ofText_eq_ok_iff config.prints_toJson.spells config.ofJson?_toJson

end GossipConfig

/-- Every identity, every transaction and every configuration reads back unchanged from its text; a
configuration is accepted from its text exactly if it can be used. -/
theorem serialized_reads_back :
    ReadsBack PeerId.toJson PeerId.ofJson? ∧ ReadsBack Tx.toJson Tx.ofJson? ∧
      ReadsBack TxId.toJson TxId.ofJson? ∧ ReadsBack NodeId.toJson NodeId.ofJson? ∧
      ReadsBack PoolConfig.toJson PoolConfig.ofJson? ∧
      ReadsBack GossipConfig.toJson GossipConfig.ofJson? ∧
      (∀ config : PoolConfig,
        PoolConfig.ofText config.toJson.write = .ok config ↔ config.validate = .ok ()) ∧
      ∀ config : GossipConfig,
        GossipConfig.ofText config.toJson.write = .ok config ↔ config.validate = .ok () := by
  refine ⟨PeerId.readsBack, Tx.readsBack, TxId.readsBack, NodeId.readsBack, ?_, ?_,
    PoolConfig.ofText_toJson_iff, GossipConfig.ofText_toJson_iff⟩
  · exact Json.readsBack PoolConfig.prints_toJson PoolConfig.ofJson?_toJson
  · exact Json.readsBack GossipConfig.prints_toJson GossipConfig.ofJson?_toJson

end VoteGossip
