import VoteGossip.ConfigFile
import VoteGossip.Gossip.Config
import VoteGossip.Json.Record

/-!
Gossip settings in JSON. Settings that are not given keep their defaults.
-/

set_option autoImplicit false

namespace VoteGossip.GossipConfig

def fields : List (Json.Field GossipConfig) :=
  [{ name := "broadcast"
     assign := fun json config =>
      json.bool?.map fun value => { config with broadcast := value } },
    { name := "max_msg_bytes"
      assign := fun json config =>
        (json.upTo? (UInt64.size - 1)).map fun value =>
          { config with maxMessageBytes := value.toUInt64 } },
    { name := "catchup_interval_ms"
      assign := fun json config =>
        (json.upTo? (UInt64.size - 1)).map fun value =>
          { config with catchupInterval := value.toUInt64 } },
    { name := "channel_priority"
      assign := fun json config =>
        (json.upTo? 255).map fun value =>
          { config with channelPriority := value.toUInt8 } }]

def toJson (config : GossipConfig) : Json :=
  Json.Record.toJson
    [("broadcast", .bool config.broadcast),
      ("max_msg_bytes", .ofNat config.maxMessageBytes.toNat),
      ("catchup_interval_ms", .ofNat config.catchupInterval.toNat),
      ("channel_priority", .ofNat config.channelPriority.toNat)]

def ofJson? (json : Json) : Option GossipConfig := Json.Record.ofJson? fields {} json

/-- Reads settings that can be used. A text that holds none is refused with the first words of the
message only; what a parser would append about the place and the cause is left out. -/
def ofText (text : String) : Except GossipError GossipConfig := do
  match (Json.parse? text).bind ofJson? with
  | none => .error (.configuration "invalid JSON")
  | some config =>
      config.validate
      return config

def ofFile (text : Except FileFault String) : Except GossipError GossipConfig :=
  match text with
  | .ok text => ofText text
  | .error fault => .error (.io fault.message)

end VoteGossip.GossipConfig
