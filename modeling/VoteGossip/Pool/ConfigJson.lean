import VoteGossip.ConfigFile
import VoteGossip.Json.Record
import VoteGossip.Pool.Config

/-!
Pool settings in JSON. Settings that are not given keep their defaults.
-/

set_option autoImplicit false

namespace VoteGossip.PoolConfig

def fields : List (Json.Field PoolConfig) :=
  let size (name : String) (set : UInt64 → PoolConfig → PoolConfig) : Json.Field PoolConfig :=
    { name
      assign := fun json config =>
        (json.upTo? (UInt64.size - 1)).map fun value => set value.toUInt64 config }
  [size "max_txs" fun value config => { config with maxTxs := value },
    size "max_tx_bytes" fun value config => { config with maxTxBytes := value },
    size "max_retained" fun value config => { config with maxRetained := value }]

def toJson (config : PoolConfig) : Json :=
  Json.Record.toJson
    [("max_txs", .ofNat config.maxTxs.toNat),
      ("max_tx_bytes", .ofNat config.maxTxBytes.toNat),
      ("max_retained", .ofNat config.maxRetained.toNat)]

def ofJson? (json : Json) : Option PoolConfig := Json.Record.ofJson? fields {} json

/-- Reads settings that can be used. A text that holds none is refused with the first words of the
message only; what a parser would append about the place and the cause is left out. -/
def ofText (text : String) : Except PoolError PoolConfig := do
  match (Json.parse? text).bind ofJson? with
  | none => .error (.configuration "invalid JSON")
  | some config =>
      config.validate
      return config

def ofFile (path : String) (text : Except FileFault String) : Except PoolError PoolConfig :=
  match text with
  | .ok text => ofText text
  | .error fault =>
      .error (.configuration s!"failed to read config file '{path}': {fault.message}")

end VoteGossip.PoolConfig
