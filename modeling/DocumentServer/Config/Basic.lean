import DocumentServer.Address.Read
import DocumentServer.Codec.Pool
import DocumentServer.Config.Error
import DocumentServer.Message.Error
import DocumentServer.Yaml.Setting

namespace DocumentServer

open Yaml (Setting)

structure NetworkConfig where
  address : SocketAddress := .v4 .localhost (UInt16.ofNat defaultPort)
  idleSeconds : Nat := 300
  maxConnections : Nat := 1000

structure CodecConfig where
  strategy : Strategy := .copy
  policy : PoolPolicyKind := .onlyLikely
  purgeInterval : Nat := Pool.defaultInterval

structure MetricsConfig where
  enabled : Bool := false
  address : SocketAddress := .v4 .unspecified 9090

structure Config where
  network : NetworkConfig := {}
  codec : CodecConfig := {}
  metrics : MetricsConfig := {}

namespace Yaml.Setting

def address? (s : Setting) : Option SocketAddress := s.text?.bind SocketAddress.ofString?

end Yaml.Setting

namespace NetworkConfig

def ofSettings? (s : Setting) : Option NetworkConfig := do
  let d : NetworkConfig := {}
  let es ← s.entries?
  return ⟨← Setting.keyed es "bind_addr" Setting.address? d.address,
    ← Setting.keyed es "idle_timeout_secs" Setting.unsigned? d.idleSeconds,
    ← Setting.keyed es "max_connections" Setting.unsigned? d.maxConnections⟩

end NetworkConfig

namespace CodecConfig

def ofSettings? (s : Setting) : Option CodecConfig := do
  let d : CodecConfig := {}
  let es ← s.entries?
  return ⟨← Setting.keyed es "allocation" (fun v => v.choice?.bind Strategy.ofName?) d.strategy,
    ← Setting.keyed es "string_pool" (fun v => v.choice?.bind PoolPolicyKind.ofName?) d.policy,
    ← Setting.keyed es "pool_purge_interval" Setting.unsigned? d.purgeInterval⟩

end CodecConfig

namespace MetricsConfig

def ofSettings? (s : Setting) : Option MetricsConfig := do
  let d : MetricsConfig := {}
  let es ← s.entries?
  return ⟨← Setting.keyed es "enabled" Setting.boolean? d.enabled,
    ← Setting.keyed es "bind_addr" Setting.address? d.address⟩

end MetricsConfig

namespace Config

def ofSettings? (s : Setting) : Option Config := do
  let es ← s.entries?
  return ⟨← Setting.keyed es "network" NetworkConfig.ofSettings? {},
    ← Setting.keyed es "codec" CodecConfig.ofSettings? {},
    ← Setting.keyed es "metrics" MetricsConfig.ofSettings? {}⟩

def ofFile (path content : String) : Except ConfigError Config :=
  match Yaml.parse content with
  | none => .error (.unparsable path "not an outline of settings")
  | some root => match ofSettings? ⟨root, root⟩ with
    | none => .error (.unparsable path "not a configuration")
    | some c => .ok c

def toYaml (c : Config) : String :=
  let line (indent key value : String) : String := s!"{indent}{key}:{value}\n"
  let setting (key value : String) : String := line "  " key (" " ++ Yaml.writeScalar value)
  line "" "network" ""
    ++ setting "bind_addr" c.network.address.display
    ++ setting "idle_timeout_secs" (toString c.network.idleSeconds)
    ++ setting "max_connections" (toString c.network.maxConnections)
    ++ line "" "codec" ""
    ++ setting "allocation" c.codec.strategy.name
    ++ setting "string_pool" c.codec.policy.name
    ++ setting "pool_purge_interval" (toString c.codec.purgeInterval)
    ++ line "" "metrics" ""
    ++ setting "enabled" (if c.metrics.enabled then "true" else "false")
    ++ setting "bind_addr" c.metrics.address.display

/-- Checks what can be read but not served. -/
def validate (c : Config) : Except ConfigFault Unit :=
  if c.network.maxConnections = 0 then .error .noConnections
  else if c.codec.purgeInterval = 0 then .error .noPurgeInterval
  else if c.metrics.enabled && c.metrics.address = c.network.address then
    .error (.sameAddress c.network.address)
  else .ok ()

end Config

end DocumentServer
