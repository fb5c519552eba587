import DocumentServer.Config.Basic

namespace DocumentServer

abbrev Environment : Type := String → Option String

namespace Environment

/-- The variables that are looked at; the first names a settings file. -/
def names : List String :=
  ["DOCWIRE_CONFIG", "DOCWIRE_BIND", "DOCWIRE_IDLE_TIMEOUT", "DOCWIRE_MAX_CONNECTIONS",
    "DOCWIRE_ALLOCATION", "DOCWIRE_STRING_POOL", "DOCWIRE_METRICS_ENABLED", "DOCWIRE_METRICS_BIND"]

def unsigned? (s : String) : Option Nat :=
  let ds := match s.toList with
    | '+' :: ds => ds
    | ds => ds
  match Address.number 10 0x10000000000000000 ds with
  | some (n, []) => some n
  | _ => none

def isOn (s : String) : Bool := s = "1" || s.toLower = "true"

def override {α : Type} (env : Environment) (name : String) (read : String → Option α) (old : α) :
    α :=
  ((env name).bind read).getD old

end Environment

namespace Config

def withEnvironment (env : Environment) (c : Config) : Config :=
  { network :=
      { address := env.override "DOCWIRE_BIND" SocketAddress.ofString? c.network.address
        idleSeconds :=
          env.override "DOCWIRE_IDLE_TIMEOUT" Environment.unsigned? c.network.idleSeconds
        maxConnections :=
          env.override "DOCWIRE_MAX_CONNECTIONS" Environment.unsigned? c.network.maxConnections }
    codec :=
      { c.codec with
        strategy := env.override "DOCWIRE_ALLOCATION" Strategy.ofName? c.codec.strategy
        policy := env.override "DOCWIRE_STRING_POOL" PoolPolicyKind.ofName? c.codec.policy }
    metrics :=
      { enabled :=
          env.override "DOCWIRE_METRICS_ENABLED" (fun s => some (Environment.isOn s))
            c.metrics.enabled
        address := env.override "DOCWIRE_METRICS_BIND" SocketAddress.ofString?
          c.metrics.address } }

/-- The configuration of a settings file, if one is given, with the environment over it. The file is
its path and its content, or why it could not be read. -/
def load (file : Option (String × Except String String)) (env : Environment) :
    Except ConfigError Config :=
  match file with
  | none => .ok (withEnvironment env {})
  | some (path, .error reason) => .error (.unreadable path reason)
  | some (path, .ok content) => (ofFile path content).map (withEnvironment env)

end Config

end DocumentServer
