import DocumentServer.Address.Basic

namespace DocumentServer

inductive ConfigFault where
  | noConnections
  | noPurgeInterval
  | sameAddress (address : SocketAddress)
  | other (reason : String)
  deriving DecidableEq

def ConfigFault.message : ConfigFault → String
  | noConnections => "network.max_connections must be at least 1"
  | noPurgeInterval => "codec.pool_purge_interval must be at least 1"
  | sameAddress address => s!"metrics and protocol listeners both bind {address.display}"
  | other reason => reason

inductive ConfigError where
  | unreadable (path reason : String)
  | unparsable (path reason : String)
  | invalid (fault : ConfigFault)
  deriving DecidableEq

def ConfigError.message : ConfigError → String
  | unreadable path reason => s!"failed to read config file '{path}': {reason}"
  | unparsable path reason => s!"failed to parse config file '{path}': {reason}"
  | invalid fault => s!"configuration validation failed: {fault.message}"

end DocumentServer
