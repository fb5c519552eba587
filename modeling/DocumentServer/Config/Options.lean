import DocumentServer.Config.Environment

namespace DocumentServer

inductive Setting where
  | file
  | address
  | metricsAddress
  deriving DecidableEq

namespace Setting

def word : Setting → String
  | file => "config"
  | address => "bind"
  | metricsAddress => "metrics-addr"

def placeholder (t : Setting) : String := t.word.map fun c => if c = '-' then '_' else c.toUpper

def display (t : Setting) : String := s!"--{t.word} <{t.placeholder}>"

def ofWord? (word : String) : Option Setting :=
  [file, address, metricsAddress].find? fun t => t.word = word

def ofLetter? : Char → Option Setting
  | 'c' => some file
  | 'b' => some address
  | _ => none

def joined? : List Char → Option String
  | [] => none
  | '=' :: cs => some (String.ofList cs)
  | cs => some (String.ofList cs)

/-- The setting that an argument names, and the value that is joined to it. -/
def ofArgument? (argument : String) : Option (Setting × Option String) :=
  match argument.toList with
  | '-' :: '-' :: cs =>
    (ofWord? (String.ofList (cs.takeWhile (· ≠ '=')))).map fun t =>
      (t, joined? (cs.dropWhile (· ≠ '=')))
  | '-' :: c :: cs => (ofLetter? c).map fun t => (t, joined? cs)
  | _ => none

end Setting

inductive OptionFault where
  | unexpected (argument : String)
  | valueMissing (setting : Setting)
  | repeated (setting : Setting)
  | notAddress (setting : Setting) (value : String)
  deriving DecidableEq

def OptionFault.message : OptionFault → String
  | unexpected argument => s!"unexpected argument '{argument}' found"
  | valueMissing setting =>
    s!"a value is required for '{setting.display}' but none was supplied"
  | repeated setting => s!"the argument '{setting.display}' cannot be used multiple times"
  | notAddress setting value =>
    s!"invalid value '{value}' for '{setting.display}': invalid socket address syntax"

structure Options where
  file : Option String := none
  address : Option SocketAddress := none
  metricsAddress : Option SocketAddress := none
  deriving DecidableEq

inductive Invocation where
  | serve (options : Options)
  | help
  | version
  deriving DecidableEq

namespace Options

def put (t : Setting) (value : String) (o : Options) : Except OptionFault Options :=
  let once {α : Type} (old : Option α) (read : String → Option α) (next : α → Options) :=
    if old.isSome then .error (.repeated t)
    else match read value with
      | some a => .ok (next a)
      | none => .error (.notAddress t value)
  match t with
  | .file => once o.file some fun a => { o with file := some a }
  | .address => once o.address SocketAddress.ofString? fun a => { o with address := some a }
  | .metricsAddress =>
    once o.metricsAddress SocketAddress.ofString? fun a => { o with metricsAddress := some a }

def isOption (argument : String) : Bool :=
  match argument.toList with
  | '-' :: _ :: _ => true
  | _ => false

def readFrom (o : Options) : List String → Except OptionFault Invocation
  | [] => .ok (.serve o)
  | argument :: rest =>
    if argument = "-h" || argument = "--help" then .ok .help
    else if argument = "-V" || argument = "--version" then .ok .version
    else match Setting.ofArgument? argument, rest with
      | none, _ => .error (.unexpected argument)
      | some (t, some value), rest => do readFrom (← o.put t value) rest
      | some (t, none), [] => .error (.valueMissing t)
      | some (t, none), value :: rest =>
        if isOption value then .error (.valueMissing t)
        else do readFrom (← o.put t value) rest

def read (arguments : List String) : Except OptionFault Invocation := readFrom {} arguments

def usage : String := "Usage: docwire [OPTIONS]"

def help : String :=
  "\n".intercalate ["Legacy document-database wire protocol server", "", usage, "", "Options:",
    "  -c, --config <CONFIG>              YAML configuration file [env: DOCWIRE_CONFIG=]",
    "  -b, --bind <BIND>                  Address to listen on (overrides the configuration file)",
    "      --metrics-addr <METRICS_ADDR>  Serve Prometheus metrics on this address",
    "  -h, --help                         Print help",
    "  -V, --version                      Print version"]

end Options

namespace Config

/-- A configuration with a command line over it. An address for the metrics switches them on. -/
def withOptions (o : Options) (c : Config) : Config :=
  { c with
    network.address := o.address.getD c.network.address
    metrics :=
      match o.metricsAddress with
      | some address => ⟨true, address⟩
      | none => c.metrics }

end Config

end DocumentServer
