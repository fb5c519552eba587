import DocumentServer.Double.Shortest
import DocumentServer.Metrics.Basic

namespace DocumentServer

structure Sample where
  ending : String
  labels : List (String × String)
  value : Double

structure Family where
  name : String
  help : String
  kind : String
  samples : List Sample

namespace Sample

def format : Double.Format := ⟨-400, 400, false, true⟩

def renderValue (x : Double) : String :=
  if x.isFinite then x.render format else x.renderSpecial

def escapeLabel (s : String) : String :=
  s.foldl (fun t c =>
    match c with
    | '\\' => t ++ "\\\\"
    | '"' => t ++ "\\\""
    | '\n' => t ++ "\\n"
    | c => t.push c) ""

def renderLabel (l : String × String) : String := l.1 ++ "=\"" ++ escapeLabel l.2 ++ "\""

def render (family : String) (s : Sample) : String :=
  let labels :=
    if s.labels.isEmpty then ""
    else "\x7b" ++ ",".intercalate (s.labels.map renderLabel) ++ "\x7d"
  family ++ s.ending ++ labels ++ " " ++ renderValue s.value

end Sample

namespace Family

def lines (f : Family) : List String :=
  if f.samples.isEmpty then []
  else
    s!"# HELP {f.name} {f.help}" :: s!"# TYPE {f.name} {f.kind}" ::
      f.samples.map (Sample.render f.name)

def single (name help kind : String) (n : Int) : Family := ⟨name, help, kind, [⟨"", [], .ofInt n⟩]⟩

def counters (name help label : String) (xs : Labelled Nat) : Family :=
  ⟨name, help, "counter", xs.map fun x => ⟨"", [(label, x.1)], .ofInt x.2⟩⟩

end Family

namespace Histogram

/-- The buckets as samples, each with the count of all up to it. -/
def bucketSamples (labels : List (String × String)) (sum : Nat) :
    List (String × Double) → List Nat → List Sample
  | (bound, _) :: bounds, n :: ns =>
    ⟨"_bucket", labels ++ [("le", bound)], .ofInt (sum + n : Nat)⟩
      :: bucketSamples labels (sum + n) bounds ns
  | _, _ => []

def samples (labels : List (String × String)) (h : Histogram) : List Sample :=
  bucketSamples labels 0 bounds h.buckets ++
    [⟨"_bucket", labels ++ [("le", "+Inf")], .ofInt h.count⟩, ⟨"_sum", labels, h.sum⟩,
      ⟨"_count", labels, .ofInt h.count⟩]

end Histogram

namespace Metrics

def families (m : Metrics) : List Family :=
  [.counters "docwire_commands_total" "Total commands by name" "command" m.commands,
    .single "docwire_connections_active" "Number of currently active connections" "gauge"
      m.activeConnections,
    .single "docwire_connections_total" "Total number of connections accepted" "counter"
      m.connections,
    .single "docwire_decode_failures_total" "Total frames whose body could not be parsed" "counter"
      m.decodeFailures,
    .counters "docwire_errors_total" "Total errors by error code" "code" m.errors,
    .single "docwire_interned_strings" "Number of strings held by the intern pool" "gauge"
      m.internedStrings,
    ⟨"docwire_request_duration_seconds", "Request duration in seconds by opcode", "histogram",
      m.durations.flatMap fun x => x.2.samples [("opcode", x.1)]⟩,
    .counters "docwire_requests_total" "Total requests by opcode" "opcode" m.requests]

def lines (m : Metrics) : List String := m.families.flatMap Family.lines

def text (m : Metrics) : String := String.join (m.lines.map (· ++ "\n"))

end Metrics

end DocumentServer
