import DocumentServer.Metrics.Text

namespace DocumentServer

structure Page where
  status : Nat
  contentType : String
  body : String
  deriving DecidableEq

def Metrics.page (m : Metrics) : String → Page
  | "/metrics" => ⟨200, "text/plain; version=0.0.4; charset=utf-8", m.text⟩
  | "/health" | "/healthz" => ⟨200, "text/plain", "OK"⟩
  | _ => ⟨404, "text/plain", "Not Found"⟩

namespace Page

def requestedPath? (head : String) : Option String :=
  match ((head.toList.takeWhile fun c => c ≠ '\r' && c ≠ '\n').splitOn ' ') with
  | [_, target, _] => some (String.ofList (target.takeWhile (· ≠ '?')))
  | _ => none

def reason : Nat → String
  | 200 => "OK"
  | 404 => "Not Found"
  | _ => ""

def response (p : Page) : String :=
  "\r\n".intercalate [s!"HTTP/1.1 {p.status} {reason p.status}", s!"content-type: {p.contentType}",
    s!"content-length: {p.body.utf8ByteSize}", "connection: close", "", p.body]

end Page

/-- The answer to the head of a request; none if it is no request. -/
def Metrics.respond? (m : Metrics) (head : String) : Option String :=
  (Page.requestedPath? head).map fun path => (m.page path).response

end DocumentServer
