import TokenKeeper.Http.Peer
import TokenKeeper.Log.Record
import TokenKeeper.Metrics.Basic
/-!
# What clients act upon

The peer with the requests that have reached it, the metrics, and the log. Clients of one program
share them.
-/
namespace TokenKeeper

/-- What clients act upon. -/
structure World where
  peer : Http.Peer
  received : List Http.Request
  metrics : Metrics
  records : List LogRecord
deriving DecidableEq, Repr

namespace World

def start (peer : Http.Peer) : World := ⟨peer, [], .zero, []⟩

def log (w : World) (records : List LogRecord) : World :=
  { w with records := w.records ++ records }

def count (w : World) (f : Metrics → Metrics) : World := { w with metrics := f w.metrics }

def send (w : World) (client : HttpClient) (r : Http.Request) :
    Except Http.Failure Http.Response × World :=
  let e := Http.send client r w.peer
  (e.outcome, { w with peer := e.peer, received := w.received ++ e.received })

/-- Hands over a text of JSON at an address. -/
def post (w : World) (client : HttpClient) (address body : String) :
    Except Http.Failure Http.Response × World :=
  match Http.readAddress address with
  | .ok url => w.send client (.postJson url body)
  | .error f => (.error f, w)

end World

end TokenKeeper
