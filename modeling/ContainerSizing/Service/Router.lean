import ContainerSizing.Engine.Basic
import ContainerSizing.Json.Parser
import ContainerSizing.Service.Counter
import ContainerSizing.Service.Journal
import ContainerSizing.Service.MediaType

namespace ContainerSizing.Service

structure Request where
  method : String
  target : String
  contentType : Option String
  body : String

-- The content of a response is JSON or, for the metrics, a text that is put in elsewhere.
structure Response where
  status : Nat
  content : Option Json

-- A response, with everything else a request brings about: counters that go up, and events.
structure Reply where
  response : Response
  counters : List Counter := []
  events : List Event := []

-- The time of a request, and how long its evaluation takes.
structure Clock where
  now : Timestamp
  elapsed : Float

inductive Route where
  | health
  | metrics
  | recommendations
  | minimumData
deriving DecidableEq, Repr

namespace Route

def ofPath? : String → Option Route
  | "/healthz" => some health
  | "/metrics" => some metrics
  | "/api/v1/recommendations" => some recommendations
  | "/api/v1/min-data-check" => some minimumData
  | _ => none

-- What is read also answers for its head alone.
def allows : Route → String → Bool
  | health, m | metrics, m => m = "GET" || m = "HEAD"
  | recommendations, m | minimumData, m => m = "POST"

end Route

def isSchemeChar (c : Char) : Bool :=
  c.isAlphanum || c = '+' || c = '-' || c = '.'

def endsAuthority (c : Char) : Bool :=
  c = '/' || c = '?' || c = '#'

-- A target without its scheme and authority; one that is no path and has no scheme is no more.
def withoutOrigin (target : List Char) : List Char :=
  match target with
  | '/' :: _ => target
  | _ =>
    match target.dropWhile isSchemeChar with
    | ':' :: '/' :: '/' :: rest => rest.dropWhile (!endsAuthority ·)
    | _ => []

-- The path of a target, without a query.
def path (target : String) : String :=
  String.ofList ((withoutOrigin target.toList).takeWhile fun c => c ≠ '?' ∧ c ≠ '#')

-- A request for recommendations; all of its parts may be missing.
structure Order where
  container : Option String
  stop : Option Timestamp
  series : Series

namespace Order

def reader [Json.Conversion] : Reader Order :=
  Reader.record ["container_name", "end_time", "series"] fun ms =>
    Order.mk <$> ms.optional "container_name" (Reader.nullable Reader.text) none
      <*> ms.optional "end_time" (Reader.nullable (Reader.parsed Timestamp.ofText?)) none
      <*> ms.optional "series" Series.reader ∅

end Order

-- A question whether a series holds enough data.
def questionReader [Json.Conversion] : Reader Series :=
  Reader.record ["series"] fun ms => ms.optional "series" Series.reader ∅

def refuse (status : Nat) : Reply :=
  { response := ⟨status, none⟩ }

def answer (content : Json) : Reply :=
  { response := ⟨200, some content⟩ }

-- How many bytes a body may have.
def bodyLimit : Nat :=
  2 * 1024 * 1024

-- Reads the first value of a body; text behind it is not looked at. The body must be declared as
-- JSON, which is asked before its size is. A text that is no JSON and a value of the wrong shape are
-- refused differently.
def readBody (read : Reader α) (r : Request) : Except Nat α :=
  if !(r.contentType.bind MediaType.ofText?).any (·.isJson) then .error 415
  else if bodyLimit < r.body.utf8ByteSize then .error 413
  else
    let value := match Json.parseFirst r.body with
      | .ok (v, _) => v
      | .error v => v
    match read value with
    | .ok a => .ok a
    | .error .malformed => .error 400
    | .error .mismatch => .error 422

end Service

-- An engine that answers requests, and the journal it keeps.
structure Service where
  engine : Engine
  journal : Journal

namespace Service

def recommend (s : Service) (clock : Clock) (order : Order) : Reply :=
  let container := order.container.getD "unnamed"
  let stop := (order.stop <|> order.series.latest?).getD clock.now
  let key := s.engine.kind.key
  let set := s.engine.recommend order.series stop
  let enough := s.engine.hasLeastData order.series
  { response := ⟨200, some (.record [("container_name", .text container), ("engine", .text key),
      ("end_time", .text stop.isoText), ("recommendations", RecommendationSet.toJson set)])⟩
    counters := (if enough then [] else [.insufficientData]) ++
      Counter.ofLatency clock.elapsed ++ Counter.ofRecommendations key set
    events :=
      (if enough then []
        else [s.journal.insufficientData container order.series.size order.series.totalMinutes]) ++
        s.engine.events order.series stop ++ s.journal.failures container set ++
        s.journal.generated container key set clock.elapsed }

variable [Json.Conversion]

def serve (s : Service) (clock : Clock) (r : Request) : Route → Reply
  | .health => answer (.record [("status", .text "healthy"), ("engine", .text s.engine.kind.key)])
  | .metrics => { response := ⟨200, none⟩ }
  | .recommendations =>
    match readBody Order.reader r with
    | .ok order => s.recommend clock order
    | .error status => refuse status
  | .minimumData =>
    match readBody questionReader r with
    | .ok series =>
      answer (.record [("min_data_available", .bool (s.engine.hasLeastData series))])
    | .error status => refuse status

-- The head of a response has no content.
def handle (s : Service) (clock : Clock) (r : Request) : Reply :=
  match Route.ofPath? (path r.target) with
  | none => refuse 404
  | some route =>
    if route.allows r.method then
      let reply := s.serve clock r route
      if r.method = "HEAD" then
        { reply with response := { reply.response with content := none } }
      else
        reply
    else
      refuse 405

end ContainerSizing.Service
