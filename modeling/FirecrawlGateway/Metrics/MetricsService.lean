import FirecrawlGateway.Lib.JsMap
import FirecrawlGateway.Proxy.RequestHandling

/-!
# The metrics of requests

Model of `observeRequest`, `recentFallbackStats` and what they call in
`apps/api/src/metrics/metrics.service.ts`. The histogram is the list of the labels it was given;
what it does with a duration is the library's.
-/

namespace FirecrawlGateway
namespace Metrics

open Proxy (RequestObservation)

/-! ## Labels -/

/-- `ROUTE_SEGMENTS`. -/
def routeSegments : List String :=
  ["agent", "batch", "browser", "crawl", "deep-research", "extract", "llmstxt", "map", "monitor",
    "parse", "research", "scrape", "search", "team"]

/-- `BACKENDS`. -/
def backends : List String := ["cloud", "self-hosted"]

/-- `BACKEND_LABELS`. -/
def backendLabels : List String := backends ++ ["cache"]

/-- `[A-Za-z0-9_-]`. -/
def isSegmentChar (c : Char) : Bool :=
  ('A' ≤ c ∧ c ≤ 'Z') ∨ ('a' ≤ c ∧ c ≤ 'z') ∨ ('0' ≤ c ∧ c ≤ '9') ∨ c = '_' ∨ c = '-'

/-- What the pattern of `routeLabel` captures: a version, and up to 40 characters of a segment. -/
def matchRoute : List Char → Option (Char × List Char)
  | '/' :: 'v' :: version :: '/' :: rest =>
    let segment := (rest.takeWhile isSegmentChar).take 40
    if (version = '1' ∨ version = '2') ∧ segment ≠ [] then some (version, segment) else none
  | _ => none

/-- The label of an endpoint. -/
def endpointLabel (version : Char) (segment : String) : String :=
  String.ofList ['/', 'v', version, '/'] ++ segment

def routeLabel (path : String) : String :=
  match matchRoute path.toList with
  | none => "other"
  | some (version, captured) =>
    let segment := String.ofList (captured.map Char.toLower)
    if segment ∈ routeSegments then endpointLabel version segment else "other"

def statusClass (statusCode : ℕ) : String :=
  let hundreds := statusCode / 100
  if 1 ≤ hundreds ∧ hundreds ≤ 5 then toString hundreds ++ "xx" else "other"

structure Labels where
  backend : String
  statusClass : String
  fallback : String
  route : String
deriving DecidableEq, Repr

def labels (observation : RequestObservation) : Labels where
  backend := if observation.backend ∈ backendLabels then observation.backend else "none"
  statusClass := Metrics.statusClass observation.statusCode
  fallback := if observation.fallbackUsed then "true" else "false"
  route := routeLabel observation.path

/-! ## The service -/

structure MinuteBucket where
  total : ℕ := 0
  fallbacks : ℕ := 0
deriving DecidableEq, Repr

structure MetricsService where
  minuteBuckets : JsMap ℤ MinuteBucket := ∅
  requestDuration : List Labels := []

/-- `WINDOW_RETENTION_MINUTES`. -/
def windowRetentionMinutes : ℤ := 60

/-- `Math.floor(now / 60_000)`. -/
def minuteOf (now : ℤ) : ℤ := now / 60000

def countInWindow (minuteBuckets : JsMap ℤ MinuteBucket) (fallbackUsed : Bool) (now : ℤ) :
    JsMap ℤ MinuteBucket :=
  let minute := minuteOf now
  let bucket := (minuteBuckets.get minute).getD {}
  let counted := minuteBuckets.set minute
    { total := bucket.total + 1
      fallbacks := if fallbackUsed then bucket.fallbacks + 1 else bucket.fallbacks }
  -- the keys are deleted while the map is walked
  (counted.entries.map Prod.fst).foldl
    (fun m key => if key ≤ minute - windowRetentionMinutes then m.delete key else m) counted

def observeRequest (s : MetricsService) (observation : RequestObservation) (now : ℤ) :
    MetricsService where
  minuteBuckets :=
    if observation.reachedBackend ∧ observation.backend ∈ backends then
      countInWindow s.minuteBuckets observation.fallbackUsed now
    else s.minuteBuckets
  requestDuration := labels observation :: s.requestDuration

def recentFallbackStats (s : MetricsService) (minutes : ℤ) (now : ℤ) : MinuteBucket :=
  let newest := minuteOf now
  s.minuteBuckets.entries.foldl
    (fun sum entry =>
      if newest - minutes < entry.1 ∧ entry.1 ≤ newest then
        { total := sum.total + entry.2.total, fallbacks := sum.fallbacks + entry.2.fallbacks }
      else sum) {}

/-- The requests of a process, each with the time at which it was observed. -/
def observeAll (es : List (RequestObservation × ℤ)) : MetricsService :=
  es.foldl (fun s e => observeRequest s e.1 e.2) {}

end Metrics
end FirecrawlGateway
