import FirecrawlGateway.Audit.AuditService
import FirecrawlGateway.Cron.CronService
import FirecrawlGateway.Lib.EventMachine

/-!
# The request log on the dashboard

Model of `mergeEntries`, `fetchData` and `refreshWhenVisible` in
`apps/admin/src/pages/Dashboard.tsx`, over an audit log that the gateway writes to and that is
deleted from. A dashboard asks for the whole log or for what is new since its newest entry; the
answer is what the database held at one moment between the request and its arrival.
-/

namespace FirecrawlGateway
namespace Dashboard

open AuditService
open CronService (deleteOldest pruneBatchSize)

variable {α : Type}

/-! ## `mergeEntries` -/

/-- The loop over `incoming`: the entries that are not there yet. -/
def newEntries : List String → List (AuditEntry α) → List (AuditEntry α)
  | _, [] => []
  | seenIds, entry :: incoming =>
    if entry.id ∈ seenIds then newEntries seenIds incoming
    else entry :: newEntries (entry.id :: seenIds) incoming

/-- The comparison of `sort`, which is stable: `a` stays before `b`. -/
def newestFirst (a b : AuditEntry α) : Bool := ¬ a.createdAt < b.createdAt

def maxEntries : ℕ := 500

def mergeEntries (current incoming : List (AuditEntry α)) : List (AuditEntry α) :=
  let fresh := newEntries (current.map AuditEntry.id) incoming
  if fresh.isEmpty then current else ((fresh ++ current).mergeSort newestFirst).take maxEntries

/-! ## Deletions -/

inductive Deletion
  | one (id : String)
  | byIds (ids : List String)
  | period (filter : DeleteFilter) (now : ℤ)
  /-- A batch of `pruneOldAuditLogs`. -/
  | batch (cutoff : ℤ)
deriving DecidableEq, Repr

/-- What a deletion leaves. -/
def Deletion.rest (log : List (Row α)) : Deletion → Option (List (Row α))
  | .one id => some (deleteAuditEntry log id).1
  | .byIds ids => some (deleteAuditEntriesByIds log ids).1
  | .period filter now => (deleteAuditEntries log filter now).map Prod.snd
  | .batch cutoff =>
    some (deleteOldest Row.id Row.createdAt (fun row => row.createdAt < cutoff) pruneBatchSize log).2

/-! ## Runs -/

/-- The request of `fetchData`. An answer has the rows that it was made from; `found` is not in the
source and records the whole log at that moment. -/
inductive Fetch (α : Type)
  | sent (full : Bool) (since : Option (List Char))
  | answered (full : Bool) (rows found : List (Row α))
deriving DecidableEq, Repr

/-- The audit log and one dashboard. The last four fields are not in the source: all rows that were
ever written, the rows that answers had, the rows that requests found since the last full refresh,
and those that the last request found. -/
structure Feed (α : Type) where
  log : List (Row α) := []
  entries : List (AuditEntry α) := []
  fetch : Option (Fetch α) := none
  lastFullRefreshAt : ℤ := 0
  written : List (Row α) := log
  shown : List (Row α) := []
  found : List (Row α) := []
  seen : List (Row α) := []
deriving DecidableEq, Repr

inductive Event (α : Type)
  /-- `appendAudit`; ids are random and never come twice. -/
  | append (row : Row α)
  | delete (deletion : Deletion)
  | fetchData (full : Bool)
  /-- `refreshWhenVisible` while the dashboard is live and visible. -/
  | refreshWhenVisible (now : ℤ)
  /-- The database answers with rows in this order. -/
  | answer (order : List (Row α))
  | receive (now : ℤ)
  | fail
deriving DecidableEq, Repr

/-- `fetchData` up to its `await`; a request that is on the way is the only one. -/
def fetchData (s : Feed α) (full : Bool) : Feed α :=
  if s.fetch.isSome then s
  else { s with fetch := some (.sent full
    (if full then none else s.entries.head?.map AuditEntry.createdAt)) }

/-- What `fetchData` does with an answer. -/
def receive (s : Feed α) (full : Bool) (rows found : List (Row α)) (now : ℤ) : Feed α :=
  if full then
    { s with
      entries := rows.map toEntry, fetch := none, lastFullRefreshAt := now
      found := found, seen := found }
  else
    { s with
      entries := mergeEntries s.entries (rows.map toEntry), fetch := none
      found := found ++ s.found, seen := found }

def step [DecidableEq α] (s : Feed α) : Event α → Option (Feed α)
  | .append row =>
    if row.id ∈ s.written.map Row.id then none
    else some { s with log := row :: s.log, written := row :: s.written }
  | .delete deletion => (deletion.rest s.log).map fun rest => { s with log := rest }
  | .fetchData full => some (fetchData s full)
  | .refreshWhenVisible now => some (fetchData s (60000 ≤ now - s.lastFullRefreshAt))
  | .answer order =>
    match s.fetch with
    | some (.sent full since) =>
      match sinceDate since with
      | .error _ => none
      | .ok date =>
        if Ordered s.log date order then
          some { s with
            fetch := some (.answered full (order.take maxEntries) s.log)
            shown := order.take maxEntries ++ s.shown }
        else none
    | _ => none
  | .receive now =>
    match s.fetch with
    | some (.answered full rows found) => some (receive s full rows found now)
    | _ => none
  | .fail => if s.fetch.isSome then some { s with fetch := none } else none

end Dashboard
end FirecrawlGateway
