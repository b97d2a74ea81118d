import FirecrawlGateway.Lib.IsoText
import FirecrawlGateway.Lib.TopRows

/-!
# The audit log

Model of the reads and deletions of `AuditService` (`apps/api/src/audit/audit.service.ts`), and of
`data` in `apps/api/src/audit/audit.controller.ts`. The columns that none of them looks at are a
type of their own.
-/

namespace FirecrawlGateway
namespace AuditService

open IsoText UtcCalendar

variable {α : Type}

/-! ## Rows and entries -/

/-- A row of `audit_logs`, with its time in milliseconds. -/
structure Row (α : Type) where
  id : String
  createdAt : ℤ
  columns : α
deriving DecidableEq, Repr

/-- `AuditEntry`. -/
structure AuditEntry (α : Type) where
  id : String
  createdAt : List Char
  columns : α
deriving DecidableEq, Repr

def toEntry (row : Row α) : AuditEntry α where
  id := row.id
  createdAt := toISOString row.createdAt
  columns := row.columns

/-! ## Reads -/

/-- The rows from `since` on, the newest first. Rows of one millisecond are in any order. -/
def Ordered (log : List (Row α)) (since : Option ℤ) (order : List (Row α)) : Prop :=
  order.Perm (log.filter fun row => ∀ t ∈ since, t ≤ row.createdAt) ∧
    order.Pairwise fun a b => b.createdAt ≤ a.createdAt

instance [DecidableEq α] (log : List (Row α)) (since : Option ℤ) (order : List (Row α)) :
    Decidable (Ordered log since order) :=
  inferInstanceAs (Decidable (_ ∧ _))

/-- What `data` makes of its parameter; an error is the answer 400. -/
def sinceDate (since : Option (List Char)) : Except String (Option ℤ) :=
  match since.filter (· ≠ []) with
  | none => .ok none
  | some text =>
    match readIso text with
    | some date => .ok (some date)
    | none => .error "since must be a valid ISO timestamp"

/-! ## Deletions -/

def deleteAuditEntry (log : List (Row α)) (id : String) : List (Row α) × Bool :=
  (log.filter (·.id ≠ id), log.any (·.id = id))

def deleteAuditEntriesByIds (log : List (Row α)) (ids : List String) : List (Row α) × ℕ :=
  (log.filter (·.id ∉ ids.filter (· ≠ "")), log.countP (·.id ∈ ids.filter (· ≠ "")))

inductive DeleteFilter
  | today
  | week
  | month
  | all
deriving DecidableEq, Repr

/-- `from` and `to`; an end that is not there is `none`, and an invalid date `some none`. -/
def deletionRange (now : ℤ) : DeleteFilter → Option (Option ℤ) × Option (Option ℤ)
  | .today =>
    let start := utc (utcFullYear now) (utcMonth now) (utcDate now)
    (some start, some (start.bind fun t => timeClip (t + 24 * 60 * 60 * 1000)))
  | .month => (some (utc (utcFullYear now) (utcMonth now) 1),
      some (utc (utcFullYear now) (utcMonth now + 1) 1))
  | .week => (some (timeClip (now - 7 * 24 * 60 * 60 * 1000)), none)
  | .all => (none, none)

/-- The number of deleted rows, and the rows that are left; Prisma refuses an invalid date. -/
def deleteAuditEntries (log : List (Row α)) (filter : DeleteFilter) (now : ℤ) :
    Option (ℕ × List (Row α)) :=
  let (start, stop) := deletionRange now filter
  if start = some none ∨ stop = some none then none
  else
    let inRange := fun row : Row α =>
      (∀ t ∈ start.join, t ≤ row.createdAt) ∧ ∀ t ∈ stop.join, row.createdAt < t
    some (log.countP inRange, log.filter fun row => ¬ inRange row)

end AuditService
end FirecrawlGateway
