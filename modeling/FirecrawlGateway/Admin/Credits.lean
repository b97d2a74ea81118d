import FirecrawlGateway.Credits.CreditRoutingService
import FirecrawlGateway.Lib.JsonReader

/-!
# The keys that are first in line

Model of `apps/admin/src/lib/credits.ts`, and of the credit usage items it is given
(`fetchCreditUsage` of the API). What `Date.parse` makes of a text is a parameter.
-/

namespace FirecrawlGateway
namespace Admin

open CreditRouting (CreditUsageDetails earlier)

/-- `MS_PER_DAY`. -/
def msPerDay : ℤ := 86400000

/-- `CreditUsageItem`. -/
structure CreditUsageItem extends CreditUsageDetails where
  keyIndex : ℕ
  keyPrefix : JsString
deriving DecidableEq

/-- `creditKeyPrefix`, which cuts between code units. -/
def creditKeyPrefix (apiKey : String) : JsString :=
  let units := apiKey.toList.flatMap JsonReader.utf16
  units.take 8 ++ JsString.lit "..." ++ units.drop (units.length - 4)

/-- The end of the billing period in milliseconds; `none` is `NaN`. -/
def renewsAt (parseDate : String → Option ℤ) (item : CreditUsageItem) : Option ℤ :=
  (item.billingPeriodEnd.filter (· ≠ "")).bind parseDate

/-- What makes an item `usable`. -/
def usable (item : CreditUsageItem) : Bool :=
  item.error.getD "" = "" && item.remainingCredits.any (· > 0)

/-- The day and the credits; the day `none` is `Infinity`. -/
def rank (parseDate : String → Option ℤ) (item : CreditUsageItem) : Option ℤ × ℚ :=
  ((renewsAt parseDate item).map (· / msPerDay), item.remainingCredits.getD 0)

def better (a b : Option ℤ × ℚ) : Bool := earlier a.1 b.1 || (a.1 = b.1 && a.2 > b.2)

/-- The best rank: that of the first item, until there is a better one. -/
def bestRank (parseDate : String → Option ℤ) (first : CreditUsageItem)
    (items : List CreditUsageItem) : Option ℤ × ℚ :=
  items.foldl (fun best item => if better (rank parseDate item) best then rank parseDate item
    else best) (rank parseDate first)

def nextUpPrefixes (parseDate : String → Option ℤ) (items : List CreditUsageItem) :
    Finset JsString :=
  match items.filter usable with
  | [] => ∅
  | [_] => ∅
  | first :: second :: rest =>
    let best := bestRank parseDate first (first :: second :: rest)
    (((first :: second :: rest).filter fun item => rank parseDate item = best).map
      CreditUsageItem.keyPrefix).toFinset

end Admin
end FirecrawlGateway
