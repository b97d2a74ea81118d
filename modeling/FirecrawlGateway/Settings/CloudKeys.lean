import FirecrawlGateway.Proxy.Policy

/-!
# The stored Cloud keys

Model of `parseCloudKeyEntries` (`apps/api/src/settings/cloud-keys.ts`), on the parsed value of the
setting.
-/

namespace FirecrawlGateway
namespace Settings

open Proxy (CloudKeyEntry CloudKeyRole)

/-- The role an object carries. -/
def storedRole (item : JsonValue) : CloudKeyRole :=
  match item.member "role" with
  | some (.string role) => if role = JsString.lit "fallback" then .fallback else .cloud
  | _ => .cloud

/-- An entry for a key that is not empty. -/
def keyEntry (key : JsString) (role : CloudKeyRole) : Option CloudKeyEntry :=
  if key = [] then none else some ⟨JsString.toText key, role⟩

/-- A plain string is a `cloud` key, an object carries its own role, and the rest is dropped. -/
def parseCloudKeyEntry (item : JsonValue) : Option CloudKeyEntry :=
  match item with
  | .string key => keyEntry key .cloud
  | item =>
    match item.member "key" with
    | some (.string key) => keyEntry key (storedRole item)
    | _ => none

def parseCloudKeyEntries : JsonValue → List CloudKeyEntry
  | .array items => items.filterMap parseCloudKeyEntry
  | _ => []

lemma keyEntry_ne {key : JsString} {role : CloudKeyRole} {entry : CloudKeyEntry}
    (h : keyEntry key role = some entry) : entry.key ≠ "" := by
  unfold keyEntry at h
  split_ifs at h with hkey
  cases h
  exact mt JsString.toText_eq_empty.mp hkey

/-- No entry has an empty key. -/
lemma parseCloudKeyEntries_ne {value : JsonValue} {entry : CloudKeyEntry}
    (h : entry ∈ parseCloudKeyEntries value) : entry.key ≠ "" := by
  cases value with
  | array items =>
    obtain ⟨item, -, hitem⟩ := List.mem_filterMap.mp h
    unfold parseCloudKeyEntry at hitem
    split at hitem
    · exact keyEntry_ne hitem
    · split at hitem
      · exact keyEntry_ne hitem
      · cases hitem
  | _ => exact absurd h List.not_mem_nil

end Settings
end FirecrawlGateway
