import FirecrawlGateway.Common.Crypto
import FirecrawlGateway.Lib.NumberRoundTrip
import FirecrawlGateway.Settings.CloudKeys
import FirecrawlGateway.Settings.SettingsService

/-!
# The setting of the Cloud keys

Model of `apps/api/src/settings/cloud-keys.ts`, with the keys as the strings they are.
-/

namespace FirecrawlGateway
namespace CloudKeySetting

open Proxy (CloudKeyRole)
open Settings (storedRole)
open SettingsService (Statement)

/-! ## Entries -/

/-- `CloudKeyEntry`. -/
structure KeyEntry where
  key : JsString
  role : CloudKeyRole
deriving DecidableEq

/-- The entry with the text of its key. -/
def KeyEntry.toText (entry : KeyEntry) : Proxy.CloudKeyEntry := ⟨JsString.toText entry.key, entry.role⟩

def keyEntry (key : JsString) (role : CloudKeyRole) : Option KeyEntry :=
  if key = [] then none else some ⟨key, role⟩

/-- A plain string is a `cloud` key, an object carries its own role, and the rest is dropped. -/
def parseCloudKeyEntry (item : JsonValue) : Option KeyEntry :=
  match item with
  | .string key => keyEntry key .cloud
  | item =>
    match item.member "key" with
    | some (.string key) => keyEntry key (storedRole item)
    | _ => none

/-- The entries of a parsed value. -/
def entriesOf : JsonValue → List KeyEntry
  | .array items => items.filterMap parseCloudKeyEntry
  | _ => []

/-- `JSON.parse`. -/
def jsonParse (text : String) : Option JsonValue :=
  JsonReader.parse NumberText.tokenNumber text.toList

/-- `JSON.stringify`. -/
def jsonStringify (value : JsonValue) : String :=
  String.ofList (JsonReader.stringify (fun q => (NumberText.numberToString q).toList) value)

/-- Why the keys cannot be loaded. -/
inductive LoadError
  | crypto (message : String)
  | syntaxError
deriving DecidableEq, Repr

def parseCloudKeyEntries (plaintext : String) : Except LoadError (List KeyEntry) :=
  match jsonParse plaintext with
  | none => .error .syntaxError
  | some parsed => .ok (entriesOf parsed)

def roleName : CloudKeyRole → String
  | .cloud => "cloud"
  | .fallback => "fallback"

/-- An entry as an object. -/
def entryObject (entry : KeyEntry) : JsonValue :=
  .object [(JsString.lit "key", .string entry.key),
    (JsString.lit "role", .string (JsString.lit (roleName entry.role)))]

/-- A `cloud` key stays a plain string. -/
def entryValue (entry : KeyEntry) : JsonValue :=
  if entry.role = .cloud then .string entry.key else entryObject entry

def serializeCloudKeyEntries (entries : List KeyEntry) : String :=
  jsonStringify (.array (entries.map entryValue))

/-! ## The stored value -/

/-- `loadCloudKeyEntries` of a stored value: the statement of `replaceSettingIfUnchanged`, if there
is one, and the entries. `iv` is what `randomBytes(12)` gave. -/
def loadCloudKeyEntries (aes : Aes256Gcm) (value encryptionKey : String) (iv : List UInt8) :
    Option Statement × Except LoadError (List KeyEntry) :=
  match decryptSettingValue aes value encryptionKey with
  | .error message => (none, .error (.crypto message))
  | .ok decrypted =>
    if decrypted.encrypted then (none, parseCloudKeyEntries decrypted.value)
    else match encryptSettingValue aes value encryptionKey iv with
      | .error message => (none, .error (.crypto message))
      | .ok replacement =>
        (some (.updateMany value replacement), parseCloudKeyEntries decrypted.value)

/-! ## Round trip -/

lemma keyEntry_toText (key : JsString) (role : CloudKeyRole) :
    (keyEntry key role).map KeyEntry.toText = Settings.keyEntry key role := by
  unfold keyEntry Settings.keyEntry
  split_ifs <;> rfl

/-- The proxy works with the texts of the keys. -/
theorem entriesOf_toText (value : JsonValue) :
    (entriesOf value).map KeyEntry.toText = Settings.parseCloudKeyEntries value := by
  have hitem : ∀ item : JsonValue,
      (parseCloudKeyEntry item).map KeyEntry.toText = Settings.parseCloudKeyEntry item := by
    intro item
    cases item with
    | string key => exact keyEntry_toText key .cloud
    | object members =>
      unfold parseCloudKeyEntry Settings.parseCloudKeyEntry
      simp only
      generalize (JsonValue.object members).member "key" = key
      cases key with
      | none => rfl
      | some key =>
        cases key with
        | string key => exact keyEntry_toText _ _
        | _ => rfl
    | _ => rfl
  cases value with
  | array items =>
    show (items.filterMap parseCloudKeyEntry).map KeyEntry.toText = _
    rw [List.map_filterMap]
    exact List.filterMap_congr fun item _ => hitem item
  | _ => rfl

/-- An entry that can be stored. -/
def KeyEntry.Valid (entry : KeyEntry) : Prop := entry.key ≠ []

lemma withProperties_entryValue (entry : KeyEntry) :
    JsonReader.withProperties (entryValue entry) = entryValue entry := by
  unfold entryValue
  split_ifs
  · rfl
  · rfl

lemma parseCloudKeyEntry_object {members : List (JsString × JsonValue)} {key : JsString}
    (h : (JsonValue.object members).member "key" = some (.string key)) :
    parseCloudKeyEntry (.object members) = keyEntry key (storedRole (.object members)) := by
  unfold parseCloudKeyEntry
  simp only [h]

lemma parseCloudKeyEntry_entryValue {entry : KeyEntry} (h : entry.Valid) :
    parseCloudKeyEntry (entryValue entry) = some entry := by
  obtain ⟨key, role⟩ := entry
  have hkey : ∀ role, keyEntry key role = some ⟨key, role⟩ := fun _ => if_neg h
  cases role with
  | cloud => exact hkey .cloud
  | fallback =>
    have hmember : (entryObject ⟨key, .fallback⟩).member "role" =
        some (.string (JsString.lit "fallback")) := rfl
    have hrole : storedRole (entryObject ⟨key, .fallback⟩) = .fallback := by
      unfold storedRole
      rw [hmember]
      exact if_pos rfl
    refine (@parseCloudKeyEntry_object _ key rfl).trans ?_
    exact (congrArg (keyEntry key) hrole).trans (hkey .fallback)

lemma withPropertiesItems_entryValues (entries : List KeyEntry) :
    JsonReader.withPropertiesItems (entries.map entryValue) = entries.map entryValue := by
  induction entries with
  | nil => rfl
  | cons entry entries ih =>
    rw [List.map_cons, JsonReader.withPropertiesItems, withProperties_entryValue, ih]

/-- There are no numbers among the entries. -/
lemma number_not_mem_entryValues (entries : List KeyEntry) (n : JsNumber) :
    .number n ∉ (JsonValue.array (entries.map entryValue)).walk := by
  intro h
  rcases List.mem_cons.mp h with h | h
  · cases h
  obtain ⟨item, hitem, h⟩ := JsonReader.mem_walkItems.mp h
  obtain ⟨entry, -, rfl⟩ := List.mem_map.mp hitem
  unfold entryValue at h
  split_ifs at h
  · cases List.mem_singleton.mp h
  · simp [entryObject, JsonValue.walk, JsonValue.walkMembers] at h

/-- What is stringified is parsed again, when its numbers are. -/
lemma jsonParse_jsonStringify {value : JsonValue}
    (hnumbers : JsonReader.AllNumbers (JsonReader.WrittenBack
      (fun q => (NumberText.numberToString q).toList) NumberText.tokenNumber) value) :
    jsonParse (jsonStringify value) = some (JsonReader.withProperties value) := by
  unfold jsonParse jsonStringify JsonReader.parse
  rw [String.toList_ofList, JsonReader.read_stringify hnumbers, Option.map_some]

/-- **Round trip**: what was serialized is parsed again. -/
theorem parse_serialize {entries : List KeyEntry} (h : ∀ entry ∈ entries, entry.Valid) :
    parseCloudKeyEntries (serializeCloudKeyEntries entries) = .ok entries := by
  have hparse : jsonParse (serializeCloudKeyEntries entries) =
      some (.array (entries.map entryValue)) := by
    rw [serializeCloudKeyEntries, jsonParse_jsonStringify fun n hn =>
      absurd hn (number_not_mem_entryValues entries n), JsonReader.withProperties,
      withPropertiesItems_entryValues]
  unfold parseCloudKeyEntries
  rw [hparse]
  show Except.ok ((entries.map entryValue).filterMap parseCloudKeyEntry) = _
  rw [List.filterMap_map]
  congr 1
  calc entries.filterMap (parseCloudKeyEntry ∘ entryValue)
      = entries.filterMap some :=
        List.filterMap_congr fun entry hentry => parseCloudKeyEntry_entryValue (h entry hentry)
    _ = entries := List.filterMap_some

end CloudKeySetting
end FirecrawlGateway
