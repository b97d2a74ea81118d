import FirecrawlGateway.Lib.SealedCell
import FirecrawlGateway.Settings.SettingsController

/-!
# The setting of the Cloud keys, while it is used

Calls of `loadCloudKeyEntries` and `SettingsController.list`, which may migrate a legacy value, and
of `SettingsController.update`, over one settings service. A call first makes what it has to write,
and then writes it, one after the other, at any time; it may have read its record at any time.
-/

namespace FirecrawlGateway
namespace KeyMigrations

open CloudKeySetting (KeyEntry LoadError loadCloudKeyEntries parseCloudKeyEntries)
open SettingsController (SettingKey Staged)
open SettingsService (SettingRecord Statement)

/-! ## State -/

/-- `"firecrawl_api_keys"`. -/
def keysName : String := SettingKey.firecrawlApiKeys.name

/-- Something that a call has to write: `replaceSettingIfUnchanged` of the keys, or `setSetting` of
a staged field. -/
inductive Task
  | migrate (statement : Statement)
  | save (staged : Staged)

def Task.key : Task → String
  | .migrate _ => keysName
  | .save staged => staged.key.name

def Task.statement : Task → Statement
  | .migrate statement => statement
  | .save staged => .upsert staged.value

/-- The keys that the administrator saves. -/
def Task.entries : Task → Option (List KeyEntry)
  | .migrate _ => none
  | .save staged =>
    match staged.accepted with
    | .keys entries => some entries
    | _ => none

/-- The call of the service, as its writer of a number. -/
def startWrite (writer : ℕ) (key : String) : Statement → SettingsService.Event
  | .upsert value => .setSetting writer key value
  | .updateMany expected value => .replaceSettingIfUnchanged writer key expected value

/-- The service with its table, and what every call has still to write. -/
structure System where
  service : SettingsService.System
  calls : ℕ → List Task := fun _ => []

/-- A service that has just started. -/
def start (table : String → Option SettingsService.Row) : System where
  service := SettingsService.start table

/-! ## Interleavings -/

inductive Event
  /-- Anything else that the service does. -/
  | service (e : SettingsService.Event)
  /-- `loadCloudKeyEntries` of a record, wherever it is called. -/
  | load (call : ℕ) (value : String) (iv : List UInt8)
  /-- `SettingsController.list`, after its `await this.settings.listSettings()`. -/
  | list (call : ℕ) (rows : List SettingRecord) (iv : List UInt8)
  | update (call : ℕ) (updates : JsonValue) (ivs : SettingKey → List UInt8)
  /-- A call goes on to its next write. -/
  | write (call writer : ℕ)

/-- The keys are written by the calls only. -/
def writesKeys : SettingsService.Event → Bool
  | .setSetting _ key _ => key = keysName
  | .replaceSettingIfUnchanged _ key _ _ => key = keysName
  | _ => false

/-- A call of a new number. -/
def begin (s : System) (call : ℕ) (tasks : List Task) : Option System :=
  if s.calls call ≠ [] then none
  else some { s with calls := Function.update s.calls call tasks }

variable (aes : Aes256Gcm) (encryptionKey : String)

def step (s : System) : Event → Option System
  | .service e =>
    if writesKeys e then none
    else (SettingsService.step s.service e).map fun service => { s with service := service }
  | .load call value iv =>
    begin s call ((loadCloudKeyEntries aes value encryptionKey iv).1.toList.map .migrate)
  | .list call rows iv =>
    begin s call ((SettingsController.list aes encryptionKey iv rows).1.map .migrate)
  | .update call updates ivs =>
    match SettingsController.stage aes encryptionKey ivs updates with
    | .error _ => some s
    | .ok staged => begin s call (staged.map .save)
  | .write call writer =>
    match s.calls call with
    | [] => none
    | task :: tasks =>
      (SettingsService.step s.service (startWrite writer task.key task.statement)).map
        fun service => { service := service, calls := Function.update s.calls call tasks }

/-! ## What is stored -/

/-- The keys of a stored value: it is decrypted and parsed. -/
def storedKeys (value : String) : Except LoadError (List KeyEntry) :=
  match decryptSettingValue aes value encryptionKey with
  | .error message => .error (.crypto message)
  | .ok decrypted => parseCloudKeyEntries decrypted.value

/-- What an onlooker knows: the keys that a writer saves for `update`, and the keys of the last
such write that the database took. -/
structure Notes where
  saves : ℕ → Option (List KeyEntry) := fun _ => none
  last : Option (List KeyEntry) := none

def note (notes : Notes) (s : System) (e : Event) (_ : System) : Notes :=
  match e with
  | .write call writer =>
    { notes with saves := Function.update notes.saves writer ((s.calls call).head?.bind Task.entries) }
  | .service (.execute writer _) =>
    match s.service.writers writer with
    | some { key, statement := .upsert _, index := none } =>
      if key = keysName then { notes with last := notes.saves writer } else notes
    | _ => notes
  | _ => notes

/-- The machine with its onlooker. -/
def watch : System × Notes → Event → Option (System × Notes) :=
  EventMachine.watched (step aes encryptionKey) note

end KeyMigrations
end FirecrawlGateway
