import FirecrawlGateway.Settings.KeyMigrations
import FirecrawlGateway.Settings.SettingsControllerTheorems
import FirecrawlGateway.Settings.SettingsServiceTheorems

/-!
# Migrations of the Cloud keys are invisible

What is stored under `firecrawl_api_keys` is a cell whose plain values are sealed in place: every
write that is waiting for the database either saves keys in encrypted form, or replaces a plain
value by its encryption.
-/

namespace FirecrawlGateway

namespace SettingsService

/-! ## The row of a key -/

/-- A statement as a write to the cell of its key. -/
def Statement.toWrite : Statement → SealedCell.Write String
  | .upsert value => .put value
  | .updateMany expected value => .replace expected value

lemma row_of_history {s : System} {key : String} {rows : List (Option Row)} {row : Option Row}
    (h : s.history key = rows ++ [row]) : s.row key = row := by
  unfold System.row
  rw [h, List.getLast?_concat, Option.join_some]

/-- The database takes a statement: the row is as the statement leaves it, and another state of it
is noted where it has changed. -/
lemma execute_row (s : System) (key : String) (updatedAt : ℤ) (statement : Statement) :
    ((execute s key updatedAt statement).row key).map Row.value =
        statement.toWrite.run ((s.row key).map Row.value) ∧
      ((execute s key updatedAt statement).history key = s.history key ∨
        ∃ row, (execute s key updatedAt statement).history key = s.history key ++ [row]) := by
  cases statement with
  | upsert value =>
    have hhistory : (execute s key updatedAt (.upsert value)).history key =
        s.history key ++ [some ⟨value, updatedAt⟩] := Function.update_self ..
    rw [row_of_history hhistory]
    exact ⟨rfl, Or.inr ⟨_, hhistory⟩⟩
  | updateMany expected value =>
    simp only [execute, Statement.toWrite, SealedCell.Write.run]
    by_cases hexpected : (s.row key).map Row.value = some expected
    · rw [if_neg (not_not.mpr hexpected), if_pos hexpected]
      have hhistory : Function.update s.history key
          (s.history key ++ [some ⟨value, updatedAt⟩]) key =
            s.history key ++ [some ⟨value, updatedAt⟩] := Function.update_self ..
      rw [row_of_history (s := { s with history := _ }) hhistory]
      exact ⟨rfl, Or.inr ⟨_, hhistory⟩⟩
    · rw [if_pos hexpected, if_neg hexpected]
      exact ⟨rfl, Or.inl rfl⟩

/-- The other rows stay as they are. -/
lemma execute_history_of_ne (s : System) {key key' : String} (h : key' ≠ key) (updatedAt : ℤ)
    (statement : Statement) :
    (execute s key updatedAt statement).history key' = s.history key' := by
  unfold execute
  split
  · exact Function.update_of_ne h ..
  · split_ifs
    · rfl
    · exact Function.update_of_ne h ..

end SettingsService

namespace KeyMigrations

open CloudKeySetting (KeyEntry LoadError loadCloudKeyEntries parseCloudKeyEntries parse_serialize
  serializeCloudKeyEntries)
open SettingsController (SettingKey Staged acceptField settingKey stageField storedValue)
open SettingsService (Row SettingRecord Statement Writer execute execute_frame)

/-! ## What the service does to the table and to its writes -/

/-- The writes that wait for the database are among those from before, but for one that may start
now. -/
def WaitingFrom (e : SettingsService.Event) (s s' : SettingsService.System) : Prop :=
  ∀ c w, s'.writers c = some w → w.index = none →
    s.writers c = some w ∨ e = startWrite c w.key w.statement

lemma waitingFrom_of_writers {e : SettingsService.Event} {s s' : SettingsService.System}
    (h : s'.writers = s.writers) : WaitingFrom e s s' :=
  fun _ _ hw _ => Or.inl (h ▸ hw)

lemma waitingFrom_of_update {e : SettingsService.Event} {s s' : SettingsService.System} {call : ℕ}
    {o : Option Writer} (h : s'.writers = Function.update s.writers call o)
    (ho : ∀ w, o = some w → w.index = none → e = startWrite call w.key w.statement) :
    WaitingFrom e s s' := by
  intro c w hw hindex
  rw [h] at hw
  by_cases hc : c = call
  · rw [hc, Function.update_self] at hw
    exact Or.inr (hc ▸ ho w hw hindex)
  · rw [Function.update_of_ne hc] at hw
    exact Or.inl hw

/-- A section of the service leaves the table as it is, unless the database takes a statement. -/
lemma service_step {s s' : SettingsService.System} {e : SettingsService.Event}
    (h : SettingsService.step s e = some s') :
    (s'.history = s.history ∧ (∀ c updatedAt, e ≠ .execute c updatedAt) ∧ WaitingFrom e s s') ∨
    ∃ c updatedAt key statement, e = .execute c updatedAt ∧
      s.writers c = some ⟨key, statement, none⟩ ∧
      s'.history = (execute s key updatedAt statement).history ∧ WaitingFrom e s s' := by
  cases e with
  | execute call updatedAt =>
    simp only [SettingsService.step] at h
    split at h
    · rename_i key statement hcall
      cases h
      refine Or.inr ⟨call, updatedAt, key, statement, rfl, hcall, rfl, ?_⟩
      rw [execute_frame]
      exact waitingFrom_of_update rfl fun w hw hindex => by cases hw; cases hindex
    · cases h
  | getSetting call key now =>
    simp only [SettingsService.step] at h
    split_ifs at h
    cases h
    have hbegins := SettingsService.getSetting_begins s key now
    exact Or.inl ⟨hbegins.history, by simp, waitingFrom_of_writers hbegins.writers⟩
  | getSettings call keys now =>
    simp only [SettingsService.step] at h
    split_ifs at h
    cases h
    have hbegins := SettingsService.getSettings_begins s keys now
    exact Or.inl ⟨hbegins.history, by simp, waitingFrom_of_writers hbegins.writers⟩
  | setSetting call key value =>
    simp only [SettingsService.step] at h
    split_ifs at h
    cases h
    refine Or.inl ⟨rfl, by simp, waitingFrom_of_update rfl fun w hw _ => ?_⟩
    cases hw
    rfl
  | replaceSettingIfUnchanged call key expected value =>
    simp only [SettingsService.step] at h
    split_ifs at h
    cases h
    refine Or.inl ⟨rfl, by simp, waitingFrom_of_update rfl fun w hw _ => ?_⟩
    cases hw
    rfl
  | resolves call | rejects call =>
    simp only [SettingsService.step] at h
    split at h
    · cases h
      exact Or.inl ⟨rfl, by simp, waitingFrom_of_update rfl fun w hw => by cases hw⟩
    · cases h
  | track n now =>
    simp only [SettingsService.step] at h
    split at h
    · cases h
      simp only [SettingsService.stopTracking, SettingsService.trackFulfilled]
      split_ifs <;> exact Or.inl ⟨rfl, by simp, waitingFrom_of_writers rfl⟩
    · cases h
      simp only [SettingsService.stopTracking, SettingsService.trackRejected]
      split_ifs <;> exact Or.inl ⟨rfl, by simp, waitingFrom_of_writers rfl⟩
    · cases h
  | returns call =>
    simp only [SettingsService.step] at h
    split at h
    · obtain ⟨values, -, rfl⟩ := Option.map_eq_some_iff.mp h
      exact Or.inl ⟨rfl, by simp, waitingFrom_of_writers rfl⟩
    · cases h
  | query n | clearCache =>
    cases h
    exact Or.inl ⟨rfl, by simp, waitingFrom_of_writers rfl⟩
  | fulfil n | reject n =>
    simp only [SettingsService.step] at h
    split at h <;> cases h <;> exact Or.inl ⟨rfl, by simp, waitingFrom_of_writers rfl⟩

/-! ## What the calls write -/

variable {aes : Aes256Gcm} {encryptionKey : String}

/-- A statement for the keys seals them; `entries` are those that are saved. -/
def SoundFor (aes : Aes256Gcm) (encryptionKey : String) (entries : Option (List KeyEntry))
    (statement : Statement) : Prop :=
  statement.toWrite.Sound IsEncrypted (storedKeys aes encryptionKey) (entries.map .ok)

/-- What is encrypted is stored with the same keys. -/
lemma storedKeys_encrypt (haes : aes.Inverts) {value stored : String} {iv : List UInt8}
    (h : encryptSettingValue aes value encryptionKey iv = .ok stored) :
    IsEncrypted stored ∧ storedKeys aes encryptionKey stored = parseCloudKeyEntries value := by
  obtain ⟨hencrypted, hdecrypt⟩ := decrypt_of_encrypt haes h
  refine ⟨hencrypted, ?_⟩
  unfold storedKeys
  rw [hdecrypt]

/-- A plain value that is replaced by its encryption. -/
lemma sound_migration (haes : aes.Inverts) {value replacement : String} {iv : List UInt8}
    {decrypted : Decrypted} (h : decryptSettingValue aes value encryptionKey = .ok decrypted)
    (hplain : decrypted.encrypted = false)
    (hreplacement : encryptSettingValue aes value encryptionKey iv = .ok replacement) :
    SoundFor aes encryptionKey none (.updateMany value replacement) := by
  obtain ⟨hnot, hvalue⟩ := plain_of_decrypt h hplain
  obtain ⟨hencrypted, hstored⟩ := storedKeys_encrypt haes hreplacement
  refine ⟨hnot, hencrypted, hstored.trans ?_⟩
  unfold storedKeys
  rw [h]
  dsimp only
  rw [hvalue]

lemma sound_load (haes : aes.Inverts) {value : String} {iv : List UInt8} {statement : Statement}
    (h : statement ∈ (loadCloudKeyEntries aes value encryptionKey iv).1) :
    SoundFor aes encryptionKey none statement := by
  unfold loadCloudKeyEntries at h
  split at h
  · cases h
  · rename_i hdecrypt
    split_ifs at h with hencrypted
    · cases h
    · split at h
      · cases h
      · rename_i hreplacement
        cases h
        exact sound_migration haes hdecrypt (by simpa using hencrypted) hreplacement

lemma sound_listRow (haes : aes.Inverts) {iv : List UInt8} {row : SettingRecord}
    {statement : Statement}
    (h : statement ∈ (SettingsController.listRow aes encryptionKey iv row).1) :
    SoundFor aes encryptionKey none statement := by
  unfold SettingsController.listRow at h
  split_ifs at h
  · cases h
  · split at h
    · cases h
    · rename_i hdecrypt
      dsimp only at h
      split_ifs at h with hencrypted
      · cases h
      · split at h
        · cases h
        · rename_i hreplacement
          cases h
          exact sound_migration haes hdecrypt (by simpa using hencrypted) hreplacement
  · cases h

lemma sound_list (haes : aes.Inverts) {iv : List UInt8} {rows : List SettingRecord}
    {statement : Statement}
    (h : statement ∈ (SettingsController.list aes encryptionKey iv rows).1) :
    SoundFor aes encryptionKey none statement := by
  induction rows with
  | nil => cases h
  | cons row rows ih =>
    have hrow : statement ∈ (SettingsController.listRow aes encryptionKey iv row).1 →
        SoundFor aes encryptionKey none statement := sound_listRow haes
    unfold SettingsController.list at h
    split at h
    · rename_i hlist
      rw [hlist] at hrow
      exact hrow (Option.mem_toList.mp h)
    · rename_i hlist
      rw [hlist] at hrow
      rcases List.mem_append.mp h with hhead | hrest
      · exact hrow (Option.mem_toList.mp hhead)
      · exact ih hrest

lemma name_eq_keysName {key : SettingKey} (h : key.name = keysName) : key = .firecrawlApiKeys := by
  cases key with
  | firecrawlApiKeys => rfl
  | _ => exact absurd h (by decide)

/-- The keys are staged as what they are, in encrypted form. -/
lemma stageField_keys {ivs : SettingKey → List UInt8} {field : JsString × JsonValue}
    {staged : Staged} (h : stageField aes encryptionKey ivs field = .ok staged)
    (hkey : staged.key = .firecrawlApiKeys) :
    ∃ entries iv, staged.accepted = .keys entries ∧ (∀ entry ∈ entries, entry.Valid) ∧
      encryptSettingValue aes (serializeCloudKeyEntries entries) encryptionKey iv =
        .ok staged.value := by
  unfold stageField at h
  split at h
  · cases h
  · split at h
    · cases h
    · rename_i haccepted
      split at h
      · cases h
      · rename_i hstored
        cases h
        dsimp only at hkey
        rw [hkey] at haccepted hstored
        obtain ⟨entries, rfl, hvalid⟩ := SettingsController.acceptKeys_valid haccepted
        exact ⟨entries, _, rfl, hvalid, hstored⟩

/-- What a call writes to the keys seals them. -/
def Task.Sound (aes : Aes256Gcm) (encryptionKey : String) (task : Task) : Prop :=
  task.key = keysName → SoundFor aes encryptionKey task.entries task.statement

lemma sound_stage (haes : aes.Inverts) {ivs : SettingKey → List UInt8} {updates : JsonValue}
    {staged : List Staged}
    (h : SettingsController.stage aes encryptionKey ivs updates = .ok staged) :
    ∀ task ∈ staged.map Task.save, task.Sound aes encryptionKey := by
  intro task htask hname
  obtain ⟨field, hfield, rfl⟩ := List.mem_map.mp htask
  unfold SettingsController.stage at h
  split at h
  · obtain ⟨raw, -, hraw⟩ :=
      SettingsController.exists_of_forall₂ (SettingsController.mapM_ok h) hfield
    obtain ⟨entries, iv, haccepted, hvalid, hencrypt⟩ := stageField_keys hraw (name_eq_keysName hname)
    obtain ⟨hencrypted, hstored⟩ := storedKeys_encrypt haes hencrypt
    have hentries : (Task.save field).entries = some entries := by
      unfold Task.entries
      dsimp only
      rw [haccepted]
    rw [hentries]
    refine ⟨hencrypted, congrArg some ?_⟩
    rw [hstored, parse_serialize hvalid]
  · cases h

/-! ## Every moment -/

/-- The row is there, in encrypted form. -/
def SealedRow (row : Option Row) : Prop := ∃ value ∈ row.map Row.value, IsEncrypted value

/-- What is stored is what was saved last, or what was there at first, and a row that is encrypted
stays so. -/
structure Invisible (aes : Aes256Gcm) (encryptionKey : String) (first : Option Row)
    (w : System × Notes) : Prop where
  keys : ((w.1.service.row keysName).map fun row => storedKeys aes encryptionKey row.value) =
    (w.2.last.map .ok).or (first.map fun row => storedKeys aes encryptionKey row.value)
  encrypted : (w.1.service.history keysName).Pairwise fun before after =>
    SealedRow before → SealedRow after

structure Inv (aes : Aes256Gcm) (encryptionKey : String) (first : Option Row)
    (w : System × Notes) : Prop where
  reads : SealedCell.Reads IsEncrypted (storedKeys aes encryptionKey) (first.map Row.value)
    ((w.1.service.row keysName).map Row.value) (w.2.last.map .ok)
  nonempty : w.1.service.history keysName ≠ []
  encrypted : (w.1.service.history keysName).Pairwise fun before after =>
    SealedRow before → SealedRow after
  calls : ∀ call, ∀ task ∈ w.1.calls call, task.Sound aes encryptionKey
  waiting : ∀ c writer, w.1.service.writers c = some writer → writer.index = none →
    writer.key = keysName → SoundFor aes encryptionKey (w.2.saves c) writer.statement

lemma Inv.start (table : String → Option Row) :
    Inv aes encryptionKey (table keysName) (start table, {}) where
  reads := SealedCell.Reads.first _
  nonempty := List.cons_ne_nil _ _
  encrypted := List.pairwise_singleton ..
  calls _ _ h := by cases h
  waiting _ _ h := by cases h

variable {first : Option Row} {w w' : System × Notes}

lemma Inv.invisible (h : Inv aes encryptionKey first w) : Invisible aes encryptionKey first w where
  keys := by
    have hmeaning := h.reads.meaning
    rw [Option.map_map, Option.map_map] at hmeaning
    exact hmeaning
  encrypted := h.encrypted

/-- A call begins, with what it has to write. -/
lemma Inv.begin (h : Inv aes encryptionKey first w) {call : ℕ} {tasks : List Task} {s' : System}
    (hbegin : KeyMigrations.begin w.1 call tasks = some s')
    (htasks : ∀ task ∈ tasks, task.Sound aes encryptionKey) :
    Inv aes encryptionKey first (s', w.2) := by
  unfold KeyMigrations.begin at hbegin
  split_ifs at hbegin
  cases hbegin
  refine ⟨h.reads, h.nonempty, h.encrypted, fun c task htask => ?_, h.waiting⟩
  by_cases hc : c = call
  · rw [hc] at htask
    exact htasks task (by simpa using htask)
  · exact h.calls c task (by simpa [hc] using htask)

lemma row_of_history_eq {s s' : SettingsService.System} {key : String}
    (h : s'.history key = s.history key) : s'.row key = s.row key := by
  unfold SettingsService.System.row
  rw [h]

/-- The last row is encrypted if any row before was. -/
lemma sealed_row {s : SettingsService.System} {key : String}
    (h : (s.history key).Pairwise fun before after => SealedRow before → SealedRow after)
    {before : Option Row} (hbefore : before ∈ s.history key) (hsealed : SealedRow before) :
    SealedRow (s.row key) := by
  obtain ⟨rows, last, hrows⟩ : ∃ rows last, s.history key = rows ++ [last] :=
    ⟨_, _, (List.dropLast_append_getLast (List.ne_nil_of_mem hbefore)).symm⟩
  rw [SettingsService.row_of_history hrows]
  rw [hrows] at h hbefore
  rcases List.mem_append.mp hbefore with hold | hlast
  · exact (List.pairwise_append.mp h).2.2 before hold last (List.mem_singleton_self last) hsealed
  · exact List.mem_singleton.mp hlast ▸ hsealed

/-- The database takes a statement for the keys. -/
lemma Inv.execute (h : Inv aes encryptionKey first w) {statement : Statement}
    {entries : Option (List KeyEntry)} (hsound : SoundFor aes encryptionKey entries statement)
    {service : SettingsService.System} {updatedAt : ℤ}
    (hhistory : service.history =
      (execute w.1.service keysName updatedAt statement).history) :
    SealedCell.Reads IsEncrypted (storedKeys aes encryptionKey) (first.map Row.value)
        ((service.row keysName).map Row.value)
        (statement.toWrite.lastPut (w.2.last.map .ok) (entries.map .ok)) ∧
      service.history keysName ≠ [] ∧
      (service.history keysName).Pairwise fun before after => SealedRow before → SealedRow after := by
  obtain ⟨hrow, hhistories⟩ :=
    SettingsService.execute_row w.1.service keysName updatedAt statement
  have hservice := row_of_history_eq (congrFun hhistory keysName)
  rw [← hservice] at hrow
  refine ⟨hrow ▸ h.reads.run hsound, ?_⟩
  rw [hhistory]
  rcases hhistories with hsame | ⟨row, happend⟩
  · rw [hsame]
    exact ⟨h.nonempty, h.encrypted⟩
  · rw [happend]
    refine ⟨by simp, List.pairwise_append.mpr ⟨h.encrypted, List.pairwise_singleton .., ?_⟩⟩
    intro before hbefore after hafter hsealed
    -- a row that was encrypted at some time is still encrypted when the statement comes
    have hlast := sealed_row h.encrypted hbefore hsealed
    obtain ⟨value, hvalue, hencrypted⟩ := hsound.isSealed_run hlast
    rw [← hrow, hservice, SettingsService.row_of_history happend] at hvalue
    rw [List.mem_singleton.mp hafter]
    exact ⟨value, hvalue, hencrypted⟩

/-- The writes that wait for the database are sound after a section of the service, if the one that
starts is. -/
lemma Inv.waiting_step (h : Inv aes encryptionKey first w) {e : SettingsService.Event}
    {service : SettingsService.System} (hwaiting : WaitingFrom e w.1.service service)
    {saves : ℕ → Option (List KeyEntry)}
    (hstart : ∀ c statement, e = startWrite c keysName statement →
      SoundFor aes encryptionKey (saves c) statement)
    (hsaves : ∀ c writer, w.1.service.writers c = some writer → saves c = w.2.saves c) :
    ∀ c writer, service.writers c = some writer → writer.index = none →
      writer.key = keysName → SoundFor aes encryptionKey (saves c) writer.statement := by
  intro c writer hwriter hindex hkey
  rcases hwaiting c writer hwriter hindex with hold | hnew
  · rw [hsaves c writer hold]
    exact h.waiting c writer hold hindex hkey
  · rw [hkey] at hnew
    exact hstart c writer.statement hnew

lemma startWrite_inj {c c' : ℕ} {key key' : String} {statement statement' : Statement}
    (h : startWrite c key statement = startWrite c' key' statement') :
    c = c' ∧ key = key' ∧ statement = statement' := by
  cases statement <;> cases statement' <;> cases h <;> exact ⟨rfl, rfl, rfl⟩

/-- A write starts with a writer that is free. -/
lemma writers_of_startWrite {s s' : SettingsService.System} {writer : ℕ} {key : String}
    {statement : Statement}
    (h : SettingsService.step s (startWrite writer key statement) = some s') :
    s.writers writer = none := by
  cases statement <;>
  · simp only [startWrite, SettingsService.step] at h
    split_ifs at h with hbusy
    exact not_not.mp hbusy

lemma startWrite_ne_execute (writer : ℕ) (key : String) (statement : Statement) (c : ℕ)
    (updatedAt : ℤ) : startWrite writer key statement ≠ .execute c updatedAt := by
  cases statement <;> exact fun h => by cases h

/-- A call goes on to its next write. -/
lemma Inv.write (h : Inv aes encryptionKey first w) {call writer : ℕ} {task : Task}
    {tasks : List Task} (htasks : w.1.calls call = task :: tasks)
    {service : SettingsService.System}
    (hservice : SettingsService.step w.1.service (startWrite writer task.key task.statement) =
      some service) :
    Inv aes encryptionKey first ({ service := service, calls := Function.update w.1.calls call tasks },
      { w.2 with saves := Function.update w.2.saves writer task.entries }) := by
  have hfree := writers_of_startWrite hservice
  rcases service_step hservice with ⟨hhistory, -, hwaiting⟩ | ⟨c, updatedAt, key, statement, heq, -⟩
  · have hrow := row_of_history_eq (congrFun hhistory keysName)
    refine ⟨?_, ?_, ?_, fun c other hother => ?_, ?_⟩
    · rw [hrow]
      exact h.reads
    · rw [hhistory]
      exact h.nonempty
    · rw [hhistory]
      exact h.encrypted
    · dsimp only at hother
      by_cases hc : c = call
      · rw [hc, Function.update_self] at hother
        exact h.calls call other (htasks ▸ List.mem_cons_of_mem task hother)
      · rw [Function.update_of_ne hc] at hother
        exact h.calls c other hother
    · apply h.waiting_step hwaiting
      · intro c statement hstart
        obtain ⟨hc, hkey, hstatement⟩ := startWrite_inj hstart
        show SoundFor aes encryptionKey (Function.update w.2.saves writer task.entries c) statement
        rw [← hc, Function.update_self, ← hstatement]
        exact h.calls call task (htasks ▸ List.mem_cons_self) hkey
      · intro c other hother
        apply Function.update_of_ne
        intro hc
        rw [hc, hfree] at hother
        cases hother
  · exact (startWrite_ne_execute _ _ _ _ _ heq).elim

/-- What an onlooker notes when the database takes a statement for the keys. -/
lemma note_execute {notes : Notes} {s s' : System} {c : ℕ} {updatedAt : ℤ} {statement : Statement}
    (h : s.service.writers c = some ⟨keysName, statement, none⟩) :
    (note notes s (.service (.execute c updatedAt)) s').last.map Except.ok =
      statement.toWrite.lastPut (notes.last.map (Except.ok (ε := LoadError)))
        ((notes.saves c).map .ok) := by
  unfold note
  dsimp only
  rw [h]
  cases statement with
  | upsert value =>
    dsimp only
    rw [if_pos rfl]
    rfl
  | updateMany expected value => rfl

lemma note_execute_of_ne {notes : Notes} {s s' : System} {c : ℕ} {updatedAt : ℤ} {key : String}
    {statement : Statement} (h : s.service.writers c = some ⟨key, statement, none⟩)
    (hkey : key ≠ keysName) : note notes s (.service (.execute c updatedAt)) s' = notes := by
  unfold note
  dsimp only
  rw [h]
  cases statement with
  | upsert value => exact if_neg hkey
  | updateMany expected value => rfl

lemma note_service_saves (notes : Notes) (s : System) (e : SettingsService.Event) (s' : System) :
    (note notes s (.service e) s').saves = notes.saves := by
  unfold note
  split
  · rename_i heq
    cases heq
  · split
    · split_ifs <;> rfl
    · rfl
  · rfl

lemma note_service_of_ne {notes : Notes} {s s' : System} {e : SettingsService.Event}
    (h : ∀ c updatedAt, e ≠ .execute c updatedAt) : note notes s (.service e) s' = notes := by
  cases e with
  | execute c updatedAt => exact absurd rfl (h c updatedAt)
  | _ => rfl

/-- The service goes on with anything but the start of a write of the keys. -/
lemma Inv.service (h : Inv aes encryptionKey first w) {e : SettingsService.Event}
    (hkeys : writesKeys e = false) {service : SettingsService.System}
    (hservice : SettingsService.step w.1.service e = some service) :
    Inv aes encryptionKey first ({ w.1 with service := service },
      note w.2 w.1 (.service e) { w.1 with service := service }) := by
  have hsaves := note_service_saves w.2 w.1 e { w.1 with service := service }
  have hwaitingStep : WaitingFrom e w.1.service service → ∀ c writer,
      service.writers c = some writer → writer.index = none → writer.key = keysName →
        SoundFor aes encryptionKey (w.2.saves c) writer.statement := by
    intro hwaiting
    apply h.waiting_step hwaiting
    · intro c statement hstart
      rw [hstart] at hkeys
      cases statement <;> simp [startWrite, writesKeys] at hkeys
    · exact fun _ _ _ => rfl
  rcases service_step hservice with ⟨hhistory, hne, hwaiting⟩ |
    ⟨c, updatedAt, key, statement, rfl, hwriter, hhistory, hwaiting⟩
  · rw [note_service_of_ne hne]
    refine ⟨?_, ?_, ?_, h.calls, hwaitingStep hwaiting⟩
    · rw [row_of_history_eq (congrFun hhistory keysName)]
      exact h.reads
    · rw [hhistory]
      exact h.nonempty
    · rw [hhistory]
      exact h.encrypted
  · by_cases hkey : key = keysName
    · subst hkey
      obtain ⟨hreads, hnonempty, hencrypted⟩ :=
        h.execute (h.waiting c _ hwriter rfl rfl) hhistory
      refine ⟨?_, hnonempty, hencrypted, h.calls, ?_⟩
      · rw [note_execute hwriter]
        exact hreads
      · rw [hsaves]
        exact hwaitingStep hwaiting
    · have hsame : service.history keysName = w.1.service.history keysName := by
        rw [hhistory]
        exact SettingsService.execute_history_of_ne _ (Ne.symm hkey) ..
      rw [note_execute_of_ne hwriter hkey]
      refine ⟨?_, ?_, ?_, h.calls, hwaitingStep hwaiting⟩
      · rw [row_of_history_eq hsame]
        exact h.reads
      · rw [hsame]
        exact h.nonempty
      · rw [hsame]
        exact h.encrypted

/-- Every moment keeps the invariant. -/
lemma inv_step (haes : aes.Inverts) {e : Event} (h : Inv aes encryptionKey first w)
    (hstep : watch aes encryptionKey w e = some w') : Inv aes encryptionKey first w' := by
  obtain ⟨hadvance, hnote⟩ := EventMachine.watched_eq_some.mp hstep
  obtain ⟨s', notes'⟩ := w'
  dsimp only at hadvance hnote
  subst hnote
  cases e with
  | load call value iv =>
    refine h.begin hadvance fun task htask _ => ?_
    obtain ⟨statement, hstatement, rfl⟩ := List.mem_map.mp htask
    exact sound_load haes (Option.mem_toList.mp hstatement)
  | list call rows iv =>
    refine h.begin hadvance fun task htask _ => ?_
    obtain ⟨statement, hstatement, rfl⟩ := List.mem_map.mp htask
    exact sound_list haes hstatement
  | update call updates ivs =>
    simp only [step] at hadvance
    split at hadvance
    · cases hadvance
      exact h
    · rename_i hstage
      exact h.begin hadvance (sound_stage haes hstage)
  | write call writer =>
    simp only [step] at hadvance
    split at hadvance
    · cases hadvance
    · rename_i task tasks htasks
      obtain ⟨service, hservice, rfl⟩ := Option.map_eq_some_iff.mp hadvance
      have hnote : note w.2 w.1 (.write call writer)
          { service := service, calls := Function.update w.1.calls call tasks } =
            { w.2 with saves := Function.update w.2.saves writer task.entries } := by
        unfold note
        dsimp only
        rw [htasks]
        rfl
      rw [hnote]
      exact h.write htasks hservice
  | service e =>
    simp only [step] at hadvance
    split_ifs at hadvance with hkeys
    obtain ⟨service, hservice, rfl⟩ := Option.map_eq_some_iff.mp hadvance
    exact h.service (by simpa using hkeys) hservice

/-- **Migrations are invisible**: after every run, over every table. -/
theorem migrations_invisible (haes : aes.Inverts) (encryptionKey : String)
    (table : String → Option Row) {events : List Event}
    (hrun : EventMachine.run (watch aes encryptionKey) (start table, {}) events = some w) :
    Invisible aes encryptionKey (table keysName) w :=
  (EventMachine.run_invariant (fun _ _ _ h hstep => inv_step haes h hstep) (Inv.start table)
    hrun).invisible

/-- A table with keys from before there was any encryption. -/
def legacyTable (key : String) : Option Row :=
  if key = keysName then some ⟨"[\"fc-old-key\"]", 0⟩ else none

/-- A migration comes too late: the keys have been replaced since its record was read. -/
def lateEvents : List Event :=
  [.load 0 "[\"fc-old-key\"]" [1],
    .update 1 (.object [(JsString.lit keysName, .array [.string (JsString.lit "fc-new-key")])])
      (fun _ => [2]),
    .write 1 0, .service (.execute 0 5), .write 0 1, .service (.execute 1 6)]

theorem migrations_invisible_late : ∃ w,
    EventMachine.run (watch SettingsController.plainAes
      SettingsController.plainPlatform.firecrawlKeysEncryptionKey) (start legacyTable, {}) lateEvents =
        some w ∧
    w.2.last = some [⟨JsString.lit "fc-new-key", .cloud⟩] ∧
    Invisible SettingsController.plainAes
      SettingsController.plainPlatform.firecrawlKeysEncryptionKey (legacyTable keysName) w := by
  have hrun : (EventMachine.run (watch SettingsController.plainAes
      SettingsController.plainPlatform.firecrawlKeysEncryptionKey) (start legacyTable, {})
      lateEvents).map (fun w => w.2.last) = some (some [⟨JsString.lit "fc-new-key", .cloud⟩]) := by
    decide +kernel
  obtain ⟨w, hw, hlast⟩ := Option.map_eq_some_iff.mp hrun
  exact ⟨w, hw, hlast, migrations_invisible SettingsController.plainAes_inverts _ legacyTable hw⟩

end KeyMigrations
end FirecrawlGateway
