import FirecrawlGateway.Audit.AuditStats

/-!
# Proofs about the filters of the audit log

An escaped search stands for its characters, also after it is sent as a text. So over rows in ASCII
the query of the cards and the filter of the table keep the same ones, and a search finds the rows
whose fields have it in them.
-/

namespace FirecrawlGateway.AuditStats

open JsonReader (utf16)
open JsString

/-! ## Escaping -/

lemma escapeSearch_cons (u : UInt16) (s : JsString) : escapeSearch (u :: s) =
    (if u = 0x5C ∨ u = 0x25 ∨ u = 0x5F then [0x5C, u] else [u]) ++ escapeSearch s :=
  List.flatMap_cons

/-- The characters to escape are those of the units to escape. -/
lemma single_special_iff (u : UInt16) :
    (single u = '\\' ∨ single u = '%' ∨ single u = '_') ↔ u = 0x5C ∨ u = 0x25 ∨ u = 0x5F := by
  rw [single_eq_iff (c := '\\') (by decide), single_eq_iff (c := '%') (by decide),
    single_eq_iff (c := '_') (by decide)]
  rfl

lemma escape_single_cons (u : UInt16) (t : List Char) :
    SqlLike.escape wildcards (single u :: t) =
      (if u = 0x5C ∨ u = 0x25 ∨ u = 0x5F then ['\\', single u] else [single u]) ++
        SqlLike.escape wildcards t := by
  rw [SqlLike.escape_cons]
  exact congrArg (· ++ _) (if_congr (single_special_iff u) rfl rfl)

/-- Escaping keeps a unit that no unit after it pairs up with as it is. -/
lemma toChars_escapeSearch_cons {u : UInt16} {s : JsString}
    (h : ∀ v ∈ s.head?, ¬(0xD800 ≤ u ∧ u ≤ 0xDBFF ∧ 0xDC00 ≤ v ∧ v ≤ 0xDFFF))
    (ih : toChars (escapeSearch s) = SqlLike.escape wildcards (toChars s)) :
    toChars (escapeSearch (u :: s)) = SqlLike.escape wildcards (single u :: toChars s) := by
  rw [escapeSearch_cons, escape_single_cons, ← ih]
  split_ifs with hspecial
  · have hu : u < 0xD800 := by
      rcases hspecial with rfl | rfl | rfl <;> decide
    have hescape : single 0x5C = '\\' := by decide
    rw [List.cons_append, List.singleton_append, toChars_cons_of_lt (by decide),
      toChars_cons_of_lt hu, hescape]
    rfl
  · rw [List.singleton_append, List.singleton_append]
    refine toChars_cons fun v hv hpair => ?_
    -- what comes first after escaping is a backslash or the unit itself
    cases s with
    | nil => cases hv
    | cons w s =>
      rw [escapeSearch_cons] at hv
      split_ifs at hv with hw
      · obtain rfl : 0x5C = v := Option.some_inj.mp hv
        exact absurd hpair.2.2.1 (by decide)
      · obtain rfl : w = v := Option.some_inj.mp hv
        exact h w rfl hpair

lemma pair_not_special {u v : UInt16} (h : 0xD800 ≤ u ∧ u ≤ 0xDBFF ∧ 0xDC00 ≤ v ∧ v ≤ 0xDFFF) :
    ¬(pair u v = '\\' ∨ pair u v = '%' ∨ pair u v = '_') := by
  have hlarge := (JsonReader.utf16_pair h).1
  rintro (heq | heq | heq) <;> rw [heq] at hlarge <;> exact absurd hlarge (by decide)

/-- An escaped search is sent as its text, escaped. -/
theorem toChars_escapeSearch (s : JsString) :
    toChars (escapeSearch s) = SqlLike.escape wildcards (toChars s) := by
  induction s using toChars.induct with
  | case1 => rfl
  | case2 u => exact toChars_escapeSearch_cons (by rintro _ ⟨⟩) rfl
  | case3 u v s hpair ih =>
    have hu : ¬(u = 0x5C ∨ u = 0x25 ∨ u = 0x5F) := by
      rintro (rfl | rfl | rfl) <;> exact absurd hpair.1 (by decide)
    have hv : ¬(v = 0x5C ∨ v = 0x25 ∨ v = 0x5F) := by
      rintro (rfl | rfl | rfl) <;> exact absurd hpair.2.2.1 (by decide)
    have hescape : SqlLike.escape wildcards (pair u v :: toChars s) =
        pair u v :: SqlLike.escape wildcards (toChars s) := by
      rw [SqlLike.escape_cons]
      exact congrArg (· ++ SqlLike.escape wildcards (toChars s)) (if_neg (pair_not_special hpair))
    rw [escapeSearch_cons, if_neg hu, escapeSearch_cons, if_neg hv, List.singleton_append,
      List.singleton_append, toChars, if_pos hpair, toChars, if_pos hpair, ih, hescape]
  | case4 u v s hpair ih =>
    rw [toChars, if_neg hpair]
    refine toChars_escapeSearch_cons ?_ ih
    rintro _ ⟨⟩
    exact hpair

theorem toChars_searchPattern (s : JsString) :
    toChars (searchPattern s) =
      wildcards.anyString :: (SqlLike.escape wildcards (toChars s) ++ [wildcards.anyString]) := by
  have hpercent : JsString.lit "%" = [0x25] := by decide
  have hsingle : single 0x25 = wildcards.anyString := by decide
  have hlast : toChars [0x25] = [wildcards.anyString] := congrArg (· :: []) hsingle
  rw [searchPattern, hpercent, List.singleton_append, toChars_cons_of_lt (by decide),
    toChars_append (by decide), toChars_escapeSearch, hsingle, hlast]

example : searchPattern (JsString.lit "50%_x") = JsString.lit "%50\\%\\_x%" := by decide

/-! ## Rows in ASCII -/

variable {platform : TextPlatform} {row : AuditLog}

/-- The fields that are searched. -/
def columns (row : AuditLog) : List DbText :=
  [row.path, row.targetUrl, row.method, row.backendUsed, row.routeMode, row.fallbackReason]

/-- The texts of the row are ASCII. -/
structure AuditLog.IsAscii (row : AuditLog) : Prop where
  searched : ∀ text ∈ columns row, IsAsciiText text.chars
  apiKeyId : ∀ text ∈ row.apiKeyId, IsAsciiText text.chars

lemma forall_mem_searchedText {p : Char → Prop} (hspace : p ' ')
    (h : ∀ text ∈ columns row, ∀ c ∈ text.chars, p c) : ∀ c ∈ searchedText row, p c := by
  have hchars : ∀ chars ∈ (columns row).map DbText.chars, ∀ c ∈ chars, p c := by
    intro chars hchars
    obtain ⟨text, htext, rfl⟩ := List.mem_map.mp hchars
    exact h text htext
  exact forall_mem_intercalate (List.forall_mem_singleton.mpr hspace) hchars

lemma isAscii_searchedText (h : row.IsAscii) : IsAsciiText (searchedText row) :=
  forall_mem_searchedText (by decide) h.searched

lemma hasNoNul_searchedText (row : AuditLog) : HasNoNul (searchedText row) :=
  forall_mem_searchedText (by decide) fun text _ => text.hasNoNul

/-- The dashboard searches the text that the database searches. -/
lemma joinSpace_searchedFields (row : AuditLog) :
    joinSpace (searchedFields (toEntry row)) = (searchedText row).flatMap utf16 := by
  have hspace : JsString.lit " " = [' '].flatMap utf16 := by decide
  have htext : searchedText row =
      List.intercalate [' '] ((columns row).map DbText.chars) := rfl
  rw [joinSpace, hspace, htext, map_intercalate List.flatMap_nil fun _ _ => List.flatMap_append]
  rfl

/-- In lower case, too. -/
lemma toLowerCase_searchedFields (h : row.IsAscii) :
    platform.toLowerCase (joinSpace (searchedFields (toEntry row))) =
      (platform.lower (searchedText row)).flatMap utf16 := by
  have hascii := isAscii_searchedText h
  rw [joinSpace_searchedFields, platform.toLowerCase_ascii _ (all_isAscii_units hascii),
    platform.lower_ascii _ hascii, units_toLower hascii]

/-! ## Parameters -/

lemma parameter_eq_some {s : JsString} {text : DbText} :
    parameter s = some text ↔ toChars s = text.chars := by
  obtain ⟨chars, hchars⟩ := text
  rw [parameter]
  split_ifs with h
  · rw [Option.some_inj, DbText.mk.injEq]
  · refine ⟨fun heq => absurd heq (by simp), ?_⟩
    rintro rfl
    exact absurd hchars h

/-- A text in ASCII is the parameter where its string is. -/
lemma parameter_eq_some_iff {s : JsString} {text : DbText} (h : IsAsciiText text.chars) :
    parameter s = some text ↔ text.toJs = s := by
  rw [parameter_eq_some, toChars_eq_iff h]
  exact eq_comm

/-! ## Search -/

lemma lower_searchedText (h : row.IsAscii) : IsAsciiText (platform.lower (searchedText row)) ∧
    HasNoNul (platform.lower (searchedText row)) := by
  have hascii := isAscii_searchedText h
  rw [platform.lower_ascii _ hascii]
  refine ⟨hascii.toLower, fun c hc hzero => ?_⟩
  obtain ⟨d, hd, rfl⟩ := List.mem_map.mp hc
  exact hasNoNul_searchedText row d hd ((toLower_ascii (hascii d hd)).2.2 hzero)

/-- The query finds a search in the text of the row. -/
theorem holds_searchPattern (h : row.IsAscii) (search : JsString) :
    holds platform row (.search (searchPattern search)) = some true ↔
      toChars search <:+: platform.lower (searchedText row) := by
  rw [holds, Option.bind_eq_some_iff]
  constructor
  · rintro ⟨text, htext, hlike⟩
    rw [← parameter_eq_some.mp htext, toChars_searchPattern, SqlLike.like_contains] at hlike
    exact of_decide_eq_true (Option.some_inj.mp hlike)
  · intro hin
    have hnul : HasNoNul (toChars (searchPattern search)) := by
      have hsearch : HasNoNul (toChars search) := fun c hc =>
        (lower_searchedText h).2 c (hin.subset hc)
      have hpercent : wildcards.anyString.toNat ≠ 0 := by decide
      rw [toChars_searchPattern]
      refine List.forall_mem_cons.mpr ⟨hpercent, List.forall_mem_append.mpr ⟨?_, ?_⟩⟩
      · exact SqlLike.forall_mem_escape (by decide) hsearch
      · exact List.forall_mem_singleton.mpr hpercent
    refine ⟨⟨toChars (searchPattern search), hnul⟩, dif_pos hnul, ?_⟩
    show SqlLike.like wildcards _ (toChars (searchPattern search)) = some true
    rw [toChars_searchPattern, SqlLike.like_contains, decide_eq_true hin]

/-- The table finds what the query finds. -/
theorem holds_searchPattern_iff_includes (h : row.IsAscii) (search : JsString) :
    holds platform row (.search (searchPattern search)) = some true ↔
      search <:+: platform.toLowerCase (joinSpace (searchedFields (toEntry row))) := by
  rw [holds_searchPattern h, toLowerCase_searchedFields h,
    infix_units_iff (lower_searchedText h).1]

/-! ## The query and the table -/

/-- The search as both sides look for it. -/
def normalizedSearch (platform : TextPlatform) (filter : AuditStatsFilter) : JsString :=
  platform.toLowerCase (JsString.trim (filter.search.getD []))

/-- The tests of an entry, one for each filter. -/
structure Kept (platform : TextPlatform) (filter : AuditStatsFilter) (entry : AuditEntry) :
    Prop where
  search : normalizedSearch platform filter <:+:
    platform.toLowerCase (joinSpace (searchedFields entry))
  backend : ∀ backend ∈ filter.backend, entry.backendUsed = backendText backend
  apiKeyId : ∀ key ∈ filter.apiKeyId, key ≠ [] → entry.apiKeyId = some key
  fallbackOnly : filter.fallbackOnly = true → entry.fallbackUsed = true
  slowOnly : filter.slowOnly = true → 1000 ≤ entry.durationMs
  status : ∀ status ∈ filter.status,
    status.least ≤ entry.statusCode ∧ entry.statusCode < status.bound

lemma keeps_iff {filter : AuditStatsFilter} {entry : AuditEntry} :
    keeps platform filter entry = true ↔ Kept platform filter entry := by
  have hsearch : ¬(normalizedSearch platform filter ≠ [] ∧
      ¬normalizedSearch platform filter <:+:
        platform.toLowerCase (joinSpace (searchedFields entry))) ↔
      normalizedSearch platform filter <:+:
        platform.toLowerCase (joinSpace (searchedFields entry)) := by
    refine ⟨fun h => ?_, fun h hnot => hnot.2 h⟩
    by_cases hempty : normalizedSearch platform filter = []
    · rw [hempty]
      exact List.nil_infix
    · exact not_not.mp fun hnot => h ⟨hempty, hnot⟩
  rw [normalizedSearch] at hsearch
  rw [keeps]
  constructor
  · intro h
    split_ifs at h with h₁ h₂ h₃ h₄ h₅ h₆
    push Not at h₂ h₃ h₄ h₅ h₆
    exact ⟨hsearch.mp h₁, h₂, h₃, h₄, h₅, h₆⟩
  · intro h
    rw [if_neg (hsearch.mpr h.search), if_neg, if_neg, if_neg, if_neg, if_neg]
    all_goals push Not
    exacts [h.status, h.slowOnly, h.fallbackOnly, h.apiKeyId, h.backend]

lemma toLowerCase_trim_nil : platform.toLowerCase (JsString.trim []) = [] :=
  platform.toLowerCase_ascii [] rfl

/-- The conditions of the query, one for each filter. -/
lemma selected_buildStatsWhere {filter : AuditStatsFilter} :
    Selected platform (buildStatsWhere platform filter) row ↔
      (∀ backend ∈ filter.backend,
        holds platform row (.backendUsed (backendText backend)) = some true) ∧
      (∀ status ∈ filter.status,
        holds platform row (.statusCode status.least status.bound) = some true) ∧
      (filter.fallbackOnly = true → holds platform row .fallbackUsed = some true) ∧
      (filter.slowOnly = true → holds platform row (.durationMs 1000) = some true) ∧
      (∀ key ∈ filter.apiKeyId, key ≠ [] → holds platform row (.apiKeyId key) = some true) ∧
      (normalizedSearch platform filter ≠ [] →
        holds platform row (.search (searchPattern (normalizedSearch platform filter))) =
          some true) := by
  simp only [Selected, buildStatsWhere, List.forall_mem_append, List.forall_mem_map,
    Option.mem_toList, and_assoc]
  refine and_congr Iff.rfl (and_congr Iff.rfl (and_congr ?_ (and_congr ?_ (and_congr ?_ ?_))))
  · simp
  · simp
  · simp
  · cases hsearch : filter.search with
    | none => simp [normalizedSearch, hsearch, toLowerCase_trim_nil]
    | some search => simp [normalizedSearch, hsearch]

lemma holds_backendUsed (h : row.IsAscii) (value : JsString) :
    holds platform row (.backendUsed value) = some true ↔ (toEntry row).backendUsed = value := by
  have hascii : IsAsciiText row.backendUsed.chars := h.searched _ (by simp [columns])
  rw [holds, Option.map_eq_some_iff]
  constructor
  · rintro ⟨text, htext, heq⟩
    obtain rfl := of_decide_eq_true heq
    exact (parameter_eq_some_iff hascii).mp htext
  · intro heq
    exact ⟨_, (parameter_eq_some_iff hascii).mpr heq, decide_eq_true rfl⟩

/-- A row without a key has none in the table. -/
lemma holds_apiKeyId (h : row.IsAscii) (value : JsString) :
    holds platform row (.apiKeyId value) = some true ↔ (toEntry row).apiKeyId = some value := by
  rw [holds, Option.map_eq_some_iff, toEntry, Option.map_eq_some_iff]
  constructor
  · rintro ⟨text, htext, heq⟩
    have hkey := of_decide_eq_true heq
    exact ⟨text, hkey, (parameter_eq_some_iff (h.apiKeyId text hkey)).mp htext⟩
  · rintro ⟨text, hkey, heq⟩
    exact ⟨text, (parameter_eq_some_iff (h.apiKeyId text hkey)).mpr heq, decide_eq_true hkey⟩

/-- **The query and the table agree**: of the rows in ASCII the filters keep the same ones on both
sides. -/
theorem selected_iff_keeps (h : row.IsAscii) (filter : AuditStatsFilter) :
    Selected platform (buildStatsWhere platform filter) row ↔
      keeps platform filter (toEntry row) = true := by
  have hstatus : ∀ least bound, holds platform row (.statusCode least bound) = some true ↔
      least ≤ (toEntry row).statusCode ∧ (toEntry row).statusCode < bound := fun _ _ =>
    Option.some_inj.trans decide_eq_true_iff
  have hfallback : holds platform row .fallbackUsed = some true ↔
      (toEntry row).fallbackUsed = true := Option.some_inj
  have hslow : holds platform row (.durationMs 1000) = some true ↔
      1000 ≤ (toEntry row).durationMs := Option.some_inj.trans decide_eq_true_iff
  have hsearch : (normalizedSearch platform filter ≠ [] →
      holds platform row (.search (searchPattern (normalizedSearch platform filter))) =
        some true) ↔
      normalizedSearch platform filter <:+:
        platform.toLowerCase (joinSpace (searchedFields (toEntry row))) := by
    rw [holds_searchPattern_iff_includes h]
    refine ⟨fun hin => ?_, fun hin _ => hin⟩
    by_cases hempty : normalizedSearch platform filter = []
    · rw [hempty]
      exact List.nil_infix
    · exact hin hempty
  simp only [selected_buildStatsWhere, keeps_iff, holds_backendUsed h, holds_apiKeyId h, hstatus,
    hfallback, hslow, hsearch]
  constructor
  · rintro ⟨h₁, h₂, h₃, h₄, h₅, h₆⟩
    exact ⟨h₆, h₁, h₅, h₃, h₄, h₂⟩
  · rintro ⟨h₁, h₂, h₃, h₄, h₅, h₆⟩
    exact ⟨h₂, h₆, h₄, h₅, h₃, h₁⟩

/-- So the cards count what the table shows. -/
theorem filteredEntries_toEntry {rows : List AuditLog} (h : ∀ row ∈ rows, row.IsAscii)
    (filter : AuditStatsFilter) :
    filteredEntries platform filter (rows.map toEntry) =
      (rows.filter fun row => Selected platform (buildStatsWhere platform filter) row).map
        toEntry := by
  rw [filteredEntries, List.filter_map]
  refine congrArg (List.map toEntry) (List.filter_congr fun row hrow => ?_)
  rw [Bool.eq_iff_iff, decide_eq_true_iff]
  exact (selected_iff_keeps (h row hrow) filter).symm

/-- Fields in lower case are joined as in lower case. -/
lemma toLowerCase_joinSpace {fields : List JsString} (h : ∀ s ∈ fields, s.all isAscii = true) :
    platform.toLowerCase (joinSpace fields) = joinSpace (fields.map platform.toLowerCase) := by
  have hjoined : (joinSpace fields).all isAscii = true := by
    have hseparator : (JsString.lit " ").all isAscii = true := by decide
    exact List.all_eq_true.mpr (forall_mem_intercalate (List.all_eq_true.mp hseparator)
      fun s hs => List.all_eq_true.mp (h s hs))
  have hspace : (JsString.lit " ").map asciiLower = JsString.lit " " := by decide
  calc platform.toLowerCase (joinSpace fields)
      = (joinSpace fields).map asciiLower := platform.toLowerCase_ascii _ hjoined
    _ = joinSpace (fields.map (List.map asciiLower)) := by
      rw [joinSpace, map_intercalate List.map_nil fun _ _ => List.map_append, hspace]
      rfl
    _ = joinSpace (fields.map platform.toLowerCase) :=
      congrArg joinSpace (List.map_congr_left fun s hs =>
        (platform.toLowerCase_ascii s (h s hs)).symm)

/-- **A search is literal on both sides**: the condition of the query is true of a row where the
table keeps it, and that is where the search, trimmed and in lower case, is in the fields, joined
and in lower case. -/
theorem search_selected_iff (platform : TextPlatform) (search : JsString) (row : AuditLog)
    (h : row.IsAscii) :
    (Selected platform (buildStatsWhere platform { search := some search }) row ↔
      keeps platform { search := some search } (toEntry row) = true) ∧
    (keeps platform { search := some search } (toEntry row) = true ↔
      platform.toLowerCase (JsString.trim search) <:+:
        joinSpace ((searchedFields (toEntry row)).map platform.toLowerCase)) := by
  refine ⟨selected_iff_keeps h _, ?_⟩
  have hfields : ∀ s ∈ searchedFields (toEntry row), s.all isAscii = true := by
    intro s hs
    obtain ⟨text, htext, rfl⟩ := List.mem_map.mp (show s ∈ (columns row).map DbText.toJs from hs)
    exact all_isAscii_units (h.searched text htext)
  rw [keeps_iff, ← toLowerCase_joinSpace hfields]
  constructor
  · exact Kept.search
  · intro hin
    refine ⟨hin, ?_, ?_, ?_, ?_, ?_⟩
    all_goals simp

/-- Letters in lower case, as far as they are compared with ASCII. -/
def asciiPlatform : TextPlatform where
  toLowerCase := JsString.toLowerCase
  lower := List.map Char.toLower
  toLowerCase_ascii _ := toLowerCase_of_ascii
  lower_ascii _ _ := rfl

def exampleRow : AuditLog where
  createdAt := 0
  method := ⟨"POST".toList, by decide⟩
  path := ⟨"/v2/scrape".toList, by decide⟩
  routeMode := ⟨"hybrid".toList, by decide⟩
  backendUsed := ⟨"cloud".toList, by decide⟩
  fallbackUsed := false
  fallbackReason := ⟨[], by decide⟩
  statusCode := 200
  durationMs := 310
  targetUrl := ⟨"https://Example.com/50%_x\\%".toList, by decide⟩
  apiKeyId := none

/-- The characters with a meaning are found as they are, and stand for no others. -/
theorem search_selected_literally :
    Selected asciiPlatform (buildStatsWhere asciiPlatform
      { search := some (JsString.lit " E.com/50%_X\\%") }) exampleRow ∧
    ¬Selected asciiPlatform (buildStatsWhere asciiPlatform
      { search := some (JsString.lit "e_com/50%x") }) exampleRow := by
  have hascii : exampleRow.IsAscii := ⟨by decide, by decide⟩
  obtain ⟨hselected, hkeeps⟩ := search_selected_iff asciiPlatform
    (JsString.lit " E.com/50%_X\\%") exampleRow hascii
  obtain ⟨hselected', hkeeps'⟩ := search_selected_iff asciiPlatform
    (JsString.lit "e_com/50%x") exampleRow hascii
  refine ⟨hselected.mpr (hkeeps.mpr (by decide +kernel)), fun h => ?_⟩
  exact absurd (hkeeps'.mp (hselected'.mp h)) (by decide +kernel)

end FirecrawlGateway.AuditStats
