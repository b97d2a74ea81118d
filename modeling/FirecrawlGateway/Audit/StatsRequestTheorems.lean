import FirecrawlGateway.Audit.AuditStatsTheorems
import FirecrawlGateway.Audit.StatsRequest
import FirecrawlGateway.Lib.RoundedMeans
import Mathlib.Data.List.DropRight

/-!
# The cards count what the table shows

The filters of the dashboard come to the service as they are, whatever is searched for. So where the
dashboard has all rows, the totals that the service counts for it in SQL are the numbers that it
would make from its table, the rounded mean included.
-/

namespace FirecrawlGateway.AuditStats

open JsonReader (utf16)
open JsString (IsAsciiText isAscii single toChars toText)
open NumberText (numberToString rounded toNumber)
open Proxy (Backend)

/-! ## Texts on their way -/

/-- A string after it went through a request. -/
def received (s : JsString) : JsString := (toChars s).flatMap utf16

/-- A string without a lone surrogate. -/
def WellFormed (s : JsString) : Prop := received s = s

instance (s : JsString) : Decidable (WellFormed s) := inferInstanceAs (Decidable (_ = _))

lemma lit_of_ascii {s : String} (h : IsAsciiText s.toList) :
    JsString.lit s = s.toList.flatMap utf16 :=
  (JsString.units_of_ascii h).symm

lemma wellFormed_lit {s : String} (h : IsAsciiText s.toList) : WellFormed (JsString.lit s) := by
  unfold WellFormed received
  rw [lit_of_ascii h, JsString.toChars_units h]

lemma toText_lit {s : String} (h : IsAsciiText s.toList) : toText (JsString.lit s) = s := by
  unfold toText
  rw [lit_of_ascii h, JsString.toChars_units h, String.ofList_toList]

/-- Characters have units. -/
lemma utf16_ne_nil (c : Char) : utf16 c ≠ [] := by
  unfold utf16
  split_ifs <;> exact List.cons_ne_nil _ _

lemma received_eq_nil {s : JsString} : received s = [] ↔ s = [] := by
  constructor
  · intro h
    have hchars : toChars s = [] := by
      cases hs : toChars s with
      | nil => rfl
      | cons c cs =>
        unfold received at h
        rw [hs, List.flatMap_cons] at h
        exact absurd (List.append_eq_nil_iff.mp h).1 (utf16_ne_nil c)
    apply JsString.toText_eq_empty.mp
    unfold toText
    rw [hchars]
  · rintro rfl
    rfl

/-- A field that is set is found under its name. -/
lemma find_setFields {fields : List (String × Option JsString)} (hnames : (fields.map Prod.fst).Nodup)
    {name : String} {value : Option JsString} (hfield : (name, value) ∈ fields) :
    (setFields fields).find? (·.1 = name.toList) = value.map fun v => (name.toList, toChars v) := by
  induction fields with
  | nil => exact absurd hfield List.not_mem_nil
  | cons field fields ih =>
    obtain ⟨key, first⟩ := field
    rw [List.map_cons, List.nodup_cons] at hnames
    have hrest : ∀ p ∈ setFields fields, ∃ later ∈ fields, later.1.toList = p.1 := by
      intro p hp
      obtain ⟨later, hlater, hsome⟩ := List.mem_filterMap.mp hp
      obtain ⟨v, -, rfl⟩ := Option.map_eq_some_iff.mp hsome
      exact ⟨later, hlater, rfl⟩
    rcases List.mem_cons.mp hfield with heq | hlater
    · cases heq
      -- no later field has the name
      have hnone : (setFields fields).find? (·.1 = name.toList) = none := by
        apply List.find?_eq_none.mpr
        intro p hp heq
        obtain ⟨later, hlater, hname⟩ := hrest p hp
        apply hnames.1
        have hkey : later.1 = name := String.toList_inj.mp (hname.trans (of_decide_eq_true heq))
        exact List.mem_map.mpr ⟨later, hlater, hkey⟩
      cases value with
      | none => exact hnone
      | some v => exact List.find?_cons_of_pos (decide_eq_true rfl)
    · have hne : key.toList ≠ name.toList := by
        intro heq
        apply hnames.1
        exact List.mem_map.mpr ⟨(name, value), hlater, (String.toList_inj.mp heq).symm⟩
      cases first with
      | none => exact ih hnames.2 hlater
      | some v =>
        have hskip := ih hnames.2 hlater
        rw [← hskip]
        exact List.find?_cons_of_neg (by simpa using hne)

variable (timeZone : JsString) (f : DashboardFilters)

/-- What the service has under a name. -/
lemma get_statsQuery {name : String} {value : Option JsString}
    (hfield : (name, value) ∈ statsFields timeZone f) :
    Query.get (FormUrlencoded.parse (statsQuery timeZone f)) name = value.map received := by
  have hnames : ((statsFields timeZone f).map Prod.fst).Nodup := by
    have hall : (statsFields timeZone f).map Prod.fst = ["backend", "status", "api_key_id",
        "fallback", "slow", "search", "range", "tz", "day", "month", "year"] := rfl
    rw [hall]
    decide
  unfold Query.get statsQuery
  rw [FormUrlencoded.parse_serialize, find_setFields hnames hfield, Option.map_map]
  rfl

/-! ## The filters of the service -/

/-- What the service gets to know of the filters. -/
def DashboardFilters.sent : StatsFilter where
  backend := f.backendFilter
  status := f.statusFilter
  fallbackOnly := f.fallbackOnly
  slowOnly := f.slowOnly
  search := if JsString.trim f.search ≠ [] then some (received (JsString.trim f.search)) else none
  apiKeyId := if f.apiKeyFilter ≠ [] then some (received f.apiKeyFilter) else none
  range := if f.dateRange ≠ .all then some f.dateRange else none
  day := if f.dateRange = .custom then f.dayFilter else none
  month := if f.dateRange = .custom then f.monthFilter else none
  year := if f.dateRange = .custom then f.yearFilter else none
  timeZone :=
    if f.dateRange ≠ .all ∧ timeZone ≠ [] then some (received timeZone) else none

lemma filter_isNotEmpty {s : JsString} (h : s ≠ []) : (some s).filter isNotEmpty = some s := by
  unfold isNotEmpty
  simp [h]

/-- A choice among texts is read back. -/
lemma oneOf_chosen {α : Type} {allowed : List (JsString × α)} {text : α → JsString} (name : String)
    (chosen : Option α) (h : ∀ a ∈ chosen, received (text a) ≠ [] ∧
      allowed.lookup (received (text a)) = some a) :
    oneOf ((chosen.map text).map received) name allowed = .ok chosen := by
  cases chosen with
  | none => rfl
  | some a =>
    obtain ⟨hne, hlookup⟩ := h a rfl
    unfold oneOf
    simp only [Option.map_some, filter_isNotEmpty hne, hlookup]

/-- The text of a part of a date is plain digits. -/
lemma numberToString_spec {n : ℕ} (h : n < 10000) : IsAsciiText (numberToString n).toList ∧
    (numberToString n).toList ≠ [] ∧ toNumber (numberToString n) = some (.finite n) := by
  have hdouble : NumberText.IsDouble ((n : ℤ) : ℚ) := by
    apply NumberText.isDouble_intCast
    rw [abs_of_nonneg (by omega)]
    omega
  rw [Int.cast_natCast] at hdouble
  obtain ⟨htoken, hnumber⟩ := NumberText.toNumber_numberToString hdouble
  refine ⟨fun c hc => ?_, fun hnil => ?_, hnumber⟩
  · apply NumberText.toNat_lt_of_isNumberChar
    exact NumberText.isNumberChar_of_mem_token htoken c hc
  · rw [hnil] at htoken
    exact absurd htoken (by decide)

/-- A part of a date is read back. -/
lemma intParam_part {min max : ℕ} (hmax : max < 10000) (name : String)
    (part : Option (DatePart min max)) :
    intParam ((part.map partText).map received) name min max = .ok part := by
  cases part with
  | none => rfl
  | some part =>
    obtain ⟨hascii, htext, hnumber⟩ := numberToString_spec (lt_of_le_of_lt part.value_le hmax)
    have hreceived : received (partText part) = partText part := wellFormed_lit hascii
    have hne : partText part ≠ [] := by
      intro hnil
      exact htext (List.map_eq_nil_iff.mp hnil)
    have hread : toNumber (toText (partText part)) = some (.finite part.value) := by
      rw [← hnumber]
      exact congrArg toNumber (toText_lit hascii)
    have hvalue : ((part.value : ℕ) : ℚ).num.toNat = part.value := by
      rw [Rat.num_natCast, Int.toNat_natCast]
    unfold intParam
    simp only [Option.map_some, hreceived, filter_isNotEmpty hne, hread]
    rw [dif_pos ⟨Rat.den_natCast _, by rw [hvalue]; exact part.le_value,
      by rw [hvalue]; exact part.value_le, Nat.cast_nonneg _⟩]
    congr 2

/-- A text that is set is not empty at the service, and a text that is not set is none. -/
lemma filter_received {p : Prop} [Decidable p] (s : JsString) :
    (((if p then some s else none : Option JsString).map received).filter isNotEmpty) =
      if p ∧ s ≠ [] then some (received s) else none := by
  by_cases hp : p
  · by_cases hs : s = []
    · rw [if_pos hp, if_neg fun h => h.2 hs, hs]
      rfl
    · have hne : received s ≠ [] := fun h => hs (received_eq_nil.mp h)
      rw [if_pos hp, if_pos ⟨hp, hs⟩, Option.map_some, filter_isNotEmpty hne]
  · rw [if_neg hp, if_neg fun h => hp h.1]
    rfl

lemma chosen_map {α β : Type} {p : Prop} [Decidable p] (o : Option α) (g : α → β) :
    (if p then o.map g else none) = (if p then o else none).map g := by
  split_ifs
  · rfl
  · rfl

lemma map_chosen {p : Prop} [Decidable p] (s : JsString) :
    (if p then some s else none : Option JsString).map received =
      if p then some (received s) else none := by
  split_ifs
  · rfl
  · rfl

/-- A flag is read back. -/
lemma flag_received (flag : Bool) :
    decide ((if flag = true then some (JsString.lit "true") else none : Option JsString).map
      received = some (JsString.lit "true")) = flag := by
  cases flag with
  | true => exact decide_eq_true (congrArg some (wellFormed_lit (by decide)))
  | false => rfl

/-! ## Reading the filters -/

/-- What the parameters of a request say. -/
structure Reads (query : Query) (filter : StatsFilter) : Prop where
  backend : oneOf (query.get "backend") "backend"
    ([.selfHosted, .cloud].map fun backend => (backendText backend, backend)) = .ok filter.backend
  status : oneOf (query.get "status") "status"
    ([.success, .clientError, .serverError].map fun status => (StatusClass.text status, status)) =
      .ok filter.status
  fallbackOnly : decide (query.get "fallback" = some (JsString.lit "true")) = filter.fallbackOnly
  slowOnly : decide (query.get "slow" = some (JsString.lit "true")) = filter.slowOnly
  search : query.get "search" = filter.search
  apiKeyId : (query.get "api_key_id").filter isNotEmpty = filter.apiKeyId
  range : oneOf (query.get "range") "range"
    ([.all, .today, .week, .month, .custom].map fun range => (StatsRange.text range, range)) =
      .ok filter.range
  day : intParam (query.get "day") "day" 1 31 = .ok filter.day
  month : intParam (query.get "month") "month" 1 12 = .ok filter.month
  year : intParam (query.get "year") "year" 1970 9999 = .ok filter.year
  timeZone : (query.get "tz").filter isNotEmpty = filter.timeZone

/-- A request says one thing. -/
lemma Reads.unique {query : Query} {a b : StatsFilter} (ha : Reads query a) (hb : Reads query b) :
    a = b := by
  obtain ⟨⟨_, _, _, _, _, _⟩, _, _, _, _, _⟩ := a
  obtain ⟨⟨_, _, _, _, _, _⟩, _, _, _, _, _⟩ := b
  congr
  · exact Except.ok.inj (ha.backend.symm.trans hb.backend)
  · exact Except.ok.inj (ha.status.symm.trans hb.status)
  · exact ha.fallbackOnly.symm.trans hb.fallbackOnly
  · exact ha.slowOnly.symm.trans hb.slowOnly
  · exact ha.search.symm.trans hb.search
  · exact ha.apiKeyId.symm.trans hb.apiKeyId
  · exact Except.ok.inj (ha.range.symm.trans hb.range)
  · exact Except.ok.inj (ha.day.symm.trans hb.day)
  · exact Except.ok.inj (ha.month.symm.trans hb.month)
  · exact Except.ok.inj (ha.year.symm.trans hb.year)
  · exact ha.timeZone.symm.trans hb.timeZone

/-- The service takes what it reads, after three checks in their order. -/
lemma Reads.parse {query : Query} {filter : StatsFilter} (h : Reads query filter)
    (isKnown : JsString → Bool) : parseStatsFilter isKnown query =
      if filter.search.any (200 < ·.length) then .error "search is too long"
      else if filter.timeZone.any fun tz => !isValidTimeZone isKnown tz then .error "tz is invalid"
      else if filter.apiKeyId.any fun id => !isToken [] id then .error "api_key_id is invalid"
      else .ok filter := by
  unfold parseStatsFilter
  dsimp only
  rw [h.search, h.timeZone, h.apiKeyId, h.backend, h.status, h.range, h.day, h.month, h.year,
    h.fallbackOnly, h.slowOnly]
  by_cases hsearch : filter.search.any (200 < ·.length)
  · rw [if_pos hsearch, if_pos hsearch]
    rfl
  by_cases htz : filter.timeZone.any fun tz => !isValidTimeZone isKnown tz
  · rw [if_neg hsearch, if_neg hsearch, if_pos htz, if_pos htz]
    rfl
  by_cases hkey : filter.apiKeyId.any fun id => !isToken [] id
  · rw [if_neg hsearch, if_neg hsearch, if_neg htz, if_neg htz, if_pos hkey, if_pos hkey]
    rfl
  · rw [if_neg hsearch, if_neg hsearch, if_neg htz, if_neg htz, if_neg hkey, if_neg hkey]
    rfl

/-- The request of the dashboard says what it filters by. -/
lemma reads_statsQuery :
    Reads (FormUrlencoded.parse (statsQuery timeZone f)) (f.sent timeZone) := by
  have hfield : ∀ name value, (name, value) ∈ statsFields timeZone f →
      Query.get (FormUrlencoded.parse (statsQuery timeZone f)) name = value.map received :=
    fun _ _ => get_statsQuery timeZone f
  constructor
  case backend =>
    rw [hfield "backend" _ List.mem_cons_self]
    exact oneOf_chosen _ _ fun backend _ => by cases backend <;> decide
  case status =>
    rw [hfield "status" (f.statusFilter.map StatusClass.text) (by simp [statsFields])]
    exact oneOf_chosen _ _ fun status _ => by cases status <;> decide
  case fallbackOnly =>
    rw [hfield "fallback" (if f.fallbackOnly = true then some (JsString.lit "true") else none)
      (by simp [statsFields])]
    exact flag_received _
  case slowOnly =>
    rw [hfield "slow" (if f.slowOnly = true then some (JsString.lit "true") else none)
      (by simp [statsFields])]
    exact flag_received _
  case search =>
    rw [hfield "search"
      (if JsString.trim f.search ≠ [] then some (JsString.trim f.search) else none)
      (by simp [statsFields])]
    exact map_chosen _
  case apiKeyId =>
    rw [hfield "api_key_id" (if f.apiKeyFilter ≠ [] then some f.apiKeyFilter else none)
      (by simp [statsFields]), filter_received]
    simp only [and_self]
    rfl
  case range =>
    rw [hfield "range" (if f.dateRange ≠ .all then (some f.dateRange).map StatsRange.text else none)
      (by simp [statsFields]), chosen_map]
    exact oneOf_chosen _ _ fun range _ => by cases range <;> decide
  case day =>
    rw [hfield "day" (if f.dateRange = .custom then f.dayFilter.map partText else none)
      (by simp [statsFields]), chosen_map]
    exact intParam_part (by decide) _ _
  case month =>
    rw [hfield "month" (if f.dateRange = .custom then f.monthFilter.map partText else none)
      (by simp [statsFields]), chosen_map]
    exact intParam_part (by decide) _ _
  case year =>
    rw [hfield "year" (if f.dateRange = .custom then f.yearFilter.map partText else none)
      (by simp [statsFields]), chosen_map]
    exact intParam_part (by decide) _ _
  case timeZone =>
    rw [hfield "tz" (if f.dateRange ≠ .all then some timeZone else none) (by simp [statsFields])]
    exact filter_received _

/-- A query string stands for one set of filters. -/
lemma sent_of_statsQuery_eq {g : DashboardFilters} (h : statsQuery timeZone f = statsQuery timeZone g) :
    f.sent timeZone = g.sent timeZone := by
  have hf := reads_statsQuery timeZone f
  rw [h] at hf
  exact hf.unique (reads_statsQuery timeZone g)

/-- **The request says what the dashboard filters by**, whatever is searched for: the service gets
the same filters, or refuses the request for one of three reasons, and two requests are the same
text only if they say the same. -/
theorem parseStatsFilter_statsQuery (isKnown : JsString → Bool) :
    (parseStatsFilter isKnown (FormUrlencoded.parse (statsQuery timeZone f)) =
      if (f.sent timeZone).search.any (200 < ·.length) then .error "search is too long"
      else if (f.sent timeZone).timeZone.any fun tz => !isValidTimeZone isKnown tz then
        .error "tz is invalid"
      else if (f.sent timeZone).apiKeyId.any fun id => !isToken [] id then
        .error "api_key_id is invalid"
      else .ok (f.sent timeZone)) ∧
    ∀ g : DashboardFilters, statsQuery timeZone f = statsQuery timeZone g →
      f.sent timeZone = g.sent timeZone :=
  ⟨(reads_statsQuery timeZone f).parse isKnown, fun _ => sent_of_statsQuery_eq timeZone f⟩

/-! ## The rows that are counted -/

/-- What is trimmed has no space at either end. -/
lemma trim_trim (s : JsString) : JsString.trim (JsString.trim s) = JsString.trim s := by
  have htrim : ∀ t, JsString.trim t =
      (t.dropWhile JsString.isSpace).rdropWhile JsString.isSpace := fun _ => rfl
  have hfront : (JsString.trim s).dropWhile JsString.isSpace = JsString.trim s := by
    apply List.dropWhile_eq_self_iff.mpr
    intro hlength
    -- the end was cut off, so the front is that of the string without its first spaces
    have hprefix : JsString.trim s <+: s.dropWhile JsString.isSpace :=
      List.rdropWhile_prefix JsString.isSpace _
    have hlength' := lt_of_lt_of_le hlength hprefix.length_le
    have hhead : (JsString.trim s)[0] = (s.dropWhile JsString.isSpace)[0] := hprefix.getElem hlength
    have hnot := List.dropWhile_get_zero_not JsString.isSpace s hlength'
    rw [hhead]
    exact hnot
  rw [htrim (JsString.trim s), hfront, htrim s, List.rdropWhile_idempotent]

lemma isAscii_of_isToken {s : JsString} (h : isToken [] s = true) : s.all isAscii = true := by
  unfold isToken at h
  rw [Bool.and_eq_true] at h
  apply List.all_eq_true.mpr
  intro u hu
  have hunit := List.all_eq_true.mp h.2 u hu
  apply decide_eq_true
  show u < 0x80
  simp only [List.not_mem_nil, decide_false, Bool.or_false, Bool.or_eq_true, Bool.and_eq_true,
    decide_eq_true_eq] at hunit
  rcases hunit with (((hdigit | hupper) | hlower) | hline) | hdash
  · exact UInt16.lt_of_le_of_lt hdigit.2 (by decide)
  · exact UInt16.lt_of_le_of_lt hupper.2 (by decide)
  · exact UInt16.lt_of_le_of_lt hlower.2 (by decide)
  · rw [hline]
    decide
  · rw [hdash]
    decide

lemma toNat_lt_of_utf16 {c : Char} (h : (utf16 c).all isAscii = true) : c.toNat < 128 := by
  unfold utf16 at h
  split_ifs at h with hsmall
  · rw [List.all_cons, Bool.and_eq_true] at h
    have hlt : c.toNat.toUInt16.toNat < 128 := UInt16.lt_iff_toNat_lt.mp (of_decide_eq_true h.1)
    rw [Nat.toUInt16, UInt16.toNat_ofNat', Nat.mod_eq_of_lt hsmall] at hlt
    exact hlt
  · -- a surrogate is not ASCII
    rw [List.all_cons, Bool.and_eq_true] at h
    have hlt := UInt16.lt_iff_toNat_lt.mp (of_decide_eq_true h.1)
    have hvalid : c.toNat < 0xD800 ∨ 0xDFFF < c.toNat ∧ c.toNat < 0x110000 := c.valid
    rw [Nat.toUInt16, UInt16.toNat_ofNat', Nat.mod_eq_of_lt (by omega)] at hlt
    have hsize : (0x80 : UInt16).toNat = 128 := rfl
    omega

/-- A text that came through as a token was sent as it is. -/
lemma wellFormed_of_isToken {s : JsString} (h : isToken [] (received s) = true) : WellFormed s := by
  have hascii := isAscii_of_isToken h
  apply JsString.units_toChars
  intro c hc
  apply toNat_lt_of_utf16
  apply List.all_eq_true.mpr
  intro u hu
  exact List.all_eq_true.mp hascii u (List.mem_flatMap.mpr ⟨c, hc, hu⟩)

/-- The service builds the conditions of the filters of the table. -/
lemma buildStatsWhere_sent {platform : TextPlatform} (hsearch : WellFormed (JsString.trim f.search))
    (hkey : WellFormed f.apiKeyFilter) :
    buildStatsWhere platform (f.sent timeZone).toAuditStatsFilter =
      buildStatsWhere platform f.filter := by
  have hsent : ((f.sent timeZone).search.map fun search =>
      platform.toLowerCase (JsString.trim search)).filter (· ≠ []) =
      (f.filter.search.map fun search =>
        platform.toLowerCase (JsString.trim search)).filter (· ≠ []) := by
    show ((if JsString.trim f.search ≠ [] then some (received (JsString.trim f.search))
      else none).map _).filter _ = ((some f.search).map _).filter _
    by_cases hempty : JsString.trim f.search = []
    · have hlower : platform.toLowerCase [] = [] := platform.toLowerCase_ascii [] rfl
      rw [if_neg (fun h => h hempty), Option.map_some, hempty]
      show none = (some (platform.toLowerCase [])).filter _
      rw [hlower]
      rfl
    · rw [if_pos hempty, hsearch]
      simp only [Option.map_some, trim_trim]
  have hsentKey : (f.sent timeZone).apiKeyId.filter (· ≠ []) = f.filter.apiKeyId.filter (· ≠ []) := by
    show (if f.apiKeyFilter ≠ [] then some (received f.apiKeyFilter) else none).filter _ =
      (some f.apiKeyFilter).filter _
    rw [hkey]
    by_cases hempty : f.apiKeyFilter = []
    · rw [if_neg (fun h => h hempty), hempty]
      rfl
    · rw [if_pos hempty]
  unfold buildStatsWhere
  dsimp only
  rw [hsent, hsentKey]
  rfl

/-! ## The numbers of the cards -/

/-- The mean of the database and that of the dashboard, of up to 500 durations. -/
lemma avgDuration_eq {durations : List ℤ} (hne : durations ≠ []) (hlength : durations.length ≤ 500)
    (hdurations : ∀ d ∈ durations, 0 ≤ d ∧ d < 2 ^ 31) :
    mathRound (rounded (durations.foldl (fun (sum : ℚ) (v : ℤ) => rounded (sum + v)) 0 /
        durations.length)) = roundAway ((durations.sum : ℚ) / durations.length) := by
  have hnonneg : 0 ≤ durations.sum := List.sum_nonneg fun d hd => (hdurations d hd).1
  have hbound : durations.sum ≤ durations.length * 2 ^ 31 := by
    have hle := List.sum_le_card_nsmul durations (2 ^ 31) fun d hd => (hdurations d hd).2.le
    rwa [nsmul_eq_mul] at hle
  have hlengthInt : (durations.length : ℤ) ≤ 500 := by exact_mod_cast hlength
  have hsum : durations.foldl (fun (sum : ℚ) (v : ℤ) => rounded (sum + v)) 0 = durations.sum := by
    have hfold := NumberText.foldl_rounded_eq_add_sum
      (fun d hd => (hdurations d hd).1) (le_refl 0) (by omega)
    rw [Int.cast_zero, zero_add] at hfold
    exact hfold
  obtain ⟨s, hs⟩ := Int.eq_ofNat_of_zero_le hnonneg
  have hpos : 0 < durations.length := List.length_pos_of_ne_nil hne
  have hposRat : (0 : ℚ) < durations.length := by exact_mod_cast hpos
  rw [hsum, hs, Int.cast_natCast]
  unfold mathRound roundAway
  rw [if_pos (by positivity)]
  apply NumberText.floor_rounded_div hpos (by omega)
  rw [div_le_iff₀ hposRat, mul_comm]
  have hle : (s : ℤ) ≤ durations.length * 2 ^ 31 := hs ▸ hbound
  exact_mod_cast hle

/-- A text in ASCII is known by its string. -/
lemma toJs_eq_lit_iff {text : DbText} {word : String} (h : IsAsciiText text.chars)
    (hword : IsAsciiText word.toList) :
    text.toJs = JsString.lit word ↔ text.chars = word.toList := by
  rw [lit_of_ascii hword]
  constructor
  · intro heq
    have hchars := congrArg toChars heq
    unfold DbText.toJs at hchars
    rwa [JsString.toChars_units h, JsString.toChars_units hword] at hchars
  · intro heq
    unfold DbText.toJs
    rw [heq]

/-- The totals of the rows are the numbers of their entries. -/
lemma statsToMetrics_statsOf {rows : List AuditLog} (hlength : rows.length ≤ 500)
    (hrows : ∀ row ∈ rows, row.IsAscii ∧ 0 ≤ row.durationMs ∧ row.durationMs < 2 ^ 31) :
    statsToMetrics (statsOf rows) = useAuditMetrics (rows.map toEntry) := by
  have hbackend : ∀ word : String, IsAsciiText word.toList →
      (rows.map toEntry).countP (fun e => e.backendUsed = JsString.lit word) =
        rows.countP fun row => row.backendUsed.chars = word.toList := by
    intro word hword
    rw [List.countP_map]
    apply List.countP_congr
    intro row hrow
    have hascii : IsAsciiText row.backendUsed.chars :=
      (hrows row hrow).1.searched _ (by simp [columns])
    simp only [Function.comp_apply, decide_eq_true_eq]
    exact toJs_eq_lit_iff hascii hword
  have hdurations : (rows.map toEntry).map AuditEntry.durationMs =
      rows.map AuditLog.durationMs := List.map_map
  have havg : (statsOf rows).avgDurationMs = (useAuditMetrics (rows.map toEntry)).avgDuration := by
    unfold statsOf useAuditMetrics
    dsimp only
    rw [hdurations, List.length_map]
    cases hempty : rows with
    | nil => rfl
    | cons row rest =>
      rw [← hempty, if_neg (by rw [hempty]; exact List.cons_ne_nil _ _),
        if_neg (by rw [hempty]; exact Nat.succ_ne_zero _)]
      have hne : rows.map AuditLog.durationMs ≠ [] := by
        rw [hempty]
        exact List.cons_ne_nil _ _
      have hmean := avgDuration_eq hne (by rwa [List.length_map]) ?_
      · rw [List.length_map] at hmean
        exact hmean.symm
      · intro d hd
        obtain ⟨row, hrow, rfl⟩ := List.mem_map.mp hd
        exact (hrows row hrow).2
  unfold statsToMetrics
  rw [havg]
  unfold statsOf useAuditMetrics
  dsimp only
  rw [hbackend "self-hosted" (by decide), hbackend "cloud" (by decide)]
  simp only [List.countP_map, List.length_map]
  rfl

/-- Without a range of dates the database is asked for no dates. -/
lemma dateWhere_sent (timeZone : JsString) {f : DashboardFilters} (hrange : f.dateRange = .all)
    (database : Database) (now : ℤ) : dateWhere database now (f.sent timeZone) = some [] := by
  have hall : (f.sent timeZone).range = none := if_neg (not_not.mpr hrange)
  have hdated : (f.sent timeZone).isDated = false := by
    unfold StatsFilter.isDated
    rw [hall]
    rfl
  unfold dateWhere
  rw [hdated]
  rfl

lemma shownEntries_all {f : DashboardFilters} (hrange : f.dateRange = .all)
    (platform : TextPlatform) (zone : TimeZone) (now : ℤ) (entries : List AuditEntry) :
    shownEntries platform zone now f entries = filteredEntries platform f.filter entries := by
  unfold shownEntries keepsDate
  rw [hrange]
  exact List.filter_true _

/-- **The cards count what the table shows**: where the dashboard has all rows and no range of dates
is set, the totals that the service answers for its request are the numbers that it makes from its
table. -/
theorem stats_eq_useAuditMetrics {isKnown : JsString → Bool} {database : Database}
    {log : List AuditLog} {totals : Totals} {f : DashboardFilters} {asked : ℤ}
    (hrange : f.dateRange = .all) (hsearch : WellFormed (JsString.trim f.search))
    (hlength : log.length ≤ 500)
    (hrows : ∀ row ∈ log, row.IsAscii ∧ 0 ≤ row.durationMs ∧ row.durationMs < 2 ^ 31)
    (h : stats isKnown database (statsQuery timeZone f) asked log = some totals) (zone : TimeZone)
    (now : ℤ) :
    statsToMetrics totals =
      useAuditMetrics (shownEntries database.texts zone now f (log.map toEntry)) := by
  rw [shownEntries_all hrange]
  unfold stats at h
  obtain ⟨filter, hfilter, htotals⟩ := Option.bind_eq_some_iff.mp h
  rw [(reads_statsQuery timeZone f).parse] at hfilter
  split_ifs at hfilter with hlong htz hkey
  · cases hfilter
  · cases hfilter
  · cases hfilter
  · cases hfilter
    have hwellFormed : WellFormed f.apiKeyFilter := by
      by_cases hempty : f.apiKeyFilter = []
      · rw [hempty]
        rfl
      · apply wellFormed_of_isToken
        have hsent : (f.sent timeZone).apiKeyId = some (received f.apiKeyFilter) := if_pos hempty
        rw [hsent] at hkey
        simpa using hkey
    unfold readAuditStats at htotals
    dsimp only at htotals
    rw [buildStatsWhere_sent timeZone f hsearch hwellFormed, dateWhere_sent timeZone hrange]
      at htotals
    split_ifs at htotals
    cases htotals
    simp only [List.not_mem_nil, false_imp_iff, implies_true, and_true]
    rw [filteredEntries_toEntry (fun row hrow => (hrows row hrow).1)]
    apply statsToMetrics_statsOf
    · exact (List.length_filter_le _ _).trans hlength
    · intro row hrow
      exact hrows row (List.mem_of_mem_filter hrow)

/-! ## A search in two rows -/

/-- A search with spaces around it and characters that mean something in `LIKE` and in a request. -/
def searched : DashboardFilters where
  backendFilter := some .cloud
  search := JsString.lit " E.com/50%_X\\% "

def searchedLog : List AuditLog :=
  [exampleRow, { exampleRow with statusCode := 502, durationMs := 401, fallbackUsed := true }]

/-- A database that knows UTC only. -/
def utcDatabase : Database where
  texts := asciiPlatform
  timeZone name := if name = JsString.lit "UTC" then some ⟨id, id⟩ else none

theorem stats_eq_useAuditMetrics_searched :
    ∃ totals, stats (fun _ => false) utcDatabase (statsQuery [] searched) 0 searchedLog =
        some totals ∧
      statsToMetrics totals = useAuditMetrics
        (shownEntries asciiPlatform ⟨id, id⟩ 0 searched (searchedLog.map toEntry)) := by
  have hparse : parseStatsFilter (fun _ => false) (FormUrlencoded.parse (statsQuery [] searched)) =
      .ok (searched.sent []) := by
    rw [(reads_statsQuery [] searched).parse, if_neg (by decide), if_neg (by decide),
      if_neg (by decide)]
  have hsome : (readAuditStats utcDatabase 0 (searched.sent []) searchedLog).isSome = true := by
    decide +kernel
  obtain ⟨totals, htotals⟩ := Option.isSome_iff_exists.mp hsome
  have hstats : stats (fun _ => false) utcDatabase (statsQuery [] searched) 0 searchedLog =
      some totals := by
    unfold stats
    rw [hparse]
    exact htotals
  have hrow : exampleRow.IsAscii := ⟨by decide, by decide⟩
  have hrows : ∀ row ∈ searchedLog,
      row.IsAscii ∧ 0 ≤ row.durationMs ∧ row.durationMs < 2 ^ 31 := by
    intro row hmem
    rcases List.mem_cons.mp hmem with rfl | hmem
    · exact ⟨hrow, by decide, by decide⟩
    · rw [List.mem_singleton.mp hmem]
      exact ⟨⟨hrow.searched, hrow.apiKeyId⟩, by decide, by decide⟩
  exact ⟨totals, hstats, stats_eq_useAuditMetrics [] rfl (by decide +kernel) (by decide) hrows
    hstats ⟨id, id⟩ 0⟩

end FirecrawlGateway.AuditStats
