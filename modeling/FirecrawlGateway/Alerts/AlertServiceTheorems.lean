import FirecrawlGateway.Alerts.AlertService

/-!
# What the recipients of alerts may rely on

The log of the service is cut, for each rule, into periods: checks under one destination with the
rule on. Within a period the state of the rule follows the notices that were delivered, so every
notice is one that `IncidentLog.Allowed` allows.
-/

namespace FirecrawlGateway
namespace Alerts

open EventMachine IncidentLog

/-! ## Periods -/

/-- Who gets the messages. -/
structure Audience where
  chatId : String
  botToken : String
deriving DecidableEq, Repr

def AlertSettings.audience (settings : AlertSettings) : Audience :=
  ⟨settings.chatId, settings.botToken⟩

/-- A message goes to somebody. -/
def Message.To (m : Message) (audience : Audience) : Prop :=
  m.url = "https://api.telegram.org/bot" ++ audience.botToken ++ "/sendMessage" ∧
    m.chatId = audience.chatId

/-- The checks of a rule, under one destination with the rule on. -/
structure Period where
  audience : Audience
  checks : List Check
deriving DecidableEq, Repr

/-- The periods of a rule that are over, and the one that goes on. -/
structure Timeline where
  closed : List Period := []
  current : Option Period := none
deriving DecidableEq, Repr

def Timeline.periods (t : Timeline) : List Period := t.closed ++ t.current.toList

def Timeline.close (t : Timeline) : Timeline := ⟨t.periods, none⟩

/-- One more check; under another destination a new period begins. -/
def Timeline.add (t : Timeline) (audience : Audience) (c : Check) : Timeline :=
  match t.current with
  | some period =>
    if period.audience = audience then ⟨t.closed, some ⟨audience, period.checks ++ [c]⟩⟩
    else ⟨t.periods, some ⟨audience, [c]⟩⟩
  | none => ⟨t.closed, some ⟨audience, [c]⟩⟩

/-- The notice of a check that was delivered. -/
def deliveredNotice (sent : Option Sent) : Option Notice :=
  (sent.filter Sent.delivered).map Sent.notice

def Timeline.next (rule : RuleName) (t : Timeline) : Entry → Timeline
  | .unconfigured => t.close
  | .switchedOff off => if off = rule then t.close else t
  | .checked checked settings now active sent =>
    if checked = rule then t.add settings.audience ⟨now, active, deliveredNotice sent⟩ else t

def timeline (rule : RuleName) (log : List Entry) : Timeline :=
  log.foldl (Timeline.next rule) {}

/-! ## Destinations -/

/-- The text by which the service knows an audience. -/
def Audience.key (a : Audience) : String := a.chatId ++ "\n" ++ a.botToken

/-- An audience of settings that were accepted. -/
def Audience.Valid (a : Audience) : Prop := '\n' ∉ a.chatId.toList

lemma Audience.key_inj {a b : Audience} (ha : a.Valid) (hb : b.Valid) (h : a.key = b.key) :
    a = b := by
  have hlines : a.chatId.toList ++ '\n' :: a.botToken.toList =
      b.chatId.toList ++ '\n' :: b.botToken.toList := by
    have := congrArg String.toList h
    simpa [Audience.key] using this
  have hsplit : ∀ x : Audience, x.Valid →
      (x.chatId.toList ++ '\n' :: x.botToken.toList).takeWhile (· ≠ '\n') = x.chatId.toList := by
    intro x hx
    rw [List.takeWhile_append_of_pos, List.takeWhile_cons]
    · simp
    · intro c hc
      simp only [ne_eq, decide_eq_true_eq]
      rintro rfl
      exact hx hc
  have hchat : a.chatId.toList = b.chatId.toList := by
    rw [← hsplit a ha, ← hsplit b hb, hlines]
  rw [hchat] at hlines
  have htoken : a.botToken.toList = b.botToken.toList := by simpa using hlines
  cases a
  cases b
  rw [Audience.mk.injEq]
  exact ⟨String.toList_inj.mp hchat, String.toList_inj.mp htoken⟩

lemma loadSettings_valid {p : Platform} {stored : StoredSettings} {settings : AlertSettings}
    (h : loadSettings p stored = some settings) : settings.audience.Valid := by
  unfold loadSettings at h
  simp only at h
  split_ifs at h with hnone
  have hpattern : Settings.telegramChatIdPattern
      (Proxy.jsTrim (stored.telegramChatId.getD "").toList) := by
    by_contra hpattern
    exact hnone (Or.inr (Or.inr hpattern))
  split at h
  · cases h
  · split_ifs at h
    cases h
    show '\n' ∉ (String.ofList _).toList
    rw [String.toList_ofList]
    exact Settings.newline_not_mem_of_chatId hpattern

/-! ## The state of a rule -/

/-- The state of a rule follows the checks of its period. -/
structure Tracks (state : RuleState) (checks : List Check) : Prop where
  legal : Legal reminderMs resolveAfterCleanChecks checks
  firing : state.firing = true ↔ Firing checks
  notified : ∀ last, state.firing = true → lastNotice checks = some last →
    state.lastNotifiedAt = last.now
  clean : state.firing = true → state.cleanChecks = cleanRun checks

lemma tracks_nil : Tracks {} [] where
  legal := .nil
  firing := iff_of_false (by simp) not_firing_nil
  notified _ h := by cases h
  clean h := by cases h

/-- A check that sends nothing, or nothing that is delivered. -/
lemma Tracks.quiet {state state' : RuleState} {checks : List Check} {active : Bool} {now : ℤ}
    {notice : Option Notice} (h : Tracks state checks)
    (hbegin : beginApply state active now = (state', notice)) :
    Tracks state' (checks ++ [⟨now, active, none⟩]) := by
  have hfiring : Firing (checks ++ [⟨now, active, none⟩]) ↔ Firing checks := by
    simp [firing_concat]
  have hlast : lastNotice (checks ++ [⟨now, active, none⟩]) = lastNotice checks := by
    rw [lastNotice_concat]
    rfl
  have hlegal := h.legal.concat (Allowed.quiet (c := ⟨now, active, none⟩) rfl)
  -- the state says what it said, but for the number of clean checks
  have hsame : state'.firing = state.firing ∧ state'.lastNotifiedAt = state.lastNotifiedAt ∧
      (state.firing = true → state'.cleanChecks = if active then 0 else state.cleanChecks + 1) := by
    unfold beginApply at hbegin
    split_ifs at hbegin <;> cases hbegin <;> simp_all
  obtain ⟨hf, hn, hc⟩ := hsame
  refine ⟨hlegal, ?_, fun last hon hl => ?_, fun hon => ?_⟩
  · rw [hf, hfiring]
    exact h.firing
  · rw [hn]
    exact h.notified last (hf ▸ hon) (hlast ▸ hl)
  · rw [hc (hf ▸ hon), cleanRun_concat, h.clean (hf ▸ hon)]

/-- When which message is sent. -/
lemma beginApply_some {state state' : RuleState} {active : Bool} {now : ℤ} {notice : Notice}
    (h : beginApply state active now = (state', some notice)) :
    (notice = .alert ∧ active = true ∧ state.firing = false ∧
        state' = { state with cleanChecks := 0 }) ∨
      (notice = .stillFiring ∧ active = true ∧ state.firing = true ∧
        reminderMs ≤ now - state.lastNotifiedAt ∧ state' = { state with cleanChecks := 0 }) ∨
      notice = .resolved ∧ active = false ∧ state.firing = true ∧
        resolveAfterCleanChecks ≤ state.cleanChecks + 1 ∧
        state' = { state with cleanChecks := state.cleanChecks + 1 } := by
  unfold beginApply at h
  simp only at h
  split_ifs at h <;> cases h <;> simp_all

/-- A check whose message is delivered. -/
lemma Tracks.delivered {state state' : RuleState} {checks : List Check} {active : Bool} {now : ℤ}
    {notice : Notice} (h : Tracks state checks)
    (hbegin : beginApply state active now = (state', some notice)) :
    Tracks (endApply state' notice now true) (checks ++ [⟨now, active, some notice⟩]) := by
  have hlast : lastNotice (checks ++ [⟨now, active, some notice⟩]) =
      some ⟨now, active, some notice⟩ := by
    rw [lastNotice_concat]
    rfl
  rcases beginApply_some hbegin with ⟨rfl, rfl, hoff, rfl⟩ | ⟨rfl, rfl, hon, hgap, rfl⟩ |
    ⟨rfl, rfl, hon, hclean, rfl⟩
  · -- an incident begins
    have hnot : ¬Firing checks := by
      rw [← h.firing, hoff]
      simp
    refine ⟨h.legal.concat (.alert rfl rfl hnot), ?_, fun last _ hl => ?_, fun _ => ?_⟩
    · exact iff_of_true rfl (firing_concat.mpr (Or.inr (Or.inl rfl)))
    · obtain rfl := Option.some.inj (hlast.symm.trans hl)
      rfl
    · rw [cleanRun_concat]
      rfl
  · obtain ⟨last, hl, hnot⟩ := h.firing.mp hon
    have hallowed : Allowed reminderMs resolveAfterCleanChecks checks
        ⟨now, true, some .stillFiring⟩ := by
      refine .reminder last rfl rfl hl hnot ?_
      rw [← h.notified last hon hl]
      exact hgap
    refine ⟨h.legal.concat hallowed, ?_, fun last _ hl => ?_, fun _ => ?_⟩
    · exact iff_of_true hon (firing_concat.mpr (Or.inr (Or.inr rfl)))
    · obtain rfl := Option.some.inj (hlast.symm.trans hl)
      rfl
    · rw [cleanRun_concat]
      rfl
  · -- the incident ends
    have hallowed : Allowed reminderMs resolveAfterCleanChecks checks
        ⟨now, false, some .resolved⟩ := by
      refine .resolved rfl (h.firing.mp hon) ?_
      rw [cleanRun_concat, ← h.clean hon]
      exact hclean
    refine ⟨h.legal.concat hallowed, ?_, fun last hon' => ?_, fun hon' => ?_⟩
    · refine iff_of_false (by simp [endApply]) ?_
      simp [firing_concat]
    · cases hon'
    · cases hon'

/-- A check that is over, whatever came of it. -/
lemma Tracks.sent {state state' : RuleState} {checks : List Check} {active : Bool} {now : ℤ}
    {notice : Notice} (h : Tracks state checks)
    (hbegin : beginApply state active now = (state', some notice)) (m : Message) (ok : Bool) :
    Tracks (endApply state' notice now ok)
      (checks ++ [⟨now, active, deliveredNotice (some ⟨notice, m, ok⟩)⟩]) := by
  cases ok with
  | true => exact h.delivered hbegin
  | false => exact h.quiet hbegin

/-! ## The invariant -/

/-- The checks of the period that goes on, if that is under the destination of the service. -/
def currentChecks (s : System) (rule : RuleName) : List Check :=
  match (timeline rule s.log).current with
  | some period => if period.audience.key = s.destination then period.checks else []
  | none => []

/-- The period that goes on is under the destination of the service. -/
def Aligned (s : System) (rule : RuleName) : Prop :=
  ∀ period, (timeline rule s.log).current = some period → period.audience.key = s.destination

/-- What holds of a rule at all times. -/
structure Sound (s : System) (rule : RuleName) : Prop where
  legal : ∀ period ∈ (timeline rule s.log).periods,
    Legal reminderMs resolveAfterCleanChecks period.checks
  valid : ∀ period, (timeline rule s.log).current = some period → period.audience.Valid

/-- A rule that is between two checks. -/
structure Idle (s : System) (rule : RuleName) : Prop extends Sound s rule where
  tracks : Tracks (ruleState s rule) (currentChecks s rule)

/-- A rule whose message is on its way. -/
structure Waiting (s : System) (now : ℤ) (check : RuleCheck) (notice : Notice) : Prop
    extends Sound s check.rule where
  tracks : ∃ state, Tracks state (currentChecks s check.rule) ∧
    beginApply state check.active now = (ruleState s check.rule, some notice)

/-- The invariant: with the rules that this evaluation has yet to come to, and may find under
another destination. -/
def Inv (s : System) : Prop :=
  match s.evaluating with
  | some (.sending settings now check notice rest) =>
    settings.destination = s.destination ∧ settings.audience.Valid ∧
      (check :: rest).Pairwise (fun c c' => c.rule ≠ c'.rule) ∧
      Waiting s now check notice ∧
      (∀ rule, rule ≠ check.rule → Idle s rule) ∧
      ∀ rule, isChecked (check :: rest) rule = false → Aligned s rule
  | _ => ∀ rule, Idle s rule ∧ Aligned s rule

/-! ## Changes of one rule -/

variable {s s' : System} {rule : RuleName}

lemma timeline_logEntry (s : System) (entry : Entry) (rule : RuleName) :
    timeline rule (logEntry s entry).log = (timeline rule s.log).next rule entry := by
  show (s.log ++ [entry]).foldl _ _ = _
  rw [List.foldl_append]
  rfl

/-- A step that does not concern the rule. -/
lemma Idle.frame (h : Idle s rule) (ht : timeline rule s'.log = timeline rule s.log)
    (hs : ruleState s' rule = ruleState s rule) (hd : s'.destination = s.destination) :
    Idle s' rule where
  legal := ht ▸ h.legal
  valid := ht ▸ h.valid
  tracks := by
    unfold currentChecks
    rw [ht, hs, hd]
    exact h.tracks

lemma Aligned.frame (h : Aligned s rule) (ht : timeline rule s'.log = timeline rule s.log)
    (hd : s'.destination = s.destination) : Aligned s' rule := by
  unfold Aligned
  rw [ht, hd]
  exact h

/-- No period of the rule goes on, and its state is forgotten. -/
lemma idle_of_closed (h : Sound s rule) (ht : timeline rule s'.log = (timeline rule s.log).close)
    (hs : ruleState s' rule = {}) : Idle s' rule ∧ Aligned s' rule := by
  have hcurrent : (timeline rule s'.log).current = none := by
    rw [ht]
    rfl
  refine ⟨⟨⟨?_, fun period hp => ?_⟩, ?_⟩, fun period hp => ?_⟩
  · rw [ht]
    intro period hp
    have hmem : period ∈ (timeline rule s.log).periods := by
      simpa [Timeline.close, Timeline.periods] using hp
    exact h.legal period hmem
  · rw [hcurrent] at hp
    cases hp
  · unfold currentChecks
    rw [hcurrent, hs]
    exact tracks_nil
  · rw [hcurrent] at hp
    cases hp

/-- The rule has been checked under the destination of the service. -/
lemma idle_of_checked {settings : AlertSettings} {now : ℤ} {active : Bool} {sent : Option Sent}
    (h : Sound s rule) (hd : settings.destination = s.destination)
    (hvalid : settings.audience.Valid) (hd' : s'.destination = s.destination)
    (hlog : s'.log = s.log ++ [.checked rule settings now active sent])
    (ht : Tracks (ruleState s' rule) (currentChecks s rule ++ [⟨now, active, deliveredNotice sent⟩])) :
    Idle s' rule ∧ Aligned s' rule := by
  have hkey : settings.audience.key = s.destination := hd
  have hadd : timeline rule s'.log = (timeline rule s.log).add settings.audience
      ⟨now, active, deliveredNotice sent⟩ := by
    rw [hlog]
    refine (timeline_logEntry s _ rule).trans ?_
    exact if_pos rfl
  -- the period that goes on has the checks of before, if it did under this destination
  obtain ⟨hcurrent, hperiods⟩ : (timeline rule s'.log).current =
        some ⟨settings.audience, currentChecks s rule ++ [⟨now, active, deliveredNotice sent⟩]⟩ ∧
      ∀ period ∈ (timeline rule s'.log).closed, period ∈ (timeline rule s.log).periods := by
    rw [hadd]
    unfold Timeline.add currentChecks
    cases hc : (timeline rule s.log).current with
    | none =>
      refine ⟨rfl, fun period hp => ?_⟩
      exact List.mem_append_left _ hp
    | some period =>
      by_cases haudience : period.audience = settings.audience
      · simp only [haudience, if_true, hkey]
        refine ⟨trivial, fun period hp => ?_⟩
        exact List.mem_append_left _ hp
      · have hne : period.audience.key ≠ s.destination := fun heq =>
          haudience (Audience.key_inj (h.valid period hc) hvalid (heq.trans hkey.symm))
        simp only [haudience, if_false, hne]
        exact ⟨rfl, fun period hp => hp⟩
  refine ⟨⟨⟨fun period hp => ?_, fun period hp => ?_⟩, ?_⟩, fun period hp => ?_⟩
  · rcases List.mem_append.mp hp with hp | hp
    · exact h.legal period (hperiods period hp)
    · rw [hcurrent] at hp
      obtain rfl : period = _ := by simpa using hp
      exact ht.legal
  · rw [hcurrent] at hp
    cases hp
    exact hvalid
  · unfold currentChecks at ht ⊢
    simp only [hcurrent, hkey, hd', if_true]
    exact ht
  · rw [hcurrent] at hp
    cases hp
    rw [hkey, hd']

/-- The other rules do not notice. -/
lemma timeline_checked_of_ne {checked : RuleName} (hne : rule ≠ checked) (s : System)
    (settings : AlertSettings) (now : ℤ) (active : Bool) (sent : Option Sent) :
    timeline rule (logEntry s (.checked checked settings now active sent)).log =
      timeline rule s.log := by
  rw [timeline_logEntry]
  exact if_neg (Ne.symm hne)

lemma ruleState_setState (s : System) (rule : RuleName) (state : RuleState) :
    ruleState (setState s rule state) rule = state := by
  show ((s.states.set rule state).get rule).getD {} = state
  rw [JsMap.get_set_self]
  rfl

lemma ruleState_setState_of_ne {checked : RuleName} (hne : rule ≠ checked) (s : System)
    (state : RuleState) : ruleState (setState s checked state) rule = ruleState s rule := by
  show ((s.states.set checked state).get rule).getD {} = _
  rw [JsMap.get_set_of_ne hne]
  rfl

/-! ## An evaluation -/

/-- The loop of `evaluate` can go on with these checks. -/
structure Ready (s : System) (settings : AlertSettings) (checks : List RuleCheck) : Prop where
  destination : settings.destination = s.destination
  valid : settings.audience.Valid
  distinct : checks.Pairwise fun c c' => c.rule ≠ c'.rule
  idle : ∀ rule, Idle s rule
  aligned : ∀ rule, isChecked checks rule = false → Aligned s rule

lemma isChecked_cons_of_ne {check : RuleCheck} {rest : List RuleCheck} (hne : rule ≠ check.rule) :
    isChecked (check :: rest) rule = isChecked rest rule := by
  unfold isChecked
  rw [List.any_cons, decide_eq_false (Ne.symm hne), Bool.false_or]

/-- One check is over. -/
lemma ready_of_checked {settings : AlertSettings} {now : ℤ} {check : RuleCheck}
    {rest : List RuleCheck} {state : RuleState} {sent : Option Sent}
    (hd : settings.destination = s.destination) (hvalid : settings.audience.Valid)
    (hdistinct : (check :: rest).Pairwise fun c c' => c.rule ≠ c'.rule)
    (hsound : Sound s check.rule) (hothers : ∀ rule, rule ≠ check.rule → Idle s rule)
    (haligned : ∀ rule, isChecked (check :: rest) rule = false → Aligned s rule)
    (ht : Tracks state
      (currentChecks s check.rule ++ [⟨now, check.active, deliveredNotice sent⟩])) :
    Ready (logEntry (setState s check.rule state)
      (.checked check.rule settings now check.active sent)) settings rest := by
  have htracks : Tracks (ruleState (setState s check.rule state) check.rule)
      (currentChecks s check.rule ++ [⟨now, check.active, deliveredNotice sent⟩]) := by
    rw [ruleState_setState]
    exact ht
  have hthis : Idle (logEntry (setState s check.rule state)
        (.checked check.rule settings now check.active sent)) check.rule ∧
      Aligned (logEntry (setState s check.rule state)
        (.checked check.rule settings now check.active sent)) check.rule :=
    idle_of_checked hsound hd hvalid rfl rfl htracks
  have hother : ∀ rule, rule ≠ check.rule →
      timeline rule (logEntry (setState s check.rule state)
        (.checked check.rule settings now check.active sent)).log = timeline rule s.log := by
    intro rule hne
    exact timeline_checked_of_ne hne (setState s check.rule state) settings now check.active sent
  refine ⟨hd, hvalid, (List.pairwise_cons.mp hdistinct).2, fun rule => ?_, fun rule hrest => ?_⟩
  · by_cases hne : rule = check.rule
    · subst hne
      exact hthis.1
    · exact (hothers rule hne).frame (hother rule hne) (ruleState_setState_of_ne hne s state) rfl
  · by_cases hne : rule = check.rule
    · subst hne
      exact hthis.2
    · exact (haligned rule (by rw [isChecked_cons_of_ne hne, hrest])).frame (hother rule hne) rfl

lemma inv_applyAll {settings : AlertSettings} (now : ℤ) {checks : List RuleCheck}
    (h : Ready s settings checks) : Inv (applyAll settings now s checks) := by
  induction checks generalizing s with
  | nil => exact fun rule => ⟨(h.idle rule).frame rfl rfl rfl, (h.aligned rule rfl).frame rfl rfl⟩
  | cons check rest ih =>
    unfold applyAll
    cases hbegin : beginApply (ruleState s check.rule) check.active now with
    | mk state notice =>
      have hidle := h.idle check.rule
      cases notice with
      | none =>
        simp only
        apply ih
        exact ready_of_checked h.destination h.valid h.distinct hidle.toSound
          (fun rule _ => h.idle rule) h.aligned (hidle.tracks.quiet hbegin)
      | some notice =>
        -- the message goes out, with the rule waiting for it
        refine ⟨h.destination, h.valid, h.distinct, ?_, fun rule hne => ?_, fun rule hrule => ?_⟩
        · refine ⟨⟨hidle.legal, hidle.valid⟩, ruleState s check.rule, hidle.tracks, ?_⟩
          refine hbegin.trans (congrArg (·, some notice) ?_)
          exact (ruleState_setState s check.rule state).symm
        · exact (h.idle rule).frame rfl (ruleState_setState_of_ne hne s state) rfl
        · exact (h.aligned rule hrule).frame rfl rfl

/-! ### Before the checks -/

lemma collectChecks_distinct (p : Platform) (settings : AlertSettings) (c : Conditions) :
    (collectChecks p settings c).Pairwise fun c c' => c.rule ≠ c'.rule := by
  unfold collectChecks
  split_ifs <;> simp [creditsLowCheck, fallbackRateCheck, circuitOpenCheck]

/-- Under a new destination no rule has a state, and no period goes on. -/
lemma idle_setDestination (h : Idle s rule) (ha : Aligned s rule) (destination : String) :
    Idle (setDestination s destination) rule := by
  unfold setDestination
  split_ifs with hne
  · refine ⟨⟨h.legal, h.valid⟩, ?_⟩
    have hnone : currentChecks { s with states := ∅, destination := destination } rule = [] := by
      unfold currentChecks
      cases hc : (timeline rule s.log).current with
      | none => rfl
      | some period =>
        have hkey : period.audience.key ≠ destination := fun heq =>
          hne (heq.symm.trans (ha period hc))
        simp only [hkey, if_false]
    rw [hnone]
    exact tracks_nil
  · exact h

lemma setDestination_destination (s : System) (destination : String) :
    (setDestination s destination).destination = destination := by
  unfold setDestination
  split_ifs with h
  · rfl
  · exact (not_ne_iff.mp h).symm

lemma get_foldl_delete (keep : RuleName → Bool) (rules : List RuleName)
    (m : JsMap RuleName RuleState) (rule : RuleName) :
    (rules.foldl (fun states rule => if keep rule then states else states.delete rule) m).get rule =
      if rule ∈ rules ∧ keep rule = false then none else m.get rule := by
  induction rules generalizing m with
  | nil => simp
  | cons r rules ih =>
    rw [List.foldl_cons, ih]
    by_cases hr : rule = r
    · subst hr
      cases hkeep : keep rule <;> simp
    · cases hkeep : keep r <;> simp [hr]

/-- A rule that is not checked has no state any more. -/
lemma ruleState_forgetRules (s : System) (checks : List RuleCheck) (rule : RuleName) :
    ruleState (forgetRules s checks) rule =
      if isChecked checks rule then ruleState s rule else {} := by
  have hget := get_foldl_delete (isChecked checks) (s.states.entries.map Prod.fst) s.states rule
  unfold ruleState
  show ((_ : JsMap RuleName RuleState).get rule).getD {} = _
  rw [show (forgetRules s checks).states.get rule = _ from hget]
  by_cases hchecked : isChecked checks rule = true
  · simp [hchecked]
  · rw [if_neg hchecked]
    split_ifs with hmem
    · rfl
    · -- there was none before
      cases hold : s.states.get rule with
      | none => rfl
      | some state =>
        have hin : rule ∈ s.states.entries.map Prod.fst :=
          List.mem_map_of_mem (f := Prod.fst) (JsMap.mem_entries.mpr hold)
        exact absurd ⟨hin, by simpa using hchecked⟩ hmem

lemma timeline_switchedOff (rule : RuleName) (off : List RuleName) (log : List Entry) :
    timeline rule (log ++ off.map .switchedOff) =
      if rule ∈ off then (timeline rule log).close else timeline rule log := by
  unfold timeline
  rw [List.foldl_append]
  generalize log.foldl (Timeline.next rule) {} = t
  induction off generalizing t with
  | nil => simp
  | cons r off ih =>
    rw [List.map_cons, List.foldl_cons, ih]
    by_cases hr : rule = r
    · subst hr
      simp [Timeline.next, Timeline.close, Timeline.periods]
    · simp [Timeline.next, hr, Ne.symm hr]

lemma timeline_forgetRules (s : System) (checks : List RuleCheck) (rule : RuleName) :
    timeline rule (forgetRules s checks).log =
      if isChecked checks rule then timeline rule s.log else (timeline rule s.log).close := by
  have hmem : rule ∈ [RuleName.creditsLow, .fallbackRate, .circuitOpen].filter
      (fun rule => !isChecked checks rule) ↔ isChecked checks rule = false := by
    cases rule <;> simp
  show timeline rule (s.log ++ _) = _
  rw [timeline_switchedOff]
  by_cases hchecked : isChecked checks rule = true
  · rw [if_neg (by rw [hmem, hchecked]; simp), if_pos hchecked]
  · rw [if_pos (hmem.mpr (by simpa using hchecked)), if_neg hchecked]

lemma ready_forgetRules {settings : AlertSettings} {checks : List RuleCheck}
    (hd : settings.destination = s.destination) (hvalid : settings.audience.Valid)
    (hdistinct : checks.Pairwise fun c c' => c.rule ≠ c'.rule) (hidle : ∀ rule, Idle s rule) :
    Ready (forgetRules s checks) settings checks := by
  have hoff : ∀ rule, isChecked checks rule = false →
      Idle (forgetRules s checks) rule ∧ Aligned (forgetRules s checks) rule := by
    intro rule hrule
    refine idle_of_closed (hidle rule).toSound ?_ ?_
    · rw [timeline_forgetRules, if_neg (by simp [hrule])]
    · rw [ruleState_forgetRules, if_neg (by simp [hrule])]
  refine ⟨hd, hvalid, hdistinct, fun rule => ?_, fun rule hrule => (hoff rule hrule).2⟩
  by_cases hrule : isChecked checks rule = true
  · refine (hidle rule).frame ?_ ?_ rfl
    · rw [timeline_forgetRules, if_pos hrule]
    · rw [ruleState_forgetRules, if_pos hrule]
  · exact (hoff rule (by simpa using hrule)).1

lemma inv_evaluateSettings {p : Platform} (h : ∀ rule, Idle s rule ∧ Aligned s rule) (now : ℤ)
    (stored : StoredSettings) (conditions : Conditions) :
    Inv (evaluateSettings p s now stored conditions) := by
  unfold evaluateSettings
  cases hload : loadSettings p stored with
  | none =>
    intro rule
    refine idle_of_closed (h rule).1.toSound ?_ rfl
    exact timeline_logEntry _ _ rule
  | some settings =>
    apply inv_applyAll
    apply ready_forgetRules
    · exact (setDestination_destination s _).symm
    · exact loadSettings_valid hload
    · exact collectChecks_distinct p settings conditions
    · exact fun rule => idle_setDestination (h rule).1 (h rule).2 settings.destination

theorem inv_step {p : Platform} {e : Event} (h : Inv s) (hs : step p s e = some s') : Inv s' := by
  cases e with
  | evaluate now =>
    simp only [step] at hs
    split_ifs at hs with hrunning
    · cases hs
      exact h
    · cases hs
      have hnone : s.evaluating = none := by simpa using hrunning
      unfold Inv at h
      rw [hnone] at h
      exact fun rule => ⟨(h rule).1.frame rfl rfl rfl, (h rule).2.frame rfl rfl⟩
  | loaded stored conditions =>
    simp only [step] at hs
    split at hs
    · rename_i now hstage
      cases hs
      unfold Inv at h
      rw [hstage] at h
      exact inv_evaluateSettings h now stored conditions
    · cases hs
  | failed =>
    simp only [step] at hs
    split at hs
    · rename_i now hstage
      cases hs
      unfold Inv at h
      rw [hstage] at h
      exact fun rule => ⟨(h rule).1.frame rfl rfl rfl, (h rule).2.frame rfl rfl⟩
    · cases hs
  | answered delivered =>
    simp only [step] at hs
    split at hs
    · rename_i settings now check notice rest hstage
      cases hs
      unfold Inv at h
      rw [hstage] at h
      obtain ⟨hd, hvalid, hdistinct, hwaiting, hothers, haligned⟩ := h
      obtain ⟨state, htracks, hbegin⟩ := hwaiting.tracks
      apply inv_applyAll
      exact ready_of_checked hd hvalid hdistinct hwaiting.toSound hothers haligned
        (htracks.sent hbegin (message settings check notice) delivered)
    · cases hs

lemma inv_start : Inv {} := by
  intro rule
  have hnone : ∀ period, (timeline rule []).current ≠ some period := fun period hp => by cases hp
  refine ⟨⟨⟨fun period hp => ?_, fun period hp => ?_⟩, tracks_nil⟩, fun period hp => ?_⟩
  · cases hp
  · exact absurd hp (hnone period)
  · exact absurd hp (hnone period)

lemma Inv.sound (h : Inv s) (rule : RuleName) : Sound s rule := by
  unfold Inv at h
  split at h
  · obtain ⟨-, -, -, hwaiting, hothers, -⟩ := h
    rename_i check notice rest hstage
    by_cases hne : rule = check.rule
    · subst hne
      exact hwaiting.toSound
    · exact (hothers rule hne).toSound
  · exact (h rule).1.toSound

/-! ## Messages -/

/-- A message in the log says what it is, and went to the audience of its settings. -/
def Entry.Faithful : Entry → Prop
  | .checked rule settings _ active (some sent) =>
    sent.message.To settings.audience ∧ ∃ check : RuleCheck, check.rule = rule ∧
      check.active = active ∧ sent.message.text = messageMark ++ " " ++ noticeText check sent.notice
  | _ => True

/-- The log grows by faithful entries. -/
def LogsFaithfully (s s' : System) : Prop := ∀ entry ∈ s'.log, entry ∈ s.log ∨ entry.Faithful

lemma logsFaithfully_applyAll (settings : AlertSettings) (now : ℤ) (s : System)
    (checks : List RuleCheck) : LogsFaithfully s (applyAll settings now s checks) := by
  induction checks generalizing s with
  | nil => exact fun entry he => Or.inl he
  | cons check rest ih =>
    unfold applyAll
    intro entry he
    cases hnotice : (beginApply (ruleState s check.rule) check.active now).2 with
    | none =>
      simp only [hnotice] at he
      rcases ih _ entry he with hold | hnew
      · rcases List.mem_append.mp hold with hold | hnew
        · exact Or.inl hold
        · obtain rfl := List.mem_singleton.mp hnew
          exact Or.inr trivial
      · exact Or.inr hnew
    | some notice =>
      simp only [hnotice] at he
      exact Or.inl he

lemma logsFaithfully_step {p : Platform} {e : Event} (hs : step p s e = some s') :
    LogsFaithfully s s' := by
  intro entry he
  cases e with
  | evaluate now =>
    simp only [step] at hs
    split_ifs at hs <;> cases hs <;> exact Or.inl he
  | loaded stored conditions =>
    simp only [step] at hs
    split at hs
    · cases hs
      unfold evaluateSettings at he
      cases hload : loadSettings p stored with
      | none =>
        simp only [hload] at he
        rcases List.mem_append.mp he with hold | hnew
        · exact Or.inl hold
        · obtain rfl := List.mem_singleton.mp hnew
          exact Or.inr trivial
      | some settings =>
        simp only [hload] at he
        rcases logsFaithfully_applyAll _ _ _ _ entry he with hold | hnew
        · rcases List.mem_append.mp hold with hold | hnew
          · refine Or.inl ?_
            unfold setDestination at hold
            split_ifs at hold <;> exact hold
          · obtain ⟨rule, -, rfl⟩ := List.mem_map.mp hnew
            exact Or.inr trivial
        · exact Or.inr hnew
    · cases hs
  | failed =>
    simp only [step] at hs
    split at hs <;> cases hs
    exact Or.inl he
  | answered delivered =>
    simp only [step] at hs
    split at hs
    · rename_i settings now check notice rest hstage
      cases hs
      rcases logsFaithfully_applyAll _ _ _ _ entry he with hold | hnew
      · rcases List.mem_append.mp hold with hold | hnew
        · exact Or.inl hold
        · obtain rfl := List.mem_singleton.mp hnew
          exact Or.inr ⟨⟨rfl, rfl⟩, check, rfl, rfl, rfl⟩
      · exact Or.inr hnew
    · cases hs

/-! ## Main result -/

/-- **The alert protocol**: for every sequence of calls, with any settings, conditions and
deliveries, and for every rule in every period of one destination with the rule on. -/
theorem alert_protocol (p : Platform) (events : List Event) (s : System)
    (hrun : run (step p) {} events = some s) :
    (∀ rule, ∀ period ∈ (timeline rule s.log).periods,
      Protocol reminderMs resolveAfterCleanChecks period.checks) ∧
    ∀ entry ∈ s.log, entry.Faithful := by
  have hinv : Inv s := run_invariant (fun _ _ _ h hs => inv_step h hs) inv_start hrun
  refine ⟨fun rule period hp => protocol_of_legal ((hinv.sound rule).legal period hp), ?_⟩
  refine run_invariant (I := fun s => ∀ entry ∈ s.log, entry.Faithful) (fun s e s' h hs => ?_) ?_
    hrun
  · exact fun entry he => (logsFaithfully_step hs entry he).elim (h entry) id
  · exact fun entry he => by cases he

/-- A configuration whose token has not been encrypted, on a platform without a cipher. -/
def samplePlatform : Platform where
  aes := ⟨fun _ _ _ => ([], []), fun _ _ _ _ => .error "unsupported"⟩
  firecrawlKeysEncryptionKey := ""
  toNumber _ := none
  numberToString _ := "0"
  percent _ _ := 0

def sampleStored : StoredSettings := ⟨none, none, some "42", some "1:aaaaaaaaaaaaaaaaaaaa"⟩

def sampleConditions (circuit : CircuitBreaker.CircuitState) : Conditions := ⟨0, 0, 0, 0, circuit⟩

/-- The circuit opens, and is closed again for three checks. -/
theorem alert_protocol_circuit : ∃ s : System,
    (timeline .circuitOpen s.log).periods = [⟨⟨"42", "1:aaaaaaaaaaaaaaaaaaaa"⟩,
      [⟨0, true, some .alert⟩, ⟨60000, false, none⟩, ⟨120000, false, none⟩,
        ⟨180000, false, some .resolved⟩]⟩] ∧
    ((∀ rule, ∀ period ∈ (timeline rule s.log).periods,
      Protocol reminderMs resolveAfterCleanChecks period.checks) ∧
    ∀ entry ∈ s.log, entry.Faithful) := by
  refine ⟨_, ?_, alert_protocol samplePlatform
    [.evaluate 0, .loaded sampleStored (sampleConditions .opened), .answered true,
      .evaluate 60000, .loaded sampleStored (sampleConditions .closed),
      .evaluate 120000, .loaded sampleStored (sampleConditions .closed),
      .evaluate 180000, .loaded sampleStored (sampleConditions .closed), .answered true] _ rfl⟩
  rfl

end Alerts
end FirecrawlGateway
