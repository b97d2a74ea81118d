import FirecrawlGateway.Common.UtilsTheorems
import FirecrawlGateway.Proxy.Policy

/-!
# Restrictions and nesting

What restricts a request is searched for in its whole body: a value that needs Cloud, headers with
credentials, a private target. Each of the three answers is whether one condition holds of something
in the body. So it is kept by everything around the value it comes from, and it does not depend on
the order in which the members of objects stand.
-/

namespace FirecrawlGateway
namespace Proxy

open JsonValue (Occurs Same DistinctNames)

/-! ## The three answers as searches -/

/-- The value is an object with sensitive headers in it. -/
def hasSensitiveMember (value : JsonValue) : Bool := (value.member "headers").any hasSensitiveName

/-- The value is the URL of a private host. -/
def isPrivateUrl (hostname : JsString → Option JsString) (value : JsonValue) : Bool :=
  (targetUrl value).any fun url => (hostname url).any isPrivateHostname

lemma requestNeedsCloud_required (pathname : String) (jsonBody : JsonValue) :
    (requestNeedsCloud pathname jsonBody).required =
      (isCloudOnlyPath pathname || jsonBody.walk.any fun value => (cloudReason value).isSome) := by
  rw [requestNeedsCloud, ← List.isSome_findSome?]
  split_ifs with hpath
  · simp [hpath]
  · cases jsonBody.walk.findSome? cloudReason <;> simp [hpath]

lemma hasSensitiveHeaders_eq (jsonBody : JsonValue) :
    hasSensitiveHeaders [] jsonBody = jsonBody.walk.any hasSensitiveMember := by
  rw [hasSensitiveHeaders, findObjectsByKey, List.any_filterMap]
  refine congrArg jsonBody.walk.any (funext fun value => ?_)
  rw [hasSensitiveMember]
  cases value.member "headers" <;> rfl

lemma hasPrivateTargetUrl_eq (hostname : JsString → Option JsString) (jsonBody : JsonValue) :
    hasPrivateTargetUrl hostname (collectTargetUrls jsonBody) =
      jsonBody.walk.any (isPrivateUrl hostname) := by
  rw [Bool.eq_iff_iff, hasPrivateTargetUrl_iff, List.any_eq_true]
  constructor
  · rintro ⟨s, hoccurs, hurl, hprivate⟩
    refine ⟨_, hoccurs.mem_walk, ?_⟩
    rw [isPrivateUrl, targetUrl_eq_some.mpr ⟨rfl, hurl⟩]
    exact hprivate
  · rintro ⟨value, hmem, hvalue⟩
    obtain ⟨s, hs, hprivate⟩ := (Option.any_eq_true _ _).mp hvalue
    obtain ⟨rfl, hurl⟩ := targetUrl_eq_some.mp hs
    exact ⟨s, JsonValue.mem_walk_iff.mp hmem, hurl, hprivate⟩

/-! ## Values that are the same -/

section

variable {value other : JsonValue}

/-- A condition on a member that holds of all that is the same. -/
lemma member_any_of_same {p : JsonValue → Bool} (hp : ∀ u u', Same u u' → p u = true → p u' = true)
    (h : Same value other) (hother : DistinctNames other) {name : String}
    (hany : (value.member name).any p = true) : (other.member name).any p = true := by
  obtain ⟨u, hu, hpu⟩ := (Option.any_eq_true _ _).mp hany
  obtain ⟨u', hu', hsame⟩ := h.member hother hu
  exact (Option.any_eq_true _ _).mpr ⟨u', hu', hp u u' hsame hpu⟩

lemma isNonemptyArray_of_same (u u' : JsonValue) (h : Same u u') (hu : u.isNonemptyArray = true) :
    u'.isNonemptyArray = true := by
  cases u with
  | array items =>
    obtain ⟨others, rfl, hitems⟩ := h
    cases items with
    | nil => cases hu
    | cons item items =>
      obtain ⟨other, rest, rfl, -⟩ := hitems
      rfl
  | _ => cases hu

lemma truthy_of_same (u u' : JsonValue) (h : Same u u') (hu : u.truthy = true) :
    u'.truthy = true := by
  cases u with
  | null => cases hu
  | bool b | string s =>
    obtain rfl := h
    exact hu
  | number n =>
    obtain ⟨m, rfl, heq⟩ := h
    -- only the zeros are one number, and both are falsy
    cases n <;> cases m <;> simp_all [JsNumber.unsignedZero, JsonValue.truthy]
  | array items =>
    obtain ⟨others, rfl, -⟩ := h
    rfl
  | object members =>
    obtain ⟨others, rfl, -⟩ := h
    rfl

/-- `proxy` is `stealth` or `enhanced`. -/
def isManagedProxy : JsonValue → Bool
  | .string proxy => proxy = JsString.lit "stealth" ∨ proxy = JsString.lit "enhanced"
  | _ => false

lemma isManagedProxy_of_same (u u' : JsonValue) (h : Same u u') (hu : isManagedProxy u = true) :
    isManagedProxy u' = true := by
  cases u with
  | string s =>
    obtain rfl := h
    exact hu
  | _ => cases hu

lemma cloudReason_isSome (value : JsonValue) :
    (cloudReason value).isSome =
      ((value.member "actions").any JsonValue.isNonemptyArray ||
        (value.member "agent").any JsonValue.truthy ||
        (value.member "enterprise").any JsonValue.isNonemptyArray ||
        (value.member "proxy").any isManagedProxy) := by
  rw [cloudReason]
  split_ifs with hactions hagent henterprise
  · rw [hactions]
    rfl
  · rw [hagent]
    simp
  · rw [henterprise]
    simp
  · rw [Bool.not_eq_true] at hactions hagent henterprise
    rw [hactions, hagent, henterprise]
    cases value.member "proxy" with
    | none => rfl
    | some proxy =>
      cases proxy with
      | string s => by_cases hs : s = JsString.lit "stealth" ∨ s = JsString.lit "enhanced" <;>
          simp [isManagedProxy, hs]
      | _ => rfl

lemma cloudReason_of_same (h : Same value other) (hother : DistinctNames other)
    (hreason : (cloudReason value).isSome = true) : (cloudReason other).isSome = true := by
  rw [cloudReason_isSome] at hreason ⊢
  simp only [Bool.or_eq_true] at hreason ⊢
  refine hreason.imp (Or.imp (Or.imp ?_ ?_) ?_) ?_
  · exact member_any_of_same isNonemptyArray_of_same h hother
  · exact member_any_of_same truthy_of_same h hother
  · exact member_any_of_same isNonemptyArray_of_same h hother
  · exact member_any_of_same isManagedProxy_of_same h hother

lemma hasSensitiveName_of_same (u u' : JsonValue) (h : Same u u')
    (hu : hasSensitiveName u = true) : hasSensitiveName u' = true := by
  cases u with
  | object members =>
    obtain ⟨others, rfl, -, hmembers⟩ := h
    obtain ⟨m, hm, hname⟩ := List.any_eq_true.mp hu
    obtain ⟨u', hu', -⟩ := hmembers.exists_of_mem hm
    exact List.any_eq_true.mpr ⟨_, hu', hname⟩
  | _ => cases hu

lemma isPrivateUrl_of_same {hostname : JsString → Option JsString} (h : Same value other)
    (hurl : isPrivateUrl hostname value = true) : isPrivateUrl hostname other = true := by
  cases value with
  | string s =>
    obtain rfl := h
    exact hurl
  | _ => cases hurl

/-- A search for a condition that holds of all that is the same gives one answer. -/
lemma any_walk_eq_of_same {p : JsonValue → Bool}
    (hp : ∀ u u', Same u u' → DistinctNames u' → p u = true → p u' = true) (h : Same value other)
    (hvalue : DistinctNames value) (hother : DistinctNames other) :
    value.walk.any p = other.walk.any p := by
  rw [Bool.eq_iff_iff]
  exact ⟨h.any_walk hother hp, (h.symm hvalue hother).any_walk hvalue hp⟩

end

/-! ## Nesting -/

/-- A restriction that comes from a value holds for every body that has the value in it, and the
order of members, at any depth, changes none of the three answers. -/
theorem restrictions_of_nesting (hostname : JsString → Option JsString) (pathname : String)
    (w : JsonValue) :
    (∀ v, Occurs v w →
      ((requestNeedsCloud pathname v).required = true →
        (requestNeedsCloud pathname w).required = true) ∧
      (hasSensitiveHeaders [] v = true → hasSensitiveHeaders [] w = true) ∧
      (hasPrivateTargetUrl hostname (collectTargetUrls v) = true →
        hasPrivateTargetUrl hostname (collectTargetUrls w) = true)) ∧
    ∀ w', DistinctNames w → DistinctNames w' → Same w w' →
      (requestNeedsCloud pathname w).required = (requestNeedsCloud pathname w').required ∧
      hasSensitiveHeaders [] w = hasSensitiveHeaders [] w' ∧
      hasPrivateTargetUrl hostname (collectTargetUrls w) =
        hasPrivateTargetUrl hostname (collectTargetUrls w') := by
  simp only [requestNeedsCloud_required, hasSensitiveHeaders_eq, hasPrivateTargetUrl_eq,
    Bool.or_eq_true]
  refine ⟨fun v hoccurs => ⟨Or.imp_right hoccurs.any_walk, hoccurs.any_walk, hoccurs.any_walk⟩,
    fun w' hw hw' hsame => ⟨congrArg _ ?_, ?_, ?_⟩⟩
  · exact any_walk_eq_of_same (fun _ _ h hnames => cloudReason_of_same h hnames) hsame hw hw'
  · exact any_walk_eq_of_same
      (fun _ _ h hnames => member_any_of_same hasSensitiveName_of_same h hnames) hsame hw hw'
  · exact any_walk_eq_of_same (fun _ _ h _ => isPrivateUrl_of_same h) hsame hw hw'

/-- Headers with a secret in a list of requests, and a request with its two members exchanged. -/
theorem restrictions_of_nesting_swapped :
    hasSensitiveHeaders [] (.array [.object
      [(JsString.lit "headers", .object [(JsString.lit "X-Secret", .null)])]]) = true ∧
    (requestNeedsCloud "/v1/extract" (.object
        [(JsString.lit "agent", .bool true), (JsString.lit "url", .null)])).required =
      (requestNeedsCloud "/v1/extract" (.object
        [(JsString.lit "url", .null), (JsString.lit "agent", .bool true)])).required := by
  refine ⟨((restrictions_of_nesting (fun _ => none) "/v1/extract" _).1 _
      (.item List.mem_cons_self .here)).2.1 (by decide +kernel),
    ((restrictions_of_nesting (fun _ => none) "/v1/extract" _).2 _ ?_ ?_
      (.of_perm (.swap _ _ _))).1⟩
  all_goals
    intro members hmem
    rcases List.mem_cons.mp hmem with heq | hmem
    · obtain rfl := JsonValue.object.inj heq
      decide +kernel
    · simp [JsonValue.walkMembers, JsonValue.walk] at hmem

end Proxy
end FirecrawlGateway
