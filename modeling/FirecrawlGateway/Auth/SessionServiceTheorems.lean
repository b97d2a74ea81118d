import FirecrawlGateway.Auth.SessionService
import FirecrawlGateway.Lib.AsciiText

/-!
# What a cookie is worth

`getAdmin` accepts exactly the cookies that hold a session, and rejects the others, but for one kind
of cookie on which it throws: the lengths of the signatures are compared in UTF-16 code units, and
then the signatures in bytes, of which a text that is not ASCII has more.
-/

namespace FirecrawlGateway
namespace SessionService

variable (s : SessionService) (now : ℤ)

/-! ## Signatures -/

/-- A signature is 43 ASCII characters. -/
lemma sign_ascii (email : JsString) (issuedAt : ℤ) :
    (s.sign email issuedAt).length = 43 ∧ (s.sign email issuedAt).all JsString.isAscii = true := by
  constructor
  · rw [sign, List.length_map, Base64Url.length_encode, Vector.length_toList]
  · refine List.all_eq_true.mpr fun u hu => ?_
    obtain ⟨c, hc, rfl⟩ := List.mem_map.mp hu
    exact JsString.isAscii_unit (Base64Url.toNat_lt_of_mem_encode hc)

/-! ## Cookies -/

/-- The cookie has an issue time that is accepted now, and this signature. -/
def HasSignature (value signature : JsString) (issuedAt : ℤ) : Prop :=
  ∃ issuedAtText, value = issuedAtText ++ 0x2E :: signature ∧ isIssueTime issuedAtText = true ∧
    issuedAt = JsString.decimal issuedAtText ∧ inWindow now issuedAt

/-- The cookie is a session of the admin. -/
def IsSession (value : JsString) : Prop :=
  ∃ issuedAt, HasSignature now value (s.sign s.email issuedAt) issuedAt

/-- The signature of the cookie has the right number of code units, and is not ASCII. -/
def HasForeignSignature (value : JsString) : Prop :=
  ∃ signature issuedAt, HasSignature now value signature issuedAt ∧ signature.length = 43 ∧
    signature.all JsString.isAscii = false

variable {s now}

lemma dot_not_mem_issueTime {text : JsString} (h : isIssueTime text = true) :
    (0x2E : UInt16) ∉ text := by
  rw [isIssueTime, Bool.and_eq_true] at h
  exact fun hdot => absurd (List.all_eq_true.mp h.2 _ hdot) (by decide)

lemma issueTime_ne_nil {text : JsString} (h : isIssueTime text = true) : text ≠ [] := by
  rintro rfl
  exact absurd h (by decide)

/-- A cookie has one issue time and one signature. -/
lemma HasSignature.unique {value signature signature' : JsString} {issuedAt issuedAt' : ℤ}
    (h : HasSignature now value signature issuedAt)
    (h' : HasSignature now value signature' issuedAt') :
    signature = signature' ∧ issuedAt = issuedAt' := by
  obtain ⟨text, rfl, htext, rfl, -⟩ := h
  obtain ⟨text', heq, htext', rfl, -⟩ := h'
  have hsplit := congrArg (List.splitOn 0x2E) heq
  rw [List.splitOn_append_cons_self_of_not_mem (dot_not_mem_issueTime htext),
    List.splitOn_append_cons_self_of_not_mem (dot_not_mem_issueTime htext')] at hsplit
  obtain rfl := (List.cons.inj hsplit).1
  exact ⟨(List.cons.inj (List.append_cancel_left heq)).2, rfl⟩

/-- The text before the first dot, and what follows it. -/
lemma separator_eq {text signature : JsString} (h : (0x2E : UInt16) ∉ text) :
    (if 0x2E ∈ text ++ 0x2E :: signature then
      ((text ++ 0x2E :: signature).idxOf 0x2E : ℤ) else -1) = text.length := by
  rw [if_pos (by simp), List.idxOf_append, if_neg h, List.idxOf_cons_self, Nat.zero_add]

/-- On signatures of the right number of code units the comparison throws where there are more
bytes. -/
lemma timingSafeEqual_sign {signature : JsString} {issuedAt : ℤ} (hlength : signature.length = 43) :
    timingSafeEqual (JsString.toUtf8 signature) (JsString.toUtf8 (s.sign s.email issuedAt)) =
      if signature.all JsString.isAscii = true then
        .ok (decide (signature = s.sign s.email issuedAt))
      else .error "Input buffers must have the same byte length" := by
  obtain ⟨hsign, hascii⟩ := sign_ascii s s.email issuedAt
  have hbytes : (JsString.toUtf8 (s.sign s.email issuedAt)).length = 43 := by
    rw [(JsString.length_toUtf8 _).2.mpr hascii, hsign]
  rw [timingSafeEqual, hbytes]
  by_cases hsignature : signature.all JsString.isAscii = true
  · have heq := (JsString.length_toUtf8 signature).2.mpr hsignature
    have hinj : JsString.toUtf8 signature = JsString.toUtf8 (s.sign s.email issuedAt) ↔
        signature = s.sign s.email issuedAt :=
      ⟨JsString.toUtf8_inj hsignature hascii, congrArg _⟩
    rw [if_neg (by omega), if_pos hsignature]
    simp only [hinj]
  · have hne := mt (JsString.length_toUtf8 signature).2.mp hsignature
    rw [if_pos (by omega), if_neg hsignature]

section

variable (hemail : s.email ≠ []) (hpassword : s.config.adminPassword ≠ [])

include hemail hpassword

/-- What is decided after the separator. -/
lemma getAdmin_of_dot {text signature : JsString} (h : (0x2E : UInt16) ∉ text) (hne : text ≠ []) :
    s.getAdmin now (some (text ++ 0x2E :: signature)) =
      if ¬isIssueTime text then .ok none
      else if ¬inWindow now (JsString.decimal text) then .ok none
      else if signature.length ≠ 43 then .ok none
      else (timingSafeEqual (JsString.toUtf8 signature)
          (JsString.toUtf8 (s.sign s.email (JsString.decimal text)))).map
        fun equal => if equal then some ⟨s.email⟩ else none := by
  have hlength : ¬((text.length : ℤ) < 1) := by
    have := List.length_pos_iff.mpr hne
    omega
  have hdrop : (text ++ 0x2E :: signature).drop (text.length + 1) = signature := by
    rw [← List.drop_drop, List.drop_left' rfl]
    rfl
  have htake : (text ++ 0x2E :: signature).take text.length = text := List.take_left' rfl
  rw [getAdmin]
  simp only [Option.getD_some, separator_eq h, Int.toNat_natCast, htake, hdrop,
    (sign_ascii s _ _).1]
  rw [if_neg (not_or.mpr ⟨hemail, not_or.mpr ⟨hpassword, hlength⟩⟩)]

/-- With an issue time that is accepted, the signature decides. -/
lemma getAdmin_of_hasSignature {value signature : JsString} {issuedAt : ℤ}
    (h : HasSignature now value signature issuedAt) :
    s.getAdmin now (some value) =
      if signature.length ≠ 43 then .ok none
      else (timingSafeEqual (JsString.toUtf8 signature)
          (JsString.toUtf8 (s.sign s.email issuedAt))).map
        fun equal => if equal then some ⟨s.email⟩ else none := by
  obtain ⟨text, rfl, htext, rfl, hwindow⟩ := h
  rw [getAdmin_of_dot hemail hpassword (dot_not_mem_issueTime htext) (issueTime_ne_nil htext),
    if_neg (not_not.mpr htext), if_neg (not_not.mpr hwindow)]

/-- Every other cookie is rejected. -/
lemma getAdmin_of_not_hasSignature {value : JsString}
    (h : ∀ signature issuedAt, ¬HasSignature now value signature issuedAt) :
    s.getAdmin now (some value) = .ok none := by
  by_cases hdot : (0x2E : UInt16) ∈ value
  · obtain ⟨text, signature, rfl, htext⟩ := List.eq_append_cons_of_mem hdot
    by_cases hne : text = []
    · subst hne
      rw [getAdmin]
      exact if_pos (.inr (.inr (by simp)))
    · rw [getAdmin_of_dot hemail hpassword htext hne]
      by_cases htime : isIssueTime text = true
      · rw [if_neg (not_not.mpr htime), if_pos fun hwindow => h _ _ ⟨text, rfl, htime, rfl, hwindow⟩]
      · rw [if_pos htime]
  · rw [getAdmin]
    refine if_pos (.inr (.inr ?_))
    rw [Option.getD_some, if_neg hdot]
    norm_num

/-! ## The answers -/

/-- `getAdmin` answers with the admin for a session and with nothing for any other cookie, unless the
cookie has a signature of 43 code units that is not ASCII; for such a cookie it throws. -/
theorem getAdmin_total_iff (value : JsString) :
    (∃ admin, s.getAdmin now (some value) = .ok admin ∧
      (IsSession s now value → admin = some ⟨s.email⟩) ∧
      (¬IsSession s now value → admin = none)) ↔
      ¬HasForeignSignature now value := by
  by_cases hsignature : ∃ signature issuedAt, HasSignature now value signature issuedAt
  · obtain ⟨signature, issuedAt, h⟩ := hsignature
    have hsession : IsSession s now value ↔ signature = s.sign s.email issuedAt := by
      constructor
      · rintro ⟨time, hvalue⟩
        obtain ⟨hsign, rfl⟩ := h.unique hvalue
        exact hsign
      · rintro rfl
        exact ⟨issuedAt, h⟩
    have hforeign : HasForeignSignature now value ↔
        signature.length = 43 ∧ signature.all JsString.isAscii = false := by
      constructor
      · rintro ⟨other, time, hvalue, hother⟩
        rw [(h.unique hvalue).1]
        exact hother
      · exact fun hother => ⟨signature, issuedAt, h, hother⟩
    rw [getAdmin_of_hasSignature hemail hpassword h, hsession, hforeign]
    by_cases hlength : signature.length = 43
    · rw [if_neg (not_not.mpr hlength), timingSafeEqual_sign hlength]
      split_ifs with hascii
      · simp only [Except.map, Except.ok.injEq, exists_eq_left', hascii, Bool.true_eq_false, and_false,
          not_false_eq_true, iff_true]
        by_cases heq : signature = s.sign s.email issuedAt
        · simp [heq]
        · simp [heq]
      · simp [Except.map, hlength, hascii]
    · have hne : signature ≠ s.sign s.email issuedAt := by
        rintro rfl
        exact hlength (sign_ascii s s.email issuedAt).1
      rw [if_pos hlength]
      exact ⟨fun _ hother => hlength hother.1, fun _ => ⟨none, rfl, fun heq => absurd heq hne,
        fun _ => rfl⟩⟩
  · have hnone : ∀ signature issuedAt, ¬HasSignature now value signature issuedAt :=
      fun signature issuedAt h => hsignature ⟨signature, issuedAt, h⟩
    refine ⟨fun _ => ?_, fun _ => ⟨none, getAdmin_of_not_hasSignature hemail hpassword hnone, ?_,
      fun _ => rfl⟩⟩
    · rintro ⟨signature, issuedAt, h, -⟩
      exact hnone signature issuedAt h
    · rintro ⟨issuedAt, h⟩
      exact absurd h (hnone _ _)

end

/-- The guard throws just where `getAdmin` does. -/
lemma canActivate_eq (hauth : s.config.authEnabled = true) (cookie : Option JsString) :
    canActivate s now cookie = (s.getAdmin now cookie).map fun admin =>
      admin.elim (.deny 401 "Unauthorized") .activate := by
  rw [canActivate, if_neg (not_not.mpr hauth)]
  cases s.getAdmin now cookie with
  | error message => rfl
  | ok admin => cases admin <;> rfl

/-! ## Cookies that were set -/

/-- A number in decimal digits. -/
def decimalText (n : ℕ) : JsString := (Nat.toDigits 10 n).map fun c => c.toNat.toUInt16

lemma lit_toString (n : ℕ) : JsString.lit (toString (n : ℤ)) = decimalText n := by
  have htext : toString (n : ℤ) = String.ofList (Nat.toDigits 10 n) :=
    Nat.toString_eq_ofList_toDigits
  rw [htext, JsString.lit, String.toList_ofList]
  rfl

/-- A time in its text, which reads back. -/
lemma decimal_decimalText (n : ℕ) : JsString.decimal (decimalText n) = n ∧
    (decimalText n).all JsString.isDigit = true := by
  have hdigit : ∀ d < 10, (Nat.digitChar d).toNat.toUInt16.toNat - 0x30 = d ∧
      JsString.isDigit (Nat.digitChar d).toNat.toUInt16 = true := by decide
  induction n using Nat.strong_induction_on with
  | _ n ih =>
    by_cases hsmall : n < 10
    · obtain ⟨hvalue, hisDigit⟩ := hdigit n hsmall
      rw [decimalText, Nat.toDigits_of_lt_base hsmall]
      exact ⟨by simpa [JsString.decimal] using hvalue, by simp [hisDigit]⟩
    · obtain ⟨hvalue, hisDigit⟩ := hdigit (n % 10) (Nat.mod_lt _ (by norm_num))
      obtain ⟨hfront, hall⟩ := ih (n / 10) (by omega)
      have hsplit : decimalText n =
          decimalText (n / 10) ++ [(Nat.digitChar (n % 10)).toNat.toUInt16] := by
        rw [decimalText, Nat.toDigits_of_base_le (by norm_num) (not_lt.mp hsmall), List.map_append]
        rfl
      rw [hsplit]
      constructor
      · rw [JsString.decimal, List.reverse_append, List.reverse_singleton, List.singleton_append,
          List.map_cons, Nat.ofDigits_cons, hvalue]
        rw [JsString.decimal] at hfront
        rw [hfront]
        omega
      · rw [List.all_append, hall]
        simp [hisDigit]

/-- A cookie that was set is a session until it expires. -/
theorem isSession_setAdmin {issuedAt : ℕ} (hissued : issuedAt < 10 ^ 15)
    (hwindow : inWindow now issuedAt) : IsSession s now (s.setAdmin issuedAt) := by
  obtain ⟨hvalue, hdigits⟩ := decimal_decimalText issuedAt
  have hlength : (decimalText issuedAt).length ≤ 15 := by
    rw [decimalText, List.length_map]
    exact (Nat.length_toDigits_le_iff (by norm_num) (by norm_num)).mpr hissued
  have hpos : 1 ≤ (decimalText issuedAt).length := by
    rw [decimalText, List.length_map]
    exact Nat.length_toDigits_pos
  refine ⟨issuedAt, decimalText issuedAt, ?_, ?_, by rw [hvalue], hwindow⟩
  · rw [setAdmin, lit_toString, List.append_assoc]
    rfl
  · rw [isIssueTime, hdigits, decide_eq_true hpos, decide_eq_true hlength]
    rfl

/-! ## An admin -/

/-- A service with the signature that HMAC gives for one issue time. -/
def exampleService : SessionService where
  platform :=
    { toLowerCase := JsString.toLowerCase
      hmacSha256 := fun _ _ => #v[73, 42, 79, 233, 136, 11, 204, 102, 161, 59, 68, 122, 236, 222, 78,
        209, 100, 45, 142, 189, 210, 28, 102, 30, 240, 11, 5, 64, 43, 167, 128, 103] }
  config :=
    { authEnabled := true
      adminEmail := JsString.lit "Admin@Example.com"
      adminPassword := JsString.lit "correct-password" }
  secret := JsString.lit "test-session-secret"

/-- The cookie that was set a day ago is the admin's. -/
theorem getAdmin_total_iff_issued :
    exampleService.getAdmin 1767312000000 (some (JsString.lit
        "1767225600000.SSpP6YgLzGahO0R67N5O0WQtjr3SHGYe8AsFQCungGc")) =
      .ok (some ⟨JsString.lit "admin@example.com"⟩) := by
  have hcookie : JsString.lit "1767225600000.SSpP6YgLzGahO0R67N5O0WQtjr3SHGYe8AsFQCungGc" =
      exampleService.setAdmin (1767225600000 : ℕ) := by decide +kernel
  have hemail : exampleService.email = JsString.lit "admin@example.com" := by decide +kernel
  obtain ⟨issuedAt, hsignature⟩ : IsSession exampleService 1767312000000
      (exampleService.setAdmin (1767225600000 : ℕ)) :=
    isSession_setAdmin (by norm_num) (by decide)
  have hforeign : ¬HasForeignSignature 1767312000000
      (exampleService.setAdmin (1767225600000 : ℕ)) := by
    rintro ⟨signature, time, h, -, hascii⟩
    rw [(h.unique hsignature).1, (sign_ascii ..).2] at hascii
    exact absurd hascii (by decide)
  obtain ⟨admin, hadmin, hsome, -⟩ := (getAdmin_total_iff (s := exampleService)
    (by decide +kernel) (by decide +kernel) _).mpr hforeign
  rw [hcookie, hadmin, hsome ⟨issuedAt, hsignature⟩, hemail]

/-- One letter of the signature is not ASCII, and `getAdmin` throws. -/
theorem getAdmin_throws :
    ¬∀ value : JsString, ∃ admin,
      exampleService.getAdmin 1767312000000 (some value) = .ok admin := by
  intro h
  have hthrows : exampleService.getAdmin 1767312000000 (some (JsString.lit
      "1767225600000.éSpP6YgLzGahO0R67N5O0WQtjr3SHGYe8AsFQCungGc")) =
        .error "Input buffers must have the same byte length" := by decide +kernel
  obtain ⟨admin, hadmin⟩ := h (JsString.lit
    "1767225600000.éSpP6YgLzGahO0R67N5O0WQtjr3SHGYe8AsFQCungGc")
  rw [hthrows] at hadmin
  cases hadmin

end SessionService
end FirecrawlGateway
