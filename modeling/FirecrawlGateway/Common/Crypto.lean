import FirecrawlGateway.Lib.Base64Url

/-!
# Encrypted settings

Model of `apps/api/src/common/crypto.ts`. AES-256-GCM is a parameter, as Node offers it: it takes
and returns text, which it encrypts as UTF-8.
-/

namespace FirecrawlGateway

/-! ## AES-256-GCM -/

/-- `createCipheriv("aes-256-gcm", key, iv)`, which gives a ciphertext and a tag, and
`createDecipheriv` with `setAuthTag`, which may throw. -/
structure Aes256Gcm where
  encrypt : (key iv : List UInt8) → (value : String) → List UInt8 × List UInt8
  decrypt : (key iv tag ciphertext : List UInt8) → Except String String

/-- Decryption inverts encryption under the same key. -/
def Aes256Gcm.Inverts (aes : Aes256Gcm) : Prop :=
  ∀ key iv value, aes.decrypt key iv (aes.encrypt key iv value).2 (aes.encrypt key iv value).1 =
    .ok value

/-! ## Keys -/

def hexValue (c : Char) : Option ℕ :=
  if c.isDigit then some (c.toNat - 48)
  else if 'a' ≤ c ∧ c ≤ 'f' then some (c.toNat - 87)
  else if 'A' ≤ c ∧ c ≤ 'F' then some (c.toNat - 55)
  else none

/-- `Buffer.from(key, "hex")`, for digits. -/
def hexBytes : List ℕ → List UInt8
  | high :: low :: digits => (high * 16 + low).toUInt8 :: hexBytes digits
  | _ => []

/-- `/^[0-9a-fA-F]{64}$/`. -/
def isEncryptionKey (key : String) : Bool :=
  key.toList.length = 64 ∧ key.toList.all fun c => (hexValue c).isSome

def encryptionKey (key : String) : Except String (List UInt8) :=
  if ¬isEncryptionKey key then
    .error "FIRECRAWL_KEYS_ENCRYPTION_KEY must be a 64-character hex string"
  else .ok (hexBytes (key.toList.filterMap hexValue))

/-! ## Settings -/

/-- `` `${ENCRYPTION_PREFIX}:` ``. -/
def encryptionMark : List Char := "enc:v1:".toList

/-- A value that starts with the mark. -/
def IsEncrypted (value : String) : Prop := encryptionMark <+: value.toList

instance : DecidablePred IsEncrypted := fun value =>
  inferInstanceAs (Decidable (encryptionMark <+: value.toList))

/-- The marks `enc` and `v1`, which make up `ENCRYPTION_PREFIX`, and what they stand before. -/
def sealedParts (iv tag ciphertext : List UInt8) : List (List Char) :=
  ["enc".toList, "v1".toList, Base64Url.encode iv, Base64Url.encode tag,
    Base64Url.encode ciphertext]

/-- `iv` is what `randomBytes(12)` gave. -/
def encryptSettingValue (aes : Aes256Gcm) (value key : String) (iv : List UInt8) :
    Except String String := do
  let (ciphertext, tag) := aes.encrypt (← encryptionKey key) iv value
  pure (String.ofList ([':'].intercalate (sealedParts iv tag ciphertext)))

structure Decrypted where
  value : String
  encrypted : Bool
deriving DecidableEq, Repr

def decryptSettingValue (aes : Aes256Gcm) (value key : String) : Except String Decrypted :=
  if ¬IsEncrypted value then .ok ⟨value, false⟩
  else match value.toList.splitOn ':' with
    | [_, _, ivEncoded, tagEncoded, ciphertextEncoded] => do
      let plaintext ← aes.decrypt (← encryptionKey key) (Base64Url.decode ivEncoded)
        (Base64Url.decode tagEncoded) (Base64Url.decode ciphertextEncoded)
      pure ⟨plaintext, true⟩
    | _ => .error "Invalid encrypted Firecrawl API key setting"

/-! ## Round trip -/

lemma colon_not_mem_encode (bytes : List UInt8) : ':' ∉ Base64Url.encode bytes := by
  intro h
  have := Base64Url.digitValue_of_mem_encode h
  revert this
  decide

lemma splitOn_sealedParts (iv tag ciphertext : List UInt8) :
    ([':'].intercalate (sealedParts iv tag ciphertext)).splitOn ':' =
      sealedParts iv tag ciphertext := by
  apply List.splitOn_intercalate
  · intro part hpart
    simp only [sealedParts, List.mem_cons, List.not_mem_nil, or_false] at hpart
    rcases hpart with rfl | rfl | rfl | rfl | rfl
    · decide
    · decide
    · exact colon_not_mem_encode _
    · exact colon_not_mem_encode _
    · exact colon_not_mem_encode _
  · exact List.cons_ne_nil _ _

lemma encryptionKey_of_valid {key : String} (h : isEncryptionKey key) :
    encryptionKey key = .ok (hexBytes (key.toList.filterMap hexValue)) := by
  unfold encryptionKey
  rw [if_neg (not_not_intro h)]

/-- What was encrypted is in encrypted form, and is decrypted to the value it came from. -/
theorem decrypt_of_encrypt {aes : Aes256Gcm} (haes : aes.Inverts) {value key stored : String}
    {iv : List UInt8} (h : encryptSettingValue aes value key iv = .ok stored) :
    IsEncrypted stored ∧ decryptSettingValue aes stored key = .ok ⟨value, true⟩ := by
  unfold encryptSettingValue at h
  cases hkey : encryptionKey key with
  | error message =>
    rw [hkey] at h
    cases h
  | ok bytes =>
    rw [hkey] at h
    cases h
    have hmark : IsEncrypted (String.ofList ([':'].intercalate
        (sealedParts iv (aes.encrypt bytes iv value).2 (aes.encrypt bytes iv value).1))) := by
      unfold IsEncrypted
      rw [String.toList_ofList]
      exact ⟨_, rfl⟩
    refine ⟨hmark, ?_⟩
    unfold decryptSettingValue
    rw [if_neg (not_not_intro hmark), String.toList_ofList, splitOn_sealedParts, hkey]
    simp only [sealedParts, Base64Url.decode_encode, bind, Except.bind, haes bytes iv value]
    rfl

/-- A value that was not encrypted is left as it is. -/
lemma plain_of_decrypt {aes : Aes256Gcm} {value key : String} {decrypted : Decrypted}
    (h : decryptSettingValue aes value key = .ok decrypted) (hplain : decrypted.encrypted = false) :
    ¬ IsEncrypted value ∧ decrypted.value = value := by
  unfold decryptSettingValue at h
  split_ifs at h with hencrypted
  · -- a value that is decrypted was encrypted
    split at h
    · simp only [bind, Except.bind] at h
      split at h
      · cases h
      · split at h
        · cases h
        · cases h
          cases hplain
    · cases h
  · cases h
    exact ⟨hencrypted, rfl⟩

/-- Under a valid key every value can be encrypted. -/
lemma encrypt_of_valid (aes : Aes256Gcm) {key : String} (hkey : isEncryptionKey key)
    (value : String) (iv : List UInt8) :
    ∃ stored, encryptSettingValue aes value key iv = .ok stored := by
  unfold encryptSettingValue
  rw [encryptionKey_of_valid hkey]
  exact ⟨_, rfl⟩

end FirecrawlGateway
