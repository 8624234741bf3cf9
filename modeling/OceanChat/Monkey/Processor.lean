import OceanChat.Core.Aead
import OceanChat.Monkey.Header

/-!
# Encrypted payloads

An encrypted payload is the initialisation vector, the ciphertext and the tag,
one after the other.  The decoder finds the parts by counting from both ends.
-/

namespace OceanChat.Monkey

open ByteBuffer

namespace MonkeyProcessor

/-- `crypto.randomBytes(12)`. -/
abbrev Iv := List.Vector UInt8 12

def invalidKeyLength : CodecError :=
  .error "Invalid key length: AES-256-GCM requires a 32-byte key."

def invalidPayloadLength : CodecError :=
  .error "Invalid payload length: too short to contain IV and Auth Tag."

/-- The cipher of `aes-256-gcm`; `iv` is the one that is drawn. -/
def encrypt (cipher : Aead.Cipher CodecError) (iv : Iv) (payload key : Buffer) :
    Except CodecError Buffer :=
  if key.length ≠ 32 then .error invalidKeyLength
  else
    let (encrypted, authTag) := cipher.encrypt key iv.toList payload
    .ok (iv.toList ++ encrypted ++ authTag)

def decrypt (cipher : Aead.Cipher CodecError) (payload key : Buffer) :
    Except CodecError Buffer :=
  if key.length ≠ 32 then .error invalidKeyLength
  else if payload.length < 28 then .error invalidPayloadLength
  else
    let iv := subarray payload 0 12
    let authTag := payload.drop (payload.length - 16)
    let encryptedData := subarray payload 12 (payload.length - 16)
    cipher.decrypt key iv encryptedData authTag

/-- What is assumed of `aes-256-gcm`. -/
abbrev IsAes256Gcm (cipher : Aead.Cipher CodecError) : Prop :=
  cipher.Lawful 32 12 16

section Layout

variable {cipher : Aead.Cipher CodecError} {key payload plain : Buffer}

/-- The decoder takes the parts that were put together. -/
theorem decrypt_append (hkey : key.length = 32) {iv encrypted authTag : Buffer}
    (hiv : iv.length = 12) (htag : authTag.length = 16) :
    decrypt cipher (iv ++ encrypted ++ authTag) key =
      cipher.decrypt key iv encrypted authTag := by
  have hlength : (iv ++ encrypted ++ authTag).length - 16 =
      (iv ++ encrypted).length := by
    simp only [List.length_append]
    omega
  have hlong : ¬ (iv ++ encrypted ++ authTag).length < 28 := by
    simp only [List.length_append]
    omega
  rw [decrypt, if_neg (not_not.mpr hkey), if_neg hlong, hlength, ← hiv,
    subarray_head, subarray_middle, List.drop_left]

/-- A buffer is decrypted exactly if the cipher accepts the parts it splits
into. -/
theorem decrypt_eq_ok (hkey : key.length = 32) :
    decrypt cipher payload key = .ok plain ↔
      ∃ iv encrypted authTag : Buffer, iv.length = 12 ∧ authTag.length = 16 ∧
        payload = iv ++ encrypted ++ authTag ∧
        cipher.decrypt key iv encrypted authTag = .ok plain := by
  constructor
  · intro hplain
    rw [decrypt, if_neg (not_not.mpr hkey)] at hplain
    split at hplain
    · cases hplain
    · rename_i hlong
      refine ⟨_, _, _, ?_, ?_, (subarray_append_drop ?_).symm, hplain⟩
      · rw [length_subarray (by omega)]
      · rw [List.length_drop]
        omega
      · omega
  · rintro ⟨iv, encrypted, authTag, hiv, htag, rfl, hplain⟩
    rw [decrypt_append hkey hiv htag, hplain]

end Layout

/-- What was encrypted is decrypted, and what is decrypted is an initialisation
vector, a ciphertext and a tag that the cipher accepts, with no byte left over. -/
theorem roundTrip_and_layout (cipher : Aead.Cipher CodecError)
    (hcipher : IsAes256Gcm cipher) {key : Buffer} (hkey : key.length = 32) :
    (∀ (iv : Iv) (payload : Buffer), ∃ encrypted,
      encrypt cipher iv payload key = .ok encrypted ∧
        encrypted.length = payload.length + 28 ∧
        decrypt cipher encrypted key = .ok payload) ∧
    ∀ buffer plain, decrypt cipher buffer key = .ok plain →
      28 ≤ buffer.length ∧
        ∃ iv encrypted authTag : Buffer, iv.length = 12 ∧ authTag.length = 16 ∧
          buffer = iv ++ encrypted ++ authTag ∧
          cipher.decrypt key iv encrypted authTag = .ok plain := by
  constructor
  · intro iv payload
    have hiv := iv.toList_length
    have htag := hcipher.length_tag hkey hiv payload
    refine ⟨_, by rw [encrypt, if_neg (not_not.mpr hkey)], ?_, ?_⟩
    · simp only [List.length_append, hcipher.length_ciphertext hkey hiv, hiv, htag]
      omega
    · rw [decrypt_append hkey hiv htag]
      exact hcipher.decrypt_encrypt hkey hiv payload
  · intro buffer plain hplain
    obtain ⟨iv, encrypted, authTag, hiv, htag, rfl, hopen⟩ :=
      (decrypt_eq_ok hkey).mp hplain
    refine ⟨?_, iv, encrypted, authTag, hiv, htag, rfl, hopen⟩
    simp only [List.length_append]
    omega

/-- `aes-256-gcm` under a key and an initialisation vector of zeros, as far as
the empty payload and the payload `monkey` need it. -/
def zeroKeyGcm : Aead.Cipher CodecError :=
  .ofKeystream
    (fun _ _ index => [0xce, 0xa7, 0x40, 0x3d, 0x4d, 0x60].getD index 0)
    (fun _ _ ciphertext =>
      if ciphertext = [] then
        [0x53, 0x0f, 0x8a, 0xfb, 0xc7, 0x45, 0x36, 0xb9,
          0xa9, 0x63, 0xb4, 0xf1, 0xc4, 0xcb, 0x73, 0x8b]
      else
        [0xe2, 0xcd, 0x5c, 0x5c, 0x38, 0x42, 0x4d, 0x15,
          0x5b, 0x16, 0xf4, 0x49, 0x21, 0x3d, 0x30, 0xa2])
    (.error "Unsupported state or unable to authenticate data")

theorem isAes256Gcm_zeroKeyGcm : IsAes256Gcm zeroKeyGcm := by
  apply Aead.Cipher.lawful_ofKeystream
  intro key iv ciphertext
  split <;> rfl

def zeroKey : Buffer := List.replicate 32 0

def zeroIv : Iv := List.Vector.replicate 12 0

def monkey : Buffer := [0x6d, 0x6f, 0x6e, 0x6b, 0x65, 0x79]

theorem roundTrip_and_layout_of_zeroKey :
    (∃ encrypted, encrypt zeroKeyGcm zeroIv [] zeroKey = .ok encrypted ∧
      encrypted.length = 28 ∧ decrypt zeroKeyGcm encrypted zeroKey = .ok []) ∧
    (∃ encrypted, encrypt zeroKeyGcm zeroIv monkey zeroKey = .ok encrypted ∧
      encrypted.length = 34 ∧ decrypt zeroKeyGcm encrypted zeroKey = .ok monkey) ∧
    ∀ plain, decrypt zeroKeyGcm (List.replicate 27 0) zeroKey ≠ .ok plain := by
  obtain ⟨hroundTrip, hlayout⟩ :=
    @roundTrip_and_layout zeroKeyGcm isAes256Gcm_zeroKeyGcm zeroKey rfl
  refine ⟨hroundTrip zeroIv [], hroundTrip zeroIv monkey, ?_⟩
  intro plain hplain
  obtain ⟨hlong, -⟩ := hlayout _ _ hplain
  simp at hlong

end MonkeyProcessor

end OceanChat.Monkey
