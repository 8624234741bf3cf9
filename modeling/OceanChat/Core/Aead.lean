import OceanChat.Core.ByteBuffer

/-!
# Authenticated encryption

A cipher turns a payload into a ciphertext of the same length and a tag, and
turns these back.  A keystream with a tag over the ciphertext is such a cipher.
-/

namespace Aead

open ByteBuffer (Buffer)

/-- `encrypt` takes key, initialisation vector and payload, and `decrypt` key,
initialisation vector, ciphertext and tag. -/
structure Cipher (Error : Type) where
  encrypt : Buffer → Buffer → Buffer → Buffer × Buffer
  decrypt : Buffer → Buffer → Buffer → Buffer → Except Error Buffer

/-- What holds for keys and initialisation vectors of the right size. -/
structure Cipher.Lawful {Error : Type} (cipher : Cipher Error)
    (keySize ivSize tagSize : ℕ) : Prop where
  length_ciphertext : ∀ {key iv : Buffer}, key.length = keySize →
    iv.length = ivSize → ∀ payload,
      (cipher.encrypt key iv payload).1.length = payload.length
  length_tag : ∀ {key iv : Buffer}, key.length = keySize →
    iv.length = ivSize → ∀ payload,
      (cipher.encrypt key iv payload).2.length = tagSize
  decrypt_encrypt : ∀ {key iv : Buffer}, key.length = keySize →
    iv.length = ivSize → ∀ payload,
      cipher.decrypt key iv (cipher.encrypt key iv payload).1
        (cipher.encrypt key iv payload).2 = .ok payload

/-! ## Ciphers from a keystream -/

def mask (keystream : ℕ → UInt8) (bytes : Buffer) : Buffer :=
  bytes.mapIdx fun index byte => byte ^^^ keystream index

@[simp]
theorem length_mask (keystream : ℕ → UInt8) (bytes : Buffer) :
    (mask keystream bytes).length = bytes.length := by
  simp [mask]

/-- Masking twice with one keystream changes nothing. -/
@[simp]
theorem mask_mask (keystream : ℕ → UInt8) (bytes : Buffer) :
    mask keystream (mask keystream bytes) = bytes := by
  apply List.ext_getElem
  · simp
  · intro index hleft hright
    simp [mask]

/-- Encrypt with a keystream and authenticate the ciphertext. -/
def Cipher.ofKeystream {Error : Type} (keystream : Buffer → Buffer → ℕ → UInt8)
    (mac : Buffer → Buffer → Buffer → Buffer) (error : Error) : Cipher Error where
  encrypt key iv payload :=
    let ciphertext := mask (keystream key iv) payload
    (ciphertext, mac key iv ciphertext)
  decrypt key iv ciphertext tag :=
    if tag = mac key iv ciphertext then .ok (mask (keystream key iv) ciphertext)
    else .error error

theorem Cipher.lawful_ofKeystream {Error : Type}
    {keystream : Buffer → Buffer → ℕ → UInt8}
    {mac : Buffer → Buffer → Buffer → Buffer} {error : Error}
    {keySize ivSize tagSize : ℕ}
    (hmac : ∀ key iv ciphertext, (mac key iv ciphertext).length = tagSize) :
    (Cipher.ofKeystream keystream mac error).Lawful keySize ivSize tagSize where
  length_ciphertext _ _ payload := by simp [Cipher.ofKeystream]
  length_tag _ _ payload := hmac _ _ _
  decrypt_encrypt _ _ payload := by simp [Cipher.ofKeystream]

end Aead
