import Mathlib.Data.Nat.Digits.Defs
import Mathlib.Logic.Equiv.Basic
import LingmoAuthenticate.Lib.Cbc

/-!
# The encryption of tokens: `encrypt/aes.go`, `aes.c` and `rsa.c` of the library, `utils.c` of PAM

A client encrypts what its user has typed with a key that it has made, and the service decrypts it.
Texts, keys and Go strings are lists of bytes. AES is a parameter: a permutation of the blocks for
each key. The lengths are Go's own on the side of the service, and C `int`s on that of the clients,
where an overflow and an access out of bounds are undefined.

* `decrypt_encrypt`: the service decrypts what it has encrypted itself.
* `clientEncrypt_eq_ok`: what a client sends, for every length that it can handle.
* `tokens_agree_iff`: clients and service agree exactly on the texts whose padded length is an
  `int`.
-/

namespace LingmoAuthenticate.Encrypt

open Lib

/-- Source: `AES_BLOCK_SIZE`, and `block.BlockSize()` of Go's `crypto/aes`. -/
abbrev aesBlockSize : ℕ := 16

/-- A block of AES. -/
abbrev AesBlock := Block UInt8 aesBlockSize

/-- How `Encrypt` and `Decrypt` fail: with a key of a size that AES has not, or on an input that is
not made of full blocks, which `Encrypt` and `Decrypt` tell with texts of their own. -/
inductive CryptError where
  | keySize (n : ℕ)
  | notFullBlocks
  | needMultiple
  deriving DecidableEq, Repr

/-- The text of the error; that of the key is Go's `aes.KeySizeError`. -/
def CryptError.text : CryptError → String
  | .keySize n => s!"crypto/aes: invalid key size {n}"
  | .notFullBlocks => "crypto/cipher: input not full blocks"
  | .needMultiple => "need a multiple of the blockSize"

/-- How a Go function turns out: with a value, with an error, or with a panic. -/
inductive Answer (ε α : Type*) where
  | ok (a : α)
  | error (e : ε)
  | panics
  deriving DecidableEq, Repr

/-! ## Padding -/

/-- Source: `encrypt/aes.go`, `PKCS5Padding`. -/
def pkcs5Padding (cipherText : List UInt8) (blockSize : ℕ) : List UInt8 :=
  if blockSize = 0 then []
  else
    let padding := blockSize - cipherText.length % blockSize
    cipherText ++ List.replicate padding (UInt8.ofNat padding)

/-- An index or a slice out of range panics, which is `none`.
Source: `encrypt/aes.go`, `PKCS5UnPadding`. -/
def pkcs5UnPadding (origData : List UInt8) : Option (List UInt8) :=
  match origData.getLast? with
  | none => none
  | some last =>
      let padding := last.toNat
      if padding ≤ origData.length then some (origData.take (origData.length - padding)) else none

/-- A padded text is of full blocks. -/
theorem length_pkcs5Padding (p : List UInt8) :
    (pkcs5Padding p aesBlockSize).length = (p.length / aesBlockSize + 1) * aesBlockSize := by
  rw [pkcs5Padding, if_neg (by decide), List.length_append, List.length_replicate]
  unfold aesBlockSize
  omega

/-- The padding of a text is taken off again. -/
theorem pkcs5UnPadding_pkcs5Padding (p : List UInt8) :
    pkcs5UnPadding (pkcs5Padding p aesBlockSize) = some p := by
  obtain ⟨k, hk⟩ : ∃ k, aesBlockSize - p.length % aesBlockSize = k + 1 :=
    Nat.exists_eq_succ_of_ne_zero (Nat.sub_ne_zero_of_lt (Nat.mod_lt _ (by decide)))
  have hbound : k + 1 ≤ aesBlockSize := hk ▸ Nat.sub_le _ _
  have hbyte : (UInt8.ofNat (k + 1)).toNat = k + 1 := by
    rw [UInt8.toNat_ofNat']
    exact Nat.mod_eq_of_lt (Nat.lt_of_le_of_lt hbound (by decide))
  have hpad : pkcs5Padding p aesBlockSize = p ++ List.replicate (k + 1) (UInt8.ofNat (k + 1)) := by
    rw [pkcs5Padding, if_neg (by decide)]
    simp only [hk]
  have hlast : (p ++ List.replicate (k + 1) (UInt8.ofNat (k + 1))).getLast? =
      some (UInt8.ofNat (k + 1)) := by
    rw [List.replicate_succ', ← List.append_assoc, List.getLast?_concat]
  rw [hpad, pkcs5UnPadding, hlast]
  simp only [hbyte, List.length_append, List.length_replicate]
  rw [if_pos (by omega), Nat.add_sub_cancel, List.take_left]

/-! ## The service -/

section service

variable (aes : List UInt8 → Equiv.Perm AesBlock)

/-- Source: Go's `aes.NewCipher`. -/
def newCipher (key : List UInt8) : Except CryptError (Equiv.Perm AesBlock) :=
  if key.length = 16 ∨ key.length = 24 ∨ key.length = 32 then .ok (aes key)
  else .error (.keySize key.length)

/-- The initial vector: zeros only. -/
def zeroIv : AesBlock := List.Vector.replicate aesBlockSize 0

/-- Source: Go's `CryptBlocks` of `cipher.NewCBCEncrypter`, and `AES_cbc_encrypt`. -/
def cbcEncryptBlocks (perm : Equiv.Perm AesBlock) (src : List UInt8) : List UInt8 :=
  cbcEncrypt (· ^^^ ·) perm (src.length / aesBlockSize) zeroIv src

/-- Source: Go's `CryptBlocks` of `cipher.NewCBCDecrypter`. -/
def cbcDecryptBlocks (perm : Equiv.Perm AesBlock) (src : List UInt8) : List UInt8 :=
  cbcDecrypt (· ^^^ ·) perm.symm (src.length / aesBlockSize) zeroIv src

/-- Source: `encrypt/aes.go`, `Decrypt`. -/
def decrypt (cipherText key : List UInt8) : Answer CryptError (List UInt8) :=
  match newCipher aes key with
  | .error err => .error err
  | .ok perm =>
      if cipherText.length % aesBlockSize ≠ 0 then .error .notFullBlocks
      else
        match pkcs5UnPadding (cbcDecryptBlocks perm cipherText) with
        | some text => .ok text
        | none => .panics

/-- Source: `encrypt/aes.go`, `Encrypt`. -/
def encrypt (src key : List UInt8) : Except CryptError (List UInt8) :=
  match newCipher aes key with
  | .error err => .error err
  | .ok perm =>
      let src := pkcs5Padding src aesBlockSize
      if src.length % aesBlockSize ≠ 0 then .error .needMultiple
      else .ok (cbcEncryptBlocks perm src)

variable {aes}

theorem xor_xor (a b : UInt8) : a ^^^ b ^^^ b = a := by
  rw [UInt8.xor_assoc, UInt8.xor_self, UInt8.xor_zero]

/-- What is decrypted block by block is what was encrypted so. -/
theorem cbcDecryptBlocks_cbcEncryptBlocks (perm : Equiv.Perm AesBlock) {src : List UInt8} {k : ℕ}
    (h : src.length = k * aesBlockSize) :
    cbcDecryptBlocks perm (cbcEncryptBlocks perm src) = src := by
  have hk : src.length / aesBlockSize = k := by rw [h, Nat.mul_div_cancel _ (by decide)]
  rw [cbcDecryptBlocks, cbcEncryptBlocks, length_cbcEncrypt, hk, Nat.mul_div_cancel _ (by decide)]
  exact cbcDecrypt_cbcEncrypt xor_xor perm.symm_apply_apply h

/-- A text is encrypted wherever the key is one. -/
theorem encrypt_eq_ok {src key : List UInt8} (hkey : newCipher aes key = .ok (aes key)) :
    encrypt aes src key = .ok (cbcEncryptBlocks (aes key) (pkcs5Padding src aesBlockSize)) := by
  rw [encrypt, hkey]
  simp only [length_pkcs5Padding, Nat.mul_mod_left, ne_eq, not_true_eq_false, if_false]

/-- The encryption of a padded text is decrypted to the text. -/
theorem decrypt_cbcEncryptBlocks {key : List UInt8} (hkey : newCipher aes key = .ok (aes key))
    (text : List UInt8) :
    decrypt aes (cbcEncryptBlocks (aes key) (pkcs5Padding text aesBlockSize)) key = .ok text := by
  have hlen : (cbcEncryptBlocks (aes key) (pkcs5Padding text aesBlockSize)).length % aesBlockSize
      = 0 := by
    rw [cbcEncryptBlocks, length_cbcEncrypt, Nat.mul_mod_left]
  rw [decrypt, hkey]
  simp only [hlen, ne_eq, not_true_eq_false, if_false]
  rw [cbcDecryptBlocks_cbcEncryptBlocks _ (length_pkcs5Padding text), pkcs5UnPadding_pkcs5Padding]

/-- Decrypting panics where the padding that is claimed is longer than the text, or there is no
text. -/
theorem decrypt_eq_panics {cipherText key : List UInt8} :
    decrypt aes cipherText key = .panics ↔
      ∃ perm, newCipher aes key = .ok perm ∧ cipherText.length % aesBlockSize = 0 ∧
        pkcs5UnPadding (cbcDecryptBlocks perm cipherText) = none := by
  unfold decrypt
  rcases newCipher aes key with err | perm
  · simp
  · by_cases hfull : cipherText.length % aesBlockSize = 0
    · rcases hunpad : pkcs5UnPadding (cbcDecryptBlocks perm cipherText) with _ | text <;>
        simp [hfull, hunpad]
    · simp [hfull]

/-- Full blocks are never refused. -/
theorem decrypt_ne_error {cipherText key : List UInt8} {perm : Equiv.Perm AesBlock}
    (hkey : newCipher aes key = .ok perm) (hfull : cipherText.length % aesBlockSize = 0)
    (err : CryptError) : decrypt aes cipherText key ≠ .error err := by
  unfold decrypt
  rw [hkey]
  simp only [hfull, ne_eq, not_true_eq_false, if_false]
  split <;> simp

/-- **The service decrypts what it has encrypted itself.** -/
theorem decrypt_encrypt {src key c : List UInt8} (h : encrypt aes src key = .ok c) :
    decrypt aes c key = .ok src := by
  have hkey : newCipher aes key = .ok (aes key) := by
    unfold newCipher
    split_ifs with hsize
    · rfl
    · rw [encrypt, newCipher, if_neg hsize] at h
      cases h
  rw [encrypt_eq_ok hkey] at h
  cases h
  exact decrypt_cbcEncryptBlocks hkey src

end service

/-! ## The clients -/

/-- The largest C `int`. -/
def intMax : ℤ := 2 ^ 31 - 1

/-- A length as a C `int`, which is what `strlen` is cut down to by the callers. -/
def cInt (n : ℕ) : ℤ := Int.bmod n (2 ^ 32)

/-- How a C function fails: it does what C leaves undefined, or returns a code. -/
inductive Fault where
  | undefined
  | returns (code : ℤ)
  deriving DecidableEq, Repr

/-- `memcpy` into a buffer. -/
def memcpy (dst src : List UInt8) (n : ℕ) : List UInt8 := src.take n ++ dst.drop n

/-- The decimal digits, as `%d` prints them. -/
def decimal (n : ℕ) : List UInt8 := (Nat.toDigits 10 n).map fun c => UInt8.ofNat c.toNat

/-- What both generators of keys make of `rand()`. -/
def randomKey (rand : ℕ) : List UInt8 :=
  let randNum := (10000000 + rand % 10000000) % 100000000
  decimal randNum ++ decimal randNum

/-- Source: `rsa.c`, `create_symmetric_key`. -/
def createSymmetricKey (rand : ℕ) : List UInt8 := randomKey rand

/-- Source: `utils.c` of the PAM module, `gen_symmetric_key`. -/
def genSymmetricKey (rand : ℕ) : List UInt8 := randomKey rand

section clients

variable (aes : List UInt8 → Equiv.Perm AesBlock)

/-- Source: `AES_set_encrypt_key` of OpenSSL, where `none` is a negative code. -/
def aesSetEncryptKey (key : List UInt8) (bits : ℤ) : Option (Equiv.Perm AesBlock) :=
  if bits = 128 ∨ bits = 192 ∨ bits = 256 then some (aes (key.take (bits / 8).toNat)) else none

/-- What both copies of `aes_cbc_encrypt` do, memory aside: an `int` that overflows, a size that is
negative and so too large for `malloc`, and a copy from outside of the source are undefined. -/
def clientEncrypt (src : List UInt8) (srcLen : ℤ) (key : List UInt8) (keyLen : ℤ) :
    Except Fault (List UInt8) :=
  let quotient := srcLen.tdiv aesBlockSize
  let mod := srcLen.tmod aesBlockSize
  let blockCount := quotient + 1
  let padding := aesBlockSize - mod
  let size := aesBlockSize * blockCount
  if size < 0 ∨ intMax < size then .error .undefined
  else if srcLen < 0 ∨ src.length < srcLen ∨ key.length < keyLen ∨ intMax < keyLen * 8 then
    .error .undefined
  else
    let input := memcpy (List.replicate size.toNat (UInt8.ofNat padding.toNat)) src srcLen.toNat
    match aesSetEncryptKey aes key (keyLen * 8) with
    | none => .error (.returns (-1))
    | some perm => .ok (cbcEncryptBlocks perm input)

/-- Source: `aes.c` of the library, `aes_cbc_encrypt`. -/
def LibEncrypt.aesCbcEncrypt (src : List UInt8) (srcLen : ℤ) (key : List UInt8) (keyLen : ℤ) :
    Except Fault (List UInt8) :=
  clientEncrypt aes src srcLen key keyLen

/-- Source: `utils.c` of the PAM module, `aes_cbc_encrypt`. -/
def PamModule.aesCbcEncrypt (src : List UInt8) (srcLen : ℤ) (key : List UInt8) (keyLen : ℤ) :
    Except Fault (List UInt8) :=
  clientEncrypt aes src srcLen key keyLen

variable {aes}

/-- A length that is an `int` is kept. -/
theorem cInt_of_lt {n : ℕ} (h : n < 2 ^ 31) : cInt n = n := by
  unfold cInt
  rw [Int.bmod_eq_of_le] <;> omega

/-- **What a client sends**, of a length that it can handle. -/
theorem clientEncrypt_eq_ok {src key : List UInt8} {n : ℕ} (hsrc : n ≤ src.length)
    (hn : n < 2 ^ 31 - aesBlockSize) (hkey : key.length = 16) :
    clientEncrypt aes src n key (cInt key.length) =
      .ok (cbcEncryptBlocks (aes key) (pkcs5Padding (src.take n) aesBlockSize)) := by
  have hlen : (src.take n).length = n := List.length_take_of_le hsrc
  have hquot : (n : ℤ).tdiv aesBlockSize = (n / aesBlockSize : ℕ) := rfl
  have hmod : (n : ℤ).tmod aesBlockSize = (n % aesBlockSize : ℕ) := rfl
  -- the buffer is filled with padding, and the text is written over its beginning
  have hsize : ((aesBlockSize : ℤ) * ((n / aesBlockSize : ℕ) + 1)).toNat =
      n + (aesBlockSize - n % aesBlockSize) := by
    unfold aesBlockSize
    omega
  have hpad : ((aesBlockSize : ℤ) - (n % aesBlockSize : ℕ)).toNat =
      aesBlockSize - n % aesBlockSize := by
    unfold aesBlockSize
    omega
  have hinput : memcpy (List.replicate (n + (aesBlockSize - n % aesBlockSize))
      (UInt8.ofNat (aesBlockSize - n % aesBlockSize))) src n =
        pkcs5Padding (src.take n) aesBlockSize := by
    rw [memcpy, pkcs5Padding, if_neg (by decide), List.drop_replicate, Nat.add_sub_cancel_left]
    simp only [hlen]
  have hcipher : aesSetEncryptKey aes key 128 = some (aes key) := by
    rw [aesSetEncryptKey, if_pos (.inl rfl), List.take_of_length_le (by simp [hkey])]
  rw [clientEncrypt, hkey, cInt_of_lt (by decide)]
  simp only [hquot, hmod]
  rw [if_neg (by unfold aesBlockSize intMax; unfold aesBlockSize at hn; omega),
    if_neg (by unfold intMax; omega), hsize, hpad, Int.toNat_natCast, hinput]
  simp only [Nat.cast_ofNat, Int.reduceMul, hcipher]

/-- A length whose padding is no `int` is undefined. -/
theorem clientEncrypt_undefined {src key : List UInt8} {srcLen keyLen : ℤ}
    (h : srcLen < 0 ∨ intMax - aesBlockSize < srcLen) :
    clientEncrypt aes src srcLen key keyLen = .error .undefined := by
  unfold clientEncrypt
  rcases h with h | h
  · simp only [h, true_or, if_true, ite_self]
  · rw [if_pos]
    refine .inr ?_
    rw [Int.tdiv_eq_ediv_of_nonneg (by unfold intMax aesBlockSize at h; omega)]
    unfold intMax aesBlockSize at *
    omega

/-! ## Clients and service -/

/-- Both clients send the same for the text, which is what the service would make of it, and the
service decrypts that to the text. -/
def TokensAgree (aes : List UInt8 → Equiv.Perm AesBlock) (p key : List UInt8) : Prop :=
  ∃ c, LibEncrypt.aesCbcEncrypt aes p (cInt p.length) key (cInt key.length) = .ok c ∧
    PamModule.aesCbcEncrypt aes p (cInt p.length) key (cInt key.length) = .ok c ∧
    encrypt aes p key = .ok c ∧ decrypt aes c key = .ok p

/-- Sixteen digits. -/
def IsDigits (key : List UInt8) : Prop := key.length = 16 ∧ ∀ b ∈ key, 48 ≤ b ∧ b ≤ 57

/-- A number of eight digits is printed as eight digits. -/
theorem decimal_digits {n : ℕ} (hlow : 10 ^ 7 ≤ n) (hhigh : n < 10 ^ 8) :
    (decimal n).length = 8 ∧ ∀ b ∈ decimal n, 48 ≤ b ∧ b ≤ 57 := by
  constructor
  · have hle : (Nat.toDigits 10 n).length ≤ 8 :=
      (Nat.length_toDigits_le_iff (by decide) (by decide)).mpr hhigh
    have hgt : ¬ (Nat.toDigits 10 n).length ≤ 7 := by
      rw [Nat.length_toDigits_le_iff (by decide) (by decide)]
      exact Nat.not_lt.mpr hlow
    rw [decimal, List.length_map]
    omega
  · intro b hb
    obtain ⟨c, hc, rfl⟩ := List.mem_map.mp hb
    have hdigit := Nat.isDigit_of_mem_toDigits (by decide) (by decide) hc
    simp only [Char.isDigit, Bool.and_eq_true, decide_eq_true_eq] at hdigit
    obtain ⟨hzero, hnine⟩ := hdigit
    have hlow : 48 ≤ c.toNat := hzero
    have hhigh : c.toNat ≤ 57 := hnine
    rw [UInt8.le_iff_toNat_le, UInt8.le_iff_toNat_le, UInt8.toNat_ofNat',
      Nat.mod_eq_of_lt (by omega)]
    exact ⟨hlow, hhigh⟩

/-- **Every key that is generated has sixteen digits.** -/
theorem isDigits_randomKey (rand : ℕ) : IsDigits (randomKey rand) := by
  obtain ⟨hlen, hdigits⟩ := decimal_digits (n := (10000000 + rand % 10000000) % 100000000)
    (by omega) (by omega)
  constructor
  · rw [randomKey, List.length_append, hlen]
  · intro b hb
    rcases List.mem_append.mp hb with hb | hb <;> exact hdigits b hb

/-- What is agreed on with a key of the right size. -/
theorem tokensAgree_iff {p key : List UInt8} (hkey : key.length = 16) :
    TokensAgree aes p key ↔ p.length < 2 ^ 31 - aesBlockSize := by
  have hcipher : newCipher aes key = .ok (aes key) := if_pos (.inl hkey)
  constructor
  · rintro ⟨c, hlib, -, -, hdec⟩
    by_contra hlong
    rw [LibEncrypt.aesCbcEncrypt] at hlib
    by_cases hint : 0 ≤ cInt p.length ∧ cInt p.length ≤ intMax - aesBlockSize
    · -- the length has been cut down, and only the beginning of the text has been encrypted
      obtain ⟨n, hn⟩ := Int.eq_ofNat_of_zero_le hint.1
      have hsmall : n < 2 ^ 31 - aesBlockSize := by
        have hle := hn ▸ hint.2
        unfold intMax aesBlockSize at *
        omega
      have hle : n ≤ p.length := by omega
      rw [hn, clientEncrypt_eq_ok hle hsmall hkey] at hlib
      cases hlib
      rw [decrypt_cbcEncryptBlocks hcipher] at hdec
      have hsame : (p.take n).length = p.length := by
        have htake : p.take n = p := by simpa using hdec
        rw [htake]
      rw [List.length_take_of_le hle] at hsame
      omega
    · rw [clientEncrypt_undefined (by omega)] at hlib
      cases hlib
  · intro hshort
    have hint : cInt p.length = p.length := cInt_of_lt (by omega)
    have hclient : clientEncrypt aes p (cInt p.length) key (cInt key.length) =
        .ok (cbcEncryptBlocks (aes key) (pkcs5Padding p aesBlockSize)) := by
      rw [hint, clientEncrypt_eq_ok le_rfl hshort hkey, List.take_length]
    exact ⟨_, hclient, hclient, encrypt_eq_ok hcipher,
      decrypt_encrypt (encrypt_eq_ok hcipher)⟩

/-- **Clients and service agree on the encryption of a text** with a key that either client
generates, exactly if the length of the padded text is an `int`. -/
theorem tokens_agree_iff (aes : List UInt8 → Equiv.Perm AesBlock) (p : List UInt8) (rand : ℕ) :
    (∀ key ∈ [createSymmetricKey rand, genSymmetricKey rand],
      IsDigits key ∧ TokensAgree aes p key) ↔ p.length < 2 ^ 31 - aesBlockSize := by
  have hkey := isDigits_randomKey rand
  simp only [createSymmetricKey, genSymmetricKey, List.forall_mem_cons, List.not_mem_nil,
    false_imp_iff, implies_true, and_true, and_self, hkey, true_and, tokensAgree_iff hkey.1]

/-- A text whose padded length is one too many for an `int`. -/
theorem long_token_overflows :
    ¬ ∀ aes p rand, ∀ key ∈ [createSymmetricKey rand, genSymmetricKey rand],
      IsDigits key ∧ TokensAgree aes p key := by
  intro h
  have hagree :=
    (h (fun _ => Equiv.refl _) (List.replicate (2 ^ 31 - 16) 97) 0 _ (List.mem_cons_self ..)).2
  have hkey := (isDigits_randomKey 0).1
  rw [createSymmetricKey, tokensAgree_iff hkey, List.length_replicate] at hagree
  exact absurd hagree (by decide)

end clients

end LingmoAuthenticate.Encrypt
