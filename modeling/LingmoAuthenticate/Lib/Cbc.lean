import Mathlib.Data.List.TakeDrop
import Mathlib.Data.Vector.Zip

/-!
# Cipher block chaining

A text of symbols is cut into blocks of `n`. Each block is mixed with the block that was written
before it (the first one with the initial vector) and then enciphered. The mixing of two symbols is
a parameter, of which all that matters is that mixing twice with the same symbol changes nothing.

* `cbcDecrypt_cbcEncrypt`: where the decipherment undoes the encipherment of a block, the decrypted
  text is the one that was encrypted.
* `length_cbcEncrypt`: the length is kept.
-/

namespace LingmoAuthenticate.Lib

variable {α : Type*} {n : ℕ}

/-- A block of `n` symbols. -/
abbrev Block (α : Type*) (n : ℕ) := List.Vector α n

/-- The first block of a text; one that is cut short is filled up. -/
def firstBlock [Inhabited α] (n : ℕ) (text : List α) : Block α n :=
  ⟨text.takeD n default, List.takeD_length n text default⟩

/-- Where the text is long enough, the block is its beginning. -/
theorem toList_firstBlock [Inhabited α] {text : List α} (h : n ≤ text.length) :
    (firstBlock n text).toList = text.take n :=
  List.takeD_eq_take default h

/-- The first block of what begins with a block. -/
theorem firstBlock_append [Inhabited α] (b : Block α n) (text : List α) :
    firstBlock n (b.toList ++ text) = b :=
  Subtype.ext (List.takeD_left' b.toList_length)

/-- The rest of what begins with a block. -/
theorem drop_append_block (b : Block α n) (text : List α) : (b.toList ++ text).drop n = text :=
  List.drop_left' b.toList_length

/-- Mix two blocks, symbol by symbol. -/
def Block.mix (mix : α → α → α) (a b : Block α n) : Block α n := a.zipWith mix b

/-- Mixing twice with the same block changes nothing. -/
theorem Block.mix_mix {mix : α → α → α} (hmix : ∀ a b, mix (mix a b) b = a) (a b : Block α n) :
    (a.mix mix b).mix mix b = a := by
  ext i
  simp only [Block.mix, List.Vector.zipWith_get, hmix]

/-- A text of full blocks begins with a block, and the rest has one block less. -/
theorem blocks_succ {k : ℕ} {text : List α} (h : text.length = (k + 1) * n) :
    n ≤ text.length ∧ (text.drop n).length = k * n := by
  rw [Nat.succ_mul] at h
  rw [List.length_drop]
  omega

section chaining

variable [Inhabited α]

/-- Encrypt `k` blocks of the text. -/
def cbcEncrypt (mix : α → α → α) (encipher : Block α n → Block α n) :
    ℕ → Block α n → List α → List α
  | 0, _, _ => []
  | k + 1, iv, text =>
      let c := encipher ((firstBlock n text).mix mix iv)
      c.toList ++ cbcEncrypt mix encipher k c (text.drop n)

/-- Decrypt `k` blocks of the text. -/
def cbcDecrypt (mix : α → α → α) (decipher : Block α n → Block α n) :
    ℕ → Block α n → List α → List α
  | 0, _, _ => []
  | k + 1, iv, text =>
      let c := firstBlock n text
      ((decipher c).mix mix iv).toList ++ cbcDecrypt mix decipher k c (text.drop n)

@[simp] theorem length_cbcEncrypt (mix : α → α → α) (encipher : Block α n → Block α n) (k : ℕ)
    (iv : Block α n) (text : List α) : (cbcEncrypt mix encipher k iv text).length = k * n := by
  induction k generalizing iv text with
  | zero => simp [cbcEncrypt]
  | succ k ih =>
      simp only [cbcEncrypt, List.length_append, List.Vector.toList_length, ih]
      rw [Nat.succ_mul, Nat.add_comm]

variable {mix : α → α → α} {encipher decipher : Block α n → Block α n}

/-- **Decrypting undoes encrypting.** -/
theorem cbcDecrypt_cbcEncrypt (hmix : ∀ a b, mix (mix a b) b = a)
    (hinv : ∀ b, decipher (encipher b) = b) {k : ℕ} {iv : Block α n} {text : List α}
    (h : text.length = k * n) :
    cbcDecrypt mix decipher k iv (cbcEncrypt mix encipher k iv text) = text := by
  induction k generalizing iv text with
  | zero =>
      rw [Nat.zero_mul, List.length_eq_zero_iff] at h
      rw [h]
      rfl
  | succ k ih =>
      obtain ⟨hfirst, hrest⟩ := blocks_succ h
      simp only [cbcEncrypt, cbcDecrypt]
      rw [firstBlock_append, drop_append_block, hinv, Block.mix_mix hmix, ih hrest,
        toList_firstBlock hfirst, List.take_append_drop]

end chaining

end LingmoAuthenticate.Lib
