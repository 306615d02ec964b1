import LingmoAuthenticate.AuthCommon.AuthType
import LingmoAuthenticate.Encrypt.Aes
import LingmoAuthenticate.Lib.Machine

/-!
# What a client sends encrypted: `EncryptKey`, `SetSymmetricKey` and `SetToken`

A client asks for a public key, sends a symmetric key of its own under it, and tokens under that.
The session keeps the type of the key that was asked for, which is an index into the table of the
daemon. An entry of the table may be a nil interface, or, where no key pair could be made, an
interface that holds a nil pointer. RSA is a parameter of a key pair.

* `CryptoSession.call` is one call; a panic ends the daemon.
* `typed_step`: the type that is kept is that of the first entry, or `-1` for an empty table.
* `crypto_safe_iff`: no call of a run panics or takes a text with a false padding, exactly if no
  client asks for a negative type, the entries that are used are key pairs, and the padding of
  every token is right (`WellFormed`).
-/

namespace LingmoAuthenticate.Session

open Lib AuthCommon Encrypt

/-- Source: `encrypt/rsa.go`, `Rsa`; decrypting is Go's `rsa.DecryptPKCS1v15`. -/
structure Rsa where
  publicKey : String
  decryptPKCS1v15 : List UInt8 → Except String (List UInt8)

/-- An entry of the table: a nil interface, an interface with a nil pointer, or a key pair. -/
inductive AsymCrypt where
  | nil
  | nilRsa
  | rsa (r : Rsa)

/-- How the calls fail: the caller's program is not found or may not make the call, a call that may
be made once has been made, there is no key pair, or decrypting fails. -/
inductive CallError where
  | execPath (err : String)
  | notAllowed (execPath : String)
  | called
  | noCrypt
  | rsa (err : String)
  | decrypt (err : CallError)
  | permissionDenied
  deriving DecidableEq, Repr

/-- The texts of the errors. Source: `session/manager_ifc.go`, and `authenticate/manager.go`,
`Manager.DecryptAsymmetric`. -/
def CallError.text : CallError → String
  | .execPath err => err
  | .notAllowed path => s!"{path} is not allowed to call the interface"
  | .called => "you have called the interface"
  | .noCrypt => "cant get crypts of idx"
  | .rsa err => err
  | .decrypt err => s!"decrypt err: {err.text}"
  | .permissionDenied => "permission denied"

/-- An index of Go: one out of range panics, which is `none`. -/
def goIndex {α : Type*} (xs : List α) (i : ℤ) : Option α := if i < 0 then none else xs[i.toNat]?

/-- Source: `encrypt/rsa.go`, the constants of `RsaPaddingType`. -/
def paddingPKCS1 : ℤ := 1

/-- The error is dropped by the only caller. Source: `encrypt/rsa.go`, `Rsa.SupportFlags`. -/
def supportFlags (flags : List ℤ) : List ℤ :=
  if flags = [paddingPKCS1] then flags else [paddingPKCS1]

/-- Source: `encrypt/rsa.go`, `Rsa.PubkeyInfo`; the key of a nil pointer cannot be read. -/
def AsymCrypt.pubkeyInfo : AsymCrypt → Option (ℤ × String)
  | .nil | .nilRsa => none
  | .rsa r => some (0, r.publicKey)

/-- The daemon, which keeps its table for good. Source: `authenticate/manager.go`, `Manager`. -/
structure CryptoManager where
  crypts : List AsymCrypt

namespace CryptoManager

/-- `none` is a panic. Source: `authenticate/manager.go`, `Manager.QueryEncryptKey`. -/
def queryEncryptKey (m : CryptoManager) (t : ℤ) (rf : List ℤ) : Option (ℤ × List ℤ × String) :=
  if t < m.crypts.length then
    (goIndex m.crypts t).bind fun ac => ac.pubkeyInfo.map fun info =>
      (info.1, supportFlags rf, info.2)
  else if 0 < m.crypts.length then
    (goIndex m.crypts 0).bind fun ac => ac.pubkeyInfo.map fun info =>
      (info.1, supportFlags rf, info.2)
  else some (-1, [], "")

/-- Source: `authenticate/manager.go`, `Manager.DecryptAsymmetric`. -/
def decryptAsymmetric (m : CryptoManager) (t : ℤ) (data : List UInt8) :
    Answer CallError (List UInt8) :=
  match goIndex m.crypts t with
  | none => .panics
  | some .nil => .error .noCrypt
  | some .nilRsa => .panics
  | some (.rsa r) =>
      match r.decryptPKCS1v15 data with
      | .ok token => .ok token
      | .error err => .error (.rsa err)

end CryptoManager

/-- What the calls read and write of a session: who has opened it, by bus name and program, the
kinds of encryption that were agreed on, and the symmetric key.
Source: `session/manager.go`, `Manager`. -/
structure CryptoSession where
  verifySender : String
  prgPath : String
  algType : ℤ
  cryptFlags : List ℤ
  symmetricKey : List UInt8
  deriving DecidableEq, Repr

/-- A session at first. Source: `session/manager.go`, `NewManager`. -/
def CryptoSession.new (verifySender prgPath : String) : CryptoSession :=
  ⟨verifySender, prgPath, 0, [], []⟩

/-- A call of a client, with its arguments; `execPath` is what is found of the caller's program. -/
inductive CryptoCall where
  | encryptKey (encryptType : ℤ) (encryptMethod : List ℤ)
  | setSymmetricKey (execPath : Except String String) (key : List UInt8)
  | setToken (sender : String) (flag : ℤ) (token : List UInt8)

/-- What comes of a call: an answer to the client, or the password that is handed to the
transactions of the flag. -/
inductive Reply where
  | key (encType : ℤ) (encMethod : List ℤ) (pubKey : String)
  | done
  | password (flag : ℤ) (pw : List UInt8)
  | fails (err : CallError)
  | panics
  deriving DecidableEq, Repr

/-- Source: `authcommon/type.go`, `AllAuthenticationTypeMask`. -/
def allAuthenticationTypeMask : ℕ := allAuthTypes.foldl (fun mask t => mask ||| authTypeToFlag t) 0

namespace CryptoSession

section calls

variable (aes : List UInt8 → Equiv.Perm AesBlock) (m : CryptoManager)

/-- Source: `session/manager_ifc.go`, `Manager.EncryptKey`. -/
def encryptKey (s : CryptoSession) (encryptType : ℤ) (encryptMethod : List ℤ) :
    CryptoSession × Reply :=
  match m.queryEncryptKey encryptType encryptMethod with
  | none => (s, .panics)
  | some (encType, encMethod, pubKey) =>
      ({ s with algType := encType, cryptFlags := encMethod }, .key encType encMethod pubKey)

/-- Source: `session/manager_ifc.go`, `Manager.SetSymmetricKey`. -/
def setSymmetricKey (s : CryptoSession) (execPath : Except String String) (key : List UInt8) :
    CryptoSession × Reply :=
  match execPath with
  | .error err => (s, .fails (.execPath err))
  | .ok execPath =>
      if s.prgPath ≠ execPath then (s, .fails (.notAllowed execPath))
      else if s.symmetricKey ≠ [] then (s, .fails .called)
      else
        match m.decryptAsymmetric s.algType key with
        | .panics => (s, .panics)
        | .error err => (s, .fails (.decrypt err))
        | .ok symmetricKey => ({ s with symmetricKey }, .done)

/-- A token that cannot be decrypted is taken for the password itself.
Source: `session/manager_ifc.go`, `Manager.SetToken`, and `authenticate/manager.go`,
`Manager.DecryptSymmetric`. -/
def setToken (s : CryptoSession) (sender : String) (flag : ℤ) (token : List UInt8) : Reply :=
  if sender ≠ s.verifySender then .fails .permissionDenied
  else
    let flag := if flag = allAuthenticationFlag then (allAuthenticationTypeMask : ℤ) else flag
    if s.symmetricKey = [] then
      match m.decryptAsymmetric s.algType token with
      | .panics => .panics
      | .error _ => .password flag token
      | .ok pw => .password flag pw
    else
      match decrypt aes token s.symmetricKey with
      | .panics => .panics
      | .error _ => .password flag token
      | .ok pw => .password flag pw

/-- One call. -/
def call (s : CryptoSession) : CryptoCall → CryptoSession × Reply
  | .encryptKey encryptType encryptMethod => s.encryptKey m encryptType encryptMethod
  | .setSymmetricKey execPath key => s.setSymmetricKey m execPath key
  | .setToken sender flag token => (s, s.setToken aes m sender flag token)

/-- The calls one after the other: there are none after a panic. -/
def step (s : CryptoSession) (c : CryptoCall) : Option (CryptoSession × Reply) :=
  if (s.call aes m c).2 = .panics then none else some (s.call aes m c)

/-- A text whose end is the padding of what comes before it. -/
def ValidPadding (text : List UInt8) : Prop := ∃ p, text = pkcs5Padding p aesBlockSize

/-- The token of the call is decrypted with the symmetric key, and the text has a false padding. -/
def FalsePadding (s : CryptoSession) (c : CryptoCall) : Prop :=
  ∃ sender flag token perm, c = .setToken sender flag token ∧ sender = s.verifySender ∧
    s.symmetricKey ≠ [] ∧ newCipher aes s.symmetricKey = .ok perm ∧
    token.length % aesBlockSize = 0 ∧ ¬ ValidPadding (cbcDecryptBlocks perm token)

/-- The call does not panic, and does not take a text with a false padding. -/
def Safe (s : CryptoSession) (c : CryptoCall) : Prop :=
  (s.call aes m c).2 ≠ .panics ∧
    (FalsePadding aes s c → ∀ sender flag token, c = .setToken sender flag token →
      ∃ err, decrypt aes token s.symmetricKey = .error err)

/-- The first entry of the table is there, and is not a nil pointer. -/
def FirstCrypt (m : CryptoManager) : Prop := ∃ ac, m.crypts.head? = some ac ∧ ac ≠ .nilRsa

/-- The type that is asked for is that of a key pair, or of none in an empty table; the first entry
is there where something is decrypted with it; and a token has a right padding. -/
def WellFormed (s : CryptoSession) (c : CryptoCall) : Prop :=
  match c with
  | .encryptKey t _ =>
      0 ≤ t ∧ (m.crypts ≠ [] →
        ∃ r, m.crypts[if t < m.crypts.length then t.toNat else 0]? = some (.rsa r))
  | .setSymmetricKey execPath _ =>
      execPath.toOption = some s.prgPath → s.symmetricKey = [] → FirstCrypt m
  | .setToken sender _ token =>
      sender = s.verifySender →
        if s.symmetricKey = [] then FirstCrypt m
        else ∀ perm, newCipher aes s.symmetricKey = .ok perm → token.length % aesBlockSize = 0 →
          ValidPadding (cbcDecryptBlocks perm token)

end calls

/-! ## The entries that are used -/

variable {aes : List UInt8 → Equiv.Perm AesBlock} {m : CryptoManager} {s : CryptoSession}

theorem goIndex_of_nonneg {α : Type*} {xs : List α} {i : ℤ} (h : 0 ≤ i) :
    goIndex xs i = xs[i.toNat]? :=
  if_neg (Int.not_lt.mpr h)

/-- Only a key pair has a key to show. -/
theorem pubkeyInfo_eq_none {β : Type*} (o : Option AsymCrypt) (f : ℤ × String → β) :
    (o.bind fun ac => ac.pubkeyInfo.map f) = none ↔ ¬ ∃ r, o = some (.rsa r) := by
  rcases o with _ | _ | _ | r <;> simp [AsymCrypt.pubkeyInfo]

/-- Asking for a key panics where the type is negative, or the entry is no key pair. -/
theorem queryEncryptKey_eq_none (t : ℤ) (rf : List ℤ) :
    m.queryEncryptKey t rf = none ↔
      ¬ (0 ≤ t ∧ (m.crypts ≠ [] →
        ∃ r, m.crypts[if t < m.crypts.length then t.toNat else 0]? = some (.rsa r))) := by
  unfold CryptoManager.queryEncryptKey
  by_cases hneg : t < 0
  · rw [if_pos (by omega), goIndex, if_pos hneg]
    exact iff_of_true rfl fun h => absurd h.1 (Int.not_le.mpr hneg)
  · have hnonneg : 0 ≤ t := Int.not_lt.mp hneg
    by_cases hlt : t < m.crypts.length
    · have hne : m.crypts ≠ [] := List.ne_nil_of_length_pos (by omega)
      simp only [hlt, if_true, goIndex_of_nonneg hnonneg, pubkeyInfo_eq_none, hnonneg, true_and,
        ne_eq, hne, not_false_eq_true, forall_const]
    · by_cases hne : m.crypts = []
      · simp [hne, hneg, hnonneg]
      · have hpos : 0 < m.crypts.length := List.length_pos_iff.mpr hne
        simp only [hlt, if_false, hpos, if_true, goIndex_of_nonneg le_rfl, Int.toNat_zero,
          pubkeyInfo_eq_none, hnonneg, true_and, ne_eq, hne, not_false_eq_true, forall_const]

/-- The type that is kept is that of the first entry; in an empty table there is none. -/
def Typed (m : CryptoManager) (s : CryptoSession) : Prop :=
  s.algType = 0 ∨ s.algType = -1 ∧ m.crypts = []

/-- So what is decrypted panics where there is no first entry, or a nil pointer. -/
theorem decryptAsymmetric_eq_panics (h : s.Typed m) (data : List UInt8) :
    m.decryptAsymmetric s.algType data = .panics ↔ ¬ FirstCrypt m := by
  unfold CryptoManager.decryptAsymmetric FirstCrypt
  rcases h with h | ⟨h, hnil⟩
  · rw [h, goIndex_of_nonneg le_rfl, Int.toNat_zero, ← List.head?_eq_getElem?]
    rcases m.crypts.head? with _ | _ | _ | r
    · simp
    · simp
    · simp
    · rcases hdec : r.decryptPKCS1v15 data with err | token <;> simp [hdec]
  · simp [h, hnil, goIndex]

/-- The type of a key that is found. -/
theorem queryEncryptKey_type {t encType : ℤ} {rf encMethod : List ℤ} {pubKey : String}
    (h : m.queryEncryptKey t rf = some (encType, encMethod, pubKey)) :
    encType = 0 ∨ encType = -1 ∧ m.crypts = [] := by
  have hkind : ∀ o : Option AsymCrypt,
      (o.bind fun ac => ac.pubkeyInfo.map fun info => (info.1, supportFlags rf, info.2)) =
        some (encType, encMethod, pubKey) → encType = 0 := by
    rintro (_ | _ | _ | r) ho <;> simp [AsymCrypt.pubkeyInfo] at ho
    exact ho.1.symm
  unfold CryptoManager.queryEncryptKey at h
  split_ifs at h with hlt hpos
  · exact .inl (hkind _ h)
  · exact .inl (hkind _ h)
  · cases h
    exact .inr ⟨rfl, List.length_eq_zero_iff.mp (by omega)⟩

/-- A call that a run goes on after. -/
theorem call_of_step {s s' : CryptoSession} {c : CryptoCall} {r : Reply}
    (hs : step aes m s c = some (s', r)) : s.call aes m c = (s', r) := by
  unfold step at hs
  split_ifs at hs
  exact Option.some.inj hs

/-- The type that is kept is an answer of `QueryEncryptKey`. -/
theorem typed_step {s' : CryptoSession} {c : CryptoCall} {r : Reply} (h : s.Typed m)
    (hs : step aes m s c = some (s', r)) : s'.Typed m := by
  replace hs := call_of_step hs
  cases c with
  | encryptKey t rf =>
      simp only [call, encryptKey] at hs
      rcases hq : m.queryEncryptKey t rf with _ | ⟨encType, encMethod, pubKey⟩
      · rw [hq] at hs
        cases hs
        exact h
      · rw [hq] at hs
        cases hs
        exact queryEncryptKey_type hq
  | setSymmetricKey execPath key =>
      have htype : s'.algType = s.algType := by
        simp only [call, setSymmetricKey] at hs
        split at hs
        · cases hs
          rfl
        · split_ifs at hs
          · cases hs
            rfl
          · cases hs
            rfl
          · split at hs <;> cases hs <;> rfl
      rw [Typed, htype]
      exact h
  | setToken sender flag token =>
      cases hs
      exact h

/-- A symmetric key is set unless the entry that is to decrypt it makes the daemon panic. -/
theorem setSymmetricKey_eq_panics (h : s.Typed m) (execPath : Except String String)
    (key : List UInt8) :
    (s.setSymmetricKey m execPath key).2 = .panics ↔
      execPath.toOption = some s.prgPath ∧ s.symmetricKey = [] ∧ ¬ FirstCrypt m := by
  rw [← decryptAsymmetric_eq_panics h key]
  unfold setSymmetricKey
  rcases execPath with err | path
  · simp [Except.toOption]
  · by_cases hpath : s.prgPath = path
    · by_cases hkey : s.symmetricKey = []
      · rcases m.decryptAsymmetric s.algType key with a | err | _ <;>
          simp [hpath, hkey, Except.toOption]
      · simp [hpath, hkey]
    · simp [hpath, Ne.symm hpath, Except.toOption]

/-- A token that is decrypted without a symmetric key needs the first entry. -/
theorem setToken_asymmetric (h : s.Typed m) {sender : String} (hsender : sender = s.verifySender)
    (hkey : s.symmetricKey = []) (flag : ℤ) (token : List UInt8) :
    s.setToken aes m sender flag token = .panics ↔ ¬ FirstCrypt m := by
  rw [← decryptAsymmetric_eq_panics h token]
  unfold setToken
  rw [if_neg (not_not.mpr hsender), if_pos hkey]
  rcases m.decryptAsymmetric s.algType token with pw | err | _ <;> simp

/-- A token that is decrypted with the symmetric key: what is full blocks panics or is accepted. -/
theorem setToken_symmetric {sender : String} (hsender : sender = s.verifySender)
    (hkey : s.symmetricKey ≠ []) (flag : ℤ) (token : List UInt8) :
    s.setToken aes m sender flag token = .panics ↔ decrypt aes token s.symmetricKey = .panics := by
  unfold setToken
  rw [if_neg (not_not.mpr hsender), if_neg hkey]
  rcases decrypt aes token s.symmetricKey with pw | err | _ <;> simp

/-- **When a call is safe**: when what it sends is well formed, and what it uses is there. -/
theorem safe_iff (h : s.Typed m) (c : CryptoCall) : s.Safe aes m c ↔ s.WellFormed aes m c := by
  cases c with
  | encryptKey t rf =>
      have hfalse : ¬ FalsePadding aes s (.encryptKey t rf) := by
        rintro ⟨sender, flag, token, perm, hcall, -⟩
        cases hcall
      rw [Safe, and_iff_left fun h => absurd h hfalse, WellFormed, ← not_iff_not,
        ← queryEncryptKey_eq_none t rf, call, encryptKey, ne_eq, not_not]
      rcases m.queryEncryptKey t rf with _ | ⟨encType, encMethod, pubKey⟩ <;> simp
  | setSymmetricKey execPath key =>
      have hfalse : ¬ FalsePadding aes s (.setSymmetricKey execPath key) := by
        rintro ⟨sender, flag, token, perm, hcall, -⟩
        cases hcall
      rw [Safe, and_iff_left fun h => absurd h hfalse, WellFormed, call, ne_eq,
        setSymmetricKey_eq_panics h]
      simp only [not_and, not_not]
  | setToken sender flag token =>
      by_cases hsender : sender = s.verifySender
      · subst hsender
        by_cases hkey : s.symmetricKey = []
        · have hfalse : ¬ FalsePadding aes s (.setToken s.verifySender flag token) := by
            rintro ⟨_, _, _, _, -, -, hne, -⟩
            exact hne hkey
          rw [Safe, and_iff_left fun h => absurd h hfalse, call, ne_eq,
            setToken_asymmetric h rfl hkey, not_not]
          simp only [WellFormed, hkey, if_true, true_imp_iff]
        · rw [Safe, call, ne_eq, setToken_symmetric rfl hkey, decrypt_eq_panics]
          simp only [WellFormed, hkey, if_false, true_imp_iff]
          constructor
          · rintro ⟨hcalm, hreject⟩ perm hperm hfull
            by_contra hpad
            obtain ⟨err, herr⟩ := hreject
              ⟨_, flag, token, perm, rfl, rfl, hkey, hperm, hfull, hpad⟩ _ _ _ rfl
            exact decrypt_ne_error hperm hfull err herr
          · intro hvalid
            constructor
            · rintro ⟨perm, hperm, hfull, hnone⟩
              obtain ⟨p, hp⟩ := hvalid perm hperm hfull
              rw [hp, pkcs5UnPadding_pkcs5Padding] at hnone
              cases hnone
            · rintro ⟨_, _, _, perm, hcall, -, -, hperm, hfull, hpad⟩
              cases hcall
              exact absurd (hvalid perm hperm hfull) hpad
      · have hfalse : ¬ FalsePadding aes s (.setToken sender flag token) := by
          rintro ⟨_, _, _, _, hcall, heq, -⟩
          cases hcall
          exact hsender heq
        rw [Safe, and_iff_left fun h => absurd h hfalse, call, setToken, if_pos hsender]
        simp only [WellFormed, hsender, false_imp_iff, ne_eq, reduceCtorEq, not_false_eq_true]

/-- **No call of a session crashes the daemon or takes a false padding**, over every run of calls
and for every table, exactly if the calls are well formed. -/
theorem crypto_safe_iff (aes : List UInt8 → Equiv.Perm AesBlock) (m : CryptoManager)
    (verifySender prgPath : String) (calls : List CryptoCall) :
    Along (step aes m) (Safe aes m) (new verifySender prgPath) calls ↔
      Along (step aes m) (WellFormed aes m) (new verifySender prgPath) calls :=
  along_iff (fun _ _ _ _ => typed_step) (fun _ c h => safe_iff h c) (.inl rfl) calls

/-- An empty token, after a symmetric key has been set. -/
theorem empty_token_panics :
    ¬ ∀ aes m verifySender prgPath calls,
      Along (step aes m) (Safe aes m) (new verifySender prgPath) calls := by
  intro h
  have hsafe := h (fun _ => Equiv.refl _)
    ⟨[.rsa ⟨"key", fun data => if data = [1] then .ok (List.replicate 16 49) else .error "error"⟩]⟩
    ":1.5" "/usr/bin/greeter"
    [.encryptKey 0 [1], .setSymmetricKey (.ok "/usr/bin/greeter") [1], .setToken ":1.5" 1 []]
  exact ((hsafe.2 _ _ rfl).2 _ _ rfl).1.1 rfl

end CryptoSession

end LingmoAuthenticate.Session
