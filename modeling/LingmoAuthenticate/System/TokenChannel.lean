import LingmoAuthenticate.Session.Crypto

/-!
# The password, from the PAM module to the transactions

The PAM module asks the session for its public key, sends a symmetric key that it has generated
under it, once the reply has come, and later each password under that key. `EncryptKey` may be
called by anyone, and so may the other calls, at any time in between.

* `Channel.step`: a call of the module, or of someone else.
* `ChannelInv`: the module and the session have the same symmetric key.
* `passwords_delivered`: over every run, the transactions are given what has been typed in, in order,
  and nothing else.
-/

namespace LingmoAuthenticate.System.TokenChannel

open Lib AuthCommon Encrypt Session

/-- Source: `common.h`, `AT_RSA`. -/
def atRsa : ℤ := 0

/-- How far the module is with its key, `ud->symmetric_key`: it is not there before the reply of
`EncryptKey` has been handled. -/
inductive KeyPlace where
  | start
  | asked (reply : Reply)
  | noKey
  | set (symmetric_key : List UInt8)

/-- A session, and the module that has opened it, with how far that is in agreeing on a key. -/
structure Channel where
  session : CryptoSession
  place : KeyPlace

/-- A call of someone else, or a step of the module; `rand` is what `rand()` gives, and `cur_type`
the field of the module when the user has answered. -/
inductive ChannelAction where
  | other (call : CryptoCall)
  | encryptKey
  | encryptKeyCb (rand : ℕ)
  | setToken (curType : ℤ) (password : List UInt8)

section channel

variable (aes : List UInt8 → Equiv.Perm AesBlock) (m : CryptoManager)
  (rsaEncrypt : String → List UInt8 → Option (List UInt8))

/-- A call of the session. -/
def Channel.call (s : Channel) (place : KeyPlace) (c : CryptoCall) :
    Option (Channel × Option Reply) :=
  (CryptoSession.step aes m s.session c).map fun q => (⟨q.1, place⟩, some q.2)

/-- `rsaEncrypt` is what OpenSSL makes of the text of a public key and some data, if it can.
Source: `dbus.c`, `call_encryptKey_cb`, with `encrypt_symmtric_key` and
`dbus_method_set_symmetric_key`, whose failure is not looked at. -/
def Channel.callEncryptKeyCb (s : Channel) (reply : Reply) (rand : ℕ) :
    Option (Channel × Option Reply) :=
  match reply with
  | .key _ _ pubkey =>
      let symmetric_key := genSymmetricKey rand
      match rsaEncrypt pubkey symmetric_key with
      | some cipher_text =>
          s.call aes m (.set symmetric_key) (.setSymmetricKey (.ok s.session.prgPath) cipher_text)
      | none => some ({ s with place := .set symmetric_key }, none)
  | _ => some ({ s with place := .noKey }, none)

/-- The call, once the password has been encrypted, or has not. -/
def Channel.sendToken (s : Channel) (curType : ℤ) :
    Except Fault (List UInt8) → Option (Channel × Option Reply)
  | .ok cipher_text => s.call aes m s.place (.setToken s.session.verifySender curType cipher_text)
  | .error (.returns _) => some (s, none)
  | .error .undefined => none

/-- The length of a null pointer, and a length that is too large, are undefined.
Source: `dbus.c`, `dbus_method_setToken`. -/
def Channel.dbusMethodSetToken (s : Channel) (curType : ℤ) (password : List UInt8) :
    Option (Channel × Option Reply) :=
  match s.place with
  | .set key => s.sendToken aes m curType
      (PamModule.aesCbcEncrypt aes password (cInt password.length) key (cInt key.length))
  | _ => none

/-- One step, with the answer of the session to the call that it makes, if it makes one. -/
def Channel.step (s : Channel) : ChannelAction → Option (Channel × Option Reply)
  | .other call => s.call aes m s.place call
  | .encryptKey =>
      match s.place with
      | .start =>
          (CryptoSession.step aes m s.session (.encryptKey atRsa [0])).map fun q =>
            (⟨q.1, .asked q.2⟩, some q.2)
      | _ => none
  | .encryptKeyCb rand =>
      match s.place with
      | .asked reply => s.callEncryptKeyCb aes m rsaEncrypt reply rand
      | _ => none
  | .setToken curType password => s.dbusMethodSetToken aes m curType password

end channel

/-- The flag that a token is for. -/
def flagOfCurType (curType : ℤ) : ℤ :=
  if curType = allAuthenticationFlag then (allAuthenticationTypeMask : ℤ) else curType

/-- A password that the transactions are given. -/
def delivered? : Option Reply → Option (ℤ × List UInt8)
  | some (.password flag pw) => some (flag, pw)
  | _ => none

/-- A password that has been typed in. -/
def typed? : ChannelAction → Option (ℤ × List UInt8)
  | .setToken curType password => some (flagOfCurType curType, password)
  | _ => none

/-- The others have names of their own on the bus, and are other programs than the module's; what is
typed in has a length that the module can handle. -/
def Foreign (verifySender prgPath : String) : ChannelAction → Prop
  | .other (.setSymmetricKey execPath _) => execPath.toOption ≠ some prgPath
  | .other (.setToken sender _ _) => sender ≠ verifySender
  | .setToken _ password => password.length < 2 ^ 31 - aesBlockSize
  | _ => True

/-- The key of the module is that of the session, or neither has one; the session is still that of
the module's program, and its type of encryption the one that the table gives. -/
structure ChannelInv (m : CryptoManager) (r : Rsa) (verifySender prgPath : String)
    (s : Channel) : Prop where
  sender : s.session.verifySender = verifySender
  prgPath : s.session.prgPath = prgPath
  typed : s.session.Typed m
  place :
    match s.place with
    | .start => s.session.symmetricKey = []
    | .asked reply => s.session.symmetricKey = [] ∧ ∃ flags, reply = .key 0 flags r.publicKey
    | .noKey => False
    | .set key => IsDigits key ∧ s.session.symmetricKey = key

section run

variable {aes : List UInt8 → Equiv.Perm AesBlock} {m : CryptoManager} {r : Rsa}
  {rsaEncrypt : String → List UInt8 → Option (List UInt8)} {verifySender prgPath : String}
  {s s' : Channel} {o : Option Reply} {a : ChannelAction}

/-- **What a call of someone else leaves as it is**: whom the session belongs to, its key, unless the
caller is of the same program, and its transactions, unless the caller is its owner. -/
theorem step_keeps {t t' : CryptoSession} {c : CryptoCall} {reply : Reply}
    (h : CryptoSession.step aes m t c = some (t', reply)) :
    t'.verifySender = t.verifySender ∧ t'.prgPath = t.prgPath ∧
      ((∀ execPath key, c = .setSymmetricKey execPath key → execPath.toOption ≠ some t.prgPath) →
        t'.symmetricKey = t.symmetricKey) ∧
      ((∀ sender flag token, c = .setToken sender flag token → sender ≠ t.verifySender) →
        delivered? (some reply) = none) := by
  replace h := CryptoSession.call_of_step h
  cases c with
  | encryptKey t₀ rf =>
      simp only [CryptoSession.call, CryptoSession.encryptKey] at h
      rcases hquery : m.queryEncryptKey t₀ rf with _ | ⟨encType, encMethod, pubKey⟩
      · rw [hquery] at h
        cases h
        exact ⟨rfl, rfl, fun _ => rfl, fun _ => rfl⟩
      · rw [hquery] at h
        cases h
        exact ⟨rfl, rfl, fun _ => rfl, fun _ => rfl⟩
  | setSymmetricKey execPath key =>
      simp only [CryptoSession.call, CryptoSession.setSymmetricKey] at h
      rcases execPath with err | path
      · cases h
        exact ⟨rfl, rfl, fun _ => rfl, fun _ => rfl⟩
      · dsimp only at h
        split_ifs at h with hpath hkey
        · cases h
          exact ⟨rfl, rfl, fun _ => rfl, fun _ => rfl⟩
        · cases h
          exact ⟨rfl, rfl, fun _ => rfl, fun _ => rfl⟩
        · have hsame : t.prgPath = path := not_not.mp hpath
          rcases hdec : m.decryptAsymmetric t.algType key with symmetricKey | err | _
          · rw [hdec] at h
            cases h
            exact ⟨rfl, rfl, fun hother => absurd (congrArg some hsame.symm) (hother _ _ rfl),
              fun _ => rfl⟩
          · rw [hdec] at h
            cases h
            exact ⟨rfl, rfl, fun _ => rfl, fun _ => rfl⟩
          · rw [hdec] at h
            cases h
            exact ⟨rfl, rfl, fun _ => rfl, fun _ => rfl⟩
  | setToken sender flag token =>
      cases h
      refine ⟨rfl, rfl, fun _ => rfl, fun hother => ?_⟩
      simp only [CryptoSession.setToken, if_pos (hother _ _ _ rfl)]
      rfl

/-! ## The first key pair -/

theorem algType_eq_zero {t : CryptoSession} (h : t.Typed m)
    (hr : m.crypts.head? = some (.rsa r)) : t.algType = 0 := by
  rcases h with h | ⟨-, hnil⟩
  · exact h
  · rw [hnil] at hr
    cases hr

theorem goIndex_zero (hr : m.crypts.head? = some (.rsa r)) :
    goIndex m.crypts 0 = some (.rsa r) := by
  rw [CryptoSession.goIndex_of_nonneg le_rfl, Int.toNat_zero, ← List.head?_eq_getElem?, hr]

/-- The key that the module is given. -/
theorem queryEncryptKey_rsa (hr : m.crypts.head? = some (.rsa r)) (rf : List ℤ) :
    m.queryEncryptKey atRsa rf = some (0, supportFlags rf, r.publicKey) := by
  have hpos : atRsa < (m.crypts.length : ℤ) := by
    rcases hcrypts : m.crypts with _ | ⟨ac, rest⟩
    · rw [hcrypts] at hr
      cases hr
    · rw [atRsa, List.length_cons]
      omega
  rw [CryptoManager.queryEncryptKey, if_pos hpos, atRsa, goIndex_zero hr]
  rfl

/-! ## One step -/

/-- Someone else calls. -/
theorem ChannelInv.other (h : ChannelInv m r verifySender prgPath s) {c : CryptoCall}
    (hforeign : Foreign verifySender prgPath (.other c))
    (hs : s.step aes m rsaEncrypt (.other c) = some (s', o)) :
    ChannelInv m r verifySender prgPath s' ∧ delivered? o = none := by
  obtain ⟨⟨t, reply⟩, hcall, heq⟩ := Option.map_eq_some_iff.mp hs
  cases heq
  obtain ⟨hsender, hprg, hkey, hreply⟩ := step_keeps hcall
  have hkept : t.symmetricKey = s.session.symmetricKey := by
    refine hkey fun execPath key hc => ?_
    subst hc
    rw [h.prgPath]
    exact hforeign
  constructor
  · refine ⟨hsender.trans h.sender, hprg.trans h.prgPath,
      CryptoSession.typed_step h.typed hcall, ?_⟩
    dsimp only
    rw [hkept]
    exact h.place
  · refine hreply fun sender flag token hc => ?_
    subst hc
    rw [h.sender]
    exact hforeign

/-- The module asks for the key. -/
theorem ChannelInv.encryptKey (h : ChannelInv m r verifySender prgPath s)
    (hr : m.crypts.head? = some (.rsa r))
    (hs : s.step aes m rsaEncrypt .encryptKey = some (s', o)) :
    ChannelInv m r verifySender prgPath s' ∧ delivered? o = none := by
  obtain ⟨t, place⟩ := s
  have hplace := h.place
  cases place with
  | start =>
      obtain ⟨⟨t', reply⟩, hcall, heq⟩ := Option.map_eq_some_iff.mp hs
      cases heq
      obtain ⟨hsender, hprg, hkey, hreply⟩ := step_keeps hcall
      have hkept : t'.symmetricKey = t.symmetricKey := hkey fun _ _ hc => by cases hc
      refine ⟨⟨hsender.trans h.sender, hprg.trans h.prgPath,
        CryptoSession.typed_step h.typed hcall, hkept.trans hplace, supportFlags [0], ?_⟩,
        hreply fun _ _ _ hc => by cases hc⟩
      have hanswer := CryptoSession.call_of_step hcall
      simp only [CryptoSession.call, CryptoSession.encryptKey, queryEncryptKey_rsa hr,
        Prod.mk.injEq] at hanswer
      exact hanswer.2.symm
  | asked reply => cases hs
  | noKey => cases hs
  | set key => cases hs

/-- The reply comes, and the session is sent the symmetric key. -/
theorem ChannelInv.encryptKeyCb (h : ChannelInv m r verifySender prgPath s)
    (hr : m.crypts.head? = some (.rsa r))
    (hrsa : ∀ key, IsDigits key → ∃ c, rsaEncrypt r.publicKey key = some c ∧
      r.decryptPKCS1v15 c = .ok key) {rand : ℕ}
    (hs : s.step aes m rsaEncrypt (.encryptKeyCb rand) = some (s', o)) :
    ChannelInv m r verifySender prgPath s' ∧ delivered? o = none := by
  obtain ⟨t, place⟩ := s
  have hplace := h.place
  cases place with
  | asked reply =>
      obtain ⟨hempty, flags, rfl⟩ := hplace
      have hnone : t.symmetricKey = [] := hempty
      have hdigits : IsDigits (genSymmetricKey rand) := isDigits_randomKey rand
      obtain ⟨c, hc, hdec⟩ := hrsa _ hdigits
      simp only [Channel.step, Channel.callEncryptKeyCb, hc] at hs
      obtain ⟨⟨t', reply⟩, hcall, heq⟩ := Option.map_eq_some_iff.mp hs
      cases heq
      have htyped := CryptoSession.typed_step h.typed hcall
      have hasym : m.decryptAsymmetric t.algType c = .ok (genSymmetricKey rand) := by
        rw [algType_eq_zero h.typed hr, CryptoManager.decryptAsymmetric, goIndex_zero hr]
        simp only [hdec]
      have hset : CryptoSession.call aes m t (.setSymmetricKey (.ok t.prgPath) c) =
          ({ t with symmetricKey := genSymmetricKey rand }, .done) := by
        simp only [CryptoSession.call, CryptoSession.setSymmetricKey, ne_eq, not_true_eq_false,
          if_false, hnone, hasym]
      obtain ⟨rfl, rfl⟩ := Prod.mk.inj (hset.symm.trans (CryptoSession.call_of_step hcall))
      exact ⟨⟨h.sender, h.prgPath, htyped, hdigits, rfl⟩, rfl⟩
  | start => cases hs
  | noKey => cases hs
  | set key => cases hs

/-- The module sends a password. -/
theorem ChannelInv.setToken (h : ChannelInv m r verifySender prgPath s) {curType : ℤ}
    {password : List UInt8} (hlen : password.length < 2 ^ 31 - aesBlockSize)
    (hs : s.step aes m rsaEncrypt (.setToken curType password) = some (s', o)) :
    ChannelInv m r verifySender prgPath s' ∧
      delivered? o = some (flagOfCurType curType, password) := by
  obtain ⟨t, place⟩ := s
  have hplace := h.place
  cases place with
  | set key =>
      obtain ⟨hdigits, hsame⟩ := hplace
      have hkey : t.symmetricKey = key := hsame
      have hagree : TokensAgree aes password key := (tokensAgree_iff hdigits.1).mpr hlen
      obtain ⟨c, -, hpam, -, hdec⟩ := hagree
      have hne : t.symmetricKey ≠ [] := by
        rw [hkey]
        exact List.length_pos_iff.mp (by rw [hdigits.1]; decide)
      have hstep : Channel.step aes m rsaEncrypt ⟨t, .set key⟩ (.setToken curType password) =
          Channel.call aes m ⟨t, .set key⟩ (.set key) (.setToken t.verifySender curType c) := by
        have hsend : Channel.step aes m rsaEncrypt ⟨t, .set key⟩ (.setToken curType password) =
            Channel.sendToken aes m ⟨t, .set key⟩ curType
              (PamModule.aesCbcEncrypt aes password (cInt password.length) key
                (cInt key.length)) := rfl
        rw [hsend, hpam]
        rfl
      rw [hstep] at hs
      obtain ⟨⟨t', reply⟩, hcall, heq⟩ := Option.map_eq_some_iff.mp hs
      cases heq
      have htoken : CryptoSession.call aes m t (.setToken t.verifySender curType c) =
          (t, .password (flagOfCurType curType) password) := by
        simp only [CryptoSession.call, CryptoSession.setToken, ne_eq, not_true_eq_false, if_false,
          hne, hkey ▸ hdec]
        rfl
      obtain ⟨rfl, rfl⟩ := Prod.mk.inj (htoken.symm.trans (CryptoSession.call_of_step hcall))
      exact ⟨h, rfl⟩
  | start => cases hs
  | asked reply => cases hs
  | noKey => cases hs

/-- **One step.** -/
theorem ChannelInv.step (h : ChannelInv m r verifySender prgPath s)
    (hr : m.crypts.head? = some (.rsa r))
    (hrsa : ∀ key, IsDigits key → ∃ c, rsaEncrypt r.publicKey key = some c ∧
      r.decryptPKCS1v15 c = .ok key)
    (hforeign : Foreign verifySender prgPath a)
    (hs : s.step aes m rsaEncrypt a = some (s', o)) :
    ChannelInv m r verifySender prgPath s' ∧ delivered? o = typed? a := by
  cases a with
  | other c => exact h.other hforeign hs
  | encryptKey => exact h.encryptKey hr hs
  | encryptKeyCb rand => exact h.encryptKeyCb hr hrsa hs
  | setToken curType password => exact h.setToken hforeign hs

/-! ## Runs -/

/-- A module before it has asked for a key, and the session that it has opened. -/
def Channel.start (verifySender prgPath : String) : Channel :=
  ⟨.new verifySender prgPath, .start⟩

theorem channelInv_start : ChannelInv m r verifySender prgPath (.start verifySender prgPath) :=
  ⟨rfl, rfl, .inl rfl, rfl⟩

/-- A run from a state in which the keys agree. -/
theorem ChannelInv.run (h : ChannelInv m r verifySender prgPath s)
    (hr : m.crypts.head? = some (.rsa r))
    (hrsa : ∀ key, IsDigits key → ∃ c, rsaEncrypt r.publicKey key = some c ∧
      r.decryptPKCS1v15 c = .ok key)
    {actions : List ChannelAction} {replies : List (Option Reply)}
    (hforeign : ∀ a ∈ actions, Foreign verifySender prgPath a)
    (hrun : Lib.run (Channel.step aes m rsaEncrypt) s actions = some (s', replies)) :
    replies.filterMap delivered? = actions.filterMap typed? := by
  induction actions generalizing s replies with
  | nil =>
      cases hrun
      rfl
  | cons a actions ih =>
      obtain ⟨mid, o, replies', hs, hrest, rfl⟩ := run_cons_eq_some.mp hrun
      obtain ⟨ha, hactions⟩ := List.forall_mem_cons.mp hforeign
      obtain ⟨hmid, hone⟩ := h.step hr hrsa ha hs
      rw [List.filterMap_cons, List.filterMap_cons, hone, ih hmid hactions hrest]

/-- **The transactions are given what has been typed in**, in order, and nothing else: in every run
of the module's calls and everyone else's, where the first entry of the daemon's table is a key pair
that decrypts what is encrypted with its public key, no other caller has the module's name on the
bus, no other process of the same program sets a key, and each password is shorter than `2^31 - 16`
bytes, so that the length of its padded text is an `int`. -/
theorem passwords_delivered (hr : m.crypts.head? = some (.rsa r))
    (hrsa : ∀ key, IsDigits key → ∃ c, rsaEncrypt r.publicKey key = some c ∧
      r.decryptPKCS1v15 c = .ok key)
    {actions : List ChannelAction} {replies : List (Option Reply)}
    (hforeign : ∀ a ∈ actions, Foreign verifySender prgPath a)
    (hrun : Lib.run (Channel.step aes m rsaEncrypt) (.start verifySender prgPath) actions =
      some (s', replies)) :
    replies.filterMap delivered? = actions.filterMap typed? :=
  channelInv_start.run hr hrsa hforeign hrun

/-- A cipher for the example: each byte is combined with the first one of the key. -/
def xorAes (key : List UInt8) : Equiv.Perm AesBlock :=
  let k : AesBlock := List.Vector.replicate aesBlockSize (key.headD 0)
  ⟨fun b => b.mix (· ^^^ ·) k, fun b => b.mix (· ^^^ ·) k, fun b => Block.mix_mix xor_xor b k,
    fun b => Block.mix_mix xor_xor b k⟩

/-- A pair of keys for the example: each byte is the next one. -/
def nextRsa : Rsa := ⟨"key", fun c => .ok (c.map (· - 1))⟩

/-- What is encrypted with its public key. -/
def nextEncrypt (pubkey : String) (data : List UInt8) : Option (List UInt8) :=
  if pubkey = nextRsa.publicKey then some (data.map (· + 1)) else none

/-- A password, while someone else asks for keys and tries to send another. -/
def loginActions : List ChannelAction :=
  [.encryptKey, .other (.encryptKey 3 [2]), .encryptKeyCb 42,
    .other (.setToken ":1.99" 1 [120]), .setToken (-1) [117, 111, 115]]

/-- It is delivered, through ciphers that change what they are given. -/
theorem passwords_delivered_login :
    ∃ s' replies, Lib.run (Channel.step xorAes ⟨[.rsa nextRsa]⟩ nextEncrypt)
        (.start ":1.5" "/usr/bin/dde-lock") loginActions = some (s', replies) ∧
      replies.filterMap delivered? = loginActions.filterMap typed? := by
  have hruns : (Lib.run (Channel.step xorAes ⟨[.rsa nextRsa]⟩ nextEncrypt)
      (.start ":1.5" "/usr/bin/dde-lock") loginActions).isSome := by
    decide +kernel
  have hrsa : ∀ key, IsDigits key → ∃ c, nextEncrypt nextRsa.publicKey key = some c ∧
      nextRsa.decryptPKCS1v15 c = .ok key := by
    intro key _
    refine ⟨key.map (· + 1), if_pos rfl, ?_⟩
    have hback : (key.map (· + 1)).map (· - 1) = key := by
      rw [List.map_map]
      exact (List.map_congr_left fun b _ => UInt8.add_sub_cancel b 1).trans (List.map_id key)
    exact congrArg Except.ok hback
  obtain ⟨⟨s', replies⟩, hrun⟩ := Option.isSome_iff_exists.mp hruns
  refine ⟨s', replies, hrun, passwords_delivered rfl hrsa ?_ hrun⟩
  have hname : (":1.99" : String) ≠ ":1.5" := by decide
  have hlen : ([117, 111, 115] : List UInt8).length < 2 ^ 31 - aesBlockSize := by decide
  simp only [loginActions, List.forall_mem_cons]
  exact ⟨trivial, trivial, trivial, hname, hlen, fun _ h => absurd h List.not_mem_nil⟩

end run

end LingmoAuthenticate.System.TokenChannel
