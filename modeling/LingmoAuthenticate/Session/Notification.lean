import LingmoAuthenticate.Session.MultiFactorVerify
import LingmoAuthenticate.Session.NormalVerify

/-!
# Notifications of a factor's state

A transaction tells its controller of a lock, of an unlock and of a device that came back by the
same channel as of its results. `Locked` is one of the statuses that are not counted; `Unlocked`
and `Recover` are not, so a controller takes them for results.

* `QuietStep` says of one round that a notification it receives changes nothing recorded and
  gives no verdict, and `NotificationSafe` is when that is so.
* `notification_quiet_iff`: in runs of either controller the two agree round by round.
* `unlocked_fails_factor`: a run in which an unlock fails a factor that was never tried.
-/

namespace LingmoAuthenticate.Session

open Lib AuthCommon MultiFactor

/-- The statuses that notify of a change of a factor's state. -/
def StatusCode.IsNotification (s : StatusCode) : Prop := s = .locked ∨ s = .unlocked ∨ s = .recover

/-- `tx` brings the notification `status` of the factor `t`. -/
def Notifies (tx : Option VirtualTx) (t : AuthType) (status : VerifyStatus) : Prop :=
  status.s.IsNotification ∧ ∃ kind, tx = some ⟨kind, t, some status⟩

/-- A notification that is not of a lock is counted. -/
theorem StatusCode.IsNotification.counted {s : StatusCode} (h : s.IsNotification)
    (hs : s ≠ .locked) (kind : TxKind) : kind.shouldIgnore s = false := by
  rw [counted_iff]
  rcases h with rfl | rfl | rfl
  · exact absurd rfl hs
  · simp
  · simp

/-- A notification is of no success. -/
theorem StatusCode.IsNotification.ne_success {s : StatusCode} (h : s.IsNotification) :
    s ≠ .success := by
  rcases h with rfl | rfl | rfl <;> simp

/-- The calls of a counted round hold a verdict exactly when the loop came to one. -/
theorem no_verdict_iff {flag : ℕ} {s res : StatusCode} {text msg : String} {p : Prop}
    [Decidable p] (hp : p ↔ res = .success ∨ res = .failure) :
    (∀ c ∈ [ProxyCall.emitStatus flag s text, .updateLimits s flag] ++
      if p then [.emitStatus allAuthenticationFlag res msg,
        .updateLimits res allAuthenticationFlag] else [], ¬ c.IsVerdict) ↔ ¬ p := by
  have hflag : (flag : ℤ) ≠ allAuthenticationFlag := by
    unfold allAuthenticationFlag
    omega
  by_cases h : p
  · simp [h, ProxyCall.IsVerdict, hflag, hp.mp h]
  · simp [h, ProxyCall.IsVerdict, hflag]

/-- A status that is only passed on is no verdict. -/
theorem emitted_not_verdict {flag : ℕ} {s : StatusCode} {text : String} :
    ∀ c ∈ [ProxyCall.emitStatus flag s text], ¬ c.IsVerdict := by
  have hflag : (flag : ℤ) ≠ allAuthenticationFlag := by
    unfold allAuthenticationFlag
    omega
  simp [ProxyCall.IsVerdict, hflag]

/-! ## The multi-factor controller -/

namespace MultiFactorVerify

/-- The same results are recorded. -/
structure SameResults (m m' : MultiFactorVerify) : Prop where
  resultMap : ∀ f, m'.resultMap.lookup f = m.resultMap.lookup f
  passNumber : m'.passNumber = m.passNumber

/-- A notification changes no result in this round, and leads to no verdict. -/
def QuietStep (translate : String → String) (m : MultiFactorVerify)
    (a : Option VirtualTx × ResultOrder × ResultOrder) : Prop :=
  ∀ t status, Notifies a.1 t status → ∀ m' calls, m.step translate a = some (m', calls) →
    m.SameResults m' ∧ ∀ c ∈ calls, ¬ c.IsVerdict

/-- A notification finds a factor that is not one of the session or that has failed with the same
text, while a result is still missing; or it is of a lock. -/
def NotificationSafe (m : MultiFactorVerify)
    (a : Option VirtualTx × ResultOrder × ResultOrder) : Prop :=
  ∀ t status, Notifies a.1 t status → status.s = .locked ∨
    m.passNumber < m.expectPassNumber ∧
      ∀ info, m.resultMap.lookup (authTypeToFlag t) = some info → info = ⟨.failed, status.msg⟩

/-- A status that is not counted is passed on. -/
theorem receive_ignored {kind : TxKind} {status : VerifyStatus}
    (h : kind.shouldIgnore status.s = true) (translate : String → String) (m : MultiFactorVerify)
    (t : AuthType) (order msgOrder : ResultOrder) :
    m.receive translate (some ⟨kind, t, some status⟩) order msgOrder =
      some (m, [.emitStatus (authTypeToFlag t) status.s (translate status.msg)]) := by
  unfold receive
  dsimp only
  rw [if_pos h]

/-- A failed result that overwrites the same failed result changes nothing. -/
theorem setResult_failed_same {conf : Config} (hconf : conf.isValidConfig = true)
    {hist : List (Option VirtualTx)} {m m' : MultiFactorVerify} (h : MfaInv conf hist m)
    {t : AuthType} {msg : String} (hset : m.setResult t false msg = some m') :
    m.SameResults m' ↔
      ∀ info, m.resultMap.lookup (authTypeToFlag t) = some info → info = ⟨.failed, msg⟩ := by
  unfold setResult at hset
  dsimp only at hset
  by_cases hin : authTypeToFlag t &&& m.mfaAuthFlags ≠ 0
  · rw [if_pos hin, Option.map_eq_some_iff] at hset
    obtain ⟨info, hinfo, rfl⟩ := hset
    constructor
    · intro hsame info' hinfo'
      have hwritten := hsame.resultMap (authTypeToFlag t)
      dsimp only at hwritten
      rw [AList.lookup_insert, hinfo', Option.some.injEq] at hwritten
      exact hwritten.symm
    · intro hall
      obtain rfl := hall info hinfo
      refine ⟨?_, rfl⟩
      intro f
      dsimp only
      by_cases hf : f = authTypeToFlag t
      · rw [hf, AList.lookup_insert, hinfo]
        rfl
      · rw [AList.lookup_insert_ne hf]
  · -- the factor has no entry, and nothing is written
    rw [if_neg hin, Option.some.injEq] at hset
    subst hset
    have hout : authTypeToFlag t ∉ getAuthTypeList conf := fun hmem =>
      hin (h.mask ▸ (land_mask_iff hconf t).mpr hmem)
    refine iff_of_true ⟨fun _ => rfl, rfl⟩ ?_
    intro info hinfo
    rw [h.outside _ hout] at hinfo
    cases hinfo

/-- The loop comes to no verdict exactly when a result is missing. -/
theorem MfaInv.no_verdict_iff_lt {conf : Config} {hist : List (Option VirtualTx)}
    {m : MultiFactorVerify} (h : MfaInv conf hist m) (order : ResultOrder) :
    ¬ (m.getVerifyResult order = .failure ∨ m.getVerifyResult order = .success) ↔
      m.passNumber < m.expectPassNumber := by
  rw [h.getVerifyResult_eq, h.passNumber_lt_iff]
  split_ifs with hnone hfail <;> simp [hnone]

/-- On the states of the loop, a round is quiet exactly when its notification is safe. -/
theorem quietStep_iff {conf : Config} (hconf : conf.isValidConfig = true)
    (translate : String → String) {hist : List (Option VirtualTx)} {m : MultiFactorVerify}
    (h : MfaInv conf hist m) (a : Option VirtualTx × ResultOrder × ResultOrder) :
    m.QuietStep translate a ↔ m.NotificationSafe a := by
  obtain ⟨tx, order, msgOrder⟩ := a
  refine forall₂_congr fun t status => forall_congr' ?_
  rintro ⟨hnot, kind, htx⟩
  obtain rfl : tx = some ⟨kind, t, some status⟩ := htx
  by_cases hs : status.s = .locked
  · -- a lock is only passed on
    refine iff_of_true ?_ (.inl hs)
    intro m' calls hstep
    rw [step, receive_ignored (shouldIgnore_iff.mpr (by simp [hs]))] at hstep
    cases hstep
    exact ⟨⟨fun _ => rfl, rfl⟩, emitted_not_verdict⟩
  · have hcount := hnot.counted hs kind
    have hrep : reported (some ⟨kind, t, some status⟩) = some (t, false) := by
      simp [reported, hcount, hnot.ne_success]
    obtain ⟨m', hset, hinv⟩ := h.setResult hconf hrep status.msg
    have hstep : m.step translate (some ⟨kind, t, some status⟩, order, msgOrder) = some (m',
        [.emitStatus (authTypeToFlag t) status.s (translate status.msg),
          .updateLimits status.s (authTypeToFlag t)] ++
          if m'.getVerifyResult order = .failure ∨ m'.getVerifyResult order = .success then
            [.emitStatus allAuthenticationFlag (m'.getVerifyResult order) (m'.getAuthMsg msgOrder),
              .updateLimits (m'.getVerifyResult order) allAuthenticationFlag]
          else []) := by
      unfold step receive
      dsimp only
      rw [if_neg (by simp [hcount]), decide_eq_false hnot.ne_success, hset]
      rfl
    have hexpect : m'.expectPassNumber = m.expectPassNumber := hinv.expect.trans h.expect.symm
    rw [hstep, or_iff_right hs, ← setResult_failed_same hconf h hset]
    simp only [Option.some.injEq, Prod.mk.injEq, and_imp, forall_eq', forall_apply_eq_imp_iff]
    rw [no_verdict_iff or_comm, hinv.no_verdict_iff_lt order, hexpect, and_comm]
    exact and_congr_left fun hsame => by rw [hsame.passNumber]

end MultiFactorVerify

/-! ## The single-factor controller -/

namespace NormalVerify

/-- The same codes and inputs are recorded. -/
structure SameResults (g g' : NormalVerify) : Prop where
  txResultMap : ∀ t, g'.txResultMap.lookup t = g.txResultMap.lookup t
  inputMap : ∀ t, g'.inputMap.lookup t = g.inputMap.lookup t

/-- A notification changes no code and no input in this round, and leads to no verdict. -/
def QuietStep (translate : String → String) (g : NormalVerify)
    (a : Option VirtualTx × CodeOrder × InputOrder) : Prop :=
  ∀ t status, Notifies a.1 t status → ∀ g' calls, g.step translate a = some (g', calls) →
    g.SameResults g' ∧ ∀ c ∈ calls, ¬ c.IsVerdict

/-- A notification finds a factor that is not one of the session or that has the same code, while
no factor has succeeded, and none has failed unless failures are being ignored; or it is of a
lock. -/
def NotificationSafe (g : NormalVerify) (a : Option VirtualTx × CodeOrder × InputOrder) : Prop :=
  ∀ t status, Notifies a.1 t status → status.s = .locked ∨
    (∀ code, g.txResultMap.lookup t = some code → code = status.s) ∧
      (¬ ∃ t', g.txResultMap.lookup t' = some .success) ∧
        ((∃ t', g.txResultMap.lookup t' = some .failure) →
          (g.hasInput = true ∨ authTypeToInputType t = .keyboard) ∧
            ∃ t', g.inputMap.lookup t' = some false)

/-- A status that is not counted is passed on. -/
theorem receive_ignored {kind : TxKind} {status : VerifyStatus}
    (h : kind.shouldIgnore status.s = true) (translate : String → String) (g : NormalVerify)
    (t : AuthType) (order : CodeOrder) (inputOrder : InputOrder) :
    g.receive translate (some ⟨kind, t, some status⟩) order inputOrder =
      (g, [.emitStatus (authTypeToFlag t) status.s (translate status.msg)]) := by
  unfold receive
  dsimp only
  rw [if_pos h]

@[simp] theorem count_txResultMap (g : NormalVerify) (t : AuthType) (status : VerifyStatus) :
    (g.count t status).txResultMap = (g.addTxStatus t status).txResultMap := by
  unfold count
  dsimp only
  split_ifs <;> rfl

@[simp] theorem count_inputMap (g : NormalVerify) (t : AuthType) (status : VerifyStatus) :
    (g.count t status).inputMap = (g.addTxStatus t status).inputMap := by
  unfold count
  dsimp only
  split_ifs <;> rfl

/-- Once a keyboard type has been counted, there was an input. -/
theorem count_hasInput (g : NormalVerify) (t : AuthType) (status : VerifyStatus) :
    (g.count t status).hasInput = true ↔
      g.hasInput = true ∨ authTypeToInputType t = .keyboard := by
  have hadd : (g.addTxStatus t status).hasInput = g.hasInput := by
    unfold addTxStatus
    split_ifs <;> rfl
  unfold count
  dsimp only
  split_ifs with hkey
  · simp [hkey]
  · simp [hkey, hadd]

/-- Recording a code that a factor has already changes nothing. -/
theorem count_same_iff {g : NormalVerify} (h : g.NormalInv) (t : AuthType) {status : VerifyStatus}
    (hs : status.s ≠ .unknown) :
    g.SameResults (g.count t status) ↔
      ∀ code, g.txResultMap.lookup t = some code → code = status.s := by
  rcases hl : g.txResultMap.lookup t with _ | code
  · -- the factor has no entry, and nothing is written
    have hadd : g.addTxStatus t status = g := by
      unfold addTxStatus
      rw [hl]
      rfl
    refine iff_of_true ⟨?_, ?_⟩ (by simp)
    · intro t'
      rw [count_txResultMap, hadd]
    · intro t'
      rw [count_inputMap, hadd]
  · have hadd : (g.addTxStatus t status).txResultMap = g.txResultMap.insert t status.s ∧
        (g.addTxStatus t status).inputMap = g.inputMap.insert t true := by
      unfold addTxStatus
      rw [hl]
      exact ⟨rfl, rfl⟩
    constructor
    · intro hsame code' hcode'
      have hwritten := hsame.txResultMap t
      rw [count_txResultMap, hadd.1, AList.lookup_insert, hl, hcode', Option.some.injEq] at hwritten
      exact hwritten.symm
    · intro hall
      obtain rfl := hall code rfl
      constructor
      · intro t'
        rw [count_txResultMap, hadd.1]
        by_cases ht : t' = t
        · rw [ht, AList.lookup_insert, hl]
        · rw [AList.lookup_insert_ne ht]
      · intro t'
        rw [count_inputMap, hadd.2]
        by_cases ht : t' = t
        · rw [ht, AList.lookup_insert, h t _ hl hs]
        · rw [AList.lookup_insert_ne ht]

/-- On the states of the loop, a round is quiet exactly when its notification is safe. -/
theorem quietStep_iff (translate : String → String) {g : NormalVerify} (h : g.NormalInv)
    (a : Option VirtualTx × CodeOrder × InputOrder) :
    g.QuietStep translate a ↔ g.NotificationSafe a := by
  obtain ⟨tx, order, inputOrder⟩ := a
  refine forall₂_congr fun t status => forall_congr' ?_
  rintro ⟨hnot, kind, htx⟩
  obtain rfl : tx = some ⟨kind, t, some status⟩ := htx
  by_cases hs : status.s = .locked
  · -- a lock is only passed on
    refine iff_of_true ?_ (.inl hs)
    intro g' calls hstep
    rw [step, receive_ignored (shouldIgnore_iff.mpr (by simp [hs]))] at hstep
    cases hstep
    exact ⟨⟨fun _ => rfl, fun _ => rfl⟩, emitted_not_verdict⟩
  · have hcount := hnot.counted hs kind
    have hunknown : status.s ≠ .unknown := by
      rcases hnot with hn | hn | hn <;> simp [hn]
    have hstep : g.step translate (some ⟨kind, t, some status⟩, order, inputOrder) =
        some (g.count t status,
          [.emitStatus (authTypeToFlag t) status.s (translate status.msg),
            .updateLimits status.s (authTypeToFlag t)] ++
          if (g.count t status).adjudgeFinalResult order inputOrder = .success ∨
              (g.count t status).adjudgeFinalResult order inputOrder = .failure then
            [.emitStatus allAuthenticationFlag
                ((g.count t status).adjudgeFinalResult order inputOrder)
                (g.count t status).getFinalAuthMsg,
              .updateLimits ((g.count t status).adjudgeFinalResult order inputOrder)
                allAuthenticationFlag]
          else []) := by
      unfold step receive
      dsimp only
      rw [if_neg (by simp [hcount])]
    rw [hstep, or_iff_right hs, ← count_same_iff h t hunknown]
    simp only [Option.some.injEq, Prod.mk.injEq, and_imp, forall_eq', forall_apply_eq_imp_iff]
    rw [no_verdict_iff Iff.rfl]
    refine and_congr_right ?_
    intro hsame
    rw [adjudge_eq_success, adjudge_eq_failure, count_hasInput]
    simp only [hsame.txResultMap, hsame.inputMap]
    tauto

end NormalVerify

/-! ## Runs -/

/-- **When notifications are quiet.** In the runs of either controller, the notifications of every
round change no recorded result and lead to no verdict exactly when they are all safe. -/
theorem notification_quiet_iff {conf : Config} (hconf : conf.isValidConfig = true)
    (txs : List AuthType) (translate : String → String) :
    (∀ acts, Along (MultiFactorVerify.step translate)
        (MultiFactorVerify.QuietStep translate) (.start conf) acts ↔
      Along (MultiFactorVerify.step translate)
        MultiFactorVerify.NotificationSafe (.start conf) acts) ∧
    (∀ acts, Along (NormalVerify.step translate)
        (NormalVerify.QuietStep translate) (.start txs) acts ↔
      Along (NormalVerify.step translate) NormalVerify.NotificationSafe (.start txs) acts) := by
  constructor
  · intro acts
    refine along_iff (I := fun m => ∃ hist, MultiFactorVerify.MfaInv conf hist m) ?_ ?_
      ⟨[], MultiFactorVerify.mfaInv_start hconf⟩ acts
    · rintro m a m' calls ⟨hist, h⟩ hstep
      obtain ⟨m₁, calls₁, h₁, hinv⟩ := MultiFactorVerify.mfaInv_step hconf translate h a
      rw [h₁, Option.some.injEq, Prod.mk.injEq] at hstep
      exact ⟨_, hstep.1 ▸ hinv⟩
    · rintro m a ⟨hist, h⟩
      exact MultiFactorVerify.quietStep_iff hconf translate h a
  · intro acts
    exact along_iff (fun _ _ _ _ h hstep => NormalVerify.normalInv_step h hstep)
      (fun _ a h => NormalVerify.quietStep_iff translate h a) (NormalVerify.normalInv_start txs) acts

/-- The runs of two factors, and of a password session. -/
theorem notification_quiet_iff_two_factors :
    (∀ acts, Along (MultiFactorVerify.step id)
        (MultiFactorVerify.QuietStep id) (.start MultiFactorVerify.twoFactors) acts ↔
      Along (MultiFactorVerify.step id)
        MultiFactorVerify.NotificationSafe (.start MultiFactorVerify.twoFactors) acts) ∧
    (∀ acts, Along (NormalVerify.step id)
        (NormalVerify.QuietStep id) (.start [.password]) acts ↔
      Along (NormalVerify.step id) NormalVerify.NotificationSafe (.start [.password]) acts) :=
  notification_quiet_iff (by decide) [.password] id

/-- The password has succeeded, and an unlock of the fingerprint, which was never tried, fails the
session. -/
theorem unlocked_fails_factor :
    ¬ Along (MultiFactorVerify.step id) (MultiFactorVerify.QuietStep id)
      (.start MultiFactorVerify.twoFactors)
      [MultiFactorVerify.received .password .password .success,
        MultiFactorVerify.received .fingerprint .fingerprint .unlocked] := by
  rintro ⟨-, h⟩
  obtain ⟨hquiet, -⟩ := h _ _ rfl
  have hsame := hquiet .fingerprint (newVerifyStatus .unlocked true "")
    ⟨.inr (.inl rfl), .fingerprint, rfl⟩ _ _ rfl
  exact absurd hsame.1.passNumber (by decide)

end LingmoAuthenticate.Session
