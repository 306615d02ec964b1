import LingmoAuthenticate.Session.Inversion

/-!
# A lock and a running verification

`setLockState` tells of the lock first, which moves the device state out of `verifying`, and only
then asks whether a verification is running. Its call of `end` is never made.

* `step_setLockState`: all that `setLockState` does, for every kind of transaction.
* `LockInv`: while a transaction verifies, its attempt has not been ended.
* `step_sent_of_lock`: a lock changes nothing that an attempt gives afterwards.
* `lock_never_stops`: from no state of any run does a lock stop the verification.
-/

namespace LingmoAuthenticate.Session

open Lib AuthCommon

/-! ## What `setLockState` does -/

namespace Tx

/-- The transaction after `setLockState`. -/
def locked (tx : Tx) (s : LockState) : Tx := tx.withBase (tx.clearSent.base.notifyLock s)

/-- Whatever its kind, a transaction only tells of the lock and notes it. -/
theorem step_setLockState (tx : Tx) (s : LockState) (finger : DoVerify) (camera : CameraLeave) :
    tx.step (.setLockState tx.kind s finger camera) =
      some (tx.locked s, (tx.clearSent.base.notifyLock s).sent) := by
  cases tx with
  | password tx => simp only [step, call, TxAction.setLockState, kind, clearSent, withBase,
      PasswordTx.step, PasswordTx.setLockState_eq, Option.map_some]; rfl
  | fingerprint tx => simp only [step, call, TxAction.setLockState, kind, clearSent, withBase,
      FingerprintTx.step, FingerprintTx.setLockState_eq, Option.map_some]; rfl
  | face tx => simp only [step, call, TxAction.setLockState, kind, clearSent, withBase,
      CameraTx.step, CameraTx.setLockState_eq, Option.map_some]; rfl
  | iris tx => simp only [step, call, TxAction.setLockState, kind, clearSent, withBase,
      CameraTx.step, CameraTx.setLockState_eq, Option.map_some]; rfl
  | uKey tx => simp only [step, call, TxAction.setLockState, kind, clearSent, withBase,
      UKeyTx.step, UKeyTx.setLockState_eq, Option.map_some]; rfl
  | custom tx => simp only [step, call, TxAction.setLockState, kind, clearSent, withBase,
      CustomTx.step, CustomTx.setLockState_eq, Option.map_some]; rfl

end Tx

/-! ## What a stopped verification is -/

namespace Tx

/-- `end(closeVerify)` has run for the present attempt: its PAM session is ended and the identifier
invalid, its channel `quit` or its password channel is closed. -/
def AttemptEnded : Tx → Prop
  | .password tx => (∃ ps, tx.session = some ps ∧ ps.ended = true) ∧ tx.sessionId = -1
  | .fingerprint tx => tx.quit = true
  | .face tx => tx.quit = some true
  | .iris tx => tx.quit = some true
  | .uKey tx => tx.ended = true
  | .custom tx => tx.chanPasswd = some true

/-- In no run from here is a success or a failure of the present attempt given. -/
def Silent (tx : Tx) : Prop :=
  ∀ acts tx' outs, run step tx acts = some (tx', outs) → ∀ sent ∈ outs, ∀ g ∈ sent,
    g.attempt = tx.base.attempts → g.status.s ≠ .success ∧ g.status.s ≠ .failure

/-- The present attempt is over for good. -/
def Stopped (tx : Tx) : Prop := tx.AttemptEnded ∧ tx.Silent

@[simp] theorem attemptEnded_withBase (tx : Tx) (b : BaseTx) :
    (tx.withBase b).AttemptEnded ↔ tx.AttemptEnded := by
  cases tx <;> rfl

end Tx

/-- The moves of goroutines and of signal handlers, and the tokens they wait for; the other actions
are calls that start, end or lock. -/
def TxAction.IsReport : TxAction → Prop
  | .password a => match a with
      | .setPassword | .respondPAM _ _ | .doAuth _ _ => True
      | .authenticate _ | .endTx _ | .setLockState _ => False
  | .fingerprint a => match a with
      | .verify _ _ | .give _ => True
      | .authenticate _ | .endTx _ _ | .setLockState _ _ => False
  | .camera a => match a with
      | .code _ | .leave _ | .give => True
      | .authenticate | .endTx _ _ | .setLockState _ _ => False
  | .uKey a => match a with
      | .startVerify _ _ | .verifyResult _ _ | .state _ _ | .setPassword _ => True
      | .authenticate _ | .endTx _ | .setLockState _ => False
  | .custom a => match a with
      | .setPassword => True
      | .authenticate | .endTx _ | .setLockState _ => False

/-! ## While a transaction verifies, its attempt is alive -/

/-- The session is the one that `sessionId` names, and its channel is open. -/
def PasswordTx.Live (pt : PasswordTx) : Prop :=
  ∃ ps, pt.session = some ps ∧ ps.ended = false ∧ pt.sessionId = ps.id

/-- A password transaction is alive, or no goroutine of it is listened to. -/
def PasswordTx.LockInv (pt : PasswordTx) : Prop :=
  pt.Live ∨ pt.devState ≠ .verifying ∧ ∀ a ∈ pt.running, (a.id : ℤ) ≠ pt.sessionId

/-- A fingerprint transaction that verifies has not been told to quit, and no result that is still
to be given makes it verify. -/
structure FingerprintTx.LockInv (ft : FingerprintTx) : Prop where
  verifying : ft.devState = .verifying → ft.quit = false
  pending : ∀ g ∈ ft.pending, statusCodeToDevState g.status.s ≠ .verifying

/-- A camera transaction that verifies has not been told to quit, and neither has its goroutine,
whose `release` is open; a result that is still to be given is an error. -/
structure CameraTx.LockInv {c : CameraType} (ft : CameraTx c) : Prop where
  verifying : ft.devState = .verifying → ft.quit = some false
  running : ∀ n, ft.running = some n → ft.quit = some false ∧ ft.release = some false
  pending : ∀ g, ft.pending = some g → g.status.s = .error

/-- A key transaction that verifies has not been ended, unless its signals still come. -/
def UKeyTx.LockInv (u : UKeyTx) : Prop :=
  u.devState = .verifying → u.ended = true → u.handlers = true

/-- A custom transaction that verifies has its channel open. -/
def CustomTx.LockInv (tx : CustomTx) : Prop :=
  tx.devState = .verifying → tx.isEnded = false ∧ tx.chanPasswd = some false

@[simp] theorem PasswordTx.sendStatus_session (pt : PasswordTx) (a : PamAuth) (s : VerifyStatus) :
    (pt.sendStatus a s).session = pt.session := by
  unfold PasswordTx.sendStatus
  split_ifs <;> rfl

@[simp] theorem PasswordTx.sendStatus_sessionId (pt : PasswordTx) (a : PamAuth)
    (s : VerifyStatus) : (pt.sendStatus a s).sessionId = pt.sessionId := by
  unfold PasswordTx.sendStatus
  split_ifs <;> rfl

/-- A new session is alive. -/
theorem PasswordTx.live_authenticate (pt : PasswordTx) (pamStarts : Bool) :
    (pt.authenticate pamStarts).Live := by
  refine ⟨⟨pt.nextSessionId + 1, false⟩, ?_, rfl, ?_⟩
  · cases pamStarts <;> simp [PasswordTx.authenticate]
  · cases pamStarts <;> simp [PasswordTx.authenticate]

/-- What a goroutine sends leaves the session as it is. -/
theorem PasswordTx.LockInv.sendStatus {pt : PasswordTx} (h : pt.LockInv) {a : PamAuth}
    (ha : a ∈ pt.running) {running : List PamAuth} (hsub : running ⊆ pt.running)
    (s : VerifyStatus) : ({ pt with running := running }.sendStatus a s).LockInv := by
  rcases h with ⟨ps, hps, hopen, hid⟩ | ⟨hdev, hold⟩
  · exact .inl ⟨ps, by simpa using hps, hopen, by simpa using hid⟩
  · unfold PasswordTx.sendStatus
    rw [if_neg (hold a ha)]
    exact .inr ⟨hdev, fun b hb => hold b (hsub hb)⟩

theorem PasswordTx.LockInv.step {pt pt' : PasswordTx} (h : pt.LockInv) {a : PasswordAction}
    (hs : pt.Next a pt') : pt'.LockInv := by
  cases hs with
  | authenticate => exact .inl (pt.live_authenticate _)
  | setPassword => exact h
  | respondPAM ha => exact h.sendStatus ha (List.Subset.refl _) _
  | doAuth ha => exact h.sendStatus ha List.erase_subset _
  | endTx =>
      refine .inr ⟨by simp [PasswordTx.endTx, PasswordTx.giveStatus, defaultVerifyStatusEnd,
        newVerifyStatus, statusCodeToDevState], ?_⟩
      intro a _
      simp only [PasswordTx.endTx]
      omega
  | @setLockState s =>
      rcases h with hlive | ⟨hdev, hold⟩
      · exact .inl hlive
      · exact .inr ⟨fun hv => hdev (pt.notifyLock_devState s hv).1, hold⟩

/-- The result of `doVerify` is no status of a running verification. -/
theorem DoVerify.result_devState {d : DoVerify} {s : VerifyStatus} (h : d.result = some s) :
    statusCodeToDevState s.s ≠ .verifying := by
  unfold DoVerify.result at h
  split at h
  · cases h; simp [newVerifyStatus, statusCodeToDevState]
  · cases h; simp [newVerifyStatus, statusCodeToDevState]
  · split at h <;> cases h <;> simp [newVerifyStatus, statusCodeToDevState]

/-- What a goroutine that leaves `verify` has to give is no status of a running verification. -/
theorem FingerprintTx.verify_pending {ft ft' : FingerprintTx} {n : ℕ} {d : DoVerify}
    (hpend : ∀ g ∈ ft.pending, statusCodeToDevState g.status.s ≠ .verifying)
    (hv : ft.verify n d = some ft') :
    ∀ g ∈ ft'.pending, statusCodeToDevState g.status.s ≠ .verifying := by
  obtain ⟨-, rfl⟩ := FingerprintTx.verify_eq_some.mp hv
  intro g hg
  dsimp only at hg
  rcases hr : d.result with _ | s <;> rw [hr] at hg
  · exact hpend g hg
  · rcases List.mem_cons.mp hg with rfl | hg
    · exact DoVerify.result_devState hr
    · exact hpend g hg

theorem FingerprintTx.LockInv.step {ft ft' : FingerprintTx} (h : ft.LockInv)
    {a : FingerprintAction} (hs : ft.Next a ft') : ft'.LockInv := by
  cases hs with
  | notClaimed => exact h
  | started => exact ⟨fun _ => rfl, h.pending⟩
  | verify hv =>
      have hpend := FingerprintTx.verify_pending h.pending hv
      obtain ⟨-, rfl⟩ := FingerprintTx.verify_eq_some.mp hv
      exact ⟨h.verifying, hpend⟩
  | @give g hg =>
      exact ⟨fun hv => absurd hv (h.pending g hg),
        fun g' hg' => h.pending g' (List.mem_of_mem_erase hg')⟩
  | wasEnded => exact h
  | endIdle => exact ⟨by rintro ⟨⟩, h.pending⟩
  | endReleased => exact ⟨by rintro ⟨⟩, h.pending⟩
  | endWaited _ _ _ _ hv =>
      have hpend := fun hp => FingerprintTx.verify_pending hp hv
      exact ⟨by rintro ⟨⟩, hpend h.pending⟩
  | @setLockState s =>
      exact ⟨fun hv => h.verifying (ft.notifyLock_devState s hv).1, h.pending⟩

theorem CameraTx.LockInv.step {c : CameraType} {ft ft' : CameraTx c} (h : ft.LockInv)
    {a : CameraAction} (hs : ft.Next a ft') : ft'.LockInv := by
  have herror : ∀ {l : CameraLeave} {n : ℕ} {g : Given},
      l.result.map (Given.mk n) = some g → g.status.s = .error := by
    intro l n g hg
    obtain ⟨s, hs, rfl⟩ := Option.map_eq_some_iff.mp hg
    exact CameraLeave.result_error hs
  cases hs with
  | started _ _ _ hft =>
      subst hft
      exact ⟨fun _ => rfl, fun _ _ => ⟨rfl, rfl⟩, h.pending⟩
  | restarted => exact h
  | @passedOn _ n hn => exact ⟨fun _ => (h.running n hn).1, h.running, h.pending⟩
  | leave hl =>
      obtain ⟨n, hn, hrun, hrel, hquit, -, hpend, -⟩ := CameraTx.leave_spec hl
      refine ⟨fun _ => hquit.trans (h.running n hn).1, ?_, ?_⟩
      · intro m hm
        cases hrun.symm.trans hm
      · intro g hg
        exact herror (hpend ▸ hg)
  | @give g hg =>
      refine ⟨?_, h.running, by rintro _ ⟨⟩⟩
      intro hv
      have herr := h.pending g hg
      simp [CameraTx.giveStatus, herr, statusCodeToDevState] at hv
  | wasEnded => exact h
  | endReleased _ _ hrel =>
      refine ⟨by rintro ⟨⟩, ?_, h.pending⟩
      intro n hn
      cases hrel.symm.trans (h.running n hn).2
  | endWaited _ _ _ hl =>
      obtain ⟨n, -, hrun, -, -, -, hpend, -⟩ := CameraTx.leave_spec hl
      refine ⟨by rintro ⟨⟩, ?_, fun g hg => herror (hpend ▸ hg)⟩
      intro m hm
      cases hrun.symm.trans hm
  | @setLockState s =>
      exact ⟨fun hv => h.verifying (ft.notifyLock_devState s hv).1, h.running, h.pending⟩

/-- A `VerifyResult` signal disconnects no handler. -/
theorem UKeyTx.verifyResult_handlers (u : UKeyTx) (id : String) (ok : Bool) :
    (u.verifyResult id ok).handlers = u.handlers := by
  unfold UKeyTx.verifyResult
  split_ifs <;> rfl

/-- A `State` signal disconnects no handler. -/
theorem UKeyTx.state_handlers (u : UKeyTx) (id : String) (s : UKeyState) :
    (u.state id s).handlers = u.handlers := by
  unfold UKeyTx.state
  simp only [UKeyTx.endTx_closeVerify]
  split_ifs <;> rfl

theorem UKeyTx.LockInv.called {u : UKeyTx} (h : u.LockInv) (n : ℕ) (err : Option String) :
    (u.called n err).LockInv := by
  cases err with
  | none => exact h
  | some err => rintro ⟨⟩

theorem UKeyTx.LockInv.step {u u' : UKeyTx} (h : u.LockInv) {a : UKeyAction}
    (hs : u.Next a u') : u'.LockInv := by
  cases hs with
  | @authenticate constructed hcan =>
      have hidle : u.devState = .idle := by
        simp only [BaseTx.canStart, Bool.and_eq_true, decide_eq_true_eq] at hcan
        exact hcan.1
      unfold UKeyTx.authenticate
      dsimp only
      split_ifs
      · rintro - ⟨⟩
      · intro hv
        rw [(u.construct_same constructed).1, hidle] at hv
        cases hv
  | @startVerify n =>
      exact UKeyTx.LockInv.called (u := { u with starting := u.starting.erase n }) h n _
  | verifyResult hon => exact fun _ _ => (u.verifyResult_handlers _ _).trans hon
  | state hon => exact fun _ _ => (u.state_handlers _ _).trans hon
  | setPassword => exact h.called _ _
  | endTx =>
      unfold UKeyTx.endTx
      dsimp only
      split_ifs <;> rintro ⟨⟩
  | @setLockState s => exact fun hv => h (u.notifyLock_devState s hv).1

theorem CustomTx.LockInv.step {tx tx' : CustomTx} (h : tx.LockInv) {a : CustomAction}
    (hs : tx.Next a tx') : tx'.LockInv := by
  cases hs with
  | authenticate => exact fun _ => ⟨rfl, rfl⟩
  | dropped => exact h
  | taken => rintro ⟨⟩
  | wasEnded => exact h
  | ended => rintro ⟨⟩
  | @setLockState s => exact fun hv => h (tx.notifyLock_devState s hv).1

namespace Tx

/-- The invariant of each kind. -/
def LockInv : Tx → Prop
  | .password tx => tx.LockInv
  | .fingerprint tx => tx.LockInv
  | .face tx => tx.LockInv
  | .iris tx => tx.LockInv
  | .uKey tx => tx.LockInv
  | .custom tx => tx.LockInv

/-- A new transaction does not verify, and has no goroutine. -/
theorem lockInv_new (kind : TxKind) (type0 : AuthType) (lockState : LockState) :
    (new kind type0 lockState).LockInv := by
  cases kind with
  | password => exact .inr ⟨by simp [PasswordTx.new, BaseTx.init], fun _ ha => (nomatch ha)⟩
  | fingerprint => exact ⟨fun hv => (nomatch hv), fun _ hg => (nomatch hg)⟩
  | face => exact ⟨fun hv => (nomatch hv), fun _ hn => (nomatch hn), fun _ hg => (nomatch hg)⟩
  | iris => exact ⟨fun hv => (nomatch hv), fun _ hn => (nomatch hn), fun _ hg => (nomatch hg)⟩
  | uKey => exact fun hv => nomatch hv
  | custom => exact fun hv => nomatch hv

theorem LockInv.clearSent {tx : Tx} (h : tx.LockInv) : tx.clearSent.LockInv := by
  cases tx with
  | password tx => exact h
  | fingerprint tx => exact ⟨h.verifying, h.pending⟩
  | face tx => exact ⟨h.verifying, h.running, h.pending⟩
  | iris tx => exact ⟨h.verifying, h.running, h.pending⟩
  | uKey tx => exact h
  | custom tx => exact h

theorem LockInv.call {tx tx' : Tx} (h : tx.LockInv) {a : TxAction} (hs : tx.Calls a tx') :
    tx'.LockInv := by
  cases hs with
  | password hs => exact PasswordTx.LockInv.step h hs
  | fingerprint hs => exact FingerprintTx.LockInv.step h hs
  | face hs => exact CameraTx.LockInv.step h hs
  | iris hs => exact CameraTx.LockInv.step h hs
  | uKey hs => exact UKeyTx.LockInv.step h hs
  | custom hs => exact CustomTx.LockInv.step h hs

/-- Each action keeps the invariant. -/
theorem LockInv.step {tx tx' : Tx} {sent : List Given} (h : tx.LockInv) {a : TxAction}
    (hs : tx.step a = some (tx', sent)) : tx'.LockInv :=
  h.clearSent.call (calls_of_step hs).1

/-- The invariant after every run. -/
theorem lockInv_run {kind : TxKind} {type0 : AuthType} {lockState : LockState}
    {acts : List TxAction} {tx : Tx} {outs : List (List Given)}
    (hrun : run Tx.step (new kind type0 lockState) acts = some (tx, outs)) : tx.LockInv :=
  run_invariant_of_step (fun _ _ _ _ h hs => h.step hs) (lockInv_new kind type0 lockState) hrun

/-! ## The lock does not stop it -/

/-- A success of a key whose signals come can come at any time. -/
theorem uKey_not_silent {u : UKeyTx} (hon : u.handlers = true) : ¬ Silent (.uKey u) := by
  intro h
  have hstep : ∃ tx', Tx.step (.uKey u) (.uKey (.verifyResult u.verificationId true)) =
      some (tx', [⟨u.attempts, newVerifyStatus .success true ""⟩]) := by
    simp only [Tx.step, Tx.call, Tx.clearSent, Tx.withBase, UKeyTx.step, hon, if_true,
      UKeyTx.verifyResult, Option.map_some]
    exact ⟨_, rfl⟩
  obtain ⟨tx', hstep⟩ := hstep
  have hrun := run_cons_eq_some.mpr ⟨tx', _, [], hstep, run_nil _ _, rfl⟩
  exact (h _ _ _ hrun _ List.mem_cons_self _ List.mem_cons_self rfl).1 rfl

/-- While it verifies, a transaction is not stopped. -/
theorem LockInv.not_stopped {tx : Tx} (h : tx.LockInv) (hv : tx.base.devState = .verifying)
    (b : BaseTx) : ¬ (tx.withBase b).Stopped := by
  rintro ⟨hend, hsilent⟩
  rw [attemptEnded_withBase] at hend
  cases tx with
  | password tx =>
      rcases h with ⟨ps, -, -, hid⟩ | ⟨hdev, -⟩
      · have := hend.2
        omega
      · exact hdev hv
  | fingerprint tx => exact absurd (h.verifying hv) (by rw [show tx.quit = true from hend]; simp)
  | face tx => exact absurd (h.verifying hv) (by rw [show tx.quit = some true from hend]; simp)
  | iris tx => exact absurd (h.verifying hv) (by rw [show tx.quit = some true from hend]; simp)
  | uKey tx => exact uKey_not_silent (u := { tx with toBaseTx := b }) (h hv hend) hsilent
  | custom tx =>
      exact absurd (h hv).2 (by rw [show tx.chanPasswd = some true from hend]; simp)

end Tx

section Sent

/-! What a goroutine or a signal handler sends depends on the attempt, and on no state that a lock
changes. -/

variable {b b' : BaseTx} (hattempts : b.attempts = b'.attempts) (hsent : b.sent = b'.sent)
include hattempts hsent

theorem PasswordTx.step_sent_of_base (pt : PasswordTx) {a : PasswordAction}
    (ha : (TxAction.password a).IsReport) :
    (PasswordTx.step { pt with toBaseTx := b } a).map (fun t => t.sent) =
      (PasswordTx.step { pt with toBaseTx := b' } a).map fun t => t.sent := by
  obtain ⟨_, _, _, _, n, sent⟩ := b
  obtain ⟨_, _, _, _, n', sent'⟩ := b'
  obtain rfl : n = n' := hattempts
  obtain rfl : sent = sent' := hsent
  cases a with
  | setPassword =>
      simp only [PasswordTx.step, PasswordTx.setPassword]
      split
      · split_ifs <;> rfl
      · rfl
  | respondPAM a msg =>
      simp only [PasswordTx.step, PasswordTx.sendStatus]
      split_ifs <;> rfl
  | doAuth a ok =>
      simp only [PasswordTx.step, PasswordTx.sendStatus]
      split_ifs <;> rfl
  | authenticate _ => exact ha.elim
  | endTx _ => exact ha.elim
  | setLockState _ => exact ha.elim

theorem FingerprintTx.step_sent_of_base (ft : FingerprintTx) {a : FingerprintAction}
    (ha : (TxAction.fingerprint a).IsReport) :
    (FingerprintTx.step { ft with toBaseTx := b } a).map (fun t => t.sent) =
      (FingerprintTx.step { ft with toBaseTx := b' } a).map fun t => t.sent := by
  obtain ⟨_, _, _, _, n, sent⟩ := b
  obtain ⟨_, _, _, _, n', sent'⟩ := b'
  obtain rfl : n = n' := hattempts
  obtain rfl : sent = sent' := hsent
  cases a with
  | verify n d =>
      simp only [FingerprintTx.step, FingerprintTx.verify]
      split_ifs <;> rfl
  | give g =>
      simp only [FingerprintTx.step]
      split_ifs <;> rfl
  | authenticate _ => exact ha.elim
  | endTx _ _ => exact ha.elim
  | setLockState _ _ => exact ha.elim

theorem CameraTx.step_sent_of_base {c : CameraType} (ft : CameraTx c) {a : CameraAction}
    (ha : (TxAction.camera a).IsReport) :
    (CameraTx.step (c := c) { ft with toBaseTx := b } a).map (fun t => t.sent) =
      (CameraTx.step (c := c) { ft with toBaseTx := b' } a).map fun t => t.sent := by
  obtain ⟨_, _, _, _, n, sent⟩ := b
  obtain ⟨_, _, _, _, n', sent'⟩ := b'
  obtain rfl : n = n' := hattempts
  obtain rfl : sent = sent' := hsent
  cases a with
  | code code =>
      simp only [CameraTx.step, CameraTx.code]
      cases ft.running with
      | none => rfl
      | some n => simp only [Option.bind_some]; split_ifs <;> rfl
  | leave l =>
      simp only [CameraTx.step, CameraTx.leave]
      cases ft.running with
      | none => rfl
      | some n =>
          simp only [Option.bind_some]
          split_ifs
          · cases l.gives c <;> rfl
          · rfl
  | give =>
      simp only [CameraTx.step]
      cases ft.pending <;> rfl
  | authenticate => exact ha.elim
  | endTx _ _ => exact ha.elim
  | setLockState _ _ => exact ha.elim

theorem UKeyTx.step_sent_of_base (u : UKeyTx) {a : UKeyAction}
    (ha : (TxAction.uKey a).IsReport) :
    (UKeyTx.step { u with toBaseTx := b } a).map (fun t => t.sent) =
      (UKeyTx.step { u with toBaseTx := b' } a).map fun t => t.sent := by
  obtain ⟨_, _, _, _, n, sent⟩ := b
  obtain ⟨_, _, _, _, n', sent'⟩ := b'
  obtain rfl : n = n' := hattempts
  obtain rfl : sent = sent' := hsent
  cases a with
  | startVerify n err =>
      simp only [UKeyTx.step]
      split_ifs
      · cases err <;> rfl
      · rfl
  | verifyResult id ok =>
      simp only [UKeyTx.step, UKeyTx.verifyResult]
      split_ifs <;> rfl
  | state id s =>
      simp only [UKeyTx.step, UKeyTx.state, UKeyTx.endTx_closeVerify]
      split_ifs <;> rfl
  | setPassword err => cases err <;> rfl
  | authenticate _ => exact ha.elim
  | endTx _ => exact ha.elim
  | setLockState _ => exact ha.elim

theorem CustomTx.step_sent_of_base (tx : CustomTx) {a : CustomAction}
    (ha : (TxAction.custom a).IsReport) :
    (CustomTx.step { tx with toBaseTx := b } a).map (fun t => t.sent) =
      (CustomTx.step { tx with toBaseTx := b' } a).map fun t => t.sent := by
  obtain ⟨_, _, _, _, n, sent⟩ := b
  obtain ⟨_, _, _, _, n', sent'⟩ := b'
  obtain rfl : n = n' := hattempts
  obtain rfl : sent = sent' := hsent
  cases a with
  | setPassword =>
      simp only [CustomTx.step, CustomTx.setPassword]
      split_ifs <;> rfl
  | authenticate => exact ha.elim
  | endTx _ => exact ha.elim
  | setLockState _ => exact ha.elim

theorem Tx.call_sent_of_base (tx : Tx) {a : TxAction} (ha : a.IsReport) :
    ((tx.withBase b).call a).map (fun t => t.base.sent) =
      ((tx.withBase b').call a).map fun t => t.base.sent := by
  cases tx <;> cases a <;> simp only [Tx.call, Tx.withBase, Option.map_map, Option.map_none]
  · exact PasswordTx.step_sent_of_base hattempts hsent _ ha
  · exact FingerprintTx.step_sent_of_base hattempts hsent _ ha
  · exact CameraTx.step_sent_of_base hattempts hsent _ ha
  · exact CameraTx.step_sent_of_base hattempts hsent _ ha
  · exact UKeyTx.step_sent_of_base hattempts hsent _ ha
  · exact CustomTx.step_sent_of_base hattempts hsent _ ha

end Sent

namespace Tx

/-- What an attempt gives afterwards is what it would have given without the lock. -/
theorem step_sent_of_lock (tx : Tx) (s : LockState) {a : TxAction} (ha : a.IsReport) :
    ((tx.locked s).step a).map Prod.snd = (tx.step a).map Prod.snd := by
  have hstep : ∀ t : Tx, (t.step a).map Prod.snd =
      (t.clearSent.call a).map fun t => t.base.sent := by
    intro t
    rw [step, Option.map_map]
    rfl
  have hlocked : (tx.locked s).clearSent =
      tx.withBase { tx.clearSent.base.notifyLock s with sent := [] } := by
    cases tx <;> rfl
  rw [hstep, hstep, hlocked]
  refine call_sent_of_base ?_ ?_ tx ha
  · simp [clearSent]
  · rfl

/-- **A lock never stops a verification.** In every state of every run of a transaction of any
kind, `setLockState` with a lock, called while it verifies, goes through, does not stop the attempt,
and changes nothing that the attempt gives afterwards. -/
theorem lock_never_stops {kind : TxKind} {type0 : AuthType} {lockState : LockState}
    {acts : List TxAction} {tx : Tx} {outs : List (List Given)}
    (hrun : run Tx.step (new kind type0 lockState) acts = some (tx, outs))
    (hverify : tx.base.devState = .verifying) (finger : DoVerify) (camera : CameraLeave) :
    ∃ tx' sent, tx.step (.setLockState tx.kind .locked finger camera) = some (tx', sent) ∧
      tx'.base.lockState = .locked ∧ ¬ tx'.Stopped ∧
      ∀ a : TxAction, a.IsReport → (tx'.step a).map Prod.snd = (tx.step a).map Prod.snd := by
  refine ⟨tx.locked .locked, _, tx.step_setLockState .locked finger camera, ?_, ?_, ?_⟩
  · simp [locked]
  · exact (lockInv_run hrun).not_stopped hverify _
  · exact fun a ha => tx.step_sent_of_lock .locked ha

/-- A password transaction, locked right after it was started. -/
theorem lock_never_stops_password :
    ∃ tx outs, run Tx.step (new .password .password .unlock) [.password (.authenticate true)] =
        some (tx, outs) ∧
      ∃ tx' sent, tx.step (.setLockState tx.kind .locked ⟨none, -1, none⟩ .quit) =
          some (tx', sent) ∧
        tx'.base.lockState = .locked ∧ ¬ tx'.Stopped ∧
        ∀ a : TxAction, a.IsReport → (tx'.step a).map Prod.snd = (tx.step a).map Prod.snd :=
  ⟨_, _, rfl, @lock_never_stops .password .password .unlock [.password (.authenticate true)] _ _
    rfl rfl _ _⟩

/-- After the lock the goroutine of the password is still listened to, and its success is given. -/
theorem locked_password_succeeds :
    ¬ ∀ tx outs tx' sent,
      run Tx.step (new .password .password .unlock) [.password (.authenticate true)] =
        some (tx, outs) →
      tx.base.devState = .verifying → tx.base.lockState = .unlock →
      tx.step (.password (.setLockState .locked)) = some (tx', sent) → tx'.Stopped := by
  intro h
  have hstopped := h _ _ _ _ rfl rfl rfl rfl
  have hsilent := hstopped.2 [.password (.doAuth ⟨1, 1⟩ true)] _ _ rfl
  exact (hsilent _ List.mem_cons_self _ List.mem_cons_self rfl).1 rfl

end Tx

end LingmoAuthenticate.Session
