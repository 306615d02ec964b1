import LingmoAuthenticate.Session.LockState
import LingmoAuthenticate.Session.Weight

/-!
# The attempts that can still succeed

An attempt is outstanding while it can still report a success without being started again: a
goroutine or a signal handler is listened to, or a success is on its way.

* `Tx.maySucceed_step`: no call but a start makes an attempt outstanding, and only an outstanding
  attempt gives a success, where the driver of a key is sound (`Tx.DriverSound`).
* `Tx.mayReport_step`: whatever the driver of a key reports, it is listened to only from the first
  start on.
* `Tx.step_start`: a start finds the transaction unlocked, and gives no success itself.
-/

namespace LingmoAuthenticate.Session

open Lib AuthCommon

/-! ## Successes given -/

/-- A success is among the statuses. -/
def SuccessIn (sent : List Given) : Prop := ∃ g ∈ sent, g.status.s = .success

@[simp] theorem newVerifyStatus_s (s : StatusCode) (b : Bool) (msg : String) :
    (newVerifyStatus s b msg).s = s := by
  unfold newVerifyStatus
  split_ifs <;> rfl

@[simp] theorem defaultVerifyStatusEnd_s : defaultVerifyStatusEnd.s = .ended := rfl

@[simp] theorem defaultVerifyStatusStarted_s : defaultVerifyStatusStarted.s = .started := rfl

@[simp] theorem successIn_nil : ¬ SuccessIn [] := by
  simp [SuccessIn]

@[simp] theorem successIn_cons (g : Given) (sent : List Given) :
    SuccessIn (g :: sent) ↔ g.status.s = .success ∨ SuccessIn sent := by
  simp [SuccessIn]

@[simp] theorem successIn_append (sent sent' : List Given) :
    SuccessIn (sent ++ sent') ↔ SuccessIn sent ∨ SuccessIn sent' := by
  simp [SuccessIn, or_and_right, exists_or]

/-- Giving a status adds it to what was sent. -/
theorem successIn_giveStatus (bt : BaseTx) (n : ℕ) (s : VerifyStatus) :
    SuccessIn (bt.giveStatus n s).sent ↔ SuccessIn bt.sent ∨ s.s = .success := by
  simp

/-- Telling of a lock gives no success. -/
@[simp] theorem successIn_notifyLock (bt : BaseTx) (s : LockState) :
    SuccessIn (bt.notifyLock s).sent ↔ SuccessIn bt.sent := by
  have hset : ∀ b : BaseTx, ({ b with lockState := s } : BaseTx).sent = b.sent := fun _ => rfl
  unfold BaseTx.notifyLock
  rw [hset]
  split_ifs
  · rw [successIn_giveStatus]
    cases s <;> simp [LockState.toStatusCode]
  · rfl

/-- A success that is left was there. -/
theorem SuccessIn.of_erase {g : Given} {sent : List Given} (h : SuccessIn (sent.erase g)) :
    SuccessIn sent := by
  obtain ⟨g', hg', hs⟩ := h
  exact ⟨g', List.mem_of_mem_erase hg', hs⟩

/-! ## Each kind of transaction -/

/-- A goroutine whose session is the present one. -/
def PasswordTx.MaySucceed (pt : PasswordTx) : Prop :=
  ∃ a ∈ pt.running, (a.id : ℤ) = pt.sessionId

/-- A goroutine in `verify` that can leave it, or a success that has left it. -/
def FingerprintTx.MaySucceed (ft : FingerprintTx) : Prop :=
  (ft.running ≠ [] ∧ ft.release = false) ∨ SuccessIn ft.pending

/-- A goroutine in `verify`, or a success that has left it. -/
def CameraTx.MaySucceed {c : CameraType} (ft : CameraTx c) : Prop :=
  ft.running ≠ none ∨ SuccessIn ft.pending.toList

/-- A verification that is neither decided nor ended, and whose signals are listened to. -/
def UKeyTx.MaySucceed (u : UKeyTx) : Prop := u.handlers = true ∧ u.settled = false

/-- A goroutine that waits on the present channel. -/
def CustomTx.MaySucceed (tx : CustomTx) : Prop :=
  tx.isEnded = false ∧ tx.attempts ∈ tx.running

/-- The driver of a key reports the success of a verification only while it runs. -/
def UKeyTx.DriverSound (u : UKeyTx) (a : UKeyAction) : Prop :=
  ∀ id, a = .verifyResult id true → id = u.verificationId → u.settled = false

theorem PasswordTx.successIn_sendStatus {pt : PasswordTx} {a : PamAuth} {s : VerifyStatus}
    (h : SuccessIn (pt.sendStatus a s).sent) :
    SuccessIn pt.sent ∨ (a.id : ℤ) = pt.sessionId ∧ s.s = .success := by
  unfold PasswordTx.sendStatus at h
  split_ifs at h with hid
  · simp only [giveStatus, successIn_giveStatus] at h
    exact h.imp id fun hs => ⟨hid, hs⟩
  · exact .inl h

@[simp] theorem PasswordTx.sendStatus_running (pt : PasswordTx) (a : PamAuth)
    (s : VerifyStatus) : (pt.sendStatus a s).running = pt.running := by
  unfold PasswordTx.sendStatus
  split_ifs <;> rfl

@[simp] theorem PasswordTx.maySucceed_sendStatus (pt : PasswordTx) (a : PamAuth)
    (s : VerifyStatus) : (pt.sendStatus a s).MaySucceed ↔ pt.MaySucceed := by
  simp only [PasswordTx.MaySucceed, sendStatus_running, sendStatus_sessionId]

theorem PasswordTx.maySucceed_step {pt pt' : PasswordTx} {a : PasswordAction}
    (hs : pt.Next a pt') (ha : ∀ p, a ≠ .authenticate p)
    (h : SuccessIn pt'.sent ∨ pt'.MaySucceed) : SuccessIn pt.sent ∨ pt.MaySucceed := by
  cases hs with
  | authenticate => exact absurd rfl (ha _)
  | setPassword => exact h
  | respondPAM =>
      rcases h with h | h
      · rcases PasswordTx.successIn_sendStatus h with h | ⟨-, h⟩
        · exact .inl h
        · rw [newVerifyStatus_s] at h
          cases h
      · exact .inr ((maySucceed_sendStatus _ _ _).mp h)
  | @doAuth a ok ha' =>
      rcases h with h | h
      · rcases PasswordTx.successIn_sendStatus h with h | ⟨hid, -⟩
        · exact .inl h
        · exact .inr ⟨a, ha', hid⟩
      · obtain ⟨b, hb, hid⟩ := (maySucceed_sendStatus _ _ _).mp h
        exact .inr ⟨b, List.mem_of_mem_erase hb, hid⟩
  | endTx =>
      rcases h with h | ⟨b, -, hid⟩
      · simp only [endTx, giveStatus, successIn_giveStatus, defaultVerifyStatusEnd_s,
          reduceCtorEq, or_false] at h
        exact .inl h
      · -- an ended transaction has an identifier that no goroutine has
        simp only [endTx] at hid
        omega
  | setLockState => exact h.imp (successIn_notifyLock _ _).mp id

/-- A goroutine leaves `verify` only while it is outstanding. -/
theorem FingerprintTx.maySucceed_of_verify {ft ft' : FingerprintTx} {n : ℕ} {d : DoVerify}
    (hv : ft.verify n d = some ft') : ft.MaySucceed := by
  obtain ⟨⟨hn, hrel⟩, -⟩ := FingerprintTx.verify_eq_some.mp hv
  exact .inl ⟨List.ne_nil_of_mem hn, hrel⟩

theorem FingerprintTx.maySucceed_step {ft ft' : FingerprintTx} {a : FingerprintAction}
    (hs : ft.Next a ft') (ha : ∀ e, a ≠ .authenticate e)
    (h : SuccessIn ft'.sent ∨ ft'.MaySucceed) : SuccessIn ft.sent ∨ ft.MaySucceed := by
  cases hs with
  | notClaimed => exact h
  | started => exact absurd rfl (ha _)
  | verify hv => exact .inr (maySucceed_of_verify hv)
  | @give g hg =>
      rcases h with h | h | h
      · simp only [giveStatus, successIn_giveStatus] at h
        exact h.imp id fun h => .inr ⟨g, hg, h⟩
      · exact .inr (.inl h)
      · exact .inr (.inr h.of_erase)
  | wasEnded => exact h
  | endIdle =>
      refine h.imp ?_ id
      intro h
      simpa [giveStatus] using h
  | endReleased =>
      refine h.imp ?_ id
      intro h
      simpa [giveStatus] using h
  | endWaited _ _ _ _ hv =>
      -- `end` waits for a goroutine, which is outstanding
      have hwaiting := maySucceed_of_verify hv
      exact .inr hwaiting
  | setLockState => exact h.imp (successIn_notifyLock _ _).mp id

/-- A goroutine leaves `verify` only while it is outstanding. -/
theorem CameraTx.maySucceed_of_leave {c : CameraType} {ft ft' : CameraTx c} {l : CameraLeave}
    (hl : ft.leave l = some ft') : ft.MaySucceed := by
  obtain ⟨n, hn, -⟩ := CameraTx.leave_spec hl
  exact .inl (by simp [hn])

theorem CameraTx.maySucceed_step {c : CameraType} {ft ft' : CameraTx c} {a : CameraAction}
    (hs : ft.Next a ft') (ha : a ≠ .authenticate)
    (h : SuccessIn ft'.sent ∨ ft'.MaySucceed) : SuccessIn ft.sent ∨ ft.MaySucceed := by
  cases hs with
  | started => exact absurd rfl ha
  | restarted hn => exact .inr (.inl (by simp [hn]))
  | passedOn hn => exact .inr (.inl (by simp [hn]))
  | leave hl => exact .inr (maySucceed_of_leave hl)
  | give hg =>
      rcases h with h | h | h
      · simp only [giveStatus, successIn_giveStatus] at h
        exact h.imp id fun h => .inr (by simp [hg, h])
      · exact .inr (.inl h)
      · exact absurd h successIn_nil
  | wasEnded => exact h
  | endReleased =>
      refine h.imp ?_ id
      intro h
      simpa [giveStatus] using h
  | endWaited _ _ _ hl =>
      -- `end` waits for the goroutine, which is outstanding
      have hwaiting := maySucceed_of_leave hl
      exact .inr hwaiting
  | setLockState => exact h.imp (successIn_notifyLock _ _).mp id

/-- No state of a device is a success. -/
theorem stateToStatusCode_ne_success (s : UKeyState) (lost : Bool) :
    stateToStatusCode s lost ≠ .success := by
  cases s <;> cases lost <;> simp [stateToStatusCode]

/-- A call that failed gives no success, and leaves no attempt outstanding that was not. -/
theorem UKeyTx.maySucceed_called {u : UKeyTx} {n : ℕ} {err : Option String}
    (h : SuccessIn (u.called n err).sent ∨ (u.called n err).MaySucceed) :
    SuccessIn u.sent ∨ u.MaySucceed := by
  cases err with
  | none => exact h
  | some err =>
      refine h.imp ?_ fun h => ⟨h.1, ?_⟩
      · intro h
        simpa [called, giveStatus] using h
      · exact (Bool.or_eq_false_iff.mp h.2).1

theorem UKeyTx.maySucceed_step {u u' : UKeyTx} {a : UKeyAction} (hdrv : u.DriverSound a)
    (hs : u.Next a u') (ha : ∀ p, a ≠ .authenticate p)
    (h : SuccessIn u'.sent ∨ u'.MaySucceed) : SuccessIn u.sent ∨ u.MaySucceed := by
  cases hs with
  | authenticate => exact absurd rfl (ha _)
  | @startVerify n =>
      exact UKeyTx.maySucceed_called (u := { u with starting := u.starting.erase n }) h
  | @verifyResult id ok hon =>
      unfold UKeyTx.verifyResult at h
      split_ifs at h with hid hok
      · exact .inr ⟨hon, hdrv id (hok ▸ rfl) hid⟩
      · refine h.imp ?_ ?_
        · intro h
          simpa [giveStatus] using h
        · intro h
          cases h.2
      · exact h
  | state =>
      unfold UKeyTx.state at h
      simp only [endTx_closeVerify] at h
      -- where the device is gone the verification is ended, and not outstanding any more
      split_ifs at h <;>
        simp [giveStatus, MaySucceed, stateToStatusCode_ne_success] at h <;>
        first | exact .inl h | exact h
  | setPassword => exact UKeyTx.maySucceed_called h
  | endTx =>
      unfold UKeyTx.endTx at h
      dsimp only at h
      split_ifs at h <;> simp [giveStatus, MaySucceed] at h <;> exact .inl h
  | setLockState => exact h.imp (successIn_notifyLock _ _).mp id

/-- The signals of a key are listened to from a start on. -/
theorem UKeyTx.handlers_step {u u' : UKeyTx} {a : UKeyAction} (hs : u.Next a u')
    (ha : ∀ p, a ≠ .authenticate p) (h : SuccessIn u'.sent ∨ u'.handlers = true) :
    SuccessIn u.sent ∨ u.handlers = true := by
  have hcalled : ∀ {u : UKeyTx} {n : ℕ} {err : Option String},
      SuccessIn (u.called n err).sent ∨ (u.called n err).handlers = true →
      SuccessIn u.sent ∨ u.handlers = true := by
    intro u n err h
    cases err with
    | none => exact h
    | some err => exact h.imp (fun h => by simpa [called, giveStatus] using h) id
  cases hs with
  | authenticate => exact absurd rfl (ha _)
  | startVerify => exact @hcalled { u with starting := u.starting.erase _ } _ _ h
  | verifyResult hon => exact .inr hon
  | state hon => exact .inr hon
  | setPassword => exact hcalled h
  | endTx =>
      unfold UKeyTx.endTx at h
      dsimp only at h
      split_ifs at h
      · exact .inl (by simpa [giveStatus] using h)
      · simpa [giveStatus] using h
  | setLockState => exact h.imp (successIn_notifyLock _ _).mp id

theorem CustomTx.maySucceed_step {tx tx' : CustomTx} {a : CustomAction}
    (hs : tx.Next a tx') (ha : a ≠ .authenticate)
    (h : SuccessIn tx'.sent ∨ tx'.MaySucceed) : SuccessIn tx.sent ∨ tx.MaySucceed := by
  cases hs with
  | authenticate => exact absurd rfl ha
  | dropped => exact h
  | taken hend hrunning => exact .inr ⟨hend, hrunning⟩
  | wasEnded => exact h
  | ended =>
      refine h.imp ?_ ?_
      · intro h
        simpa [giveStatus] using h
      · intro h
        cases h.1
  | setLockState =>
      exact h.imp (successIn_notifyLock _ _).mp fun h => by simpa [MaySucceed] using h

/-! ## Starts -/

theorem PasswordTx.start_quiet {pt pt' : PasswordTx} {pamStarts : Bool}
    (hs : pt.Next (.authenticate pamStarts) pt') :
    pt.canStart = true ∧ (SuccessIn pt'.sent → SuccessIn pt.sent) := by
  cases hs with
  | authenticate hcan =>
      refine ⟨hcan, ?_⟩
      intro h
      cases pamStarts with
      | false => exact h
      | true =>
          rcases PasswordTx.successIn_sendStatus h with h | ⟨-, h⟩
          · exact h
          · cases h

theorem FingerprintTx.start_quiet {ft ft' : FingerprintTx} {claimErr : Option String}
    (hs : ft.Next (.authenticate claimErr) ft') :
    ft.canStart = true ∧ (SuccessIn ft'.sent → SuccessIn ft.sent) := by
  cases hs with
  | notClaimed hcan => exact ⟨hcan, id⟩
  | started hcan => exact ⟨hcan, fun h => by simpa [FingerprintTx.authenticate, giveStatus] using h⟩

theorem CameraTx.start_quiet {c : CameraType} {ft ft' : CameraTx c}
    (hs : ft.Next .authenticate ft') :
    ft.canStart = true ∧ (SuccessIn ft'.sent → SuccessIn ft.sent) := by
  cases hs with
  | started hcan _ _ hft =>
      subst hft
      exact ⟨hcan, fun h => by simpa [giveStatus] using h⟩

theorem UKeyTx.start_quiet {u u' : UKeyTx} {constructed : Except String String}
    (hs : u.Next (.authenticate constructed) u') :
    u.canStart = true ∧ (SuccessIn u'.sent → SuccessIn u.sent) := by
  cases hs with
  | authenticate hcan =>
      refine ⟨hcan, ?_⟩
      intro h
      unfold UKeyTx.authenticate at h
      dsimp only at h
      rw [← (u.construct_same constructed).1]
      split_ifs at h
      · simpa [giveStatus] using h
      · exact h

theorem CustomTx.start_quiet {tx tx' : CustomTx} (hs : tx.Next .authenticate tx') :
    tx.canStart = true ∧ (SuccessIn tx'.sent → SuccessIn tx.sent) := by
  cases hs with
  | authenticate hcan =>
      exact ⟨hcan, fun h => by simpa [CustomTx.authenticate, giveStatus] using h⟩

/-! ## A transaction of any kind -/

namespace Tx

/-- An attempt is outstanding. -/
def MaySucceed : Tx → Prop
  | .password tx => tx.MaySucceed
  | .fingerprint tx => tx.MaySucceed
  | .face tx => tx.MaySucceed
  | .iris tx => tx.MaySucceed
  | .uKey tx => tx.MaySucceed
  | .custom tx => tx.MaySucceed

/-- The driver of a key is sound; the other kinds report through goroutines of their own. -/
def DriverSound : Tx → TxAction → Prop
  | .uKey u, .uKey a => u.DriverSound a
  | _, _ => True

theorem maySucceed_call {tx tx' : Tx} {a : TxAction} (hdrv : tx.DriverSound a)
    (hs : tx.Calls a tx') (ha : a.isStart = false)
    (h : SuccessIn tx'.base.sent ∨ tx'.MaySucceed) : SuccessIn tx.base.sent ∨ tx.MaySucceed := by
  cases hs with
  | password hs => exact PasswordTx.maySucceed_step hs (by rintro p rfl; cases ha) h
  | fingerprint hs => exact FingerprintTx.maySucceed_step hs (by rintro p rfl; cases ha) h
  | face hs => exact CameraTx.maySucceed_step hs (by rintro rfl; cases ha) h
  | iris hs => exact CameraTx.maySucceed_step hs (by rintro rfl; cases ha) h
  | uKey hs => exact UKeyTx.maySucceed_step hdrv hs (by rintro p rfl; cases ha) h
  | custom hs => exact CustomTx.maySucceed_step hs (by rintro rfl; cases ha) h

/-- **Only an outstanding attempt gives a success**, and no call but a start makes one
outstanding. -/
theorem maySucceed_step {tx tx' : Tx} {a : TxAction} {sent : List Given}
    (hdrv : tx.DriverSound a) (hs : tx.step a = some (tx', sent)) (ha : a.isStart = false)
    (h : SuccessIn sent ∨ tx'.MaySucceed) : tx.MaySucceed := by
  obtain ⟨ht, rfl⟩ := calls_of_step hs
  have hclear : tx.clearSent.DriverSound a := by
    cases tx <;> cases a <;> exact hdrv
  rcases maySucceed_call hclear ht ha h with h | h
  · simp [clearSent] at h
  · cases tx <;> exact h

/-- An attempt is outstanding, or it is one of a key whose signals are listened to. -/
def MayReport : Tx → Prop
  | .uKey u => u.handlers = true
  | tx => tx.MaySucceed

theorem mayReport_call {tx tx' : Tx} {a : TxAction} (hs : tx.Calls a tx') (ha : a.isStart = false)
    (h : SuccessIn tx'.base.sent ∨ tx'.MayReport) : SuccessIn tx.base.sent ∨ tx.MayReport := by
  cases hs with
  | password hs => exact PasswordTx.maySucceed_step hs (by rintro p rfl; cases ha) h
  | fingerprint hs => exact FingerprintTx.maySucceed_step hs (by rintro p rfl; cases ha) h
  | face hs => exact CameraTx.maySucceed_step hs (by rintro rfl; cases ha) h
  | iris hs => exact CameraTx.maySucceed_step hs (by rintro rfl; cases ha) h
  | uKey hs => exact UKeyTx.handlers_step hs (by rintro p rfl; cases ha) h
  | custom hs => exact CustomTx.maySucceed_step hs (by rintro rfl; cases ha) h

/-- **Whatever the driver of a key reports**, no call but a start makes a transaction one that can
report a success, and no other transaction gives one. -/
theorem mayReport_step {tx tx' : Tx} {a : TxAction} {sent : List Given}
    (hs : tx.step a = some (tx', sent)) (ha : a.isStart = false)
    (h : SuccessIn sent ∨ tx'.MayReport) : tx.MayReport := by
  obtain ⟨ht, rfl⟩ := calls_of_step hs
  rcases mayReport_call ht ha h with h | h
  · simp [clearSent] at h
  · cases tx <;> exact h

theorem call_start {tx tx' : Tx} {a : TxAction} (hs : tx.Calls a tx') (ha : a.isStart = true) :
    tx.base.canStart = true ∧ (SuccessIn tx'.base.sent → SuccessIn tx.base.sent) := by
  cases hs with
  | @password _ a _ hs => cases a <;> cases ha; exact PasswordTx.start_quiet hs
  | @fingerprint _ a _ hs => cases a <;> cases ha; exact FingerprintTx.start_quiet hs
  | @face _ a _ hs => cases a <;> cases ha; exact CameraTx.start_quiet hs
  | @iris _ a _ hs => cases a <;> cases ha; exact CameraTx.start_quiet hs
  | @uKey _ a _ hs => cases a <;> cases ha; exact UKeyTx.start_quiet hs
  | @custom _ a _ hs => cases a <;> cases ha; exact CustomTx.start_quiet hs

/-- **A start finds the transaction unlocked**, and gives no success itself. -/
theorem step_start {tx tx' : Tx} {a : TxAction} {sent : List Given}
    (hs : tx.step a = some (tx', sent)) (ha : a.isStart = true) :
    tx.base.lockState = .unlock ∧ ¬ SuccessIn sent := by
  obtain ⟨ht, rfl⟩ := calls_of_step hs
  obtain ⟨hcan, hsent⟩ := call_start ht ha
  simp only [BaseTx.canStart, clearSent, base_withBase, Bool.and_eq_true,
    decide_eq_true_eq] at hcan hsent
  exact ⟨hcan.2, fun h => successIn_nil (hsent h)⟩

end Tx

end LingmoAuthenticate.Session
