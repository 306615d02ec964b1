import LingmoAuthenticate.Session.LockState

/-!
# What ending a factor takes: the six copies of `end`

The controllers end a transaction that is not idle, and expect it to be idle then. A lock makes a
transaction busy that was never started, or that has been ended before, and the flags and channels
that `end` reads say nothing of that. And the status that `end` gives goes into the channel of the
controller, which takes ten before somebody listens.

* `EndInv`: the attempt that `end` waits for is there.
* `Tx.endsIdle_iff_endable`: when the body of `end` returns and leaves a busy transaction idle,
  whatever the goroutine does that it waits for.
* `SessionTx`: a transaction with the channel that its statuses go into; `SessionTx.EndsIdle` is
  what is expected of the call there.
* `SessionTx.endsIdle_iff`: exactly when a busy transaction of any run lives up to it.
-/

namespace LingmoAuthenticate.Session

open Lib AuthCommon

/-- The action that calls `end`; where it waits for a goroutine, the action says how that
returns. -/
def TxAction.endTx (kind : TxKind) (ct : CloseType) (finger : DoVerify) (camera : CameraLeave) :
    TxAction :=
  match kind with
  | .password => .password (.endTx ct)
  | .fingerprint => .fingerprint (.endTx ct finger)
  | .face | .iris => .camera (.endTx ct camera)
  | .uKey => .uKey (.endTx ct)
  | .custom => .custom (.endTx ct)

namespace Tx

/-- The ways in which the goroutine of the transaction can return. -/
def CanReturn : Tx → CameraLeave → Prop
  | .face _, l => l.isPossible .face = true
  | .iris _, l => l.isPossible .iris = true
  | _, _ => True

/-- `end` returns and leaves the transaction idle, however the goroutine returns that it may wait
for. -/
def EndsIdle (tx : Tx) (ct : CloseType) : Prop :=
  ∀ finger camera, tx.CanReturn camera → ∃ tx' sent,
    tx.step (.endTx tx.kind ct finger camera) = some (tx', sent) ∧ tx'.base.devState = .idle

/-- The transaction is not marked as ended, and the channel exists that its `end` closes, or waits
for, without asking. -/
def Endable : Tx → Prop
  | .password _ | .uKey _ => True
  | .fingerprint tx => tx.isEnded = false
  | .face tx => tx.isEnded = false ∧ tx.release ≠ none
  | .iris tx => tx.isEnded = false ∧ tx.release ≠ none
  | .custom tx => tx.isEnded = false ∧ tx.chanPasswd ≠ none

end Tx

/-! ## The goroutine that `end` waits for is there -/

/-- A fingerprint transaction that verifies was started, and its present attempt is in `verify` as
long as the channel `release` is open. -/
structure FingerprintTx.EndInv (ft : FingerprintTx) : Prop where
  started : ft.devState = .verifying → ft.attempts ≠ 0
  waiting : ft.attempts ≠ 0 → ft.release = false → ft.attempts ∈ ft.running

/-- A camera transaction has a goroutine as long as the channel `release` is open. -/
def CameraTx.EndInv {c : CameraType} (ft : CameraTx c) : Prop :=
  ft.release = some false → ft.running.isSome

/-- A custom transaction whose channel is closed is marked as ended. -/
def CustomTx.EndInv (tx : CustomTx) : Prop := tx.chanPasswd = some true → tx.isEnded = true

theorem FingerprintTx.EndInv.step {ft ft' : FingerprintTx} (h : ft.EndInv) (hl : ft.LockInv)
    {a : FingerprintAction} (hs : ft.Next a ft') : ft'.EndInv := by
  cases hs with
  | notClaimed => exact h
  | started => exact ⟨fun _ => Nat.succ_ne_zero _, fun _ _ => List.mem_cons_self⟩
  | verify hv =>
      obtain ⟨-, rfl⟩ := FingerprintTx.verify_eq_some.mp hv
      exact ⟨h.started, by rintro - ⟨⟩⟩
  | @give g hg => exact ⟨fun hv => absurd hv (hl.pending g hg), h.waiting⟩
  | wasEnded => exact h
  | endIdle => exact ⟨by rintro ⟨⟩, h.waiting⟩
  | endReleased => exact ⟨by rintro ⟨⟩, h.waiting⟩
  | endWaited _ _ _ _ hv =>
      obtain ⟨-, rfl⟩ := FingerprintTx.verify_eq_some.mp hv
      exact ⟨by rintro ⟨⟩, by rintro - ⟨⟩⟩
  | @setLockState s =>
      constructor
      · intro hv
        exact (ft.notifyLock_attempts s).symm ▸ h.started (ft.notifyLock_devState s hv).1
      · intro hstarted hrel
        simp only [BaseTx.notifyLock_attempts] at hstarted ⊢
        exact h.waiting hstarted hrel

theorem CameraTx.EndInv.step {c : CameraType} {ft ft' : CameraTx c} (h : ft.EndInv)
    {a : CameraAction} (hs : ft.Next a ft') : ft'.EndInv := by
  have hleave : ∀ {ft ft' : CameraTx c} {l : CameraLeave},
      ft.leave l = some ft' → ft'.release ≠ some false := by
    intro ft ft' l hl hopen
    obtain ⟨n, -, -, hrel, -⟩ := CameraTx.leave_spec hl
    cases hrel.symm.trans hopen
  cases hs with
  | started _ _ _ hft =>
      subst hft
      exact fun _ => rfl
  | restarted => exact h
  | passedOn => exact h
  | leave hl => exact fun hopen => absurd hopen (hleave hl)
  | give => exact h
  | wasEnded => exact h
  | endReleased _ _ hrel =>
      intro hopen
      cases hrel.symm.trans hopen
  | endWaited _ _ _ hl =>
      have hclosed := hleave hl
      exact fun hopen => absurd hopen hclosed
  | setLockState => exact h

theorem CustomTx.EndInv.step {tx tx' : CustomTx} (h : tx.EndInv) {a : CustomAction}
    (hs : tx.Next a tx') : tx'.EndInv := by
  cases hs with
  | authenticate => rintro ⟨⟩
  | dropped => exact h
  | taken => exact h
  | wasEnded => exact h
  | ended => exact fun _ => rfl
  | setLockState => exact h

namespace Tx

/-- The invariant of each kind. -/
def EndInv : Tx → Prop
  | .password _ | .uKey _ => True
  | .fingerprint tx => tx.EndInv
  | .face tx => tx.EndInv
  | .iris tx => tx.EndInv
  | .custom tx => tx.EndInv

/-- A new transaction has no channels. -/
theorem endInv_new (kind : TxKind) (type0 : AuthType) (lockState : LockState) :
    (new kind type0 lockState).EndInv := by
  cases kind with
  | password => trivial
  | fingerprint => exact ⟨by rintro ⟨⟩, fun h => absurd rfl h⟩
  | face => rintro ⟨⟩
  | iris => rintro ⟨⟩
  | uKey => trivial
  | custom => rintro ⟨⟩

theorem EndInv.clearSent {tx : Tx} (h : tx.EndInv) : tx.clearSent.EndInv := by
  cases tx with
  | fingerprint tx => exact ⟨h.started, h.waiting⟩
  | _ => exact h

theorem EndInv.call {tx tx' : Tx} (h : tx.EndInv) (hl : tx.LockInv) {a : TxAction}
    (hs : tx.Calls a tx') : tx'.EndInv := by
  cases hs with
  | password => trivial
  | fingerprint hs => exact FingerprintTx.EndInv.step h hl hs
  | face hs => exact CameraTx.EndInv.step h hs
  | iris hs => exact CameraTx.EndInv.step h hs
  | uKey => trivial
  | custom hs => exact CustomTx.EndInv.step h hs

/-- Both invariants are kept. -/
theorem endInv_step {tx tx' : Tx} {a : TxAction} {sent : List Given}
    (h : tx.EndInv ∧ tx.LockInv) (hs : tx.step a = some (tx', sent)) :
    tx'.EndInv ∧ tx'.LockInv :=
  ⟨h.1.clearSent.call h.2.clearSent (calls_of_step hs).1, h.2.step hs⟩

end Tx

/-! ## When `end` returns -/

/-- The call of `end` returns and leaves the transaction idle. -/
def ReturnsIdle {τ : Type*} (base : τ → BaseTx) (ended : Option τ) : Prop :=
  ∃ tx, ended = some tx ∧ (base tx).devState = .idle

/-- A fingerprint transaction waits for a goroutine that is there, unless it is marked as ended. -/
theorem FingerprintTx.endTx_iff {ft : FingerprintTx} (hl : ft.LockInv) (he : ft.EndInv)
    (hbusy : ft.devState ≠ .idle) (ct : CloseType) (waited : DoVerify) :
    ReturnsIdle toBaseTx (ft.endTx ct waited) ↔ ft.isEnded = false := by
  unfold FingerprintTx.endTx
  by_cases hend : ft.isEnded = true
  · rw [if_pos hend]
    refine iff_of_false ?_ (by simp [hend])
    rintro ⟨ft', heq, hidle⟩
    cases heq
    exact hbusy hidle
  · rw [if_neg hend]
    refine iff_of_true ?_ (by simpa using hend)
    suffices hquit : ∃ ft₁, (if ft.devState = .verifying then
        if ft.quit then none
        else if ft.release then some { ft with quit := true }
          else FingerprintTx.verify { ft with quit := true } ft.attempts waited
      else some ft) = some ft₁ by
      obtain ⟨ft₁, hquit⟩ := hquit
      exact ⟨_, Option.map_eq_some_iff.mpr ⟨ft₁, hquit, rfl⟩, rfl⟩
    split_ifs with hv hq hr
    · rw [hl.verifying hv] at hq
      cases hq
    · exact ⟨_, rfl⟩
    · have hwait := he.waiting (he.started hv) (by simpa using hr)
      exact ⟨_, FingerprintTx.verify_eq_some.mpr ⟨⟨hwait, by simpa using hr⟩, rfl⟩⟩
    · exact ⟨_, rfl⟩

/-- A goroutine of a camera that can return so does. -/
theorem CameraTx.leave_isSome {c : CameraType} {ft : CameraTx c} (hrun : ft.running.isSome)
    {l : CameraLeave} (hl : l.isPossible c = true) : ∃ ft', ft.leave l = some ft' := by
  obtain ⟨n, hn⟩ := Option.isSome_iff_exists.mp hrun
  unfold CameraTx.leave
  rw [hn, Option.bind_some, if_pos hl]
  exact ⟨_, rfl⟩

/-- A camera transaction waits for a goroutine that is there, unless it is marked as ended or was
never started. -/
theorem CameraTx.endTx_iff {c : CameraType} {ft : CameraTx c} (hl : ft.LockInv) (he : ft.EndInv)
    (hbusy : ft.devState ≠ .idle) (ct : CloseType) {waited : CameraLeave}
    (hwaited : waited.isPossible c = true) :
    ReturnsIdle toBaseTx (ft.endTx ct waited) ↔ ft.isEnded = false ∧ ft.release ≠ none := by
  unfold CameraTx.endTx
  by_cases hend : ft.isEnded = true
  · rw [if_pos hend]
    refine iff_of_false ?_ (by simp [hend])
    rintro ⟨ft', heq, hidle⟩
    cases heq
    exact hbusy hidle
  · rw [if_neg hend]
    -- closing `quit` does not panic, and leaves the rest alone
    obtain ⟨ft₁, h₁, hrun, hrel⟩ : ∃ ft₁ : CameraTx c, (if ft.devState = .verifying then
        if ft.quit = some false then some { ft with quit := some true } else none
        else some ft) = some ft₁ ∧ ft₁.running = ft.running ∧ ft₁.release = ft.release := by
      split_ifs with hv hq
      · exact ⟨_, rfl, rfl, rfl⟩
      · exact absurd (hl.verifying hv) hq
      · exact ⟨ft, rfl, rfl, rfl⟩
    dsimp only
    rw [h₁, Option.bind_some, hrel]
    rcases hr : ft.release with _ | _ | _
    · refine iff_of_false ?_ (by simp)
      rintro ⟨ft', heq, -⟩
      cases heq
    · obtain ⟨ft₂, h₂⟩ := CameraTx.leave_isSome (hrun ▸ he hr) hwaited
      refine iff_of_true ?_ ⟨by simpa using hend, by simp⟩
      exact ⟨_, Option.map_eq_some_iff.mpr ⟨ft₂, h₂, rfl⟩, rfl⟩
    · refine iff_of_true ?_ ⟨by simpa using hend, by simp⟩
      exact ⟨_, rfl, rfl⟩

/-- A custom transaction closes a channel that is open, unless it is marked as ended or was never
started. -/
theorem CustomTx.endTx_iff {tx : CustomTx} (he : tx.EndInv) (hbusy : tx.devState ≠ .idle)
    (ct : CloseType) :
    ReturnsIdle toBaseTx (tx.endTx ct) ↔ tx.isEnded = false ∧ tx.chanPasswd ≠ none := by
  unfold CustomTx.endTx
  by_cases hend : tx.isEnded = true
  · rw [if_pos hend]
    refine iff_of_false ?_ (by simp [hend])
    rintro ⟨tx', heq, hidle⟩
    cases heq
    exact hbusy hidle
  · rw [if_neg hend]
    rcases hc : tx.chanPasswd with _ | _ | _
    · refine iff_of_false ?_ (by simp)
      rintro ⟨tx', heq, -⟩
      cases heq
    · refine iff_of_true ?_ ⟨by simpa using hend, by simp⟩
      exact ⟨_, rfl, rfl⟩
    · exact absurd (he hc) hend

namespace Tx

/-- The call of `end` in the terms of the kind. -/
theorem endsIdle_iff_of_call {tx : Tx} {ct : CloseType} {P : Prop}
    (h : ∀ finger camera, tx.CanReturn camera →
      (ReturnsIdle base (tx.clearSent.call (.endTx tx.kind ct finger camera)) ↔ P)) :
    tx.EndsIdle ct ↔ P := by
  have hstep : ∀ finger camera, (∃ tx' sent,
      tx.step (.endTx tx.kind ct finger camera) = some (tx', sent) ∧
        tx'.base.devState = .idle) ↔
      ReturnsIdle base (tx.clearSent.call (.endTx tx.kind ct finger camera)) := by
    intro finger camera
    unfold step
    constructor
    · rintro ⟨tx', sent, hs, hidle⟩
      obtain ⟨ht, rfl⟩ := observed_eq_some.mp hs
      exact ⟨tx', ht, hidle⟩
    · rintro ⟨t, ht, hidle⟩
      exact ⟨t, _, Option.map_eq_some_iff.mpr ⟨t, ht, rfl⟩, hidle⟩
  have hquit : tx.CanReturn .quit := by cases tx <;> trivial
  constructor
  · intro hends
    exact (h ⟨none, -1, none⟩ .quit hquit).mp ((hstep _ _).mp (hends _ _ hquit))
  · intro hP finger camera hcan
    exact (hstep _ _).mpr ((h finger camera hcan).mpr hP)

theorem returnsIdle_map {τ : Type*} {b : τ → BaseTx} {f : τ → Tx} (hf : ∀ t, (f t).base = b t)
    (o : Option τ) : ReturnsIdle base (o.map f) ↔ ReturnsIdle b o := by
  unfold ReturnsIdle
  constructor
  · rintro ⟨tx, htx, hidle⟩
    obtain ⟨t, ht, rfl⟩ := Option.map_eq_some_iff.mp htx
    exact ⟨t, ht, hf t ▸ hidle⟩
  · rintro ⟨t, ht, hidle⟩
    exact ⟨f t, Option.map_eq_some_iff.mpr ⟨t, ht, rfl⟩, (hf t).symm ▸ hidle⟩

/-- On a transaction that is not idle, the body of `end` returns and leaves it idle exactly when it
is not marked as ended and the channels of its kind exist. -/
theorem endsIdle_iff_endable {tx : Tx} (he : tx.EndInv) (hl : tx.LockInv)
    (hbusy : tx.base.devState ≠ .idle) (ct : CloseType) : tx.EndsIdle ct ↔ tx.Endable := by
  refine endsIdle_iff_of_call ?_
  intro finger camera hcan
  have he := he.clearSent
  have hl := hl.clearSent
  cases tx with
  | password tx => exact iff_of_true ⟨_, rfl, rfl⟩ trivial
  | fingerprint tx =>
      exact (returnsIdle_map (fun _ => rfl) _).trans (FingerprintTx.endTx_iff hl he hbusy ct finger)
  | face tx =>
      exact (returnsIdle_map (fun _ => rfl) _).trans (CameraTx.endTx_iff hl he hbusy ct hcan)
  | iris tx =>
      exact (returnsIdle_map (fun _ => rfl) _).trans (CameraTx.endTx_iff hl he hbusy ct hcan)
  | uKey tx =>
      refine iff_of_true ⟨_, rfl, ?_⟩ trivial
      change (UKeyTx.endTx _ ct).devState = .idle
      unfold UKeyTx.endTx
      dsimp only
      split_ifs <;> rfl
  | custom tx => exact (returnsIdle_map (fun _ => rfl) _).trans (CustomTx.endTx_iff he hbusy ct)

/-! ## A transaction that was never started -/

/-- A face or iris transaction that was never started has no channels and no goroutine. -/
def CameraUnstarted : Tx → Prop
  | .face tx => tx.release = none ∧ tx.running = none
  | .iris tx => tx.release = none ∧ tx.running = none
  | _ => True

theorem cameraUnstarted_new (kind : TxKind) (type0 : AuthType) (lockState : LockState) :
    (new kind type0 lockState).CameraUnstarted := by
  cases kind <;> trivial

theorem unstarted_camera {c : CameraType} {ft ft' : CameraTx c} {a : CameraAction}
    (h : ft.release = none ∧ ft.running = none) (ha : a ≠ .authenticate) (hs : ft.Next a ft') :
    ft'.release = none ∧ ft'.running = none := by
  have hno : ∀ {ft ft' : CameraTx c} {l}, ft.running = none → ft.leave l ≠ some ft' := by
    intro ft ft' l hnone hl
    obtain ⟨n, hn, -⟩ := CameraTx.leave_spec hl
    cases hnone.symm.trans hn
  cases hs with
  | started => exact absurd rfl ha
  | restarted => exact h
  | passedOn => exact h
  | leave hl => exact absurd hl (hno h.2)
  | give => exact h
  | wasEnded => exact h
  | endReleased => exact h
  | endWaited _ _ hrel => cases h.1.symm.trans hrel
  | setLockState => exact h

/-- Only a start makes the channels. -/
theorem CameraUnstarted.step {tx tx' : Tx} {a : TxAction} {sent : List Given}
    (h : tx.CameraUnstarted) (ha : a.isStart = false) (hs : tx.step a = some (tx', sent)) :
    tx'.CameraUnstarted := by
  have hclear : tx.clearSent.CameraUnstarted := by cases tx <;> exact h
  have hcalls := (calls_of_step hs).1
  generalize tx.clearSent = t at hclear hcalls
  cases hcalls with
  | face hnext =>
      refine unstarted_camera hclear ?_ hnext
      rintro rfl
      cases ha
  | iris hnext =>
      refine unstarted_camera hclear ?_ hnext
      rintro rfl
      cases ha
  | _ => trivial

/-- A call of `end` that leaves a busy transaction idle sends one status, unless a goroutine of a
camera sends one before. -/
theorem sent_of_end {tx tx' : Tx} {ct : CloseType} {finger : DoVerify} {camera : CameraLeave}
    {sent : List Given} (hs : tx.step (.endTx tx.kind ct finger camera) = some (tx', sent))
    (hbusy : tx.base.devState ≠ .idle) (hidle : tx'.base.devState = .idle) :
    sent ≠ [] ∧ (tx.CameraUnstarted → sent.length = 1) := by
  obtain ⟨hcalls, rfl⟩ := calls_of_step hs
  -- a camera that was not started has no goroutine to wait for
  have hcamera : ∀ {c : CameraType} {ft ft' : CameraTx c}, ft.sent = [] →
      ft'.devState ≠ ft.devState → ft.Next (.endTx ct camera) ft' →
      ft'.sent ≠ [] ∧ (ft.release = none ∧ ft.running = none → ft'.sent.length = 1) := by
    intro c ft ft' hnone hmoved hnext
    cases hnext with
    | wasEnded => exact absurd rfl hmoved
    | endReleased _ _ hrel =>
        refine ⟨by simp [CameraTx.giveStatus], ?_⟩
        rintro ⟨hno, -⟩
        cases hno.symm.trans hrel
    | endWaited _ _ hrel =>
        refine ⟨by simp [CameraTx.giveStatus], ?_⟩
        rintro ⟨hno, -⟩
        cases hno.symm.trans hrel
  have hone : ∀ {l : List Given}, l.length = 1 → l ≠ [] ∧ (tx.CameraUnstarted → l.length = 1) :=
    fun h => ⟨List.ne_nil_of_length_eq_add_one h, fun _ => h⟩
  cases tx with
  | password tx =>
      cases hcalls with
      | password hnext =>
          cases hnext
          exact hone rfl
  | fingerprint tx =>
      cases hcalls with
      | fingerprint hnext =>
          cases hnext with
          | wasEnded => exact absurd hidle hbusy
          | endIdle => exact hone rfl
          | endReleased => exact hone rfl
          | endWaited _ _ _ _ hv =>
              obtain ⟨-, rfl⟩ := FingerprintTx.verify_eq_some.mp hv
              exact hone rfl
  | face tx =>
      cases hcalls with
      | face hnext =>
          exact @hcamera _ { tx with sent := [] } _ rfl
            (fun heq => hbusy (heq.symm.trans hidle)) hnext
  | iris tx =>
      cases hcalls with
      | iris hnext =>
          exact @hcamera _ { tx with sent := [] } _ rfl
            (fun heq => hbusy (heq.symm.trans hidle)) hnext
  | uKey tx =>
      cases hcalls with
      | uKey hnext =>
          cases hnext
          refine hone ?_
          change (UKeyTx.endTx _ ct).sent.length = 1
          unfold UKeyTx.endTx
          dsimp only
          split_ifs <;> rfl
  | custom tx =>
      cases hcalls with
      | custom hnext =>
          cases hnext with
          | wasEnded => exact absurd hidle hbusy
          | ended => exact hone rfl

end Tx

/-! ## The channel that the statuses go into -/

/-- What the channel `resultCh` of a controller holds.
Source: `normal_verify.go` and `multifactor_verify.go`, `make(chan Tx, 10)`. -/
def resultChSize : ℕ := 10

/-- A transaction in its session. `telling` are the statuses that a call on it has still to send,
with `statusMux` held until it has; `queued` is the number of those in `resultCh`; `listening` says
that the first start has started the loop that takes them out, and `ended` that `End` has been
called for the whole session. -/
structure SessionTx where
  tx : Tx
  telling : List Given
  queued : ℕ
  listening : Bool
  ended : Bool

/-- What happens there: an action of the transaction, or a send of the one under way; another
transaction of the session sends a status; the loop takes one; the first start comes to
`authenticate`; the session is ended. -/
inductive SessionTxAction where
  | tx (a : TxAction)
  | send
  | other
  | receive
  | listen
  | endAll

/-- The steps that a call under way is let go on by: its own, and those of the loop. -/
def SessionTxAction.isOwn : SessionTxAction → Bool
  | .send | .receive => true
  | _ => false

namespace SessionTx

/-- A transaction of a new session. -/
def new (kind : TxKind) (type0 : AuthType) (lockState : LockState) : SessionTx where
  tx := .new kind type0 lockState
  telling := []
  queued := 0
  listening := false
  ended := false

/-- A status is sent: into the channel, where there is room, and nowhere once the session has ended.
Source: `normal_verify.go` and `multifactor_verify.go`, `sendStatus`. -/
def sendStatus (s : SessionTx) : Option SessionTx :=
  if s.ended then some s
  else if s.queued < resultChSize then some { s with queued := s.queued + 1 }
  else none

/-- One step. The controllers call `authenticate` of a transaction after they have started the loop;
closing the channel under a call that waits there panics. -/
def step (s : SessionTx) : SessionTxAction → Option (SessionTx × Unit)
  | .tx a =>
      if s.telling = [] ∧ (a.isStart = true → s.listening = true) then
        (s.tx.step a).map fun r => ({ s with tx := r.1, telling := r.2 }, ())
      else none
  | .send =>
      match s.telling with
      | [] => none
      | _ :: rest => s.sendStatus.map fun s => ({ s with telling := rest }, ())
  | .other => s.sendStatus.map fun s => (s, ())
  | .receive =>
      if s.listening ∧ 0 < s.queued then some ({ s with queued := s.queued - 1 }, ()) else none
  | .listen => some ({ s with listening := true }, ())
  | .endAll => if s.telling = [] ∧ s.ended = false then some ({ s with ended := true }, ()) else none

/-- `end` comes to its end without help from outside of the session, and leaves the transaction
idle, however the goroutine returns that it may wait for. -/
def EndsIdle (s : SessionTx) (ct : CloseType) : Prop :=
  ∀ finger camera, s.tx.CanReturn camera → ∃ before after s' outs,
    (∀ a ∈ before ++ after, a.isOwn = true) ∧
    run step s (before ++ .tx (.endTx s.tx.kind ct finger camera) :: after) = some (s', outs) ∧
    s'.telling = [] ∧ s'.tx.base.devState = .idle

/-- There is room for a status more, or somebody takes those that are there, or nobody wants any. -/
def CanTell (s : SessionTx) : Prop :=
  s.ended = true ∨ s.listening = true ∨ s.queued + s.telling.length < resultChSize

/-- The invariant of the session: the transaction has those of its kind, the channel holds no more
than it can, and a camera was not started before the loop. -/
structure Inv (s : SessionTx) : Prop where
  tx : s.tx.EndInv ∧ s.tx.LockInv
  fits : s.queued ≤ resultChSize
  unstarted : s.listening = false → s.tx.CameraUnstarted

theorem inv_new (kind : TxKind) (type0 : AuthType) (lockState : LockState) :
    (new kind type0 lockState).Inv :=
  ⟨⟨Tx.endInv_new kind type0 lockState, Tx.lockInv_new kind type0 lockState⟩, Nat.zero_le _,
    fun _ => Tx.cameraUnstarted_new kind type0 lockState⟩

/-- A status that is sent. -/
theorem sendStatus_eq_some {s s' : SessionTx} (h : s.sendStatus = some s') :
    (s.ended = true ∧ s' = s) ∨
      (s.ended = false ∧ s.queued < resultChSize ∧ s' = { s with queued := s.queued + 1 }) := by
  unfold sendStatus at h
  split_ifs at h with hended hroom
  · exact .inl ⟨hended, (Option.some.inj h).symm⟩
  · exact .inr ⟨by simpa using hended, hroom, (Option.some.inj h).symm⟩

theorem Inv.sendStatus {s s' : SessionTx} (h : s.Inv) (hs : s.sendStatus = some s') : s'.Inv := by
  rcases sendStatus_eq_some hs with ⟨-, rfl⟩ | ⟨-, hroom, rfl⟩
  · exact h
  · exact ⟨h.tx, hroom, h.unstarted⟩

theorem Inv.step {s s' : SessionTx} (h : s.Inv) {a : SessionTxAction} {o : Unit}
    (hs : s.step a = some (s', o)) : s'.Inv := by
  cases a with
  | tx a =>
      obtain ⟨⟨-, hstart⟩, hs⟩ := Option.ite_none_right_eq_some.mp hs
      obtain ⟨⟨tx', sent⟩, hstep, heq⟩ := Option.map_eq_some_iff.mp hs
      cases heq
      refine ⟨Tx.endInv_step h.tx hstep, h.fits, fun hno => ?_⟩
      refine (h.unstarted hno).step ?_ hstep
      by_contra ha
      cases hno.symm.trans (hstart (by simpa using ha))
  | send =>
      simp only [SessionTx.step] at hs
      split at hs
      · cases hs
      · obtain ⟨s₁, hsend, heq⟩ := Option.map_eq_some_iff.mp hs
        cases heq
        have h₁ := h.sendStatus hsend
        exact ⟨h₁.tx, h₁.fits, h₁.unstarted⟩
  | other =>
      obtain ⟨s₁, hsend, heq⟩ := Option.map_eq_some_iff.mp hs
      cases heq
      exact h.sendStatus hsend
  | receive =>
      obtain ⟨-, heq⟩ := Option.ite_none_right_eq_some.mp hs
      cases heq
      exact ⟨h.tx, (Nat.sub_le _ _).trans h.fits, h.unstarted⟩
  | listen =>
      cases hs
      exact ⟨h.tx, h.fits, fun hno => by cases hno⟩
  | endAll =>
      obtain ⟨-, heq⟩ := Option.ite_none_right_eq_some.mp hs
      cases heq
      exact ⟨h.tx, h.fits, h.unstarted⟩

/-! ## Going on -/

/-- What the steps of a call under way, and of the loop, leave as it is: where nobody takes the
statuses, they move into the channel one by one. -/
structure GoesOn (s s' : SessionTx) : Prop where
  tx : s'.tx = s.tx
  listening : s'.listening = s.listening
  ended : s'.ended = s.ended
  moved : s.ended = false → s.listening = false →
    s'.queued + s'.telling.length = s.queued + s.telling.length

theorem GoesOn.refl (s : SessionTx) : s.GoesOn s := ⟨rfl, rfl, rfl, fun _ _ => rfl⟩

theorem GoesOn.step {s s₁ s₂ : SessionTx} (h : s.GoesOn s₁) {a : SessionTxAction} {o : Unit}
    (ha : a.isOwn = true) (hs : s₁.step a = some (s₂, o)) : s.GoesOn s₂ := by
  cases a with
  | send =>
      simp only [SessionTx.step] at hs
      split at hs
      · cases hs
      · next g rest htelling =>
        obtain ⟨s', hsend, heq⟩ := Option.map_eq_some_iff.mp hs
        cases heq
        rcases sendStatus_eq_some hsend with ⟨hended, rfl⟩ | ⟨-, -, rfl⟩
        · refine ⟨h.tx, h.listening, h.ended, fun hno => ?_⟩
          cases (h.ended.trans hno).symm.trans hended
        · refine ⟨h.tx, h.listening, h.ended, fun hno hno' => ?_⟩
          have hmoved := h.moved hno hno'
          rw [htelling, List.length_cons] at hmoved
          dsimp only
          omega
  | receive =>
      obtain ⟨⟨hlisten, -⟩, heq⟩ := Option.ite_none_right_eq_some.mp hs
      cases heq
      refine ⟨h.tx, h.listening, h.ended, fun _ hno => ?_⟩
      cases (h.listening.trans hno).symm.trans hlisten
  | tx a => cases ha
  | other => cases ha
  | listen => cases ha
  | endAll => cases ha

/-- The same along a run of such steps. -/
theorem goesOn_run {s s' : SessionTx} {acts : List SessionTxAction} {outs : List Unit}
    (ha : ∀ a ∈ acts, a.isOwn = true) (hrun : run step s acts = some (s', outs)) : s.GoesOn s' :=
  run_invariant (I := s.GoesOn) (P := fun _ a => a.isOwn = true)
    (fun _ _ _ _ h ha hs => h.step ha hs) (.refl s) (along_of_mem (fun a h _ => ha a h) s) hrun

/-- **A call sends what it has to**, where nobody wants the statuses, or somebody takes them, or
there is room for all of them. -/
theorem run_telling {s : SessionTx} (hroom : s.ended = true ∨ s.listening = true ∨
      s.queued + s.telling.length ≤ resultChSize) (hfits : s.queued ≤ resultChSize) :
    ∃ acts outs s', (∀ a ∈ acts, a.isOwn = true) ∧ run step s acts = some (s', outs) ∧
      s'.telling = [] := by
  obtain ⟨tx, telling, queued, listening, ended⟩ := s
  induction telling generalizing queued with
  | nil => exact ⟨[], [], _, fun a ha => absurd ha List.not_mem_nil, rfl, rfl⟩
  | cons g rest ih =>
      dsimp only at hroom hfits ih
      -- a send, after the loop has made room for it
      suffices hfirst : ∃ acts outs queued', (∀ a ∈ acts, SessionTxAction.isOwn a = true) ∧
          run step ⟨tx, g :: rest, queued, listening, ended⟩ acts =
            some (⟨tx, rest, queued', listening, ended⟩, outs) ∧
          (ended = true ∨ listening = true ∨ queued' + rest.length ≤ resultChSize) ∧
          queued' ≤ resultChSize by
        obtain ⟨acts, outs, queued', hown, hrun, hroom', hfits'⟩ := hfirst
        obtain ⟨acts', outs', s', hown', hrun', hnil⟩ := ih queued' hroom' hfits'
        refine ⟨acts ++ acts', outs ++ outs', s', ?_, ?_, hnil⟩
        · intro a ha
          exact (List.mem_append.mp ha).elim (hown a) (hown' a)
        · exact run_append.mpr ⟨_, outs, outs', hrun, hrun', rfl⟩
      have hsend : ∀ q, ended = true ∨ q < resultChSize → ∃ q',
          step ⟨tx, g :: rest, q, listening, ended⟩ .send =
            some (⟨tx, rest, q', listening, ended⟩, ()) ∧
          (q' = q ∧ ended = true ∨ q' = q + 1 ∧ q < resultChSize) := by
        intro q hq
        by_cases hended : ended = true
        · exact ⟨q, by simp [step, sendStatus, hended], .inl ⟨rfl, hended⟩⟩
        · have hlt := hq.resolve_left hended
          exact ⟨q + 1, by simp [step, sendStatus, hended, hlt], .inr ⟨rfl, hlt⟩⟩
      by_cases hfree : ended = true ∨ queued < resultChSize
      · obtain ⟨q', hstep, hq'⟩ := hsend queued hfree
        refine ⟨[.send], [()], q', by simp [SessionTxAction.isOwn], run_of_step hstep, ?_, by omega⟩
        rcases hq' with ⟨-, hended⟩ | ⟨rfl, -⟩
        · exact .inl hended
        · refine hroom.imp_right (Or.imp_right fun hle => ?_)
          rw [List.length_cons] at hle
          omega
      · -- the channel is full, and the loop takes one first
        have hlisten : listening = true := by
          rw [List.length_cons] at hroom
          exact (hroom.resolve_left fun h => hfree (.inl h)).resolve_right fun hle =>
            hfree (.inr (by omega))
        have hfull : queued = resultChSize := le_antisymm hfits (not_lt.mp fun h => hfree (.inr h))
        have hreceive : step ⟨tx, g :: rest, queued, listening, ended⟩ .receive =
            some (⟨tx, g :: rest, queued - 1, listening, ended⟩, ()) := by
          simp [step, hlisten, hfull, resultChSize]
        obtain ⟨q', hstep, hq'⟩ := hsend (queued - 1)
          (.inr (by rw [hfull]; exact Nat.sub_lt (by decide) Nat.one_pos))
        refine ⟨[.receive, .send], [(), ()], q', by simp [SessionTxAction.isOwn], ?_,
          .inr (.inl hlisten), by omega⟩
        exact run_cons_eq_some.mpr ⟨_, (), [()], hreceive, run_of_step hstep, rfl⟩

/-- The call of `end`, taken out of what goes on before and after it. -/
theorem called {s s' : SessionTx} {a : TxAction} {before after : List SessionTxAction}
    {outs : List Unit} (hown : ∀ b ∈ before ++ after, b.isOwn = true)
    (hrun : run step s (before ++ .tx a :: after) = some (s', outs)) :
    ∃ s₁ tx' sent, s.GoesOn s₁ ∧ s₁.telling = [] ∧ s.tx.step a = some (tx', sent) ∧
      GoesOn { s₁ with tx := tx', telling := sent } s' := by
  obtain ⟨hbefore, hafter⟩ := List.forall_mem_append.mp hown
  obtain ⟨s₁, _, _, hr₁, hr₂, -⟩ := run_append.mp hrun
  obtain ⟨s₂, _, _, hstep, hr₃, -⟩ := run_cons_eq_some.mp hr₂
  have hgo := goesOn_run hbefore hr₁
  obtain ⟨⟨hnil, -⟩, hstep⟩ := Option.ite_none_right_eq_some.mp hstep
  obtain ⟨⟨tx', sent⟩, htx, heq⟩ := Option.map_eq_some_iff.mp hstep
  cases heq
  exact ⟨s₁, tx', sent, hgo, hnil, hgo.tx ▸ htx, goesOn_run hafter hr₃⟩

/-- **When ending a factor completes.** On the states of any run in which a transaction is not
idle, `end` returns and leaves it idle exactly when it is not marked as ended, the channels of its
kind exist, and its status can be told. -/
theorem endsIdle_iff {kind : TxKind} {type0 : AuthType} {lockState : LockState}
    {acts : List SessionTxAction} {s : SessionTx} {outs : List Unit}
    (hrun : run step (new kind type0 lockState) acts = some (s, outs))
    (hbusy : s.tx.base.devState ≠ .idle) (ct : CloseType) :
    s.EndsIdle ct ↔ s.tx.Endable ∧ s.CanTell := by
  have hinv : s.Inv := run_invariant_of_step (I := Inv) (fun _ _ _ _ h hs => h.step hs)
    (inv_new kind type0 lockState) hrun
  rw [← Tx.endsIdle_iff_endable hinv.tx.1 hinv.tx.2 hbusy ct]
  constructor
  · intro hends
    constructor
    · intro finger camera hcan
      obtain ⟨before, after, s', outs', hown, hr, -, hidle⟩ := hends finger camera hcan
      obtain ⟨s₁, tx', sent, -, -, hstep, hgo⟩ := called hown hr
      exact ⟨tx', sent, hstep, by rw [← hidle, hgo.tx]⟩
    · have hquit : s.tx.CanReturn .quit := by cases s.tx <;> trivial
      obtain ⟨before, after, s', outs', hown, hr, hnil, hidle⟩ := hends ⟨none, -1, none⟩ .quit hquit
      obtain ⟨s₁, tx', sent, hgo₁, hnil₁, hstep, hgo⟩ := called hown hr
      rw [hgo.tx] at hidle
      obtain ⟨hsent, -⟩ := Tx.sent_of_end hstep hbusy hidle
      have hfits : s'.queued ≤ resultChSize :=
        (run_invariant_of_step (I := Inv) (fun _ _ _ _ h hs => h.step hs) hinv hr).fits
      refine or_iff_not_imp_left.mpr fun hopen => or_iff_not_imp_left.mpr fun hdeaf => ?_
      have hopen : s.ended = false := by simpa using hopen
      have hdeaf : s.listening = false := by simpa using hdeaf
      -- what was to be told, and the status of `end`, is all in the channel
      have hbefore := hgo₁.moved hopen hdeaf
      have hafter := hgo.moved (hgo₁.ended.trans hopen) (hgo₁.listening.trans hdeaf)
      have hpos : 0 < sent.length := List.length_pos_iff.mpr hsent
      rw [hnil₁, List.length_nil] at hbefore
      rw [hnil, List.length_nil] at hafter
      dsimp only at hafter
      omega
  · rintro ⟨hends, htell⟩ finger camera hcan
    obtain ⟨tx', sent, hstep, hidle⟩ := hends finger camera hcan
    have hroom : s.ended = true ∨ s.listening = true ∨
        s.queued + s.telling.length ≤ resultChSize := htell.imp_right (Or.imp_right Nat.le_of_lt)
    obtain ⟨before, outs₁, s₁, hbefore, hr₁, hnil₁⟩ := run_telling hroom hinv.fits
    have hgo₁ := goesOn_run hbefore hr₁
    have hinv₁ : s₁.Inv := run_invariant_of_step (I := Inv) (fun _ _ _ _ h hs => h.step hs) hinv hr₁
    have hroom₁ : s₁.ended = true ∨ s₁.listening = true ∨
        s₁.queued + sent.length ≤ resultChSize := by
      rw [hgo₁.ended, hgo₁.listening]
      refine or_iff_not_imp_left.mpr fun hopen => or_iff_not_imp_left.mpr fun hdeaf => ?_
      have hlt := (htell.resolve_left hopen).resolve_left hdeaf
      have hopen : s.ended = false := by simpa using hopen
      have hdeaf : s.listening = false := by simpa using hdeaf
      have hmoved := hgo₁.moved hopen hdeaf
      rw [hnil₁, List.length_nil] at hmoved
      have hone := (Tx.sent_of_end hstep hbusy hidle).2 (hinv.unstarted hdeaf)
      omega
    obtain ⟨after, outs₂, s₂, hafter, hr₂, hnil₂⟩ :=
      run_telling (s := { s₁ with tx := tx', telling := sent }) hroom₁ hinv₁.fits
    have hgo₂ := goesOn_run hafter hr₂
    have hcall : SessionTx.step s₁ (.tx (.endTx s.tx.kind ct finger camera)) =
        some ({ s₁ with tx := tx', telling := sent }, ()) := by
      have hstart : (TxAction.endTx s.tx.kind ct finger camera).isStart = false := by
        cases s.tx.kind <;> rfl
      rw [SessionTx.step, if_pos ⟨hnil₁, by simp [hstart]⟩, hgo₁.tx, hstep]
      rfl
    refine ⟨before, after, s₂, outs₁ ++ () :: outs₂, ?_, ?_, hnil₂, by rw [hgo₂.tx]; exact hidle⟩
    · exact List.forall_mem_append.mpr ⟨hbefore, hafter⟩
    · exact run_append.mpr ⟨s₁, outs₁, () :: outs₂, hr₁,
        run_cons_eq_some.mpr ⟨_, (), outs₂, hcall, hr₂, rfl⟩, rfl⟩

/-- The lock of a fingerprint is told before the first start, and the factor is then ended. -/
theorem endsIdle_iff_locked_fingerprint :
    ∃ s outs, run step (new .fingerprint .fingerprint .unlock)
        [.tx (.setLockState .fingerprint .locked ⟨none, -1, none⟩ .quit), .send] = some (s, outs) ∧
      s.tx.base.devState ≠ .idle ∧ s.EndsIdle .closeVerify := by
  obtain ⟨s, outs, hrun, hbusy, hend, htell⟩ : ∃ s outs,
      run step (new .fingerprint .fingerprint .unlock)
        [.tx (.setLockState .fingerprint .locked ⟨none, -1, none⟩ .quit), .send] = some (s, outs) ∧
      s.tx.base.devState ≠ .idle ∧ s.tx.Endable ∧ s.queued + s.telling.length < resultChSize :=
    ⟨_, _, rfl, by decide, rfl, by decide⟩
  exact ⟨s, outs, hrun, hbusy, (endsIdle_iff hrun hbusy .closeVerify).mpr
    ⟨hend, .inr (.inr htell)⟩⟩

/-- A custom factor that is locked before it was ever started closes a nil channel. -/
theorem locked_before_start_not_ended :
    ¬ ∀ (kind : TxKind) (type0 : AuthType) (lockState : LockState) (acts : List SessionTxAction)
        (s : SessionTx) (outs : List Unit),
        run step (new kind type0 lockState) acts = some (s, outs) →
          s.tx.base.devState ≠ .idle → ∀ ct, s.EndsIdle ct := by
  intro h
  obtain ⟨before, after, s', outs, hown, hr, -⟩ := h .custom .custom .unlock
    [.tx (.setLockState .custom .locked ⟨none, -1, none⟩ .quit), .send] _ _ rfl (by decide)
    .closeAllResource ⟨none, -1, none⟩ .quit trivial
  obtain ⟨s₁, tx', sent, -, -, hs, -⟩ := called hown hr
  cases hs

end SessionTx

end LingmoAuthenticate.Session
