import Mathlib.Data.Int.Bitwise
import LingmoAuthenticate.Session.ResultCh
import LingmoAuthenticate.Session.Session

/-!
# Before the first start: locks that fill the channel

Until the first start has come to `authenticate`, nobody takes statuses out of the channel of the
controller, and it takes ten. The handler of `LimitUpdated` puts one in for every lock that has
changed, and so does the start itself, before it calls `authenticate`.

* `FirstStart.step`: the two loops over the transactions, step by step and interleaved.
* `FirstStart.unwedged_iff`: somebody is blocked for ever exactly where the start itself finds no
  room.
* `FirstStart.start_unwedged_iff`: in every run, nobody is blocked for ever exactly when there is
  room for each status that the start gives; the start then comes to `authenticate` by its own
  steps.
* `FirstStart.eleventh_change_wedges`: ten changes before the start, and one that it finds itself.
-/

namespace LingmoAuthenticate.Session

open Lib AuthCommon

/-- Who sets the locks: the handler of `LimitUpdated`, or the first start. -/
inductive LockSetter where
  | limitUpdated
  | start
  deriving DecidableEq, Repr

/-- A loop over the transactions: those it has still to come to, and the change of a lock that it is
giving the status of. -/
structure LockLoop where
  rest : List AuthType
  telling : Option (AuthType × LockState)
  deriving DecidableEq, Repr

/-- A session that has not been ended, before its first start and during it.
Source: `session/manager.go`, `Manager`. -/
structure FirstStart where
  kind : ControllerKind
  txs : List AuthType
  lockState : AuthType → LockState
  resultCh : Chan VirtualTx 10
  loops : LockSetter → Option LockLoop
  listening : Bool

/-- The steps: `LimitUpdated` comes or a start does, which both ask for the limit of each type and
tell it where it has changed; the start then makes the loop over the channel, which takes statuses
out. An answer of `IsLimitAllowed` comes with the step that asks. -/
inductive FirstStartAction where
  | limitUpdated
  | start (flag : ℤ)
  | ask (who : LockSetter) (allowed : Bool)
  | tell (who : LockSetter)
  | handled
  | authenticate
  | listen
  deriving DecidableEq, Repr

namespace FirstStart

/-- A new session. Source: `session/manager.go`, `Manager.initData`. -/
def new (kind : ControllerKind) (txs : List AuthType) (lockState : AuthType → LockState) :
    FirstStart :=
  ⟨kind, txs, lockState, .make _ _, fun _ => none, false⟩

/-- The session with a loop at another step. -/
def setLoop (s : FirstStart) (who : LockSetter) (l : Option LockLoop) : FirstStart :=
  { s with loops := Function.update s.loops who l }

/-- The lock that an answer stands for. -/
def lockOf (allowed : Bool) : LockState := if allowed then .unlock else .locked

/-- One round of a loop, up to the status that it may have to give.
Source: `session/manager_ifc.go`, `Manager.Start`, and `session/manager.go`,
`Manager.listenSignalUpdateLimited`, with the test of `setLockState`. -/
def ask (s : FirstStart) (who : LockSetter) (allowed : Bool) : Option FirstStart :=
  match s.loops who with
  | some ⟨t :: rest, none⟩ =>
      if s.lockState t = lockOf allowed then some (s.setLoop who (some ⟨rest, none⟩))
      else some (s.setLoop who (some ⟨rest, some (t, lockOf allowed)⟩))
  | _ => none

/-- The status of a lock, as it goes into the channel.
Source: `tx.go`, `baseTx.giveStatus`, in `setLockState`. -/
def lockTx (t : AuthType) (lock : LockState) : VirtualTx :=
  ⟨(newTx t lock).elim .password Tx.kind, t, some (newVerifyStatus lock.toStatusCode true "")⟩

/-- Give the status of a lock that has changed, and note the lock.
Source: `tx.go`, `baseTx.giveStatus`, in `setLockState`. -/
def tell (s : FirstStart) (who : LockSetter) : Option FirstStart :=
  match s.loops who with
  | some ⟨rest, some (t, lock)⟩ =>
      -- the mutex that is held meanwhile keeps others waiting for the same room
      (s.resultCh.send (lockTx t lock)).toOption.map fun ch =>
        { s with
          resultCh := ch
          lockState := Function.update s.lockState t lock }.setLoop who (some ⟨rest, none⟩)
  | _ => none

/-- What `authenticate` emits before it starts the listener.
Source: `multifactor_verify.go`, `multiFactorVerify.authenticate`, under `once`. -/
def prompts (translate : String → String) : ControllerKind → List ProxyCall
  | .normal => []
  | .multi => [.emitStatus allAuthenticationFlag .prompt
      (translate "Multiple verification methods are required")]

/-- One step. Source: `session/manager_ifc.go`, `Manager.Start`, and `session/manager.go`,
`Manager.listenSignalUpdateLimited`; `authenticate` is that of `normal_verify.go` and
`multifactor_verify.go`, under `once`. -/
def step (translate : String → String) (s : FirstStart) :
    FirstStartAction → Option (FirstStart × List ProxyCall)
  | .limitUpdated =>
      if (s.loops .limitUpdated).isNone then
        some (s.setLoop .limitUpdated (some ⟨s.txs, none⟩), [])
      else none
  | .start flag =>
      if (s.loops .start).isNone ∧ s.listening = false then
        let rest := s.txs.filter fun t => Int.land (authTypeToFlag t) flag ≠ 0
        some (s.setLoop .start (some ⟨rest, none⟩), [])
      else none
  | .ask who allowed => (s.ask who allowed).map fun s => (s, [])
  | .tell who => (s.tell who).map fun s => (s, [])
  | .handled =>
      if s.loops .limitUpdated = some ⟨[], none⟩ then some (s.setLoop .limitUpdated none, []) else none
  | .authenticate =>
      if s.loops .start = some ⟨[], none⟩ then
        some ({ s with listening := true }.setLoop .start none, prompts translate s.kind)
      else none
  | .listen =>
      if s.listening then s.resultCh.recv.toOption.map fun r => ({ s with resultCh := r.2 }, [])
      else none

/-! ## What the steps do -/

@[simp] theorem setLoop_self (s : FirstStart) (who : LockSetter) (l : Option LockLoop) :
    (s.setLoop who l).loops who = l := Function.update_self ..

@[simp] theorem setLoop_other (s : FirstStart) {who who' : LockSetter} (h : who' ≠ who)
    (l : Option LockLoop) : (s.setLoop who l).loops who' = s.loops who' :=
  Function.update_of_ne h ..

@[simp] theorem setLoop_resultCh (s : FirstStart) (who : LockSetter) (l : Option LockLoop) :
    (s.setLoop who l).resultCh = s.resultCh := rfl

@[simp] theorem setLoop_listening (s : FirstStart) (who : LockSetter) (l : Option LockLoop) :
    (s.setLoop who l).listening = s.listening := rfl

@[simp] theorem setLoop_lockState (s : FirstStart) (who : LockSetter) (l : Option LockLoop) :
    (s.setLoop who l).lockState = s.lockState := rfl

/-- A round goes on, or finds a change. -/
theorem ask_eq_some {s s' : FirstStart} {who : LockSetter} {allowed : Bool}
    (h : s.ask who allowed = some s') :
    ∃ t rest, s.loops who = some ⟨t :: rest, none⟩ ∧
      ((s.lockState t = lockOf allowed ∧ s' = s.setLoop who (some ⟨rest, none⟩)) ∨
        (s.lockState t ≠ lockOf allowed ∧
          s' = s.setLoop who (some ⟨rest, some (t, lockOf allowed)⟩))) := by
  unfold ask at h
  split at h
  · next t rest hloop =>
      split_ifs at h with hsame
      · cases h
        exact ⟨t, rest, hloop, .inl ⟨hsame, rfl⟩⟩
      · cases h
        exact ⟨t, rest, hloop, .inr ⟨hsame, rfl⟩⟩
  · cases h

/-- A status that is given has found room. -/
theorem tell_eq_some {s s' : FirstStart} {who : LockSetter} (h : s.tell who = some s') :
    ∃ rest t lock ch, s.loops who = some ⟨rest, some (t, lock)⟩ ∧
      s.resultCh.send (lockTx t lock) = .done ch ∧
      s' = { s with
        resultCh := ch
        lockState := Function.update s.lockState t lock }.setLoop who (some ⟨rest, none⟩) := by
  unfold tell at h
  split at h
  · next rest t lock hloop =>
      rcases hsend : s.resultCh.send (lockTx t lock) with ch | _ | _ <;> rw [hsend] at h
      · cases h
        exact ⟨rest, t, lock, ch, hloop, hsend, rfl⟩
      · cases h
      · cases h
  · cases h

/-- What each step does: a loop begins with the types that it is to ask for, passes over one whose
lock stays the same, gives a status for one whose lock changes, if the channel has room, and
ends. -/
inductive Next (s : FirstStart) : FirstStartAction → FirstStart → Prop
  | limitUpdated : Next s .limitUpdated (s.setLoop .limitUpdated (some ⟨s.txs, none⟩))
  | start {flag rest} (hidle : s.loops .start = none) (hlisten : s.listening = false) :
      Next s (.start flag) (s.setLoop .start (some ⟨rest, none⟩))
  | same {who allowed t rest} (hloop : s.loops who = some ⟨t :: rest, none⟩) :
      Next s (.ask who allowed) (s.setLoop who (some ⟨rest, none⟩))
  | changed {who allowed t rest} (hloop : s.loops who = some ⟨t :: rest, none⟩)
      (hchange : s.lockState t ≠ lockOf allowed) :
      Next s (.ask who allowed) (s.setLoop who (some ⟨rest, some (t, lockOf allowed)⟩))
  | tell {who rest t lock ch} (hloop : s.loops who = some ⟨rest, some (t, lock)⟩)
      (hsend : s.resultCh.send (lockTx t lock) = .done ch) :
      Next s (.tell who) ({ s with
        resultCh := ch
        lockState := Function.update s.lockState t lock }.setLoop who (some ⟨rest, none⟩))
  | handled : Next s .handled (s.setLoop .limitUpdated none)
  | authenticate (hloop : s.loops .start = some ⟨[], none⟩) :
      Next s .authenticate ({ s with listening := true }.setLoop .start none)
  | listen {o ch} (hlisten : s.listening = true) (hrecv : s.resultCh.recv = .done (o, ch)) :
      Next s .listen { s with resultCh := ch }

/-- A step that is taken is one of these. -/
theorem next_of_step {translate : String → String} {s s' : FirstStart} {a : FirstStartAction}
    {o : List ProxyCall} (hs : s.step translate a = some (s', o)) : s.Next a s' := by
  cases a with
  | ask who allowed =>
      obtain ⟨hask, -⟩ := observed_eq_some.mp hs
      obtain ⟨t, rest, hloop, ⟨-, rfl⟩ | ⟨hchange, rfl⟩⟩ := ask_eq_some hask
      · exact .same hloop
      · exact .changed hloop hchange
  | tell who =>
      obtain ⟨htell, -⟩ := observed_eq_some.mp hs
      obtain ⟨rest, t, lock, ch, hloop, hsend, rfl⟩ := tell_eq_some htell
      exact .tell hloop hsend
  | listen =>
      obtain ⟨hlisten, hs⟩ := Option.ite_none_right_eq_some.mp hs
      obtain ⟨r, hr, heq⟩ := Option.map_eq_some_iff.mp hs
      cases heq
      rcases hrecv : s.resultCh.recv with ⟨o, ch⟩ | _ | _ <;> rw [hrecv] at hr <;> cases hr
      exact .listen hlisten hrecv
  | _ =>
      obtain ⟨hguard, heq⟩ := Option.ite_none_right_eq_some.mp hs
      cases heq
      first
        | exact .limitUpdated
        | exact .start (Option.isNone_iff_eq_none.mp hguard.1) hguard.2
        | exact .handled
        | exact .authenticate hguard

/-! ## Who is blocked -/

variable (translate : String → String)

/-- The loop is about to give the status of a lock. -/
def Telling (s : FirstStart) (who : LockSetter) : Prop :=
  ∃ rest x, s.loops who = some ⟨rest, some x⟩

/-- The loop is about to give a status, and nothing that happens lets it go on. -/
def BlockedForever (s : FirstStart) (who : LockSetter) : Prop :=
  s.Telling who ∧
    ∀ acts s' obs, run (step translate) s acts = some (s', obs) → s'.loops who = s.loops who

/-- The steps that the start takes itself. -/
def FirstStartAction.ofStart : FirstStartAction → Bool
  | .ask .start _ | .tell .start | .authenticate => true
  | _ => false

/-- Neither of the loops is blocked for ever, and a start that is under way can take a step of its
own. -/
structure Unwedged (s : FirstStart) : Prop where
  notForever : ∀ who, ¬ s.BlockedForever translate who
  startGoesOn : s.loops .start ≠ none →
    ∃ a, FirstStartAction.ofStart a = true ∧ (s.step translate a).isSome

/-- The start finds no room, and has not come to `authenticate`. -/
def StartBlocked (s : FirstStart) : Prop := s.resultCh.Full ∧ s.Telling .start

/-- The start comes before the listener, and nobody closes the channel. -/
structure Inv (s : FirstStart) : Prop where
  beforeListener : s.loops .start ≠ none → s.listening = false
  opened : s.resultCh.closed = false

theorem inv_new (kind : ControllerKind) (txs : List AuthType) (lockState : AuthType → LockState) :
    (new kind txs lockState).Inv :=
  ⟨fun h => absurd rfl h, rfl⟩

/-- A loop goes on without the listener. -/
theorem Inv.setLoop {s : FirstStart} (h : s.Inv) {who : LockSetter} {l : Option LockLoop}
    (hl : who = .start → l ≠ none → s.listening = false) : (s.setLoop who l).Inv := by
  refine ⟨?_, h.opened⟩
  intro hloop
  rcases who with _ | _
  · rw [setLoop_other s (by decide)] at hloop
    exact h.beforeListener hloop
  · rw [setLoop_self] at hloop
    exact hl rfl hloop

variable {translate}

theorem Inv.step {s s' : FirstStart} (h : s.Inv) {a : FirstStartAction} {o : List ProxyCall}
    (hs : s.step translate a = some (s', o)) : s'.Inv := by
  have hunder : ∀ {who l}, s.loops who = some l → who = .start → s.listening = false := by
    rintro who l hloop rfl
    apply h.beforeListener
    simp [hloop]
  cases next_of_step hs with
  | limitUpdated => exact h.setLoop (by rintro ⟨⟩)
  | start hidle hlisten => exact h.setLoop fun _ _ => hlisten
  | same hloop => exact h.setLoop fun hwho _ => hunder hloop hwho
  | changed hloop => exact h.setLoop fun hwho _ => hunder hloop hwho
  | @tell who rest t lock ch hloop hsend =>
      obtain ⟨hopen, -, hclosed⟩ := Chan.send_eq_done hsend
      have hsent : Inv { s with
          resultCh := ch, lockState := Function.update s.lockState t lock } :=
        ⟨h.beforeListener, hclosed.trans hopen⟩
      exact hsent.setLoop fun hwho _ => hunder hloop hwho
  | handled => exact h.setLoop (by rintro ⟨⟩)
  | authenticate => exact ⟨fun hloop => absurd (setLoop_self _ _ _) hloop, h.opened⟩
  | listen _ hrecv => exact ⟨h.beforeListener, (Chan.recv_closed hrecv).trans h.opened⟩

/-- A start that finds no room stays there: only the start would start the listener. -/
theorem StartBlocked.step {s s' : FirstStart} (hinv : s.Inv) (h : s.StartBlocked)
    {a : FirstStartAction} {o : List ProxyCall} (hs : s.step translate a = some (s', o)) :
    s'.StartBlocked ∧ s'.loops .start = s.loops .start := by
  obtain ⟨hfull, rest, x, htelling⟩ := h
  have hkeep : ∀ s' : FirstStart, s'.resultCh = s.resultCh → s'.loops .start = s.loops .start →
      s'.StartBlocked ∧ s'.loops .start = s.loops .start :=
    fun s' hch hloop => ⟨⟨hch ▸ hfull, rest, x, hloop.trans htelling⟩, hloop⟩
  -- the loop of the start has a status to give, so that it is at no round
  have hother : ∀ {who t rest}, s.loops who = some ⟨t :: rest, none⟩ → LockSetter.start ≠ who := by
    rintro who t rest hloop rfl
    cases htelling.symm.trans hloop
  cases next_of_step hs with
  | limitUpdated => exact hkeep _ rfl (setLoop_other s (by decide) _)
  | start hidle => cases htelling.symm.trans hidle
  | same hloop => exact hkeep _ rfl (setLoop_other s (hother hloop) _)
  | changed hloop => exact hkeep _ rfl (setLoop_other s (hother hloop) _)
  | tell _ hsend => exact absurd hsend hfull.send_ne_done
  | handled => exact hkeep _ rfl (setLoop_other s (by decide) _)
  | authenticate hloop => cases htelling.symm.trans hloop
  | listen hlisten =>
      have hbefore := hinv.beforeListener (by simp [htelling])
      cases hbefore.symm.trans hlisten

/-- A start that finds no room is blocked for ever. -/
theorem StartBlocked.forever {s : FirstStart} (hinv : s.Inv) (h : s.StartBlocked) :
    s.BlockedForever translate .start := by
  refine ⟨h.2, ?_⟩
  intro acts s' obs hr
  have hrun := run_invariant_of_step
    (I := fun t : FirstStart => t.Inv ∧ t.StartBlocked ∧ t.loops .start = s.loops .start)
    (fun t a t' o ht hs => ?_) ⟨hinv, h, rfl⟩ hr
  · exact hrun.2.2
  · obtain ⟨hblocked, hloop⟩ := ht.2.1.step ht.1 hs
    exact ⟨ht.1.step hs, hblocked, hloop.trans ht.2.2⟩

/-- Where there is room, a status can be given. -/
theorem tell_of_room (translate : String → String) {s : FirstStart} (hinv : s.Inv)
    (who : LockSetter) (htelling : s.Telling who) (hroom : ¬ s.resultCh.Full) :
    ∃ s', s.step translate (.tell who) = some (s', []) ∧ s'.loops who ≠ s.loops who := by
  obtain ⟨rest, ⟨t, lock⟩, hloop⟩ := htelling
  obtain ⟨ch, hsend⟩ := Chan.send_eq_done_of_room (x := lockTx t lock) hinv.opened hroom
  have htell : s.tell who = some ({ s with
      resultCh := ch
      lockState := Function.update s.lockState t lock }.setLoop who (some ⟨rest, none⟩)) := by
    simp only [tell, hloop, hsend]
    rfl
  refine ⟨_, by rw [FirstStart.step, htell]; rfl, ?_⟩
  rw [setLoop_self, hloop]
  simp

/-- A start that gives no status comes to `authenticate`, where it finds no more changes. -/
theorem reach_listening {s : FirstStart} {rest : List AuthType}
    (h : s.loops .start = some ⟨rest, none⟩) :
    ∃ acts s' obs, run (step translate) s acts = some (s', obs) ∧ s'.listening = true ∧
      s'.resultCh = s.resultCh ∧ s'.loops .limitUpdated = s.loops .limitUpdated := by
  induction rest generalizing s with
  | nil =>
      have hstep : s.step translate .authenticate =
          some ({ s with listening := true }.setLoop .start none, prompts translate s.kind) :=
        if_pos h
      exact ⟨_, _, _, run_of_step hstep, rfl, rfl, setLoop_other _ (by decide) _⟩
  | cons t rest ih =>
      have hsame : s.lockState t = lockOf (decide (s.lockState t = .unlock)) := by
        rcases s.lockState t with _ | _ <;> rfl
      have hstep : s.step translate (.ask .start (decide (s.lockState t = .unlock))) =
          some (s.setLoop .start (some ⟨rest, none⟩), []) := by
        simp only [FirstStart.step, ask, h, if_pos hsame]
        rfl
      obtain ⟨acts, s', obs, hr, hlisten, hch, hloop⟩ :=
        ih (s := s.setLoop .start (some ⟨rest, none⟩)) (setLoop_self ..)
      refine ⟨_ :: acts, s', [] :: obs, run_cons_eq_some.mpr ⟨_, _, _, hstep, hr, rfl⟩, hlisten, hch,
        hloop.trans (setLoop_other _ (by decide) _)⟩

/-- Where the start is not blocked, whoever is to give a status can come to do so. -/
theorem Inv.not_blockedForever {s : FirstStart} (hinv : s.Inv) (h : ¬ s.StartBlocked)
    (who : LockSetter) : ¬ s.BlockedForever translate who := by
  rintro ⟨htelling, hforever⟩
  by_cases hfull : s.resultCh.Full
  · rcases who with _ | _
    · -- the start comes to `authenticate`, and the listener makes room
      obtain ⟨acts, s₁, obs, hr, hlisten, hch, hloop⟩ : ∃ acts s' obs,
          run (FirstStart.step translate) s acts = some (s', obs) ∧ s'.listening = true ∧
            s'.resultCh = s.resultCh ∧ s'.loops .limitUpdated = s.loops .limitUpdated := by
        rcases hlisten : s.listening with _ | _
        · rcases hstart : s.loops .start with _ | ⟨rest, _ | x⟩
          · have hstep : s.step translate (.start 0) = some (s.setLoop .start
                (some ⟨s.txs.filter fun t => Int.land (authTypeToFlag t) 0 ≠ 0, none⟩), []) :=
              if_pos ⟨by rw [hstart]; rfl, hlisten⟩
            obtain ⟨acts, s', obs, hr, hl, hc, hu⟩ := reach_listening (setLoop_self ..)
            exact ⟨_ :: acts, s', [] :: obs, run_cons_eq_some.mpr ⟨_, _, _, hstep, hr, rfl⟩, hl, hc,
              hu.trans (setLoop_other _ (by decide) _)⟩
          · exact reach_listening hstart
          · exact absurd ⟨hfull, rest, x, hstart⟩ h
        · exact ⟨[], s, [], rfl, hlisten, rfl, rfl⟩
      obtain ⟨o, ch, hrecv, hroom, hclosed⟩ := Chan.recv_of_full hfull (by decide)
      have hdrain : s₁.step translate .listen = some ({ s₁ with resultCh := ch }, []) := by
        simp only [FirstStart.step, if_pos hlisten, hch, hrecv]
        rfl
      have hinv₁ : Inv s₁ := run_invariant_of_step (fun _ _ _ _ h hs => h.step hs) hinv hr
      obtain ⟨rest, x, hx⟩ := htelling
      obtain ⟨s₂, htell, hmoved⟩ := tell_of_room translate (hinv₁.step hdrain)
        .limitUpdated ⟨rest, x, hloop.trans hx⟩ hroom
      have hthen := run_cons_eq_some.mpr ⟨_, _, _, hdrain, run_of_step htell, rfl⟩
      have hsame := hforever _ s₂ _ (run_append.mpr ⟨s₁, obs, _, hr, hthen, rfl⟩)
      exact hmoved (hsame.trans hloop.symm)
    · exact h ⟨hfull, htelling⟩
  · obtain ⟨s', htell, hmoved⟩ := tell_of_room translate hinv _ htelling hfull
    exact hmoved (hforever _ _ _ (run_of_step htell))

/-- A start that is not blocked can take its next step. -/
theorem Inv.start_enabled {s : FirstStart} (hinv : s.Inv) (h : ¬ s.StartBlocked)
    (hunder : s.loops .start ≠ none) :
    ∃ a, FirstStartAction.ofStart a = true ∧ (s.step translate a).isSome := by
  rcases hloop : s.loops .start with _ | ⟨rest, _ | x⟩
  · exact absurd hloop hunder
  · rcases rest with _ | ⟨t, rest⟩
    · refine ⟨.authenticate, rfl, ?_⟩
      rw [FirstStart.step, if_pos hloop]
      rfl
    · refine ⟨.ask .start true, rfl, ?_⟩
      simp only [FirstStart.step, ask, hloop]
      split_ifs <;> rfl
  · have hroom : ¬ s.resultCh.Full := fun hfull => h ⟨hfull, rest, x, hloop⟩
    obtain ⟨s', htell, -⟩ := tell_of_room translate hinv _ ⟨rest, x, hloop⟩ hroom
    exact ⟨.tell .start, rfl, by rw [htell]; rfl⟩

/-- **Who is blocked for ever**: nobody, unless the start itself finds no room. -/
theorem unwedged_iff {s : FirstStart} (hinv : s.Inv) :
    s.Unwedged translate ↔ ¬ s.StartBlocked :=
  ⟨fun h hblocked => h.notForever .start (hblocked.forever hinv),
    fun h => ⟨hinv.not_blockedForever h, hinv.start_enabled h⟩⟩

/-! ## Runs -/

variable (translate)

/-- The step leaves nobody blocked for ever. -/
def UnwedgedStep (s : FirstStart) (a : FirstStartAction) : Prop :=
  ∀ s' o, s.step translate a = some (s', o) → s'.Unwedged translate

/-- There is room for what the start gives: it finds a change while fewer than ten statuses wait,
and the handler does not take the last place while the start is about to give its own. -/
def LeavesRoom (s : FirstStart) : FirstStartAction → Prop
  | .ask .start allowed => ∀ t rest, s.loops .start = some ⟨t :: rest, none⟩ →
      s.lockState t ≠ lockOf allowed → ¬ s.resultCh.Full
  | .tell .limitUpdated =>
      s.Telling .limitUpdated → s.Telling .start → s.resultCh.buf.length + 1 ≠ 10
  | _ => True

variable {translate}

/-- A step that blocks nobody has left room. -/
theorem UnwedgedStep.leavesRoom {s : FirstStart} (hinv : s.Inv) {a : FirstStartAction}
    (h : s.UnwedgedStep translate a) : s.LeavesRoom a := by
  rcases a with _ | _ | ⟨_ | _, allowed⟩ | ⟨_ | _⟩ | _ | _ | _ <;> try trivial
  · intro t rest hloop hchange hfull
    have hstep : s.step translate (.ask .start allowed) =
        some (s.setLoop .start (some ⟨rest, some (t, lockOf allowed)⟩), []) := by
      simp only [FirstStart.step, ask, hloop, if_neg hchange]
      rfl
    exact (unwedged_iff (hinv.step hstep)).mp (h _ _ hstep) ⟨hfull, rest, _, setLoop_self ..⟩
  · rintro htelling ⟨rest, x, hstart⟩ hlast
    have hroom : ¬ s.resultCh.Full := by
      unfold Chan.Full
      omega
    obtain ⟨s', hstep, -⟩ := tell_of_room translate hinv _ htelling hroom
    refine (unwedged_iff (hinv.step hstep)).mp (h _ _ hstep) ?_
    obtain ⟨htell, -⟩ := observed_eq_some.mp hstep
    obtain ⟨-, t, lock, ch, -, hsend, rfl⟩ := tell_eq_some htell
    refine ⟨?_, rest, x, (setLoop_other _ (by decide) _).trans hstart⟩
    show ch.buf.length = 10
    rw [(Chan.send_eq_done hsend).2.1, List.length_append, List.length_singleton, hlast]

/-- A step that leaves room does not block the start. -/
theorem LeavesRoom.not_startBlocked {s s' : FirstStart} (hinv : s.Inv) (hfree : ¬ s.StartBlocked)
    {a : FirstStartAction} (h : s.LeavesRoom a) {o : List ProxyCall}
    (hs : s.step translate a = some (s', o)) : ¬ s'.StartBlocked := by
  rintro ⟨hfull, rest, x, htelling⟩
  cases next_of_step hs with
  | limitUpdated => exact hfree ⟨hfull, rest, x, (setLoop_other s (by decide) _).symm.trans htelling⟩
  | start => cases (setLoop_self ..).symm.trans htelling
  | @same who _ _ _ hloop =>
      cases who with
      | limitUpdated =>
          exact hfree ⟨hfull, rest, x, (setLoop_other s (by decide) _).symm.trans htelling⟩
      | start => cases (setLoop_self ..).symm.trans htelling
  | @changed who _ t rest' hloop hchange =>
      cases who with
      | limitUpdated =>
          exact hfree ⟨hfull, rest, x, (setLoop_other s (by decide) _).symm.trans htelling⟩
      | start => exact h t rest' hloop hchange hfull
  | @tell who rest' t lock ch hloop hsend =>
      cases who with
      | limitUpdated =>
          have hstart := (setLoop_other _ (by decide) _).symm.trans htelling
          refine h ⟨rest', _, hloop⟩ ⟨rest, x, hstart⟩ ?_
          have hlen : ch.buf.length = 10 := hfull
          rw [(Chan.send_eq_done hsend).2.1, List.length_append, List.length_singleton] at hlen
          exact hlen
      | start => cases (setLoop_self ..).symm.trans htelling
  | handled => exact hfree ⟨hfull, rest, x, (setLoop_other s (by decide) _).symm.trans htelling⟩
  | authenticate => cases (setLoop_self ..).symm.trans htelling
  | listen hlisten =>
      have hstart : s.loops .start = some ⟨rest, some x⟩ := htelling
      have hbefore := hinv.beforeListener (by simp [hstart])
      cases hbefore.symm.trans hlisten

/-- What the start has still to do before `authenticate` is called. -/
def startWork (s : FirstStart) : ℕ :=
  (s.loops .start).elim 0 fun l => 2 * l.rest.length + (if l.telling.isSome then 1 else 0) + 1

/-- While the start is under way, a step of its own is one less to do, up to the call of
`authenticate`, and the steps of others leave it what it has to do. -/
theorem startWork_step {s s' : FirstStart} {a : FirstStartAction} {o : List ProxyCall}
    (hunder : s.loops .start ≠ none) (hs : s.step translate a = some (s', o)) :
    if FirstStartAction.ofStart a then
      s'.startWork < s.startWork ∧ (s'.startWork = 0 → s'.listening = true)
    else s'.loops .start = s.loops .start := by
  cases next_of_step hs with
  | limitUpdated => exact setLoop_other s (by decide) _
  | start hidle => exact absurd hidle hunder
  | @same who _ _ _ hloop =>
      cases who with
      | limitUpdated => exact setLoop_other s (by decide) _
      | start => simp [FirstStartAction.ofStart, startWork, hloop]
  | @changed who _ _ _ hloop =>
      cases who with
      | limitUpdated => exact setLoop_other s (by decide) _
      | start =>
          simp [FirstStartAction.ofStart, startWork, hloop]
          omega
  | @tell who _ _ _ _ hloop =>
      cases who with
      | limitUpdated => exact setLoop_other _ (by decide) _
      | start => simp [FirstStartAction.ofStart, startWork, hloop]
  | handled => exact setLoop_other s (by decide) _
  | authenticate hloop => simp [FirstStartAction.ofStart, startWork, hloop]
  | listen => rfl

/-- **When the first start wedges.** In every run of either controller up to and through the first
start, neither the handler of `LimitUpdated` nor the start is ever blocked for ever exactly when
there is room for each status that the start itself gives; and then the start, which can always take
a step of its own, comes with each of them nearer to `authenticate`. -/
theorem start_unwedged_iff (translate : String → String) (kind : ControllerKind)
    (txs : List AuthType) (lockState : AuthType → LockState) (acts : List FirstStartAction) :
    (Along (step translate) (UnwedgedStep translate) (new kind txs lockState) acts ↔
      Along (step translate) LeavesRoom (new kind txs lockState) acts) ∧
    ∀ (s s' : FirstStart) (a : FirstStartAction) (o : List ProxyCall), s.loops .start ≠ none →
      s.step translate a = some (s', o) →
      if FirstStartAction.ofStart a then
        s'.startWork < s.startWork ∧ (s'.startWork = 0 → s'.listening = true)
      else s'.loops .start = s.loops .start := by
  refine ⟨⟨?_, ?_⟩, fun _ _ _ _ => startWork_step⟩
  · intro h
    exact Along.of_invariant (I := Inv) (fun _ _ _ _ hinv _ hs => hinv.step hs)
      (fun _ _ hinv hsafe => hsafe.leavesRoom hinv) (inv_new kind txs lockState) h
  · intro h
    refine Along.of_invariant (I := fun s => s.Inv ∧ ¬ s.StartBlocked)
      (fun s a s' o hI hroom hs => ⟨hI.1.step hs, hroom.not_startBlocked hI.1 hI.2 hs⟩) ?_
      ⟨inv_new kind txs lockState, ?_⟩ h
    · intro s a hI hroom s' o hs
      exact (unwedged_iff (hI.1.step hs)).mpr (hroom.not_startBlocked hI.1 hI.2 hs)
    · rintro ⟨-, rest, x, hloop⟩
      cases hloop

/-- One notification that finds the password locked, or unlocked again. -/
def togglePassword (allowed : Bool) : List FirstStartAction :=
  [.limitUpdated, .ask .limitUpdated allowed, .tell .limitUpdated, .handled]

/-- Five times the password is locked and unlocked, before a start that finds it locked. -/
def tenChanges : List FirstStartAction :=
  (List.range 10).flatMap fun i => togglePassword (i % 2 = 1)

/-- The first start is wedged by the eleventh change of a lock, which it finds itself. -/
theorem eleventh_change_wedges :
    ¬ ∀ (translate : String → String) (kind : ControllerKind) (txs : List AuthType)
      (lockState : AuthType → LockState) (acts : List FirstStartAction),
      Along (step translate) (UnwedgedStep translate) (new kind txs lockState) acts := by
  intro h
  have hask := (h id .normal [.password] (fun _ => .unlock)
    ((tenChanges ++ [.start 1]) ++ [.ask .start false])).of_run rfl
  have hinv : Inv _ := run_invariant_of_step (fun _ _ _ _ h hs => h.step hs)
    (inv_new .normal [.password] fun _ => .unlock)
    (show run (step id) _ (tenChanges ++ [.start 1]) = some _ from rfl)
  have hchange : LockState.unlock ≠ lockOf false := by decide
  exact hask.leavesRoom hinv .password [] rfl hchange rfl

end FirstStart

end LingmoAuthenticate.Session
