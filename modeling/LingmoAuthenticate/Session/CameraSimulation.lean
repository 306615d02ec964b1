import LingmoAuthenticate.Session.Simulation

/-!
# Cameras: the transaction as runs of its steps

Between two calls no attempt is there, or one that waits in its loop for a code of its driver.

* `CameraVerify.Shows`: what the steps have come to between two calls.
* `CameraVerify.takesApart`: an action that is foreseen is a run of steps; `leads_of_run` carries it
  to every run of a new transaction.
-/

namespace LingmoAuthenticate.Session

open Lib AuthCommon

namespace CameraVerify

variable {c : CameraType} {s s' : CameraVerify c} {tx : CameraTx c} {id : ℕ}

/-- A start that nothing comes between, of a camera whose driver is found and starts. -/
theorem run_start (hcan : s.canStart = true) (hphase : s.phase = none) (haction : s.action = none) :
    run step s [.start, .claim, .giveStarted, .givePrompt, .genActionId none, .verifyStart true] =
      some ({ s with
        status := some (newVerifyStatus .prompt false c.prompt), devState := .verifying
        attempts := s.attempts + 1, sent := [], release := some (s.attempts + 1)
        quit := some false, isEnded := false, actionId := some s.nextId, action := some s.nextId
        codes := [], nextId := s.nextId + 1, generated := (s.attempts + 1, s.nextId) :: s.generated
        phase := some (.looping s.nextId) },
        [[], [], [⟨s.attempts + 1, defaultVerifyStatusStarted⟩],
          [⟨s.attempts + 1, newVerifyStatus .prompt false c.prompt⟩], [], []]) := by
  have hcan' : BaseTx.canStart { s.toBaseTx with sent := [] } = true := hcan
  simp [run, step, move, claim, give, genActionId, verifyStart, hcan', hphase, haction,
    BaseTx.giveStatus, statusCodeToDevState, newVerifyStatus, defaultVerifyStatusStarted]

/-- A code that the loop receives at once. -/
theorem run_read (hphase : s.phase = some (.looping id)) (haction : s.action = some id)
    (hcodes : s.codes = []) (code : ℤ) (restart : Option String) :
    ∃ t : CameraVerify c,
      (∃ verified, t = { s with sent := [], codes := [], verified := verified }) ∧
      run step s [.verifyStatus id code, .read restart] =
        some (t.code code restart, [[], (t.code code restart).sent]) := by
  by_cases hcode : code = 0
  · subst hcode
    refine ⟨_, ⟨id :: s.verified, rfl⟩, ?_⟩
    simp [run, step, move, read, signal, hphase, haction, hcodes]
  · refine ⟨_, ⟨s.verified, rfl⟩, ?_⟩
    simp [run, step, move, read, signal, hphase, haction, hcodes, hcode]

/-- A goroutine that has left the loop without a result is over. -/
theorem run_finish (hphase : s.phase = some (.left none)) :
    run step s [.finish] = some ({ s with sent := [], phase := none }, [[]]) := by
  simp [run, step, move, hphase]

/-- The rest of an `end`, when the attempt is over. -/
theorem run_ending (hending : s.ending = some .entered) (hrelease : s.release = some s.attempts)
    (hphase : s.phase = none) :
    run step s [.endWait, .endReceive, .endGive, .endMark, .endRelease] =
      some ({ s with
        status := some defaultVerifyStatusEnd, devState := .idle, sent := [], isEnded := true
        action := if s.action = s.actionId then none else s.action, ending := none },
        [[], [], [⟨s.attempts, defaultVerifyStatusEnd⟩], [], []]) := by
  simp [run, step, move, give, endRelease, closed, hending, hrelease, hphase, BaseTx.giveStatus,
    statusCodeToDevState, newVerifyStatus, defaultVerifyStatusEnd]

/-- The transaction between two calls: no attempt is there, or the last one is in its loop
(`looping`), with the action of its driver and no code that it has not read. The action is that of
the last attempt, or has been released, as it is once that attempt has been ended (`released`). -/
structure Shows (s : CameraVerify c) (tx : CameraTx c) : Prop where
  base : tx.Same s.toBaseTx
  quit : tx.quit = s.quit
  isEnded : tx.isEnded = s.isEnded
  release : tx.release = s.release.map fun _ => decide (s.phase = none)
  made : s.release = none ∨ s.release = some s.attempts
  running : tx.running = if s.phase = none then none else some s.attempts
  looping : s.phase = none ∨ s.release = some s.attempts ∧
    ∃ id, s.phase = some (.looping id) ∧ s.action = some id ∧ s.codes = []
  pending : tx.pending = none
  action : s.action = none ∨ s.action = s.actionId
  released : (s.isEnded = true ∨ s.attempts = 0) → s.action = none

/-- **A start**, of a camera whose driver is found and starts, up to the loop of the attempt. -/
theorem Shows.start (h : s.Shows tx) {tx' : CameraTx c} (hcan : tx.canStart = true)
    (hfree : tx.isEnded = true ∨ tx.attempts = 0)
    (hs : CameraTx.authenticate { tx with sent := [] } = some tx') :
    ∃ s', Leads step s tx'.sent s' ∧ s'.Shows tx' ∧ s'.ending = s.ending := by
  obtain ⟨⟨hrunning, -⟩, heq⟩ := Option.ite_none_right_eq_some.mp hs
  cases heq
  have hattempts : tx.attempts = s.attempts := h.base.attempts
  have hcan' : s.canStart = true := by
    rwa [BaseTx.canStart, h.base.devState, h.base.lockState] at hcan
  have hphase : s.phase = none := by
    by_contra hne
    rw [h.running, if_neg hne] at hrunning
    cases hrunning
  have haction : s.action = none := h.released (by rwa [← h.isEnded, ← hattempts])
  refine ⟨_, ⟨_, _, run_start hcan' hphase haction, by rw [← hattempts]; rfl⟩, ?_, rfl⟩
  constructor
  · exact ⟨h.base.type0, rfl, rfl, h.base.lockState, congrArg Nat.succ hattempts⟩
  · rfl
  · rfl
  · rfl
  · exact .inr rfl
  · exact congrArg (fun n => some (n + 1)) hattempts
  · exact .inr ⟨rfl, s.nextId, rfl, rfl, rfl⟩
  · exact h.pending
  · exact .inr rfl
  · intro hended
    rcases hended with hended | hzero
    · cases hended
    · cases hzero

/-- A code that is passed on. -/
theorem Shows.code (h : s.Shows tx) {tx' : CameraTx c} {code : ℤ}
    (hs : CameraTx.code { tx with sent := [] } code = some tx') :
    ∃ s', Leads step s tx'.sent s' ∧ s'.Shows tx' ∧ s'.ending = s.ending := by
  obtain ⟨n, hn, hs⟩ := Option.bind_eq_some_iff.mp hs
  obtain hnone | ⟨hrelease, id, hphase, haction, hcodes⟩ := h.looping
  · rw [h.running, if_pos hnone] at hn
    cases hn
  rw [h.running, if_neg (by simp [hphase])] at hn
  cases hn
  obtain ⟨hgoes, hs⟩ := Option.ite_none_left_eq_some.mp hs
  obtain ⟨t, ⟨verified, rfl⟩, hrun⟩ := run_read hphase haction hcodes code none
  by_cases hcontinue : c.isContinue code = true
  · rw [if_pos hcontinue] at hs
    cases hs
    rw [CameraVerify.code, if_neg hgoes, if_pos hcontinue] at hrun
    refine ⟨_, ⟨_, _, hrun, rfl⟩, ?_, rfl⟩
    exact ⟨h.base.resent _ _,
      h.quit, h.isEnded, h.release, h.made, h.running, .inr ⟨hrelease, id, hphase, haction, rfl⟩,
      h.pending, h.action, h.released⟩
  · rw [if_neg hcontinue] at hs
    cases hs
    rw [CameraVerify.code, if_neg hgoes, if_neg hcontinue] at hrun
    refine ⟨_, ⟨_, _, hrun, rfl⟩, ?_, rfl⟩
    exact ⟨⟨h.base.type0, rfl, rfl, h.base.lockState, h.base.attempts⟩,
      h.quit, h.isEnded, h.release, h.made, h.running, .inr ⟨hrelease, id, hphase, haction, rfl⟩,
      h.pending, h.action, h.released⟩

/-- What an attempt that leaves its loop changes: the status that it gives, if any, is given, and
the attempt is over; the codes are read or left. -/
structure Left (l : CameraLeave) (s s' : CameraVerify c) : Prop where
  base : ((l.gives c).elim s.toBaseTx (s.giveStatus s.attempts)).Same s'.toBaseTx
  rest : s' = { s with
    toBaseTx := s'.toBaseTx, phase := none, codes := s'.codes, verified := s'.verified }

/-- **An attempt that leaves its loop** in any way that leads there. -/
theorem leads_leave {l : CameraLeave} (hphase : s.phase = some (.looping id))
    (haction : s.action = some id) (hcodes : s.codes = []) (hpossible : l.isPossible c = true)
    (hloop : l.FromLoop s.quit) :
    ∃ s', Leads step s ((l.gives c).toList.map (Given.mk s.attempts)) s' ∧ Left l s s' := by
  cases l with
  | error msg => exact hloop.elim
  | quit =>
      have hquit : s.quit = some true := hloop
      have hrun : run step s [.quit] =
          some ({ s with sent := [], phase := some (.left none) }, [[]]) := by
        simp [run, step, move, hphase, hquit]
      exact ⟨_, .trans ⟨_, _, hrun, rfl⟩ ⟨_, _, run_finish rfl, rfl⟩,
        ⟨rfl, rfl, rfl, rfl, rfl⟩, rfl⟩
  | timeout =>
      have hrun : run step s [.timeout] =
          some (leave { s with sent := [] } (newVerifyStatus .failure false "time out"),
            [[⟨s.attempts, newVerifyStatus .failure false "time out"⟩]]) := by
        simp [run, step, move, hphase, leave, give, BaseTx.giveStatus]
      exact ⟨_, .trans ⟨_, _, hrun, rfl⟩ ⟨_, _, run_finish rfl, rfl⟩,
        ⟨rfl, rfl, rfl, rfl, rfl⟩, rfl⟩
  | done code =>
      obtain ⟨t, ⟨verified, rfl⟩, hrun⟩ := run_read hphase haction hcodes code none
      have hends : c.isEndedStatus code = true := hpossible
      rw [CameraVerify.code, if_pos hends] at hrun
      exact ⟨_, .trans ⟨_, _, hrun, rfl⟩ ⟨_, _, run_finish rfl, rfl⟩,
        ⟨rfl, rfl, rfl, rfl, rfl⟩, rfl⟩
  | restart code msg =>
      obtain ⟨hgoes, hcontinue⟩ := Bool.and_eq_true_iff.mp hpossible
      obtain ⟨t, ⟨verified, rfl⟩, hrun⟩ := run_read hphase haction hcodes code (some msg)
      rw [CameraVerify.code, if_neg (by simpa using hgoes), if_pos hcontinue] at hrun
      exact ⟨_, .trans ⟨_, _, hrun, rfl⟩ ⟨_, _, run_finish rfl, rfl⟩,
        ⟨rfl, rfl, rfl, rfl, rfl⟩, rfl⟩

/-- What has been sent before does not matter to what a status makes of a transaction. -/
theorem same_given {b b' : BaseTx} (h : b.Same b') (v : Option VerifyStatus) (n : ℕ) :
    (v.elim { b with sent := [] } (BaseTx.giveStatus { b with sent := [] } n)).Same
        (v.elim b' (b'.giveStatus n)) ∧
      (v.elim { b with sent := [] } (BaseTx.giveStatus { b with sent := [] } n)).sent =
        v.toList.map (Given.mk n) := by
  cases v with
  | none => exact ⟨⟨h.type0, h.status, h.devState, h.lockState, h.attempts⟩, rfl⟩
  | some v => exact ⟨⟨h.type0, rfl, rfl, h.lockState, h.attempts⟩, rfl⟩

/-- **An attempt that leaves**, and is over. -/
theorem Shows.leave (h : s.Shows tx) {tx' : CameraTx c} {l : CameraLeave}
    (hloop : l.FromLoop tx.quit) (hs : CameraTx.leave { tx with sent := [] } l = some tx') :
    ∃ s', Leads step s tx'.sent s' ∧ s'.Shows tx' ∧ s'.ending = s.ending := by
  obtain ⟨n, hn, hnone, hreleased, hquit, hended, hpending, hbase⟩ := CameraTx.leave_spec hs
  obtain ⟨hpossible, -⟩ := Option.ite_none_right_eq_some.mp
    (Option.bind_eq_some_iff.mp hs).choose_spec.2
  obtain hphase | ⟨hrelease, id, hphase, haction, hcodes⟩ := h.looping
  · rw [h.running, if_pos hphase] at hn
    cases hn
  rw [h.running, if_neg (by simp [hphase])] at hn
  cases hn
  obtain ⟨s', hlead, hleft⟩ := leads_leave hphase haction hcodes hpossible (h.quit ▸ hloop)
  have hresult : l.result = none := by
    cases l <;> first | rfl | exact hloop.elim
  obtain ⟨hsame, hsent⟩ := same_given h.base (l.gives c) s.attempts
  rw [← hbase] at hsame hsent
  rw [hsent]
  refine ⟨s', hlead, ?_, by rw [hleft.rest]⟩
  have hattempts : s'.attempts = s.attempts := by
    rw [← hleft.base.attempts]
    cases l.gives c <;> rfl
  rw [hleft.rest]
  constructor
  · exact hsame.trans hleft.base
  · exact hquit.trans h.quit
  · exact hended.trans h.isEnded
  · rw [hreleased, hrelease]
    rfl
  · exact .inr (hrelease.trans (congrArg some hattempts.symm))
  · exact hnone
  · exact .inl rfl
  · rw [hpending, hresult]
    rfl
  · exact h.action
  · exact fun hfree => h.released (hattempts ▸ hfree)

/-- The rest of an `end`, when the attempt is over. -/
theorem Shows.ending (h : s.Shows tx) (hending : s.ending = some .entered)
    (hreleased : tx.release = some true) :
    ∃ s', Leads step s [⟨tx.attempts, defaultVerifyStatusEnd⟩] s' ∧
      s'.Shows { tx.giveStatus tx.attempts defaultVerifyStatusEnd with isEnded := true } ∧
      s'.ending = none := by
  have hattempts : tx.attempts = s.attempts := h.base.attempts
  obtain ⟨m, hm, hphase⟩ := Option.map_eq_some_iff.mp (h.release.symm.trans hreleased)
  obtain hnone | hrelease := h.made
  · rw [hnone] at hm
    cases hm
  have hphase : s.phase = none := of_decide_eq_true hphase
  refine ⟨_, ⟨_, _, run_ending hending hrelease hphase, by rw [← hattempts]; rfl⟩, ?_, rfl⟩
  have haction : (if s.action = s.actionId then none else s.action) = none := by
    obtain hnone | hsame := h.action
    · rw [hnone, ite_self]
    · exact if_pos hsame
  exact ⟨⟨h.base.type0, rfl, rfl, h.base.lockState, h.base.attempts⟩, h.quit, rfl, h.release,
    h.made, h.running, .inl hphase, h.pending, .inl haction, fun _ => haction⟩

/-- An `end` waits for the attempt, if that is still there. -/
theorem Shows.waits (h : s.Shows tx) (hending : s.ending = some .entered) {waited : CameraLeave}
    (hloop : waited.FromLoop tx.quit) {tx' : CameraTx c}
    (hs : (match tx.release with
      | some true => some { tx with sent := [] }
      | some false => CameraTx.leave { tx with sent := [] } waited
      | none => none) = some tx') :
    ∃ s', Leads step s (tx'.giveStatus tx'.attempts defaultVerifyStatusEnd).sent s' ∧
      s'.Shows { tx'.giveStatus tx'.attempts defaultVerifyStatusEnd with isEnded := true } ∧
      s'.ending = none := by
  split at hs
  · next hreleased =>
      cases hs
      obtain ⟨s', hlead, hshows, hnone⟩ := h.ending hending hreleased
      refine ⟨s', hlead, ?_, hnone⟩
      exact ⟨⟨hshows.base.type0, hshows.base.status, hshows.base.devState, hshows.base.lockState,
        hshows.base.attempts⟩, hshows.quit, hshows.isEnded, hshows.release, hshows.made,
        hshows.running, hshows.looping, hshows.pending, hshows.action, hshows.released⟩
  · obtain ⟨s₁, hlead, hshows, hsame⟩ := h.leave hloop hs
    obtain ⟨-, -, -, hreleased, -⟩ := CameraTx.leave_spec hs
    obtain ⟨s', hlead', hshows', hnone⟩ := hshows.ending (hsame.trans hending) hreleased
    exact ⟨s', hlead.trans hlead', hshows', hnone⟩
  · cases hs

/-- **An `end`**, which closes `quit` and waits for the attempt. -/
theorem Shows.endTx (h : s.Shows tx) (hfree : s.ending = none) {tx' : CameraTx c} (ct : CloseType)
    {waited : CameraLeave}
    (hloop : waited.FromLoop (if tx.devState = .verifying then some true else tx.quit))
    (hs : CameraTx.endTx { tx with sent := [] } ct waited = some tx') :
    ∃ s', Leads step s tx'.sent s' ∧ s'.Shows tx' ∧ s'.ending = none := by
  have hdev : tx.devState = s.devState := h.base.devState
  unfold CameraTx.endTx at hs
  dsimp only at hs
  split_ifs at hs with hended hverifying hquit
  · cases hs
    exact ⟨s, .refl step s, ⟨h.base.resent _ _, h.quit, h.isEnded, h.release, h.made, h.running,
      h.looping, h.pending, h.action, h.released⟩, hfree⟩
  · obtain ⟨tl, htl, rfl⟩ := Option.map_eq_some_iff.mp hs
    rw [if_pos hverifying] at hloop
    have hrun : run step s [.endTx] =
        some ({ s with sent := [], quit := some true, ending := some .entered }, [[]]) := by
      have hended' : s.isEnded = false := by simpa [h.isEnded] using hended
      have hquit' : s.quit = some false := h.quit.symm.trans hquit
      simp [run, step, move, CameraVerify.endTx, hfree, hended', hdev.symm.trans hverifying, hquit']
    have hshows : Shows (c := c) { s with sent := [], quit := some true, ending := some .entered }
        { tx with sent := [], quit := some true } :=
      ⟨h.base.resent _ _, rfl,
        h.isEnded, h.release, h.made, h.running, h.looping, h.pending, h.action, h.released⟩
    obtain ⟨s', hlead, hshows', hnone⟩ := hshows.waits rfl hloop htl
    exact ⟨s', hlead.after hrun rfl, hshows', hnone⟩
  · cases hs
  · obtain ⟨tl, htl, rfl⟩ := Option.map_eq_some_iff.mp hs
    rw [if_neg hverifying] at hloop
    have hrun : run step s [.endTx] =
        some ({ s with sent := [], ending := some .entered }, [[]]) := by
      have hended' : s.isEnded = false := by simpa [h.isEnded] using hended
      have hverifying' : s.devState ≠ .verifying := hdev ▸ hverifying
      simp [run, step, move, CameraVerify.endTx, hfree, hended', hverifying']
    have hshows : Shows (c := c) { s with sent := [], ending := some .entered }
        { tx with sent := [] } :=
      ⟨h.base.resent _ _, h.quit,
        h.isEnded, h.release, h.made, h.running, h.looping, h.pending, h.action, h.released⟩
    obtain ⟨s', hlead, hshows', hnone⟩ := hshows.waits rfl hloop htl
    exact ⟨s', hlead.after hrun rfl, hshows', hnone⟩

/-- A lock notification. -/
theorem Shows.setLockState (h : s.Shows tx) (l : LockState) :
    ∃ s', Leads step s (BaseTx.notifyLock { tx.toBaseTx with sent := [] } l).sent s' ∧
      s'.Shows { tx with toBaseTx := BaseTx.notifyLock { tx.toBaseTx with sent := [] } l } ∧
      s'.ending = s.ending := by
  have hrun : run step s [.setLockState l] =
      some ({ s with toBaseTx := BaseTx.notifyLock { s.toBaseTx with sent := [] } l },
        [(BaseTx.notifyLock { s.toBaseTx with sent := [] } l).sent]) := by
    simp [run, step, move]
  have hattempts : (BaseTx.notifyLock { s.toBaseTx with sent := [] } l).attempts = s.attempts :=
    BaseTx.notifyLock_attempts _ l
  rw [h.base.quiet]
  refine ⟨_, ⟨_, _, hrun, List.append_nil _⟩, ?_, rfl⟩
  constructor
  · exact .refl _
  · exact h.quit
  · exact h.isEnded
  · exact h.release
  · dsimp only
    rw [hattempts]
    exact h.made
  · dsimp only
    rw [hattempts]
    exact h.running
  · dsimp only
    rw [hattempts]
    exact h.looping
  · exact h.pending
  · exact h.action
  · dsimp only
    rw [hattempts]
    exact h.released

/-- A step of a transaction that is a camera is one of the camera. -/
theorem step_ofCamera {a : TxAction} {t : Tx} {os : List Given}
    (hs : (Tx.ofCamera c tx).step a = some (t, os)) (hfit : (Tx.ofCamera c tx).Foreseen a) :
    ∃ a' tx', a = .camera a' ∧ CameraTx.step { tx with sent := [] } a' = some tx' ∧
      t = .ofCamera c tx' ∧ os = tx'.sent ∧ tx.Foreseen a' := by
  obtain ⟨u, hu, heq⟩ := Option.map_eq_some_iff.mp hs
  cases heq
  cases c <;> cases a with
    | camera a =>
        obtain ⟨tx', htx', rfl⟩ := Option.map_eq_some_iff.mp hu
        exact ⟨a, tx', rfl, htx', rfl, rfl, hfit⟩
    | _ => cases hu

/-- **The cameras of `Transactions`** do nothing that is not done here. -/
theorem takesApart :
    TakesApart (fun s t => ∃ tx, t = .ofCamera c tx ∧ s.Shows tx ∧ s.ending = none) Tx.Foreseen
      step Tx.step := by
  rintro s _ a t' os ⟨tx, rfl, h, hfree⟩ hfit hs
  obtain ⟨a, tx', rfl, htx', rfl, rfl, hfit⟩ := step_ofCamera hs hfit
  obtain ⟨s', hlead, hshows, hfree'⟩ :
      ∃ s', Leads step s tx'.sent s' ∧ s'.Shows tx' ∧ s'.ending = none := by
    cases a with
    | authenticate =>
        obtain ⟨hcan, htx'⟩ := Option.ite_none_right_eq_some.mp htx'
        rw [← hfree]
        exact h.start hcan hfit htx'
    | code code =>
        rw [← hfree]
        exact h.code htx'
    | leave l =>
        rw [← hfree]
        exact h.leave hfit htx'
    | give =>
        obtain ⟨g, hg, -⟩ := Option.map_eq_some_iff.mp htx'
        rw [h.pending] at hg
        cases hg
    | endTx ct waited => exact h.endTx hfree ct hfit htx'
    | setLockState l waited =>
        rw [CameraTx.step, CameraTx.setLockState_eq, Option.some.injEq] at htx'
        cases htx'
        rw [← hfree]
        exact h.setLockState l
  exact ⟨s', hlead, tx', rfl, hshows, hfree'⟩

/-- A new camera has no attempt and no action. -/
theorem shows_new (lockState : LockState) : (new c lockState).Shows (.new c lockState) :=
  ⟨.refl _, rfl, rfl, rfl, .inl rfl, rfl, .inl rfl, rfl, .inl rfl, fun _ => rfl⟩

/-- So is a run of a new camera. -/
theorem leads_of_run {lockState : LockState} {as : List TxAction} {t : Tx}
    {bs : List (List Given)}
    (hfit : Along Tx.step Tx.Foreseen (.ofCamera c (.new c lockState)) as)
    (hr : run Tx.step (.ofCamera c (.new c lockState)) as = some (t, bs)) :
    ∃ s', Leads step (new c lockState) bs.flatten s' := by
  obtain ⟨s', hlead, -⟩ := takesApart.run ⟨_, rfl, shows_new lockState, rfl⟩ hfit hr
  exact ⟨s', hlead⟩

end CameraVerify

end LingmoAuthenticate.Session
