import LingmoAuthenticate.Session.Inversion
import LingmoAuthenticate.Session.Simulation

/-!
# Passwords: the transaction as runs of its steps

Between two calls the session in place is that of the last start, and each goroutine is in its
conversation with PAM.

* `PasswordSteps.Shows`: what the steps have come to between two calls.
* `PasswordSteps.takesApart`: an action that is foreseen is a run of steps; `leads_of_run` carries
  it to every run of a new transaction.
-/

namespace LingmoAuthenticate.Session

open Lib AuthCommon

namespace PasswordSteps

variable {s s' : PasswordSteps} {tx : PasswordTx} {n j : ℕ}

/-- A start that nothing comes between, as far as PAM. -/
theorem run_start (hlives : s.panicked = false) (hcan : s.canStart = true)
    (hn : n = s.nextSessionId + 1) :
    run step s [.check, .authenticate, .newPamSession n, .callStart n, .start n] =
      some ({ s with
        sent := [], attempts := n, nextSessionId := n, sessionId := n, session := some n
        sessions := Function.update s.sessions n ⟨n, true, some n, false, false, false⟩
        starts := Function.update s.starts n (.made n) }, [[], [], [], [], []]) := by
  subst hn
  have hcan' : BaseTx.canStart { s.toBaseTx with sent := [] } = true := hcan
  simp [run, step, move, check, PasswordSteps.authenticate, putSession, callStart,
    PasswordSteps.start, setStart, setSession, Session.newPamSession, hlives, hcan']

/-- The rest of the start, and the first step of its goroutine. -/
theorem run_authenticate (hlives : s.panicked = false) (hn : s.starts n = .made n)
    (hsession : s.session = some n) (hresult : (s.sessions n).result = true)
    (hid : ((s.sessions n).id : ℤ) = s.sessionId) :
    run step s [.pamStart n true, .callAuthenticate n, .testStarted n, .giveStarted n, .doAuth n] =
      some ({ s with
        status := some defaultVerifyStatusStarted, devState := .verifying, sent := []
        sessions := Function.update s.sessions n { s.sessions n with core := true }
        starts := Function.update s.starts n .returned
        targets := Function.update s.targets n n
        pams := Function.update s.pams n .conversing },
        [[], [], [], [⟨n, defaultVerifyStatusStarted⟩], []]) := by
  simp [run, step, move, pamStart, callAuthenticate, testStarted, giveStarted, spawn, doAuth,
    sessionOf, setStart, setSession, setPam, giveStatus, hlives, hn, hsession, hresult, hid,
    BaseTx.giveStatus, statusCodeToDevState, newVerifyStatus, defaultVerifyStatusStarted]

/-- A goroutine tests its session and gives its status, or drops it. -/
theorem leads_send (hlives : s.panicked = false) {v : VerifyStatus} {next : PamNext}
    (hn : s.pams n = .testing v next) (ht : s.targets n = n) (hid : (s.sessions n).id = n) :
    ∃ s', Leads step s (if (n : ℤ) = s.sessionId then [⟨n, v⟩] else []) s' ∧
      (if (n : ℤ) = s.sessionId then s.toBaseTx.giveStatus n v else s.toBaseTx).Same
        s'.toBaseTx ∧
      s' = { s with
        toBaseTx := s'.toBaseTx, pams := Function.update s.pams n next.toPhase } := by
  by_cases hpresent : (n : ℤ) = s.sessionId
  · have hrun : run step s [.testId n, .give n] =
        some ({ s with
          toBaseTx := BaseTx.giveStatus { s.toBaseTx with sent := [] } n v
          pams := Function.update s.pams n next.toPhase }, [[], [⟨n, v⟩]]) := by
      simp [run, step, move, testId, sessionOf, setPam, giveStatus, hlives, hn, ht, hid, hpresent,
        BaseTx.giveStatus]
    rw [if_pos hpresent, if_pos hpresent]
    exact ⟨_, ⟨_, _, hrun, rfl⟩, ⟨rfl, rfl, rfl, rfl, rfl⟩, rfl⟩
  · have hrun : run step s [.testId n] =
        some ({ s with sent := [], pams := Function.update s.pams n next.toPhase }, [[]]) := by
      simp [run, step, move, testId, sessionOf, setPam, hlives, hn, ht, hid, hpresent]
    rw [if_neg hpresent, if_neg hpresent]
    exact ⟨_, ⟨_, _, hrun, rfl⟩, ⟨rfl, rfl, rfl, rfl, rfl⟩, rfl⟩

/-- The transaction between two calls: the session in place is that of the last start (`placed`), it
has its channel, which is closed where the session has been ended, and no later channel is closed
(`fresh`). Each goroutine is in its conversation with PAM, for the session of its own number, and
some numbers of calls of `end` are free. -/
structure Shows (s : PasswordSteps) (tx : PasswordTx) : Prop where
  base : tx.Same s.toBaseTx
  sessionId : tx.sessionId = s.sessionId
  nextSessionId : tx.nextSessionId = s.nextSessionId
  attempts : s.attempts = s.nextSessionId
  session : tx.session = s.session.map fun o => ⟨o, (s.sessions o).ended⟩
  placed : s.session = none ∧ s.attempts = 0 ∨
    s.session = some s.attempts ∧ (s.sessions s.attempts).ch = some s.attempts ∧
      s.chans.closed s.attempts = (s.sessions s.attempts).ended
  fresh : ∀ c, s.attempts < c → s.chans.closed c = false
  conversing : ∀ a ∈ tx.running, a.id = a.attempt ∧ a.attempt ≤ s.attempts ∧
    s.pams a.attempt = .conversing ∧ s.targets a.attempt = a.attempt ∧
    (s.sessions a.attempt).id = a.attempt
  nodup : tx.running.Nodup
  ends : ∃ k, ∀ j, k ≤ j → s.ends j = .idle
  panicked : s.panicked = false

/-- What has been sent does not matter. -/
theorem Shows.quieted (h : s.Shows tx) : s.Shows { tx with sent := [] } :=
  ⟨h.base.resent _ _,
    h.sessionId, h.nextSessionId, h.attempts, h.session, h.placed, h.fresh, h.conversing, h.nodup,
    h.ends, h.panicked⟩

/-- **A start** is the ten steps up to the conversation with PAM. The new session is in place and has
its channel when the status `Started` is given. -/
theorem Shows.start (h : s.Shows tx) (hcan : tx.canStart = true) :
    ∃ s', Leads step s (PasswordTx.authenticate { tx with sent := [] } true).sent s' ∧
      s'.Shows (PasswordTx.authenticate { tx with sent := [] } true) := by
  have hattempts : tx.attempts = s.attempts := h.base.attempts
  have hnext : tx.nextSessionId = s.attempts := h.nextSessionId.trans h.attempts.symm
  have hcan' : s.canStart = true := by
    rwa [BaseTx.canStart, h.base.devState, h.base.lockState] at hcan
  have hstart := run_start h.panicked hcan' rfl
  have hrest := run_authenticate (n := s.nextSessionId + 1)
    (s := { s with
      sent := [], attempts := s.nextSessionId + 1, nextSessionId := s.nextSessionId + 1
      sessionId := (s.nextSessionId + 1 : ℕ), session := some (s.nextSessionId + 1)
      sessions := Function.update s.sessions (s.nextSessionId + 1)
        ⟨s.nextSessionId + 1, true, some (s.nextSessionId + 1), false, false, false⟩
      starts := Function.update s.starts (s.nextSessionId + 1) (.made (s.nextSessionId + 1)) })
    h.panicked (Function.update_self ..) rfl (by simp) (by simp)
  have heq : PasswordTx.authenticate { tx with sent := [] } true =
      { tx with
        status := some defaultVerifyStatusStarted, devState := .verifying
        attempts := s.attempts + 1, sent := [⟨s.attempts + 1, defaultVerifyStatusStarted⟩]
        nextSessionId := s.attempts + 1, sessionId := (s.attempts + 1 : ℕ)
        session := some ⟨s.attempts + 1, false⟩
        running := ⟨s.attempts + 1, s.attempts + 1⟩ :: tx.running } := by
    simp [PasswordTx.authenticate, PasswordTx.sendStatus, PasswordTx.giveStatus,
      BaseTx.giveStatus, statusCodeToDevState, newVerifyStatus, defaultVerifyStatusStarted,
      hattempts, hnext]
  rw [heq]
  rw [← h.attempts] at hstart hrest
  have hback : Leads step _ [⟨s.attempts + 1, defaultVerifyStatusStarted⟩] _ :=
    ⟨_, _, hrest, rfl⟩
  refine ⟨_, hback.after hstart rfl, ?_⟩
  constructor
  · exact ⟨h.base.type0, rfl, rfl, h.base.lockState, rfl⟩
  · rfl
  · rfl
  · rfl
  · simp
  · refine .inr ⟨rfl, by simp, ?_⟩
    dsimp only
    rw [h.fresh _ (Nat.lt_succ_self _)]
    simp
  · exact fun c hc => h.fresh c (by dsimp only at hc; omega)
  · intro a ha
    rcases List.mem_cons.mp ha with rfl | ha
    · simp
    · obtain ⟨hid, hle, hpam, htarget, hsession⟩ := h.conversing a ha
      have hne : a.attempt ≠ s.attempts + 1 := by omega
      refine ⟨hid, Nat.le_succ_of_le hle, ?_, ?_, ?_⟩
      · exact (Function.update_of_ne hne ..).trans hpam
      · exact (Function.update_of_ne hne ..).trans htarget
      · simpa [hne] using hsession
  · refine List.nodup_cons.mpr ⟨fun hmem => ?_, h.nodup⟩
    have hle := (h.conversing _ hmem).2.1
    dsimp only at hle
    omega
  · exact h.ends
  · exact h.panicked

/-- A goroutine gives a status out of its conversation, and goes on or returns. -/
theorem Shows.answer (h : s.Shows tx) {a : PamAuth} (ha : a ∈ tx.running) {p : PasswordStep}
    {v : VerifyStatus} {next : PamNext}
    (hmove : ∀ t : PasswordSteps, t.pams a.attempt = .conversing →
      t.move p = some (t.setPam a.attempt (.testing v next)))
    {running : List PamAuth}
    (hrunning : ∀ b ∈ running, b ∈ tx.running ∧ (b = a → next = .conversing))
    (hnodup : running.Nodup) :
    ∃ s', Leads step s
        (PasswordTx.sendStatus { tx with sent := [], running := running } a v).sent s' ∧
      s'.Shows (PasswordTx.sendStatus { tx with sent := [], running := running } a v) := by
  obtain ⟨hid, hle, hpam, htarget, hsession⟩ := h.conversing a ha
  have hrun : run step s [p] =
      some ({ s with
        sent := [], pams := Function.update s.pams a.attempt (.testing v next) }, [[]]) := by
    have hstep : step s p =
        some ({ s with sent := [], pams := Function.update s.pams a.attempt (.testing v next) },
          []) := by
      rw [step, if_neg (by simp [h.panicked]), hmove { s with sent := [] } hpam]
      rfl
    simp [run, hstep]
  obtain ⟨s', hlead, hsame, hs'⟩ := leads_send (n := a.attempt)
    (s := { s with sent := [], pams := Function.update s.pams a.attempt (.testing v next) })
    h.panicked (Function.update_self ..) htarget hsession
  dsimp only at hlead hsame hs'
  rw [Function.update_idem] at hs'
  have hattempts : s'.attempts = s.attempts := by
    rw [← hsame.attempts]
    split_ifs <;> rfl
  have hsend : PasswordTx.sendStatus { tx with sent := [], running := running } a v =
      { tx with
        toBaseTx := if (a.attempt : ℤ) = s.sessionId then
          BaseTx.giveStatus { tx.toBaseTx with sent := [] } a.attempt v
          else { tx.toBaseTx with sent := [] }
        running := running } := by
    rw [PasswordTx.sendStatus, hid, h.sessionId]
    split_ifs <;> rfl
  have hsent : (PasswordTx.sendStatus { tx with sent := [], running := running } a v).sent =
      if (a.attempt : ℤ) = s.sessionId then [⟨a.attempt, v⟩] else [] := by
    rw [hsend]
    split_ifs <;> rfl
  rw [hsent]
  refine ⟨s', hlead.after hrun rfl, ?_⟩
  rw [hsend, hs']
  constructor
  · refine .trans ?_ hsame
    split_ifs
    · exact ⟨h.base.type0, rfl, rfl, h.base.lockState, h.base.attempts⟩
    · exact h.base.resent _ _
  · exact h.sessionId
  · exact h.nextSessionId
  · exact hattempts.trans h.attempts
  · exact h.session
  · dsimp only
    rw [hattempts]
    exact h.placed
  · dsimp only
    rw [hattempts]
    exact h.fresh
  · intro b hb
    obtain ⟨hmem, hnext⟩ := hrunning b hb
    obtain ⟨hid', hle', hpam', htarget', hsession'⟩ := h.conversing b hmem
    refine ⟨hid', hattempts ▸ hle', ?_, htarget', hsession'⟩
    dsimp only
    by_cases hsame : b.attempt = a.attempt
    · obtain rfl : b = a := by
        obtain ⟨i, n⟩ := a
        obtain ⟨i', n'⟩ := b
        cases hid
        cases hid'
        cases hsame
        rfl
      rw [Function.update_self, hnext rfl]
      rfl
    · rwa [Function.update_of_ne hsame]
  · exact hnodup
  · exact h.ends
  · exact h.panicked

/-- What an `end` changes: its status is given, the session in place is marked and its channel
closed, and the session id is reset. -/
structure Ended (j : ℕ) (s s' : PasswordSteps) : Prop where
  base : (s.giveStatus s.attempts defaultVerifyStatusEnd).Same s'.toBaseTx
  sessions : ∀ o, s'.sessions o = { s.sessions o with
    ended := (s.sessions o).ended || decide (s.session = some o) }
  fresh : ∀ c, s.attempts < c → s'.chans.closed c = s.chans.closed c
  closed : s.session = some s.attempts → s'.chans.closed s.attempts = true
  rest : s' = { s with
    toBaseTx := s'.toBaseTx, sessionId := -1, sessions := s'.sessions, chans := s'.chans
    ends := Function.update s.ends j (.returned s.session) }

/-- An `end` that nothing comes between; a session that has been ended is left as it is. -/
theorem leads_end (hlives : s.panicked = false) (hj : s.ends j = .idle)
    (hplaced : s.session = none ∧ s.attempts = 0 ∨
      s.session = some s.attempts ∧ (s.sessions s.attempts).ch = some s.attempts ∧
        s.chans.closed s.attempts = (s.sessions s.attempts).ended) :
    ∃ s', Leads step s [⟨s.attempts, defaultVerifyStatusEnd⟩] s' ∧ Ended j s s' := by
  obtain ⟨hsession, hzero⟩ | ⟨hsession, hch, hclosed⟩ := hplaced
  · have hrun : run step s [.endTx j, .endGive j, .endReset j] =
        some ({ s with
          status := some defaultVerifyStatusEnd, devState := .idle, sent := [], sessionId := -1
          ends := Function.update s.ends j (.returned none) },
          [[], [⟨0, defaultVerifyStatusEnd⟩], []]) := by
      simp [run, step, move, PasswordSteps.endTx, setEnd, giveStatus, hlives, hj, hsession,
        BaseTx.giveStatus, statusCodeToDevState, newVerifyStatus, defaultVerifyStatusEnd]
    have hlead : Leads step s [⟨s.attempts, defaultVerifyStatusEnd⟩] _ :=
      ⟨_, _, hrun, by rw [hzero]; rfl⟩
    refine ⟨_, hlead, ⟨rfl, rfl, rfl, rfl, rfl⟩, ?_, fun _ _ => rfl, ?_, ?_⟩
    · intro o
      simp [hsession]
    · rw [hsession]
      exact fun heq => absurd heq.symm (Option.some_ne_none _)
    · rw [hsession]
  · cases hended : (s.sessions s.attempts).ended with
    | true =>
        have hrun : run step s [.endTx j, .endSession j, .endGive j, .endReset j] =
            some ({ s with
              status := some defaultVerifyStatusEnd, devState := .idle, sent := []
              sessionId := -1
              ends := Function.update s.ends j (.returned (some s.attempts)) },
              [[], [], [⟨s.attempts, defaultVerifyStatusEnd⟩], []]) := by
          simp [run, step, move, PasswordSteps.endTx, endSession, setEnd, giveStatus, hlives, hj,
            hsession, hended, BaseTx.giveStatus, statusCodeToDevState, newVerifyStatus,
            defaultVerifyStatusEnd]
        refine ⟨_, ⟨_, _, hrun, rfl⟩, ⟨rfl, rfl, rfl, rfl, rfl⟩, ?_, fun _ _ => rfl, ?_, ?_⟩
        · intro o
          have hkeeps : ((s.sessions o).ended || decide (s.session = some o)) =
              (s.sessions o).ended := by
            by_cases ho : o = s.attempts
            · simp [ho, hended]
            · simp [hsession, Ne.symm ho]
          rw [hkeeps]
        · exact fun _ => hclosed.trans hended
        · rw [hsession]
    | false =>
        have hrun : run step s [.endTx j, .endSession j, .endGive j, .endReset j] =
            some ({ s with
              status := some defaultVerifyStatusEnd, devState := .idle, sent := []
              sessionId := -1
              chans := { s.chans with closed := Function.update s.chans.closed s.attempts true }
              sessions := Function.update s.sessions s.attempts
                { s.sessions s.attempts with ended := true }
              ends := Function.update s.ends j (.returned (some s.attempts)) },
              [[], [], [⟨s.attempts, defaultVerifyStatusEnd⟩], []]) := by
          simp [run, step, move, PasswordSteps.endTx, endSession, setEnd, setSession, giveStatus,
            Rendezvous.close, hlives, hj, hsession, hended, hch, hclosed, BaseTx.giveStatus,
            statusCodeToDevState, newVerifyStatus, defaultVerifyStatusEnd]
        refine ⟨_, ⟨_, _, hrun, rfl⟩, ⟨rfl, rfl, rfl, rfl, rfl⟩, ?_, ?_, ?_, ?_⟩
        · intro o
          by_cases ho : o = s.attempts
          · subst ho
            simp [hsession]
          · simp [hsession, ho, Ne.symm ho]
        · exact fun c hc => Function.update_of_ne (by omega) ..
        · exact fun _ => Function.update_self ..
        · rw [hsession]

/-- **An `end`** closes the channel of the session in place, once. The goroutines stay in their
conversations, and their statuses are dropped from then on. -/
theorem Shows.endTx (h : s.Shows tx) (ct : CloseType) :
    ∃ s', Leads step s (PasswordTx.endTx { tx with sent := [] } ct).sent s' ∧
      s'.Shows (PasswordTx.endTx { tx with sent := [] } ct) := by
  have hattempts : tx.attempts = s.attempts := h.base.attempts
  obtain ⟨k, hk⟩ := h.ends
  obtain ⟨s', hlead, hend⟩ := leads_end h.panicked (hk k le_rfl) h.placed
  have hattempts' : s'.attempts = s.attempts := hend.base.attempts.symm
  have hid : ∀ o, (s'.sessions o).id = (s.sessions o).id := fun o => by rw [hend.sessions]
  refine ⟨s', by rw [← hattempts] at hlead; exact hlead, ?_⟩
  rw [hend.rest]
  constructor
  · refine .trans ?_ hend.base
    exact ⟨h.base.type0, rfl, rfl, h.base.lockState, h.base.attempts⟩
  · rfl
  · exact h.nextSessionId
  · exact hattempts'.trans h.attempts
  · show tx.session.map PamSession.endSession = _
    rw [h.session, Option.map_map]
    dsimp only
    cases hsession : s.session with
    | none => rfl
    | some o => simp [hend.sessions, hsession, PamSession.endSession]
  · dsimp only
    rw [hattempts']
    obtain hnone | ⟨hsession, hch, -⟩ := h.placed
    · exact .inl hnone
    · refine .inr ⟨hsession, ?_, ?_⟩
      · rw [hend.sessions]
        exact hch
      · rw [hend.closed hsession, hend.sessions, hsession]
        simp
  · dsimp only
    rw [hattempts']
    exact fun c hc => (hend.fresh c hc).trans (h.fresh c hc)
  · intro a ha
    obtain ⟨hsame, hle, hpam, htarget, hsession⟩ := h.conversing a ha
    exact ⟨hsame, hattempts'.symm ▸ hle, hpam, htarget, (hid _).trans hsession⟩
  · exact h.nodup
  · refine ⟨k + 1, fun j hj => ?_⟩
    exact (Function.update_of_ne (by omega) ..).trans (hk j (by omega))
  · exact h.panicked

/-- A lock notification. -/
theorem Shows.setLockState (h : s.Shows tx) (l : LockState) :
    ∃ s', Leads step s (BaseTx.notifyLock { tx.toBaseTx with sent := [] } l).sent s' ∧
      s'.Shows { tx with toBaseTx := BaseTx.notifyLock { tx.toBaseTx with sent := [] } l } := by
  have hrun : run step s [.setLockState l] =
      some ({ s with toBaseTx := BaseTx.notifyLock { s.toBaseTx with sent := [] } l },
        [(BaseTx.notifyLock { s.toBaseTx with sent := [] } l).sent]) := by
    simp [run, step, move, h.panicked]
  have hattempts : (BaseTx.notifyLock { s.toBaseTx with sent := [] } l).attempts = s.attempts :=
    BaseTx.notifyLock_attempts _ l
  rw [h.base.quiet]
  refine ⟨_, ⟨_, _, hrun, List.append_nil _⟩, ?_⟩
  constructor
  · exact .refl _
  · exact h.sessionId
  · exact h.nextSessionId
  · exact hattempts.trans h.attempts
  · exact h.session
  · dsimp only
    rw [hattempts]
    exact h.placed
  · dsimp only
    rw [hattempts]
    exact h.fresh
  · dsimp only
    rw [hattempts]
    exact h.conversing
  · exact h.nodup
  · exact h.ends
  · exact h.panicked

/-- **The password transactions of `Transactions`** do nothing that is not done here. -/
theorem takesApart :
    TakesApart (fun s t => ∃ tx, t = .password tx ∧ s.Shows tx) Tx.Foreseen step Tx.step := by
  rintro s _ a t' os ⟨tx, rfl, h⟩ hfit hs
  obtain ⟨t, ht, heq⟩ := Option.map_eq_some_iff.mp hs
  cases heq
  cases a with
  | password a =>
      obtain ⟨tx', htx', rfl⟩ := Option.map_eq_some_iff.mp ht
      have hfit : PasswordTx.Foreseen a := hfit
      obtain ⟨s', hlead, hshows⟩ : ∃ s', Leads step s tx'.sent s' ∧ s'.Shows tx' := by
        cases PasswordTx.next_of_step htx' with
        | authenticate hcan =>
            cases hfit
            exact h.start hcan
        | setPassword => exact ⟨s, .refl step s, h.quieted⟩
        | respondPAM ha =>
            exact h.answer ha (p := .textInfo _ _) (fun t ht => if_pos ht)
              (fun b hb => ⟨hb, fun _ => rfl⟩) h.nodup
        | doAuth ha =>
            refine h.answer ha (p := .judge _ _) (fun t ht => if_pos ht)
              (fun b hb => ?_) (h.nodup.erase _)
            obtain ⟨hne, hmem⟩ := h.nodup.mem_erase_iff.mp hb
            exact ⟨hmem, fun heq => absurd heq hne⟩
        | endTx => exact h.endTx _
        | setLockState => exact h.setLockState _
      exact ⟨s', hlead, tx', rfl, hshows⟩
  | _ => cases ht

/-- A new transaction has no session and no goroutine. -/
theorem shows_new (type0 : AuthType) (lockState : LockState) :
    (new type0 lockState).Shows (.new type0 lockState) :=
  ⟨.refl _, rfl, rfl, rfl, rfl, .inl ⟨rfl, rfl⟩, fun _ _ => rfl, nofun, List.nodup_nil,
    ⟨0, fun _ _ => rfl⟩, rfl⟩

/-- So is a run of a new password transaction. -/
theorem leads_of_run {type0 : AuthType} {lockState : LockState} {as : List TxAction} {t : Tx}
    {bs : List (List Given)}
    (hfit : Along Tx.step Tx.Foreseen (.password (.new type0 lockState)) as)
    (hr : run Tx.step (.password (.new type0 lockState)) as = some (t, bs)) :
    ∃ s', Leads step (new type0 lockState) bs.flatten s' := by
  obtain ⟨s', hlead, -⟩ := takesApart.run ⟨_, rfl, shows_new type0 lockState⟩ hfit hr
  exact ⟨s', hlead⟩

end PasswordSteps

end LingmoAuthenticate.Session
