import LingmoAuthenticate.Session.Simulation

/-!
# Custom factors: the transaction as runs of its steps

Between two calls nothing is under way but the goroutines that wait for a token.

* `CustomSteps.Shows`: what the steps have come to between two calls.
* `CustomSteps.takesApart`: an action that is foreseen is a run of steps; `leads_of_run` carries it
  to every run of a new transaction.
-/

namespace LingmoAuthenticate.Session

open Lib AuthCommon

namespace CustomSteps

/-- The transaction between two calls: nothing is under way but the goroutines, each of which waits
for a token at the channel of its own attempt (`waits`). The channel of the field is that of the
last attempt, which is open as long as the transaction has not been ended (`opened`). -/
structure Shows (s : CustomSteps) (tx : CustomTx) : Prop where
  base : tx.Same s.toBaseTx
  chanPasswd : tx.chanPasswd = s.chanPasswd.map s.chans.closed
  made : ∀ c, s.chanPasswd = some c → c = s.attempts
  isEnded : tx.isEnded = s.isEnded
  opened : s.isEnded = false → s.chans.closed s.attempts = false
  fresh : ∀ c, s.attempts < c → s.chans.closed c = false
  waits : ∀ n, n ∈ tx.running ↔ s.verifies n = .receiving n
  started : ∀ n ∈ tx.running, n ≤ s.attempts ∧ s.chanPasswd.isSome
  nodup : tx.running.Nodup
  tokens : ∃ k, ∀ i, k ≤ i → s.tokens i = .idle
  ending : s.ending = none
  panicked : s.panicked = false

variable {s s' : CustomSteps} {tx : CustomTx} {n i c : ℕ}

/-- A start that nothing comes between. -/
theorem run_start (hlives : s.panicked = false) (hcan : s.canStart = true)
    (hn : n = s.attempts + 1) :
    run step s [.check, .authenticate, .unmark n, .giveStarted n, .takeChan n] =
      some ({ s with
        status := some defaultVerifyStatusStarted, devState := .verifying, attempts := n, sent := []
        chanPasswd := some n, isEnded := false
        starts := Function.update s.starts n .returned
        verifies := Function.update s.verifies n (.receiving n) },
        [[], [], [], [⟨n, defaultVerifyStatusStarted⟩], []]) := by
  subst hn
  have hcan' : BaseTx.canStart { s.toBaseTx with sent := [] } = true := hcan
  simp [run, step, move, check, CustomSteps.authenticate, unmark, giveStarted, setStart, setVerify,
    giveStatus, hlives, hcan', BaseTx.giveStatus, statusCodeToDevState, defaultVerifyStatusStarted,
    newVerifyStatus]

/-- A token that is taken at once. -/
theorem run_setToken (hlives : s.panicked = false) (hdev : s.devState = .verifying)
    (hended : s.isEnded = false) (hmux : s.ending = none) (hi : s.tokens i = .idle)
    (hch : s.chanPasswd = some c) (hopen : s.chans.closed c = false)
    (hn : s.verifies n = .receiving c) :
    run step s [.setToken i, .testDevState i, .testEnded i, .send i, .receive n i, .give n] =
      some ({ s with
        status := some (newVerifyStatus .success true ""), devState := .ended
        sent := [⟨n, newVerifyStatus .success true ""⟩]
        chans := (s.chans.taken i)
        tokens := Function.update s.tokens i .returned
        verifies := Function.update s.verifies n .returned },
        [[], [], [], [], [], [⟨n, newVerifyStatus .success true ""⟩]]) := by
  simp [run, step, move, CustomSteps.setToken, send, receive, setVerify, giveStatus, hlives, hdev,
    hended, hmux, hi, hch, hopen, hn, Rendezvous.send, Rendezvous.Offers, Rendezvous.taken,
    BaseTx.giveStatus, statusCodeToDevState, newVerifyStatus]

/-- An `end` that nothing comes between. -/
theorem run_end (hlives : s.panicked = false) (hended : s.isEnded = false) (hmux : s.ending = none)
    (hch : s.chanPasswd = some c) (hopen : s.chans.closed c = false) :
    run step s [.endTx, .endGive, .endMark, .endClose] =
      some ({ s with
        status := some defaultVerifyStatusEnd, devState := .idle, sent := []
        isEnded := true
        chans := { s.chans with closed := Function.update s.chans.closed c true } },
        [[], [⟨s.attempts, defaultVerifyStatusEnd⟩], [], []]) := by
  simp [run, step, move, endClose, giveStatus, hlives,
    hended, hmux, hch, hopen, Rendezvous.close,
    BaseTx.giveStatus, statusCodeToDevState, newVerifyStatus, defaultVerifyStatusEnd]

/-- The goroutine of a channel that is closed returns. -/
theorem run_receiveClosed (hlives : s.panicked = false) (hn : s.verifies n = .receiving c)
    (hclosed : s.chans.closed c = true) :
    run step s [.receiveClosed n] =
      some ({ s with sent := [], verifies := Function.update s.verifies n .returned }, [[]]) := by
  simp [run, step, move, setVerify, hlives, hn, hclosed]

/-- **A start** makes a channel, and a goroutine that waits there. -/
theorem Shows.start (h : s.Shows tx) (hcan : tx.canStart = true) :
    ∃ s', Leads step s (CustomTx.authenticate { tx with sent := [] }).sent s' ∧
      s'.Shows (CustomTx.authenticate { tx with sent := [] }) := by
  have hcan' : s.canStart = true := by
    rwa [BaseTx.canStart, h.base.devState, h.base.lockState] at hcan
  have hattempts : tx.attempts = s.attempts := h.base.attempts
  have hfresh : s.attempts + 1 ∉ tx.running := by
    intro hmem
    have hle := (h.started _ hmem).1
    omega
  have hsent : (CustomTx.authenticate { tx with sent := [] }).sent =
      [⟨s.attempts + 1, defaultVerifyStatusStarted⟩] := by
    rw [← hattempts]
    rfl
  rw [hsent]
  refine ⟨_, ⟨_, _, run_start h.panicked hcan' rfl, rfl⟩, ?_⟩
  constructor
  · exact ⟨h.base.type0, rfl, rfl, h.base.lockState, congrArg Nat.succ hattempts⟩
  · simp [CustomTx.authenticate, CustomTx.giveStatus, h.fresh]
  · rintro c ⟨⟩
    rfl
  · rfl
  · exact fun _ => h.fresh _ (Nat.lt_succ_self _)
  · exact fun c hc => h.fresh c (by dsimp only at hc; omega)
  · intro n
    show n ∈ (tx.attempts + 1) :: tx.running ↔ _
    rw [hattempts, List.mem_cons, h.waits]
    dsimp only
    by_cases hn : n = s.attempts + 1
    · subst hn
      simp
    · simp [hn]
  · intro n hn
    rcases List.mem_cons.mp (show n ∈ (tx.attempts + 1) :: tx.running from hn) with rfl | hn
    · exact ⟨by simp [hattempts], rfl⟩
    · exact ⟨Nat.le_succ_of_le (h.started n hn).1, rfl⟩
  · exact List.nodup_cons.mpr ⟨hattempts ▸ hfresh, h.nodup⟩
  · exact h.tokens
  · exact h.ending
  · exact h.panicked

/-- A token reaches the goroutine of the last attempt, or is not taken. -/
theorem Shows.setPassword (h : s.Shows tx) (hdev : tx.devState = .verifying) :
    ∃ s', Leads step s (CustomTx.setPassword { tx with sent := [] }).sent s' ∧
      s'.Shows (CustomTx.setPassword { tx with sent := [] }) := by
  have hattempts : tx.attempts = s.attempts := h.base.attempts
  have hstays : s.Shows { tx with sent := [] } :=
    ⟨h.base.resent _ _,
      h.chanPasswd, h.made, h.isEnded, h.opened, h.fresh, h.waits, h.started, h.nodup, h.tokens,
      h.ending, h.panicked⟩
  unfold CustomTx.setPassword
  dsimp only
  split_ifs with hended hmem
  · exact ⟨s, .refl step s, hstays⟩
  · have hopen : s.isEnded = false := by
      rw [← h.isEnded]
      simpa using hended
    rw [hattempts] at hmem
    obtain ⟨c, hch⟩ := Option.isSome_iff_exists.mp (h.started _ hmem).2
    obtain rfl : c = s.attempts := h.made c hch
    obtain ⟨i, hi⟩ := h.tokens
    have hrun := run_setToken h.panicked (h.base.devState.symm.trans hdev) hopen h.ending
      (hi i le_rfl) hch (h.opened hopen) ((h.waits _).mp hmem)
    refine ⟨_, ⟨_, _, hrun, by rw [← hattempts]; rfl⟩, ?_⟩
    constructor
    · exact ⟨h.base.type0, rfl, rfl, h.base.lockState, hattempts⟩
    · exact h.chanPasswd
    · exact h.made
    · exact h.isEnded
    · exact h.opened
    · exact h.fresh
    · intro n
      show n ∈ tx.running.erase tx.attempts ↔ _
      rw [h.nodup.mem_erase_iff, h.waits, hattempts]
      dsimp only
      by_cases hn : n = s.attempts
      · subst hn
        simp
      · simp [hn]
    · intro n hn
      exact h.started n (List.mem_of_mem_erase hn)
    · exact h.nodup.erase _
    · refine ⟨i + 1, fun j hj => ?_⟩
      dsimp only
      rw [Function.update_of_ne (by omega)]
      exact hi j (by omega)
    · exact h.ending
    · exact h.panicked
  · exact ⟨s, .refl step s, hstays⟩

/-- An `end` closes the channel, and the goroutine that waits there returns. -/
theorem Shows.endTx {tx' : CustomTx} (h : s.Shows tx) (ct : CloseType)
    (hs : CustomTx.endTx { tx with sent := [] } ct = some tx') :
    ∃ s', Leads step s tx'.sent s' ∧ s'.Shows tx' := by
  have hattempts : tx.attempts = s.attempts := h.base.attempts
  unfold CustomTx.endTx at hs
  dsimp only at hs
  split_ifs at hs with hended hch
  · cases hs
    exact ⟨s, .refl step s,
      ⟨h.base.resent _ _,
      h.chanPasswd, h.made, h.isEnded, h.opened, h.fresh, h.waits, h.started, h.nodup, h.tokens,
      h.ending, h.panicked⟩⟩
  · cases hs
    have hopen : s.isEnded = false := by
      rw [← h.isEnded]
      simpa using hended
    obtain ⟨c, hc⟩ : ∃ c, s.chanPasswd = some c := by
      rw [h.chanPasswd] at hch
      exact ⟨_, (Option.map_eq_some_iff.mp hch).choose_spec.1⟩
    obtain rfl : c = s.attempts := h.made c hc
    have hrun := run_end h.panicked hopen h.ending hc (h.opened hopen)
    have hlead : Leads step s [⟨tx.attempts, defaultVerifyStatusEnd⟩] _ :=
      ⟨_, _, hrun, by rw [← hattempts]; rfl⟩
    -- the goroutine of the last attempt returns, if it is there
    obtain ⟨s', hlead', hwaits, hs'⟩ : ∃ s',
        Leads step s [⟨tx.attempts, defaultVerifyStatusEnd⟩] s' ∧
        (∀ n, n ∈ tx.running.erase s.attempts ↔ s'.verifies n = .receiving n) ∧
        s' = { s with
          status := some defaultVerifyStatusEnd, devState := .idle, sent := [], isEnded := true
          chans := { s.chans with closed := Function.update s.chans.closed s.attempts true }
          verifies := s'.verifies } := by
      by_cases hmem : s.attempts ∈ tx.running
      · have hback := run_receiveClosed (n := s.attempts) (c := s.attempts)
          (s := { s with
            status := some defaultVerifyStatusEnd, devState := .idle, sent := [], isEnded := true
            chans := { s.chans with closed := Function.update s.chans.closed s.attempts true } })
          h.panicked ((h.waits _).mp hmem) (Function.update_self ..)
        refine ⟨_, hlead.trans ⟨_, _, hback, rfl⟩, fun n => ?_, rfl⟩
        rw [h.nodup.mem_erase_iff, h.waits]
        dsimp only
        by_cases hn : n = s.attempts
        · subst hn
          simp
        · simp [hn]
      · exact ⟨_, hlead, fun n => by rw [List.erase_of_not_mem hmem]; exact h.waits n, rfl⟩
    rw [← hattempts] at hwaits
    refine ⟨s', hlead', ?_⟩
    rw [hs']
    constructor
    · exact ⟨h.base.type0, rfl, rfl, h.base.lockState, hattempts⟩
    · dsimp only
      rw [hc, Option.map_some, Function.update_self]
    · exact h.made
    · rfl
    · exact fun hopen => by cases hopen
    · intro c hlt
      dsimp only at hlt ⊢
      rw [Function.update_of_ne (by omega)]
      exact h.fresh c hlt
    · exact hwaits
    · exact fun n hn => h.started n (List.mem_of_mem_erase hn)
    · exact h.nodup.erase _
    · exact h.tokens
    · exact h.ending
    · exact h.panicked

/-- A lock notification. -/
theorem Shows.setLockState (h : s.Shows tx) (l : LockState) :
    ∃ s', Leads step s (BaseTx.notifyLock { tx.toBaseTx with sent := [] } l).sent s' ∧
      s'.Shows { tx with toBaseTx := BaseTx.notifyLock { tx.toBaseTx with sent := [] } l } := by
  have hrun : run step s [.setLockState l] =
      some ({ s with toBaseTx := BaseTx.notifyLock { s.toBaseTx with sent := [] } l },
        [(BaseTx.notifyLock { s.toBaseTx with sent := [] } l).sent]) := by
    simp [run, step, move, h.panicked]
  rw [h.base.quiet]
  refine ⟨_, ⟨_, _, hrun, List.append_nil _⟩, ?_⟩
  have hattempts : (BaseTx.notifyLock { s.toBaseTx with sent := [] } l).attempts = s.attempts :=
    BaseTx.notifyLock_attempts _ l
  constructor
  · exact .refl _
  · exact h.chanPasswd
  · exact fun c hc => (h.made c hc).trans hattempts.symm
  · exact h.isEnded
  · intro hopen
    dsimp only
    rw [hattempts]
    exact h.opened hopen
  · intro c hc
    exact h.fresh c (hattempts ▸ hc)
  · exact h.waits
  · intro n hn
    dsimp only
    rw [hattempts]
    exact h.started n hn
  · exact h.nodup
  · exact h.tokens
  · exact h.ending
  · exact h.panicked

/-- **The custom transactions of `Transactions`** do nothing that is not done here. -/
theorem takesApart :
    TakesApart (fun s t => ∃ tx, t = .custom tx ∧ s.Shows tx) Tx.Foreseen step Tx.step := by
  rintro s _ a t' os ⟨tx, rfl, h⟩ hfit hs
  obtain ⟨t, ht, heq⟩ := Option.map_eq_some_iff.mp hs
  cases heq
  cases a with
  | custom a =>
      obtain ⟨tx', htx', rfl⟩ := Option.map_eq_some_iff.mp ht
      cases a with
      | authenticate =>
          obtain ⟨hcan, heq⟩ := Option.ite_none_right_eq_some.mp htx'
          cases heq
          obtain ⟨s', hlead, hshows⟩ := h.start hcan
          exact ⟨s', hlead, _, rfl, hshows⟩
      | setPassword =>
          cases htx'
          obtain ⟨s', hlead, hshows⟩ := h.setPassword (hfit rfl)
          exact ⟨s', hlead, _, rfl, hshows⟩
      | endTx ct =>
          obtain ⟨s', hlead, hshows⟩ := h.endTx ct htx'
          exact ⟨s', hlead, _, rfl, hshows⟩
      | setLockState l =>
          rw [CustomTx.step, CustomTx.setLockState_eq, Option.some.injEq] at htx'
          cases htx'
          obtain ⟨s', hlead, hshows⟩ := h.setLockState l
          exact ⟨s', hlead, _, rfl, hshows⟩
  | _ => cases ht

/-- A new transaction has no channel and no goroutine. -/
theorem shows_new (lockState : LockState) : (new lockState).Shows (.new lockState) := by
  constructor
  · exact .refl _
  · rfl
  · exact nofun
  · rfl
  · exact fun _ => rfl
  · exact fun _ _ => rfl
  · intro n
    simp [CustomTx.new, new]
  · exact nofun
  · exact List.nodup_nil
  · exact ⟨0, fun _ _ => rfl⟩
  · rfl
  · rfl

/-- So is a run of a new custom transaction. -/
theorem leads_of_run {lockState : LockState} {as : List TxAction} {t : Tx}
    {bs : List (List Given)}
    (hfit : Along Tx.step Tx.Foreseen (.custom (.new lockState)) as)
    (hr : run Tx.step (.custom (.new lockState)) as = some (t, bs)) :
    ∃ s', Leads step (new lockState) bs.flatten s' := by
  obtain ⟨s', hlead, -⟩ := takesApart.run ⟨_, rfl, shows_new lockState⟩ hfit hr
  exact ⟨s', hlead⟩

end CustomSteps

end LingmoAuthenticate.Session
