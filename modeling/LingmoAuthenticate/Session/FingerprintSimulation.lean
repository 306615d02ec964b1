import LingmoAuthenticate.Session.Simulation

/-!
# Fingerprints: the transaction as runs of its steps

Between two calls a goroutine has not started the device yet, or it has closed `release` and has a
result to give.

* `FingerprintSteps.Shows`: what the steps have come to between two calls.
* `FingerprintSteps.takesApart`: an action that is foreseen is a run of steps; `leads_of_run`
  carries it to every run of a new transaction.
-/

namespace LingmoAuthenticate.Session

open Lib AuthCommon

namespace FingerprintSteps

variable {s s' : FingerprintSteps} {tx : FingerprintTx} {n r : ℕ}

/-- A start that nothing comes between. -/
theorem run_start (hlives : s.panicked = false) (hcan : s.canStart = true)
    (hn : n = s.attempts + 1) :
    run step s [.start, .claim none] =
      some ({ s with
        status := some (newVerifyStatus .prompt false "Verify your fingerprint")
        devState := .verifying, attempts := n
        sent := [⟨n, defaultVerifyStatusStarted⟩,
          ⟨n, newVerifyStatus .prompt false "Verify your fingerprint"⟩]
        release := some n, quit := some n, isEnded := false
        phases := Function.update s.phases n .spawned },
        [[], [⟨n, defaultVerifyStatusStarted⟩,
          ⟨n, newVerifyStatus .prompt false "Verify your fingerprint"⟩]]) := by
  subst hn
  have hcan' : BaseTx.canStart { s.toBaseTx with sent := [] } = true := hcan
  simp [run, step, move, claim, setPhase, giveStatus, hlives, hcan', BaseTx.giveStatus,
    statusCodeToDevState, newVerifyStatus, defaultVerifyStatusStarted]

/-- A start that the device refuses. -/
theorem run_refused (hlives : s.panicked = false) (hcan : s.canStart = true) (err : String) :
    run step s [.start, .claim (some err)] = some ({ s with sent := [] }, [[], []]) := by
  have hcan' : BaseTx.canStart { s.toBaseTx with sent := [] } = true := hcan
  simp [run, step, move, claim, hlives, hcan']

/-- A goroutine leaves `doVerify`. -/
theorem run_doVerify (hlives : s.panicked = false) (hn : s.phases n = .spawned) {d : DoVerify}
    (hd : d.FromDevice (s.quit.any s.quitClosed)) : ∃ as bs, bs.flatten = [] ∧
      run step s as = some ({ s with
        sent := [], phases := Function.update s.phases n (.left d.result) }, bs) := by
  obtain ⟨verifyErr, code, stopErr⟩ := d
  cases verifyErr with
  | some err =>
      refine ⟨[.verify n (some err)], [[]], rfl, ?_⟩
      simp [run, step, move, setPhase, hlives, hn, DoVerify.result]
  | none =>
      obtain hd | hd | ⟨hcode, hquit⟩ := hd
      · cases hd
      · refine ⟨[.verify n none, .verifyStatus n code, .stopVerify n stopErr], [[], [], []], rfl,
          ?_⟩
        have hd' : isVerifyStatusDone code = true := hd
        simp [run, step, move, setPhase, hlives, hn, hd']
      · refine ⟨[.verify n none, .quit n, .stopVerify n stopErr], [[], [], []], rfl, ?_⟩
        cases hcode
        simp [run, step, move, setPhase, hlives, hn, hquit]

/-- It closes `release`. -/
theorem run_closeRelease (hlives : s.panicked = false) {result : Option VerifyStatus}
    (hn : s.phases n = .left result) (hr : s.release = some r) (hopen : s.releaseClosed r = false) :
    run step s [.closeRelease n] = some ({ s with
      sent := [], releaseClosed := Function.update s.releaseClosed r true
      releasedBy := Function.update s.releasedBy r (some n)
      phases := Function.update s.phases n (.released result) }, [[]]) := by
  simp [run, step, move, closeRelease, setPhase, hlives, hn, hr, hopen]

/-- A goroutine that has closed `release` gives the result that it has. -/
theorem run_give (hlives : s.panicked = false) {result : Option VerifyStatus}
    (hn : s.phases n = .released result) :
    run step s [.give n] = some ({ s with
      toBaseTx := result.elim { s.toBaseTx with sent := [] }
        (BaseTx.giveStatus { s.toBaseTx with sent := [] } n)
      phases := Function.update s.phases n .returned }, [result.toList.map (Given.mk n)]) := by
  cases result <;>
    simp [run, step, move, setPhase, giveStatus, hlives, hn, BaseTx.giveStatus]

/-- The rest of an `end` that has not to wait, or has waited. -/
theorem run_ending (hlives : s.panicked = false) (hending : s.ending = some (.released n)) :
    run step s [.endGive, .endMark] = some ({ s with
      status := some defaultVerifyStatusEnd, devState := .idle, sent := [], isEnded := true
      ending := none }, [[⟨n, defaultVerifyStatusEnd⟩], []]) := by
  simp [run, step, move, giveStatus, hlives, hending, BaseTx.giveStatus, statusCodeToDevState,
    newVerifyStatus, defaultVerifyStatusEnd]

/-- An `end` that finds `release` closed waits no longer. -/
theorem run_waiting (hlives : s.panicked = false) (hending : s.ending = some (.entered n))
    (hr : s.release = some r) (hclosed : s.releaseClosed r = true) :
    run step s [.endWait, .endReceive] = some ({ s with
      sent := [], ending := some (.released n) }, [[], []]) := by
  simp [run, step, move, hlives, hending, hr, hclosed]

/-- The transaction between two calls: a goroutine has not started the device, or has closed
`release` and has a result to give. The channels of the fields are those of the last attempt
(`made`), or there are none and the factor has never verified (`unmade`), and no channel of a later
attempt is closed (`fresh`). -/
structure Shows (s : FingerprintSteps) (tx : FingerprintTx) : Prop where
  base : tx.Same s.toBaseTx
  quit : tx.quit = s.quit.any s.quitClosed
  release : tx.release = s.release.any s.releaseClosed
  isEnded : tx.isEnded = s.isEnded
  made : s.quit = none ∧ s.release = none ∨
    s.quit = some s.attempts ∧ s.release = some s.attempts
  unmade : s.quit = none → tx.running = [] ∧ tx.pending = [] ∧ s.devState ≠ .verifying
  fresh : ∀ k, s.attempts < k → s.quitClosed k = false ∧ s.releaseClosed k = false
  running : ∀ n, n ∈ tx.running ↔ s.phases n = .spawned
  pending : ∀ g, g ∈ tx.pending ↔ s.phases g.attempt = .released (some g.status)
  le : ∀ n, n ∈ tx.running ∨ n ∈ tx.pending.map Given.attempt → n ≤ s.attempts
  nodup : tx.running.Nodup
  nodup' : tx.pending.Nodup
  panicked : s.panicked = false

/-- What has been sent does not matter. -/
theorem Shows.quieted (h : s.Shows tx) : s.Shows { tx with sent := [] } :=
  ⟨h.base.resent _ _, h.quit,
    h.release, h.isEnded, h.made, h.unmade, h.fresh, h.running, h.pending, h.le, h.nodup, h.nodup',
    h.panicked⟩

/-- **A start**, which makes both channels and a goroutine, or is refused and changes nothing. -/
theorem Shows.start (h : s.Shows tx) (hcan : tx.canStart = true) (claimErr : Option String) :
    ∃ s', Leads step s (FingerprintTx.authenticate { tx with sent := [] } claimErr).sent s' ∧
      s'.Shows (FingerprintTx.authenticate { tx with sent := [] } claimErr) ∧
      s'.ending = s.ending := by
  have hattempts : tx.attempts = s.attempts := h.base.attempts
  have hcan' : s.canStart = true := by
    rwa [BaseTx.canStart, h.base.devState, h.base.lockState] at hcan
  cases claimErr with
  | some err =>
      refine ⟨_, ⟨_, _, run_refused h.panicked hcan' err, rfl⟩, ?_, rfl⟩
      exact ⟨h.base.resent _ _,
        h.quit, h.release, h.isEnded, h.made, h.unmade, h.fresh, h.running, h.pending, h.le,
        h.nodup, h.nodup', h.panicked⟩
  | none =>
      have hnew : ¬ (s.attempts + 1 ∈ tx.running ∨
          s.attempts + 1 ∈ tx.pending.map Given.attempt) := by
        intro hmem
        have hle := h.le _ hmem
        omega
      refine ⟨_, ⟨_, _, run_start h.panicked hcan' rfl, by rw [← hattempts]; rfl⟩, ?_, rfl⟩
      constructor
      · exact ⟨h.base.type0, rfl, rfl, h.base.lockState, congrArg Nat.succ hattempts⟩
      · exact (h.fresh _ (Nat.lt_succ_self _)).1.symm
      · exact (h.fresh _ (Nat.lt_succ_self _)).2.symm
      · rfl
      · exact .inr ⟨rfl, rfl⟩
      · exact fun hnone => absurd hnone (Option.some_ne_none _)
      · exact fun k hk => h.fresh k (by dsimp only at hk; omega)
      · intro n
        show n ∈ (tx.attempts + 1) :: tx.running ↔ _
        rw [hattempts, List.mem_cons, h.running]
        dsimp only
        by_cases hn : n = s.attempts + 1
        · subst hn
          simp
        · simp [hn]
      · intro g
        show g ∈ tx.pending ↔ _
        dsimp only
        by_cases hg : g.attempt = s.attempts + 1
        · rw [hg, Function.update_self]
          refine iff_of_false (fun hmem => hnew (.inr ?_)) (fun heq => by cases heq)
          exact List.mem_map.mpr ⟨g, hmem, hg⟩
        · rw [Function.update_of_ne hg]
          exact h.pending g
      · intro n hn
        show n ≤ s.attempts + 1
        rcases hn with hn | hn
        · rcases List.mem_cons.mp (show n ∈ (tx.attempts + 1) :: tx.running from hn) with rfl | hn
          · rw [hattempts]
          · exact Nat.le_succ_of_le (h.le n (.inl hn))
        · exact Nat.le_succ_of_le (h.le n (.inr hn))
      · exact List.nodup_cons.mpr ⟨fun hmem => hnew (.inl (hattempts ▸ hmem)), h.nodup⟩
      · exact h.nodup'
      · exact h.panicked

/-- The goroutine of the attempt `n` leaves `verify` and closes `release`. -/
theorem Shows.verify (h : s.Shows tx) {d : DoVerify} (hd : d.FromDevice tx.quit)
    {tx' : FingerprintTx} (hs : FingerprintTx.verify { tx with sent := [] } n d = some tx') :
    ∃ s', Leads step s tx'.sent s' ∧ s'.Shows tx' ∧ s'.ending = s.ending := by
  obtain ⟨⟨hmem, hopen⟩, rfl⟩ := FingerprintTx.verify_eq_some.mp hs
  dsimp only at hmem hopen
  have hn : s.phases n = .spawned := (h.running n).mp hmem
  obtain ⟨hnil, -⟩ | ⟨hquit, hrelease⟩ := h.made
  · rw [(h.unmade hnil).1] at hmem
    cases hmem
  rw [h.release, hrelease, Option.any_some] at hopen
  obtain ⟨as, bs, hbs, hrun⟩ := run_doVerify h.panicked hn (h.quit ▸ hd)
  have hclose := run_closeRelease (n := n) (r := s.attempts)
    (s := { s with sent := [], phases := Function.update s.phases n (.left d.result) })
    h.panicked (Function.update_self ..) hrelease hopen
  -- a goroutine without a result returns as well
  obtain ⟨s', hlead, hs'⟩ : ∃ s', Leads step s [] s' ∧ s' = { s with
      sent := [], releaseClosed := Function.update s.releaseClosed s.attempts true
      releasedBy := Function.update s.releasedBy s.attempts (some n)
      phases := Function.update s.phases n
        (d.result.elim .returned fun v => .released (some v)) } := by
    rcases hresult : d.result with _ | v
    · rw [hresult] at hclose hrun
      have hgive := run_give (n := n)
        (s := { s with
          sent := [], releaseClosed := Function.update s.releaseClosed s.attempts true
          releasedBy := Function.update s.releasedBy s.attempts (some n)
          phases := Function.update (Function.update s.phases n (.left none)) n (.released none) })
        h.panicked (Function.update_self ..)
      have hback : Leads step _ [] _ := ⟨_, _, hgive, rfl⟩
      refine ⟨_, (hback.after hclose rfl).after hrun hbs, ?_⟩
      simp
    · rw [hresult] at hclose hrun
      have hback : Leads step _ [] _ := ⟨_, _, hclose, rfl⟩
      refine ⟨_, hback.after hrun hbs, ?_⟩
      simp
  have hattempts : tx.attempts = s.attempts := h.base.attempts
  have hnot : n ∉ tx.pending.map Given.attempt := by
    intro hpend
    obtain ⟨g, hg, rfl⟩ := List.mem_map.mp hpend
    rw [(h.pending g).mp hg] at hn
    cases hn
  refine ⟨s', hlead, ?_, by rw [hs']⟩
  rw [hs']
  constructor
  · exact h.base.resent _ _
  · exact h.quit
  · dsimp only
    rw [hrelease, Option.any_some, Function.update_self]
  · exact h.isEnded
  · exact h.made
  · dsimp only
    exact fun hnone => absurd (hquit.symm.trans hnone) (Option.some_ne_none _)
  · intro k hk
    dsimp only at hk ⊢
    rw [Function.update_of_ne (by omega)]
    exact h.fresh k hk
  · intro m
    dsimp only
    rw [h.nodup.mem_erase_iff, h.running]
    by_cases hm : m = n
    · subst hm
      cases d.result <;> simp
    · simp [hm]
  · intro g
    have hcons : ∀ v : VerifyStatus, g ∈ ⟨n, v⟩ :: tx.pending ↔
        Function.update s.phases n (.released (some v)) g.attempt =
          .released (some g.status) := by
      intro v
      rw [List.mem_cons, h.pending]
      by_cases hg : g.attempt = n
      · obtain ⟨m, w⟩ := g
        cases hg
        simp [hn, eq_comm]
      · have hne : g ≠ ⟨n, v⟩ := fun heq => hg (congrArg Given.attempt heq)
        simp [hg, hne]
    cases d.result with
    | some v => exact hcons v
    | none =>
        rw [h.pending]
        dsimp only [Option.elim]
        by_cases hg : g.attempt = n
        · rw [hg, hn, Function.update_self]
          exact iff_of_false (fun heq => by cases heq) (fun heq => by cases heq)
        · rw [Function.update_of_ne hg]
  · intro m hm
    rcases hm with hm | hm
    · exact h.le m (.inl (List.mem_of_mem_erase hm))
    · cases hresult : d.result with
      | none =>
          rw [hresult] at hm
          exact h.le m (.inr hm)
      | some v =>
          rw [hresult] at hm
          rcases List.mem_cons.mp (show m ∈ n :: tx.pending.map Given.attempt from hm) with rfl | hm
          · exact h.le m (.inl hmem)
          · exact h.le m (.inr hm)
  · exact h.nodup.erase _
  · cases d.result with
    | none => exact h.nodup'
    | some v =>
        exact List.nodup_cons.mpr ⟨fun hold => hnot (List.mem_map.mpr ⟨_, hold, rfl⟩), h.nodup'⟩
  · exact h.panicked

/-- A goroutine gives its result. -/
theorem Shows.give (h : s.Shows tx) {g : Given} (hg : g ∈ tx.pending) {tx' : FingerprintTx}
    (htx' : tx' = FingerprintTx.giveStatus { tx with sent := [], pending := tx.pending.erase g }
      g.attempt g.status) :
    ∃ s', Leads step s tx'.sent s' ∧ s'.Shows tx' ∧ s'.ending = s.ending := by
  subst htx'
  have hphase := (h.pending g).mp hg
  refine ⟨_, ⟨_, _, run_give h.panicked hphase, rfl⟩, ?_, rfl⟩
  constructor
  · exact ⟨h.base.type0, rfl, rfl, h.base.lockState, h.base.attempts⟩
  · exact h.quit
  · exact h.release
  · exact h.isEnded
  · exact h.made
  · exact fun hnone => absurd hg (by rw [(h.unmade hnone).2.1]; exact List.not_mem_nil)
  · exact h.fresh
  · intro m
    show m ∈ tx.running ↔ _
    dsimp only
    by_cases hm : m = g.attempt
    · subst hm
      rw [h.running, hphase, Function.update_self]
      exact iff_of_false (fun heq => by cases heq) (fun heq => by cases heq)
    · rw [Function.update_of_ne hm]
      exact h.running m
  · intro g'
    show g' ∈ tx.pending.erase g ↔ _
    rw [h.nodup'.mem_erase_iff, h.pending]
    dsimp only
    by_cases hattempt : g'.attempt = g.attempt
    · rw [hattempt, hphase, Function.update_self]
      refine iff_of_false ?_ (fun heq => by cases heq)
      rintro ⟨hne, heq⟩
      apply hne
      obtain ⟨m, v⟩ := g
      obtain ⟨m', v'⟩ := g'
      cases hattempt
      cases heq
      rfl
    · rw [Function.update_of_ne hattempt]
      have hne : g' ≠ g := fun heq => hattempt (congrArg Given.attempt heq)
      exact and_iff_right hne
  · intro m hm
    rcases hm with hm | hm
    · exact h.le m (.inl hm)
    · obtain ⟨g', hg', rfl⟩ := List.mem_map.mp hm
      exact h.le _ (.inr (List.mem_map.mpr ⟨g', List.mem_of_mem_erase hg', rfl⟩))
  · exact h.nodup
  · exact h.nodup'.erase _
  · exact h.panicked

/-- The rest of an `end` that waits for nothing. -/
theorem Shows.ending (h : s.Shows tx) (hending : s.ending = some (.released s.attempts)) :
    ∃ s', Leads step s [⟨tx.attempts, defaultVerifyStatusEnd⟩] s' ∧
      s'.Shows { tx.giveStatus tx.attempts defaultVerifyStatusEnd with isEnded := true } ∧
      s'.ending = none := by
  have hattempts : tx.attempts = s.attempts := h.base.attempts
  refine ⟨_, ⟨_, _, run_ending h.panicked hending, by rw [← hattempts]; rfl⟩, ?_, rfl⟩
  exact ⟨⟨h.base.type0, rfl, rfl, h.base.lockState, h.base.attempts⟩, h.quit, h.release, rfl,
    h.made, fun hnone => ⟨(h.unmade hnone).1, (h.unmade hnone).2.1, fun heq => by cases heq⟩,
    h.fresh, h.running, h.pending, h.le, h.nodup, h.nodup', h.panicked⟩

/-- The rest of an `end` that finds `release` closed. -/
theorem Shows.waiting (h : s.Shows tx) (hending : s.ending = some (.entered s.attempts))
    (hreleased : tx.release = true) :
    ∃ s', Leads step s [⟨tx.attempts, defaultVerifyStatusEnd⟩] s' ∧
      s'.Shows { tx.giveStatus tx.attempts defaultVerifyStatusEnd with isEnded := true } ∧
      s'.ending = none := by
  obtain ⟨r, hr, hclosed⟩ := (Option.any_eq_true _ _).mp (h.release.symm.trans hreleased)
  have hrun := run_waiting h.panicked hending hr hclosed
  have hshows : Shows { s with sent := [], ending := some (.released s.attempts) } tx :=
    ⟨h.base.resent _ _, h.quit,
      h.release, h.isEnded, h.made, h.unmade, h.fresh, h.running, h.pending, h.le, h.nodup,
      h.nodup', h.panicked⟩
  obtain ⟨s', hlead, hshows', hnone⟩ := hshows.ending rfl
  exact ⟨s', hlead.after hrun rfl, hshows', hnone⟩

/-- An `end` that closes `quit`. -/
theorem Shows.closesQuit (h : s.Shows tx) (hfree : s.ending = none) (hended : tx.isEnded = false)
    (hdev : tx.devState = .verifying) (hquit : tx.quit = false) :
    ∃ s', run step s [.endTx] = some (s', [[]]) ∧ s'.Shows { tx with sent := [], quit := true } ∧
      s'.ending = some (.entered s'.attempts) := by
  have hdev' : s.devState = .verifying := h.base.devState.symm.trans hdev
  obtain ⟨hnone, -⟩ | ⟨hmade, hrelease⟩ := h.made
  · exact absurd hdev' (h.unmade hnone).2.2
  have hopen : s.quitClosed s.attempts = false := by
    rw [h.quit, hmade, Option.any_some] at hquit
    exact hquit
  have hrun : run step s [.endTx] =
      some ({ s with
        sent := [], quitClosed := Function.update s.quitClosed s.attempts true
        ending := some (.entered s.attempts) }, [[]]) := by
    simp [run, step, move, FingerprintSteps.endTx, h.panicked, hfree, h.isEnded.symm.trans hended,
      hdev', hmade, hopen]
  refine ⟨_, hrun, ?_, rfl⟩
  constructor
  · exact h.base.resent _ _
  · dsimp only
    rw [hmade, Option.any_some, Function.update_self]
  · exact h.release
  · exact h.isEnded
  · exact h.made
  · exact fun hnone => absurd (hmade.symm.trans hnone) (Option.some_ne_none _)
  · intro k hk
    dsimp only at hk ⊢
    rw [Function.update_of_ne (by omega)]
    exact h.fresh k hk
  · exact h.running
  · exact h.pending
  · exact h.le
  · exact h.nodup
  · exact h.nodup'
  · exact h.panicked

/-- **An `end`**, which closes `quit` and waits for the goroutine that closes `release`. -/
theorem Shows.endTx (h : s.Shows tx) (hfree : s.ending = none) {tx' : FingerprintTx}
    (ct : CloseType) {waited : DoVerify} (hd : waited.FromDevice true)
    (hs : FingerprintTx.endTx { tx with sent := [] } ct waited = some tx') :
    ∃ s', Leads step s tx'.sent s' ∧ s'.Shows tx' ∧ s'.ending = none := by
  have hdev : tx.devState = s.devState := h.base.devState
  unfold FingerprintTx.endTx at hs
  dsimp only at hs
  split_ifs at hs with hended hverifying hquit hreleased
  · cases hs
    exact ⟨s, .refl step s, h.quieted, hfree⟩
  · cases hs
  · cases hs
    obtain ⟨s₁, hrun, hshows, hending⟩ := h.closesQuit hfree (by simpa using hended) hverifying
      (by simpa using hquit)
    obtain ⟨s', hlead, hshows', hnone⟩ := hshows.waiting hending hreleased
    exact ⟨s', hlead.after hrun rfl, hshows', hnone⟩
  · obtain ⟨tv, hverify, rfl⟩ := Option.map_eq_some_iff.mp hs
    obtain ⟨s₁, hrun, hshows, hending⟩ := h.closesQuit hfree (by simpa using hended) hverifying
      (by simpa using hquit)
    obtain ⟨s₂, hlead, hshows₂, hsame⟩ := hshows.verify (n := tx.attempts) hd hverify
    obtain ⟨-, rfl⟩ := FingerprintTx.verify_eq_some.mp hverify
    have hattempts₂ : tx.attempts = s₂.attempts := hshows₂.base.attempts
    have hattempts₁ : tx.attempts = s₁.attempts := hshows.base.attempts
    obtain ⟨s', hlead', hshows', hnone⟩ :=
      hshows₂.waiting (by rw [hsame, hending, ← hattempts₁, hattempts₂]) rfl
    exact ⟨s', (hlead.trans hlead').after hrun rfl, hshows', hnone⟩
  · cases hs
    have hended' : s.isEnded = false := by simpa [h.isEnded] using hended
    have hrun : run step s [.endTx] =
        some ({ s with sent := [], ending := some (.released s.attempts) }, [[]]) := by
      simp [run, step, move, FingerprintSteps.endTx, h.panicked, hfree, hended',
        hdev ▸ hverifying]
    have hshows : Shows { s with sent := [], ending := some (.released s.attempts) }
        { tx with sent := [] } :=
      ⟨h.base.resent _ _, h.quit,
        h.release, h.isEnded, h.made, h.unmade, h.fresh, h.running, h.pending, h.le, h.nodup,
        h.nodup', h.panicked⟩
    obtain ⟨s', hlead, hshows', hnone⟩ := hshows.ending rfl
    exact ⟨s', hlead.after hrun rfl, hshows', hnone⟩

/-- A lock notification. -/
theorem Shows.setLockState (h : s.Shows tx) (l : LockState) :
    ∃ s', Leads step s (BaseTx.notifyLock { tx.toBaseTx with sent := [] } l).sent s' ∧
      s'.Shows { tx with toBaseTx := BaseTx.notifyLock { tx.toBaseTx with sent := [] } l } ∧
      s'.ending = s.ending := by
  have hrun : run step s [.setLockState l] =
      some ({ s with toBaseTx := BaseTx.notifyLock { s.toBaseTx with sent := [] } l },
        [(BaseTx.notifyLock { s.toBaseTx with sent := [] } l).sent]) := by
    simp [run, step, move, h.panicked]
  have hattempts : (BaseTx.notifyLock { s.toBaseTx with sent := [] } l).attempts = s.attempts :=
    BaseTx.notifyLock_attempts _ l
  rw [h.base.quiet]
  refine ⟨_, ⟨_, _, hrun, List.append_nil _⟩, ?_, rfl⟩
  constructor
  · exact .refl _
  · exact h.quit
  · exact h.release
  · exact h.isEnded
  · dsimp only
    rw [hattempts]
    exact h.made
  · refine fun hnone => ⟨(h.unmade hnone).1, (h.unmade hnone).2.1, fun hdev => ?_⟩
    exact (h.unmade hnone).2.2 (BaseTx.notifyLock_devState _ l hdev).1
  · dsimp only
    rw [hattempts]
    exact h.fresh
  · exact h.running
  · exact h.pending
  · dsimp only
    rw [hattempts]
    exact h.le
  · exact h.nodup
  · exact h.nodup'
  · exact h.panicked

/-- **The fingerprint transactions of `Transactions`** do nothing that is not done here. -/
theorem takesApart :
    TakesApart (fun s t => ∃ tx, t = .fingerprint tx ∧ s.Shows tx ∧ s.ending = none)
      Tx.Foreseen step Tx.step := by
  rintro s _ a t' os ⟨tx, rfl, h, hfree⟩ hfit hs
  obtain ⟨t, ht, heq⟩ := Option.map_eq_some_iff.mp hs
  cases heq
  cases a with
  | fingerprint a =>
      obtain ⟨tx', htx', rfl⟩ := Option.map_eq_some_iff.mp ht
      obtain ⟨s', hlead, hshows, hfree'⟩ :
          ∃ s', Leads step s tx'.sent s' ∧ s'.Shows tx' ∧ s'.ending = none := by
        cases a with
        | authenticate claimErr =>
            obtain ⟨hcan, heq⟩ := Option.ite_none_right_eq_some.mp htx'
            cases heq
            rw [← hfree]
            exact h.start hcan claimErr
        | verify n d =>
            rw [← hfree]
            exact h.verify hfit htx'
        | give g =>
            obtain ⟨hg, heq⟩ := Option.ite_none_right_eq_some.mp htx'
            rw [← hfree]
            exact h.give hg (Option.some.inj heq).symm
        | endTx ct waited => exact h.endTx hfree ct hfit htx'
        | setLockState l waited =>
            rw [FingerprintTx.step, FingerprintTx.setLockState_eq, Option.some.injEq] at htx'
            cases htx'
            rw [← hfree]
            exact h.setLockState l
      exact ⟨s', hlead, tx', rfl, hshows, hfree'⟩
  | _ => cases ht

/-- A new transaction has no channels and no goroutine. -/
theorem shows_new (lockState : LockState) : (new lockState).Shows (.new lockState) := by
  constructor
  · exact .refl _
  · rfl
  · rfl
  · rfl
  · exact .inl ⟨rfl, rfl⟩
  · exact fun _ => ⟨rfl, rfl, fun heq => by cases heq⟩
  · exact fun _ _ => ⟨rfl, rfl⟩
  · intro n
    simp [FingerprintTx.new, new]
  · intro g
    simp [FingerprintTx.new, new]
  · simp [FingerprintTx.new]
  · exact List.nodup_nil
  · exact List.nodup_nil
  · rfl

/-- So is a run of a new fingerprint transaction. -/
theorem leads_of_run {lockState : LockState} {as : List TxAction} {t : Tx}
    {bs : List (List Given)}
    (hfit : Along Tx.step Tx.Foreseen (.fingerprint (.new lockState)) as)
    (hr : run Tx.step (.fingerprint (.new lockState)) as = some (t, bs)) :
    ∃ s', Leads step (new lockState) bs.flatten s' := by
  obtain ⟨s', hlead, -⟩ := takesApart.run ⟨_, rfl, shows_new lockState, rfl⟩ hfit hr
  exact ⟨s', hlead⟩

end FingerprintSteps

end LingmoAuthenticate.Session
