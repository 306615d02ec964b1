import LingmoAuthenticate.Session.Attempts

/-!
# What a step does to the attempt of a camera

How a step moves the goroutine of the last attempt of a face or iris transaction, what it gives that
a controller counts, and what it leaves alone.

* `CameraVerify.PhaseMoves`, `CameraVerify.phase_move`: the moves of the goroutine.
* `CameraVerify.leaves`, `CameraVerify.given_move`: the status with which the loop leaves, and what
  a step gives.
* `CameraVerify.frame_move`: the attempts, `quit`, and the device state.
-/

namespace LingmoAuthenticate.Session

open Lib AuthCommon

namespace CameraVerify

variable {c : CameraType} {s s' : CameraVerify c} {a : CameraVerifyStep} {sent : List Given}

/-- A step. -/
theorem step_eq_some :
    s.step a = some (s', sent) ↔
      move { s with sent := [] } a = some s' ∧ sent = s'.sent :=
  observed_eq_some

/-- The status with which the loop leaves over the code that it receives, if it does. -/
def verdict (s : CameraVerify c) (restart : Option String) : Option VerifyStatus :=
  let code := s.codes.headD 0
  if c.isEndedStatus code then some (newVerifyStatus (c.sendDoneResult code) true "")
  else if c.isContinue code then restart.map (newVerifyStatus .failure false)
  else none

/-- The status with which the loop leaves in a step, if it does. -/
def leaves (s : CameraVerify c) : CameraVerifyStep → Option VerifyStatus
  | .read restart =>
      match s.phase with
      | some (.looping _) => s.verdict restart
      | _ => none
  | .timeout =>
      match s.phase with
      | some (.looping _) => some (newVerifyStatus .failure false "time out")
      | _ => none
  | _ => none

/-- How a step moves the goroutine of the last attempt: from its claim of the slot over the two
statuses and the driver into the loop, and out of it by a quit or a code (`leave`). -/
inductive PhaseMoves (s : CameraVerify c) :
    CameraVerifyStep → Option CameraPhase → Option CameraPhase → Prop
  | claim : PhaseMoves s .claim none (some .claimed)
  | giveStarted : PhaseMoves s .giveStarted (some .claimed) (some .started)
  | givePrompt : PhaseMoves s .givePrompt (some .started) (some .verifying)
  | noDriver : PhaseMoves s .noDriver (some .verifying)
      (some (.left (some (newVerifyStatus .error false "get driver error"))))
  | genErr {err} : PhaseMoves s (.genActionId (some err)) (some .verifying)
      (some (.left (some (newVerifyStatus .error false err))))
  | gen {id} : PhaseMoves s (.genActionId none) (some .verifying) (some (.registered id))
  | start {id} : PhaseMoves s (.verifyStart true) (some (.registered id)) (some (.looping id))
  | refuse {id} : PhaseMoves s (.verifyStart false) (some (.registered id)) (some (.left none))
  | quit {id} (h : s.quit = some true) :
      PhaseMoves s .quit (some (.looping id)) (some (.left none))
  | leave {a id v} (h : s.leaves a = some v) :
      PhaseMoves s a (some (.looping id)) (some (.left none))
  | finish {r} : PhaseMoves s .finish (some (.left r)) none

/-- What the loop does with what it receives: it leaves with a verdict, or gives at most a status
that no controller counts. -/
theorem code_cases {id : ℕ} {code : ℤ} {rest : List ℤ} (hrec : s.Received id code rest)
    (restart : Option String) (t : CameraVerify c) :
    (∃ v, s.verdict restart = some v ∧ t.code code restart = t.leave v) ∨
      s.verdict restart = none ∧
        (t.code code restart = t ∨
          ∃ msg, t.code code restart = t.give (newVerifyStatus .verify false msg)) := by
  have hcode : s.codes.headD 0 = code := by
    cases hrec with
    | code hcodes => rw [hcodes, List.headD_cons]
    | closed hcodes haction => rw [hcodes, List.headD_nil]
  unfold verdict CameraVerify.code
  dsimp only
  rw [hcode]
  split_ifs
  · exact .inl ⟨_, rfl, rfl⟩
  · cases restart with
    | none => exact .inr ⟨rfl, .inl rfl⟩
    | some msg => exact .inl ⟨_, rfl, rfl⟩
  · exact .inr ⟨rfl, .inr ⟨_, rfl⟩⟩

/-- A signal says nothing to the transaction. -/
theorem signal_frame {id : ℕ} {code : ℤ} (hs : s.signal id code = some s') :
    s'.toBaseTx = s.toBaseTx ∧ s'.phase = s.phase ∧ s'.quit = s.quit := by
  unfold signal at hs
  split_ifs at hs <;> cases hs <;> exact ⟨rfl, rfl, rfl⟩

/-- **The moves of the goroutine.** -/
theorem phase_move (hs : s.move a = some s') :
    s'.phase = s.phase ∨ s.PhaseMoves a s.phase s'.phase := by
  cases next_of_move hs with
  | claim hstarts hphase => exact .inr (hphase ▸ .claim)
  | giveStarted hphase => exact .inr (hphase ▸ .giveStarted)
  | givePrompt hphase => exact .inr (hphase ▸ .givePrompt)
  | noDriver hphase => exact .inr (hphase ▸ .noDriver)
  | genErr hphase => exact .inr (hphase ▸ .genErr)
  | gen hphase hfree => exact .inr (hphase ▸ .gen)
  | driverStarts hphase => exact .inr (hphase ▸ .start)
  | driverRefuses hphase => exact .inr (hphase ▸ .refuse)
  | quit hphase hquit => exact .inr (hphase ▸ .quit hquit)
  | @read restart id code rest hphase hrec =>
      rcases code_cases hrec restart { s with codes := rest } with
        ⟨v, hv, heq⟩ | ⟨-, heq | ⟨msg, heq⟩⟩
      · have hleaves : s.leaves (.read restart) = some v := by
          simp only [leaves, hphase]
          exact hv
        rw [heq]
        exact .inr (hphase ▸ .leave hleaves)
      · rw [heq]
        exact .inl rfl
      · rw [heq]
        exact .inl rfl
  | timeout hphase =>
      have hleaves : s.leaves .timeout = some (newVerifyStatus .failure false "time out") := by
        simp only [leaves, hphase]
      exact .inr (hphase ▸ .leave hleaves)
  | finish hphase | finishNone hphase => exact .inr (hphase ▸ .finish)
  | verified haction hsig => exact .inl (signal_frame hsig).2.1
  | verifyStatus hother hsig => exact .inl (signal_frame hsig).2.1
  | enrollStatus hsig | disconnected hsig | charaTypeGone hsig => exact .inl (signal_frame hsig).2.1
  | _ => exact .inl rfl

/-- A status that is not counted. -/
theorem isOutcome_of_ignored {n : ℕ} {v : VerifyStatus} (hv : ignored v.s = true) :
    isOutcome c a ⟨n, v⟩ = false := by
  have hnot : (!ignored v.s) = false := by rw [hv, Bool.not_true]
  unfold isOutcome
  split
  · rfl
  · cases c <;> exact hnot

/-- **What a step gives**: the verdict with which the loop leaves, the error that `verify` has
returned, or what no controller counts. -/
theorem given_move (hsent : s.sent = []) (hs : s.move a = some s') :
    Quiet (isOutcome c a) s'.sent ∧ s.leaves a = none ∨
      ∃ v, s'.sent = [⟨s.attempts, v⟩] ∧ s'.devState = statusCodeToDevState v.s ∧
        ((∃ id, s.phase = some (.looping id)) ∧ s.leaves a = some v ∧ s'.phase = some (.left none) ∨
          a = .finish ∧ s.phase = some (.left (some v)) ∧ s'.phase = none) := by
  have hnone : ∀ t : CameraVerify c, t.sent = s.sent → Quiet (isOutcome c a) t.sent :=
    fun t ht => quiet_of_eq_nil (ht.trans hsent)
  have hquiet : ∀ {v : VerifyStatus}, ignored v.s = true → v.isResult = false →
      Quiet (isOutcome c a) (s.give v).sent :=
    fun hv hres => (hnone s rfl).append (isOutcome_of_ignored hv) hres
  have hgive : ∀ {t : CameraVerify c} {v : VerifyStatus}, t.toBaseTx = s.toBaseTx →
      (t.give v).sent = [⟨s.attempts, v⟩] := by
    intro t v ht
    show t.sent ++ [⟨t.attempts, v⟩] = _
    rw [ht, hsent, List.nil_append]
  cases next_of_move hs with
  | giveStarted hphase | givePrompt hphase | endGive hmux => exact .inl ⟨hquiet rfl rfl, rfl⟩
  | @read restart id code rest hphase hrec =>
      have hleaves : s.leaves (.read restart) = s.verdict restart := by simp only [leaves, hphase]
      rcases code_cases hrec restart { s with codes := rest } with
        ⟨v, hv, heq⟩ | ⟨hnot, heq | ⟨msg, heq⟩⟩
      · rw [heq]
        exact .inr ⟨v, hgive rfl, rfl, .inl ⟨⟨id, hphase⟩, hleaves.trans hv, rfl⟩⟩
      · rw [heq]
        exact .inl ⟨hnone _ rfl, hleaves.trans hnot⟩
      · rw [heq]
        exact .inl ⟨hquiet rfl rfl, hleaves.trans hnot⟩
  | @timeout id hphase =>
      refine .inr ⟨_, hgive rfl, rfl, .inl ⟨⟨id, hphase⟩, ?_, rfl⟩⟩
      simp only [leaves, hphase]
  | @finish v hphase => exact .inr ⟨v, hgive rfl, rfl, .inr ⟨rfl, hphase, rfl⟩⟩
  | @setLockState l => exact .inl ⟨quiet_notifyLock hsent l, rfl⟩
  | verified haction hsig =>
      exact .inl ⟨hnone _ (congrArg BaseTx.sent (signal_frame hsig).1), rfl⟩
  | verifyStatus hother hsig =>
      exact .inl ⟨hnone _ (congrArg BaseTx.sent (signal_frame hsig).1), rfl⟩
  | enrollStatus hsig | disconnected hsig | charaTypeGone hsig =>
      exact .inl ⟨hnone _ (congrArg BaseTx.sent (signal_frame hsig).1), rfl⟩
  | _ => exact .inl ⟨hnone _ rfl, rfl⟩

/-- A claim of the camera counts on. -/
theorem attempts_claim (hs : s.move .claim = some s') : s'.attempts = s.attempts + 1 := by
  cases next_of_move hs with
  | claim hstarts hphase => rfl

/-- What else a step does to an attempt: the attempts are counted on where no goroutine runs; a
`quit` that is closed was so before, or is closed by an `end` that comes; and a goroutine that is
on its way out without a result does not make the transaction verify. -/
theorem frame_move (hs : s.move a = some s') :
    (s'.attempts = s.attempts ∨
      s'.attempts = s.attempts + 1 ∧ s'.quit = some false ∧ s'.phase = some .claimed) ∧
    (s'.quit = some true → s.quit = some true ∨ s.requests a = some s.attempts) ∧
    (s.phase = some (.left none) → s'.devState = .verifying → s.devState = .verifying) := by
  have hsignal : ∀ {t : CameraVerify c} {id : ℕ} {code : ℤ}, s.signal id code = some t →
      t.attempts = s.attempts ∧ t.quit = s.quit ∧ t.devState = s.devState := by
    intro t id code hsig
    obtain ⟨hbase, -, hquit⟩ := signal_frame hsig
    exact ⟨congrArg BaseTx.attempts hbase, hquit, congrArg BaseTx.devState hbase⟩
  cases next_of_move hs with
  | claim hstarts hphase => exact ⟨.inr ⟨rfl, rfl, rfl⟩, fun hq => (by cases hq), fun _ => id⟩
  | giveStarted hphase | givePrompt hphase | timeout hphase | finish hphase =>
      exact ⟨.inl rfl, .inl, fun hleft => by cases hphase.symm.trans hleft⟩
  | @read restart id code rest hphase hrec =>
      have hleft : s.phase ≠ some (.left none) := by
        rw [hphase]
        rintro ⟨⟩
      rcases code_cases hrec restart { s with codes := rest } with
        ⟨v, -, heq⟩ | ⟨-, heq | ⟨msg, heq⟩⟩ <;> rw [heq] <;>
        exact ⟨.inl rfl, .inl, fun h => absurd h hleft⟩
  | endVerifying hmux hended hdev hquit =>
      exact ⟨.inl rfl, fun _ => .inr (if_pos hmux), fun _ => id⟩
  | endGive hmux => exact ⟨.inl rfl, .inl, fun _ hv => by cases hv⟩
  | @setLockState l =>
      exact ⟨.inl (s.notifyLock_attempts l), .inl, fun _ hv => (s.notifyLock_devState l hv).1⟩
  | verified haction hsig =>
      obtain ⟨hattempts, hquit, hdev⟩ := hsignal hsig
      exact ⟨.inl hattempts, fun h => .inl (hquit.symm.trans h), fun _ h => hdev.symm.trans h⟩
  | verifyStatus hother hsig =>
      obtain ⟨hattempts, hquit, hdev⟩ := hsignal hsig
      exact ⟨.inl hattempts, fun h => .inl (hquit.symm.trans h), fun _ h => hdev.symm.trans h⟩
  | enrollStatus hsig | disconnected hsig | charaTypeGone hsig =>
      obtain ⟨hattempts, hquit, hdev⟩ := hsignal hsig
      exact ⟨.inl hattempts, fun h => .inl (hquit.symm.trans h), fun _ h => hdev.symm.trans h⟩
  | _ => exact ⟨.inl rfl, .inl, fun _ => id⟩

end CameraVerify

end LingmoAuthenticate.Session
