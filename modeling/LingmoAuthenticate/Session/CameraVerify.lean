import LingmoAuthenticate.Session.Success

/-!
# A camera's attempt, step by step

A face or iris transaction together with the entry that the manager of the drivers keeps for it.
`authenticate`, its goroutine, `end` and the signals of the driver are taken apart into the steps
between which the others may run. Codes travel through a channel that `ReleasseActionId` closes; a
closed channel yields the code zero, which is that of a success.

* `CameraVerify.Inv`: while an attempt verifies, its action is registered, and the zeros in its
  channel are verdicts of the driver.
* `CameraVerify.success_genuine`: where no attempt registers its action under an `end` that an
  earlier attempt has let pass, every success was reported by the driver for that very attempt.
* `CameraVerify.released_channel_succeeds`: an `end` that is overtaken by a start closes the channel
  of the new attempt, which reports a success that no driver has.
-/

namespace LingmoAuthenticate.Session

open Lib AuthCommon

/-! ## The transaction and its action -/

/-- Where the attempt is that holds the lock of the camera (`faceClaimedMu`, `irisClaimedMu`): in
`authenticate` before each of its statuses, in `verify` before its action is registered, before the
driver is started and in its loop, or past the closing of `release`. -/
inductive CameraPhase where
  | claimed
  | started
  | verifying
  | registered (id : ℕ)
  | looping (id : ℕ)
  | left (result : Option VerifyStatus)
  deriving DecidableEq, Repr

/-- Where the call of `end` is that holds `endedMu`: before it takes the channel `release`, before
it receives from the one it has taken (which is that of an attempt, or nil), and before each of the
steps after that. -/
inductive EndPhase where
  | entered
  | waiting (release : Option ℕ)
  | released
  | given
  | marked
  deriving DecidableEq, Repr

/-- A face or iris transaction, with the action that is registered for its sender and the codes in
the channel of that action. `starts` are the calls of `authenticate` that wait for the lock of the
camera; the channel `release` is named by the attempt it was made for, and the phase is that of the
last attempt. Two fields are not part of the program: which action each attempt has registered, and
for which of them the driver has reported a success.
Source: `face_tx.go`, `FaceTx`, `iris_tx.go`, `IrisTx`, and `charaDataManger/manager.go`,
`CharaDataManager.actionMap`. -/
structure CameraVerify (c : CameraType) extends BaseTx where
  starts : ℕ
  quit : Option Bool
  release : Option ℕ
  isEnded : Bool
  actionId : Option ℕ
  phase : Option CameraPhase
  ending : Option EndPhase
  action : Option ℕ
  codes : List ℤ
  nextId : ℕ
  generated : List (ℕ × ℕ)
  verified : List ℕ

/-- The steps: those of `authenticate`, of the goroutine, of `end`, the lock notifications, and the
signals from the driver and the bus. -/
inductive CameraVerifyStep where
  | start
  | claim
  | giveStarted
  | givePrompt
  | noDriver
  | genActionId (err : Option String)
  | verifyStart (ok : Bool)
  | quit
  | read (restart : Option String)
  | timeout
  | finish
  | endTx
  | endWait
  | endReceive
  | endGive
  | endMark
  | endRelease
  | setLockState (s : LockState)
  | verifyStatus (id : ℕ) (code : ℤ)
  | enrollStatus (id : ℕ) (code : ℤ)
  | disconnected (id : ℕ) (senderGone : Bool)
  | charaTypeGone (id : ℕ)
  deriving DecidableEq, Repr

/-- The code that tells of a lost connection, of the sender or of the driver.
Source: `charaDataManger/manager.go`, `CharaDataManager.initlistenNameLost`. -/
def CameraType.disconnectedCode : CameraType → Bool → ℤ
  | .face, senderGone => if senderGone then 14 else 13
  | .iris, senderGone => if senderGone then 10 else 9

namespace CameraVerify

variable {c : CameraType}

/-- Source: `face_tx.go`, `newFaceTx`, and `iris_tx.go`, `newIrisTx`. -/
def new (c : CameraType) (lockState : LockState) : CameraVerify c :=
  ⟨.init c.authType lockState, 0, none, none, false, none, none, none, none, [], 0, [], []⟩

/-- A status of the last attempt. Source: `tx.go`, `baseTx.giveStatus`. -/
def give (s : CameraVerify c) (status : VerifyStatus) : CameraVerify c :=
  { s with toBaseTx := s.giveStatus s.attempts status }

/-- The lock is taken, and the channels are made. Source: `face_tx.go`, `FaceTx.authenticate`, and
`iris_tx.go`, `IrisTx.authenticate`, up to the first status. -/
def claim (s : CameraVerify c) : Option (CameraVerify c) :=
  if 0 < s.starts ∧ s.phase = none then
    some { s with
      starts := s.starts - 1, attempts := s.attempts + 1, release := some (s.attempts + 1),
      quit := some false, isEnded := false, phase := some .claimed }
  else none

/-- The first error of `verify`, before anything is registered.
Source: `face_tx.go`, `FaceTx.verify`, and `iris_tx.go`, `IrisTx.verify`. -/
def noDriver (s : CameraVerify c) : Option (CameraVerify c) :=
  if s.phase = some .verifying then
    some { s with phase := some (.left (some (newVerifyStatus .error false "get driver error"))) }
  else none

/-- One action at a time is registered for a sender; without one, the identifier is the `-1` that no
action has. Source: `charaDataManger/manager.go`, `CharaDataManager.GenActionId`, and its call in
`verify`. -/
def genActionId (s : CameraVerify c) (err : Option String) : Option (CameraVerify c) :=
  if s.phase = some .verifying then
    match err with
    | some err => some { s with
        actionId := none
        phase := some (.left (some (newVerifyStatus .error false err))) }
    | none =>
        if s.action = none then
          some { s with
            actionId := some s.nextId, action := some s.nextId, codes := [],
            nextId := s.nextId + 1, generated := (s.attempts, s.nextId) :: s.generated,
            phase := some (.registered s.nextId) }
        else none
  else none

/-- A driver that does not start ends the attempt without a status.
Source: `face_tx.go`, `FaceTx.verify`, and `iris_tx.go`, `IrisTx.verify`. -/
def verifyStart (s : CameraVerify c) (ok : Bool) : Option (CameraVerify c) :=
  match s.phase with
  | some (.registered id) =>
      some { s with phase := some (if ok then .looping id else .left none) }
  | _ => none

/-- The loop leaves with a status.
Source: `face_tx.go`, `FaceTx.verify`, and `iris_tx.go`, `IrisTx.verify`. -/
def leave (s : CameraVerify c) (status : VerifyStatus) : CameraVerify c :=
  { s.give status with phase := some (.left none) }

/-- What the loop does with a code; `restart` says how starting the driver again turns out.
Source: `face_tx.go`, `FaceTx.verify`, and `iris_tx.go`, `IrisTx.verify`, a round of the loop. -/
def code (s : CameraVerify c) (code : ℤ) (restart : Option String) : CameraVerify c :=
  if c.isEndedStatus code then s.leave (newVerifyStatus (c.sendDoneResult code) true "")
  else if c.isContinue code then
    match restart with
    | some msg => s.leave (newVerifyStatus .failure false msg)
    | none => s
  else s.give (newVerifyStatus .verify false (c.text code))

/-- The loop receives from the channel of its action: the codes that are in it, and once it is
closed the zero code. Source: `face_tx.go`, `FaceTx.verify`, and `iris_tx.go`, `IrisTx.verify`. -/
def read (s : CameraVerify c) (restart : Option String) : Option (CameraVerify c) :=
  match s.phase with
  | some (.looping id) =>
      match s.codes with
      | code :: rest => some ({ s with codes := rest }.code code restart)
      | [] => if s.action = some id then none else some (s.code 0 restart)
  | _ => none

/-- The attempt has closed its channel `release`. -/
def closed (s : CameraVerify c) (n : ℕ) : Bool :=
  n ≠ s.attempts || match s.phase with
    | none | some (.left _) => true
    | some _ => false

/-- Closing the channel twice, or a nil one, panics. Source: `face_tx.go`, `FaceTx.end`, and
`iris_tx.go`, `IrisTx.end`, up to the receiving from `release`. -/
def endTx (s : CameraVerify c) : Option (CameraVerify c) :=
  if s.ending ≠ none then none
  else if s.isEnded then some s
  else if s.devState = .verifying then
    if s.quit = some false then some { s with quit := some true, ending := some .entered }
    else none
  else some { s with ending := some .entered }

/-- The channel of the action that the field names now is closed, and its entry deleted.
Source: `charaDataManger/manager.go`, `CharaDataManager.ReleasseActionId`, and its call in `end`. -/
def endRelease (s : CameraVerify c) : Option (CameraVerify c) :=
  if s.ending = some .marked then
    some { s with action := if s.action = s.actionId then none else s.action, ending := none }
  else none

/-- A code of the driver for an action, in a channel that has room for five. Source:
`charaDataManger/manager.go`, `CharaDataManager.handleDriverSignalVerifyStatus` and the handlers
like it. -/
def signal (s : CameraVerify c) (id : ℕ) (code : ℤ) : Option (CameraVerify c) :=
  if s.action = some id then
    if s.codes.length < 5 then some { s with codes := s.codes ++ [code] } else none
  else some s

/-- One step. A lock notification tells of the lock and notes it; the call of `end` that it might
make is one that may come at any time. -/
def move (s : CameraVerify c) : CameraVerifyStep → Option (CameraVerify c)
  | .start => if s.canStart then some { s with starts := s.starts + 1 } else none
  | .claim => s.claim
  | .giveStarted =>
      if s.phase = some .claimed then
        some { s.give defaultVerifyStatusStarted with phase := some .started }
      else none
  | .givePrompt =>
      if s.phase = some .started then
        some { s.give (newVerifyStatus .prompt false c.prompt) with phase := some .verifying }
      else none
  | .noDriver => s.noDriver
  | .genActionId err => s.genActionId err
  | .verifyStart ok => s.verifyStart ok
  | .quit =>
      match s.phase with
      | some (.looping _) =>
          if s.quit = some true then some { s with phase := some (.left none) } else none
      | _ => none
  | .read restart => s.read restart
  | .timeout =>
      match s.phase with
      | some (.looping _) => some (s.leave (newVerifyStatus .failure false "time out"))
      | _ => none
  | .finish =>
      match s.phase with
      | some (.left (some result)) => some { s.give result with phase := none }
      | some (.left none) => some { s with phase := none }
      | _ => none
  | .endTx => s.endTx
  | .endWait =>
      if s.ending = some .entered then some { s with ending := some (.waiting s.release) } else none
  | .endReceive =>
      match s.ending with
      | some (.waiting (some n)) =>
          if s.closed n then some { s with ending := some .released } else none
      | _ => none
  | .endGive =>
      if s.ending = some .released then
        some { s.give defaultVerifyStatusEnd with ending := some .given }
      else none
  | .endMark =>
      if s.ending = some .given then some { s with isEnded := true, ending := some .marked }
      else none
  | .endRelease => s.endRelease
  | .setLockState l => some { s with toBaseTx := s.notifyLock l }
  | .verifyStatus id code =>
      (s.signal id code).map fun s' =>
        if s.action = some id ∧ code = 0 then { s' with verified := id :: s'.verified } else s'
  | .enrollStatus id code => s.signal id code
  | .disconnected id senderGone => s.signal id (c.disconnectedCode senderGone)
  | .charaTypeGone id => s.signal id 13

/-- One step, observed through the statuses that it gives. -/
def step (s : CameraVerify c) (a : CameraVerifyStep) : Option (CameraVerify c × List Given) :=
  let s : CameraVerify c := { s with sent := [] }
  (s.move a).map fun s => (s, s.sent)

/-! ## What a step comes to -/

/-- What the loop receives from the channel of its action: a code that is in it, or once it is
closed the zero code; and what it leaves there. -/
inductive Received (s : CameraVerify c) (id : ℕ) : ℤ → List ℤ → Prop
  | code {code rest} (hcodes : s.codes = code :: rest) : Received s id code rest
  | closed (hcodes : s.codes = []) (haction : s.action ≠ some id) : Received s id 0 []

/-- The ways in which a step goes, each with what it has found and the state that it leaves: the
steps of a start, of the loop, of a call of `end`, and the signals of the driver, of which a success
for the present action is noted. -/
inductive Next (s : CameraVerify c) : CameraVerifyStep → CameraVerify c → Prop
  | start (hcan : s.canStart = true) : Next s .start { s with starts := s.starts + 1 }
  | claim (hstarts : 0 < s.starts) (hphase : s.phase = none) :
      Next s .claim
        { s with
          starts := s.starts - 1, attempts := s.attempts + 1, release := some (s.attempts + 1),
          quit := some false, isEnded := false, phase := some .claimed }
  | giveStarted (hphase : s.phase = some .claimed) :
      Next s .giveStarted { s.give defaultVerifyStatusStarted with phase := some .started }
  | givePrompt (hphase : s.phase = some .started) :
      Next s .givePrompt
        { s.give (newVerifyStatus .prompt false c.prompt) with phase := some .verifying }
  | noDriver (hphase : s.phase = some .verifying) :
      Next s .noDriver
        { s with phase := some (.left (some (newVerifyStatus .error false "get driver error"))) }
  | genErr {err} (hphase : s.phase = some .verifying) :
      Next s (.genActionId (some err))
        { s with
          actionId := none
          phase := some (.left (some (newVerifyStatus .error false err))) }
  | gen (hphase : s.phase = some .verifying) (hfree : s.action = none) :
      Next s (.genActionId none)
        { s with
          actionId := some s.nextId, action := some s.nextId, codes := [],
          nextId := s.nextId + 1, generated := (s.attempts, s.nextId) :: s.generated,
          phase := some (.registered s.nextId) }
  | driverStarts {id} (hphase : s.phase = some (.registered id)) :
      Next s (.verifyStart true) { s with phase := some (.looping id) }
  | driverRefuses {id} (hphase : s.phase = some (.registered id)) :
      Next s (.verifyStart false) { s with phase := some (.left none) }
  | quit {id} (hphase : s.phase = some (.looping id)) (hquit : s.quit = some true) :
      Next s .quit { s with phase := some (.left none) }
  | read {restart id code rest} (hphase : s.phase = some (.looping id))
      (hrec : s.Received id code rest) :
      Next s (.read restart) (({ s with codes := rest } : CameraVerify c).code code restart)
  | timeout {id} (hphase : s.phase = some (.looping id)) :
      Next s .timeout (s.leave (newVerifyStatus .failure false "time out"))
  | finish {result} (hphase : s.phase = some (.left (some result))) :
      Next s .finish { s.give result with phase := none }
  | finishNone (hphase : s.phase = some (.left none)) : Next s .finish { s with phase := none }
  | wasEnded (hmux : s.ending = none) (hended : s.isEnded = true) : Next s .endTx s
  | endVerifying (hmux : s.ending = none) (hended : s.isEnded = false)
      (hdev : s.devState = .verifying) (hquit : s.quit = some false) :
      Next s .endTx { s with quit := some true, ending := some .entered }
  | endIdle (hmux : s.ending = none) (hended : s.isEnded = false) (hdev : s.devState ≠ .verifying) :
      Next s .endTx { s with ending := some .entered }
  | endWait (hmux : s.ending = some .entered) :
      Next s .endWait { s with ending := some (.waiting s.release) }
  | endReceive {n} (hmux : s.ending = some (.waiting (some n))) (hclosed : s.closed n = true) :
      Next s .endReceive { s with ending := some .released }
  | endGive (hmux : s.ending = some .released) :
      Next s .endGive { s.give defaultVerifyStatusEnd with ending := some .given }
  | endMark (hmux : s.ending = some .given) :
      Next s .endMark { s with isEnded := true, ending := some .marked }
  | endRelease (hmux : s.ending = some .marked) :
      Next s .endRelease
        { s with action := if s.action = s.actionId then none else s.action, ending := none }
  | setLockState {l} : Next s (.setLockState l) { s with toBaseTx := s.notifyLock l }
  | verified {id s'} (haction : s.action = some id) (hsig : s.signal id 0 = some s') :
      Next s (.verifyStatus id 0) { s' with verified := id :: s'.verified }
  | verifyStatus {id code s'} (hother : ¬ (s.action = some id ∧ code = 0))
      (hsig : s.signal id code = some s') : Next s (.verifyStatus id code) s'
  | enrollStatus {id code s'} (hsig : s.signal id code = some s') :
      Next s (.enrollStatus id code) s'
  | disconnected {id senderGone s'} (hsig : s.signal id (c.disconnectedCode senderGone) = some s') :
      Next s (.disconnected id senderGone) s'
  | charaTypeGone {id s'} (hsig : s.signal id 13 = some s') : Next s (.charaTypeGone id) s'

section inversion

variable {s s' : CameraVerify c}

/-- The loop deals with what it has received. -/
theorem next_of_read {restart : Option String} (hs : s.read restart = some s') :
    s.Next (.read restart) s' := by
  unfold CameraVerify.read at hs
  split at hs
  · next id hphase =>
      split at hs
      · next code rest hcodes =>
          cases hs
          exact .read hphase (.code hcodes)
      · next hcodes =>
          obtain ⟨haction, heq⟩ := Option.ite_none_left_eq_some.mp hs
          cases heq
          have hself : ({ s with codes := [] } : CameraVerify c) = s := by rw [← hcodes]
          have hread : s.Next (.read restart)
              (({ s with codes := [] } : CameraVerify c).code 0 restart) :=
            .read hphase (.closed hcodes haction)
          rwa [hself] at hread
  · cases hs

/-- A call of `end` finds the transaction marked, or closes `quit` where it verifies. -/
theorem next_of_endTx (hs : s.endTx = some s') : s.Next .endTx s' := by
  unfold CameraVerify.endTx at hs
  split_ifs at hs with hmux hended hdev hquit
  · cases hs
    exact .wasEnded (not_not.mp hmux) hended
  · cases hs
    exact .endVerifying (not_not.mp hmux) (by simpa using hended) hdev hquit
  · cases hs
    exact .endIdle (not_not.mp hmux) (by simpa using hended) hdev

/-- **The inversion**: a step that is taken goes in one of these ways. -/
theorem next_of_move {a : CameraVerifyStep} (hs : s.move a = some s') : s.Next a s' := by
  cases a with
  | start =>
      obtain ⟨hcan, heq⟩ := Option.ite_none_right_eq_some.mp hs
      cases heq
      exact .start hcan
  | claim =>
      obtain ⟨⟨hstarts, hphase⟩, heq⟩ := Option.ite_none_right_eq_some.mp hs
      cases heq
      exact .claim hstarts hphase
  | giveStarted =>
      obtain ⟨hphase, heq⟩ := Option.ite_none_right_eq_some.mp hs
      cases heq
      exact .giveStarted hphase
  | givePrompt =>
      obtain ⟨hphase, heq⟩ := Option.ite_none_right_eq_some.mp hs
      cases heq
      exact .givePrompt hphase
  | noDriver =>
      obtain ⟨hphase, heq⟩ := Option.ite_none_right_eq_some.mp hs
      cases heq
      exact .noDriver hphase
  | genActionId err =>
      obtain ⟨hphase, heq⟩ := Option.ite_none_right_eq_some.mp hs
      cases err with
      | some err =>
          cases heq
          exact .genErr hphase
      | none =>
          obtain ⟨hfree, heq⟩ := Option.ite_none_right_eq_some.mp heq
          cases heq
          exact .gen hphase hfree
  | verifyStart ok =>
      simp only [move, CameraVerify.verifyStart] at hs
      split at hs
      · next id hphase =>
          cases hs
          cases ok with
          | true => exact .driverStarts hphase
          | false => exact .driverRefuses hphase
      · cases hs
  | quit =>
      simp only [move] at hs
      split at hs
      · next id hphase =>
          obtain ⟨hquit, heq⟩ := Option.ite_none_right_eq_some.mp hs
          cases heq
          exact .quit hphase hquit
      · cases hs
  | read restart => exact next_of_read hs
  | timeout =>
      simp only [move] at hs
      split at hs
      · next id hphase =>
          cases hs
          exact .timeout hphase
      · cases hs
  | finish =>
      simp only [move] at hs
      split at hs
      · next result hphase =>
          cases hs
          exact .finish hphase
      · next hphase =>
          cases hs
          exact .finishNone hphase
      · cases hs
  | endTx => exact next_of_endTx hs
  | endWait =>
      obtain ⟨hmux, heq⟩ := Option.ite_none_right_eq_some.mp hs
      cases heq
      exact .endWait hmux
  | endReceive =>
      simp only [move] at hs
      split at hs
      · next n hmux =>
          obtain ⟨hclosed, heq⟩ := Option.ite_none_right_eq_some.mp hs
          cases heq
          exact .endReceive hmux hclosed
      · cases hs
  | endGive =>
      obtain ⟨hmux, heq⟩ := Option.ite_none_right_eq_some.mp hs
      cases heq
      exact .endGive hmux
  | endMark =>
      obtain ⟨hmux, heq⟩ := Option.ite_none_right_eq_some.mp hs
      cases heq
      exact .endMark hmux
  | endRelease =>
      obtain ⟨hmux, heq⟩ := Option.ite_none_right_eq_some.mp hs
      cases heq
      exact .endRelease hmux
  | setLockState l =>
      cases hs
      exact .setLockState
  | verifyStatus id code =>
      obtain ⟨s₁, hsig, rfl⟩ := Option.map_eq_some_iff.mp hs
      split_ifs with hzero
      · obtain ⟨haction, rfl⟩ := hzero
        exact .verified haction hsig
      · exact .verifyStatus hzero hsig
  | enrollStatus id code => exact .enrollStatus hs
  | disconnected id senderGone => exact .disconnected hs
  | charaTypeGone id => exact .charaTypeGone hs

end inversion

/-! ## What a running attempt relies on -/

/-- The action of an attempt that is running. -/
def live (s : CameraVerify c) : Option ℕ :=
  match s.phase with
  | some (.registered id) | some (.looping id) => some id
  | _ => none

/-- An `end` has taken the channel `release` of an attempt before the present one, or has received
from it, and has not come to `ReleasseActionId`. -/
def LateEnd (s : CameraVerify c) : Prop :=
  match s.ending with
  | some (.waiting (some n)) => n ≠ s.attempts
  | some .released | some .given | some .marked => True
  | _ => False

/-- The status was reported by the driver for the action of the attempt that gives it. -/
def Genuine (s : CameraVerify c) (g : Given) : Prop :=
  ∃ id, (g.attempt, id) ∈ s.generated ∧ id ∈ s.verified

/-- The successes that a step gives are genuine. -/
def GivesGenuine (s : CameraVerify c) (a : CameraVerifyStep) : Prop :=
  ∀ s' sent, s.step a = some (s', sent) →
    ∀ g ∈ sent, g.status.s = .success → s'.Genuine g

/-- While an attempt runs its action is registered, the zeros in its channel are verdicts of the
driver, and no `end` is late; what has left waits with an error; and the successes that were sent
are genuine. -/
structure Inv (s : CameraVerify c) : Prop where
  registered : ∀ id, s.live = some id → s.action = some id ∧ (s.attempts, id) ∈ s.generated
  codes : ∀ id, s.live = some id → 0 ∈ s.codes → id ∈ s.verified
  late : s.LateEnd → s.live = none
  release : s.release = none ∨ s.release = some s.attempts
  result : ∀ r, s.phase = some (.left (some r)) → r.s = .error
  sent : ∀ g ∈ s.sent, g.status.s = .success → s.Genuine g

/-- The condition on the steps: no attempt registers its action under a late `end`, and the driver
reports no enrolment for the action of a verification. -/
def Orderly (s : CameraVerify c) : CameraVerifyStep → Prop
  | .genActionId none => ¬ s.LateEnd
  | .enrollStatus id code => s.live = some id → code ≠ 0
  | _ => True

theorem inv_new (c : CameraType) (lockState : LockState) : (new c lockState).Inv where
  registered := nofun
  codes := nofun
  late := nofun
  release := .inl rfl
  result := nofun
  sent := nofun

section steps

variable {s s' : CameraVerify c}

/-- Giving a status that is no success. -/
theorem Inv.give (h : s.Inv) {v : VerifyStatus}
    (hs : v.s = .success → ∃ id, (s.attempts, id) ∈ s.generated ∧ id ∈ s.verified) :
    (s.give v).Inv := by
  refine { h with sent := ?_ }
  intro g hg hsucc
  rcases List.mem_append.mp hg with hg | hg
  · exact h.sent g hg hsucc
  · obtain rfl := List.mem_singleton.mp hg
    exact hs hsucc

/-- An attempt that is over, or has not registered its action, relies on nothing. -/
theorem Inv.setPhase (h : s.Inv) {phase : Option CameraPhase}
    (hlive : ({ s with phase := phase } : CameraVerify c).live = none)
    (hres : ∀ r, phase = some (.left (some r)) → r.s = .error) :
    ({ s with phase := phase } : CameraVerify c).Inv where
  registered id hid := absurd (hlive.symm.trans hid) (by simp)
  codes id hid := absurd (hlive.symm.trans hid) (by simp)
  late _ := hlive
  release := h.release
  result := hres
  sent := h.sent

/-- The loop leaves with a status that is no success, or a genuine one. -/
theorem Inv.leave (h : s.Inv) {status : VerifyStatus}
    (hs : status.s = .success → ∃ id, (s.attempts, id) ∈ s.generated ∧ id ∈ s.verified) :
    (s.leave status).Inv :=
  (h.give hs).setPhase rfl fun _ h => nomatch h

/-- A code is dealt with, which is a verdict of the driver if it is zero. -/
theorem Inv.code (h : s.Inv) {code : ℤ} {restart : Option String}
    (hs : code = 0 → ∃ id, (s.attempts, id) ∈ s.generated ∧ id ∈ s.verified) :
    (s.code code restart).Inv := by
  unfold CameraVerify.code
  split_ifs
  · refine h.leave fun hsucc => hs ?_
    rw [newVerifyStatus_s] at hsucc
    exact CameraType.sendDoneResult_eq_success.mp hsucc
  · cases restart with
    | none => exact h
    | some msg => exact h.leave fun hsucc => nomatch hsucc
  · exact h.give fun hsucc => nomatch hsucc

/-- The loop of a running attempt finds its channel open, and a zero in it is a verdict. -/
theorem Inv.read (h : s.Inv) {id : ℕ} {code : ℤ} {rest : List ℤ} (restart : Option String)
    (hphase : s.phase = some (.looping id)) (hrec : s.Received id code rest) :
    (({ s with codes := rest } : CameraVerify c).code code restart).Inv := by
  have hlive : s.live = some id := by simp [live, hphase]
  obtain ⟨haction, hgen⟩ := h.registered id hlive
  cases hrec with
  | code hcodes =>
      have hrest : ({ s with codes := rest } : CameraVerify c).Inv :=
        { h with codes := fun id' hid' h0 => h.codes id' hid' (hcodes ▸ List.mem_cons_of_mem _ h0) }
      refine hrest.code fun h0 => ⟨id, hgen, h.codes id hlive ?_⟩
      rw [hcodes, h0]
      exact List.mem_cons_self
  | closed hcodes hclosed => exact absurd haction hclosed

/-- An attempt registers its action, under no late `end`. -/
theorem Inv.gen (h : s.Inv) (hlate : ¬ s.LateEnd) :
    ({ s with
      actionId := some s.nextId, action := some s.nextId, codes := [],
      nextId := s.nextId + 1, generated := (s.attempts, s.nextId) :: s.generated,
      phase := some (.registered s.nextId) } : CameraVerify c).Inv := by
  refine ⟨?_, nofun, fun hl => absurd hl hlate, h.release, nofun, ?_⟩
  · rintro id ⟨⟩
    exact ⟨rfl, List.mem_cons_self⟩
  · intro g hg hsucc
    obtain ⟨id, hgen, hver⟩ := h.sent g hg hsucc
    exact ⟨id, List.mem_cons_of_mem _ hgen, hver⟩

/-- The driver is started for the action that is registered. -/
theorem Inv.looping (h : s.Inv) {id : ℕ} (hphase : s.phase = some (.registered id)) :
    ({ s with phase := some (.looping id) } : CameraVerify c).Inv := by
  have hlive : ({ s with phase := some (.looping id) } : CameraVerify c).live = s.live := by
    simp [live, hphase]
  exact ⟨fun id' hid' => h.registered id' (hlive ▸ hid'),
    fun id' hid' => h.codes id' (hlive ▸ hid'), fun hlate => hlive.trans (h.late hlate),
    h.release, nofun, h.sent⟩

/-- An `end` that receives from the channel of an attempt finds that attempt over. -/
theorem Inv.live_of_closed (h : s.Inv) {n : ℕ} (hmux : s.ending = some (.waiting (some n)))
    (hclosed : s.closed n = true) : s.live = none := by
  by_cases hn : n = s.attempts
  · subst hn
    simp only [closed, ne_eq, not_true_eq_false, decide_false, Bool.false_or] at hclosed
    unfold live
    split at hclosed
    · next hp => rw [hp]
    · next hp => rw [hp]
    · cases hclosed
  · exact h.late (by simpa [LateEnd, hmux] using hn)

/-- The action that is released is that of no running attempt. -/
theorem Inv.endRelease (h : s.Inv) (hlive : s.live = none) (action : Option ℕ) :
    ({ s with action := action, ending := none } : CameraVerify c).Inv :=
  ⟨fun id hid => absurd (hlive.symm.trans hid) (by simp),
    fun id hid => absurd (hlive.symm.trans hid) (by simp), nofun, h.release, h.result, h.sent⟩

/-- A signal that is no zero, or for no running attempt, puts no zero that counts into the
channel. -/
theorem Inv.signal (h : s.Inv) {id : ℕ} {code : ℤ}
    (hcode : code = 0 → s.live = some id → id ∈ s.verified) (hs : s.signal id code = some s') :
    s'.Inv := by
  unfold CameraVerify.signal at hs
  split_ifs at hs with haction hroom <;> cases hs
  · refine { h with codes := ?_ }
    intro id' hid' h0
    rcases List.mem_append.mp h0 with h0 | h0
    · exact h.codes id' hid' h0
    · have heq : id' = id := by
        have hreg := (h.registered id' hid').1
        rw [haction, Option.some.injEq] at hreg
        exact hreg.symm
      subst heq
      exact hcode (List.mem_singleton.mp h0).symm hid'
  · exact h

/-- What was verified stays so. -/
theorem Inv.verify (h : s.Inv) (id : ℕ) :
    ({ s with verified := id :: s.verified } : CameraVerify c).Inv :=
  { h with
    codes := fun id' hid' h0 => List.mem_cons_of_mem _ (h.codes id' hid' h0)
    sent := fun g hg hsucc => by
      obtain ⟨id', hgen, hver⟩ := h.sent g hg hsucc
      exact ⟨id', hgen, List.mem_cons_of_mem _ hver⟩ }

/-- A verdict of the driver. -/
theorem Inv.verified (h : s.Inv) {id : ℕ} (hsig : s.signal id 0 = some s') :
    ({ s' with verified := id :: s'.verified } : CameraVerify c).Inv := by
  have hsig' : ({ s with verified := id :: s.verified } : CameraVerify c).signal id 0 =
      some { s' with verified := id :: s'.verified } := by
    unfold CameraVerify.signal at hsig ⊢
    split_ifs at hsig ⊢ <;> cases hsig <;> rfl
  exact (h.verify id).signal (fun _ _ => List.mem_cons_self) hsig'

/-- No code that tells of a lost connection is zero. -/
theorem disconnectedCode_ne_zero (c : CameraType) (senderGone : Bool) :
    c.disconnectedCode senderGone ≠ 0 := by
  cases c <;> cases senderGone <;> decide

/-- **Every orderly step keeps the invariant.** -/
theorem inv_move (h : s.Inv) {a : CameraVerifyStep} (hord : s.Orderly a)
    (hs : s.move a = some s') : s'.Inv := by
  cases next_of_move hs with
  | start hcan => exact { h with }
  | claim hstarts hphase => exact ⟨nofun, nofun, fun _ => rfl, .inr rfl, nofun, h.sent⟩
  | giveStarted hphase | givePrompt hphase => exact (h.give (by simp)).setPhase rfl nofun
  | noDriver hphase => exact h.setPhase rfl (by rintro r ⟨⟩; rfl)
  | genErr hphase =>
      have hreset : ({ s with actionId := none } : CameraVerify c).Inv := { h with }
      exact hreset.setPhase rfl (by rintro r ⟨⟩; rfl)
  | gen hphase hfree => exact h.gen hord
  | driverStarts hphase => exact h.looping hphase
  | driverRefuses hphase | quit hphase hquit | finishNone hphase => exact h.setPhase rfl nofun
  | read hphase hrec => exact h.read _ hphase hrec
  | timeout hphase => exact h.leave nofun
  | finish hphase =>
      have hr := h.result _ hphase
      exact (h.give fun hsucc => by cases hr.symm.trans hsucc).setPhase rfl nofun
  | wasEnded hmux hended => exact h
  | endVerifying hmux hended hdev hquit => exact { h with late := nofun }
  | endIdle hmux hended hdev => exact { h with late := nofun }
  | endWait hmux =>
      refine { h with late := ?_ }
      intro hlate
      -- the channel taken is that of the last attempt, if any
      rcases h.release with hrel | hrel <;> simp [LateEnd, hrel] at hlate
  | endReceive hmux hclosed =>
      have hlive := h.live_of_closed hmux hclosed
      exact { h with late := fun _ => hlive }
  | endGive hmux =>
      have hlive := h.late (by simp [LateEnd, hmux])
      exact { h.give (v := defaultVerifyStatusEnd) (by simp) with late := fun _ => hlive }
  | endMark hmux =>
      have hlive := h.late (by simp [LateEnd, hmux])
      exact { h with late := fun _ => hlive }
  | endRelease hmux => exact h.endRelease (h.late (by simp [LateEnd, hmux])) _
  | @setLockState l =>
      unfold BaseTx.notifyLock
      split_ifs
      · exact { h.give (v := newVerifyStatus l.toStatusCode true "")
          (by cases l <;> simp [LockState.toStatusCode]) with }
      · exact { h with }
  | verified haction hsig => exact h.verified hsig
  | verifyStatus hother hsig =>
      exact h.signal (fun h0 hlive => absurd ⟨(h.registered _ hlive).1, h0⟩ hother) hsig
  | enrollStatus hsig => exact h.signal (fun h0 hlive => absurd h0 (hord hlive)) hsig
  | @disconnected id senderGone s' hsig =>
      exact h.signal (fun h0 => absurd h0 (disconnectedCode_ne_zero c senderGone)) hsig
  | charaTypeGone hsig => exact h.signal (fun h0 => absurd h0 (by decide)) hsig

/-- **A biometric success is genuine.** In every run of a face or iris transaction in which no
attempt registers its action under a late `end`, and the driver reports no enrolment for the action
of a verification, every success that is given was reported by the driver for the action of the
attempt that gives it. -/
theorem success_genuine (c : CameraType) (lockState : LockState) {acts : List CameraVerifyStep}
    (hord : Along step Orderly (new c lockState) acts) :
    Along step GivesGenuine (new c lockState) acts := by
  have hstep : ∀ (s : CameraVerify c) a s' sent, s.Inv → s.Orderly a →
      s.step a = some (s', sent) → s'.Inv ∧ sent = s'.sent := by
    intro s a s' sent h hord hs
    obtain ⟨hs₁, rfl⟩ := observed_eq_some.mp hs
    have hclear : ({ s with sent := [] } : CameraVerify c).Inv := { h with sent := nofun }
    have hord' : ({ s with sent := [] } : CameraVerify c).Orderly a := by
      cases a <;> exact hord
    exact ⟨inv_move hclear hord' hs₁, rfl⟩
  refine Along.of_invariant (I := Inv) (fun s a s' b h hord hs => (hstep s a s' b h hord hs).1) ?_
    (inv_new c lockState) hord
  intro s a h hord s' sent hs g hg
  obtain ⟨h', rfl⟩ := hstep s a s' sent h hord hs
  exact h'.sent g hg

end steps

/-- A start, up to the driver. -/
def startVerify : List CameraVerifyStep := [.start, .claim, .giveStarted, .givePrompt]

/-- The driver reports a success, and the attempt gives it. -/
theorem success_genuine_verified :
    Along step GivesGenuine (new .face .unlock)
      (startVerify ++ [.genActionId none, .verifyStart true, .verifyStatus 0 0, .read none,
        .finish]) := by
  refine success_genuine .face .unlock ?_
  refine (along_cons_of_eq rfl).mpr ⟨trivial, (along_cons_of_eq rfl).mpr ⟨trivial, ?_⟩⟩
  refine (along_cons_of_eq rfl).mpr ⟨trivial, (along_cons_of_eq rfl).mpr ⟨trivial, ?_⟩⟩
  refine (along_cons_of_eq rfl).mpr ⟨id, (along_cons_of_eq rfl).mpr ⟨trivial, ?_⟩⟩
  refine (along_cons_of_eq rfl).mpr ⟨trivial, (along_cons_of_eq rfl).mpr ⟨trivial, ?_⟩⟩
  exact (along_cons_of_eq rfl).mpr ⟨trivial, trivial⟩

/-- The first attempt finds no driver, and an `end` of it tells that it has ended. The factor is
started again, and its second attempt registers an action, before that `end` goes on: it releases
the action of the second attempt, which takes its closed channel for a success. -/
theorem released_channel_succeeds :
    ¬ ∀ c lockState acts, Along step GivesGenuine (new c lockState) acts := by
  intro h
  have hread := (h .face .unlock ((startVerify ++ [.noDriver, .finish, .endTx, .endWait,
    .endReceive, .endGive] ++ startVerify ++ [.genActionId none, .verifyStart true, .endMark,
      .endRelease]) ++ [.read none])).of_run rfl
  obtain ⟨id, -, hver⟩ := hread _ _ rfl _ List.mem_cons_self rfl
  cases hver

end CameraVerify

end LingmoAuthenticate.Session
