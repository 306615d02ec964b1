import LingmoAuthenticate.Session.Transactions

/-!
# A fingerprint, step by step

A fingerprint transaction with its calls of `authenticate`, the goroutines of its attempts and the
call of `end` that holds `endedMu`, each taken apart into the steps between which the others may
run. The fields `quit` and `release` are read when they are used; a channel is known by the attempt
that it was made for.

* `FingerprintSteps.Alone`: one attempt is live, no channel was closed twice, and each attempt has
  closed the `release` that was made for it.
* `FingerprintSteps.Inv.move`: a step keeps this unless an attempt begins while another is live.
* `FingerprintSteps.alone_iff`: along every run, exactly then.
* `FingerprintSteps.restart_after_unlock`: a start after a lock and an unlock.
-/

namespace LingmoAuthenticate.Session

open Lib AuthCommon

/-- Whether a code of the device ends the verification: a match, none, an error, or a device that is
gone. Source: `pkg/fingerprint/device.go`, `IsVerifyStatusDone`. -/
def isVerifyStatusDone (code : ℤ) : Bool := code = 0 || code = 1 || code = 2 || code = 4

/-- Where the goroutine of an attempt stands: before it starts the device, in its loop, before it
stops the device with the code that it has, with what `verify` has returned before and after it
closes `release`. -/
inductive FingerPhase where
  | idle
  | spawned
  | looping
  | stopping (code : ℤ)
  | left (result : Option VerifyStatus)
  | released (result : Option VerifyStatus)
  | returned
  deriving DecidableEq, Repr

/-- The goroutine runs. -/
def FingerPhase.live : FingerPhase → Bool
  | .idle | .returned => false
  | _ => true

/-- The goroutine runs and has not closed `release`. -/
def FingerPhase.holds : FingerPhase → Bool
  | .spawned | .looping | .stopping _ | .left _ => true
  | _ => false

/-- Where the call of `end` stands that holds `endedMu`, for the attempt that was the last when it
came: past the closing of `quit`, at the channel `release` that it has taken, before its status, or
before it marks the transaction. -/
inductive FingerEndPhase where
  | entered (n : ℕ)
  | waiting (n : ℕ) (release : Option ℕ)
  | released (n : ℕ)
  | given (n : ℕ)
  deriving DecidableEq, Repr

/-- A fingerprint transaction; `starts` are the calls of `authenticate` that wait for the device,
and `panicked` tells of a panic, which ends the daemon. One field is not part of the program:
`releasedBy` says which attempt has closed each `release`. Source: `fingerprint_tx.go`,
`FingerprintTx`. -/
structure FingerprintSteps extends BaseTx where
  starts : ℕ
  quit : Option ℕ
  release : Option ℕ
  isEnded : Bool
  quitClosed : ℕ → Bool
  releaseClosed : ℕ → Bool
  phases : ℕ → FingerPhase
  ending : Option FingerEndPhase
  releasedBy : ℕ → Option ℕ
  panicked : Bool

/-- The steps of the starts, of the goroutines and of the one call of `end` that holds `endedMu`,
with what the device answers and signals; a goroutine is known by its attempt. -/
inductive FingerprintStep where
  | start
  | claim (err : Option String)
  | verify (n : ℕ) (err : Option String)
  | quit (n : ℕ)
  | verifyStatus (n : ℕ) (code : ℤ)
  | stopVerify (n : ℕ) (err : Option String)
  | closeRelease (n : ℕ)
  | give (n : ℕ)
  | endTx
  | endWait
  | endReceive
  | endGive
  | endMark
  | setLockState (s : LockState)
  deriving DecidableEq, Repr

namespace FingerprintSteps

/-- Source: `fingerprint_tx.go`, `newFingerprintTx`. -/
def new (lockState : LockState) : FingerprintSteps :=
  ⟨.init .fingerprint lockState, 0, none, none, false, fun _ => false, fun _ => false,
    fun _ => .idle, none, fun _ => none, false⟩

/-- A goroutine goes on. -/
def setPhase (s : FingerprintSteps) (n : ℕ) (p : FingerPhase) : FingerprintSteps :=
  { s with phases := Function.update s.phases n p }

/-- Source: `tx.go`, `baseTx.giveStatus`. -/
def giveStatus (s : FingerprintSteps) (n : ℕ) (v : VerifyStatus) : FingerprintSteps :=
  { s with toBaseTx := s.toBaseTx.giveStatus n v }

/-- The device is claimed, and the channels are made.
Source: `fingerprint_tx.go`, `FingerprintTx.authenticate`. -/
def claim (s : FingerprintSteps) (err : Option String) : FingerprintSteps :=
  match err with
  | some _ => { s with starts := s.starts - 1 }
  | none =>
      let n := s.attempts + 1
      let s := { s with
        starts := s.starts - 1, release := some n, quit := some n, isEnded := false, attempts := n }
      ((s.giveStatus n defaultVerifyStatusStarted).giveStatus n
        (newVerifyStatus .prompt false "Verify your fingerprint")).setPhase n .spawned

/-- The goroutine closes the channel that the field names now; closing a nil channel, or a closed
one, panics. Source: `fingerprint_tx.go`, the goroutine of `FingerprintTx.authenticate`. -/
def closeRelease (s : FingerprintSteps) (n : ℕ) : Option FingerprintSteps :=
  match s.phases n with
  | .left result =>
      some (match s.release with
        | none => { s with panicked := true }
        | some c =>
            if s.releaseClosed c then { s with panicked := true }
            else { s with
              releaseClosed := Function.update s.releaseClosed c true
              releasedBy := Function.update s.releasedBy c (some n) }.setPhase n (.released result))
  | _ => none

/-- Source: `fingerprint_tx.go`, `FingerprintTx.end`, up to the receiving from `release`. -/
def endTx (s : FingerprintSteps) : Option FingerprintSteps :=
  if s.ending ≠ none then none
  else if s.isEnded then some s
  else if s.devState = .verifying then
    some (match s.quit with
      | none => { s with panicked := true }
      | some c =>
          if s.quitClosed c then { s with panicked := true }
          else { s with
            quitClosed := Function.update s.quitClosed c true
            ending := some (.entered s.attempts) })
  else some { s with ending := some (.released s.attempts) }

/-- One step, as long as the daemon lives. A lock notification tells of the lock and notes it; the
call of `end` that it might make is one that may come at any time, as is that of another session
that takes the device. Source: `fingerprint_tx.go`; the loop is that of `FingerprintTx.doVerify`. -/
def move (s : FingerprintSteps) : FingerprintStep → Option FingerprintSteps
  | .start => if s.canStart then some { s with starts := s.starts + 1 } else none
  | .claim err => if 0 < s.starts then some (s.claim err) else none
  | .verify n err =>
      if s.phases n = .spawned then
        some (s.setPhase n (match err with
          | some err => .left (DoVerify.result ⟨some err, -1, none⟩)
          | none => .looping))
      else none
  | .quit n =>
      if s.phases n = .looping ∧ s.quit.any s.quitClosed then some (s.setPhase n (.stopping (-1)))
      else none
  | .verifyStatus n code =>
      if s.phases n = .looping then
        some (if isVerifyStatusDone code then s.setPhase n (.stopping code) else s)
      else none
  | .stopVerify n err =>
      match s.phases n with
      | .stopping code => some (s.setPhase n (.left (DoVerify.result ⟨none, code, err⟩)))
      | _ => none
  | .closeRelease n => s.closeRelease n
  | .give n =>
      match s.phases n with
      | .released result => some ((result.elim s (s.giveStatus n)).setPhase n .returned)
      | _ => none
  | .endTx => s.endTx
  | .endWait =>
      match s.ending with
      | some (.entered n) => some { s with ending := some (.waiting n s.release) }
      | _ => none
  | .endReceive =>
      match s.ending with
      | some (.waiting n (some c)) =>
          if s.releaseClosed c then some { s with ending := some (.released n) } else none
      | _ => none
  | .endGive =>
      match s.ending with
      | some (.released n) =>
          some { s.giveStatus n defaultVerifyStatusEnd with ending := some (.given n) }
      | _ => none
  | .endMark =>
      match s.ending with
      | some (.given _) => some { s with isEnded := true, ending := none }
      | _ => none
  | .setLockState l => some { s with toBaseTx := s.notifyLock l }

/-- One step, observed through the statuses that it gives. -/
def step (s : FingerprintSteps) (a : FingerprintStep) : Option (FingerprintSteps × List Given) :=
  if s.panicked then none
  else ({ s with sent := [] }.move a).map fun s => (s, s.sent)

/-! ## What a step comes to -/

/-- The ways in which a step goes, each with what it has found and the state that it leaves; two of
them are panics, the closing of `release` or of `quit` where the channel is closed or not there. -/
inductive Next (s : FingerprintSteps) : FingerprintStep → FingerprintSteps → Prop
  | start (hcan : s.canStart = true) : Next s .start { s with starts := s.starts + 1 }
  | claim {err} (hstarts : 0 < s.starts) : Next s (.claim err) (s.claim err)
  | verifyErr {n err} (hn : s.phases n = .spawned) :
      Next s (.verify n (some err)) (s.setPhase n (.left (DoVerify.result ⟨some err, -1, none⟩)))
  | verify {n} (hn : s.phases n = .spawned) : Next s (.verify n none) (s.setPhase n .looping)
  | quit {n} (hn : s.phases n = .looping) (hquit : s.quit.any s.quitClosed = true) :
      Next s (.quit n) (s.setPhase n (.stopping (-1)))
  | done {n code} (hn : s.phases n = .looping) (hdone : isVerifyStatusDone code = true) :
      Next s (.verifyStatus n code) (s.setPhase n (.stopping code))
  | retry {n code} (hn : s.phases n = .looping) (hdone : isVerifyStatusDone code = false) :
      Next s (.verifyStatus n code) s
  | stopVerify {n code err} (hn : s.phases n = .stopping code) :
      Next s (.stopVerify n err) (s.setPhase n (.left (DoVerify.result ⟨none, code, err⟩)))
  | closeRelease {n result c} (hn : s.phases n = .left result) (hc : s.release = some c)
      (hopen : s.releaseClosed c = false) :
      Next s (.closeRelease n)
        (setPhase
          { s with
            releaseClosed := Function.update s.releaseClosed c true
            releasedBy := Function.update s.releasedBy c (some n) } n (.released result))
  | releasePanics {n result} (hn : s.phases n = .left result)
      (hclosed : ∀ c, s.release = some c → s.releaseClosed c = true) :
      Next s (.closeRelease n) { s with panicked := true }
  | giveNone {n} (hn : s.phases n = .released none) : Next s (.give n) (s.setPhase n .returned)
  | give {n v} (hn : s.phases n = .released (some v)) :
      Next s (.give n) ((s.giveStatus n v).setPhase n .returned)
  | wasEnded (hmux : s.ending = none) (hended : s.isEnded = true) : Next s .endTx s
  | endVerifying {c} (hmux : s.ending = none) (hended : s.isEnded = false)
      (hdev : s.devState = .verifying) (hc : s.quit = some c) (hopen : s.quitClosed c = false) :
      Next s .endTx
        { s with
          quitClosed := Function.update s.quitClosed c true
          ending := some (.entered s.attempts) }
  | quitPanics (hmux : s.ending = none) (hended : s.isEnded = false)
      (hdev : s.devState = .verifying) (hclosed : ∀ c, s.quit = some c → s.quitClosed c = true) :
      Next s .endTx { s with panicked := true }
  | endIdle (hmux : s.ending = none) (hended : s.isEnded = false) (hdev : s.devState ≠ .verifying) :
      Next s .endTx { s with ending := some (.released s.attempts) }
  | endWait {n} (hmux : s.ending = some (.entered n)) :
      Next s .endWait { s with ending := some (.waiting n s.release) }
  | endReceive {n c} (hmux : s.ending = some (.waiting n (some c)))
      (hclosed : s.releaseClosed c = true) :
      Next s .endReceive { s with ending := some (.released n) }
  | endGive {n} (hmux : s.ending = some (.released n)) :
      Next s .endGive { s.giveStatus n defaultVerifyStatusEnd with ending := some (.given n) }
  | endMark {n} (hmux : s.ending = some (.given n)) :
      Next s .endMark { s with isEnded := true, ending := none }
  | setLockState {l} : Next s (.setLockState l) { s with toBaseTx := s.notifyLock l }

variable {s s' : FingerprintSteps}

/-- The channel that the field names is closed, or the daemon panics. -/
theorem next_of_closeRelease {n : ℕ} (hs : s.closeRelease n = some s') :
    s.Next (.closeRelease n) s' := by
  unfold FingerprintSteps.closeRelease at hs
  split at hs
  · next result hn =>
      cases hs
      split
      · next hnil => exact .releasePanics hn fun c hc => by cases hnil.symm.trans hc
      · next c hc =>
          split_ifs with hclosed
          · refine .releasePanics hn ?_
            intro c' hc'
            cases hc.symm.trans hc'
            exact hclosed
          · exact .closeRelease hn hc (by simpa using hclosed)
  · cases hs

/-- A call of `end` finds the transaction marked, or closes `quit` where it verifies. -/
theorem next_of_endTx (hs : s.endTx = some s') : s.Next .endTx s' := by
  unfold FingerprintSteps.endTx at hs
  split_ifs at hs with hmux hended hdev
  · cases hs
    exact .wasEnded (not_not.mp hmux) hended
  · have hended : s.isEnded = false := by simpa using hended
    cases hs
    split
    · next hnil =>
        exact .quitPanics (not_not.mp hmux) hended hdev fun c hc => by cases hnil.symm.trans hc
    · next c hc =>
        split_ifs with hclosed
        · refine .quitPanics (not_not.mp hmux) hended hdev ?_
          intro c' hc'
          cases hc.symm.trans hc'
          exact hclosed
        · exact .endVerifying (not_not.mp hmux) hended hdev hc (by simpa using hclosed)
  · cases hs
    exact .endIdle (not_not.mp hmux) (by simpa using hended) hdev

/-- **The inversion**: a step that is taken goes in one of these ways. -/
theorem next_of_move {a : FingerprintStep} (hs : s.move a = some s') : s.Next a s' := by
  cases a with
  | start =>
      obtain ⟨hcan, heq⟩ := Option.ite_none_right_eq_some.mp hs
      cases heq
      exact .start hcan
  | claim err =>
      obtain ⟨hstarts, heq⟩ := Option.ite_none_right_eq_some.mp hs
      cases heq
      exact .claim hstarts
  | verify n err =>
      obtain ⟨hn, heq⟩ := Option.ite_none_right_eq_some.mp hs
      cases heq
      cases err with
      | none => exact .verify hn
      | some err => exact .verifyErr hn
  | quit n =>
      obtain ⟨⟨hn, hquit⟩, heq⟩ := Option.ite_none_right_eq_some.mp hs
      cases heq
      exact .quit hn hquit
  | verifyStatus n code =>
      obtain ⟨hn, heq⟩ := Option.ite_none_right_eq_some.mp hs
      split_ifs at heq with hdone
      · cases heq
        exact .done hn hdone
      · cases heq
        exact .retry hn (by simpa using hdone)
  | stopVerify n err =>
      simp only [FingerprintSteps.move] at hs
      split at hs
      · next code hn =>
          cases hs
          exact .stopVerify hn
      · cases hs
  | closeRelease n => exact next_of_closeRelease hs
  | give n =>
      simp only [FingerprintSteps.move] at hs
      split at hs
      · next result hn =>
          cases hs
          cases result with
          | none => exact .giveNone hn
          | some v => exact .give hn
      · cases hs
  | endTx => exact next_of_endTx hs
  | endWait =>
      simp only [FingerprintSteps.move] at hs
      split at hs
      · next n hmux =>
          cases hs
          exact .endWait hmux
      · cases hs
  | endReceive =>
      simp only [FingerprintSteps.move] at hs
      split at hs
      · next n c hmux =>
          obtain ⟨hclosed, heq⟩ := Option.ite_none_right_eq_some.mp hs
          cases heq
          exact .endReceive hmux hclosed
      · cases hs
  | endGive =>
      simp only [FingerprintSteps.move] at hs
      split at hs
      · next n hmux =>
          cases hs
          exact .endGive hmux
      · cases hs
  | endMark =>
      simp only [FingerprintSteps.move] at hs
      split at hs
      · next n hmux =>
          cases hs
          exact .endMark hmux
      · cases hs
  | setLockState l =>
      cases hs
      exact .setLockState

/-! ## One attempt at a time -/

/-- The goroutine of the attempt runs. -/
def Live (s : FingerprintSteps) (n : ℕ) : Prop := (s.phases n).live = true

/-- The daemon has not panicked over a channel that was closed twice, one attempt at most is live,
and each `release` that was closed was closed by its own attempt. -/
structure Alone (s : FingerprintSteps) : Prop where
  alive : s.panicked = false
  unique : ∀ n m, s.Live n → s.Live m → n = m
  own : ∀ c n, s.releasedBy c = some n → c = n

/-- The step leads to one attempt at a time. -/
def AloneStep (s : FingerprintSteps) (a : FingerprintStep) : Prop :=
  ∀ s' sent, s.step a = some (s', sent) → s'.Alone

/-- No attempt begins while another is live. -/
def BeginsAlone (s : FingerprintSteps) : FingerprintStep → Prop
  | .claim none => 0 < s.starts → ∀ n, ¬ s.Live n
  | _ => True

/-- The last attempt is the one that may be live, its channels are those of the fields, and they are
open until its goroutine and its `end` close them. -/
structure Inv (s : FingerprintSteps) : Prop where
  alive : s.panicked = false
  last : ∀ n, s.Live n → n = s.attempts
  own : ∀ c n, s.releasedBy c = some n → c = n
  fields : s.quit = s.release ∧ (s.release = some s.attempts ∨ s.release = none ∧ s.attempts = 0)
  unstarted : s.quit = none → s.devState ≠ .verifying ∧ ∀ n, ¬ s.Live n
  fresh : ∀ c, s.attempts < c → s.quitClosed c = false ∧ s.releaseClosed c = false
  held : ∀ n, (s.phases n).holds = true → s.releaseClosed n = false
  quitted : s.quitClosed s.attempts = true → s.isEnded = true ∨ s.ending ≠ none

theorem inv_new (lockState : LockState) : (new lockState).Inv where
  alive := rfl
  last := fun _ h => nomatch h
  own := fun _ _ h => nomatch h
  fields := ⟨rfl, .inr ⟨rfl, rfl⟩⟩
  unstarted := fun _ => ⟨fun h => (nomatch h), fun _ h => (nomatch h)⟩
  fresh := fun _ _ => ⟨rfl, rfl⟩
  held := fun _ h => nomatch h
  quitted := fun h => nomatch h

/-- What holds of one attempt, holds of all that is said of attempts. -/
theorem Inv.alone (h : s.Inv) : s.Alone :=
  ⟨h.alive, fun n m hn hm => (h.last n hn).trans (h.last m hm).symm, h.own⟩

/-- The field that a live attempt closes names its own channel. -/
theorem Inv.release_eq (h : s.Inv) {n : ℕ} (hn : s.Live n) :
    s.quit = some n ∧ s.release = some n := by
  obtain ⟨hquit, hrelease | ⟨hnone, -⟩⟩ := h.fields
  · rw [← h.last n hn] at hrelease
    exact ⟨hquit.trans hrelease, hrelease⟩
  · exact absurd hn ((h.unstarted (hquit.trans hnone)).2 n)

theorem setPhase_live {n m : ℕ} {p : FingerPhase} (hm : (s.setPhase n p).Live m) :
    m = n ∧ p.live = true ∨ s.Live m := by
  unfold Live setPhase at hm
  dsimp only at hm
  by_cases hmn : m = n
  · rw [hmn, Function.update_self] at hm
    exact .inl ⟨hmn, hm⟩
  · rw [Function.update_of_ne hmn] at hm
    exact .inr hm

/-- A live goroutine goes on. -/
theorem Inv.setPhase (h : s.Inv) {n : ℕ} (hn : s.Live n) {p : FingerPhase}
    (hp : p.holds = true → s.releaseClosed n = false) : (s.setPhase n p).Inv := by
  refine ⟨h.alive, ?_, h.own, h.fields, ?_, h.fresh, ?_, h.quitted⟩
  · intro m hm
    rcases setPhase_live hm with ⟨rfl, -⟩ | hm
    · exact h.last m hn
    · exact h.last m hm
  · intro hq
    have hq' : s.quit = none := hq
    rw [(h.release_eq hn).1] at hq'
    cases hq'
  · intro m hm
    unfold FingerprintSteps.setPhase at hm
    dsimp only at hm
    by_cases hmn : m = n
    · rw [hmn, Function.update_self] at hm
      exact hmn ▸ hp hm
    · rw [Function.update_of_ne hmn] at hm
      exact h.held m hm

theorem Inv.giveStatus (h : s.Inv) (n : ℕ) {v : VerifyStatus}
    (hv : statusCodeToDevState v.s = .verifying → s.quit ≠ none) : (s.giveStatus n v).Inv :=
  ⟨h.alive, h.last, h.own, h.fields, fun hq => ⟨fun hs => hv hs hq, (h.unstarted hq).2⟩, h.fresh,
    h.held, h.quitted⟩

/-- The call of `end` goes on, or comes. -/
theorem Inv.setEnding (h : s.Inv) (e : FingerEndPhase) : Inv { s with ending := some e } :=
  ⟨h.alive, h.last, h.own, h.fields, h.unstarted, h.fresh, h.held, fun _ => .inr nofun⟩

/-- An attempt begins while none is live. -/
theorem Inv.claim (h : s.Inv) (err : Option String) (halone : err = none → ∀ n, ¬ s.Live n) :
    (s.claim err).Inv := by
  rcases err with _ | err
  · have hfree := halone rfl
    have hmade : Inv { s with
        starts := s.starts - 1, release := some (s.attempts + 1), quit := some (s.attempts + 1),
        isEnded := false, attempts := s.attempts + 1 } :=
      ⟨h.alive, fun n hn => absurd hn (hfree n), h.own, ⟨rfl, .inl rfl⟩, fun hq => (nomatch hq),
        fun c hc => h.fresh c (Nat.lt_of_succ_lt hc), h.held, fun hq => by
          have hopen := (h.fresh (s.attempts + 1) (Nat.lt_succ_self _)).1
          exact absurd (hopen.symm.trans hq) Bool.false_ne_true⟩
    have hgiven := (hmade.giveStatus (s.attempts + 1) (v := defaultVerifyStatusStarted)
      fun _ => nofun).giveStatus (s.attempts + 1)
        (v := newVerifyStatus .prompt false "Verify your fingerprint") fun _ => nofun
    refine ⟨h.alive, ?_, h.own, ⟨rfl, .inl rfl⟩, fun hq => (nomatch hq), hgiven.fresh,
      ?_, hgiven.quitted⟩
    · intro m hm
      rcases setPhase_live hm with ⟨rfl, -⟩ | hm
      · rfl
      · exact absurd hm (hfree m)
    · intro m hm
      by_cases hmn : m = s.attempts + 1
      · exact (h.fresh m (by omega)).2
      · unfold FingerprintSteps.claim FingerprintSteps.setPhase at hm
        dsimp only at hm
        rw [Function.update_of_ne hmn] at hm
        exact h.held m hm
  · exact ⟨h.alive, h.last, h.own, h.fields, h.unstarted, h.fresh, h.held, h.quitted⟩

/-- The goroutine of the last attempt closes the channel that was made for it. -/
theorem Inv.closeRelease (h : s.Inv) {n : ℕ} (hlive : s.Live n) (result : Option VerifyStatus) :
    Inv (FingerprintSteps.setPhase
      { s with
        releaseClosed := Function.update s.releaseClosed n true
        releasedBy := Function.update s.releasedBy n (some n) } n (.released result)) := by
  refine ⟨h.alive, ?_, ?_, h.fields, ?_, ?_, ?_, h.quitted⟩
  · intro m hm
    rcases setPhase_live (s := s) hm with ⟨rfl, -⟩ | hm
    · exact h.last m hlive
    · exact h.last m hm
  · intro c m hc
    have hc' : Function.update s.releasedBy n (some n) c = some m := hc
    by_cases hcn : c = n
    · rw [hcn, Function.update_self] at hc'
      cases hc'
      exact hcn
    · rw [Function.update_of_ne hcn] at hc'
      exact h.own c m hc'
  · intro hq
    have hq' : s.quit = none := hq
    rw [(h.release_eq hlive).1] at hq'
    cases hq'
  · intro c hc
    have hcn : c ≠ n := fun hcn => by
      rw [hcn, h.last n hlive] at hc
      exact absurd hc (Nat.lt_irrefl _)
    exact ⟨(h.fresh c hc).1, (Function.update_of_ne hcn ..).trans (h.fresh c hc).2⟩
  · intro m hm
    unfold FingerprintSteps.setPhase at hm
    dsimp only at hm
    by_cases hmn : m = n
    · rw [hmn, Function.update_self] at hm
      cases hm
    · rw [Function.update_of_ne hmn] at hm
      exact (Function.update_of_ne hmn ..).trans (h.held m hm)

/-- While the transaction verifies, the fields name the channels of the last attempt. -/
theorem Inv.quit_eq (h : s.Inv) (hdev : s.devState = .verifying) : s.quit = some s.attempts := by
  obtain ⟨hquit, hrelease | ⟨hnone, -⟩⟩ := h.fields
  · exact hquit.trans hrelease
  · exact absurd hdev (h.unstarted (hquit.trans hnone)).1

/-- The `quit` that `end` closes is open. -/
theorem Inv.quit_open (h : s.Inv) (hmux : s.ending = none) (hended : s.isEnded = false) :
    s.quitClosed s.attempts = false := by
  by_contra hclosed
  rcases h.quitted (by simpa using hclosed) with he | he
  · exact absurd (hended.symm.trans he) Bool.false_ne_true
  · exact he hmux

/-- A call of `end` closes the `quit` of the last attempt. -/
theorem Inv.closeQuit (h : s.Inv) :
    Inv { s with
      quitClosed := Function.update s.quitClosed s.attempts true
      ending := some (.entered s.attempts) } := by
  refine ⟨h.alive, h.last, h.own, h.fields, h.unstarted, ?_, h.held, fun _ => .inr (by rintro ⟨⟩)⟩
  intro c hc
  exact ⟨(Function.update_of_ne (Nat.ne_of_gt hc) ..).trans (h.fresh c hc).1, (h.fresh c hc).2⟩

/-- **The step lemma**: where no attempt begins while another is live, there is one at a time. -/
theorem Inv.move (h : s.Inv) {a : FingerprintStep} (ha : s.BeginsAlone a)
    (hs : s.move a = some s') : s'.Inv := by
  have hrunning : ∀ {n : ℕ} {p : FingerPhase}, s.phases n = p → p.live = true → s.Live n := by
    rintro n p rfl hp
    exact hp
  have hheld : ∀ {n : ℕ} {p : FingerPhase}, s.phases n = p → p.holds = true →
      s.releaseClosed n = false := by
    rintro n p rfl hp
    exact h.held n hp
  cases next_of_move hs with
  | start hcan =>
      exact ⟨h.alive, h.last, h.own, h.fields, h.unstarted, h.fresh, h.held, h.quitted⟩
  | @claim err hstarts =>
      refine h.claim err ?_
      rintro rfl
      exact ha hstarts
  | verifyErr hn | verify hn | quit hn hquit | done hn hdone | stopVerify hn =>
      exact h.setPhase (hrunning hn rfl) fun _ => hheld hn rfl
  | retry hn hdone | wasEnded hmux hended => exact h
  | closeRelease hn hc hopen =>
      have hlive := hrunning hn rfl
      cases hc.symm.trans (h.release_eq hlive).2
      exact h.closeRelease hlive _
  | releasePanics hn hclosed =>
      have hopen := hheld hn rfl
      rw [hclosed _ (h.release_eq (hrunning hn rfl)).2] at hopen
      cases hopen
  | giveNone hn => exact h.setPhase (hrunning hn rfl) (by rintro ⟨⟩)
  | give hn =>
      have hlive := hrunning hn rfl
      have hstarted : s.quit ≠ none := by
        rw [(h.release_eq hlive).1]
        rintro ⟨⟩
      exact (h.giveStatus _ fun _ => hstarted).setPhase hlive (by rintro ⟨⟩)
  | endVerifying hmux hended hdev hc hopen =>
      cases hc.symm.trans (h.quit_eq hdev)
      exact h.closeQuit
  | quitPanics hmux hended hdev hclosed =>
      have hopen := h.quit_open hmux hended
      rw [hclosed _ (h.quit_eq hdev)] at hopen
      cases hopen
  | endIdle hmux hended hdev | endWait hmux | endReceive hmux hclosed => exact h.setEnding _
  | endGive hmux =>
      exact Inv.setEnding (h.giveStatus _ (v := defaultVerifyStatusEnd) (by rintro ⟨⟩)) _
  | endMark hmux =>
      exact ⟨h.alive, h.last, h.own, h.fields, h.unstarted, h.fresh, h.held, fun _ => .inl rfl⟩
  | @setLockState l =>
      refine ⟨h.alive, ?_, h.own, ?_, fun hq => ⟨?_, (h.unstarted hq).2⟩, ?_, h.held, ?_⟩
      · exact (s.notifyLock_attempts l).symm ▸ h.last
      · exact (s.notifyLock_attempts l).symm ▸ h.fields
      · intro hv
        exact (h.unstarted hq).1 (s.notifyLock_devState l hv).1
      · exact (s.notifyLock_attempts l).symm ▸ h.fresh
      · exact (s.notifyLock_attempts l).symm ▸ h.quitted

theorem Inv.step (h : s.Inv) {a : FingerprintStep} {sent : List Given} (ha : s.BeginsAlone a)
    (hs : s.step a = some (s', sent)) : s'.Inv := by
  unfold FingerprintSteps.step at hs
  rw [if_neg (by simp [h.alive])] at hs
  obtain ⟨ht, rfl⟩ := observed_eq_some.mp hs
  have hclear : Inv { s with sent := [] } :=
    ⟨h.alive, h.last, h.own, h.fields, h.unstarted, h.fresh, h.held, h.quitted⟩
  refine hclear.move ?_ ht
  rcases a with _ | ⟨_ | _⟩ | _ <;> exact ha

/-- An attempt that begins beside another is the second one. -/
theorem AloneStep.beginsAlone (h : s.Inv) {a : FingerprintStep} (ha : s.AloneStep a) :
    s.BeginsAlone a := by
  rcases a with _ | ⟨_ | _⟩ | _ <;> try trivial
  intro hstarts n hn
  have hstep : s.step (.claim none) = some (claim { s with sent := [] } none,
      (claim { s with sent := [] } none).sent) := by
    simp only [FingerprintSteps.step, FingerprintSteps.move, h.alive, if_pos hstarts]
    rfl
  have hlt : n ≠ s.attempts + 1 := by
    rw [h.last n hn]
    exact Nat.ne_of_lt (Nat.lt_succ_self _)
  refine hlt ((ha _ _ hstep).unique n (s.attempts + 1) ?_ ?_)
  · show (Function.update s.phases (s.attempts + 1) .spawned n).live = true
    rw [Function.update_of_ne hlt]
    exact hn
  · show (Function.update s.phases (s.attempts + 1) .spawned (s.attempts + 1)).live = true
    rw [Function.update_self]
    rfl

/-- **When one attempt of a fingerprint is live at a time.** In every run, at most one goroutine is
live, no channel is closed twice, and each attempt closes the `release` made for it, exactly when no
attempt begins while another is live. -/
theorem alone_iff (lockState : LockState) (acts : List FingerprintStep) :
    Along step AloneStep (new lockState) acts ↔ Along step BeginsAlone (new lockState) acts := by
  constructor
  · exact Along.of_invariant (I := Inv)
      (fun _ _ _ _ hinv halone hs => hinv.step (halone.beginsAlone hinv) hs)
      (fun _ _ hinv halone => halone.beginsAlone hinv) (inv_new lockState)
  · exact Along.of_invariant (I := Inv) (fun _ _ _ _ hinv ha hs => hinv.step ha hs)
      (fun _ _ hinv ha _ _ hs => (hinv.step ha hs).alone) (inv_new lockState)

/-- A start, a lock that leaves the goroutine running, and the start that follows the unlocking. -/
def startLockUnlockStart : List FingerprintStep :=
  [.start, .claim none, .setLockState .locked, .setLockState .unlock, .start]

/-- Two attempts of one fingerprint are live after a lock and an unlock. -/
theorem restart_after_unlock :
    ¬ ∀ (lockState : LockState) (acts : List FingerprintStep),
      Along step AloneStep (new lockState) acts := by
  intro h
  have hclaim := (h .unlock (startLockUnlockStart ++ [.claim none])).of_run rfl
  exact absurd ((hclaim _ _ rfl).unique 1 2 rfl rfl) (by decide)

end FingerprintSteps

end LingmoAuthenticate.Session
