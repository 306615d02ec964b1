import LingmoAuthenticate.Session.PasswordSteps

/-!
# A custom factor, step by step

A custom transaction with its starts, the goroutines of its attempts, those that its calls of
`setPassword` start, and the call of `end` that holds the mutex `endedMu`, each taken apart into the
steps between which the others may run. A start holds no mutex: it makes a channel, then takes the
mark of an earlier `end` away, and then tells of itself. A channel is known by the attempt it was
made for.

* `CustomSteps.safe_iff`: when no token is sent on a closed channel.
* `delivery_safe_iff`: the same for both kinds of transaction that take tokens.
* `second_token_panics`: a second token that waits while the first is judged takes the daemon down
  when its channel is closed.
-/

namespace LingmoAuthenticate.Session

open Lib AuthCommon

/-- Where a start stands: it has made its channel, or has taken away the mark of an earlier `end`, or
has returned. -/
inductive CustomStartPhase where
  | idle
  | made
  | unmarked
  | returned
  deriving DecidableEq, Repr

/-- Where the goroutine of an attempt stands: before it takes the channel, at the channel that it
has taken, or with a token, before its status. -/
inductive CustomVerifyPhase where
  | idle
  | spawned
  | receiving (c : ℕ)
  | giving
  | returned
  deriving DecidableEq, Repr

/-- Where a call of `SetToken` stands: before its test of the device state, in a goroutine before
its test of `isEnded`, past that test, or in the channel. -/
inductive CustomTokenPhase where
  | idle
  | called
  | spawned
  | tested
  | sending
  | returned
  deriving DecidableEq, Repr

/-- Where the call of `end` stands that holds `endedMu`: before its status, before it marks the
transaction, or before it closes the channel. -/
inductive CustomEndPhase where
  | entered
  | given
  | marked
  deriving DecidableEq, Repr

/-- A custom transaction. `checked` are the starts that have found the factor idle and unlocked and
have not made their channel yet; `panicked` tells of a panic, which ends the daemon.
Source: `custom_tx.go`, `CustomTx`. -/
structure CustomSteps extends BaseTx where
  checked : ℕ
  starts : ℕ → CustomStartPhase
  chanPasswd : Option ℕ
  isEnded : Bool
  chans : Rendezvous
  verifies : ℕ → CustomVerifyPhase
  tokens : ℕ → CustomTokenPhase
  ending : Option CustomEndPhase
  panicked : Bool

/-- The steps of the starts, of the goroutines, of the calls of `SetToken` and of the one call of
`end` that holds `endedMu`; a goroutine is known by its attempt, and the calls by numbers. -/
inductive CustomStep where
  | check
  | authenticate
  | unmark (n : ℕ)
  | giveStarted (n : ℕ)
  | takeChan (n : ℕ)
  | receive (n i : ℕ)
  | receiveClosed (n : ℕ)
  | give (n : ℕ)
  | setToken (i : ℕ)
  | testDevState (i : ℕ)
  | testEnded (i : ℕ)
  | send (i : ℕ)
  | endTx
  | endGive
  | endMark
  | endClose
  | setLockState (s : LockState)
  deriving DecidableEq, Repr

namespace CustomSteps

/-- Source: `custom_tx.go`, `newCustomTx`. -/
def new (lockState : LockState) : CustomSteps :=
  ⟨.init .custom lockState, 0, fun _ => .idle, none, false, .make, fun _ => .idle, fun _ => .idle,
    none, false⟩

/-- A start goes on. -/
def setStart (s : CustomSteps) (n : ℕ) (p : CustomStartPhase) : CustomSteps :=
  { s with starts := Function.update s.starts n p }

/-- A goroutine of an attempt goes on. -/
def setVerify (s : CustomSteps) (n : ℕ) (p : CustomVerifyPhase) : CustomSteps :=
  { s with verifies := Function.update s.verifies n p }

/-- A call of `SetToken` goes on. -/
def setToken (s : CustomSteps) (i : ℕ) (p : CustomTokenPhase) : CustomSteps :=
  { s with tokens := Function.update s.tokens i p }

/-- Source: `tx.go`, `baseTx.giveStatus`. -/
def giveStatus (s : CustomSteps) (n : ℕ) (v : VerifyStatus) : CustomSteps :=
  { s with toBaseTx := s.toBaseTx.giveStatus n v }

/-- The controller finds the factor idle and unlocked. Source: `normal_verify.go` and
`multifactor_verify.go`, the loop of `authenticate`, before the call of the transaction. -/
def check (s : CustomSteps) : Option CustomSteps :=
  if s.canStart then some { s with checked := s.checked + 1 } else none

/-- A start makes its channel. Source: `custom_tx.go`, `CustomTx.authenticate`, its beginning. -/
def authenticate (s : CustomSteps) : Option CustomSteps :=
  if 0 < s.checked then
    let n := s.attempts + 1
    let s := { s with checked := s.checked - 1, chanPasswd := some n, attempts := n }
    some (s.setStart n .made)
  else none

/-- A start takes the mark away, without `endedMu`. Source: `custom_tx.go`,
`CustomTx.authenticate`. -/
def unmark (s : CustomSteps) (n : ℕ) : Option CustomSteps :=
  if s.starts n = .made then some ({ s with isEnded := false }.setStart n .unmarked) else none

/-- A start tells of itself, and its goroutine begins. Source: `custom_tx.go`,
`CustomTx.authenticate`. -/
def giveStarted (s : CustomSteps) (n : ℕ) : Option CustomSteps :=
  if s.starts n = .unmarked then
    some (((s.giveStatus n defaultVerifyStatusStarted).setStart n .returned).setVerify n .spawned)
  else none

/-- A token reaches a goroutine. Source: `custom_tx.go`, `CustomTx.verify`, with
`CustomTx.setPassword`. -/
def receive (s : CustomSteps) (n i : ℕ) : Option CustomSteps :=
  match s.verifies n with
  | .receiving c =>
      if s.chans.Offers i c then
        some (({ s with chans := s.chans.taken i }.setToken i .returned).setVerify n .giving)
      else none
  | _ => none

/-- The end of the goroutine of `setPassword`; a send on the nil channel waits for ever.
Source: `custom_tx.go`, `CustomTx.setPassword`. -/
def send (s : CustomSteps) (i : ℕ) : Option CustomSteps :=
  if s.tokens i = .tested then
    s.chanPasswd.bind fun c =>
      match s.chans.send i c with
      | .done chans => some ({ s with chans := chans }.setToken i .sending)
      | .blocks => none
      | .panics => some { s with panicked := true }
  else none

/-- The channel that the field names now is closed; closing the nil channel, or a closed one,
panics. Source: `custom_tx.go`, `CustomTx.end`. -/
def endClose (s : CustomSteps) : Option CustomSteps :=
  if s.ending = some .marked then
    some (match s.chanPasswd with
      | none => { s with panicked := true }
      | some c =>
          match s.chans.close c with
          | .done chans => { s with chans := chans, ending := none }
          | .blocks | .panics => { s with panicked := true })
  else none

/-- One step, as long as the daemon lives. A lock notification tells of the lock and notes it; the
call of `end` that it might make is one that may come at any time.
Source: `custom_tx.go`, with the test of `Manager.SetToken` in `session/manager_ifc.go`. -/
def move (s : CustomSteps) : CustomStep → Option CustomSteps
  | .check => s.check
  | .authenticate => s.authenticate
  | .unmark n => s.unmark n
  | .giveStarted n => s.giveStarted n
  | .takeChan n =>
      if s.verifies n = .spawned then s.chanPasswd.map fun c => s.setVerify n (.receiving c)
      else none
  | .receive n i => s.receive n i
  | .receiveClosed n =>
      match s.verifies n with
      | .receiving c => if s.chans.closed c then some (s.setVerify n .returned) else none
      | _ => none
  | .give n =>
      if s.verifies n = .giving then
        some ((s.giveStatus n (newVerifyStatus .success true "")).setVerify n .returned)
      else none
  | .setToken i => if s.tokens i = .idle then some (s.setToken i .called) else none
  | .testDevState i =>
      if s.tokens i = .called then
        some (s.setToken i (if s.devState = .verifying then .spawned else .returned))
      else none
  | .testEnded i =>
      if s.tokens i = .spawned ∧ s.ending = none then
        some (s.setToken i (if s.isEnded then .returned else .tested))
      else none
  | .send i => s.send i
  | .endTx =>
      if s.ending = none then
        some (if s.isEnded then s else { s with ending := some .entered })
      else none
  | .endGive =>
      if s.ending = some .entered then
        some { s.giveStatus s.attempts defaultVerifyStatusEnd with ending := some .given }
      else none
  | .endMark =>
      if s.ending = some .given then some { s with isEnded := true, ending := some .marked }
      else none
  | .endClose => s.endClose
  | .setLockState l => some { s with toBaseTx := s.notifyLock l }

/-- One step, observed through the statuses that it gives. -/
def step (s : CustomSteps) (a : CustomStep) : Option (CustomSteps × List Given) :=
  if s.panicked then none
  else ({ s with sent := [] }.move a).map fun s => (s, s.sent)

/-! ## What a step comes to -/

/-- The ways in which a step goes, each with what it has found and the state that it leaves; two of
them are panics, a send on a closed channel and a closing of one that is closed or not there. -/
inductive Next (s : CustomSteps) : CustomStep → CustomSteps → Prop
  | check (hcan : s.canStart = true) : Next s .check { s with checked := s.checked + 1 }
  | authenticate (hpos : 0 < s.checked) :
      Next s .authenticate
        (setStart
          { s with
            checked := s.checked - 1, chanPasswd := some (s.attempts + 1)
            attempts := s.attempts + 1 }
          (s.attempts + 1) .made)
  | unmark {n} (hn : s.starts n = .made) :
      Next s (.unmark n) (setStart { s with isEnded := false } n .unmarked)
  | giveStarted {n} (hn : s.starts n = .unmarked) :
      Next s (.giveStarted n)
        (((s.giveStatus n defaultVerifyStatusStarted).setStart n .returned).setVerify n .spawned)
  | takeChan {n c} (hn : s.verifies n = .spawned) (hc : s.chanPasswd = some c) :
      Next s (.takeChan n) (s.setVerify n (.receiving c))
  | receive {n i c} (hn : s.verifies n = .receiving c) (hoffer : s.chans.Offers i c) :
      Next s (.receive n i)
        ((setToken { s with chans := s.chans.taken i } i .returned).setVerify n .giving)
  | receiveClosed {n c} (hn : s.verifies n = .receiving c) (hclosed : s.chans.closed c = true) :
      Next s (.receiveClosed n) (s.setVerify n .returned)
  | give {n} (hn : s.verifies n = .giving) :
      Next s (.give n) ((s.giveStatus n (newVerifyStatus .success true "")).setVerify n .returned)
  | setToken {i} (hi : s.tokens i = .idle) : Next s (.setToken i) (s.setToken i .called)
  | verifying {i} (hi : s.tokens i = .called) (hdev : s.devState = .verifying) :
      Next s (.testDevState i) (s.setToken i .spawned)
  | notVerifying {i} (hi : s.tokens i = .called) (hdev : s.devState ≠ .verifying) :
      Next s (.testDevState i) (s.setToken i .returned)
  | ended {i} (hi : s.tokens i = .spawned) (hmux : s.ending = none) (hended : s.isEnded = true) :
      Next s (.testEnded i) (s.setToken i .returned)
  | notEnded {i} (hi : s.tokens i = .spawned) (hmux : s.ending = none)
      (hended : s.isEnded = false) : Next s (.testEnded i) (s.setToken i .tested)
  | send {i c chans} (hi : s.tokens i = .tested) (hc : s.chanPasswd = some c)
      (hsend : s.chans.send i c = .done chans) :
      Next s (.send i) (setToken { s with chans := chans } i .sending)
  | sendClosed {i c} (hi : s.tokens i = .tested) (hc : s.chanPasswd = some c)
      (hsend : s.chans.send i c = .panics) : Next s (.send i) { s with panicked := true }
  | wasEnded (hmux : s.ending = none) (hended : s.isEnded = true) : Next s .endTx s
  | endTx (hmux : s.ending = none) (hended : s.isEnded = false) :
      Next s .endTx { s with ending := some .entered }
  | endGive (hmux : s.ending = some .entered) :
      Next s .endGive
        { s.giveStatus s.attempts defaultVerifyStatusEnd with ending := some .given }
  | endMark (hmux : s.ending = some .given) :
      Next s .endMark { s with isEnded := true, ending := some .marked }
  | endClose {c chans} (hmux : s.ending = some .marked) (hc : s.chanPasswd = some c)
      (hclose : s.chans.close c = .done chans) :
      Next s .endClose { s with chans := chans, ending := none }
  | closePanics (hmux : s.ending = some .marked)
      (hclose : ∀ c, s.chanPasswd = some c → ∀ chans, s.chans.close c ≠ .done chans) :
      Next s .endClose { s with panicked := true }
  | setLockState {l} : Next s (.setLockState l) { s with toBaseTx := s.notifyLock l }

variable {s s' : CustomSteps}

/-- The channel that the field names is closed, or the daemon panics. -/
theorem next_of_endClose (hs : s.endClose = some s') : s.Next .endClose s' := by
  obtain ⟨hmux, heq⟩ := Option.ite_none_right_eq_some.mp hs
  split at heq
  · next hnil =>
      cases heq
      exact .closePanics hmux fun c hc => absurd (hnil.symm.trans hc) (by simp)
  · next c hc =>
      split at heq
      · next chans hclose =>
          cases heq
          exact .endClose hmux hc hclose
      all_goals
        next hclose =>
          cases heq
          refine .closePanics hmux ?_
          intro c' hc' chans hdone
          cases hc.symm.trans hc'
          cases hclose.symm.trans hdone

/-- **The inversion**: a step that is taken goes in one of these ways. -/
theorem next_of_move {a : CustomStep} (hs : s.move a = some s') : s.Next a s' := by
  cases a with
  | check =>
      obtain ⟨hcan, heq⟩ := Option.ite_none_right_eq_some.mp hs
      cases heq
      exact .check hcan
  | authenticate =>
      obtain ⟨hpos, heq⟩ := Option.ite_none_right_eq_some.mp hs
      cases heq
      exact .authenticate hpos
  | unmark n =>
      obtain ⟨hn, heq⟩ := Option.ite_none_right_eq_some.mp hs
      cases heq
      exact .unmark hn
  | giveStarted n =>
      obtain ⟨hn, heq⟩ := Option.ite_none_right_eq_some.mp hs
      cases heq
      exact .giveStarted hn
  | takeChan n =>
      obtain ⟨hn, heq⟩ := Option.ite_none_right_eq_some.mp hs
      obtain ⟨c, hc, rfl⟩ := Option.map_eq_some_iff.mp heq
      exact .takeChan hn hc
  | receive n i =>
      simp only [CustomSteps.move, CustomSteps.receive] at hs
      split at hs
      · next c hn =>
          obtain ⟨hoffer, heq⟩ := Option.ite_none_right_eq_some.mp hs
          cases heq
          exact .receive hn hoffer
      · cases hs
  | receiveClosed n =>
      simp only [CustomSteps.move] at hs
      split at hs
      · next c hn =>
          obtain ⟨hclosed, heq⟩ := Option.ite_none_right_eq_some.mp hs
          cases heq
          exact .receiveClosed hn hclosed
      · cases hs
  | give n =>
      obtain ⟨hn, heq⟩ := Option.ite_none_right_eq_some.mp hs
      cases heq
      exact .give hn
  | setToken i =>
      obtain ⟨hi, heq⟩ := Option.ite_none_right_eq_some.mp hs
      cases heq
      exact .setToken hi
  | testDevState i =>
      obtain ⟨hi, heq⟩ := Option.ite_none_right_eq_some.mp hs
      split_ifs at heq with hdev
      · cases heq
        exact .verifying hi hdev
      · cases heq
        exact .notVerifying hi hdev
  | testEnded i =>
      obtain ⟨⟨hi, hmux⟩, heq⟩ := Option.ite_none_right_eq_some.mp hs
      split_ifs at heq with hended
      · cases heq
        exact .ended hi hmux hended
      · cases heq
        exact .notEnded hi hmux (by simpa using hended)
  | send i =>
      obtain ⟨hi, heq⟩ := Option.ite_none_right_eq_some.mp hs
      obtain ⟨c, hc, heq⟩ := Option.bind_eq_some_iff.mp heq
      split at heq
      · next chans hsend =>
          cases heq
          exact .send hi hc hsend
      · cases heq
      · next hsend =>
          cases heq
          exact .sendClosed hi hc hsend
  | endTx =>
      obtain ⟨hmux, heq⟩ := Option.ite_none_right_eq_some.mp hs
      split_ifs at heq with hended
      · cases heq
        exact .wasEnded hmux hended
      · cases heq
        exact .endTx hmux (by simpa using hended)
  | endGive =>
      obtain ⟨hmux, heq⟩ := Option.ite_none_right_eq_some.mp hs
      cases heq
      exact .endGive hmux
  | endMark =>
      obtain ⟨hmux, heq⟩ := Option.ite_none_right_eq_some.mp hs
      cases heq
      exact .endMark hmux
  | endClose => exact next_of_endClose hs
  | setLockState l =>
      cases hs
      exact .setLockState

/-! ## What token delivery takes -/

/-- The daemon has not panicked, and nobody waits to send on a closed channel. -/
def Safe (s : CustomSteps) : Prop := s.panicked = false ∧ s.chans.Sound

/-- The step is safe. -/
def SafeStep (s : CustomSteps) (a : CustomStep) : Prop :=
  ∀ s' sent, s.step a = some (s', sent) → s'.Safe

/-- No token goes to a channel that has been closed, and the channel that `end` comes to is there,
is open, and is one where no token waits. -/
def Delivers (s : CustomSteps) : CustomStep → Prop
  | .send i => s.tokens i = .tested → ∀ c, s.chanPasswd = some c → s.chans.closed c = false
  | .endClose => s.ending = some .marked →
      ∃ c, s.chanPasswd = some c ∧ s.chans.closed c = false ∧ ¬ s.chans.Awaited c
  | _ => True

theorem safe_new (lockState : LockState) : (new lockState).Safe := ⟨rfl, Rendezvous.sound_make⟩

/-- **The step lemma**: a step that delivers is safe. -/
theorem Safe.move (h : s.Safe) {a : CustomStep} (hd : s.Delivers a) (hs : s.move a = some s') :
    s'.Safe := by
  cases next_of_move hs with
  | receive hn hoffer => exact ⟨h.1, Rendezvous.sound_taken h.2⟩
  | send hi hc hsend => exact ⟨h.1, Rendezvous.sound_send h.2 hsend⟩
  | sendClosed hi hc hsend =>
      rw [Rendezvous.send_of_open (hd hi _ hc)] at hsend
      cases hsend
  | endClose hmux hc hclose =>
      obtain ⟨c, hc', hopen, hfree⟩ := hd hmux
      cases hc.symm.trans hc'
      rw [Rendezvous.close_of_open hopen] at hclose
      cases hclose
      exact ⟨h.1, (Rendezvous.sound_close_iff h.2).mpr hfree⟩
  | closePanics hmux hclose =>
      obtain ⟨c, hc, hopen, -⟩ := hd hmux
      exact absurd (Rendezvous.close_of_open hopen) (hclose c hc _)
  | _ => exact h

theorem Safe.step (h : s.Safe) {a : CustomStep} {sent : List Given} (hd : s.Delivers a)
    (hs : s.step a = some (s', sent)) : s'.Safe := by
  unfold CustomSteps.step at hs
  rw [if_neg (by simp [h.1])] at hs
  obtain ⟨ht, rfl⟩ := observed_eq_some.mp hs
  refine Safe.move (s := { s with sent := [] }) h ?_ ht
  cases a <;> exact hd

/-- A step that is safe delivers. -/
theorem SafeStep.delivers (hsafe : s.Safe) {a : CustomStep} (h : s.SafeStep a) : s.Delivers a := by
  have hstep : ∀ t, move { s with sent := [] } a = some t → t.Safe := by
    intro t ht
    refine h t t.sent ?_
    rw [CustomSteps.step, if_neg (by simp [hsafe.1]), ht]
    rfl
  cases a with
  | send i =>
      intro hi c hc
      by_contra hclosed
      have hpanic : s.chans.send i c = .panics := Rendezvous.send_of_closed (by simpa using hclosed)
      have hsend : move { s with sent := [] } (.send i) =
          some { s with sent := [], panicked := true } := by
        simp only [CustomSteps.move, send, if_pos hi, hc, Option.bind_some, hpanic]
      exact absurd (hstep _ hsend).1 nofun
  | endClose =>
      intro hmarked
      rcases hc : s.chanPasswd with _ | c
      · have hclose : move { s with sent := [] } .endClose =
            some { s with sent := [], panicked := true } := by
          simp only [CustomSteps.move, endClose, hmarked, hc]
          rfl
        exact absurd (hstep _ hclose).1 nofun
      · rcases hopen : s.chans.closed c with _ | _
        · have hclose : move { s with sent := [] } .endClose =
              some { s with
                sent := [], chans.closed := Function.update s.chans.closed c true, ending := none } := by
            simp only [CustomSteps.move, endClose, hmarked, hc, Rendezvous.close_of_open hopen]
            rfl
          exact ⟨c, rfl, hopen, (Rendezvous.sound_close_iff hsafe.2).mp (hstep _ hclose).2⟩
        · have hclose : move { s with sent := [] } .endClose =
              some { s with sent := [], panicked := true } := by
            simp only [CustomSteps.move, endClose, hmarked, hc, Rendezvous.close_of_closed hopen]
            rfl
          exact absurd (hstep _ hclose).1 nofun
  | _ => trivial

/-- **When tokens are delivered.** In every run of a custom transaction no token is sent on a closed
channel, none waits there, and no channel is closed twice or before it is made, exactly when no call
of `SetToken` comes to a channel that has been closed, and `end` comes to an open channel where no
token waits. -/
theorem safe_iff (lockState : LockState) (acts : List CustomStep) :
    Along step SafeStep (new lockState) acts ↔ Along step Delivers (new lockState) acts := by
  constructor
  · exact Along.of_invariant (I := Safe)
      (fun _ _ _ _ hinv hsafe hs => hinv.step (hsafe.delivers hinv) hs)
      (fun _ _ hinv hsafe => hsafe.delivers hinv) (safe_new lockState)
  · exact Along.of_invariant (I := Safe) (fun _ _ _ _ hinv hd hs => hinv.step hd hs)
      (fun _ _ hinv hd _ _ hs => hinv.step hd hs) (safe_new lockState)

end CustomSteps

/-! ## Both kinds -/

/-- **When token delivery never hits a closed channel.** In every run of a password transaction and
of a custom one, with any number of starts, of calls of `SetToken` and of `end`, no token is sent on
a closed channel and none waits there, and nothing else panics, exactly when no call comes to a
channel that has been closed, no channel is closed where a token waits or before it is made, and a
start that calls `authenticate` of a session, and its goroutine, find one that has been started. -/
theorem delivery_safe_iff (type0 : AuthType) (lockState : LockState) :
    (∀ acts : List PasswordStep,
      Along PasswordSteps.step PasswordSteps.SafeStep (.new type0 lockState) acts ↔
        Along PasswordSteps.step PasswordSteps.Delivers (.new type0 lockState) acts) ∧
    ∀ acts : List CustomStep,
      Along CustomSteps.step CustomSteps.SafeStep (.new lockState) acts ↔
        Along CustomSteps.step CustomSteps.Delivers (.new lockState) acts :=
  ⟨PasswordSteps.safe_iff type0 lockState, CustomSteps.safe_iff lockState⟩

/-- A start that nothing comes in between. -/
def PasswordSteps.startAlone (k : ℕ) : List PasswordStep :=
  [.check, .authenticate, .newPamSession k, .callStart k, .start k, .pamStart k true,
    .callAuthenticate k, .testStarted k, .giveStarted k, .doAuth k]

/-- A password that is being verified, a token that PAM has taken and is judging, and a second one
that waits behind it. -/
def twoTokens : List PasswordStep :=
  PasswordSteps.startAlone 1 ++ [.prompt 1, .testId 1, .give 1, .readChan 1] ++
    [.setToken 0, .testDevState 0, .takeSession 0, .send 0, .receive 1 0] ++
    [.setToken 1, .testDevState 1, .takeSession 1, .send 1]

/-- The second token waits, for both kinds, when `end` closes its channel. -/
theorem second_token_panics :
    ¬ ((∀ (type0 : AuthType) (lockState : LockState) (acts : List PasswordStep),
        Along PasswordSteps.step PasswordSteps.SafeStep (.new type0 lockState) acts) ∧
      ∀ (lockState : LockState) (acts : List CustomStep),
        Along CustomSteps.step CustomSteps.SafeStep (.new lockState) acts) := by
  rintro ⟨h, -⟩
  have hend := (h .password .unlock (twoTokens ++ [.endTx 0] ++ [.endSession 0])).of_run rfl
  exact nomatch (hend _ _ rfl).2 1 ⟨1, rfl⟩

end LingmoAuthenticate.Session
