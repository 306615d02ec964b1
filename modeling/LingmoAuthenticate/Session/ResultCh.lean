import LingmoAuthenticate.Lib.Chan
import LingmoAuthenticate.Lib.Machine
import LingmoAuthenticate.Session.Status

/-!
# The result channel and the end of a session

A transaction that gives a status calls `sendStatus`, which asks whether the session has ended and
then sends. Ending the session marks it as ended and then closes the channel. All of this runs in
goroutines of its own, step by step; the channel takes ten statuses, and its listener only starts
with the first `authenticate`.

* `ResultCh.Safe`: no send on the closed channel has been executed, and none is pending.
* `ResultCh.SafeStep.closesQuietly`: a step that keeps this does not close the channel while a send
  is pending.
* `ResultCh.send_safe_iff`: in every run, no send hits the closed channel exactly when `end` never
  closes it between the two halves of a `sendStatus`.
* `ResultCh.never_started_panics`: a session that is ended without a start.
-/

namespace LingmoAuthenticate.Session

open Lib AuthCommon

/-- The two controllers. Source: `normal_verify.go` and `multifactor_verify.go`. -/
inductive ControllerKind where
  | normal
  | multi
  deriving DecidableEq, Repr

/-- Where a call of `sendStatus` stands: `tested` has found that the session has not ended, and is
about to send. -/
inductive SendPhase where
  | idle
  | called (tx : VirtualTx)
  | tested (tx : VirtualTx)
  | returned
  deriving DecidableEq, Repr

/-- Where a call of `end` for the whole session stands: it is about to test whether the session has
ended, to mark it, to have the limits updated, or to close the channel. -/
inductive EndAllPhase where
  | idle
  | called (s : StatusCode)
  | tested (s : StatusCode)
  | marked (s : StatusCode)
  | closing
  | returned
  deriving DecidableEq, Repr

/-- The session has been marked, and the channel is not closed yet. -/
def EndAllPhase.isMarked : EndAllPhase → Bool
  | .marked _ | .closing => true
  | _ => false

/-- Where `listenResultCh` stands: it has not been started, waits for the channel, is in a round
with what it has received, or has found the channel closed and returned. -/
inductive ListenPhase where
  | idle
  | waiting
  | handling (tx : VirtualTx)
  | returned
  deriving DecidableEq, Repr

/-- A controller as those see it that use its channel; `panicked` tells of a send on the closed
channel, which ends the daemon.
Source: `normal_verify.go`, `normalVerify`, and `multifactor_verify.go`, `multiFactorVerify`. -/
structure ResultCh where
  kind : ControllerKind
  ended : Bool
  resultCh : Chan VirtualTx 10
  listener : ListenPhase
  sends : ℕ → SendPhase
  ends : ℕ → EndAllPhase
  panicked : Bool

/-- The steps of the loop over the channel, of the calls of `sendStatus` and of those of `end`,
which tests and sets the mark, updates the limits, and closes the channel; the calls are known by
numbers. -/
inductive ResultChAction where
  | authenticate
  | listen
  | handled
  | sendStatus (i : ℕ) (tx : VirtualTx)
  | testEnded (i : ℕ)
  | send (i : ℕ)
  | endAll (j : ℕ) (s : StatusCode)
  | testEnd (j : ℕ)
  | markEnded (j : ℕ)
  | updateLimits (j : ℕ)
  | close (j : ℕ)
  deriving DecidableEq, Repr

namespace ResultCh

/-- Source: `normal_verify.go`, `newNormalVerify`, and `multifactor_verify.go`,
`newMultiFactorVerify`. -/
def new (kind : ControllerKind) : ResultCh :=
  ⟨kind, false, .make _ _, .idle, fun _ => .idle, fun _ => .idle, false⟩

/-- The controller with a call of `sendStatus` at another step. -/
def setSend (s : ResultCh) (i : ℕ) (p : SendPhase) : ResultCh :=
  { s with sends := Function.update s.sends i p }

/-- The controller with a call of `end` at another step. -/
def setEnd (s : ResultCh) (j : ℕ) (p : EndAllPhase) : ResultCh :=
  { s with ends := Function.update s.ends j p }

/-- The first call starts the listener.
Source: `normal_verify.go` and `multifactor_verify.go`, `authenticate`, under `once`. -/
def authenticate (s : ResultCh) : ResultCh :=
  if s.listener = .idle then { s with listener := .waiting } else s

/-- One turn of the listener at the channel.
Source: `normal_verify.go` and `multifactor_verify.go`, `listenResultCh`. -/
def listen (s : ResultCh) : Option ResultCh :=
  match s.listener, s.resultCh.recv with
  | .waiting, .done (some tx, ch) => some { s with listener := .handling tx, resultCh := ch }
  | .waiting, .done (none, _) => some { s with listener := .returned }
  | _, _ => none

/-- The second half of `sendStatus`.
Source: `normal_verify.go` and `multifactor_verify.go`, `sendStatus`. -/
def send (s : ResultCh) (i : ℕ) : Option ResultCh :=
  match s.sends i with
  | .tested tx =>
      match s.resultCh.send tx with
      | .done ch => some ({ s with resultCh := ch }.setSend i .returned)
      | .blocks => none
      | .panics => some { s with panicked := true }
  | _ => none

/-- The limits of a successful session are updated before the channel is closed, by the controller
of several factors alone. Source: `multifactor_verify.go`, `multiFactorVerify.end`. -/
def updatesLimits (s : ResultCh) (status : StatusCode) : Bool :=
  s.kind = .multi && status = .success

/-- Closing the closed channel ends the daemon as well, and is no step.
Source: `normal_verify.go` and `multifactor_verify.go`, `end`. -/
def close (s : ResultCh) (j : ℕ) : Option ResultCh :=
  if s.ends j = .closing then
    s.resultCh.close.toOption.map fun ch => { s with resultCh := ch }.setEnd j .returned
  else none

/-- One step, as long as the daemon lives. Source: `verify.go`, `normal_verify.go` and
`multifactor_verify.go`. -/
def step (s : ResultCh) (a : ResultChAction) : Option (ResultCh × Unit) :=
  if s.panicked then none
  else (match a with
    | .authenticate => some s.authenticate
    | .listen => s.listen
    | .handled =>
        match s.listener with
        | .handling _ => some { s with listener := .waiting }
        | _ => none
    | .sendStatus i tx => if s.sends i = SendPhase.idle then some (s.setSend i (.called tx)) else none
    | .testEnded i =>
        match s.sends i with
        | .called tx => some (s.setSend i (if s.ended then .returned else .tested tx))
        | _ => none
    | .send i => s.send i
    | .endAll j status => if s.ends j = EndAllPhase.idle then some (s.setEnd j (.called status)) else none
    | .testEnd j =>
        match s.ends j with
        | .called status => some (s.setEnd j (if s.ended then .returned else .tested status))
        | _ => none
    | .markEnded j =>
        match s.ends j with
        | .tested status => some ({ s with ended := true }.setEnd j
            (if s.updatesLimits status then .marked status else .closing))
        | _ => none
    | .updateLimits j =>
        match s.ends j with
        | .marked _ => some (s.setEnd j .closing)
        | _ => none
    | .close j => s.close j).map fun s => (s, ())

/-! ## What a send on the closed channel takes -/

/-- A send is pending. -/
def Pending (s : ResultCh) : Prop := ∃ i tx, s.sends i = .tested tx

/-- No send on the closed channel was executed, and none is pending. -/
def Safe (s : ResultCh) : Prop := s.panicked = false ∧ (s.resultCh.closed = true → ¬ s.Pending)

/-- The step is safe. -/
def SafeStep (s : ResultCh) (a : ResultChAction) : Prop :=
  ∀ s' o, s.step a = some (s', o) → s'.Safe

/-- The channel is not closed while a call of `sendStatus` is between its test and its send. -/
def ClosesQuietly (s : ResultCh) : ResultChAction → Prop
  | .close j => s.ends j = .closing → s.resultCh.closed = false → s.panicked = false → ¬ s.Pending
  | _ => True

/-- What keeps a controller safe: the channel is closed only after the session was marked, and a
call of `end` that has come past the marking has marked it. -/
structure Inv (s : ResultCh) : Prop where
  safe : s.Safe
  closed : s.resultCh.closed = true → s.ended = true
  marked : ∀ j, (s.ends j).isMarked = true → s.ended = true

theorem inv_new (kind : ControllerKind) : (new kind).Inv :=
  ⟨⟨rfl, fun h => (nomatch h)⟩, fun h => (nomatch h), fun _ h => (nomatch h)⟩

/-- A send that is pending after another call went on was pending before. -/
theorem pending_setSend {s : ResultCh} {i : ℕ} {p : SendPhase} (hp : ∀ tx, p ≠ .tested tx)
    (h : (s.setSend i p).Pending) : s.Pending := by
  obtain ⟨j, tx, hj⟩ := h
  unfold setSend at hj
  dsimp only at hj
  by_cases hji : j = i
  · rw [hji, Function.update_self] at hj
    exact absurd hj (hp tx)
  · rw [Function.update_of_ne hji] at hj
    exact ⟨j, tx, hj⟩

/-- A call of `sendStatus` that goes on without a send becoming pending. -/
theorem Inv.setSend {s : ResultCh} (h : s.Inv) {i : ℕ} {p : SendPhase}
    (hp : ∀ tx, p = .tested tx → s.ended = false) : (s.setSend i p).Inv := by
  refine ⟨⟨h.safe.1, ?_⟩, h.closed, h.marked⟩
  intro hclosed hpend
  refine h.safe.2 hclosed (pending_setSend ?_ hpend)
  intro tx htx
  have hended := h.closed hclosed
  rw [hp tx htx] at hended
  cases hended

/-- A call of `end` that goes on. -/
theorem Inv.setEnd {s : ResultCh} (h : s.Inv) {j : ℕ} {p : EndAllPhase}
    (hp : p.isMarked = true → s.ended = true) : (s.setEnd j p).Inv := by
  refine ⟨h.safe, h.closed, ?_⟩
  intro j' hj'
  unfold ResultCh.setEnd at hj'
  dsimp only at hj'
  by_cases hjj : j' = j
  · rw [hjj, Function.update_self] at hj'
    exact hp hj'
  · rw [Function.update_of_ne hjj] at hj'
    exact h.marked j' hj'

/-- **The step lemma**: only a channel that is closed while a send is pending ends the safety. -/
theorem Inv.step {s s' : ResultCh} (h : s.Inv) {a : ResultChAction} {o : Unit}
    (hq : s.ClosesQuietly a) (hs : s.step a = some (s', o)) : s'.Inv := by
  unfold ResultCh.step at hs
  rw [if_neg (by simp [h.safe.1])] at hs
  obtain ⟨ht, rfl⟩ := observed_eq_some.mp hs
  cases a with
  | authenticate =>
      cases ht
      unfold authenticate
      split_ifs
      · exact ⟨h.safe, h.closed, h.marked⟩
      · exact h
  | listen =>
      simp only [listen] at ht
      split at ht
      · next hrecv =>
          cases ht
          have hclosed := Chan.recv_closed hrecv
          exact ⟨⟨h.safe.1, fun hc => h.safe.2 (hclosed ▸ hc)⟩, fun hc => h.closed (hclosed ▸ hc),
            h.marked⟩
      · cases ht
        exact ⟨h.safe, h.closed, h.marked⟩
      · cases ht
  | handled =>
      simp only at ht
      split at ht <;> cases ht
      exact ⟨h.safe, h.closed, h.marked⟩
  | sendStatus i tx =>
      simp only [Option.ite_none_right_eq_some, Option.some.injEq] at ht
      obtain ⟨-, rfl⟩ := ht
      exact h.setSend fun _ htx => (nomatch htx)
  | testEnded i =>
      simp only at ht
      split at ht <;> cases ht
      refine h.setSend ?_
      intro tx htx
      split_ifs at htx with hended
      simpa using hended
  | send i =>
      simp only [send] at ht
      split at ht
      · next tx htx =>
          split at ht
          · next ch hsend =>
              cases ht
              obtain ⟨hopen, -, hclosed⟩ := Chan.send_eq_done hsend
              have hstill : ch.closed = false := hclosed.trans hopen
              have hsent : Inv { s with resultCh := ch } := by
                refine ⟨⟨h.safe.1, ?_⟩, ?_, h.marked⟩
                · intro hc
                  exact absurd hc (by simp [hstill])
                · intro hc
                  exact absurd hc (by simp [hstill])
              exact hsent.setSend fun _ hp => (nomatch hp)
          · cases ht
          · next hpanic =>
              -- a send that is pending finds the channel open
              exact absurd ⟨i, tx, htx⟩ (h.safe.2 (Chan.send_eq_panics.mp hpanic))
      · cases ht
  | endAll j status =>
      simp only [Option.ite_none_right_eq_some, Option.some.injEq] at ht
      obtain ⟨-, rfl⟩ := ht
      exact h.setEnd fun hp => (nomatch hp)
  | testEnd j =>
      simp only at ht
      split at ht <;> cases ht
      refine h.setEnd ?_
      intro hp
      split_ifs at hp <;> cases hp
  | markEnded j =>
      simp only at ht
      split at ht <;> cases ht
      have hmarked : Inv { s with ended := true } := ⟨h.safe, fun _ => rfl, fun _ _ => rfl⟩
      exact hmarked.setEnd fun _ => rfl
  | updateLimits j =>
      simp only at ht
      split at ht
      · next status hmarked =>
          cases ht
          exact h.setEnd fun _ => h.marked j (by rw [hmarked]; rfl)
      · cases ht
  | close j =>
      simp only [close, Option.ite_none_right_eq_some, Option.map_eq_some_iff] at ht
      obtain ⟨hclosing, ch, hch, rfl⟩ := ht
      obtain ⟨ch', hdone⟩ : ∃ ch', s.resultCh.close = .done ch' := by
        rcases hc : s.resultCh.close with ch' | _ | _ <;> rw [hc] at hch
        · exact ⟨ch', rfl⟩
        · cases hch
        · cases hch
      obtain ⟨hopen, -, -⟩ := Chan.close_eq_done hdone
      have hended := h.marked j (by rw [hclosing]; rfl)
      have hclosed : Inv { s with resultCh := ch } :=
        ⟨⟨h.safe.1, fun _ => hq hclosing hopen h.safe.1⟩, fun _ => hended, h.marked⟩
      exact hclosed.setEnd fun hp => (nomatch hp)

/-- A safe step has closed no channel under a pending send. -/
theorem SafeStep.closesQuietly {s : ResultCh} {a : ResultChAction} (h : s.SafeStep a) :
    s.ClosesQuietly a := by
  cases a with
  | close j =>
      intro hclosing hopen hlive hpend
      have hclose : s.close j =
          some ({ s with resultCh := { s.resultCh with closed := true } }.setEnd j .returned) := by
        unfold close Chan.close
        rw [if_pos hclosing, hopen]
        rfl
      have hstep : s.step (.close j) =
          some ({ s with resultCh := { s.resultCh with closed := true } }.setEnd j .returned, ()) := by
        unfold step
        rw [if_neg (by simp [hlive])]
        exact congrArg (Option.map fun s => (s, ())) hclose
      exact (h _ _ hstep).2 rfl hpend
  | _ => trivial

/-- **When the controller never sends on its closed channel.** In every run of either controller,
with any number of calls of `sendStatus` and of `end`, no send on the closed channel is executed or
pending exactly when `end` never closes the channel between the two halves of a `sendStatus`. -/
theorem send_safe_iff (kind : ControllerKind) (acts : List ResultChAction) :
    Along step SafeStep (new kind) acts ↔ Along step ClosesQuietly (new kind) acts := by
  constructor
  · exact fun h => h.imp fun _ _ => SafeStep.closesQuietly
  · intro h
    refine Along.of_invariant (I := Inv) (fun _ _ _ _ hinv hq hs => hinv.step hq hs) ?_
      (inv_new kind) h
    intro s a hinv hq s' o hs
    exact (hinv.step hq hs).safe

/-- A lock that a transaction tells of. -/
def lockTold : VirtualTx := ⟨.password, .password, some (newVerifyStatus .locked true "")⟩

/-- Statuses that fill the channel before anybody listens, and one more that waits for room. -/
def fillWithoutListener : List ResultChAction :=
  (List.range 10).flatMap (fun i => [.sendStatus i lockTold, .testEnded i, .send i]) ++
    [.sendStatus 10 lockTold, .testEnded 10]

/-- A session that is ended without ever having been started closes its channel under the eleventh
status. -/
theorem never_started_panics :
    ¬ ∀ kind acts, Along step SafeStep (new kind) acts := by
  intro h
  have hclose := (h .normal ((fillWithoutListener ++
    [.endAll 0 .cancel, .testEnd 0, .markEnded 0]) ++ [.close 0])).of_run rfl
  exact (hclose _ _ rfl).2 rfl ⟨10, lockTold, rfl⟩

end ResultCh

end LingmoAuthenticate.Session
