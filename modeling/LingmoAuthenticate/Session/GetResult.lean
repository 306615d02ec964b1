import LingmoAuthenticate.Session.Session

/-!
# The result that a master reads

A session as its manager keeps it for a privileged master: every aggregate status that is emitted,
by the controller or by `endAll`, is noted in `statusResult`, which `GetResult` reads. A call of
`End` for the whole session is taken apart into the steps between which verdicts, other calls and
the timers may come.

* `Controller.receive_verdict`: the aggregate statuses of a round are verdicts.
* `ResultManager.Stable`: `GetResult` tells a privileged master the last verdict.
* `ResultManager.stable_iff`: along every run, exactly when no `End` emits its status after a
  success.
* `ResultManager.end_after_success`: such an end, in the time that a session has with `manualQuit`.
-/

namespace LingmoAuthenticate.Session

open Lib AuthCommon

/-- The aggregate statuses that a round of either controller emits are successes and failures. -/
theorem Controller.receive_verdict {translate : String → String} {c c' : Controller}
    {tx : VirtualTx} {o : LoopOrders} {calls : List ProxyCall}
    (h : c.receive translate tx o = some (c', calls)) {s : StatusCode} {msg : String}
    (hcall : .emitStatus allAuthenticationFlag s msg ∈ calls) : s = .success ∨ s = .failure := by
  have hflag : ∀ t : AuthType, allAuthenticationFlag ≠ (authTypeToFlag t : ℤ) := by
    intro t
    unfold allAuthenticationFlag
    omega
  obtain ⟨kind, t, _ | status⟩ := tx
  · rw [receive_none, Option.some.injEq, Prod.mk.injEq] at h
    rw [← h.2] at hcall
    cases hcall
  cases c with
  | normal g =>
      simp only [receive, NormalVerify.receive, Option.some.injEq, Prod.mk.injEq] at h
      obtain ⟨-, rfl⟩ := h
      split_ifs at hcall with hign hres
      · simp [hflag] at hcall
      · simp only [List.cons_append, List.nil_append, List.mem_cons, ProxyCall.emitStatus.injEq,
          hflag, false_and, reduceCtorEq, true_and, false_or, or_false, List.not_mem_nil] at hcall
        exact hcall.1 ▸ hres
      · simp [hflag] at hcall
  | multi m =>
      obtain ⟨r, hr, heq⟩ := Option.map_eq_some_iff.mp h
      cases heq
      unfold MultiFactorVerify.receive at hr
      dsimp only at hr
      split_ifs at hr with hign
      · cases hr
        simp [hflag] at hcall
      · obtain ⟨m', -, rfl⟩ := Option.map_eq_some_iff.mp hr
        split_ifs at hcall with hres
        · simp only [List.cons_append, List.nil_append, List.mem_cons, ProxyCall.emitStatus.injEq,
            hflag, false_and, reduceCtorEq, true_and, false_or, or_false, List.not_mem_nil] at hcall
          exact hcall.1 ▸ hres.symm
        · simp [hflag] at hcall

/-! ## The manager -/

/-- Source: `session/manager_ifc.go`, `quitMethod`. -/
inductive QuitMethod where
  | autoQuit
  | manualQuit
  deriving DecidableEq, Repr

/-- Source: `session/manager_ifc.go`, `Manager.SetQuitFlag`. -/
def QuitMethod.ofMethod (method : ℤ) : Option QuitMethod :=
  if method = 0 then some .autoQuit else if method = 1 then some .manualQuit else none

/-- Source: `session/manager_ifc.go`, `result`. -/
inductive Result where
  | pass
  | fail
  | unavailable
  deriving DecidableEq, Repr

/-- Where a call of `End` for the whole session stands: before its status is chosen, before it is
emitted, before the controller is ended, or before the session quits. -/
inductive EndCallPhase where
  | idle
  | called
  | chosen (status : VerifyStatus)
  | emitted (status : VerifyStatus)
  | ended
  | returned
  deriving DecidableEq, Repr

/-- A session with what its manager keeps of its result; `timers` are those that quit it later. One
field is not part of the program: `verdict` is the last one that the controller has emitted.
Source: `session/manager.go`, `Manager`. -/
structure ResultManager where
  session : SessionState
  quitMethod : QuitMethod
  finalResultGiven : Bool
  statusResult : StatusCode
  isStarted : Bool
  canceled : Bool
  quited : Bool
  timers : ℕ
  ends : ℕ → EndCallPhase
  verdict : Option StatusCode

/-- What happens to a session; a call of `End` for the whole session is known by a number, and of a
start the transactions have actions of their own, so that what is left of it is the prompt that it
may emit. -/
inductive ResultAction where
  | tx (t : AuthType) (a : TxAction)
  | receive (o : LoopOrders)
  | start (prompt : Option String)
  | endAll (j : ℕ)
  | chooseStatus (j : ℕ)
  | emitEnd (j : ℕ)
  | endController (j : ℕ)
  | quitAfterEnd (j : ℕ)
  | quitTimer
  | quit
  | setQuitFlag (method : ℤ)

namespace ResultManager

/-- Source: `session/manager.go`, `newManager`. -/
def new (session : SessionState) : ResultManager :=
  ⟨session, .autoQuit, false, .failure, false, false, false, 0, fun _ => .idle, none⟩

/-- A status is emitted and noted, under `signalMu`.
Source: `session/manager_ifc.go`, `Manager.emitSignalStatus`. -/
def emitSignalStatus (m : ResultManager) (authType : ℤ) (status : StatusCode) : ResultManager :=
  if authType = allAuthenticationFlag ∧ status ≠ .prompt then
    { m with
      finalResultGiven := true
      statusResult := if status = .success then .success else .failure }
  else m

/-- A call of the controller. Source: `verify.go`, `signalProxy`, as the manager implements it. -/
def proxy (m : ResultManager) : ProxyCall → ResultManager
  | .emitStatus authType status _ =>
      let m := if authType = allAuthenticationFlag ∧ (status = .success ∨ status = .failure) then
        { m with verdict := some status } else m
      m.emitSignalStatus authType status
  | .updateLimits _ _ => m

/-- What `GetResult` returns to the master whose program is found, if it is.
Source: `session/manager_ifc.go`, `Manager.GetResult`. -/
def getResult (m : ResultManager) (master : Option String) (queryPrivileges : String → Bool) :
    Result :=
  match master with
  | none => .unavailable
  | some master =>
      if queryPrivileges master then
        if m.statusResult = .success then .pass else .fail
      else .unavailable

/-- A call of `End` goes on. -/
def setEnd (m : ResultManager) (j : ℕ) (p : EndCallPhase) : ResultManager :=
  { m with ends := Function.update m.ends j p }

/-- The session quits once. Source: `session/manager.go`, `Manager.endAll`, its last part. -/
def quitAfterEnd (m : ResultManager) : ResultManager :=
  if m.canceled then m
  else match m.quitMethod with
    | .autoQuit => { m with quited := true, canceled := true }
    | .manualQuit => { m with timers := m.timers + 1, canceled := true }

/-- One step. Source: `session/manager.go` and `session/manager_ifc.go`. -/
def move (translate : String → String) (m : ResultManager) : ResultAction → Option ResultManager
  | .tx t a => (m.session.step translate (.tx t a)).map fun r => { m with session := r.1 }
  | .receive o => (m.session.step translate (.receive o)).map fun r =>
      (r.2.map Prod.snd).foldl proxy { m with session := r.1 }
  | .start prompt =>
      some { prompt.elim m fun msg => m.proxy (.emitStatus allAuthenticationFlag .prompt msg) with
        isStarted := true }
  | .endAll j => if m.ends j = .idle ∧ m.quited = false then some (m.setEnd j .called) else none
  | .chooseStatus j =>
      if m.ends j = .called then
        some (m.setEnd j (.chosen
          (if m.finalResultGiven then defaultVerifyStatusEnd else newVerifyStatus .cancel true "")))
      else none
  | .emitEnd j =>
      match m.ends j with
      | .chosen status =>
          some ((m.emitSignalStatus allAuthenticationFlag status.s).setEnd j (.emitted status))
      | _ => none
  | .endController j =>
      match m.ends j with
      | .emitted status => (m.session.step translate (.endAll status.s)).map fun r =>
          ((r.2.map Prod.snd).foldl proxy { m with session := r.1 }).setEnd j .ended
      | _ => none
  | .quitAfterEnd j => if m.ends j = .ended then some (m.quitAfterEnd.setEnd j .returned) else none
  | .quitTimer =>
      if 0 < m.timers then some { m with timers := m.timers - 1, quited := true } else none
  | .quit =>
      if m.quited then none
      else some (if m.isStarted = false ∨ m.session.ended then { m with quited := true } else m)
  | .setQuitFlag method =>
      if m.quited then none
      else some ((QuitMethod.ofMethod method).elim m fun q => { m with quitMethod := q })

/-- One step, with nothing observed: results are read from the state. -/
def step (translate : String → String) (m : ResultManager) (a : ResultAction) :
    Option (ResultManager × Unit) :=
  (m.move translate a).map fun m => (m, ())

/-! ## When the result is stable -/

/-- While the session can be reached, a privileged master is told the last verdict. -/
def Stable (m : ResultManager) : Prop :=
  m.quited = false → ∀ v, m.verdict = some v →
    ∀ master queryPrivileges, queryPrivileges master = true →
      (m.getResult (some master) queryPrivileges = .pass ↔ v = .success)

/-- The step leads to a stable result. -/
def StableStep (translate : String → String) (m : ResultManager) (a : ResultAction) : Prop :=
  ∀ m' o, m.step translate a = some (m', o) → m'.Stable

/-- No call of `End` comes to its status after a success. -/
def EndsWithoutSuccess (m : ResultManager) : ResultAction → Prop
  | .emitEnd j => ∀ status, m.ends j = .chosen status → m.quited = false → m.statusResult ≠ .success
  | _ => True

/-- The result that is noted is that of the last verdict, and the calls of `End` have chosen
statuses of their own. -/
structure Inv (m : ResultManager) : Prop where
  noted : m.quited = false → (m.statusResult = .success ↔ m.verdict = some .success)
  chosen : ∀ j status, m.ends j = .chosen status → status.s = .ended ∨ status.s = .cancel

theorem inv_new (session : SessionState) : (new session).Inv where
  noted := fun _ => ⟨fun h => (nomatch h), fun h => (nomatch h)⟩
  chosen := fun _ _ h => nomatch h

variable {m m' : ResultManager} {translate : String → String}

/-- What a privileged master is told. -/
theorem getResult_eq_pass {master : String} {queryPrivileges : String → Bool}
    (h : queryPrivileges master = true) :
    m.getResult (some master) queryPrivileges = .pass ↔ m.statusResult = .success := by
  unfold getResult
  dsimp only
  rw [if_pos h]
  split_ifs with hs <;> simp [hs]

/-- A result that is noted is told. -/
theorem Inv.stable (h : m.Inv) : m.Stable := by
  intro hq v hv master queryPrivileges hprivileged
  rw [getResult_eq_pass hprivileged, h.noted hq, hv, Option.some.injEq]

/-- A call of `End` goes on without a status. -/
theorem Inv.setEnd (h : m.Inv) {j : ℕ} {p : EndCallPhase}
    (hp : ∀ status, p = .chosen status → status.s = .ended ∨ status.s = .cancel) :
    (m.setEnd j p).Inv := by
  refine ⟨h.noted, ?_⟩
  intro i status hi
  unfold ResultManager.setEnd at hi
  dsimp only at hi
  by_cases hij : i = j
  · rw [hij, Function.update_self] at hi
    exact hp status hi
  · rw [Function.update_of_ne hij] at hi
    exact h.chosen i status hi

/-- A verdict is noted, and other statuses of the controller are not. -/
theorem Inv.proxy (h : m.Inv) {call : ProxyCall}
    (hcall : ∀ s msg, call = .emitStatus allAuthenticationFlag s msg →
      s = .success ∨ s = .failure ∨ s = .prompt) : (m.proxy call).Inv := by
  rcases call with ⟨f, s, msg⟩ | _
  · by_cases hf : f = allAuthenticationFlag
    · subst hf
      rcases hcall s msg rfl with rfl | rfl | rfl
      · exact ⟨fun _ => iff_of_true rfl rfl, h.chosen⟩
      · exact ⟨fun _ => iff_of_false nofun nofun, h.chosen⟩
      · exact h
    · have hsame : m.proxy (.emitStatus f s msg) = m := by
        unfold ResultManager.proxy emitSignalStatus
        dsimp only
        rw [if_neg fun hs => hf hs.1, if_neg fun hs => hf hs.1]
      exact hsame.symm ▸ h
  · exact h

/-- The calls of a round, one by one. -/
theorem Inv.proxies (h : m.Inv) {calls : List ProxyCall}
    (hcalls : ∀ s msg, .emitStatus allAuthenticationFlag s msg ∈ calls →
      s = .success ∨ s = .failure ∨ s = .prompt) : (calls.foldl ResultManager.proxy m).Inv := by
  induction calls generalizing m with
  | nil => exact h
  | cons call calls ih =>
      refine ih (h.proxy ?_) ?_
      · intro s msg hcall
        exact hcalls s msg (hcall ▸ List.mem_cons_self ..)
      · intro s msg hcall
        exact hcalls s msg (List.mem_cons_of_mem _ hcall)

/-- Another state of the session. -/
theorem Inv.withSession (h : m.Inv) (session : SessionState) : Inv { m with session := session } :=
  ⟨h.noted, h.chosen⟩

/-- A session that has quit keeps what it is. -/
theorem Inv.quitAfterEnd (h : m.Inv) : m.quitAfterEnd.Inv := by
  unfold ResultManager.quitAfterEnd
  split_ifs
  · exact h
  · split
    · exact ⟨fun hq => (nomatch hq), h.chosen⟩
    · exact ⟨h.noted, h.chosen⟩

/-- **The step lemma**: a step that emits no status of `End` after a success keeps the result. -/
theorem Inv.step (h : m.Inv) {a : ResultAction} {o : Unit} (ha : m.EndsWithoutSuccess a)
    (hs : m.step translate a = some (m', o)) : m'.Inv := by
  obtain ⟨ht, rfl⟩ := observed_eq_some.mp hs
  cases a with
  | tx t a =>
      obtain ⟨r, -, rfl⟩ := Option.map_eq_some_iff.mp ht
      exact h.withSession r.1
  | receive order =>
      obtain ⟨⟨session, calls⟩, hr, rfl⟩ := Option.map_eq_some_iff.mp ht
      refine (h.withSession session).proxies ?_
      intro s msg hcall
      cases SessionState.next_of_step hr with
      | receive _ hrec =>
          simp only [List.map_map, Function.comp_def, List.map_id'] at hcall
          rcases Controller.receive_verdict hrec hcall with hv | hv
          · exact .inl hv
          · exact .inr (.inl hv)
  | start prompt =>
      cases ht
      rcases prompt with _ | msg
      · exact ⟨h.noted, h.chosen⟩
      · exact ⟨h.noted, h.chosen⟩
  | endAll j =>
      simp only [ResultManager.move, Option.ite_none_right_eq_some, Option.some.injEq] at ht
      obtain ⟨-, rfl⟩ := ht
      exact h.setEnd fun _ hp => nomatch hp
  | chooseStatus j =>
      simp only [ResultManager.move, Option.ite_none_right_eq_some, Option.some.injEq] at ht
      obtain ⟨-, rfl⟩ := ht
      refine h.setEnd ?_
      intro status hp
      cases hp
      split_ifs
      · exact .inl rfl
      · exact .inr rfl
  | emitEnd j =>
      simp only [ResultManager.move] at ht
      split at ht
      · next status hstatus =>
          cases ht
          have hfail : m.emitSignalStatus allAuthenticationFlag status.s =
              { m with finalResultGiven := true, statusResult := .failure } := by
            unfold emitSignalStatus
            rcases h.chosen j status hstatus with hs | hs <;> rw [hs] <;> rfl
          rw [hfail]
          have hnoted : Inv { m with finalResultGiven := true, statusResult := .failure } := by
            refine ⟨fun hq => iff_of_false nofun fun hv => ?_, h.chosen⟩
            -- no success has been noted, and so none was the last verdict
            exact ha status hstatus hq ((h.noted hq).mpr hv)
          exact hnoted.setEnd (p := .emitted status) fun _ hp => nomatch hp
      · cases ht
  | endController j =>
      simp only [ResultManager.move] at ht
      split at ht
      · next status hstatus =>
          obtain ⟨⟨session, calls⟩, hr, rfl⟩ := Option.map_eq_some_iff.mp ht
          refine Inv.setEnd ((h.withSession session).proxies ?_) (by rintro _ ⟨⟩)
          intro s msg hcall
          cases SessionState.next_of_step hr with
          | wasEnded => cases hcall
          | ended =>
              unfold Controller.endCalls at hcall
              split at hcall
              · cases hcall
              · split_ifs at hcall <;> simp at hcall
      · cases ht
  | quitAfterEnd j =>
      simp only [ResultManager.move, Option.ite_none_right_eq_some, Option.some.injEq] at ht
      obtain ⟨-, rfl⟩ := ht
      exact h.quitAfterEnd.setEnd fun _ hp => nomatch hp
  | quitTimer =>
      simp only [ResultManager.move, Option.ite_none_right_eq_some, Option.some.injEq] at ht
      obtain ⟨-, rfl⟩ := ht
      exact ⟨fun hq => (nomatch hq), h.chosen⟩
  | quit =>
      simp only [ResultManager.move, Option.ite_none_left_eq_some, Option.some.injEq] at ht
      obtain ⟨-, rfl⟩ := ht
      split_ifs
      · exact ⟨fun hq => (nomatch hq), h.chosen⟩
      · exact h
  | setQuitFlag method =>
      simp only [ResultManager.move, Option.ite_none_left_eq_some, Option.some.injEq] at ht
      obtain ⟨-, rfl⟩ := ht
      rcases QuitMethod.ofMethod method with _ | q
      · exact h
      · exact ⟨h.noted, h.chosen⟩

/-- A status of `End` after a success turns the result into a failure. -/
theorem StableStep.endsWithoutSuccess (h : m.Inv) {a : ResultAction}
    (ha : m.StableStep translate a) : m.EndsWithoutSuccess a := by
  cases a with
  | emitEnd j =>
      intro status hstatus hq hsuccess
      have hstep : m.step translate (.emitEnd j) =
          some ((m.emitSignalStatus allAuthenticationFlag status.s).setEnd j (.emitted status), ()) := by
        simp only [ResultManager.step, ResultManager.move, hstatus]
        rfl
      have hfail : m.emitSignalStatus allAuthenticationFlag status.s =
          { m with finalResultGiven := true, statusResult := .failure } := by
        unfold emitSignalStatus
        rcases h.chosen j status hstatus with hs | hs <;> rw [hs] <;> rfl
      have hverdict := (h.noted hq).mp hsuccess
      rw [hfail] at hstep
      have hpass := (ha _ _ hstep hq .success hverdict "" (fun _ => true) rfl).mpr rfl
      exact nomatch (getResult_eq_pass rfl).mp hpass
  | _ => trivial

/-- **When the result is stable.** In every run of a session, with either controller, a privileged
master is told the last verdict exactly when no call of `End` for the whole session emits its status
while the session can be reached and has noted a success. -/
theorem stable_iff (translate : String → String) (available : AuthType → Bool)
    (locks : AuthType → LockState) (c : Controller) (acts : List ResultAction) :
    Along (step translate) (StableStep translate) (new (.start available locks c)) acts ↔
      Along (step translate) EndsWithoutSuccess (new (.start available locks c)) acts := by
  constructor
  · exact Along.of_invariant (I := Inv)
      (fun _ _ _ _ hinv hstable hs => hinv.step (hstable.endsWithoutSuccess hinv) hs)
      (fun _ _ hinv hstable => hstable.endsWithoutSuccess hinv) (inv_new _)
  · exact Along.of_invariant (I := Inv) (fun _ _ _ _ hinv ha hs => hinv.step ha hs)
      (fun _ _ hinv ha _ _ hs => (hinv.step ha hs).stable) (inv_new _)

/-- A password that is right, in a session that does not quit by itself, and the end of the
session. -/
def passThenEnd : List ResultAction :=
  [.setQuitFlag 1, .start none, .tx .password (.password (.authenticate true)),
    .tx .password (.password (.doAuth ⟨1, 1⟩ true)), .receive .listed, .receive .listed,
    .endAll 0, .chooseStatus 0]

/-- After a successful authentication, an end turns what the master is told into a failure. -/
theorem end_after_success :
    ¬ ∀ (translate : String → String) (available : AuthType → Bool) (locks : AuthType → LockState)
      (c : Controller) (acts : List ResultAction),
      Along (step translate) (StableStep translate) (new (.start available locks c)) acts := by
  intro h
  have hend := (h id (fun t => t = .password) (fun _ => .unlock) (.normal (.start [.password]))
    (passThenEnd ++ [.emitEnd 0])).of_run rfl
  have hpass := (hend _ _ rfl rfl .success rfl "" (fun _ => true) rfl).mpr rfl
  exact absurd hpass (by decide)

end ResultManager

end LingmoAuthenticate.Session
