import LingmoAuthenticate.Session.Attempts

/-!
# What a step does to a password attempt

How a step moves the goroutines and the starts of a password transaction, what it does to the PAM
sessions and the session id, and what it gives that a controller counts. Each is said once for all
steps, and what holds along runs is derived from it.

* `PasswordSteps.PamMoves`, `PasswordSteps.pams_move`: the moves of the goroutines.
* `PasswordSteps.StartMoves`, `PasswordSteps.starts_move`: the moves of the starts.
* `PasswordSteps.sessionId_move`, `PasswordSteps.session_move`, `PasswordSteps.id_move`: the session
  id, the session in place, and the ids of the sessions.
* `PasswordSteps.given_move`: what a step gives.
-/

namespace LingmoAuthenticate.Session

open Lib AuthCommon

/-- After a status a goroutine has none at hand. -/
theorem PamNext.toPhase_ne_giving (next next' : PamNext) (v : VerifyStatus) :
    next.toPhase ≠ .giving v next' := by
  cases next <;> nofun

namespace PasswordSteps

variable {s s' : PasswordSteps} {a : PasswordStep} {sent : List Given}

/-- A step, as long as the daemon lives. -/
theorem step_eq_some :
    s.step a = some (s', sent) ↔
      s.panicked = false ∧ move { s with sent := [] } a = some s' ∧ sent = s'.sent :=
  guarded_eq_some

/-! ## The goroutines -/

/-- How a step moves a goroutine: it begins, converses with PAM, tests its session before each
status and gives or drops it, and goes on, waits for a token, or returns. -/
inductive PamMoves (s : PasswordSteps) (n : ℕ) : PasswordStep → PamPhase → PamPhase → Prop
  | dropStarted {p o} (h : s.starts n = .testing o) : PamMoves s n (.testStarted n) p .spawned
  | giveStarted {p o} (h : s.starts n = .giving o) : PamMoves s n (.giveStarted n) p .spawned
  | doAuth : PamMoves s n (.doAuth n) .spawned .conversing
  | prompt : PamMoves s n (.prompt n) .conversing
      (.testing (newVerifyStatus .prompt false "Password: ") .waiting)
  | textInfo {msg} : PamMoves s n (.textInfo n msg) .conversing
      (.testing (newVerifyStatus .prompt false msg) .conversing)
  | judge {ok : Bool} : PamMoves s n (.judge n ok) .conversing
      (.testing (newVerifyStatus (if ok then .success else .failure) true "") .returned)
  | pass {v next} (h : ((s.sessionOf n).id : ℤ) = s.sessionId) :
      PamMoves s n (.testId n) (.testing v next) (.giving v next)
  | drop {v next} (h : ((s.sessionOf n).id : ℤ) ≠ s.sessionId) :
      PamMoves s n (.testId n) (.testing v next) next.toPhase
  | give {v next} : PamMoves s n (.give n) (.giving v next) next.toPhase
  | readChan {c} : PamMoves s n (.readChan n) .reading (.waiting c)
  | receive {i c} : PamMoves s n (.receive n i) (.waiting c) .conversing
  | receiveClosed {c} : PamMoves s n (.receiveClosed n) (.waiting c) .conversing

theorem setPam_pams (s : PasswordSteps) (k n : ℕ) (p : PamPhase) :
    (s.setPam k p).pams n = s.pams n ∨ n = k ∧ (s.setPam k p).pams n = p := by
  by_cases h : n = k
  · exact .inr ⟨h, h ▸ Function.update_self ..⟩
  · exact .inl (Function.update_of_ne h ..)

/-- **The moves of the goroutines.** -/
theorem pams_move (hs : s.move a = some s') (n : ℕ) :
    s'.pams n = s.pams n ∨ s.PamMoves n a (s.pams n) (s'.pams n) := by
  have hset : ∀ (t : PasswordSteps) (k : ℕ) (p : PamPhase), t.pams = s.pams →
      s.PamMoves k a (s.pams k) p →
      (t.setPam k p).pams n = s.pams n ∨ s.PamMoves n a (s.pams n) ((t.setPam k p).pams n) := by
    intro t k p ht hmoves
    rcases setPam_pams t k n p with h | ⟨rfl, h⟩
    · exact .inl (h.trans (congrFun ht n))
    · exact .inr (h.symm ▸ hmoves)
  cases next_of_move hs with
  | dropStarted hk hid => exact hset _ _ _ rfl (.dropStarted hk)
  | giveStarted hk => exact hset _ _ _ rfl (.giveStarted hk)
  | doAuth hn hcore => exact hset _ _ _ rfl (hn ▸ .doAuth)
  | prompt hn => exact hset _ _ _ rfl (hn ▸ .prompt)
  | textInfo hn => exact hset _ _ _ rfl (hn ▸ .textInfo)
  | judge hn => exact hset _ _ _ rfl (hn ▸ .judge)
  | pass hn hid => exact hset _ _ _ rfl (hn ▸ .pass hid)
  | drop hn hid => exact hset _ _ _ rfl (hn ▸ .drop hid)
  | give hn => exact hset _ _ _ rfl (hn ▸ .give)
  | readChan hn hch => exact hset _ _ _ rfl (hn ▸ .readChan)
  | receive hn hi hoffer => exact hset _ _ _ rfl (hn ▸ .receive)
  | receiveClosed hn hclosed => exact hset _ _ _ rfl (hn ▸ .receiveClosed)
  | _ => exact .inl rfl

/-- A goroutine begins at the end of its start, with the session that the start has found, and has
that session from then on. -/
theorem targets_move (hs : s.move a = some s') (n : ℕ) :
    s'.targets n = s.targets n ∧ (s.pams n = .idle → s'.pams n = .idle) ∨
      ∃ o, (s.starts n = .testing o ∨ s.starts n = .giving o) ∧ s'.starts n = .returned ∧
        s'.targets n = o ∧ s'.pams n = .spawned := by
  have hspawn : ∀ (t : PasswordSteps) (k o : ℕ), t.targets = s.targets → t.pams = s.pams →
      s.starts k = .testing o ∨ s.starts k = .giving o →
      (t.spawn k o).targets n = s.targets n ∧ (s.pams n = .idle → (t.spawn k o).pams n = .idle) ∨
        ∃ o', (s.starts n = .testing o' ∨ s.starts n = .giving o') ∧
          (t.spawn k o).starts n = .returned ∧ (t.spawn k o).targets n = o' ∧
          (t.spawn k o).pams n = .spawned := by
    intro t k o ht hp hk
    by_cases hnk : n = k
    · subst hnk
      exact .inr ⟨o, hk, Function.update_self .., Function.update_self .., Function.update_self ..⟩
    · exact .inl ⟨(Function.update_of_ne hnk ..).trans (congrFun ht n),
        fun hidle => (Function.update_of_ne hnk ..).trans ((congrFun hp n).trans hidle)⟩
  have hset : ∀ (t : PasswordSteps) (k : ℕ) (p : PamPhase), t.pams = s.pams →
      s.pams k ≠ .idle → s.pams n = .idle → (t.setPam k p).pams n = .idle := by
    intro t k p ht hk hidle
    have hnk : n ≠ k := fun h => hk (h ▸ hidle)
    exact (Function.update_of_ne hnk ..).trans ((congrFun ht n).trans hidle)
  cases next_of_move hs with
  | dropStarted hk hid => exact hspawn _ _ _ rfl rfl (.inl hk)
  | giveStarted hk => exact hspawn _ _ _ rfl rfl (.inr hk)
  | doAuth hn | prompt hn | textInfo hn | judge hn | pass hn | drop hn | give hn | readChan hn
    | receive hn | receiveClosed hn => exact .inl ⟨rfl, hset _ _ _ rfl (by simp [hn])⟩
  | _ => exact .inl ⟨rfl, id⟩

/-! ## The starts -/

/-- How a step moves a start: from the counting of the ids over the session that it puts in place,
and the one that it then finds there, to PAM and the status `Started`. -/
inductive StartMoves (s : PasswordSteps) (k : ℕ) :
    PasswordStep → PasswordStartPhase → PasswordStartPhase → Prop
  | authenticate {p} (h : k = s.nextSessionId + 1) : StartMoves s k .authenticate p .counted
  | newPamSession : StartMoves s k (.newPamSession k) .counted .published
  | callStart {o} (h : s.session = some o) :
      StartMoves s k (.callStart k) .published (.entered o s.nextSessionId)
  | start {o id} : StartMoves s k (.start k) (.entered o id) (.made o)
  | pamStart {o ok} :
      StartMoves s k (.pamStart k ok) (.made o) (if ok then .started else .returned)
  | callAuthenticate {o} (h : s.session = some o) :
      StartMoves s k (.callAuthenticate k) .started (.testing o)
  | passStarted {o} : StartMoves s k (.testStarted k) (.testing o) (.giving o)
  | dropStarted {o} : StartMoves s k (.testStarted k) (.testing o) .returned
  | giveStarted {o} : StartMoves s k (.giveStarted k) (.giving o) .returned

theorem setStart_starts (s : PasswordSteps) (j k : ℕ) (p : PasswordStartPhase) :
    (s.setStart j p).starts k = s.starts k ∨ k = j ∧ (s.setStart j p).starts k = p := by
  by_cases h : k = j
  · exact .inr ⟨h, h ▸ Function.update_self ..⟩
  · exact .inl (Function.update_of_ne h ..)

/-- **The moves of the starts.** -/
theorem starts_move (hs : s.move a = some s') (k : ℕ) :
    s'.starts k = s.starts k ∨ s.StartMoves k a (s.starts k) (s'.starts k) := by
  have hset : ∀ (t : PasswordSteps) (j : ℕ) (p : PasswordStartPhase), t.starts = s.starts →
      s.StartMoves j a (s.starts j) p →
      (t.setStart j p).starts k = s.starts k ∨
        s.StartMoves k a (s.starts k) ((t.setStart j p).starts k) := by
    intro t j p ht hmoves
    rcases setStart_starts t j k p with h | ⟨rfl, h⟩
    · exact .inl (h.trans (congrFun ht k))
    · exact .inr (h.symm ▸ hmoves)
  cases next_of_move hs with
  | authenticate hpos => exact hset _ _ _ rfl (.authenticate rfl)
  | @newPamSession j hj =>
      exact hset (setSession { s with session := some j } j Session.newPamSession) _ _ rfl
        (hj ▸ .newPamSession)
  | callStart hj hsession => exact hset _ _ _ rfl (hj ▸ .callStart hsession)
  | start hj => exact hset (s.setSession _ _) _ _ rfl (hj ▸ .start)
  | pamStart hj => exact hset (s.setSession _ _) _ _ rfl (hj ▸ .pamStart)
  | callAuthenticate hj hsession hresult => exact hset _ _ _ rfl (hj ▸ .callAuthenticate hsession)
  | passStarted hj hid => exact hset _ _ _ rfl (hj ▸ .passStarted)
  | @dropStarted j o hj hid =>
      exact hset { s with targets := Function.update s.targets j o } _ _ rfl (hj ▸ .dropStarted)
  | @giveStarted j o hj =>
      exact hset { s.giveStatus o defaultVerifyStatusStarted with
        targets := Function.update s.targets j o } _ _ rfl (hj ▸ .giveStarted)
  | _ => exact .inl rfl

/-! ## The session in place -/

/-- A start counts on and takes the session id, and a session id that is reset is none. -/
theorem sessionId_move (hs : s.move a = some s') :
    a ≠ .authenticate ∧ s'.nextSessionId = s.nextSessionId ∧
        (s'.sessionId = s.sessionId ∨ ∃ j o, a = .endReset j ∧ s.ends j = .given o) ∨
      a = .authenticate ∧ 0 < s.checked ∧ s'.nextSessionId = s.nextSessionId + 1 ∧
        s'.sessionId = (s.nextSessionId + 1 : ℕ) := by
  cases next_of_move hs with
  | authenticate hpos => exact .inr ⟨rfl, hpos, rfl, rfl⟩
  | @endReset j o hj => exact .inl ⟨by simp, rfl, .inr ⟨j, o, rfl, hj⟩⟩
  | _ => exact .inl ⟨by simp, rfl, .inl rfl⟩

/-- A new session is put in place by a start. -/
theorem session_move (hs : s.move a = some s') :
    s'.session = s.session ∧ (∀ k, a ≠ .newPamSession k) ∨
      ∃ k, a = .newPamSession k ∧ s.starts k = .counted ∧ s'.session = some k := by
  cases next_of_move hs with
  | @newPamSession k hk => exact .inr ⟨k, rfl, hk, rfl⟩
  | _ => exact .inl ⟨rfl, by simp⟩

/-- The id that a session has is given to it by a start. -/
theorem id_move (hs : s.move a = some s') (o : ℕ) :
    (s'.sessions o).id = (s.sessions o).id ∧ (∀ k id, a = .start k → s.starts k ≠ .entered o id) ∨
      a = .newPamSession o ∧ s.starts o = .counted ∨
      ∃ k id, a = .start k ∧ s.starts k = .entered o id ∧ (s'.sessions o).id = id := by
  have hset : ∀ (t : PasswordSteps) (o' : ℕ) (p : PamSessionSteps), t.sessions = s.sessions →
      (o = o' → p.id = (s.sessions o').id) →
      ((t.setSession o' p).sessions o).id = (s.sessions o).id := by
    intro t o' p ht hp
    by_cases ho : o = o'
    · subst ho
      exact (congrArg PamSessionSteps.id (Function.update_self o p t.sessions)).trans (hp rfl)
    · exact (congrArg PamSessionSteps.id (Function.update_of_ne ho ..)).trans
        (congrArg PamSessionSteps.id (congrFun ht o))
  cases next_of_move hs with
  | @newPamSession k hk =>
      by_cases ho : o = k
      · subst ho
        exact .inr (.inl ⟨rfl, hk⟩)
      · exact .inl ⟨hset _ k _ rfl fun h => absurd h ho, by simp⟩
  | @start k o' id hk =>
      by_cases ho : o = o'
      · subst ho
        refine .inr (.inr ⟨k, id, rfl, hk, ?_⟩)
        exact congrArg PamSessionSteps.id (Function.update_self o _ s.sessions)
      · refine .inl ⟨hset _ o' _ rfl fun h => absurd h ho, ?_⟩
        rintro j id' ⟨⟩ hj
        cases hk.symm.trans hj
        exact ho rfl
  | pamStart hk => exact .inl ⟨hset _ _ _ rfl fun _ => rfl, by simp⟩
  | receive hn hi hoffer => exact .inl ⟨hset _ _ _ rfl fun _ => rfl, by simp⟩
  | sendNone hi hmux hch => exact .inl ⟨hset _ _ _ rfl fun _ => rfl, by simp⟩
  | send hi hmux hch hsend => exact .inl ⟨hset _ _ _ rfl fun _ => rfl, by simp⟩
  | endSession hj hended hch hclose => exact .inl ⟨hset _ _ _ rfl fun _ => rfl, by simp⟩
  | _ => exact .inl ⟨rfl, by simp⟩

/-- **What a step gives**: a verdict or a prompt of a goroutine, or what no controller counts. -/
theorem given_move (hsent : s.sent = []) (hs : s.move a = some s') :
    Quiet (isOutcome a) s'.sent ∨
      ∃ n v next, a = .give n ∧ s.pams n = .giving v next ∧ s'.sent = [⟨s.targets n, v⟩] ∧
        s'.devState = statusCodeToDevState v.s ∧ s'.pams n = next.toPhase := by
  have hnone : ∀ t : PasswordSteps, t.sent = s.sent → Quiet (isOutcome a) t.sent :=
    fun t ht => quiet_of_eq_nil (ht.trans hsent)
  cases next_of_move hs with
  | giveStarted hk => exact .inl ((hnone s rfl).append rfl rfl)
  | @give n v next hn =>
      refine .inr ⟨n, v, next, rfl, hn, ?_, rfl, Function.update_self ..⟩
      show s.sent ++ [⟨s.targets n, v⟩] = _
      rw [hsent, List.nil_append]
  | endGive hj => exact .inl ((hnone s rfl).append rfl rfl)
  | @setLockState l => exact .inl (quiet_notifyLock hsent l)
  | _ => exact .inl (hnone _ rfl)

end PasswordSteps

end LingmoAuthenticate.Session
