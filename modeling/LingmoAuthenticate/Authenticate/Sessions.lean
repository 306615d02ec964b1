import LingmoAuthenticate.Authenticate.Lockout

/-!
# What one action of the service does to a session

The actions of a service are taken apart by what they do to one of its sessions.

* `Service.control_step`: the controller moves when it receives a status, and the calls of its round
  are made one by one; no other action touches either.
* `ServedSession.Live`: a success of a factor can still be received, or the factor is to be started.
* `Service.live_step`: a factor becomes live when its limit is asked for a start, and never
  otherwise.
-/

namespace LingmoAuthenticate.Session

open Lib AuthCommon

/-- A success of the factor can still be reported, or is in the channel. -/
def SessionState.MayReport (s : SessionState) (t : AuthType) : Prop :=
  (∃ tx, s.txs t = some tx ∧ tx.MayReport) ∨ ∃ q ∈ s.resultCh, q.tx.type0 = t ∧ q.tx.succeeded = true

/-- A call on a transaction makes no other factor one that can report, and its own only as a
start. -/
theorem SessionState.mayReport_tx {translate : String → String} {s s' : SessionState}
    {u t : AuthType} {a : TxAction} {calls : List (ℕ × ProxyCall)}
    (hs : s.step translate (.tx u a) = some (s', calls)) (h : s'.MayReport t) :
    s.MayReport t ∨ (t = u ∧ a.isStart = true) := by
  obtain @⟨_, _, tx, tx', sent, htx, hstep⟩ := next_of_step hs
  have hself : SuccessIn sent ∨ tx'.MayReport → s.MayReport u ∨ a.isStart = true := by
    intro h
    cases ha : a.isStart with
    | true => exact .inr rfl
    | false => exact .inl (.inl ⟨tx, htx, Tx.mayReport_step hstep ha h⟩)
  rcases h with ⟨tx'', htx'', h⟩ | ⟨q, hq, hqt, hqs⟩
  · simp only [sendStatus_txs] at htx''
    by_cases htu : t = u
    · subst htu
      rw [Function.update_self, Option.some.injEq] at htx''
      exact (hself (.inr (htx'' ▸ h))).imp id fun ha => ⟨rfl, ha⟩
    · rw [Function.update_of_ne htu] at htx''
      exact .inl (.inl ⟨tx'', htx'', h⟩)
  · unfold sendStatus at hq
    split_ifs at hq with hended
    · exact .inl (.inr ⟨q, hq, hqt, hqs⟩)
    · rcases List.mem_append.mp hq with hq | hq
      · exact .inl (.inr ⟨q, hq, hqt, hqs⟩)
      · obtain ⟨g, hg, rfl⟩ := List.mem_map.mp hq
        have hsuccess : g.status.s = .success := by simpa [VirtualTx.succeeded] using hqs
        subst hqt
        exact (hself (.inl ⟨g, hg, hsuccess⟩)).imp id fun ha => ⟨rfl, ha⟩

end LingmoAuthenticate.Session

namespace LingmoAuthenticate.Authenticate

open Lib AuthCommon Limits Session

/-- A start has asked for the factor and has still to come to it. -/
def ServedSession.ToStart (p : ServedSession) (t : AuthType) : Prop :=
  (∃ r ∈ p.answers, r.type0 = t ∧ r.starts = true) ∨ 0 < p.starting t

/-- A success of the factor can still be received, or the factor is to be started. -/
def ServedSession.Live (p : ServedSession) (t : AuthType) : Prop :=
  p.ToStart t ∨ p.state.MayReport t

namespace Service

/-! ## The controller -/

/-- The ways in which an action goes for the controller of the session `j`: it is not touched, its
loop takes a status from the channel and has the calls to make that the controller answers with, or
it makes the first of these calls. -/
inductive Control (translate : String → String) (s : Service) (j : ℕ) :
    ServiceAction → Service → Option ProxyCall → Prop
  | other {a s' o} (ha : a ≠ .call j)
      (hcontroller : (s'.sessions j).state.controller = (s.sessions j).state.controller)
      (hcalls : (s'.sessions j).calls = (s.sessions j).calls)
      (hreceive : ∀ o', a ≠ .receive j o') : Control translate s j a s' o
  | receive {o' q rest c' out s'} (hnone : (s.sessions j).calls = [])
      (hch : (s.sessions j).state.resultCh = q :: rest)
      (hrec : (s.sessions j).state.controller.receive translate q.tx o' = some (c', out))
      (hcontroller : (s'.sessions j).state.controller = c')
      (hcalls : (s'.sessions j).calls = out.map fun c => (q.tx, c)) :
      Control translate s j (.receive j o') s' none
  | call {tx call rest s'} (hbefore : (s.sessions j).calls = (tx, call) :: rest)
      (hcontroller : (s'.sessions j).state.controller = (s.sessions j).state.controller)
      (hcalls : (s'.sessions j).calls = rest) : Control translate s j (.call j) s' (some call)

variable {translate : String → String} {k : UserKey} {s s' : Service} {a : ServiceAction}
  {o : Option ProxyCall} {t u : AuthType} {i j : ℕ}

/-- The action changes one session, and neither its controller nor its calls. -/
theorem Control.of_update {p : ServedSession}
    (hs : s'.sessions = Function.update s.sessions i p)
    (hcontroller : p.state.controller = (s.sessions i).state.controller)
    (hcalls : p.calls = (s.sessions i).calls) (hcall : ∀ j, a ≠ .call j)
    (hreceive : ∀ j o', a ≠ .receive j o') (j : ℕ) : s.Control translate j a s' o := by
  have hsame : (s'.sessions j).state.controller = (s.sessions j).state.controller ∧
      (s'.sessions j).calls = (s.sessions j).calls := by
    rw [hs]
    by_cases hji : j = i
    · subst hji
      rw [Function.update_self]
      exact ⟨hcontroller, hcalls⟩
    · rw [Function.update_of_ne hji]
      exact ⟨rfl, rfl⟩
  exact .other (hcall j) hsame.1 hsame.2 (hreceive j)

/-- An action of a transaction, and the end of a session, leave the controller alone. -/
theorem controller_of_step {p q : SessionState} {act : SessionAction} {calls : List (ℕ × ProxyCall)}
    (hs : p.step translate act = some (q, calls)) (hact : ∀ o', act ≠ .receive o') :
    q.controller = p.controller := by
  cases SessionState.next_of_step hs with
  | tx htx hstep =>
      unfold SessionState.sendStatus
      split_ifs <;> rfl
  | receive hch hrec => exact absurd rfl (hact _)
  | wasEnded => rfl
  | ended => rfl

/-- **What an action does to the controller of a session.** -/
theorem control_step (hs : s.step translate k a = some (s', o)) (j : ℕ) :
    s.Control translate j a s' o := by
  cases a with
  | askLimit i u starts =>
      obtain ⟨hs₁, rfl⟩ := observed_eq_some.mp hs
      obtain ⟨tx, -, hs₁⟩ := Option.bind_eq_some_iff.mp hs₁
      obtain ⟨r, -, rfl⟩ := Option.map_eq_some_iff.mp hs₁
      refine .of_update rfl ?_ ?_ (by simp) (by simp) j
      · rfl
      · rfl
  | noteLimit i n finger camera =>
      obtain ⟨hs₁, rfl⟩ := observed_eq_some.mp hs
      obtain ⟨r, -, hs₁⟩ := Option.bind_eq_some_iff.mp hs₁
      obtain ⟨tx, -, hs₁⟩ := Option.bind_eq_some_iff.mp hs₁
      obtain ⟨q, hq, rfl⟩ := Option.map_eq_some_iff.mp hs₁
      refine .of_update rfl ?_ ?_ (by simp) (by simp) j
      · exact controller_of_step hq (by simp)
      · rfl
  | authenticate i u a =>
      obtain ⟨hs₁, rfl⟩ := observed_eq_some.mp hs
      simp only [authenticate, Option.ite_none_right_eq_some] at hs₁
      obtain ⟨tx, -, hs₁⟩ := Option.bind_eq_some_iff.mp hs₁.2
      split_ifs at hs₁
      · obtain ⟨q, hq, rfl⟩ := Option.map_eq_some_iff.mp hs₁
        refine .of_update rfl ?_ ?_ (by simp) (by simp) j
        · exact controller_of_step hq (by simp)
        · rfl
      · cases hs₁
        refine .of_update rfl ?_ ?_ (by simp) (by simp) j
        · rfl
        · rfl
  | tx i u a =>
      simp only [step, Option.ite_none_left_eq_some] at hs
      obtain ⟨q, hq, heq⟩ := Option.map_eq_some_iff.mp hs.2
      cases heq
      refine .of_update rfl ?_ ?_ (by simp) (by simp) j
      · exact controller_of_step hq (by simp)
      · rfl
  | endAll i finalResultGiven =>
      obtain ⟨q, hq, heq⟩ := Option.map_eq_some_iff.mp hs
      cases heq
      refine .of_update rfl ?_ ?_ (by simp) (by simp) j
      · exact controller_of_step hq (by simp)
      · rfl
  | receive i o' =>
      obtain ⟨hs₁, rfl⟩ := observed_eq_some.mp hs
      unfold receive at hs₁
      dsimp only at hs₁
      split at hs₁
      · next q rest hcalls hch =>
        obtain ⟨⟨state, out⟩, hstep, rfl⟩ := Option.map_eq_some_iff.mp hs₁
        cases SessionState.next_of_step hstep with
        | receive hch' hrec =>
            cases hch.symm.trans hch'
            by_cases hji : j = i
            · subst hji
              refine .receive hcalls hch hrec ?_ ?_
              · simp [setSession]
              · simp [setSession, Function.comp_def]
            · refine .other (fun heq => by cases heq) ?_ ?_ ?_
              · simp [setSession, Function.update_of_ne hji]
              · simp [setSession, Function.update_of_ne hji]
              · intro o'' heq
                cases heq
                exact hji rfl
      · cases hs₁
  | call i =>
      simp only [step] at hs
      split at hs
      · cases hs
      · next c rest hcalls =>
        obtain ⟨m, -, heq⟩ := Option.map_eq_some_iff.mp hs
        cases heq
        by_cases hji : j = i
        · subst hji
          refine .call hcalls ?_ ?_
          · simp [setSession]
          · simp [setSession]
        · refine .other ?_ ?_ ?_ (fun _ heq => by cases heq)
          · intro heq
            cases heq
            exact hji rfl
          · simp [setSession, Function.update_of_ne hji]
          · simp [setSession, Function.update_of_ne hji]
  | ask u =>
      obtain ⟨r, -, heq⟩ := Option.map_eq_some_iff.mp hs
      cases heq
      exact .other (fun heq => by cases heq) rfl rfl (fun _ heq => by cases heq)
  | tick now =>
      cases hs
      exact .other (fun heq => by cases heq) rfl rfl (fun _ heq => by cases heq)

/-! ## What can still succeed -/

/-- A session that has changed, or another one. -/
theorem live_of_update {p : ServedSession} {R : Prop}
    (hs : s'.sessions = Function.update s.sessions i p)
    (hp : i = j → p.Live t → (s.sessions j).Live t ∨ R) (h : (s'.sessions j).Live t) :
    (s.sessions j).Live t ∨ R := by
  rw [hs] at h
  by_cases hji : j = i
  · subst hji
    rw [Function.update_self] at h
    exact hp rfl h
  · rw [Function.update_of_ne hji] at h
    exact .inl h

/-- Asking a limit makes a factor live where it is for a start. -/
theorem live_askLimit {starts : Bool} (hs : s.askLimit k i u starts = some s')
    (h : (s'.sessions j).Live t) :
    (s.sessions j).Live t ∨ (i = j ∧ u = t ∧ starts = true) := by
  obtain ⟨tx, -, hs⟩ := Option.bind_eq_some_iff.mp hs
  obtain ⟨⟨allowed, limits⟩, -, rfl⟩ := Option.map_eq_some_iff.mp hs
  refine live_of_update (s := s) rfl ?_ h
  rintro rfl ((⟨r, hr, hp⟩ | hp) | hp)
  · rcases List.mem_cons.mp hr with rfl | hr
    · exact .inr ⟨rfl, hp⟩
    · exact .inl (.inl (.inl ⟨r, hr, hp⟩))
  · exact .inl (.inl (.inr hp))
  · exact .inl (.inr hp)

/-- Noting an answer makes nothing live: what a start has asked for is to be started already. -/
theorem live_noteLimit {n : ℕ} {finger : DoVerify} {camera : CameraLeave}
    (hs : s.noteLimit translate i n finger camera = some s') (h : (s'.sessions j).Live t) :
    (s.sessions j).Live t := by
  obtain ⟨r, hr, hs⟩ := Option.bind_eq_some_iff.mp hs
  obtain ⟨tx, htx, hs⟩ := Option.bind_eq_some_iff.mp hs
  obtain ⟨⟨state, calls⟩, hlock, rfl⟩ := Option.map_eq_some_iff.mp hs
  have hgoal : (s.sessions j).Live t ∨ False := by
    refine live_of_update (s := s) rfl ?_ h
    rintro rfl ((⟨r', hr', hp⟩ | hp) | hp)
    · exact .inl (.inl (.inl ⟨r', List.mem_of_mem_eraseIdx hr', hp⟩))
    · refine .inl (.inl ?_)
      dsimp only at hp
      split_ifs at hp with hstarts
      · by_cases htu : t = r.type0
        · exact .inl ⟨r, List.mem_of_getElem? hr, htu.symm, hstarts⟩
        · rw [Function.update_of_ne htu] at hp
          exact .inr hp
      · exact .inr hp
    · rcases SessionState.mayReport_tx hlock hp with hp | ⟨-, hstart⟩
      · exact .inl (.inr hp)
      · rw [TxAction.isStart_setLockState] at hstart
        cases hstart
  exact hgoal.resolve_right id

/-- Starting what was to be started makes nothing else live. -/
theorem live_authenticate {act : TxAction} (hs : s.authenticate translate i u act = some s')
    (h : (s'.sessions j).Live t) : (s.sessions j).Live t := by
  simp only [authenticate, Option.ite_none_right_eq_some] at hs
  obtain ⟨⟨hu, hstart⟩, hs⟩ := hs
  obtain ⟨tx, htx, hs⟩ := Option.bind_eq_some_iff.mp hs
  have hstarting : 0 < Function.update (s.sessions i).starting u
      ((s.sessions i).starting u - 1) t → 0 < (s.sessions i).starting t := by
    intro ht
    by_cases htu : t = u
    · exact htu ▸ hu
    · rwa [Function.update_of_ne htu] at ht
  have hgoal : (s.sessions j).Live t ∨ False := by
    split_ifs at hs with hcan
    · obtain ⟨⟨state, calls⟩, hstep, rfl⟩ := Option.map_eq_some_iff.mp hs
      refine live_of_update (s := s) rfl ?_ h
      rintro rfl ((hp | hp) | hp)
      · exact .inl (.inl (.inl hp))
      · exact .inl (.inl (.inr (hstarting hp)))
      · rcases SessionState.mayReport_tx hstep hp with hp | ⟨rfl, -⟩
        · exact .inl (.inr hp)
        · exact .inl (.inl (.inr hu))
    · cases hs
      refine live_of_update (s := s) rfl ?_ h
      rintro rfl ((hp | hp) | hp)
      · exact .inl (.inl (.inl hp))
      · exact .inl (.inl (.inr (hstarting hp)))
      · exact .inl (.inr hp)
  exact hgoal.resolve_right id

/-- **A factor becomes live when its limit is asked for a start.** -/
theorem live_step (hs : s.step translate k a = some (s', o)) (h : (s'.sessions j).Live t) :
    (s.sessions j).Live t ∨ a = .askLimit j t true := by
  cases a with
  | askLimit i u starts =>
      obtain ⟨hs₁, rfl⟩ := observed_eq_some.mp hs
      refine (live_askLimit hs₁ h).imp_right ?_
      rintro ⟨rfl, rfl, rfl⟩
      rfl
  | noteLimit i n finger camera =>
      obtain ⟨hs₁, rfl⟩ := observed_eq_some.mp hs
      exact .inl (live_noteLimit hs₁ h)
  | authenticate i u a =>
      obtain ⟨hs₁, rfl⟩ := observed_eq_some.mp hs
      exact .inl (live_authenticate hs₁ h)
  | tx i u a =>
      simp only [step, Option.ite_none_left_eq_some, Bool.or_eq_true, not_or,
        Bool.not_eq_true] at hs
      obtain ⟨⟨hstart, hlock⟩, hs⟩ := hs
      obtain ⟨⟨state, calls⟩, hstep, heq⟩ := Option.map_eq_some_iff.mp hs
      cases heq
      refine live_of_update (s := s) rfl ?_ h
      rintro rfl (hp | hp)
      · exact .inl (.inl hp)
      · rcases SessionState.mayReport_tx hstep hp with hp | ⟨-, hp⟩
        · exact .inl (.inr hp)
        · rw [hstart] at hp
          cases hp
  | endAll i finalResultGiven =>
      obtain ⟨⟨state, calls⟩, hstep, heq⟩ := Option.map_eq_some_iff.mp hs
      cases heq
      refine live_of_update (s := s) rfl ?_ h
      rintro rfl hp
      refine .inl (hp.imp_right ?_)
      cases SessionState.next_of_step hstep with
      | wasEnded => exact id
      | ended => exact id
  | receive i o' =>
      obtain ⟨hs₁, rfl⟩ := observed_eq_some.mp hs
      unfold receive at hs₁
      dsimp only at hs₁
      split at hs₁
      · next q rest hcalls hch =>
        obtain ⟨⟨state, calls⟩, hstep, rfl⟩ := Option.map_eq_some_iff.mp hs₁
        refine live_of_update (s := s) rfl ?_ h
        rintro rfl hp
        cases SessionState.next_of_step hstep with
        | receive hch' =>
            cases hch.symm.trans hch'
            refine .inl (hp.imp_right ?_)
            rintro (hp | ⟨q', hq', hp⟩)
            · exact .inl hp
            · exact .inr ⟨q', hch ▸ List.mem_cons_of_mem _ hq', hp⟩
      · cases hs₁
  | call i =>
      simp only [step] at hs
      split at hs
      · cases hs
      · obtain ⟨m, -, heq⟩ := Option.map_eq_some_iff.mp hs
        cases heq
        refine live_of_update (s := s) rfl ?_ h
        rintro rfl hp
        exact .inl hp
  | ask u =>
      obtain ⟨r, -, heq⟩ := Option.map_eq_some_iff.mp hs
      cases heq
      exact .inl h
  | tick now =>
      cases hs
      exact .inl h

/-- Nothing is live in sessions that have just been opened. -/
theorem not_live_start (available : ℕ → AuthType → Bool) (locks : ℕ → AuthType → LockState)
    (c : ℕ → Controller) (limits : LimitTable) (now : ℤ) (j : ℕ) (t : AuthType) :
    ¬ ((start available locks c limits now).sessions j).Live t := by
  have hnew : ∀ kind type0 lockState, ¬ (Tx.new kind type0 lockState).MayReport := by
    intro kind type0 lockState
    cases kind <;> simp [Tx.new, Tx.MayReport, Tx.MaySucceed, PasswordTx.MaySucceed,
      FingerprintTx.MaySucceed, CameraTx.MaySucceed, CustomTx.MaySucceed, PasswordTx.new,
      FingerprintTx.new, CameraTx.new, UKeyTx.new, CustomTx.new]
  rintro ((⟨r, hr, -⟩ | hst) | ⟨tx, htx, h⟩ | ⟨q, hq, -⟩)
  · cases hr
  · cases hst
  · simp only [start, SessionState.start, newTx] at htx
    split_ifs at htx
    cases t <;> cases htx <;> exact absurd h (hnew _ _ _)
  · cases hq

end Service

end LingmoAuthenticate.Authenticate
