import LingmoAuthenticate.Authenticate.Service
import LingmoAuthenticate.Session.FailCount

/-!
# A lockout and the attempts that are already running

A start asks the limits. A result does not: the copy of the lock that a transaction keeps is read
by `authenticate` alone, so that an attempt that was started before its factor was locked is
accepted after it. Nor does a start ask again when it notes its answer, or when a handler notes an
older one over it.

* `Service.Outstanding`: where a success can still come from.
* `Service.NotesFresh`: a yes that is noted for a factor that is to be started still holds.
* `Service.outstanding_step`: then nothing becomes outstanding but under a limit that allows it.
* `Service.lockout_enforced`: where no limit closes under an outstanding attempt either, every
  success is emitted under a limit that allows it.
* `Service.noLockUnder_of_steady`: on the range without overflow, only failures close limits.
* `Service.locked_factor_accepted`: two sessions, in which the failure of one locks the factor that
  the other then succeeds with.
-/

namespace LingmoAuthenticate.Session

open Lib AuthCommon

/-! ## Where a success can still come from -/

/-- The status received is a success. -/
def VirtualTx.succeeded (tx : VirtualTx) : Bool := tx.status.any fun s => s.s = .success

/-- The call emits a success, of a factor or of the whole session. -/
def ProxyCall.emitsSuccess : ProxyCall → Bool
  | .emitStatus _ s _ => s = .success
  | .updateLimits _ _ => false

/-- A success of the factor can still be received: its attempt is outstanding, or about to be
started, or the success is in the channel. -/
def SessionState.Outstanding (s : SessionState) (starting : AuthType → ℕ) (t : AuthType) :
    Prop :=
  (s.ended = false ∧ ∃ tx, s.txs t = some tx ∧
    (tx.MaySucceed ∨ (0 < starting t ∧ tx.base.lockState = .unlock))) ∨
  ∃ q ∈ s.resultCh, q.tx.type0 = t ∧ q.tx.succeeded = true

/-- What is outstanding after a call on a transaction was so before, or the call made it so. -/
theorem SessionState.outstanding_tx {translate : String → String} {s s' : SessionState}
    {u t : AuthType} {a : TxAction} {calls : List (ℕ × ProxyCall)}
    {starting starting' : AuthType → ℕ} {Q : Prop}
    (hs : s.step translate (.tx u a) = some (s', calls))
    (hstart : ∀ t, t ≠ u → starting' t = starting t)
    (hQ : ∀ tx tx' sent, s.txs u = some tx → tx.step a = some (tx', sent) →
      s.ended = false → (SuccessIn sent ∨ tx'.MaySucceed ∨
        (0 < starting' u ∧ tx'.base.lockState = .unlock)) → Q)
    (h : s'.Outstanding starting' t) : s.Outstanding starting t ∨ (t = u ∧ Q) := by
  obtain @⟨_, _, tx, tx', sent, htx, hstep⟩ := next_of_step hs
  rcases h with ⟨hended, tx'', htx'', h⟩ | ⟨q, hq, hqt, hqs⟩
  · simp only [sendStatus_ended, sendStatus_txs] at hended htx''
    by_cases htu : t = u
    · subst htu
      rw [Function.update_self, Option.some.injEq] at htx''
      exact .inr ⟨rfl, hQ tx tx' sent htx hstep hended (.inr (htx'' ▸ h))⟩
    · rw [Function.update_of_ne htu] at htx''
      refine .inl (.inl ⟨hended, tx'', htx'', ?_⟩)
      rwa [hstart t htu] at h
  · unfold sendStatus at hq
    split_ifs at hq with hended
    · exact .inl (.inr ⟨q, hq, hqt, hqs⟩)
    · rcases List.mem_append.mp hq with hq | hq
      · exact .inl (.inr ⟨q, hq, hqt, hqs⟩)
      · obtain ⟨g, hg, rfl⟩ := List.mem_map.mp hq
        refine .inr ⟨hqt.symm, hQ tx tx' sent htx hstep (by simpa using hended) (.inl ⟨g, hg, ?_⟩)⟩
        simpa [VirtualTx.succeeded] using hqs

/-- The driver of the key is sound, or the session has ended and takes no status. -/
def SessionState.DriverSound (s : SessionState) (t : AuthType) (a : TxAction) : Prop :=
  s.ended = false → ∀ tx, s.txs t = some tx → tx.DriverSound a

/-- A call that starts nothing makes nothing outstanding, unless it unlocks what is about to be
started. -/
theorem SessionState.outstanding_call {translate : String → String} {s s' : SessionState}
    {u t : AuthType} {a : TxAction} {calls : List (ℕ × ProxyCall)} {starting : AuthType → ℕ}
    (hs : s.step translate (.tx u a) = some (s', calls)) (hdrv : s.DriverSound u a)
    (hstart : a.isStart = false) (hlock : a.isLock = false)
    (h : s'.Outstanding starting t) : s.Outstanding starting t := by
  have hQ : ∀ tx tx' sent, s.txs u = some tx → tx.step a = some (tx', sent) →
      s.ended = false → (SuccessIn sent ∨ tx'.MaySucceed ∨
        (0 < starting u ∧ tx'.base.lockState = .unlock)) → s.Outstanding starting u := by
    intro tx tx' sent htx hstep hended h
    refine .inl ⟨hended, tx, htx, ?_⟩
    rcases h with h | h | ⟨hst, hl⟩
    · exact .inl (Tx.maySucceed_step (hdrv hended tx htx) hstep hstart (.inl h))
    · exact .inl (Tx.maySucceed_step (hdrv hended tx htx) hstep hstart (.inr h))
    · exact .inr ⟨hst, (Tx.step_lockState hstep hlock) ▸ hl⟩
  rcases outstanding_tx hs (fun _ _ => rfl) hQ h with h | ⟨rfl, h⟩
  · exact h
  · exact h

/-- A start finds what it starts unlocked, so that it was outstanding as about to be started. -/
theorem SessionState.outstanding_start {translate : String → String} {s s' : SessionState}
    {u t : AuthType} {a : TxAction} {calls : List (ℕ × ProxyCall)} {starting : AuthType → ℕ}
    (hs : s.step translate (.tx u a) = some (s', calls)) (hstart : a.isStart = true)
    (hu : 0 < starting u) (h : s'.Outstanding (Function.update starting u (starting u - 1)) t) :
    s.Outstanding starting t := by
  have hQ : ∀ tx tx' sent, s.txs u = some tx → tx.step a = some (tx', sent) →
      s.ended = false → (SuccessIn sent ∨ tx'.MaySucceed ∨
        (0 < Function.update starting u (starting u - 1) u ∧ tx'.base.lockState = .unlock)) →
      s.Outstanding starting u := by
    intro tx tx' sent htx hstep hended _
    exact .inl ⟨hended, tx, htx, .inr ⟨hu, (Tx.step_start hstep hstart).1⟩⟩
  rcases outstanding_tx hs (fun _ ht => Function.update_of_ne ht _ _) hQ h with h | ⟨rfl, h⟩
  · exact h
  · exact h

/-- A start that passes a factor over is not about to start it any more. -/
theorem SessionState.outstanding_passed {s : SessionState} {u t : AuthType}
    {starting : AuthType → ℕ}
    (h : s.Outstanding (Function.update starting u (starting u - 1)) t) :
    s.Outstanding starting t := by
  rcases h with ⟨hended, tx, htx, h | ⟨hst, hl⟩⟩ | hq
  · exact .inl ⟨hended, tx, htx, .inl h⟩
  · refine .inl ⟨hended, tx, htx, .inr ⟨?_, hl⟩⟩
    by_cases htu : t = u
    · subst htu
      rw [Function.update_self] at hst
      omega
    · rwa [Function.update_of_ne htu] at hst
  · exact .inr hq

/-- Of a session that ends, only what is in the channel stays outstanding. -/
theorem SessionState.outstanding_endAll {translate : String → String} {s s' : SessionState}
    {t : AuthType} {status : StatusCode} {calls : List (ℕ × ProxyCall)}
    {starting : AuthType → ℕ} (hs : s.step translate (.endAll status) = some (s', calls))
    (h : s'.Outstanding starting t) : s.Outstanding starting t := by
  cases next_of_step hs with
  | wasEnded => exact h
  | ended => exact .inr (h.resolve_left fun h => by cases h.1)

/-- Noting an answer makes outstanding only a factor that is then about to be started, where the
answer is a yes. -/
theorem SessionState.outstanding_lock {translate : String → String} {s s' : SessionState}
    {u t : AuthType} {tx : Tx} {lock : LockState} {finger : DoVerify} {camera : CameraLeave}
    {calls : List (ℕ × ProxyCall)} {starting starting' : AuthType → ℕ}
    (htx : s.txs u = some tx)
    (hs : s.step translate (.tx u (.setLockState tx.kind lock finger camera)) = some (s', calls))
    (hst : ∀ t, t ≠ u → starting' t = starting t)
    (h : s'.Outstanding starting' t) :
    s.Outstanding starting t ∨ (t = u ∧ lock = .unlock ∧ 0 < starting' u) := by
  have hQ : ∀ tx₀ tx' sent, s.txs u = some tx₀ →
      tx₀.step (.setLockState tx.kind lock finger camera) = some (tx', sent) →
      s.ended = false → (SuccessIn sent ∨ tx'.MaySucceed ∨
        (0 < starting' u ∧ tx'.base.lockState = .unlock)) →
      s.Outstanding starting u ∨ (lock = .unlock ∧ 0 < starting' u) := by
    intro tx₀ tx' sent htx₀ hstep hended h
    obtain rfl := Option.some.inj (htx₀.symm.trans htx)
    have hdrv : tx₀.DriverSound (.setLockState tx₀.kind lock finger camera) := by
      cases tx₀ <;> first | trivial | exact fun _ h => nomatch h
    have hquiet := Tx.maySucceed_step hdrv hstep (TxAction.isStart_setLockState _ _ _ _)
    rcases h with h | h | ⟨hpos, hl⟩
    · exact .inl (.inl ⟨hended, tx₀, htx, .inl (hquiet (.inl h))⟩)
    · exact .inl (.inl ⟨hended, tx₀, htx, .inl (hquiet (.inr h))⟩)
    · rw [Tx.step_setLockState] at hstep
      cases hstep
      exact .inr ⟨by simpa [Tx.locked] using hl, hpos⟩
  rcases outstanding_tx hs hst hQ h with h | ⟨rfl, h | h⟩
  · exact .inl h
  · exact .inl h
  · exact .inr ⟨rfl, h⟩

end LingmoAuthenticate.Session

namespace LingmoAuthenticate.Authenticate

open Lib AuthCommon Limits Session
open Limit (WallClock)

/-- A success of the factor can still be emitted: one can be received, or the round that received
one has it still to emit. -/
def ServedSession.Outstanding (p : ServedSession) (t : AuthType) : Prop :=
  p.state.Outstanding p.starting t ∨
    ∃ c ∈ p.calls, c.1.type0 = t ∧ c.1.succeeded = true ∧ c.2.emitsSuccess = true

namespace Service

/-- A success of the factor can still be emitted by some session. -/
def Outstanding (s : Service) (t : AuthType) : Prop := ∃ i, (s.sessions i).Outstanding t

/-- The action does not take the limit of a factor from allowed to refused while an attempt of the
factor is outstanding. -/
def NoLockUnder (translate : String → String) (k : UserKey) (s : Service) (a : ServiceAction) :
    Prop :=
  ∀ s' o, s.step translate k a = some (s', o) → ∀ t, s'.Outstanding t →
    s.isAllowed k t = true → s'.isAllowed k t = true

/-- Where a yes is noted for a factor that a start is about to start, or that this start asked for,
the limit still allows it. -/
def NotesFresh (k : UserKey) (s : Service) (a : ServiceAction) : Prop :=
  ∀ i n finger camera r, a = .noteLimit i n finger camera → (s.sessions i).answers[n]? = some r →
    r.allowed = true → r.starts = true ∨ 0 < (s.sessions i).starting r.type0 →
    s.isAllowed k r.type0 = true

/-- The service of a key reports a success only while the attempt is neither decided nor ended. -/
def DriverSound (s : Service) (a : ServiceAction) : Prop :=
  ∀ i t act, a = .tx i t act → (s.sessions i).state.DriverSound t act

/-- **Lockout on results**: where a session emits a success, of a factor or of the whole session,
in the round of a success of a factor, the limit of that factor allows a try. -/
def Enforced (k : UserKey) (s : Service) (a : ServiceAction) : Prop :=
  ∀ i tx call rest, a = .call i → (s.sessions i).calls = (tx, call) :: rest →
    tx.succeeded = true → call.emitsSuccess = true → s.isAllowed k tx.type0 = true

/-! ## Nothing becomes outstanding under a closed limit -/

section steps

variable {translate : String → String} {k : UserKey} {s s' : Service} {t u : AuthType} {i : ℕ}

/-- What is outstanding after one session has changed. -/
theorem outstanding_of_update {p : ServedSession} {R : Prop}
    (hs : s'.sessions = Function.update s.sessions i p)
    (hp : p.Outstanding t → (s.sessions i).Outstanding t ∨ R) (h : s'.Outstanding t) :
    s.Outstanding t ∨ R := by
  obtain ⟨j, hj⟩ := h
  rw [hs] at hj
  by_cases hji : j = i
  · subst hji
    rw [Function.update_self] at hj
    exact (hp hj).imp (fun h => ⟨j, h⟩) id
  · rw [Function.update_of_ne hji] at hj
    exact .inl ⟨j, hj⟩

/-- Asking a limit makes nothing outstanding: what is noted counts. -/
theorem outstanding_askLimit {starts : Bool} (hs : s.askLimit k i u starts = some s')
    (h : s'.Outstanding t) : s.Outstanding t := by
  obtain ⟨tx, -, hs⟩ := Option.bind_eq_some_iff.mp hs
  obtain ⟨⟨allowed, limits⟩, -, rfl⟩ := Option.map_eq_some_iff.mp hs
  have hgoal : s.Outstanding t ∨ False := by
    refine outstanding_of_update (s := s) rfl ?_ h
    exact .inl
  exact hgoal.resolve_right id

/-- Noting an answer makes outstanding only a factor that is then about to be started, and where the
answer is fresh the limit allows it. -/
theorem outstanding_noteLimit {n : ℕ} {finger : DoVerify} {camera : CameraLeave}
    (hfresh : s.NotesFresh k (.noteLimit i n finger camera))
    (hs : s.noteLimit translate i n finger camera = some s') (h : s'.Outstanding t) :
    s.Outstanding t ∨ s.isAllowed k t = true := by
  obtain ⟨r, hr, hs⟩ := Option.bind_eq_some_iff.mp hs
  obtain ⟨tx, htx, hs⟩ := Option.bind_eq_some_iff.mp hs
  obtain ⟨⟨state, calls⟩, hlock, rfl⟩ := Option.map_eq_some_iff.mp hs
  refine outstanding_of_update (s := s) rfl ?_ h
  intro hp
  have hst : ∀ t, t ≠ r.type0 → (if r.starts = true then Function.update (s.sessions i).starting
      r.type0 ((s.sessions i).starting r.type0 + 1) else (s.sessions i).starting) t =
        (s.sessions i).starting t := by
    intro t ht
    split_ifs
    · exact Function.update_of_ne ht _ _
    · rfl
  rcases hp with hp | hp
  · rcases SessionState.outstanding_lock htx hlock hst hp with hp | ⟨rfl, hunlock, hpos⟩
    · exact .inl (.inl hp)
    · -- the answer was a yes, and a start is about to start the factor
      right
      have hyes : r.allowed = true := by
        by_contra hno
        rw [LimitAnswer.lockState, if_neg hno] at hunlock
        cases hunlock
      refine hfresh i n finger camera r rfl hr hyes ?_
      split_ifs at hpos with hstarts
      · exact .inl hstarts
      · exact .inr hpos
  · exact .inl (.inr hp)

/-- Starting what was about to be started makes nothing else outstanding. -/
theorem outstanding_authenticate {a : TxAction}
    (hs : s.authenticate translate i u a = some s') (h : s'.Outstanding t) : s.Outstanding t := by
  simp only [authenticate, Option.ite_none_right_eq_some] at hs
  obtain ⟨⟨hu, hstart⟩, hs⟩ := hs
  obtain ⟨tx, htx, hs⟩ := Option.bind_eq_some_iff.mp hs
  have hgoal : s.Outstanding t ∨ False := by
    split_ifs at hs with hcan
    · obtain ⟨⟨state, calls⟩, hstep, rfl⟩ := Option.map_eq_some_iff.mp hs
      refine outstanding_of_update (s := s) rfl (fun hp => .inl ?_) h
      exact hp.imp (SessionState.outstanding_start hstep hstart hu) id
    · cases hs
      refine outstanding_of_update (s := s) rfl (fun hp => .inl ?_) h
      exact hp.imp SessionState.outstanding_passed id
  exact hgoal.resolve_right id

/-- A round takes a success out of the channel to emit it. -/
theorem outstanding_receive {o : LoopOrders} (hs : s.receive translate i o = some s')
    (h : s'.Outstanding t) : s.Outstanding t := by
  unfold receive at hs
  dsimp only at hs
  split at hs
  · next q rest hcalls hch =>
    obtain ⟨⟨state, calls⟩, hstep, rfl⟩ := Option.map_eq_some_iff.mp hs
    have hgoal : s.Outstanding t ∨ False := by
      refine outstanding_of_update (s := s) rfl (fun hp => .inl (.inl ?_)) h
      cases SessionState.next_of_step hstep with
      | receive hch' =>
          cases hch.symm.trans hch'
          rcases hp with (hp | ⟨q', hq', hp⟩) | ⟨c, hc, hct, hcs, -⟩
          · exact .inl hp
          · exact .inr ⟨q', hch ▸ List.mem_cons_of_mem _ hq', hp⟩
          · -- the calls are those of the status that was received
            obtain ⟨c, -, rfl⟩ := List.mem_map.mp hc
            exact .inr ⟨q, hch ▸ List.mem_cons_self, hct, hcs⟩
    exact hgoal.resolve_right id
  · cases hs

/-- Nor does a call of a controller. -/
theorem outstanding_call {o : Option ProxyCall} (hs : s.step translate k (.call i) = some (s', o))
    (h : s'.Outstanding t) : s.Outstanding t := by
  simp only [step] at hs
  split at hs
  · cases hs
  · next c rest hcalls =>
    obtain ⟨m, -, heq⟩ := Option.map_eq_some_iff.mp hs
    cases heq
    have hgoal : s.Outstanding t ∨ False := by
      refine outstanding_of_update (s := s) rfl (fun hp => .inl ?_) h
      refine hp.imp id ?_
      rintro ⟨c', hc', hp⟩
      exact ⟨c', hcalls ▸ List.mem_cons_of_mem _ hc', hp⟩
    exact hgoal.resolve_right id

/-- **Nothing becomes outstanding but under a limit that allows it**, where what is noted is
fresh. -/
theorem outstanding_step {a : ServiceAction} {o : Option ProxyCall} (hfresh : s.NotesFresh k a)
    (hdrv : s.DriverSound a) (hs : s.step translate k a = some (s', o)) (h : s'.Outstanding t) :
    s.Outstanding t ∨ s.isAllowed k t = true := by
  cases a with
  | askLimit i u starts =>
      obtain ⟨hs₁, rfl⟩ := observed_eq_some.mp hs
      exact .inl (outstanding_askLimit hs₁ h)
  | noteLimit i n finger camera =>
      obtain ⟨hs₁, rfl⟩ := observed_eq_some.mp hs
      exact outstanding_noteLimit hfresh hs₁ h
  | authenticate i u a =>
      obtain ⟨hs₁, rfl⟩ := observed_eq_some.mp hs
      exact .inl (outstanding_authenticate hs₁ h)
  | tx i u a =>
      simp only [step, Option.ite_none_left_eq_some, Bool.or_eq_true, not_or,
        Bool.not_eq_true] at hs
      obtain ⟨⟨hstart, hlock⟩, hs⟩ := hs
      obtain ⟨⟨state, calls⟩, hstep, heq⟩ := Option.map_eq_some_iff.mp hs
      cases heq
      refine outstanding_of_update (s := s) rfl (fun hp => .inl ?_) h
      exact hp.imp (SessionState.outstanding_call hstep (hdrv i u a rfl) hstart hlock) id
  | endAll i finalResultGiven =>
      obtain ⟨⟨state, calls⟩, hstep, heq⟩ := Option.map_eq_some_iff.mp hs
      cases heq
      refine outstanding_of_update (s := s) rfl (fun hp => .inl ?_) h
      exact hp.imp (SessionState.outstanding_endAll hstep) id
  | receive i o =>
      obtain ⟨hs₁, rfl⟩ := observed_eq_some.mp hs
      exact .inl (outstanding_receive hs₁ h)
  | call i =>
      exact .inl (outstanding_call hs h)
  | ask u =>
      obtain ⟨r, -, heq⟩ := Option.map_eq_some_iff.mp hs
      cases heq
      exact .inl h
  | tick now =>
      cases hs
      exact .inl h

/-- Whatever is outstanding is allowed. -/
def Covered (k : UserKey) (s : Service) : Prop :=
  ∀ t, s.Outstanding t → s.isAllowed k t = true

/-- Nothing is outstanding in sessions that have just been opened. -/
theorem covered_start (k : UserKey) (available : ℕ → AuthType → Bool)
    (locks : ℕ → AuthType → LockState) (c : ℕ → Controller) (limits : LimitTable) (now : ℤ) :
    (start available locks c limits now).Covered k := by
  have hnew : ∀ kind type0 lockState, ¬ (Tx.new kind type0 lockState).MaySucceed := by
    intro kind type0 lockState
    cases kind <;> simp [Tx.new, Tx.MaySucceed, PasswordTx.MaySucceed, FingerprintTx.MaySucceed,
      CameraTx.MaySucceed, UKeyTx.MaySucceed, CustomTx.MaySucceed, PasswordTx.new,
      FingerprintTx.new, CameraTx.new, UKeyTx.new, CustomTx.new]
  rintro t ⟨i, (⟨-, tx, htx, h | ⟨hst, -⟩⟩ | ⟨q, hq, -⟩) | ⟨c, hc, -⟩⟩
  · simp only [start, SessionState.start, newTx] at htx
    split_ifs at htx
    cases t <;> cases htx <;> exact absurd h (hnew _ _ _)
  · cases hst
  · cases hq
  · cases hc

/-- A step that closes no limit under an outstanding attempt, and notes no stale answer for one that
is to be started, leaves everything covered. -/
theorem covered_step {a : ServiceAction} {o : Option ProxyCall} (hcov : s.Covered k)
    (hlock : s.NoLockUnder translate k a) (hfresh : s.NotesFresh k a) (hdrv : s.DriverSound a)
    (hs : s.step translate k a = some (s', o)) : s'.Covered k := by
  intro t ht
  refine hlock s' o hs t ht ?_
  rcases outstanding_step hfresh hdrv hs ht with h | h
  · exact hcov t h
  · exact h

/-- A success that is about to be emitted is outstanding. -/
theorem Covered.enforced (hcov : s.Covered k) (a : ServiceAction) : s.Enforced k a := by
  rintro i tx call rest - hcalls htx hcall
  exact hcov tx.type0 ⟨i, .inr ⟨(tx, call), hcalls ▸ List.mem_cons_self, rfl, htx, hcall⟩⟩

end steps

/-! ## Only failures close limits -/

/-- The limits of the user and the clock are in the range without overflow. -/
def SteadyLimits (k : UserKey) (s : Service) : Prop :=
  WallClock s.now ∧ s.limits.Steady k s.now

/-- The action is the call that has a failure of the factor charged. -/
def Charges (s : Service) (a : ServiceAction) (t : AuthType) : Prop :=
  ∃ i c rest, a = .call i ∧ (s.sessions i).calls = c :: rest ∧ c.2.charges t = true

/-- Time does not run backwards or out of range, and a failure that is charged under an outstanding
attempt of its factor leaves a try. -/
structure QuietFailure (k : UserKey) (s : Service) (a : ServiceAction) : Prop where
  clock : ∀ now, a = .tick now → s.now ≤ now ∧ WallClock now
  leaves : ∀ t, s.Charges a t → s.Outstanding t →
    ((s.limits.fail k t s.now).getD s.limits).isAllowed k t s.now = true

section steady

variable {translate : String → String} {k : UserKey} {s s' : Service} {a : ServiceAction}
  {o : Option ProxyCall}

/-- What a call of a controller does to the limits. -/
theorem closesOnly_perform {call : ProxyCall} {m : LimitTable} (hw : WallClock s.now)
    (h : s.perform k call = some m) :
    s.limits.ClosesOnly k s.now (fun t => call.charges t = true) m := by
  cases call with
  | emitStatus _ _ _ =>
      cases h
      exact LimitTable.closesOnly_refl _ _ _ _
  | updateLimits status flag =>
      simp only [perform] at h
      split at h
      · cases h
        exact LimitTable.closesOnly_refl _ _ _ _
      · next u hu =>
        obtain ⟨updateType, t⟩ := u
        cases updateType with
        | success =>
            cases h
            exact LimitTable.closesOnly_success hw
        | fail =>
            cases h
            exact LimitTable.closesOnly_fail hw (by simpa [ProxyCall.charges] using hu)
        | resetAll => exact LimitTable.closesOnly_resetLimits hw h

/-- What a step does to the limits, unless it is one of the clock. -/
theorem closesOnly_step (hw : WallClock s.now) (ha : ∀ now, a ≠ .tick now)
    (hs : s.step translate k a = some (s', o)) :
    s'.now = s.now ∧ s.limits.ClosesOnly k s.now (s.Charges a) s'.limits := by
  have hsame := s.limits.closesOnly_refl k s.now (s.Charges a)
  cases a with
  | askLimit i u starts =>
      obtain ⟨hs₁, rfl⟩ := observed_eq_some.mp hs
      obtain ⟨tx, -, hs₁⟩ := Option.bind_eq_some_iff.mp hs₁
      obtain ⟨⟨allowed, limits⟩, hask, rfl⟩ := Option.map_eq_some_iff.mp hs₁
      exact ⟨rfl, LimitTable.closesOnly_allowTx hw hask⟩
  | noteLimit i n finger camera =>
      obtain ⟨hs₁, rfl⟩ := observed_eq_some.mp hs
      obtain ⟨r, -, hs₁⟩ := Option.bind_eq_some_iff.mp hs₁
      obtain ⟨tx, -, hs₁⟩ := Option.bind_eq_some_iff.mp hs₁
      obtain ⟨q, -, rfl⟩ := Option.map_eq_some_iff.mp hs₁
      exact ⟨rfl, hsame⟩
  | authenticate i u a =>
      obtain ⟨hs₁, rfl⟩ := observed_eq_some.mp hs
      simp only [authenticate, Option.ite_none_right_eq_some] at hs₁
      obtain ⟨tx, -, hs₁⟩ := Option.bind_eq_some_iff.mp hs₁.2
      split_ifs at hs₁
      · obtain ⟨q, -, rfl⟩ := Option.map_eq_some_iff.mp hs₁
        exact ⟨rfl, hsame⟩
      · cases hs₁
        exact ⟨rfl, hsame⟩
  | tx i u a =>
      simp only [step, Option.ite_none_left_eq_some] at hs
      obtain ⟨q, -, heq⟩ := Option.map_eq_some_iff.mp hs.2
      cases heq
      exact ⟨rfl, hsame⟩
  | endAll i finalResultGiven =>
      obtain ⟨q, -, heq⟩ := Option.map_eq_some_iff.mp hs
      cases heq
      exact ⟨rfl, hsame⟩
  | receive i o =>
      obtain ⟨hs₁, rfl⟩ := observed_eq_some.mp hs
      unfold receive at hs₁
      dsimp only at hs₁
      split at hs₁
      · obtain ⟨r, -, rfl⟩ := Option.map_eq_some_iff.mp hs₁
        exact ⟨rfl, hsame⟩
      · cases hs₁
  | call i =>
      simp only [step] at hs
      split at hs
      · cases hs
      · next c rest hcalls =>
        obtain ⟨m, hm, heq⟩ := Option.map_eq_some_iff.mp hs
        cases heq
        refine ⟨rfl, (closesOnly_perform hw hm).imp ?_⟩
        intro t ht
        exact ⟨i, c, rest, rfl, hcalls, ht⟩
  | ask u =>
      obtain ⟨r, hask, heq⟩ := Option.map_eq_some_iff.mp hs
      cases heq
      exact ⟨rfl, LimitTable.closesOnly_allowTx hw hask⟩
  | tick now => exact absurd rfl (ha now)

/-- The limits stay in range. -/
theorem steadyLimits_step (hsteady : s.SteadyLimits k) (hq : s.QuietFailure k a)
    (hs : s.step translate k a = some (s', o)) : s'.SteadyLimits k := by
  obtain ⟨hw, hlimits⟩ := hsteady
  by_cases htick : ∃ now, a = .tick now
  · obtain ⟨now, rfl⟩ := htick
    obtain ⟨hle, hw'⟩ := hq.clock now rfl
    cases hs
    exact ⟨hw', fun t l hl => (hlimits t l hl).mono hle⟩
  · obtain ⟨hnow, hcloses⟩ := closesOnly_step hw (fun now h => htick ⟨now, h⟩) hs
    unfold SteadyLimits
    rw [hnow]
    exact ⟨hw, hcloses.steady hlimits⟩

/-- **In range, a limit is closed by a failure only**, and a quiet one closes none under an
outstanding attempt. -/
theorem noLockUnder_of_steady (hsteady : s.SteadyLimits k) (hq : s.QuietFailure k a) :
    s.NoLockUnder translate k a := by
  intro s' o hs t ht hallowed
  obtain ⟨hw, hlimits⟩ := hsteady
  by_cases htick : ∃ now, a = .tick now
  · obtain ⟨now, rfl⟩ := htick
    obtain ⟨hle, hw'⟩ := hq.clock now rfl
    cases hs
    exact hlimits.isAllowed_mono hle hw hw' hallowed
  obtain ⟨hnow, hcloses⟩ := closesOnly_step hw (fun now h => htick ⟨now, h⟩) hs
  unfold isAllowed
  rw [hnow]
  by_cases hcharge : s.Charges a t
  · -- the failure is charged to the factor itself
    obtain ⟨i, c, rest, rfl, hcalls, hc⟩ := hcharge
    have hleaves := hq.leaves t ⟨i, c, rest, rfl, hcalls, hc⟩ (outstanding_call hs ht)
    simp only [step, hcalls, Option.map_eq_some_iff] at hs
    obtain ⟨m, hm, heq⟩ := hs
    cases heq
    obtain ⟨tx, call⟩ := c
    cases call with
    | emitStatus _ _ _ => cases hc
    | updateLimits status flag =>
        have hupdate : Session.updateLimits status flag = some ⟨.fail, t⟩ := by
          simpa [ProxyCall.charges] using hc
        simp only [perform, hupdate, updateLimit, Option.some.injEq] at hm
        exact hm ▸ hleaves
  · exact hcloses.isAllowed hw hlimits hcharge hallowed

/-- The same along a run. -/
theorem along_noLockUnder {acts : List ServiceAction} (hsteady : s.SteadyLimits k)
    (hq : Along (step translate k) (QuietFailure k) s acts) :
    Along (step translate k) (NoLockUnder translate k) s acts :=
  Along.of_invariant (fun _ _ _ _ h hq hs => steadyLimits_step h hq hs)
    (fun _ _ h hq => noLockUnder_of_steady h hq) hsteady hq

end steady

/-- **Lockout on results.** In every run of any number of sessions in which no step closes the
limit of a factor under an outstanding attempt of it, no yes is noted for a factor that is to be
started when the limit refuses it again, and the services of keys report no success of an attempt
that is over, every success is emitted under a limit that allows it. -/
theorem lockout_enforced (translate : String → String) (k : UserKey)
    (available : ℕ → AuthType → Bool) (locks : ℕ → AuthType → LockState) (c : ℕ → Controller)
    (limits : LimitTable) (now : ℤ) {acts : List ServiceAction}
    (h : Along (step translate k)
      (fun s a => s.NoLockUnder translate k a ∧ s.NotesFresh k a ∧ s.DriverSound a)
      (start available locks c limits now) acts) :
    Along (step translate k) (Enforced k) (start available locks c limits now) acts :=
  Along.of_invariant (fun _ _ _ _ hcov hP hs => covered_step hcov hP.1 hP.2.1 hP.2.2 hs)
    (fun _ a hcov _ => hcov.enforced a) (covered_start k available locks c limits now) h

/-! ## Two sessions -/

/-- One try, and then a lock of a minute. -/
def oneTry : LimitConfig := ⟨.password, 60, 1, false, []⟩

/-- The user of the examples. -/
def user : UserKey := (.Local, "user")

/-- Sessions with a password, of a user who has one try. -/
def passwordSessions : Service :=
  start (fun _ t => t = .password) (fun _ _ => .unlock) (fun _ => .normal (.start [.password]))
    ((∅ : LimitTable).insert user ((∅ : UserLimits).insert .password (some (.ofConfig oneTry)))) 0

/-- A session starts its password, which the limit allows. -/
def startPassword (i : ℕ) : List ServiceAction :=
  [.askLimit i .password true, .noteLimit i 0 ⟨none, -1, none⟩ .quit,
    .authenticate i .password (.password (.authenticate true))]

/-- The password of the first attempt of a session is judged. -/
def judgePassword (i : ℕ) (ok : Bool) : List ServiceAction :=
  [.tx i .password (.password (.doAuth ⟨1, 1⟩ ok))]

/-- A session emits a status that is not counted. -/
def passOn (i : ℕ) : List ServiceAction := [.receive i .listed, .call i]

/-- An action that neither makes a call of a controller nor moves the clock charges no failure. -/
theorem quiet_local {k : UserKey} {s : Service} {a : ServiceAction} (ha : a.isLocal = true)
    (hfresh : s.NotesFresh k a) (hdrv : s.DriverSound a) :
    s.QuietFailure k a ∧ s.NotesFresh k a ∧ s.DriverSound a := by
  refine ⟨⟨?_, ?_⟩, hfresh, hdrv⟩
  · rintro now rfl
    cases ha
  · rintro t ⟨i, c, rest, rfl, -⟩
    cases ha

/-- Emitting a status charges no failure. -/
theorem quiet_emit {k : UserKey} {s : Service} {i : ℕ} {tx : VirtualTx} {f : ℤ}
    {status : StatusCode} {msg : String} {rest : List (VirtualTx × ProxyCall)}
    (hcalls : (s.sessions i).calls = (tx, .emitStatus f status msg) :: rest) :
    s.QuietFailure k (.call i) ∧ s.NotesFresh k (.call i) ∧ s.DriverSound (.call i) := by
  refine ⟨⟨fun now h => (nomatch h), ?_⟩, fun _ _ _ _ _ h => (nomatch h),
    fun _ _ _ h => (nomatch h)⟩
  rintro t ⟨j, c, rest', heq, hcalls', hc⟩
  cases heq
  rw [hcalls] at hcalls'
  cases hcalls'
  cases hc

/-- A run without a failure: a password succeeds. -/
theorem lockout_enforced_one_session :
    Along (step id user) (Enforced user) passwordSessions
      (startPassword 0 ++ judgePassword 0 true ++ passOn 0 ++ passOn 0) := by
  have hsteady : passwordSessions.SteadyLimits user := by
    refine ⟨by decide, ?_⟩
    intro t l hl
    obtain ⟨ul, hul, hlt⟩ := LimitTable.limit_eq_some_iff.mp hl
    cases (AList.lookup_insert _).symm.trans hul
    by_cases ht : t = .password
    · subst ht
      cases (AList.lookup_insert _).symm.trans hlt
      exact ⟨.inr ⟨by decide, fun _ => .inr (by decide), fun h => nomatch h⟩, .inl rfl⟩
    · cases (AList.lookup_insert_ne ht).symm.trans hlt
  have hplain : ∀ {s : Service} {a : ServiceAction}, a.isLocal = true →
      (∀ i n finger camera, a ≠ .noteLimit i n finger camera) → (∀ i t act, a ≠ .tx i t act) →
      s.QuietFailure user a ∧ s.NotesFresh user a ∧ s.DriverSound a :=
    fun ha hnote htx => quiet_local ha
      (fun i n finger camera r h => absurd h (hnote i n finger camera))
      fun i t act h => absurd h (htx i t act)
  have hquiet : Along (step id user)
      (fun s a => s.QuietFailure user a ∧ s.NotesFresh user a ∧ s.DriverSound a) passwordSessions
      (startPassword 0 ++ judgePassword 0 true ++ passOn 0 ++ passOn 0) := by
    refine (along_cons_of_eq rfl).mpr ⟨hplain rfl (by simp) (by simp), ?_⟩
    refine (along_cons_of_eq rfl).mpr ⟨quiet_local rfl ?_ fun _ _ _ h => (nomatch h), ?_⟩
    · -- the limit has not been charged since the question
      rintro i n finger camera r ⟨⟩ ⟨⟩ - -
      decide
    refine (along_cons_of_eq rfl).mpr ⟨hplain rfl (by simp) (by simp), ?_⟩
    refine (along_cons_of_eq rfl).mpr ⟨quiet_local rfl (fun _ _ _ _ _ h => (nomatch h)) ?_, ?_⟩
    · rintro i t act ⟨⟩ - tx htx
      cases htx
      trivial
    refine (along_cons_of_eq rfl).mpr ⟨hplain rfl (by simp) (by simp), ?_⟩
    refine (along_cons_of_eq rfl).mpr ⟨quiet_emit rfl, ?_⟩
    refine (along_cons_of_eq rfl).mpr ⟨hplain rfl (by simp) (by simp), ?_⟩
    exact (along_cons_of_eq rfl).mpr ⟨quiet_emit rfl, trivial⟩
  refine lockout_enforced id user _ _ _ _ _ ?_
  exact (along_noLockUnder hsteady (hquiet.imp fun _ _ h => h.1)).and
    (hquiet.imp fun _ _ h => h.2)

/-- The password of one session fails and locks the factor; another session, which has been told
of the lock, then emits the success of its own. -/
theorem locked_factor_accepted :
    ¬ ∀ acts, Along (step id user) (Enforced user) passwordSessions acts := by
  intro h
  have hcall := (h ((startPassword 0 ++ startPassword 1 ++ judgePassword 0 false ++ passOn 0 ++
    passOn 0 ++ [.call 0] ++ [.askLimit 1 .password false,
      .noteLimit 1 0 ⟨none, -1, none⟩ .quit] ++ judgePassword 1 true ++ passOn 1 ++ passOn 1 ++
      [.receive 1 .listed]) ++ [.call 1])).of_run rfl
  exact absurd (hcall 1 _ _ _ rfl rfl rfl rfl) (by decide)

end Service

end LingmoAuthenticate.Authenticate
