import LingmoAuthenticate.Authenticate.Service
import LingmoAuthenticate.Limits.Throttled
import LingmoAuthenticate.Session.Chargeable

/-!
# How often a factor can fail

The sessions of a user ask one limit before they start a factor, and charge it with the failures.
However the sessions interleave, as long as none of them notes a yes for a factor that it is to
start when the limit has closed since, the failures that are charged in a stretch of time are
bounded by the tries of the limit, the locks that fit into the time and the attempts that ran at
once.

* `Service.running`: the failures of a factor that are still to be charged, over all sessions.
* `Service.throttle_step`: one action of the service, as steps of the throttle of the limit.
* `Service.failure_rate`: the bound, for every stretch of every run.
-/

namespace LingmoAuthenticate.Session

open Lib AuthCommon

/-- The call has the failures of the factor forgotten, or its lock taken back. -/
def ProxyCall.renews (t : AuthType) : ProxyCall → Bool
  | .updateLimits s f =>
      (Session.updateLimits s f).any fun u =>
        u.updateType = .resetAll || (u.updateType = .success && u.type0 = t)
  | .emitStatus _ _ _ => false

/-- The signals of a key do not come into a call that starts it or notes a lock. -/
theorem Tx.failSafe_of_start {tx : Tx} {a : TxAction} (ha : a.isStart = true) : tx.FailSafe a := by
  cases tx <;> cases a <;> try trivial
  next u a => cases a <;> trivial

theorem Tx.failSafe_setLockState (tx : Tx) (kind : TxKind) (s : LockState) (finger : DoVerify)
    (camera : CameraLeave) : tx.FailSafe (.setLockState kind s finger camera) := by
  cases kind <;> cases tx <;> trivial

end LingmoAuthenticate.Session

namespace LingmoAuthenticate.Authenticate

open Lib AuthCommon Limits Session
open Limit (WallClock)

/-! ## The failures that are still to be charged -/

/-- The starts that are about to come to a factor, unless it is locked. -/
def ServedSession.startable (t : AuthType) (p : ServedSession) : ℕ :=
  (p.state.txs t).elim 0 fun tx => if tx.base.lockState = .unlock then p.starting t else 0

/-- The failures of a factor that a session can still have charged: those of its attempts, those
that its present round charges, and those of the attempts that it is about to start. -/
def ServedSession.running (t : AuthType) (p : ServedSession) : ℕ :=
  p.state.chargeable t + (p.calls.countP fun c => c.2.charges t) + p.startable t

namespace Service

/-- The same over the first sessions. -/
def running (sessions : ℕ) (t : AuthType) (s : Service) : ℕ :=
  ∑ i ∈ Finset.range sessions, (s.sessions i).running t

end Service

/-- The session of an action. -/
def ServiceAction.session : ServiceAction → Option ℕ
  | .askLimit i _ _ | .noteLimit i _ _ _ | .authenticate i _ _ | .tx i _ _ | .endAll i _
  | .receive i _ | .call i => some i
  | .ask _ | .tick _ => none

section sums

variable {sessions i : ℕ} {t : AuthType} {s : Service} {p : ServedSession}

/-- The sum after one session has changed. -/
theorem running_update {r : Service} (hs : r.sessions = Function.update s.sessions i p)
    (hi : i < sessions) : r.running sessions t + (s.sessions i).running t =
      s.running sessions t + p.running t := by
  have hmem : i ∈ Finset.range sessions := Finset.mem_range.mpr hi
  have hbefore := Finset.add_sum_erase (Finset.range sessions)
    (fun j => (s.sessions j).running t) hmem
  have hafter := Finset.add_sum_erase (Finset.range sessions)
    (fun j => (r.sessions j).running t) hmem
  have hsame : ∑ j ∈ (Finset.range sessions).erase i, (r.sessions j).running t =
      ∑ j ∈ (Finset.range sessions).erase i, (s.sessions j).running t := by
    refine Finset.sum_congr rfl ?_
    intro j hj
    simp only [hs, Function.update_of_ne (Finset.ne_of_mem_erase hj)]
  have hself : r.sessions i = p := by
    simp only [hs, Function.update_self]
  rw [hsame, hself] at hafter
  unfold Service.running
  omega

end sums

/-! ## What an action does to them -/

section actions

variable {translate : String → String} {k : UserKey} {t u : AuthType} {p : ServedSession}
  {state : SessionState} {a : TxAction} {calls : List (ℕ × ProxyCall)}

/-- What is about to be started after a call that starts nothing and notes no lock. -/
theorem startable_tx (hs : p.state.step translate (.tx u a) = some (state, calls))
    (hlock : u = t → a.isLock = false) :
    ServedSession.startable t { p with state := state } = p.startable t := by
  cases SessionState.next_of_step hs with
  | @tx _ _ tx tx' sent htx hstep =>
      unfold ServedSession.startable
      simp only [SessionState.sendStatus_txs]
      by_cases hut : u = t
      · subst hut
        rw [Function.update_self, htx]
        simp only [Option.elim_some, Tx.step_lockState hstep (hlock rfl)]
      · rw [Function.update_of_ne (Ne.symm hut)]

/-- A call that neither starts an attempt nor notes a lock. -/
theorem running_tx (ht : authTypeToFlag t ≠ 0) (hone : p.state.PotentialOne t)
    (hsafe : p.state.FailSafe (.tx u a))
    (hs : p.state.step translate (.tx u a) = some (state, calls)) (hstart : a.isStart = false)
    (hlock : a.isLock = false) :
    ServedSession.running t { p with state := state } ≤ p.running t := by
  have hcharge := SessionState.chargeable_step ht hone hsafe hs
  have hsame := startable_tx (t := t) hs fun _ => hlock
  simp only [SessionState.SessionAction.starts, hstart, Bool.and_false, Bool.false_eq_true,
    if_false] at hcharge
  unfold ServedSession.running
  rw [hsame]
  dsimp only
  omega

/-- A start takes the place of what was about to be started. -/
theorem running_authenticate (ht : authTypeToFlag t ≠ 0) (hone : p.state.PotentialOne t)
    (hs : p.state.step translate (.tx u a) = some (state, calls)) (hstart : a.isStart = true)
    (hu : 0 < p.starting u) :
    ServedSession.running t { p with
      starting := Function.update p.starting u (p.starting u - 1), state := state } ≤
        p.running t := by
  have hsafe : p.state.FailSafe (.tx u a) := .inr fun tx _ => Tx.failSafe_of_start hstart
  have hcharge := SessionState.chargeable_step ht hone hsafe hs
  obtain ⟨tx, htx, hs'⟩ := Option.bind_eq_some_iff.mp hs
  obtain ⟨⟨tx', sent⟩, hstep, -⟩ := Option.map_eq_some_iff.mp hs'
  unfold ServedSession.running
  dsimp only
  by_cases hut : u = t
  · subst hut
    have hbefore : p.startable u = p.starting u := by
      unfold ServedSession.startable
      rw [htx, Option.elim_some, if_pos (Tx.step_start hstep hstart).1]
    have hafter : ServedSession.startable u
        ⟨state, p.answers, Function.update p.starting u (p.starting u - 1), p.calls⟩ ≤
          p.starting u - 1 := by
      unfold ServedSession.startable
      rcases state.txs u with _ | tx
      · exact Nat.zero_le _
      · simp only [Option.elim_some, Function.update_self]
        split_ifs
        · exact le_rfl
        · exact Nat.zero_le _
    rw [hbefore]
    split_ifs at hcharge <;> omega
  · have hsame : ServedSession.startable t
        ⟨state, p.answers, Function.update p.starting u (p.starting u - 1), p.calls⟩ =
          p.startable t := by
      rw [← startable_tx (t := t) hs fun h => absurd h hut]
      unfold ServedSession.startable
      simp only [Function.update_of_ne (Ne.symm hut)]
    have hno : SessionState.SessionAction.starts t (.tx u a) = false := by
      simp [SessionState.SessionAction.starts, hut]
    rw [hno] at hcharge
    rw [hsame]
    simp only [Bool.false_eq_true, if_false] at hcharge
    omega

/-- A factor that is passed over. -/
theorem running_passed : ServedSession.running t { p with
    starting := Function.update p.starting u (p.starting u - 1) } ≤ p.running t := by
  have hle : ServedSession.startable t
      ⟨p.state, p.answers, Function.update p.starting u (p.starting u - 1), p.calls⟩ ≤
        p.startable t := by
    unfold ServedSession.startable
    dsimp only
    rcases p.state.txs t with _ | tx
    · exact le_rfl
    · by_cases hut : t = u
      · subst hut
        simp only [Option.elim_some, Function.update_self]
        split_ifs
        · exact Nat.sub_le _ _
        · exact le_rfl
      · simp only [Function.update_of_ne hut, le_refl]
  unfold ServedSession.running
  dsimp only
  omega

/-- An answer is noted for a factor that is to be started, and it is a yes. -/
def ServedSession.Admits (t : AuthType) (p : ServedSession) (r : LimitAnswer) : Prop :=
  r.type0 = t ∧ r.allowed = true ∧ (r.starts = true ∨ 0 < p.starting t)

/-- Noting an answer has no more to charge, unless it admits a start of the factor. -/
theorem running_noteLimit (ht : authTypeToFlag t ≠ 0) (hone : p.state.PotentialOne t) {tx : Tx}
    {r : LimitAnswer} (htx : p.state.txs r.type0 = some tx) {finger : DoVerify}
    {camera : CameraLeave}
    (hs : p.state.step translate (.tx r.type0 (.setLockState tx.kind r.lockState finger camera)) =
      some (state, calls)) (answers : List LimitAnswer) :
    ServedSession.running t ⟨state, answers, if r.starts = true then
        Function.update p.starting r.type0 (p.starting r.type0 + 1) else p.starting, p.calls⟩ ≤
      p.running t ∨ p.Admits t r := by
  have hsafe : p.state.FailSafe (.tx r.type0 (.setLockState tx.kind r.lockState finger camera)) :=
    .inr fun tx' _ => Tx.failSafe_setLockState tx' _ _ _ _
  have hcharge := SessionState.chargeable_step ht hone hsafe hs
  simp only [SessionState.SessionAction.starts, TxAction.isStart_setLockState, Bool.and_false,
    Bool.false_eq_true, if_false] at hcharge
  rw [or_iff_not_imp_right]
  intro hnot
  have hstartable : ServedSession.startable t ⟨state, answers, if r.starts = true then
      Function.update p.starting r.type0 (p.starting r.type0 + 1) else p.starting, p.calls⟩ ≤
        p.startable t := by
    by_cases hut : r.type0 = t
    · -- the factor is locked, or no start is about to come to it
      subst hut
      obtain ⟨tx', htx', hs'⟩ := Option.bind_eq_some_iff.mp hs
      obtain rfl := Option.some.inj (htx.symm.trans htx')
      rw [Tx.step_setLockState, Option.map_some, Option.some.injEq, Prod.mk.injEq] at hs'
      obtain ⟨rfl, -⟩ := hs'
      unfold ServedSession.startable
      simp only [SessionState.sendStatus_txs, Function.update_self, Option.elim_some, Tx.locked,
        Tx.base_withBase, BaseTx.notifyLock_lockState]
      split_ifs with hunlock hstarts
      · refine absurd ⟨rfl, ?_, .inl hstarts⟩ hnot
        by_contra hno
        rw [LimitAnswer.lockState, if_neg hno] at hunlock
        cases hunlock
      · have hzero : p.starting r.type0 = 0 := by
          by_contra hpos
          refine hnot ⟨rfl, ?_, .inr (Nat.pos_of_ne_zero hpos)⟩
          by_contra hno
          rw [LimitAnswer.lockState, if_neg hno] at hunlock
          cases hunlock
        rw [hzero]
        exact Nat.zero_le _
      · exact Nat.zero_le _
    · rw [← startable_tx (t := t) hs fun h => absurd h hut]
      have hsame : (if r.starts = true then Function.update p.starting r.type0
          (p.starting r.type0 + 1) else p.starting) t = p.starting t := by
        split_ifs
        · exact Function.update_of_ne (Ne.symm hut) _ _
        · rfl
      unfold ServedSession.startable
      simp only [hsame, le_refl]
  unfold ServedSession.running
  dsimp only
  omega

/-- The end of a session has nothing charged. -/
theorem running_endAll (ht : authTypeToFlag t ≠ 0) (hone : p.state.PotentialOne t)
    {status : StatusCode} (hs : p.state.step translate (.endAll status) = some (state, calls)) :
    ServedSession.running t { p with state := state } ≤ p.running t := by
  have hcharge := SessionState.chargeable_step ht hone (a := .endAll status) trivial hs
  have hsame : ServedSession.startable t { p with state := state } = p.startable t := by
    cases SessionState.next_of_step hs with
    | wasEnded => rfl
    | ended => rfl
  unfold ServedSession.running
  rw [hsame]
  simp only [SessionState.SessionAction.starts, Bool.false_eq_true, if_false] at hcharge ⊢
  omega

/-- A round has charged what it received. -/
theorem running_receive (ht : authTypeToFlag t ≠ 0) (hone : p.state.PotentialOne t)
    {o : LoopOrders} (hs : p.state.step translate (.receive o) = some (state, calls))
    (hcalls : p.calls = []) (tx : VirtualTx) :
    ServedSession.running t { p with state := state, calls := calls.map fun c => (tx, c.2) } ≤
      p.running t := by
  have hcharge := SessionState.chargeable_step ht hone (a := .receive o) trivial hs
  have hsame : ServedSession.startable t
      { p with state := state, calls := calls.map fun c => (tx, c.2) } = p.startable t := by
    cases SessionState.next_of_step hs with
    | receive => rfl
  unfold ServedSession.running
  rw [hsame, hcalls]
  simp only [SessionState.SessionAction.starts, Bool.false_eq_true, if_false, List.countP_map,
    Function.comp_def, List.countP_nil] at hcharge ⊢
  omega

/-- A call that is made. -/
theorem running_call {c : VirtualTx × ProxyCall} {rest : List (VirtualTx × ProxyCall)}
    (hcalls : p.calls = c :: rest) :
    ServedSession.running t { p with calls := rest } + (if c.2.charges t then 1 else 0) =
      p.running t := by
  have hsame : ServedSession.startable t { p with calls := rest } = p.startable t := rfl
  unfold ServedSession.running
  rw [hsame, hcalls, List.countP_cons]
  dsimp only
  omega

end actions

/-! ## What an action does to the limit -/

section limits

variable {m m' : LimitTable} {k : UserKey} {t u : AuthType} {l : Limit} {now : ℤ}

/-- A question to the limits of a user, seen from one of them. -/
theorem limit_allowTx {b : Bool} (h : m.allowTx k u now = some (b, m'))
    (hl : m.limit k t = some l) :
    (u ≠ t → m'.limit k t = some l) ∧
      (u = t → ∃ r l', l.allow now = some (r, l') ∧ m'.limit k t = some l' ∧ r.1 = b) := by
  unfold LimitTable.allowTx LimitTable.allow at h
  rcases hu : m.limit k u with _ | l₁ <;> rw [hu] at h
  · cases h
    refine ⟨fun _ => hl, ?_⟩
    rintro rfl
    cases hu.symm.trans hl
  · simp only [Option.map_map, Option.map_eq_some_iff] at h
    obtain ⟨⟨r, l'⟩, ha, heq⟩ := h
    cases heq
    constructor
    · intro hne
      rw [LimitTable.limit_setLimit hu, if_neg (Ne.symm hne), hl]
    · rintro rfl
      obtain rfl := Option.some.inj (hu.symm.trans hl)
      exact ⟨r, l', ha, (LimitTable.limit_setLimit hu u).trans (if_pos rfl), rfl⟩

/-- A write to one limit of a user, seen from one of them. -/
theorem limit_update (f : Limit → Limit) (hl : m.limit k t = some l) :
    (((m.limit k u).map fun l => m.setLimit k u (f l)).getD m).limit k t =
      some (if u = t then f l else l) := by
  rcases hu : m.limit k u with _ | l₁
  · split_ifs with hut
    · subst hut
      cases hu.symm.trans hl
    · exact hl
  · rw [Option.map_some, Option.getD_some, LimitTable.limit_setLimit hu]
    by_cases hut : u = t
    · subst hut
      obtain rfl := Option.some.inj (hu.symm.trans hl)
      rw [if_pos rfl, if_pos rfl]
    · rw [if_neg (Ne.symm hut), if_neg hut, hl]

/-- What a call of a controller does to a limit: it is charged, renewed, or left alone. -/
theorem limit_perform {s : Service} {call : ProxyCall} (h : s.perform k call = some m)
    (hl : s.limits.limit k t = some l) :
    (call.charges t = true ∧ call.renews t = false ∧ m.limit k t = some (l.fail s.now)) ∨
    (call.charges t = false ∧ call.renews t = true ∧
      (m.limit k t = some l.reset ∨ m.limit k t = some l.resetAll)) ∨
    (call.charges t = false ∧ call.renews t = false ∧ m.limit k t = some l) := by
  cases call with
  | emitStatus authType status msg =>
      cases h
      exact .inr (.inr ⟨rfl, rfl, hl⟩)
  | updateLimits status flag =>
      simp only [ProxyCall.charges, ProxyCall.renews]
      simp only [Service.perform] at h
      rcases hu : Session.updateLimits status flag with _ | ⟨updateType, u⟩ <;> rw [hu] at h
      · cases h
        exact .inr (.inr ⟨by simp, by simp, hl⟩)
      · cases updateType with
        | success =>
            cases h
            rw [LimitTable.success, limit_update _ hl]
            by_cases hut : u = t
            · exact .inr (.inl ⟨by simp, by simp [hut], .inl (by rw [if_pos hut])⟩)
            · exact .inr (.inr ⟨by simp, by simp [hut], by rw [if_neg hut]⟩)
        | fail =>
            cases h
            rw [LimitTable.fail, limit_update (fun l => l.fail s.now) hl]
            by_cases hut : u = t
            · exact .inl ⟨by simp [hut], by simp, by rw [if_pos hut]⟩
            · exact .inr (.inr ⟨by simp [hut], by simp, by rw [if_neg hut]⟩)
        | resetAll =>
            have hreset : m.limit k t = some l.resetAll := by
              rw [LimitTable.limit_resetLimits h, hl, Option.map_some]
            exact .inr (.inl ⟨by simp, by simp, .inr hreset⟩)

end limits

/-! ## The service is throttled -/

namespace Service

/-- The clock does not run backwards or out of range, the signals of keys are safe, the action is
one of the first sessions, a yes that admits a start of the factor is noted while the limit is open,
and the action leaves no more than `beside` failures beside another one to be charged. -/
structure Orderly (translate : String → String) (k : UserKey) (sessions beside : ℕ) (t : AuthType)
    (s : Service) (a : ServiceAction) : Prop where
  clock : ∀ now, a = .tick now → s.now ≤ now ∧ WallClock now
  safe : ∀ i u act, a = .tx i u act → (s.sessions i).state.FailSafe (.tx u act)
  session : ∀ i, a.session = some i → i < sessions
  opened : ∀ i n finger camera r, a = .noteLimit i n finger camera →
    (s.sessions i).answers[n]? = some r → (s.sessions i).Admits t r →
    ∀ l, s.limits.limit k t = some l → ∃ left, l.phase = .opened left
  beside : ∀ s' o, s.step translate k a = some (s', o) → s'.running sessions t ≤ beside + 1

/-- The limit of a factor is throttled, at an instant that the arithmetic of the clock can tell, and
no session has an attempt that can be charged more than once. -/
structure Throttled (l₀ : Limit) (k : UserKey) (t : AuthType) (s : Service) (l : Limit) :
    Prop where
  limit : s.limits.limit k t = some l
  throttled : l₀.Throttled l s.now
  wallClock : WallClock s.now
  potential : ∀ i, (s.sessions i).state.PotentialOne t

/-- How many failures of the factor a call charges, and whether it renews the tries. -/
def missed (t : AuthType) (o : Option ProxyCall) : Bool := o.any fun c => c.charges t

/-- Whether a call renews the tries of the factor. -/
def renewed (t : AuthType) (o : Option ProxyCall) : Bool := o.any fun c => c.renews t

section throttled

variable {translate : String → String} {k : UserKey} {t : AuthType} {l₀ l : Limit}
  {sessions beside : ℕ} {secs : ℤ} {s s' : Service} {a : ServiceAction} {o : Option ProxyCall}
  {m q : ℕ}

/-- A step of the service, as it appears to a limit and to the failures that are to be charged: the
limit goes on as a throttle does (`steps`), by a missed try where the step charges a failure, by a
renewal where it renews the limit, and else by attempts that begin or end. -/
structure Appears (l₀ : Limit) (k : UserKey) (t : AuthType) (sessions beside : ℕ) (secs : ℤ)
    (s s' : Service) (l : Limit) (o : Option ProxyCall) (l' : Limit) : Prop where
  throttled : s'.Throttled l₀ k t l'
  clock : s.now ≤ s'.now
  steps : ∀ m q, Relation.ReflTransGen ((l₀.throttle beside secs).Step s'.now)
    ⟨l.phase, s.running sessions t, m, q⟩
    ⟨l'.phase, s'.running sessions t, m + (if missed t o then 1 else 0),
      q + (if renewed t o then 1 else 0)⟩

/-- The attempts of the sessions after another state of one of them. -/
theorem potential_update {i : ℕ} {p : ServedSession}
    (hs : s'.sessions = Function.update s.sessions i p)
    (h : ∀ j, (s.sessions j).state.PotentialOne t) (hp : p.state.PotentialOne t) (j : ℕ) :
    (s'.sessions j).state.PotentialOne t := by
  rw [hs]
  by_cases hj : j = i
  · subst hj
    rw [Function.update_self]
    exact hp
  · rw [Function.update_of_ne hj]
    exact h j

/-- An action of one session that leaves the limits alone and has no more to charge. -/
theorem appears_quiet (h : s.Throttled l₀ k t l) {i : ℕ} {p : ServedSession} (hi : i < sessions)
    (hp : p.state.PotentialOne t) (hle : p.running t ≤ (s.sessions i).running t) :
    Appears l₀ k t sessions beside secs s (s.setSession i p) l none l where
  throttled := ⟨h.limit, h.throttled, h.wallClock, potential_update rfl h.potential hp⟩
  clock := le_rfl
  steps _ _ := by
    refine .single (.drop ?_)
    have hsum : (s.setSession i p).running sessions t + (s.sessions i).running t =
        s.running sessions t + p.running t := running_update rfl hi
    omega

/-- A question to the limits. -/
theorem appears_asked (hd : l₀.LocksFor secs) (h : s.Throttled l₀ k t l) {u : AuthType}
    {allowed : Bool} (hask : s.limits.allowTx k u s.now = some (allowed, s'.limits))
    (hnow : s'.now = s.now) (hsame : ∀ i, (s'.sessions i).state = (s.sessions i).state)
    (hrunning : s'.running sessions t = s.running sessions t) :
    ∃ l', Appears l₀ k t sessions beside secs s s' l none l' := by
  have hpot : ∀ i, (s'.sessions i).state.PotentialOne t := fun i => hsame i ▸ h.potential i
  obtain ⟨hother, hself⟩ := limit_allowTx hask h.limit
  by_cases hut : u = t
  · obtain ⟨r, l', ha, hl', hr⟩ := hself hut
    refine ⟨l', ⟨hl', hnow ▸ h.throttled.allow h.wallClock ha, hnow ▸ h.wallClock, hpot⟩,
      hnow.ge, ?_⟩
    intro m q
    rw [hnow]
    exact h.throttled.allow_steps hd h.wallClock ha (.inl hrunning.le)
  · refine ⟨l, ⟨hother hut, hnow ▸ h.throttled, hnow ▸ h.wallClock, hpot⟩, hnow.ge, ?_⟩
    intro m q
    rw [hrunning]
    exact .refl

/-- An answer is noted: no more is to be charged, or the limit is open. -/
theorem appears_noted (h : s.Throttled l₀ k t l) {i : ℕ} {p : ServedSession} (hi : i < sessions)
    (hp : p.state.PotentialOne t) (hbeside : (s.setSession i p).running sessions t ≤ beside + 1)
    (hle : p.running t ≤ (s.sessions i).running t ∨ ∃ left, l.phase = .opened left) :
    Appears l₀ k t sessions beside secs s (s.setSession i p) l none l := by
  rcases hle with hle | ⟨left, hopened⟩
  · exact appears_quiet h hi hp hle
  · refine ⟨⟨h.limit, h.throttled, h.wallClock, potential_update rfl h.potential hp⟩, le_rfl, ?_⟩
    intro m q
    rw [hopened]
    exact .single (.start hbeside)

/-- A call of a controller. -/
theorem appears_call (hd : l₀.LocksFor secs) (h : s.Throttled l₀ k t l) {i : ℕ} (hi : i < sessions)
    {c : VirtualTx × ProxyCall} {rest : List (VirtualTx × ProxyCall)} {limits : LimitTable}
    (hcalls : (s.sessions i).calls = c :: rest) (hperform : s.perform k c.2 = some limits)
    (hs : s'.sessions = Function.update s.sessions i { s.sessions i with calls := rest })
    (hlimits : s'.limits = limits) (hnow : s'.now = s.now) :
    ∃ l', Appears l₀ k t sessions beside secs s s' l (some c.2) l' := by
  have hsum := running_update (t := t) hs hi
  have hpot := potential_update hs h.potential (h.potential i)
  have hcall := running_call (t := t) hcalls
  dsimp only at hcall hsum
  have hw := h.wallClock
  subst hlimits
  rcases limit_perform hperform h.limit with ⟨hc, hr, hl⟩ | ⟨hc, hr, hl⟩ | ⟨hc, hr, hl⟩
  · -- a failure is charged
    refine ⟨_, ⟨hl, hnow ▸ h.throttled.fail hw, hnow ▸ hw, hpot⟩, hnow.ge, ?_⟩
    intro m q
    have hrunning : s.running sessions t = s'.running sessions t + 1 := by
      rw [hc, if_pos rfl] at hcall
      omega
    simp only [missed, renewed, Option.any_some, hc, hr, if_true, Bool.false_eq_true, if_false,
      add_zero]
    rw [hrunning, hnow]
    exact h.throttled.fail_steps hd hw
  · -- the tries are renewed
    have hrunning : s.running sessions t = s'.running sessions t := by
      rw [hc] at hcall
      simp only [Bool.false_eq_true, if_false, add_zero] at hcall
      omega
    rcases hl with hl | hl
    · refine ⟨_, ⟨hl, hnow ▸ h.throttled.reset hw, hnow ▸ hw, hpot⟩, hnow.ge, ?_⟩
      intro m q
      simp only [missed, renewed, Option.any_some, hc, hr, if_true, Bool.false_eq_true,
        if_false, add_zero]
      rw [hrunning, hnow]
      exact .single h.throttled.reset_step
    · refine ⟨_, ⟨hl, hnow ▸ h.throttled.resetAll hw, hnow ▸ hw, hpot⟩, hnow.ge, ?_⟩
      intro m q
      simp only [missed, renewed, Option.any_some, hc, hr, if_true, Bool.false_eq_true,
        if_false, add_zero]
      rw [hrunning, hnow]
      exact .single h.throttled.resetAll_step
  · -- the call is about something else
    refine ⟨l, ⟨hl, hnow ▸ h.throttled, hnow ▸ hw, hpot⟩, hnow.ge, ?_⟩
    intro m q
    simp only [missed, renewed, Option.any_some, hc, hr, Bool.false_eq_true, if_false, add_zero]
    refine .single (.drop ?_)
    rw [hc] at hcall
    simp only [Bool.false_eq_true, if_false, add_zero] at hcall
    omega

/-- **One action of the service**, as steps of the throttle. -/
theorem throttle_step (ht : authTypeToFlag t ≠ 0) (hd : l₀.LocksFor secs)
    (h : s.Throttled l₀ k t l) (ho : s.Orderly translate k sessions beside t a)
    (hs : s.step translate k a = some (s', o)) :
    ∃ l', Appears l₀ k t sessions beside secs s s' l o l' := by
  have hbeside := ho.beside s' o hs
  cases a with
  | askLimit i u starts =>
      obtain ⟨hs₁, rfl⟩ := observed_eq_some.mp hs
      obtain ⟨tx, htx, hs₁⟩ := Option.bind_eq_some_iff.mp hs₁
      obtain ⟨⟨allowed, limits⟩, hask, rfl⟩ := Option.map_eq_some_iff.mp hs₁
      refine appears_asked hd h hask rfl ?_ ?_
      · intro j
        by_cases hji : j = i
        · subst hji
          simp [setSession]
        · simp [setSession, Function.update_of_ne hji]
      · have hsum := running_update (t := t) (s := s) (r := { s with limits }.setSession i
          { s.sessions i with answers := ⟨u, allowed, starts⟩ :: (s.sessions i).answers }) rfl
            (ho.session i rfl)
        exact Nat.add_right_cancel hsum
  | noteLimit i n finger camera =>
      have hi : i < sessions := ho.session i rfl
      have hone := h.potential i
      obtain ⟨hs₁, rfl⟩ := observed_eq_some.mp hs
      obtain ⟨r, hr, hs₁⟩ := Option.bind_eq_some_iff.mp hs₁
      obtain ⟨tx, htx, hs₁⟩ := Option.bind_eq_some_iff.mp hs₁
      obtain ⟨⟨state, calls⟩, hlock, rfl⟩ := Option.map_eq_some_iff.mp hs₁
      have hsafe : (s.sessions i).state.FailSafe (.tx r.type0 (.setLockState tx.kind r.lockState
          finger camera)) :=
        .inr fun tx' _ => Tx.failSafe_setLockState tx' _ _ _ _
      refine ⟨l, appears_noted h hi (hone.step ht hsafe hlock) hbeside ?_⟩
      refine (running_noteLimit ht hone htx hlock _).imp id ?_
      intro hadmits
      exact ho.opened i n finger camera r rfl hr hadmits l h.limit
  | authenticate i u a =>
      have hi : i < sessions := ho.session i rfl
      obtain ⟨hs₁, rfl⟩ := observed_eq_some.mp hs
      simp only [authenticate, Option.ite_none_right_eq_some] at hs₁
      obtain ⟨⟨hu, hstart⟩, hs₁⟩ := hs₁
      obtain ⟨tx, htx, hs₁⟩ := Option.bind_eq_some_iff.mp hs₁
      have hone := h.potential i
      split_ifs at hs₁
      · obtain ⟨⟨state, calls⟩, hstep, rfl⟩ := Option.map_eq_some_iff.mp hs₁
        have hsafe : (s.sessions i).state.FailSafe (.tx u a) :=
          .inr fun tx _ => Tx.failSafe_of_start hstart
        exact ⟨l, appears_quiet h hi (hone.step ht hsafe hstep)
          (running_authenticate ht hone hstep hstart hu)⟩
      · cases hs₁
        exact ⟨l, appears_quiet h hi hone running_passed⟩
  | tx i u a =>
      have hi : i < sessions := ho.session i rfl
      have hone := h.potential i
      have hsafe := ho.safe i u a rfl
      simp only [step, Option.ite_none_left_eq_some, Bool.or_eq_true, not_or,
        Bool.not_eq_true] at hs
      obtain ⟨⟨hstart, hlock⟩, hs⟩ := hs
      obtain ⟨⟨state, calls⟩, hstep, heq⟩ := Option.map_eq_some_iff.mp hs
      cases heq
      exact ⟨l, appears_quiet h hi (hone.step ht hsafe hstep)
        (running_tx ht hone hsafe hstep hstart hlock)⟩
  | endAll i finalResultGiven =>
      have hi : i < sessions := ho.session i rfl
      have hone := h.potential i
      obtain ⟨⟨state, calls⟩, hstep, heq⟩ := Option.map_eq_some_iff.mp hs
      cases heq
      exact ⟨l, appears_quiet h hi (hone.step (a := .endAll _) ht trivial hstep)
        (running_endAll ht hone hstep)⟩
  | receive i o =>
      have hi : i < sessions := ho.session i rfl
      have hone := h.potential i
      obtain ⟨hs₁, rfl⟩ := observed_eq_some.mp hs
      unfold receive at hs₁
      dsimp only at hs₁
      split at hs₁
      · next q rest hcalls hch =>
        obtain ⟨⟨state, calls⟩, hstep, rfl⟩ := Option.map_eq_some_iff.mp hs₁
        exact ⟨l, appears_quiet h hi (hone.step (a := .receive _) ht trivial hstep)
          (running_receive ht hone hstep hcalls q.tx)⟩
      · cases hs₁
  | call i =>
      simp only [step] at hs
      split at hs
      · cases hs
      · next c rest hcalls =>
        obtain ⟨limits, hperform, heq⟩ := Option.map_eq_some_iff.mp hs
        cases heq
        exact appears_call hd h (ho.session i rfl) hcalls hperform rfl rfl rfl
  | ask u =>
      obtain ⟨⟨b, limits⟩, hask, heq⟩ := Option.map_eq_some_iff.mp hs
      cases heq
      obtain ⟨hother, hself⟩ := limit_allowTx hask h.limit
      by_cases hut : u = t
      · obtain ⟨r, l', ha, hl', -⟩ := hself hut
        refine ⟨l', ⟨hl', h.throttled.allow h.wallClock ha, h.wallClock, h.potential⟩, le_rfl, ?_⟩
        intro m q
        exact h.throttled.allow_steps hd h.wallClock ha (.inl le_rfl)
      · exact ⟨l, ⟨hother hut, h.throttled, h.wallClock, h.potential⟩, le_rfl, fun _ _ => .refl⟩
  | tick now =>
      obtain ⟨hle, hw⟩ := ho.clock now rfl
      cases hs
      exact ⟨l, ⟨h.limit, h.throttled.mono hle, hw, h.potential⟩, hle, fun _ _ => .refl⟩

/-! ## Runs of the service -/

/-- In sessions that have just been opened nothing is to be charged. -/
theorem running_start (available : ℕ → AuthType → Bool) (locks : ℕ → AuthType → LockState)
    (c : ℕ → Controller) (limits : LimitTable) (now : ℤ) :
    (start available locks c limits now).running sessions t = 0 := by
  refine Finset.sum_eq_zero ?_
  intro i _
  have hattempts : (SessionState.start (available i) (locks i) (c i)).attempts t = 0 := by
    unfold SessionState.attempts SessionState.start newTx
    dsimp only
    split_ifs
    · cases t <;> rfl
    · rfl
  have hnone : ServedSession.startable t
      ⟨.start (available i) (locks i) (c i), [], fun _ => 0, []⟩ = 0 := by
    unfold ServedSession.startable
    rcases (SessionState.start (available i) (locks i) (c i)).txs t with _ | tx <;> simp
  simp only [start, ServedSession.running, hnone, SessionState.chargeable, hattempts,
    List.countP_nil, Finset.Icc_eq_empty_of_lt Nat.zero_lt_one, Finset.sum_empty,
    add_zero]

/-- A throttled limit at the beginning of a stretch. -/
theorem within_start (h : l₀.Throttled l s.now) (hrunning : s.running sessions t ≤ beside + 1) :
    (l₀.throttle beside secs).Within (s.running sessions t) s.now s.now
      ⟨l.phase, s.running sessions t, 0, 0⟩ := by
  have hm := h.inRange.maxTries_pos
  have hm₀ : l.maxTries = l₀.maxTries := h.config.2.2.1
  have hn := h.nonneg
  unfold Limit.phase
  split_ifs with hlt hat
  · refine Throttle.within_opened (by omega) ?_ hrunning
    show _ ≤ l₀.maxTries.toNat
    omega
  · refine Throttle.within_opened Nat.one_pos ?_ hrunning
    show _ ≤ l₀.maxTries.toNat
    omega
  · exact Throttle.within_closed (h.steady.lockAt.resolve_left hat).2 hrunning

/-- What a stretch of a run keeps, from its beginning with `begun` failures to be charged. -/
theorem within_run (past : List (Option ProxyCall)) (ht : authTypeToFlag t ≠ 0)
    (hd : l₀.LocksFor secs) {begun : ℕ} {since : ℤ} (h : s.Throttled l₀ k t l)
    (hwithin : (l₀.throttle beside secs).Within begun since s.now
      ⟨l.phase, s.running sessions t, past.countP (missed t), past.countP (renewed t)⟩)
    {acts : List ServiceAction} {calls : List (Option ProxyCall)}
    (ho : Along (step translate k) (Orderly translate k sessions beside t) s acts)
    (hrun : run (step translate k) s acts = some (s', calls)) :
    ∃ l', s'.Throttled l₀ k t l' ∧ (l₀.throttle beside secs).Within begun since s'.now
      ⟨l'.phase, s'.running sessions t, (past ++ calls).countP (missed t),
        (past ++ calls).countP (renewed t)⟩ := by
  refine run_history (I := fun past s => ∃ l, s.Throttled l₀ k t l ∧
    (l₀.throttle beside secs).Within begun since s.now
      ⟨l.phase, s.running sessions t, past.countP (missed t), past.countP (renewed t)⟩)
    ?_ ⟨l, h, hwithin⟩ ho hrun
  rintro past s a s' o ⟨l, h, hwithin⟩ ho hs
  obtain ⟨l', happ⟩ := throttle_step ht hd h ho hs
  refine ⟨l', happ.throttled, ?_⟩
  rw [List.countP_append, List.countP_append, List.countP_singleton, List.countP_singleton]
  refine Throttle.steps_within ?_ (happ.steps _ _) (hwithin.tick happ.clock)
  exact h.throttled.range.refill_pos.2

/-- **How often a factor can fail.** Take any run of any number of sessions, from their opening, in
which no session notes a yes for a factor that it is to start when the limit has closed since, and
any stretch of it. The failures of a factor that are charged in the stretch are no more than
those of the attempts that ran when it began; `maxTries`, and the attempts beside another one, once
and for each time that the tries were renewed; and a refill, and the attempts beside another one,
for each of a number of locks that fit into the time. -/
theorem failure_rate (translate : String → String) (available : ℕ → AuthType → Bool)
    (locks : ℕ → AuthType → LockState) (c : ℕ → Controller) {limits : LimitTable} {now₀ : ℤ}
    (ht : authTypeToFlag t ≠ 0) (hlimit : limits.limit k t = some l) (hl : l.Throttled l now₀)
    (hw : WallClock now₀) (hd : l.LocksFor secs) (before during : List ServiceAction)
    {u : Service} {earlier calls : List (Option ProxyCall)}
    (ho : Along (step translate k) (Orderly translate k sessions beside t)
      (start available locks c limits now₀) (before ++ during))
    (hbefore : run (step translate k) (start available locks c limits now₀) before =
      some (u, earlier))
    (hrun : run (step translate k) u during = some (s, calls)) :
    ∃ reopened : ℕ, reopened * (second * secs) ≤ s.now - u.now ∧
      calls.countP (missed t) ≤ u.running sessions t +
        (calls.countP (renewed t) + 1) * (l.maxTries.toNat + beside) +
          reopened * (l.refill + beside) := by
  have hstart : (start available locks c limits now₀).Throttled l k t l :=
    ⟨hlimit, hl, hw, fun i => SessionState.potentialOne_start (available i) (locks i) (c i)⟩
  have hzero : (start available locks c limits now₀).running sessions t = 0 :=
    running_start available locks c limits now₀
  obtain ⟨l', hu, hwithin⟩ := within_run [] ht hd hstart
    (within_start (s := start available locks c limits now₀) hl (by omega)) ho.of_append hbefore
  have hrunning : u.running sessions t ≤ beside + 1 := hwithin.running
  obtain ⟨l'', -, hwithin'⟩ := within_run [] ht hd hu
    (within_start hu.throttled hrunning) (ho.of_append_right hbefore) hrun
  obtain ⟨reopened, htime, hmissed⟩ := hwithin'.missed_le
  refine ⟨reopened, htime, ?_⟩
  rw [Nat.add_assoc]
  exact hmissed

/-- An action of a session that is taken, and the rest of the run. -/
theorem along_orderly_cons {s₁ : Service} {o₁ : Option ProxyCall} {acts : List ServiceAction}
    (hs : s.step translate k a = some (s₁, o₁)) (hclock : ∀ now, a ≠ .tick now)
    (hsafe : ∀ i u act, a = .tx i u act → (s.sessions i).state.FailSafe (.tx u act))
    (hopen : ∀ i n finger camera, a = .noteLimit i n finger camera →
      ∀ l, s.limits.limit k t = some l → ∃ left, l.phase = .opened left)
    (hi : ∀ i, a.session = some i → i < sessions) (hle : s₁.running sessions t ≤ beside + 1)
    (hrest : Along (step translate k) (Orderly translate k sessions beside t) s₁ acts) :
    Along (step translate k) (Orderly translate k sessions beside t) s (a :: acts) := by
  refine (along_cons_of_eq hs).mpr ⟨⟨fun now h => absurd h (hclock now), hsafe, hi,
    fun i n finger camera r h _ _ => hopen i n finger camera h, ?_⟩, hrest⟩
  intro s' o hs'
  rw [hs, Option.some.injEq, Prod.mk.injEq] at hs'
  exact hs'.1 ▸ hle

end throttled

/-- One try, and then a lock of a minute. -/
def minuteLimit : Limit := .ofConfig ⟨.password, 60, 1, false, []⟩

/-- The limits of a user with such a password. -/
def minuteLimits : LimitTable :=
  (∅ : LimitTable).insert (.Local, "uos") ((∅ : UserLimits).insert .password (some minuteLimit))

/-- A password is started and fails, and the failure is charged. -/
def startAndFail : List ServiceAction :=
  [.askLimit 0 .password true, .noteLimit 0 0 ⟨none, -1, none⟩ .quit,
    .authenticate 0 .password (.password (.authenticate true)),
    .tx 0 .password (.password (.doAuth ⟨1, 1⟩ false)),
    .receive 0 .listed, .call 0, .receive 0 .listed, .call 0, .call 0]

/-- A session with such a password. -/
def minuteSessions : Service :=
  start (fun _ t => t = .password) (fun _ _ => .unlock) (fun _ => .normal (.start [.password]))
    minuteLimits 0

/-- The run is orderly. -/
theorem orderly_startAndFail : Along (step id (.Local, "uos"))
    (Orderly id (.Local, "uos") 1 0 .password) minuteSessions startAndFail := by
  have hi : ∀ i, some 0 = some i → i < 1 := by
    rintro _ ⟨⟩
    exact Nat.one_pos
  refine along_orderly_cons rfl (by simp) (by simp) (by simp) hi (by decide) ?_
  refine along_orderly_cons rfl (by simp) (by simp) ?_ hi (by decide) ?_
  · rintro i n finger camera ⟨⟩ l ⟨⟩
    exact ⟨_, rfl⟩
  refine along_orderly_cons rfl (by simp) (by simp) (by simp) hi (by decide) ?_
  refine along_orderly_cons rfl (by simp) ?_ (by simp) hi (by decide) ?_
  · rintro i u act ⟨⟩
    refine .inr ?_
    rintro tx htx
    cases htx
    trivial
  refine along_orderly_cons rfl (by simp) (by simp) (by simp) hi (by decide) ?_
  refine along_orderly_cons rfl (by simp) (by simp) (by simp) hi (by decide) ?_
  refine along_orderly_cons rfl (by simp) (by simp) (by simp) hi (by decide) ?_
  refine along_orderly_cons rfl (by simp) (by simp) (by simp) hi (by decide) ?_
  exact along_orderly_cons rfl (by simp) (by simp) (by simp) hi (by decide) trivial

/-- One failure of one session. -/
theorem failure_rate_one :
    ∃ s calls, run (step id (.Local, "uos")) minuteSessions startAndFail = some (s, calls) ∧
      ∃ reopened : ℕ, reopened * (second * 60) ≤ s.now - minuteSessions.now ∧
        calls.countP (missed .password) ≤ minuteSessions.running 1 .password +
          (calls.countP (renewed .password) + 1) * (minuteLimit.maxTries.toNat + 0) +
            reopened * (minuteLimit.refill + 0) := by
  obtain ⟨⟨s, calls⟩, hrun⟩ : ∃ r, run (step id (.Local, "uos")) minuteSessions startAndFail =
      some r := ⟨_, rfl⟩
  have hthrottled : minuteLimit.Throttled minuteLimit 0 :=
    ⟨⟨by decide, fun _ => .inr (by decide), fun h => nomatch h⟩, .refl _,
      ⟨.inr ⟨by decide, fun _ => .inr (by decide), fun h => nomatch h⟩, .inl rfl⟩, le_rfl,
      fun _ h => absurd h (by decide)⟩
  have hlocks : minuteLimit.LocksFor 60 := ⟨fun _ => .inr (by decide), fun h => nomatch h⟩
  exact ⟨s, calls, hrun, failure_rate id _ _ _ (by decide) rfl hthrottled (by decide) hlocks []
    startAndFail orderly_startAndFail rfl hrun⟩

end Service

end LingmoAuthenticate.Authenticate
