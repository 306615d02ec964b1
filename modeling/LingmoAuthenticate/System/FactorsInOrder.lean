import LingmoAuthenticate.PamModule.ResolveFactors
import LingmoAuthenticate.Session.InitData
import LingmoAuthenticate.System.ServedLogin

/-!
# Several factors, one after the other

With several factors the session says in `FactorsInfo` which ones it waits for and how they are
ordered. The login starts the first one, and another one when a `Status` signal tells it that the
one before has succeeded; the session itself would start them in any order.

* `Told`: what a session has emitted of a factor it has received.
* `InOrder`: the factors that the login has started are the first ones of the order, and each but
  the last of them has succeeded; nothing else can succeed in its session.
* `success_after_greater`: in every run, a factor succeeds after every factor of a greater priority.
-/

namespace LingmoAuthenticate.AuthCommon

/-- Source: `authcommon/type.go`, `AuthTypeToPriority`. -/
def authTypeToPriority : AuthType → ℤ
  | .password => 8
  | .activeDirectory => 7
  | .uKey => 6
  | .fingerprint => 5
  | .fingerVein => 4
  | .face => 3
  | .iris => 2
  | .custom => 1
  | .other _ => 2 ^ 63 - 1

/-- Source: `authcommon/type.go`, `InputTypeKeyboard` and the following constants. -/
def InputType.toInt : InputType → ℤ
  | .keyboard => 1
  | .finger => 2
  | .cameraFace => 4
  | .cameraIris => 8
  | .custom => 16

end LingmoAuthenticate.AuthCommon

namespace LingmoAuthenticate.Session

open Lib AuthCommon PamModule

/-- The property `FactorsInfo` of a session with these transactions, as a login reads it.
Source: `normal_verify.go` and `multifactor_verify.go`, `genAuthFactors`; the map of the types that
have been listed is never written. -/
def genAuthFactors (txs : List AuthType) : List AuthFactor :=
  txs.map fun t => ⟨authTypeToFlag t, authTypeToPriority t, (authTypeToInputType t).toInt, false⟩

/-- What a round emits is the status that it has received, or about the whole session. -/
theorem Controller.receive_emits {translate : String → String} {c c' : Controller} {tx : VirtualTx}
    {o : LoopOrders} {calls : List ProxyCall} (h : c.receive translate tx o = some (c', calls))
    {f : ℤ} {msg : String} (hcall : .emitStatus f .success msg ∈ calls)
    (hf : f ≠ allAuthenticationFlag) : tx.succeeded = true ∧ f = authTypeToFlag tx.type0 := by
  obtain ⟨kind, t, _ | status⟩ := tx
  · rw [receive_none, Option.some.injEq, Prod.mk.injEq] at h
    rw [← h.2] at hcall
    cases hcall
  suffices f = authTypeToFlag t ∧ status.s = .success from
    ⟨by simpa [VirtualTx.succeeded] using this.2, this.1⟩
  cases c with
  | normal g =>
      simp only [receive, NormalVerify.receive, Option.some.injEq, Prod.mk.injEq] at h
      obtain ⟨-, rfl⟩ := h
      split_ifs at hcall
      · simp only [List.mem_singleton, ProxyCall.emitStatus.injEq] at hcall
        exact ⟨hcall.1, hcall.2.1.symm⟩
      · simp only [List.cons_append, List.nil_append, List.mem_cons, ProxyCall.emitStatus.injEq,
          hf, false_and, reduceCtorEq, or_false, List.not_mem_nil] at hcall
        exact ⟨hcall.1, hcall.2.1.symm⟩
      · simp only [List.append_nil, List.mem_cons, ProxyCall.emitStatus.injEq, reduceCtorEq,
          or_false, List.not_mem_nil] at hcall
        exact ⟨hcall.1, hcall.2.1.symm⟩
  | multi m =>
      obtain ⟨r, hr, heq⟩ := Option.map_eq_some_iff.mp h
      cases heq
      unfold MultiFactorVerify.receive at hr
      dsimp only at hr
      split_ifs at hr
      · cases hr
        simp only [List.mem_singleton, ProxyCall.emitStatus.injEq] at hcall
        exact ⟨hcall.1, hcall.2.1.symm⟩
      · obtain ⟨m', -, rfl⟩ := Option.map_eq_some_iff.mp hr
        split_ifs at hcall
        · simp only [List.cons_append, List.nil_append, List.mem_cons, ProxyCall.emitStatus.injEq,
            hf, false_and, reduceCtorEq, or_false, List.not_mem_nil] at hcall
          exact ⟨hcall.1, hcall.2.1.symm⟩
        · simp only [List.append_nil, List.mem_cons, ProxyCall.emitStatus.injEq, reduceCtorEq,
            or_false, List.not_mem_nil] at hcall
          exact ⟨hcall.1, hcall.2.1.symm⟩

end LingmoAuthenticate.Session

namespace LingmoAuthenticate.PamModule

open Lib

/-- A `filterMap` that drops nothing goes position by position. -/
theorem getElem?_filterMap_of_isSome {α β : Type} {g : α → Option β} {l : List α}
    (h : ∀ x ∈ l, (g x).isSome = true) (k : ℕ) : (l.filterMap g)[k]? = l[k]?.bind g := by
  induction l generalizing k with
  | nil => rfl
  | cons x l ih =>
      obtain ⟨hx, hl⟩ := List.forall_mem_cons.mp h
      obtain ⟨y, hy⟩ := Option.isSome_iff_exists.mp hx
      rw [List.filterMap_cons_some hy]
      cases k with
      | zero => simp [hy]
      | succ k => simpa using ih hl k

/-- The order of the types is that of the priorities. -/
theorem types_priority_le (isMFA : Bool) {factors : List AuthFactor} {k k' : ℕ}
    {t t' : ℤ} (hle : k ≤ k')
    (ht : (resolveAuthctrlFactors isMFA factors).types[k]? = some t)
    (ht' : (resolveAuthctrlFactors isMFA factors).types[k']? = some t') :
    ∃ f ∈ factors, ∃ f' ∈ factors, f.authType = t ∧ f'.authType = t' ∧
      f'.priority ≤ f.priority := by
  have hsome : ∀ idx ∈ factorOrder factors,
      (factors[idx]?.map AuthFactor.authType).isSome = true := by
    intro idx hidx
    have hlt := List.mem_range.mp ((factorOrder_perm factors).mem_iff.mp hidx)
    simp [hlt]
  have hat : ∀ {k : ℕ} {t : ℤ}, (resolveAuthctrlFactors isMFA factors).types[k]? = some t →
      ∃ (idx : ℕ) (f : AuthFactor), (factorOrder factors)[k]? = some idx ∧
        factors[idx]? = some f ∧ f.authType = t := by
    intro k t h
    have hbind : (factorOrder factors)[k]?.bind
        (fun idx => factors[idx]?.map AuthFactor.authType) = some t := by
      rw [← getElem?_filterMap_of_isSome hsome k]
      exact h
    obtain ⟨idx, hidx, h⟩ := Option.bind_eq_some_iff.mp hbind
    obtain ⟨f, hf, rfl⟩ := Option.map_eq_some_iff.mp h
    exact ⟨idx, f, hidx, hf, rfl⟩
  obtain ⟨idx, f, hidx, hf, rfl⟩ := hat ht
  obtain ⟨idx', f', hidx', hf', rfl⟩ := hat ht'
  refine ⟨f, List.mem_of_getElem? hf, f', List.mem_of_getElem? hf', rfl, rfl, ?_⟩
  rcases Nat.eq_or_lt_of_le hle with rfl | hlt
  · cases hidx.symm.trans hidx'
    cases hf.symm.trans hf'
    exact le_rfl
  · obtain ⟨hk, hget⟩ := List.getElem?_eq_some_iff.mp hidx
    obtain ⟨hk', hget'⟩ := List.getElem?_eq_some_iff.mp hidx'
    have hsorted := List.pairwise_iff_getElem.mp (factorOrder_pairwise factors) k k'
      (by simpa using hk) (by simpa using hk') hlt
    simpa [hget, hget', List.getD_eq_getElem?_getD, hf, hf'] using hsorted

variable {s s' : Login} {o : Option LoginCall} {a : Action}

/-- A signal runs the handler, whose calls are seen, or cannot be read. -/
theorem stepSignal_cases {x : StatusSignal × SignalEnv} (hs : s.stepSignal x = some (s', o)) :
    (s'.ud = s.ud ∧ o = none) ∨
      ∃ r : UserData × ℤ × List PamCall,
        busSignalCb s.ud x = some ({ r.1 with res := r.2.1 }, r.2.2) ∧ s'.ud = r.1 ∧
        o = some (.handler r.2.2) := by
  unfold Login.stepSignal at hs
  split_ifs at hs with hcomes hread
  · obtain ⟨r, hr, heq⟩ := Option.map_eq_some_iff.mp hs
    cases heq
    refine .inr ⟨r, ?_, rfl, rfl⟩
    rw [busSignalCb, if_pos hread, hr]
    rfl
  · cases hs
    exact .inl ⟨rfl, rfl⟩

/-- Nothing else touches the factors, or runs a handler. -/
theorem step_quiet (ha : ∀ x, a ≠ .signal x) (hs : s.step a = some (s', o)) :
    s'.ud.authCtrl = s.ud.authCtrl ∧ s'.ud.curType = s.ud.curType ∧
      ∀ calls, o ≠ some (.handler calls) := by
  cases a with
  | signal x => exact absurd rfl (ha x)
  | answer failed rep =>
      obtain ⟨t, ht, heq⟩ := Option.map_eq_some_iff.mp hs
      cases heq
      obtain ⟨-, rfl⟩ := answer_cases ht
      exact ⟨rfl, rfl, fun _ heq => by cases heq⟩
  | call ok =>
      simp only [Login.step, Login.stepCall, Option.ite_none_left_eq_some] at hs
      obtain ⟨-, hs⟩ := hs
      split at hs
      · cases ok
        all_goals cases hs
        all_goals exact ⟨rfl, rfl, fun _ heq => by cases heq⟩
      · cases ok
        all_goals cases hs
        all_goals exact ⟨rfl, rfl, fun _ heq => by cases heq⟩
      · cases hs
  | token =>
      obtain ⟨t, ht, heq⟩ := Option.map_eq_some_iff.mp hs
      cases heq
      rcases htoken : s.token with _ | place
      · rw [Login.stepToken, htoken] at ht
        cases ht
      · unfold Login.stepToken at ht
        rw [htoken] at ht
        cases place
        all_goals cases ht
        all_goals exact ⟨rfl, rfl, fun _ heq => by cases heq⟩
  | cancel =>
      obtain ⟨t, ht, heq⟩ := Option.map_eq_some_iff.mp hs
      cases heq
      obtain ⟨-, -, rfl⟩ := cancel_cases ht
      exact ⟨rfl, rfl, fun _ heq => by cases heq⟩
  | idle =>
      simp only [Login.step] at hs
      split_ifs at hs
      cases hs
      exact ⟨rfl, rfl, fun _ heq => by cases heq⟩
  | reply value =>
      obtain ⟨t, ht, heq⟩ := Option.map_eq_some_iff.mp hs
      cases heq
      obtain ⟨-, -, rfl⟩ := reply_cases ht
      exact ⟨rfl, rfl, fun _ heq => by cases heq⟩
  | busError =>
      simp only [Login.step] at hs
      split_ifs at hs
      cases hs
      exact ⟨rfl, rfl, fun _ heq => by cases heq⟩
  | bus =>
      obtain ⟨t, ht, heq⟩ := Option.map_eq_some_iff.mp hs
      cases heq
      unfold Login.stepBus at ht
      cases hbus : s.bus with
      | join =>
          rw [hbus] at ht
          dsimp only at ht
          split_ifs at ht
          cases ht
          exact ⟨rfl, rfl, fun _ heq => by cases heq⟩
      | process =>
          rw [hbus] at ht
          cases ht
      | returned res =>
          rw [hbus] at ht
          cases ht
      | _ =>
          rw [hbus] at ht
          cases ht
          exact ⟨rfl, rfl, fun _ heq => by cases heq⟩

end LingmoAuthenticate.PamModule

namespace LingmoAuthenticate.System

open Lib AuthCommon Limits Session Authenticate PamModule

namespace ServedLogin

variable {translate : String → String} {k : UserKey} {i j : ℕ} {sessionOf : List Char → Option ℕ}
  {s s' : ServedLogin} {a : SystemAction} {event : Option Event} {events : List (Option Event)}
  {f : ℤ} {t : AuthType}

/-! ## What has succeeded -/

/-- The controller of a session has received a success of the factor with this flag. -/
def Told (i : ℕ) (events : List (Option Event)) (f : ℤ) : Prop :=
  ∃ tx ∈ received i events, tx.succeeded = true ∧ (authTypeToFlag tx.type0 : ℤ) = f

theorem Told.append (h : Told i events f) : Told i (events ++ [event]) f := by
  obtain ⟨tx, htx, h⟩ := h
  refine ⟨tx, ?_, h⟩
  rw [received_append]
  exact List.mem_append_left _ htx

/-- A call starts the types whose flags it names, where each flag is that of one type. -/
theorem mem_starts_of_startsType {calls : List PamCall}
    (hflag : ∀ f ∈ starts calls, ∃ u : AuthType, f = authTypeToFlag u)
    (h : startsType calls t = true) : (authTypeToFlag t : ℤ) ∈ starts calls := by
  obtain ⟨f, hf, hbit⟩ := List.any_eq_true.mp h
  obtain ⟨u, rfl⟩ := hflag f hf
  rw [Option.any_eq_true] at hbit
  obtain ⟨b, hb, hbit⟩ := hbit
  have hu : u.flagBit? = some b := testBit_authTypeToFlag.mp hbit
  rwa [AuthType.flagBit?_inj hb hu]

/-- Only the calls of a handler start anything. -/
theorem request_requested {o : Option LoginCall} (h : ∀ calls, o ≠ some (.handler calls)) :
    (s.request o).requested = s.requested := by
  unfold request
  split
  · next calls => exact absurd rfl (h calls)
  · rfl
  · rfl

/-! ## One action -/

/-- The factors that the login has started, of which only the last one may not have succeeded: no
other can succeed. What a session is to emit of a factor, and what is on its way to the login, comes
after that. -/
structure InOrder (auth : AuthSession) (i : ℕ) (events : List (Option Event)) (s : ServedLogin)
    (n : ℕ) : Prop where
  started : Started auth n s.login.ud
  told : ∀ m f, m + 1 < n → auth.types[m]? = some f → Told i events f
  requested : ∀ t, s.requested t = true → (authTypeToFlag t : ℤ) ∈ auth.types.take n
  live : ∀ t, (s.service.sessions i).Live t → (authTypeToFlag t : ℤ) ∈ auth.types.take n
  calls : ∀ tx f msg, (tx, .emitStatus f .success msg) ∈ (s.service.sessions i).calls →
    f ≠ allAuthenticationFlag → Told i events f
  bus : ∀ e, .status e ∈ s.bus → e.status = .success → e.authType ≠ allAuthenticationFlag →
    Told i events e.authType

/-- A success comes after those of all the factors before it. -/
def AfterGreater (auth : AuthSession) (i : ℕ) (before : List (Option Event))
    (event : Option Event) : Prop :=
  ∀ tx, event = some (.received i tx) → tx.succeeded = true →
    ∃ m : ℕ, auth.types[m]? = some (authTypeToFlag tx.type0 : ℤ) ∧
      ∀ m' f, m' < m → auth.types[m']? = some f → Told i before f

variable {auth : AuthSession} {n : ℕ}

/-- Nothing is received. -/
theorem afterGreater_of_ne (h : ∀ tx, event ≠ some (.received i tx)) :
    AfterGreater auth i events event :=
  fun tx hevent => absurd hevent (h tx)

/-- What a session receives can still succeed. -/
theorem InOrder.afterGreater (h : InOrder auth i events s n) {act : ServiceAction}
    {o : Option ProxyCall} :
    AfterGreater auth i events (serviceEvent translate s.service o act) := by
  intro tx hevent hsucceeded
  cases act with
  | receive j o' =>
      obtain ⟨q, hq, heq⟩ := Option.map_eq_some_iff.mp hevent
      cases heq
      have hmem : q ∈ (s.service.sessions i).state.resultCh := List.mem_of_mem_head? hq
      have hlive : (s.service.sessions i).Live q.tx.type0 :=
        .inr (.inr ⟨q, hmem, rfl, hsucceeded⟩)
      obtain ⟨m, hm⟩ := List.mem_iff_getElem?.mp (h.live _ hlive)
      rw [List.getElem?_take] at hm
      split_ifs at hm with hlt
      refine ⟨m, hm, ?_⟩
      intro m' f hm' hf
      exact h.told m' f (by omega) hf
  | call j =>
      simp only [serviceEvent] at hevent
      split at hevent
      · cases hevent
      · cases hevent
  | _ => cases hevent

/-- What a session emits of a factor is a call of its controller. -/
theorem InOrder.emits (h : InOrder auth i events s n) {act : ServiceAction} {o : Option ProxyCall}
    {service : Service} (hs : s.service.step translate k act = some (service, o)) {e : Emitted}
    (hevent : serviceEvent translate s.service o act = some (.emitted i e))
    (hsuccess : e.status = .success) (hall : e.authType ≠ allAuthenticationFlag) :
    Told i events e.authType := by
  cases act with
  | call j =>
      simp only [serviceEvent] at hevent
      split at hevent
      · next authType status msg =>
        rw [Option.some.injEq, Event.emitted.injEq] at hevent
        obtain ⟨rfl, rfl⟩ := hevent
        obtain rfl : status = .success := hsuccess
        cases Service.control_step hs j with
        | other ha => exact absurd rfl ha
        | @call tx _ rest _ hbefore =>
            refine h.calls tx _ msg ?_ hall
            rw [hbefore]
            exact List.mem_cons_self
      · cases hevent
  | endAll j finalResultGiven =>
      rw [serviceEvent, Option.some.injEq, Event.emitted.injEq] at hevent
      obtain ⟨-, rfl⟩ := hevent
      exact absurd rfl hall
  | receive j o' =>
      obtain ⟨q, -, heq⟩ := Option.map_eq_some_iff.mp hevent
      cases heq
  | _ => cases hevent

/-- What a round is to emit of a factor is what it has received. -/
theorem InOrder.toldCalls (h : InOrder auth i events s n) {act : ServiceAction}
    {o : Option ProxyCall} {service : Service}
    (hs : s.service.step translate k act = some (service, o)) {tx : VirtualTx} {msg : String}
    (hcall : (tx, .emitStatus f .success msg) ∈ (service.sessions i).calls)
    (hall : f ≠ allAuthenticationFlag) :
    Told i (events ++ [serviceEvent translate s.service o act]) f := by
  cases Service.control_step hs i with
  | other ha hcontroller hcalls hreceive =>
      rw [hcalls] at hcall
      exact (h.calls tx f msg hcall hall).append
  | @receive o' q rest c' out _ hnone hch hrec hcontroller hcalls =>
      rw [hcalls] at hcall
      obtain ⟨call, hmem, heq⟩ := List.mem_map.mp hcall
      cases heq
      obtain ⟨hsucceeded, rfl⟩ := Controller.receive_emits hrec hmem hall
      refine ⟨q.tx, ?_, hsucceeded, rfl⟩
      rw [received_append, received_receive hch]
      exact List.mem_append_right _ (List.mem_singleton_self _)
  | call hbefore hcontroller hcalls =>
      rw [hcalls] at hcall
      refine (h.calls tx f msg ?_ hall).append
      rw [hbefore]
      exact List.mem_cons_of_mem _ hcall

/-- What is on its way after a signal. -/
theorem mem_bus_note {m : BusMessage} (hm : m ∈ (s.note i event).bus) :
    m ∈ s.bus ∨ ∃ e, m = .status e ∧ event = some (.emitted i e) := by
  unfold note at hm
  split at hm
  · next j e =>
    unfold ServedLogin.emit at hm
    dsimp only at hm
    split_ifs at hm with hj
    · rcases List.mem_append.mp hm with hm | hm
      · exact .inl hm
      · exact .inr ⟨e, List.mem_singleton.mp hm, by rw [hj]⟩
    · exact .inl hm
  · exact .inl hm

/-- An action of the service. -/
theorem InOrder.service (h : InOrder auth i events s n) {act : ServiceAction}
    {o : Option ProxyCall} {service : Service} {u : ServedLogin}
    (htake : s.takeStart i act = some u)
    (hs : s.service.step translate k act = some (service, o)) :
    let event := serviceEvent translate s.service o act
    InOrder auth i (events ++ [event]) ({ u with service := service }.note i event) n := by
  intro event
  have hu : u.login = s.login ∧ u.bus = s.bus ∧ (∀ t, u.requested t = true → s.requested t = true) ∧
      ∀ t, asksFor i act = some t → s.requested t = true := by
    rcases takeStart_cases htake with ⟨hnone, rfl⟩ | ⟨t, hsome, hreq, rfl⟩
    · refine ⟨rfl, rfl, fun _ => id, ?_⟩
      intro t ht
      rw [hnone] at ht
      cases ht
    · refine ⟨rfl, rfl, ?_, ?_⟩
      · intro t' ht'
        dsimp only at ht'
        by_cases heq : t' = t
        · rw [heq]
          exact hreq
        · rwa [Function.update_of_ne heq] at ht'
      · intro t' ht'
        cases hsome.symm.trans ht'
        exact hreq
  obtain ⟨hlogin, hbus, hrequested, hasks⟩ := hu
  refine ⟨?_, ?_, ?_, ?_, ?_, ?_⟩
  · rw [note_login, hlogin]
    exact h.started
  · intro m f hm hf
    exact (h.told m f hm hf).append
  · intro t ht
    rw [note_requested] at ht
    exact h.requested t (hrequested t ht)
  · intro t ht
    rw [note_service] at ht
    rcases Service.live_step hs ht with hlive | rfl
    · exact h.live t hlive
    · exact h.requested t (hasks t (if_pos rfl))
  · intro tx f msg hcall hall
    rw [note_service] at hcall
    exact h.toldCalls hs hcall hall
  · intro e he hsuccess hall
    rcases mem_bus_note he with he | ⟨e', heq, hevent⟩
    · exact (h.bus e (hbus ▸ he) hsuccess hall).append
    · cases heq
      exact (h.emits hs hevent hsuccess hall).append

/-- A step of the login, which has started `n'` factors with it. -/
theorem InOrder.stepLogin (h : InOrder auth i events s n) {login : Login} {o : Option LoginCall}
    {bus : List BusMessage} {n' : ℕ} (hle : n ≤ n') (hstarted : Started auth n' login.ud)
    (htold : ∀ m f, m + 1 < n' → auth.types[m]? = some f → Told i events f)
    (hrequested : ∀ t, ({ s with bus := bus, login := login }.request o).requested t = true →
      s.requested t = true ∨ (authTypeToFlag t : ℤ) ∈ auth.types.take n')
    (hbus : ∀ m ∈ bus, m ∈ s.bus) :
    InOrder auth i (events ++ [event]) ({ s with bus := bus, login := login }.request o) n' := by
  have htake : ∀ f ∈ auth.types.take n, f ∈ auth.types.take n' :=
    fun f hf => (List.take_prefix_take_left hle).subset hf
  refine ⟨?_, ?_, ?_, ?_, ?_, ?_⟩
  · rw [request_login]
    exact hstarted
  · intro m f hm hf
    exact (htold m f hm hf).append
  · intro t ht
    rcases hrequested t ht with ht | ht
    · exact htake _ (h.requested t ht)
    · exact ht
  · intro t ht
    rw [request_service] at ht
    exact htake _ (h.live t ht)
  · intro tx f msg hcall hall
    rw [request_service] at hcall
    exact (h.calls tx f msg hcall hall).append
  · intro e he hsuccess hall
    rw [request_bus] at he
    exact (h.bus e (hbus _ he) hsuccess hall).append

/-- A step of the login that handles no signal. -/
theorem InOrder.quiet (h : InOrder auth i events s n) {act : Action} {login : Login}
    {o : Option LoginCall} {bus : List BusMessage} (ha : ∀ x, act ≠ .signal x)
    (hs : s.login.step act = some (login, o)) (hbus : ∀ m ∈ bus, m ∈ s.bus) :
    InOrder auth i (events ++ [event]) ({ s with bus := bus, login := login }.request o) n := by
  obtain ⟨hctrl, hcur, hquiet⟩ := step_quiet ha hs
  refine h.stepLogin le_rfl ⟨hctrl.trans h.started.authCtrl, ?_⟩ h.told ?_ hbus
  · rw [hcur]
    exact h.started.current
  · intro t ht
    rw [request_requested hquiet] at ht
    exact .inl ht

/-- A signal starts the next factor after the success of the last one, or none. -/
theorem InOrder.signal (h : InOrder auth i events s n) (hmfa : auth.isMFA = true)
    (hnd : auth.types.Nodup) (hflag : ∀ f ∈ auth.types, ∃ u : AuthType, f = authTypeToFlag u)
    {e : Emitted} {env : SignalEnv} {rest : List BusMessage} {login : Login}
    {o : Option LoginCall} (hbus : s.bus = .status e :: rest)
    (hs : s.login.step (.signal (e.signal, env)) = some (login, o)) :
    ∃ n', InOrder auth i (events ++ [event]) ({ s with bus := rest, login := login }.request o)
      n' := by
  have hrest : ∀ m ∈ rest, m ∈ s.bus := by
    intro m hm
    rw [hbus]
    exact List.mem_cons_of_mem _ hm
  rcases stepSignal_cases hs with ⟨hud, rfl⟩ | ⟨r, hcb, hud, rfl⟩
  · refine ⟨n, h.stepLogin le_rfl ?_ h.told (fun t ht => .inl ht) hrest⟩
    rw [hud]
    exact h.started
  rcases h.started.step hmfa hnd hcb with
    ⟨hnone, hstarted⟩ | ⟨m, f, f', rfl, hf, hf', hcode, htype, -, hcalls, hstarted⟩
  · refine ⟨n, h.stepLogin le_rfl ?_ h.told ?_ hrest⟩
    · rw [hud]
      exact ⟨hstarted.authCtrl, hstarted.current⟩
    · intro t ht
      refine .inl ?_
      simpa [request, startsType, hnone] using ht
  · have htold : Told i events f := by
      rw [← htype]
      refine h.bus e (hbus ▸ List.mem_cons_self) (ofInt_toInt_eq_success.mp hcode) ?_
      obtain ⟨u, rfl⟩ := hflag f (List.mem_of_getElem? hf)
      rw [show e.authType = authTypeToFlag u from htype]
      exact (Controller.all_ne_flag u).symm
    refine ⟨m + 1 + 1, h.stepLogin (Nat.le_succ _) ?_ ?_ ?_ hrest⟩
    · rw [hud]
      exact ⟨hstarted.authCtrl, hstarted.current⟩
    · intro m' g hm' hg
      rcases Nat.lt_succ_iff_lt_or_eq.mp hm' with hlt | heq
      · exact h.told m' g hlt hg
      · obtain rfl : m' = m := Nat.succ_injective heq
        cases hg.symm.trans hf
        exact htold
    · intro t ht
      have hstarts : starts r.2.2 = [f'] := by
        rw [hcalls]
        rfl
      rcases (Bool.or_eq_true _ _).mp ht with ht | ht
      · exact .inl ht
      · have hmem := mem_starts_of_startsType (fun g hg => by
          rw [hstarts, List.mem_singleton] at hg
          exact hflag g (hg ▸ List.mem_of_getElem? hf')) ht
        rw [hstarts, List.mem_singleton] at hmem
        refine .inr ?_
        rw [hmem, List.take_add_one, hf']
        exact List.mem_append_right _ (List.mem_singleton_self _)

/-- A session answers. -/
theorem InOrder.reply (h : InOrder auth i events s n) {value : Option ℤ} :
    InOrder auth i (events ++ [event]) { s with asked := none, bus := s.bus ++ [.reply value] }
      n := by
  refine ⟨h.started, fun m f hm hf => (h.told m f hm hf).append, h.requested, h.live,
    fun tx f msg hcall hall => (h.calls tx f msg hcall hall).append, ?_⟩
  intro e he hsuccess hall
  rcases List.mem_append.mp he with he | he
  · exact (h.bus e he hsuccess hall).append
  · cases List.mem_singleton.mp he

/-- **One action.** -/
theorem InOrder.step (h : InOrder auth i events s n) (hmfa : auth.isMFA = true)
    (hnd : auth.types.Nodup) (hflag : ∀ f ∈ auth.types, ∃ u : AuthType, f = authTypeToFlag u)
    (hs : s.step translate k i sessionOf a = some (s', event)) :
    (∃ n', InOrder auth i (events ++ [event]) s' n') ∧ AfterGreater auth i events event := by
  cases next_of_step hs with
  | service htake hstep =>
      exact ⟨⟨n, h.service htake hstep⟩, h.afterGreater⟩
  | @prompt msg =>
      refine ⟨⟨n, h.started, fun m f hm hf => (h.told m f hm hf).append, h.requested, h.live,
        fun tx f msg hcall hall => (h.calls tx f msg hcall hall).append, ?_⟩,
        afterGreater_of_ne (by simp)⟩
      intro e he hsuccess hall
      have hbus : BusMessage.status e ∈ s.bus ++
          [.status ⟨allAuthenticationFlag, .prompt, msg⟩] := by
        simpa [ServedLogin.emit] using he
      rcases List.mem_append.mp hbus with he | he
      · exact (h.bus e he hsuccess hall).append
      · cases List.mem_singleton.mp he
        cases hsuccess
  | nobody hasked hnone =>
      exact ⟨⟨n, h.reply⟩, afterGreater_of_ne (by simp)⟩
  | answered hasked hsome =>
      exact ⟨⟨n, h.reply⟩, afterGreater_of_ne (by simp)⟩
  | @deliver env m rest login o hbus hstep =>
      refine ⟨?_, afterGreater_of_ne (by simp)⟩
      cases m with
      | status e => exact h.signal hmfa hnd hflag hbus hstep
      | reply value =>
          have hquiet : ∀ x, Action.reply value ≠ .signal x := nofun
          refine ⟨n, h.quiet hquiet hstep ?_⟩
          intro m hm
          rw [hbus]
          exact List.mem_cons_of_mem _ hm
  | @login act login o ha hstep =>
      refine ⟨⟨n, h.quiet ?_ hstep fun _ => id⟩, afterGreater_of_ne (by simp)⟩
      rintro x rfl
      cases ha

/-! ## A run -/

/-- The flags of the factors of a session, in the order of a login. -/
theorem mem_types {env : InitEnv} {p : String} {flag : ℕ} :
    f ∈ (resolveAuthctrlFactors true (genAuthFactors (env.addTxs p flag))).types ↔
      ∃ t ∈ env.addTxs p flag, f = authTypeToFlag t := by
  rw [(AuthSession.types_perm _).mem_iff]
  simp [resolveAuthctrlFactors, genAuthFactors, eq_comm]

/-- The transactions of a session have flags of their own. -/
theorem eq_of_flag_eq {env : InitEnv} {p : String} {flag : ℕ} (ht : t ∈ env.addTxs p flag)
    {u : AuthType} (h : (authTypeToFlag t : ℤ) = authTypeToFlag u) : t = u := by
  have hne : authTypeToFlag t ≠ 0 := fun h0 => (InitManager.mem_addTxs.mp ht).2.1 (by rw [h0]; simp)
  exact authTypeToFlag_inj hne (by exact_mod_cast h)

theorem nodup_types {env : InitEnv} {p : String} {flag : ℕ} :
    (resolveAuthctrlFactors true (genAuthFactors (env.addTxs p flag))).types.Nodup := by
  refine AuthSession.nodup_types ?_
  rw [show (resolveAuthctrlFactors true (genAuthFactors (env.addTxs p flag))).factors.map
    AuthFactor.authType = (env.addTxs p flag).map fun t => (authTypeToFlag t : ℤ) by
      simp [resolveAuthctrlFactors, genAuthFactors]]
  exact (InitManager.addTxs_nodup env p flag).map_on fun t ht u _ h => eq_of_flag_eq ht h

/-- A login has started the first factor, if there is one. -/
theorem inOrder_start (available : ℕ → AuthType → Bool) (locks : ℕ → AuthType → LockState)
    (c : ℕ → Controller) (limits : LimitTable) (now : ℤ) (senv : SignalEnv) {ud : UserData}
    (hud : ud.authCtrl = auth) (hmfa : auth.isMFA = true)
    (hflag : ∀ f ∈ auth.types, ∃ u : AuthType, f = authTypeToFlag u) (timeout : ℤ) :
    ∃ n, InOrder auth i [] (start (.start available locks c limits now) senv ud timeout) n := by
  subst hud
  obtain ⟨n, hstarted, hstarts, -⟩ := started_first rfl senv timeout
  have hverify : startVerify senv ud timeout = mfaStartVerify senv ud 0 timeout := if_pos hmfa
  have hone : (ud.authCtrl.types.take n).length ≤ 1 := by
    rw [← hstarts]
    unfold mfaStartVerify
    split
    · exact Nat.zero_le _
    · exact le_rfl
  have hn : n ≤ 1 := by
    rcases hstarted.current with ⟨rfl, -⟩ | ⟨m, rfl, hm⟩
    · exact Nat.zero_le _
    · have hlt := (List.getElem?_eq_some_iff.mp hm).1
      rw [List.length_take] at hone
      omega
  refine ⟨n, ?_, ?_, ?_, ?_, ?_, ?_⟩
  · simp only [start, Login.start, hverify]
    split_ifs
    · exact hstarted
    · exact ⟨hstarted.authCtrl, hstarted.current⟩
  · intro m f hm
    omega
  · intro t ht
    simp only [start, hverify] at ht
    rw [← hstarts]
    refine mem_starts_of_startsType ?_ ht
    intro f hf
    rw [hstarts] at hf
    exact hflag f (List.mem_of_mem_take hf)
  · intro t ht
    exact absurd ht (Service.not_live_start available locks c limits now i t)
  · intro tx f msg hcall
    cases hcall
  · intro e he
    cases he

/-- **A factor succeeds after every factor of a greater priority.** For a login whose session
authenticates with several factors, the transactions that were opened with it, and any interleaving
of the service, the bus and the two threads of the login: where the controller of the session
receives the success of a factor, it is one of those, and the controller has received a success of
each of them that has a greater priority. -/
theorem success_after_greater {env : InitEnv} {p : String} {flag : ℕ} {ud : UserData}
    (hud : ud.authCtrl = resolveAuthctrlFactors true (genAuthFactors (env.addTxs p flag)))
    (available : ℕ → AuthType → Bool) (locks : ℕ → AuthType → LockState) (c : ℕ → Controller)
    (limits : LimitTable) (now : ℤ) (senv : SignalEnv) (timeout : ℤ) {acts : List SystemAction}
    (hr : run (step translate k i sessionOf)
      (start (.start available locks c limits now) senv ud timeout) acts = some (s, events)) :
    EachPast (fun before event => ∀ tx, event = some (.received i tx) → tx.succeeded = true →
      tx.type0 ∈ env.addTxs p flag ∧ ∀ u ∈ env.addTxs p flag,
        authTypeToPriority tx.type0 < authTypeToPriority u →
          ∃ tx' ∈ received i before, tx'.type0 = u ∧ tx'.succeeded = true) events := by
  have hflag : ∀ f ∈ (resolveAuthctrlFactors true (genAuthFactors (env.addTxs p flag))).types,
      ∃ u : AuthType, f = authTypeToFlag u := by
    intro f hf
    obtain ⟨t, -, rfl⟩ := mem_types.mp hf
    exact ⟨t, rfl⟩
  have hafter : EachPast (AfterGreater _ i) ([] ++ events) :=
    (run_history (P := fun _ _ => True)
      (I := fun past s => (∃ n, InOrder _ i past s n) ∧ EachPast (AfterGreater _ i) past)
      (by
        rintro past s a s' event ⟨⟨n, h⟩, hpast⟩ - hs
        obtain ⟨hnext, hevent⟩ := h.step rfl nodup_types hflag hs
        exact ⟨hnext, eachPast_append_singleton.mpr ⟨hpast, hevent⟩⟩)
      ⟨inOrder_start available locks c limits now senv hud rfl hflag timeout, eachPast_nil⟩
      (along_of_forall (fun _ _ => trivial) _ acts) hr).2
  refine hafter.imp ?_
  intro before event hevent tx heq hsucceeded
  obtain ⟨m, hm, hbefore⟩ := hevent tx heq hsucceeded
  obtain ⟨t, ht, htx⟩ := mem_types.mp (List.mem_of_getElem? hm)
  obtain rfl := eq_of_flag_eq ht htx.symm
  refine ⟨ht, ?_⟩
  intro u hu hlt
  obtain ⟨m', hm'⟩ := List.mem_iff_getElem?.mp (mem_types.mpr ⟨u, hu, rfl⟩)
  -- a factor that comes later has no greater priority
  have hlt' : m' < m := by
    by_contra hle
    obtain ⟨g, hg, g', hg', hgt, hgu, hprio⟩ := types_priority_le true (not_lt.mp hle) hm hm'
    obtain ⟨v, hv, rfl⟩ := List.mem_map.mp hg
    obtain ⟨w, hw, rfl⟩ := List.mem_map.mp hg'
    obtain rfl := eq_of_flag_eq hv hgt
    obtain rfl := eq_of_flag_eq hw hgu
    exact absurd hlt (not_lt.mpr hprio)
  obtain ⟨tx', htx', hsucceeded', hflag'⟩ := hbefore m' _ hlt' hm'
  exact ⟨tx', htx', (eq_of_flag_eq hu hflag'.symm).symm, hsucceeded'⟩

/-- Limits of two factors. -/
def bothLimits : LimitTable :=
  (∅ : LimitTable).insert (.Local, "uos") (((∅ : UserLimits).insert AuthType.password
    (some (.ofConfig ⟨.password, 60, 5, false, []⟩))).insert .fingerprint
      (some (.ofConfig ⟨.fingerprint, 60, 5, false, []⟩)))

/-- A session with a password and a fingerprint. -/
def bothFactors : List AuthType := InitManager.twoFactorEnv.addTxs "/usr/bin/dde-lock" 3

/-- Its service. -/
def bothSession : Service :=
  .start (fun _ t => t ∈ bothFactors) (fun _ _ => .unlock)
    (fun _ => .multi (.start MultiFactorVerify.twoFactors)) bothLimits 0

/-- The password is accepted, and then a fingerprint. -/
def bothAccepted : List SystemAction :=
  [.service (.askLimit 0 .password true),
    .service (.noteLimit 0 0 ⟨none, -1, none⟩ .quit),
    .service (.authenticate 0 .password (.password (.authenticate true))),
    .service (.receive 0 .listed), .service (.call 0)] ++ handleSignal ++
  [.service (.tx 0 .password (.password (.doAuth ⟨1, 1⟩ true))),
    .service (.receive 0 .listed), .service (.call 0)] ++ handleSignal ++
  [.service (.call 0), .service (.askLimit 0 .fingerprint true),
    .service (.noteLimit 0 0 ⟨none, -1, none⟩ .quit),
    .service (.authenticate 0 .fingerprint (.fingerprint (.authenticate none))),
    .service (.tx 0 .fingerprint (.fingerprint (.verify 1 ⟨none, 0, none⟩))),
    .service (.tx 0 .fingerprint (.fingerprint (.give ⟨1, newVerifyStatus .success true ""⟩))),
    .service (.receive 0 .listed), .service (.call 0), .service (.receive 0 .listed),
    .service (.call 0), .service (.receive 0 .listed)]

/-- A login with both factors. -/
def bothLogin : UserData := newLogin (resolveAuthctrlFactors true (genAuthFactors bothFactors))

/-- The fingerprint succeeds after the password. -/
theorem success_after_greater_fingerprint :
    ∃ s events before, run (step id (.Local, "uos") 0 fun _ => none)
        (start bothSession allOk bothLogin 60000) bothAccepted = some (s, events) ∧
      events = before ++ [some (.received 0
        ⟨.fingerprint, .fingerprint, some (newVerifyStatus .success true "")⟩)] ∧
      ∃ tx' ∈ received 0 before, tx'.type0 = .password ∧ tx'.succeeded = true := by
  obtain ⟨s, events, hr, hlast⟩ : ∃ s events, run (step id (.Local, "uos") 0 fun _ => none)
      (start bothSession allOk bothLogin 60000) bothAccepted = some (s, events) ∧
        events = events.dropLast ++ [some (.received 0
          ⟨.fingerprint, .fingerprint, some (newVerifyStatus .success true "")⟩)] := by
    refine ⟨_, _, rfl, ?_⟩
    rfl
  refine ⟨s, events, events.dropLast, hr, hlast, ?_⟩
  have hafter := success_after_greater (p := "/usr/bin/dde-lock") rfl (fun _ t => t ∈ bothFactors)
    (fun _ _ => .unlock) (fun _ => .multi (.start MultiFactorVerify.twoFactors)) bothLimits 0
    allOk 60000 hr
  exact (hafter _ _ [] hlast _ rfl rfl).2 .password (by decide) (by decide)

end ServedLogin

end LingmoAuthenticate.System
