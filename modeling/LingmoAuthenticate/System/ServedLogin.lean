import Mathlib.Data.Int.Bitwise
import LingmoAuthenticate.Authenticate.Sessions
import LingmoAuthenticate.Lib.Past
import LingmoAuthenticate.PamModule.Genuine
import LingmoAuthenticate.Session.GetResult

/-!
# A login and the service

`pam_sm_authenticate` opens a session of the service and calls `Start`; the session emits `Status`
signals, which the login handles one after another. Where the answer of the user names a session
that has been ended elsewhere, the login asks that session for its result.

* `ServedLogin.step` is one action of the service, of the login, or of the bus between them. Each
  signal and each reply is delivered once, in the order in which it was sent.
* A session only asks its limits for a start that the login has called: `Start` refuses every other
  sender.
* `Controller.Accepts`: what a controller must have received to report the success of its session.
* `login_genuine`: however the service and the two threads of the login interleave, a `PAM_SUCCESS`
  goes back to a session whose controller has accepted what it received.
-/

namespace LingmoAuthenticate.Session

open Lib AuthCommon MultiFactor

/-- Source: `status.go`, the constants of `statusCode`, and `statusCode.toInt`. -/
def StatusCode.toInt : StatusCode → ℤ
  | .success => 0
  | .failure => 1
  | .cancel => 2
  | .timeout => 3
  | .error => 4
  | .verify => 5
  | .exception => 6
  | .prompt => 7
  | .started => 8
  | .ended => 9
  | .locked => 10
  | .recover => 11
  | .unlocked => 12
  | .unknown => 13

/-- Source: `session/manager_ifc.go`, the constants of `result`, and `result.toInt`. -/
def Result.toInt : Result → ℤ
  | .pass => 0
  | .fail => 1
  | .unavailable => 2

/-! ## What a controller accepts -/

namespace Controller

/-- A controller as its loop finds it when it begins: of some factors, or of a configuration that is
valid, with no result yet. -/
inductive Fresh : Controller → Prop
  | normal (txs : List AuthType) : Fresh (.normal (.start txs))
  | multi {conf : Config} (h : conf.isValidConfig = true) : Fresh (.multi (.start conf))

/-- The statuses received make the session a success: with several factors the most recent result
of each one is a success, otherwise the latest code of some transaction is. -/
def Accepts (c : Controller) (hist : List VirtualTx) : Prop :=
  match c with
  | .normal g => ∃ t ∈ g.txs, NormalVerify.lastCode (hist.map some) t = some .success
  | .multi m => ∀ f ∈ getAuthTypeList m.conf,
      MultiFactorVerify.lastResult (hist.map some) f = some true

/-- A controller that started as `c₀` and has received these statuses, by what its invariant says of
it. -/
inductive Follows : Controller → List VirtualTx → Controller → Prop
  | normal {txs hist g} (h : NormalVerify.CountInv txs (hist.map some) g) :
      Follows (.normal (.start txs)) hist (.normal g)
  | multi {conf hist m} (hconf : conf.isValidConfig = true)
      (h : MultiFactorVerify.MfaInv conf (hist.map some) m) :
      Follows (.multi (.start conf)) hist (.multi m)

theorem Fresh.follows {c : Controller} (h : c.Fresh) : c.Follows [] c := by
  cases h with
  | normal txs => exact .normal (NormalVerify.countInv_start txs)
  | multi h => exact .multi h (MultiFactorVerify.mfaInv_start h)

/-- The flag of a factor is not that of a whole session. -/
theorem all_ne_flag (t : AuthType) : allAuthenticationFlag ≠ (authTypeToFlag t : ℤ) := by
  unfold allAuthenticationFlag
  omega

variable {translate : String → String} {c₀ c c' : Controller} {hist : List VirtualTx}
  {tx : VirtualTx} {o : LoopOrders} {calls : List ProxyCall}

/-- **One round**: the controller follows what it has received, and reports the success of the
session only if it is to accept that. -/
theorem Follows.receive (h : c₀.Follows hist c)
    (hrec : c.receive translate tx o = some (c', calls)) :
    c₀.Follows (hist ++ [tx]) c' ∧
      ∀ msg, .emitStatus allAuthenticationFlag .success msg ∈ calls →
        c₀.Accepts (hist ++ [tx]) := by
  cases h with
  | @normal txs hist g h =>
      simp only [Controller.receive, Option.some.injEq, Prod.mk.injEq] at hrec
      obtain ⟨rfl, rfl⟩ := hrec
      obtain ⟨g', calls, hs, hinv⟩ := h.step translate (some tx, o.codes, o.inputs)
      rw [NormalVerify.step, Option.some.injEq] at hs
      rw [show g.receive translate (some tx) o.codes o.inputs = (g', calls) from hs]
      have hhist : hist.map some ++ [some tx] = (hist ++ [tx]).map some := by simp
      rw [hhist] at hinv
      refine ⟨.normal hinv, ?_⟩
      intro msg hmsg
      have hemits := (NormalVerify.emits_iff translate g (some tx) o.codes o.inputs .success).mp
        ⟨msg, by rw [show g.receive translate (some tx) o.codes o.inputs = (g', calls) from hs]
                 exact hmsg⟩
      rw [show g.receive translate (some tx) o.codes o.inputs = (g', calls) from hs] at hemits
      exact (hinv.verdictSpec.success o.codes o.inputs).mp hemits.2.2
  | @multi conf hist m hconf h =>
      obtain ⟨⟨m', calls'⟩, hr, heq⟩ := Option.map_eq_some_iff.mp hrec
      cases heq
      obtain ⟨m'', calls'', hs, hinv⟩ :=
        MultiFactorVerify.mfaInv_step hconf translate h (some tx, o.results, o.msgs)
      cases hr.symm.trans hs
      have hhist : hist.map some ++ [some tx] = (hist ++ [tx]).map some := by simp
      dsimp only at hinv
      rw [hhist] at hinv
      refine ⟨.multi hconf hinv, ?_⟩
      intro msg hmsg
      -- the success of the session is among the calls only as the verdict
      have hverdict : m'.getVerifyResult o.results = .success := by
        unfold MultiFactorVerify.receive at hr
        rcases tx with ⟨kind, t, _ | status⟩
        · cases hr
          cases hmsg
        · dsimp only at hr
          split_ifs at hr
          · cases hr
            simp [all_ne_flag] at hmsg
          · obtain ⟨m₁, -, heq⟩ := Option.map_eq_some_iff.mp hr
            cases heq
            split_ifs at hmsg with hres
            · simp only [List.cons_append, List.nil_append, List.mem_cons,
                ProxyCall.emitStatus.injEq, all_ne_flag, false_and, reduceCtorEq, true_and,
                false_or, or_false, List.not_mem_nil] at hmsg
              exact hmsg.1.symm
            · simp [all_ne_flag] at hmsg
      rw [hinv.getVerifyResult_eq] at hverdict
      split_ifs at hverdict with hnone hfail
      intro f hf
      rcases hl : MultiFactorVerify.lastResult ((hist ++ [tx]).map some) f with _ | _ | _
      · exact absurd ⟨f, hf, hl⟩ hnone
      · exact absurd ⟨f, hf, hl⟩ hfail
      · rfl

end Controller

end LingmoAuthenticate.Session

namespace LingmoAuthenticate.System

open Lib AuthCommon Limits Session Authenticate PamModule

/-! ## The bus between them -/

/-- A `Status` signal. Source: `session/manager_ifc.go`, `Manager.emitStatus`. -/
structure Emitted where
  authType : ℤ
  status : StatusCode
  msg : String
  deriving DecidableEq, Repr

/-- What `bus_signal_cb` reads. -/
def Emitted.signal (e : Emitted) : StatusSignal := ⟨e.authType, .ofInt e.status.toInt, e.msg⟩

/-- The signal reports the success of the whole session. -/
def Emitted.Succeeds (e : Emitted) : Prop :=
  e.authType = allAuthenticationFlag ∧ e.status = .success

/-- What the service sends to a login: a `Status` signal of its session, or a reply to `GetResult`,
where `none` is an error. -/
inductive BusMessage where
  | status (e : Emitted)
  | reply (value : Option ℤ)
  deriving DecidableEq, Repr

/-- The login receives a message. -/
def BusMessage.action (env : SignalEnv) : BusMessage → Action
  | .status e => .signal (e.signal, env)
  | .reply value => .reply value

/-- The types that the calls start: those whose bit is set in a flag, which of -1 are all.
Source: `session/manager_ifc.go`, `Manager.Start`. -/
def startsType (calls : List PamCall) (t : AuthType) : Bool :=
  (starts calls).any fun flag => t.flagBit?.any fun i => Int.testBit flag i

/-- A login, the service that it talks to, and what is on its way between them: `requested` are the
types of a `Start` whose limits the session has not asked yet, `asked` is the path of a `GetResult`
that has not been answered, and `results` is what each session keeps of its result. -/
structure ServedLogin where
  service : Service
  results : ℕ → StatusCode
  bus : List BusMessage
  requested : AuthType → Bool
  asked : Option (List Char)
  login : Login

/-- What happens: an action of the service; the prompt that the first `Start` of a session emits; a
`GetResult` is answered, by a session whose privileges include the program of the login or not; the
next message is delivered; a step of the login by itself. -/
inductive SystemAction where
  | service (a : ServiceAction)
  | prompt (msg : String)
  | getResult (privileged : Bool)
  | deliver (env : SignalEnv)
  | login (a : Action)

/-- What is seen of an action: a controller has received a status, a session has emitted one or has
answered a `GetResult`, or a message has been delivered to the login. -/
inductive Event where
  | received (j : ℕ) (tx : VirtualTx)
  | emitted (j : ℕ) (e : Emitted)
  | answered (j : ℕ) (privileged : Bool)
  | delivered (m : BusMessage)
  deriving DecidableEq, Repr

/-- The statuses that the controller of a session has received. -/
def received (j : ℕ) (events : List (Option Event)) : List VirtualTx :=
  events.filterMap fun
    | some (.received j' tx) => if j' = j then some tx else none
    | _ => none

/-- A message is brought by the bus. -/
def fromBus : Action → Bool
  | .signal _ | .reply _ => true
  | _ => false

namespace ServedLogin

/-- A session emits a signal, and keeps what it says of the whole session; the signals of the
session with number `i` go to the login.
Source: `session/manager_ifc.go`, `Manager.emitSignalStatus`. -/
def emit (i : ℕ) (s : ServedLogin) (j : ℕ) (e : Emitted) : ServedLogin :=
  { s with
    results := if e.authType = allAuthenticationFlag ∧ e.status ≠ .prompt then
        Function.update s.results j (if e.status = .success then .success else .failure)
      else s.results
    bus := if j = i then s.bus ++ [.status e] else s.bus }

/-- What is seen of an action of the service; the status that ends a whole session is emitted
before its controller is ended. Source: `session/manager.go`, `Manager.endAll`. -/
def serviceEvent (translate : String → String) (s : Service) (o : Option ProxyCall) :
    ServiceAction → Option Event
  | .receive j _ => (s.sessions j).state.resultCh.head?.map fun q => .received j q.tx
  | .call j =>
      match o with
      | some (.emitStatus authType status msg) => some (.emitted j ⟨authType, status, msg⟩)
      | _ => none
  | .endAll j finalResultGiven =>
      let status := newVerifyStatus (if finalResultGiven then .ended else .cancel) true ""
      some (.emitted j ⟨allAuthenticationFlag, status.s, translate status.msg⟩)
  | _ => none

/-- The signal of an event is emitted. -/
def note (i : ℕ) (s : ServedLogin) : Option Event → ServedLogin
  | some (.emitted j e) => s.emit i j e
  | _ => s

/-- The type whose limit the session of the login asks for a start. -/
def asksFor (i : ℕ) : ServiceAction → Option AuthType
  | .askLimit j t true => if j = i then some t else none
  | _ => none

/-- Such a question takes a start that the login has called.
Source: `session/manager_ifc.go`, `Manager.Start`. -/
def takeStart (i : ℕ) (s : ServedLogin) (a : ServiceAction) : Option ServedLogin :=
  match asksFor i a with
  | none => some s
  | some t =>
      if s.requested t then some { s with requested := Function.update s.requested t false }
      else none

/-- What a session answers to `GetResult`.
Source: `session/manager_ifc.go`, `Manager.GetResult`. -/
def answer (s : ServedLogin) (j : ℕ) (privileged : Bool) : Result :=
  if privileged then if s.results j = .success then .pass else .fail else .unavailable

/-- A call of the login reaches the service. -/
def request (s : ServedLogin) : Option LoginCall → ServedLogin
  | some (.handler calls) =>
      { s with requested := fun t => s.requested t || startsType calls t }
  | some (.getResult path) => { s with asked := some path }
  | _ => s

/-- One action; `i` is the session of the login, and `sessionOf` finds a session by its path. -/
def step (translate : String → String) (k : UserKey) (i : ℕ) (sessionOf : List Char → Option ℕ)
    (s : ServedLogin) : SystemAction → Option (ServedLogin × Option Event)
  | .service a =>
      (s.takeStart i a).bind fun s' => (s.service.step translate k a).map fun r =>
        let event := serviceEvent translate s.service r.2 a
        ({ s' with service := r.1 }.note i event, event)
  | .prompt msg =>
      let e := ⟨allAuthenticationFlag, .prompt, msg⟩
      some (s.emit i i e, some (.emitted i e))
  | .getResult privileged =>
      s.asked.map fun path =>
        match sessionOf path with
        | none => ({ s with asked := none, bus := s.bus ++ [.reply none] }, none)
        | some j => ({ s with
            asked := none
            bus := s.bus ++ [.reply (some (s.answer j privileged).toInt)] },
            some (.answered j privileged))
  | .deliver env =>
      match s.bus with
      | [] => none
      | m :: rest => (s.login.step (m.action env)).map fun r =>
          ({ s with bus := rest, login := r.1 }.request r.2, some (.delivered m))
  | .login a =>
      if fromBus a then none
      else (s.login.step a).map fun r => ({ s with login := r.1 }.request r.2, none)

/-- The first start: of the factor that comes first, or of all of them.
Source: `pam.c`, `pam_sm_authenticate`, before its loop. -/
def startVerify (env : SignalEnv) (ud : UserData) (timeout : ℤ) : UserData × ℤ × List PamCall :=
  if ud.authCtrl.isMFA then mfaStartVerify env ud 0 timeout else sfaStartVerify env ud timeout

/-- The login has called `Start`, and has handled no signal.
Source: `pam.c`, `pam_sm_authenticate`. -/
def start (service : Service) (env : SignalEnv) (ud : UserData) (timeout : ℤ) : ServedLogin :=
  let r := startVerify env ud timeout
  { service := service
    results := fun _ => .failure
    bus := []
    requested := startsType r.2.2
    asked := none
    login := .start (if r.2.1 = pamSuccess then r.1 else { r.1 with res := pamAbort }) }

/-- The ways in which an action goes, with what is seen of it: the service makes a step, a session
answers a `GetResult` or there is none under the path, the oldest message is delivered, or the login
makes a step and its calls go out. -/
inductive Next (translate : String → String) (k : UserKey) (i : ℕ)
    (sessionOf : List Char → Option ℕ) (s : ServedLogin) :
    SystemAction → ServedLogin → Option Event → Prop
  | service {a s' service o} (htake : s.takeStart i a = some s')
      (hstep : s.service.step translate k a = some (service, o)) :
      Next translate k i sessionOf s (.service a)
        ({ s' with service := service }.note i (serviceEvent translate s.service o a))
        (serviceEvent translate s.service o a)
  | prompt {msg} : Next translate k i sessionOf s (.prompt msg)
      (s.emit i i ⟨allAuthenticationFlag, .prompt, msg⟩)
      (some (.emitted i ⟨allAuthenticationFlag, .prompt, msg⟩))
  | nobody {path privileged} (hasked : s.asked = some path) (hnone : sessionOf path = none) :
      Next translate k i sessionOf s (.getResult privileged)
        { s with asked := none, bus := s.bus ++ [.reply none] } none
  | answered {path j privileged} (hasked : s.asked = some path) (hsome : sessionOf path = some j) :
      Next translate k i sessionOf s (.getResult privileged)
        { s with asked := none, bus := s.bus ++ [.reply (some (s.answer j privileged).toInt)] }
        (some (.answered j privileged))
  | deliver {env m rest login o} (hbus : s.bus = m :: rest)
      (hstep : s.login.step (m.action env) = some (login, o)) :
      Next translate k i sessionOf s (.deliver env)
        ({ s with bus := rest, login := login }.request o) (some (.delivered m))
  | login {a login o} (ha : fromBus a = false) (hstep : s.login.step a = some (login, o)) :
      Next translate k i sessionOf s (.login a) ({ s with login := login }.request o) none

variable {translate : String → String} {k : UserKey} {i j : ℕ} {sessionOf : List Char → Option ℕ}
  {s s' : ServedLogin} {a : SystemAction} {event : Option Event} {events : List (Option Event)}

theorem next_of_step (hs : s.step translate k i sessionOf a = some (s', event)) :
    s.Next translate k i sessionOf a s' event := by
  cases a with
  | service a =>
      obtain ⟨t, htake, hs⟩ := Option.bind_eq_some_iff.mp hs
      obtain ⟨⟨service, o⟩, hstep, heq⟩ := Option.map_eq_some_iff.mp hs
      cases heq
      exact .service htake hstep
  | prompt msg =>
      cases hs
      exact .prompt
  | getResult privileged =>
      obtain ⟨path, hasked, heq⟩ := Option.map_eq_some_iff.mp hs
      rcases hpath : sessionOf path with _ | j
      · rw [hpath] at heq
        cases heq
        exact .nobody hasked hpath
      · rw [hpath] at heq
        cases heq
        exact .answered hasked hpath
  | deliver env =>
      simp only [step] at hs
      split at hs
      · cases hs
      · next m rest hbus =>
        obtain ⟨⟨login, o⟩, hstep, heq⟩ := Option.map_eq_some_iff.mp hs
        cases heq
        exact .deliver hbus hstep
  | login a =>
      simp only [step, Option.ite_none_left_eq_some, Bool.not_eq_true] at hs
      obtain ⟨⟨login, o⟩, hstep, heq⟩ := Option.map_eq_some_iff.mp hs.2
      cases heq
      exact .login hs.1 hstep

/-! ## What each part leaves alone -/

@[simp] theorem emit_service (e : Emitted) : (s.emit i j e).service = s.service := rfl

@[simp] theorem emit_login (e : Emitted) : (s.emit i j e).login = s.login := rfl

@[simp] theorem emit_requested (e : Emitted) : (s.emit i j e).requested = s.requested := rfl

@[simp] theorem note_service : (s.note i event).service = s.service := by
  unfold note
  split <;> rfl

@[simp] theorem note_login : (s.note i event).login = s.login := by
  unfold note
  split <;> rfl

@[simp] theorem note_requested : (s.note i event).requested = s.requested := by
  unfold note
  split <;> rfl

@[simp] theorem request_service (o : Option LoginCall) : (s.request o).service = s.service := by
  unfold request
  split <;> rfl

@[simp] theorem request_login (o : Option LoginCall) : (s.request o).login = s.login := by
  unfold request
  split <;> rfl

@[simp] theorem request_results (o : Option LoginCall) : (s.request o).results = s.results := by
  unfold request
  split <;> rfl

@[simp] theorem request_bus (o : Option LoginCall) : (s.request o).bus = s.bus := by
  unfold request
  split <;> rfl

/-- A start that is taken concerns what was requested alone. -/
theorem takeStart_cases {act : ServiceAction} (h : s.takeStart i act = some s') :
    (asksFor i act = none ∧ s' = s) ∨ ∃ t, asksFor i act = some t ∧ s.requested t = true ∧
      s' = { s with requested := Function.update s.requested t false } := by
  unfold takeStart at h
  split at h
  · next hnone =>
    cases h
    exact .inl ⟨hnone, rfl⟩
  · next t hsome =>
    split_ifs at h with hreq
    cases h
    exact .inr ⟨t, hsome, hreq, rfl⟩

/-- One more event. -/
theorem received_append : received j (events ++ [event]) =
    received j events ++ received j [event] := List.filterMap_append

@[simp] theorem received_emitted (j' : ℕ) (e : Emitted) :
    received j [some (.emitted j' e)] = [] := rfl

@[simp] theorem received_none : received j [none] = [] := rfl

/-! ## Where the success of a session comes from -/

/-- The session has reported its success, and its controller accepted what it had received. -/
def Accepted (c : ℕ → Controller) (j : ℕ) (events : List (Option Event)) : Prop :=
  ∃ before e later, events = before ++ some (.emitted j e) :: later ∧ e.Succeeds ∧
    (c j).Accepts (received j before)

/-- The session of the login has reported its success, or one has that has answered the login with
its result. -/
def Earned (c : ℕ → Controller) (i : ℕ) (events : List (Option Event)) : Prop :=
  Accepted c i events ∨ ∃ j, some (.answered j true) ∈ events ∧ Accepted c j events

variable {c : ℕ → Controller}

theorem Accepted.append (h : Accepted c j events) : Accepted c j (events ++ [event]) := by
  obtain ⟨before, e, later, rfl, he, haccepts⟩ := h
  exact ⟨before, e, later ++ [event], by simp, he, haccepts⟩

theorem Earned.append (h : Earned c i events) : Earned c i (events ++ [event]) := by
  rcases h with h | ⟨j, hanswered, h⟩
  · exact .inl h.append
  · exact .inr ⟨j, List.mem_append_left _ hanswered, h.append⟩

/-- What the service knows: each controller follows what it has received, and is to report a success
only where it accepts that. -/
structure Served (c : ℕ → Controller) (events : List (Option Event)) (s : Service) : Prop where
  follows : ∀ j, (c j).Follows (received j events) (s.sessions j).state.controller
  calls : ∀ j tx msg, (tx, .emitStatus allAuthenticationFlag .success msg) ∈ (s.sessions j).calls →
    (c j).Accepts (received j events)

theorem Served.congr {service : Service} (h : Served c events service)
    (hevent : ∀ j, received j [event] = []) : Served c (events ++ [event]) service := by
  constructor
  · intro j
    rw [received_append, hevent, List.append_nil]
    exact h.follows j
  · intro j tx msg hcall
    rw [received_append, hevent, List.append_nil]
    exact h.calls j tx msg hcall

/-- What a session receives is the first status of its channel. -/
theorem received_receive {service : Service} {o : Option ProxyCall} {o' : LoopOrders} {q : Queued}
    {rest : List Queued} (hch : (service.sessions j).state.resultCh = q :: rest) :
    received j [serviceEvent translate service o (.receive j o')] = [q.tx] := by
  rw [serviceEvent, hch]
  simp [received]

/-- Nothing else is received. -/
theorem received_other {service : Service} {o : Option ProxyCall} {act : ServiceAction}
    (hact : ∀ o', act ≠ .receive j o') :
    received j [serviceEvent translate service o act] = [] := by
  cases act with
  | receive j' o' =>
      have hj : j' ≠ j := fun hj => hact o' (hj ▸ rfl)
      rw [serviceEvent]
      rcases (service.sessions j').state.resultCh.head? with _ | q
      · rfl
      · simp [received, hj]
  | call j' =>
      simp only [serviceEvent]
      split
      · rfl
      · rfl
  | _ => rfl

/-- **One action of the service.** -/
theorem Served.step {service service' : Service} {act : ServiceAction} {o : Option ProxyCall}
    (h : Served c events service) (hs : service.step translate k act = some (service', o)) :
    Served c (events ++ [serviceEvent translate service o act]) service' := by
  have hsession : ∀ j, (c j).Follows
      (received j (events ++ [serviceEvent translate service o act]))
      (service'.sessions j).state.controller ∧
      ∀ tx msg, (tx, .emitStatus allAuthenticationFlag .success msg) ∈ (service'.sessions j).calls →
        (c j).Accepts (received j (events ++ [serviceEvent translate service o act])) := by
    intro j
    rw [received_append]
    cases Service.control_step hs j with
    | other ha hcontroller hcalls hreceive =>
        rw [received_other hreceive, List.append_nil, hcontroller, hcalls]
        exact ⟨h.follows j, h.calls j⟩
    | receive hnone hch hrec hcontroller hcalls =>
        rw [received_receive hch]
        obtain ⟨hfollows, haccepts⟩ := (h.follows j).receive hrec
        rw [hcontroller, hcalls]
        refine ⟨hfollows, ?_⟩
        intro tx msg hcall
        obtain ⟨call, hmem, heq⟩ := List.mem_map.mp hcall
        cases heq
        exact haccepts msg hmem
    | call hbefore hcontroller hcalls =>
        rw [received_other (by simp), List.append_nil, hcontroller, hcalls]
        refine ⟨h.follows j, ?_⟩
        intro tx msg hcall
        exact h.calls j tx msg (hbefore ▸ List.mem_cons_of_mem _ hcall)
  exact ⟨fun j => (hsession j).1, fun j => (hsession j).2⟩

/-- A success of a whole session is emitted as a call of its controller. -/
theorem Served.accepted {service service' : Service} {act : ServiceAction} {o : Option ProxyCall}
    (h : Served c events service) (hs : service.step translate k act = some (service', o))
    {e : Emitted} (hevent : serviceEvent translate service o act = some (.emitted j e))
    (he : e.Succeeds) : Accepted c j (events ++ [serviceEvent translate service o act]) := by
  refine ⟨events, e, [], by rw [hevent], he, ?_⟩
  cases act with
  | call j' =>
      simp only [serviceEvent] at hevent
      split at hevent
      · next authType status msg =>
        rw [Option.some.injEq, Event.emitted.injEq] at hevent
        obtain ⟨rfl, rfl⟩ := hevent
        obtain ⟨rfl, rfl⟩ : authType = allAuthenticationFlag ∧ status = .success := he
        cases Service.control_step hs j' with
        | other ha => exact absurd rfl ha
        | @call tx _ rest _ hbefore =>
            refine h.calls j' tx msg ?_
            rw [hbefore]
            exact List.mem_cons_self
      · cases hevent
  | endAll j' finalResultGiven =>
      -- the end of a session is no success
      rw [serviceEvent, Option.some.injEq, Event.emitted.injEq] at hevent
      obtain ⟨-, rfl⟩ := hevent
      exfalso
      have hsuccess := he.2
      cases finalResultGiven <;> cases hsuccess
  | receive j' o' =>
      obtain ⟨q, -, heq⟩ := Option.map_eq_some_iff.mp hevent
      cases heq
  | _ => cases hevent

/-! ## One action, and a run -/

/-- Where a success is kept or on its way, there is a session that has earned it: in the login, in
what the sessions keep of their results, in a signal of the session of the login, and in a reply. -/
structure Sound (c : ℕ → Controller) (i : ℕ) (events : List (Option Event)) (s : ServedLogin) :
    Prop where
  threads : Threads s.login
  handshake : HandshakeAt s.login
  genuine : Genuine (Earned c i events) s.login
  served : Served c events s.service
  results : ∀ j, s.results j = .success → Accepted c j events
  bus : ∀ e, .status e ∈ s.bus → e.Succeeds → Accepted c i events
  replies : .reply (some getResultSuccess) ∈ s.bus → Earned c i events

/-- What a code says to a login. -/
theorem ofInt_toInt_eq_success {status : StatusCode} :
    AuthStutaCode.ofInt status.toInt = .success ↔ status = .success := by
  cases status <;> simp [AuthStutaCode.ofInt, StatusCode.toInt]

/-- The login is told of a success by the signal that reports one. -/
theorem Emitted.succeeds_of_signal {e : Emitted} (h : e.signal.succeeds) : e.Succeeds :=
  ⟨h.2, ofInt_toInt_eq_success.mp h.1⟩

/-- Of a session, a success of the whole is answered alone. -/
theorem answer_eq_pass {privileged : Bool}
    (h : (s.answer j privileged).toInt = getResultSuccess) :
    privileged = true ∧ s.results j = .success := by
  unfold answer at h
  split_ifs at h with hp hr
  · exact ⟨hp, hr⟩
  · cases h
  · cases h

/-- A signal is emitted after an event. -/
theorem Sound.emit (h : Sound c i events s) {e : Emitted} {service : Service}
    (hserved : Served c (events ++ [some (.emitted j e)]) service)
    (he : e.Succeeds → Accepted c j (events ++ [some (.emitted j e)])) :
    Sound c i (events ++ [some (.emitted j e)]) ({ s with service := service }.emit i j e) := by
  refine ⟨h.threads, h.handshake, h.genuine.imp .append, hserved, ?_, ?_, ?_⟩
  · intro j' hres
    unfold ServedLogin.emit at hres
    dsimp only at hres
    split_ifs at hres with hall hsuccess
    · by_cases hj : j' = j
      · subst hj
        exact he ⟨hall.1, hsuccess⟩
      · rw [Function.update_of_ne hj] at hres
        exact (h.results j' hres).append
    · by_cases hj : j' = j
      · rw [hj, Function.update_self] at hres
        cases hres
      · rw [Function.update_of_ne hj] at hres
        exact (h.results j' hres).append
    · exact (h.results j' hres).append
  · intro e' he' hsucceeds
    unfold ServedLogin.emit at he'
    dsimp only at he'
    split_ifs at he' with hj
    · rcases List.mem_append.mp he' with he' | he'
      · exact (h.bus e' he' hsucceeds).append
      · cases List.mem_singleton.mp he'
        exact hj ▸ he hsucceeds
    · exact (h.bus e' he' hsucceeds).append
  · intro hreply
    unfold ServedLogin.emit at hreply
    dsimp only at hreply
    split_ifs at hreply
    · rcases List.mem_append.mp hreply with hreply | hreply
      · exact (h.replies hreply).append
      · cases List.mem_singleton.mp hreply
    · exact (h.replies hreply).append

/-- The login takes a step, where what it is brought is earned. -/
theorem Sound.stepLogin (h : Sound c i events s) {act : Action} {login : Login}
    {o : Option LoginCall} {bus : List BusMessage} (hs : s.login.step act = some (login, o))
    (hact : act.brings → Earned c i events) (hbus : ∀ m ∈ bus, m ∈ s.bus)
    (hevent : ∀ j, received j [event] = []) :
    Sound c i (events ++ [event]) ({ s with bus := bus, login := login }.request o) := by
  refine ⟨?_, ?_, ?_, ?_, ?_, ?_, ?_⟩
  · rw [request_login]
    exact h.threads.step hs
  · rw [request_login]
    exact h.handshake.step h.threads hs
  · rw [request_login]
    exact (h.genuine.step h.threads h.handshake hact hs).imp .append
  · rw [request_service]
    exact h.served.congr hevent
  · intro j hres
    rw [request_results] at hres
    exact (h.results j hres).append
  · intro e he hsucceeds
    rw [request_bus] at he
    exact (h.bus e (hbus _ he) hsucceeds).append
  · intro hreply
    rw [request_bus] at hreply
    exact (h.replies (hbus _ hreply)).append

/-- A session answers. -/
theorem Sound.reply (h : Sound c i events s) {value : Option ℤ}
    (hevent : ∀ j, received j [event] = [])
    (hvalue : value = some getResultSuccess → Earned c i (events ++ [event])) :
    Sound c i (events ++ [event]) { s with asked := none, bus := s.bus ++ [.reply value] } := by
  refine ⟨h.threads, h.handshake, h.genuine.imp .append, h.served.congr hevent,
    fun j hres => (h.results j hres).append, ?_, ?_⟩
  · intro e he hsucceeds
    rcases List.mem_append.mp he with he | he
    · exact (h.bus e he hsucceeds).append
    · cases List.mem_singleton.mp he
  · intro hreply
    rcases List.mem_append.mp hreply with hreply | hreply
    · exact (h.replies hreply).append
    · rw [List.mem_singleton, BusMessage.reply.injEq] at hreply
      exact hvalue hreply.symm

/-- **One action.** -/
theorem Sound.step (h : Sound c i events s)
    (hs : s.step translate k i sessionOf a = some (s', event)) :
    Sound c i (events ++ [event]) s' := by
  cases next_of_step hs with
  | @service act t service o htake hstep =>
      have hserved := h.served.step hstep
      have ht : Sound c i events t := by
        obtain ⟨-, rfl⟩ | ⟨u, -, -, rfl⟩ := takeStart_cases htake
        · exact h
        · exact ⟨h.threads, h.handshake, h.genuine, h.served, h.results, h.bus, h.replies⟩
      rcases hevent : serviceEvent translate s.service o act with _ | event
      · rw [hevent] at hserved
        exact ⟨ht.threads, ht.handshake, ht.genuine.imp .append, hserved,
          fun j hres => (ht.results j hres).append,
          fun e he hsucceeds => (ht.bus e he hsucceeds).append,
          fun hreply => (ht.replies hreply).append⟩
      · cases event with
        | emitted j e =>
            have hacc := h.served.accepted hstep hevent
            rw [hevent] at hserved hacc
            exact ht.emit hserved hacc
        | _ =>
            rw [hevent] at hserved
            exact ⟨ht.threads, ht.handshake, ht.genuine.imp .append, hserved,
              fun j hres => (ht.results j hres).append,
              fun e he hsucceeds => (ht.bus e he hsucceeds).append,
              fun hreply => (ht.replies hreply).append⟩
  | prompt =>
      refine h.emit (h.served.congr fun _ => rfl) ?_
      rintro ⟨-, hsuccess⟩
      cases hsuccess
  | nobody hasked hnone => exact h.reply (fun _ => rfl) nofun
  | @answered path j privileged hasked hsome =>
      refine h.reply (fun _ => rfl) ?_
      intro hvalue
      rw [Option.some.injEq] at hvalue
      obtain ⟨rfl, hres⟩ := answer_eq_pass hvalue
      exact .inr ⟨j, List.mem_append_right _ (List.mem_singleton_self _), (h.results j hres).append⟩
  | @deliver env m rest login o hbus hstep =>
      refine h.stepLogin hstep ?_ ?_ fun _ => rfl
      · intro hbrings
        have hm : m ∈ s.bus := hbus ▸ List.mem_cons_self
        cases m with
        | status e => exact .inl (h.bus e hm (Emitted.succeeds_of_signal hbrings.2))
        | reply value =>
            obtain rfl : value = some getResultSuccess := hbrings
            exact h.replies hm
      · intro m' hm'
        rw [hbus]
        exact List.mem_cons_of_mem _ hm'
  | login ha hstep =>
      refine h.stepLogin hstep ?_ (fun _ => id) fun _ => rfl
      intro hbrings
      cases ‹Action› with
      | signal x => cases ha
      | reply value => cases ha
      | _ => exact absurd hbrings id

/-- The sessions have just been opened, and the login has no result. -/
theorem sound_start (available : ℕ → AuthType → Bool) (locks : ℕ → AuthType → LockState)
    (limits : LimitTable) (now : ℤ) (hc : ∀ j, (c j).Fresh) (env : SignalEnv) {ud : UserData}
    (hud : ud.res = -1) (timeout : ℤ) :
    Sound c i [] (start (.start available locks c limits now) env ud timeout) := by
  have hres : (startVerify env ud timeout).1.res = -1 := by
    unfold startVerify
    split_ifs
    · exact (keepsThread_mfaStartVerify env ud 0 timeout).1.trans hud
    · exact hud
  refine ⟨threads_start _, handshakeAt_start _, genuine_start ?_, ⟨?_, ?_⟩, ?_, ?_, ?_⟩
  · split_ifs
    · rw [hres]
      exact go_on_ne_success
    · exact abort_ne_success
  · intro j
    exact (hc j).follows
  · intro j tx msg hcall
    cases hcall
  · intro j hsuccess
    cases hsuccess
  · intro e he
    cases he
  · intro hreply
    cases hreply

/-- **A login succeeds for a session that has earned it.** For any sessions of a user and any
interleaving of the service, the bus and the two threads of a login: where the result of the login is
`PAM_SUCCESS`, its own session has emitted the success of the whole, or a session that has answered
`GetResult` to it as its master has; and when that was emitted, the controller of that session had
received a success of each factor, the most recent result of each, or, without several factors, a
success as the latest code of one of its factors. -/
theorem login_genuine (available : ℕ → AuthType → Bool) (locks : ℕ → AuthType → LockState)
    (limits : LimitTable) (now : ℤ) (hc : ∀ j, (c j).Fresh) (env : SignalEnv) {ud : UserData}
    (hud : ud.res = -1) (timeout : ℤ) {acts : List SystemAction}
    (hr : run (step translate k i sessionOf)
      (start (.start available locks c limits now) env ud timeout) acts = some (s, events))
    (hsuccess : s.login.ud.res = pamSuccess ∨ s.login.bus = .returned pamSuccess) :
    Earned c i events := by
  have hsound : Sound c i ([] ++ events) s :=
    run_history (P := fun _ _ => True) (fun _ _ _ _ _ h _ hs => h.step hs)
      (sound_start available locks limits now hc env hud timeout)
      (along_of_forall (fun _ _ => trivial) _ acts) hr
  rcases hsuccess with hres | hret
  · exact hsound.genuine.res hres
  · exact hsound.genuine.returned hret

/-- Limits that have counted no failure. -/
def fewLimits : LimitTable :=
  (∅ : LimitTable).insert (.Local, "uos") ((∅ : UserLimits).insert .password
    (some (.ofConfig ⟨.password, 60, 5, false, []⟩)))

/-- The bus thread handles a signal. -/
def handleSignal : List SystemAction := [.login .bus, .deliver allOk, .login .bus, .login .bus]

/-- The password is started and accepted, and the login is told. -/
def passwordAccepted : List SystemAction :=
  [.service (.askLimit 0 .password true),
    .service (.noteLimit 0 0 ⟨none, -1, none⟩ .quit),
    .service (.authenticate 0 .password (.password (.authenticate true))),
    .service (.receive 0 .listed), .service (.call 0)] ++ handleSignal ++
  [.service (.tx 0 .password (.password (.doAuth ⟨1, 1⟩ true))),
    .service (.receive 0 .listed), .service (.call 0), .service (.call 0), .service (.call 0)] ++
  handleSignal ++ handleSignal

/-- A session with a password alone. -/
def passwordSession : Service :=
  .start (fun _ t => t = .password) (fun _ _ => .unlock) (fun _ => .normal (.start [.password]))
    fewLimits 0

/-- A login with a password. -/
theorem login_genuine_password :
    ∃ s events, run (step id (.Local, "uos") 0 fun _ => none)
        (start passwordSession allOk anyFactor 60000) passwordAccepted = some (s, events) ∧
      s.login.ud.res = pamSuccess ∧ Earned (fun _ => .normal (.start [.password])) 0 events := by
  obtain ⟨s, events, hr, hres⟩ : ∃ s events, run (step id (.Local, "uos") 0 fun _ => none)
      (start passwordSession allOk anyFactor 60000) passwordAccepted = some (s, events) ∧
        s.login.ud.res = pamSuccess := by
    refine ⟨_, _, rfl, ?_⟩
    rfl
  exact ⟨s, events, hr, hres, login_genuine _ _ _ _ (fun _ => .normal [.password]) allOk rfl 60000
    hr (.inl hres)⟩

end ServedLogin

end LingmoAuthenticate.System
