import LingmoAuthenticate.PamModule.Terminal

/-!
# The two threads of a login

The loop of `pam_sm_authenticate` handles what comes over the bus. When the session prompts for
something to type in, a handler creates a token thread, `run_request_pw`, that asks the user and
sends the answer; both threads read and write the same `UserData`, without a lock.

* A step of `Login.step` is one read or write of one thread, or a call of it that returns; the
  actions say which thread steps and what comes from outside.
* An answer with a semicolon is the path of a session that has been ended elsewhere: `GetResult` is
  called there. The reply comes to the bus thread, and the token thread waits for a flag.
* `Threads`: there is no token thread before `pid` is set, so that there is never a second one.
-/

namespace LingmoAuthenticate.PamModule

open Lib

/-- Source: `common.h`, `GET_RESULT_SUCCESS`. -/
def getResultSuccess : ℤ := 0

/-- Source: `common.h`, `GET_RESULT_UNAVAILABLE`. -/
def getResultUnavailable : ℤ := 2

/-- The path and the token of an answer with a semicolon; without a token, `tok` stays NULL.
Source: `pam.c`, `split_data`. -/
def splitData (resp : List Char) : Option (List Char × Option (List Char)) :=
  match resp.dropWhile (· ≠ ';') with
  | [] => none
  | _ :: tok => some (resp.takeWhile (· ≠ ';'), if tok = [] then none else some tok)

/-- Where the token thread is. Source: `pam.c`, `run_request_pw`. -/
inductive TokenPlace where
  /-- In the conversation of `send_msg`. -/
  | ask
  /-- The conversation has failed; `ud->res` is compared with -1, and read again if it is not. -/
  | failed (rep : Option (List Char))
  | reread (rep : Option (List Char))
  | abort (res : ℤ) (rep : Option (List Char))
  /-- In `dbus_method_getResult`. -/
  | getResult (path : List Char) (tok : Option (List Char)) (resp : List Char)
  | unavailable (tok : Option (List Char)) (resp : List Char)
  | announce (tok : Option (List Char)) (resp : List Char)
  /-- In the loop over `ud->waiting_result`. -/
  | spin (tok : Option (List Char)) (resp : List Char)
  | readVal (tok : Option (List Char)) (resp : List Char)
  /-- `GetResult` was successful. -/
  | saveTok (tok : List Char)
  | setItem
  | storeSuccess
  /-- In `dbus_method_setToken`. -/
  | setToken (resp : List Char)
  | storeAbort (resp : List Char)
  | save (resp : List Char)
  deriving DecidableEq, Repr

/-- Where the bus thread is. Source: `pam.c`, the loop of `pam_sm_authenticate` and what it
calls. -/
inductive BusPlace where
  /-- The loop compares `ud->res` with -1. -/
  | test
  /-- In `sd_bus_process`, or in `sd_bus_wait`. -/
  | process
  /-- The handler of `bus_signal_cb` has returned. -/
  | assign (ret : ℤ)
  | publish
  | checkTok
  | setItem
  /-- In `call_getResult_cb`. -/
  | gotResult (value : Option ℤ)
  | wake (value : Option ℤ)
  /-- The bus has failed. -/
  | busError
  /-- After the loop. -/
  | report
  | clean
  | join
  | returned (res : ℤ)
  deriving DecidableEq, Repr

/-- A callback of `GetResult` is running. -/
def BusPlace.inCallback : BusPlace → Bool
  | .gotResult _ | .wake _ => true
  | _ => false

/-- The bus has been closed. -/
def BusPlace.closed : BusPlace → Bool
  | .join | .returned _ => true
  | _ => false

/-- The data of a login, with the two threads. `authTok`, `waitingResult` and `getResultVal` are
fields of the source's `UserData`; `pamAuthtok` and `result`, which is
"deepin_authenticate_result", are data of PAM. The last three record what has happened: the last
answer that was sent, the reply that was handled for the token thread there is, and the first result
other than -1. -/
structure Login where
  ud : UserData
  authTok : Option (List Char)
  waitingResult : Bool
  getResultVal : ℤ
  pamAuthtok : Option (List Char)
  result : Option Bool
  token : Option TokenPlace
  bus : BusPlace
  queued : Bool
  sent : Option (List Char)
  reply : Option (Option ℤ)
  stored : Option ℤ

/-- What a step does outside of the login: what a handler of signals calls and shows, or a call of
`GetResult` or `SetToken` to the service. -/
inductive LoginCall where
  | handler (calls : List PamCall)
  | getResult (path : List Char)
  | setToken (authType : ℤ) (password : List Char)
  deriving DecidableEq, Repr

/-- A step of one of the threads; after `answer`, `call` and `cancel`, the token thread, and after
`token`, its next read or write. The others are the bus thread's: nothing comes, or a message whose
callback does nothing; a signal comes; the reply of `GetResult` comes, `none` for an error; the bus
fails; the next read or write. -/
inductive Action where
  | answer (failed : Bool) (rep : Option (List Char))
  | call (ok : Bool)
  | token
  | cancel
  | idle
  | signal (x : StatusSignal × SignalEnv)
  | reply (value : Option ℤ)
  | busError
  | bus

/-- A thread stores a result. -/
def Login.store (s : Login) (res : ℤ) : Login :=
  { s with
    ud := { s.ud with res := res }
    stored := s.stored.or (if res = -1 then none else some res) }

/-! ## The token thread -/

/-- The thread ends where the conversation returns nothing. -/
def afterAnswer : Option (List Char) → Option TokenPlace
  | none => none
  | some resp =>
      match splitData resp with
      | none => some (.setToken resp)
      | some (path, tok) => some (.getResult path tok resp)

theorem afterAnswer_cases (rep : Option (List Char)) :
    afterAnswer rep = none ∨ (∃ resp, afterAnswer rep = some (.setToken resp)) ∨
      ∃ path tok resp, afterAnswer rep = some (.getResult path tok resp) := by
  rcases rep with _ | resp
  · exact Or.inl rfl
  · unfold afterAnswer
    dsimp only
    split
    · exact Or.inr (Or.inl ⟨resp, rfl⟩)
    · exact Or.inr (Or.inr ⟨_, _, resp, rfl⟩)

/-- The conversation returns. Source: `pam.c`, `send_msg`. -/
def Login.stepAnswer (s : Login) (failed : Bool) (rep : Option (List Char)) : Option Login :=
  match s.token with
  | some .ask => some { s with token := if failed then some (.failed rep) else afterAnswer rep }
  | _ => none

/-- A call is sent, which takes an open bus, or fails.
Source: `dbus.c`, `dbus_method_getResult` and `dbus_method_setToken`. -/
def Login.stepCall (s : Login) (ok : Bool) : Option (Login × Option LoginCall) :=
  if ok = true ∧ s.bus.closed = true then none
  else
    match s.token with
    | some (.getResult path tok resp) =>
        if ok then
          some ({ s with queued := true, reply := none, token := some (.announce tok resp) },
            some (.getResult path))
        else some ({ s with reply := none, token := some (.unavailable tok resp) }, none)
    | some (.setToken resp) =>
        if ok then some ({ s with sent := some resp, token := some (.save resp) },
          some (.setToken s.ud.curType resp))
        else some ({ s with token := some (.storeAbort resp) }, none)
    | _ => none

/-- The next read or write. Source: `pam.c`, `send_msg` and `run_request_pw`. -/
def Login.stepToken (s : Login) : Option Login :=
  match s.token with
  | some (.failed rep) =>
      some { s with token := some (if s.ud.res = -1 then .abort pamAbort rep else .reread rep) }
  | some (.reread rep) => some { s with token := some (.abort s.ud.res rep) }
  | some (.abort res rep) => some { s.store res with token := afterAnswer rep }
  | some (.unavailable tok resp) =>
      some { s with getResultVal := getResultUnavailable, token := some (.spin tok resp) }
  | some (.announce tok resp) =>
      some { s with waitingResult := true, token := some (.spin tok resp) }
  | some (.spin tok resp) =>
      some { s with token := some (if s.waitingResult then .spin tok resp else .readVal tok resp) }
  | some (.readVal tok resp) =>
      some { s with
        token := some (if s.getResultVal = getResultSuccess then tok.elim .storeSuccess .saveTok
          else .setToken resp) }
  | some (.saveTok tok) => some { s with authTok := some tok, token := some .setItem }
  | some .setItem => some { s with pamAuthtok := s.authTok, token := some .storeSuccess }
  | some .storeSuccess => some { s.store pamSuccess with token := none }
  | some (.storeAbort resp) => some { s.store pamAbort with token := some (.save resp) }
  | some (.save resp) => some { s with authTok := some resp, token := none }
  | none | some .ask | some (.getResult ..) | some (.setToken _) => none

/-- Where `pthread_cancel` takes effect: in the conversation, in `usleep` and in a call. -/
def TokenPlace.cancelPoint : TokenPlace → Bool
  | .ask | .spin .. | .getResult .. | .setToken _ => true
  | _ => false

/-- The bus thread has cancelled the token thread. Source: `pam.c`, `clean_auth_data`. -/
def Login.stepCancel (s : Login) : Option Login :=
  if s.bus = .join ∧ s.token.any TokenPlace.cancelPoint = true then some { s with token := none }
  else none

/-! ## The bus thread -/

/-- A signal comes: a handler runs, and may create a token thread. `pthread_kill` finds the token
thread while there is one. Source: `pam.c`, `bus_signal_cb`. -/
def Login.stepSignal (s : Login) (x : StatusSignal × SignalEnv) :
    Option (Login × Option LoginCall) :=
  if s.bus = .process ∧ (s.token.isSome = true → x.2.alive = true) then
    if x.2.readable then
      (signalDeal x.2 s.ud x.1).map fun r =>
        ({ s with
          ud := r.1
          bus := .assign r.2.1
          token := if .requestPw ∈ r.2.2 then some .ask else s.token }, some (.handler r.2.2))
    else some ({ s with bus := .test }, none)
  else none

/-- The reply comes to the callback, which the bus always gives a message.
Source: `dbus.c`, `call_getResult_cb`. -/
def Login.stepReply (s : Login) (value : Option ℤ) : Option Login :=
  if s.bus = .process ∧ s.queued = true then
    some { s with queued := false, bus := .gotResult value }
  else none

/-- The next read or write. Source: `pam.c`, `pam_sm_authenticate`, `bus_signal_cb` and
`clean_auth_data`; `dbus.c`, `call_getResult_cb`. -/
def Login.stepBus (s : Login) : Option Login :=
  match s.bus with
  | .test => some { s with bus := if s.ud.res = -1 then .process else .report }
  | .assign ret => some { s.store ret with bus := .publish }
  | .publish => some { s with bus := if s.ud.res = pamSuccess then .checkTok else .test }
  | .checkTok => some { s with bus := if s.authTok.isSome then .setItem else .test }
  | .setItem => some { s with pamAuthtok := s.authTok, bus := .test }
  | .gotResult value =>
      some { s with getResultVal := value.getD getResultUnavailable, bus := .wake value }
  | .wake value =>
      some { s with waitingResult := false, reply := some value, bus := .test }
  | .busError => some { s.store pamAbort with bus := .report }
  | .report => some { s with result := some (s.ud.res = pamSuccess), bus := .clean }
  | .clean => some { s with bus := .join }
  | .join => if s.token = none then some { s with bus := .returned s.ud.res } else none
  | .process | .returned _ => none

/-- One step of either thread. -/
def Login.step (s : Login) : Action → Option (Login × Option LoginCall)
  | .answer failed rep => (s.stepAnswer failed rep).map (·, none)
  | .call ok => s.stepCall ok
  | .token => s.stepToken.map (·, none)
  | .cancel => s.stepCancel.map (·, none)
  | .idle => if s.bus = .process then some ({ s with bus := .test }, none) else none
  | .signal x => s.stepSignal x
  | .reply value => (s.stepReply value).map (·, none)
  | .busError => if s.bus = .process then some ({ s with bus := .busError }, none) else none
  | .bus => s.stepBus.map (·, none)

/-- A login before its loop; where there is a result before it, the loop ends at once.
Source: `pam.c`, `pam_sm_authenticate`. -/
def Login.start (ud : UserData) : Login where
  ud := ud
  authTok := none
  waitingResult := false
  getResultVal := 0
  pamAuthtok := none
  result := none
  token := none
  bus := .test
  queued := false
  sent := none
  reply := none
  stored := if ud.res = -1 then none else some ud.res

/-! ## One token thread at a time -/

variable {ud : UserData} {env : SignalEnv} {signal : StatusSignal}

/-- What a handler does about the result and the token thread: it does not write `ud->res`, and it
only creates a thread where there is none. -/
structure KeepsThread (env : SignalEnv) (ud : UserData) (r : UserData × ℤ × List PamCall) :
    Prop where
  res : r.1.res = ud.res
  pid : ud.pid = true → r.1.pid = true
  creates : .requestPw ∈ r.2.2 → r.1.pid = true ∧ (ud.pid = true → env.alive = false)

/-- A handler that creates no thread. -/
theorem KeepsThread.of_quiet {r : UserData × ℤ × List PamCall} (hres : r.1.res = ud.res)
    (hpid : r.1.pid = ud.pid) (hcalls : .requestPw ∉ r.2.2) : KeepsThread env ud r :=
  ⟨hres, fun h => hpid.trans h, fun h => absurd h hcalls⟩

theorem not_requestPw_verifyCalls (env : SignalEnv) (signalMsg : String) :
    .requestPw ∉ verifyCalls env signalMsg := by
  unfold verifyCalls
  split
  · simp
  · simp

/-- A thread is only created where there was none. -/
theorem keepsThread_createTokenThread (env : SignalEnv) (ud : UserData) (prompt : String) :
    KeepsThread env ud (createTokenThread env ud prompt) := by
  unfold createTokenThread
  split_ifs with hthere hok
  · exact .of_quiet rfl rfl (by simp)
  · refine ⟨rfl, fun _ => rfl, fun _ => ⟨rfl, ?_⟩⟩
    intro hpid
    exact Bool.eq_false_iff.mpr fun halive => hthere ⟨hpid, halive⟩
  · exact .of_quiet rfl rfl (by simp)

/-- A factor is started without a thread. -/
theorem keepsThread_mfaStartVerify (env : SignalEnv) (ud : UserData) (index : ℕ) (timeout : ℤ) :
    let r := mfaStartVerify env ud index timeout
    r.1.res = ud.res ∧ r.1.pid = ud.pid ∧ .requestPw ∉ r.2.2 := by
  unfold mfaStartVerify
  split
  · exact ⟨rfl, rfl, by simp⟩
  · exact ⟨rfl, rfl, by simp⟩

/-- The next factor, too. -/
theorem keepsThread_mfaNext (env : SignalEnv) (ud : UserData) (authType : ℤ) :
    let r := mfaNext env ud authType
    r.1.res = ud.res ∧ r.1.pid = ud.pid ∧ .requestPw ∉ r.2.2 := by
  unfold mfaNext
  dsimp only
  by_cases hcur : authType = ud.curType
  · rw [if_pos hcur]
    by_cases hnone : ud.authCtrl.types.findIdx (· = ud.curType) = ud.authCtrl.factorSize
    · rw [if_pos hnone]
      exact ⟨rfl, rfl, by simp⟩
    rw [if_neg hnone]
    by_cases hlast : ud.authCtrl.types.findIdx (· = ud.curType) = ud.authCtrl.factorSize - 1
    · rw [if_pos hlast]
      exact ⟨rfl, rfl, by simp⟩
    rw [if_neg hlast]
    obtain ⟨hres, hpid, hcalls⟩ := keepsThread_mfaStartVerify env ud
      (ud.authCtrl.types.findIdx (· = ud.curType) + 1) (-1)
    exact ⟨hres, hpid, by simpa using hcalls⟩
  · rw [if_neg hcur]
    exact ⟨rfl, rfl, by simp⟩

theorem keepsThread_mfaSignalDeal (env : SignalEnv) (ud : UserData) (signal : StatusSignal) :
    KeepsThread env ud (mfaSignalDeal env ud signal) := by
  obtain ⟨authType, code, msg⟩ := signal
  cases code with
  | success =>
      unfold mfaSignalDeal
      dsimp only
      split_ifs
      · obtain ⟨hres, hpid, hcalls⟩ := keepsThread_mfaNext env ud authType
        exact .of_quiet hres hpid (by simpa using hcalls)
      · exact .of_quiet rfl rfl (by simp)
  | failure =>
      unfold mfaSignalDeal
      dsimp only
      split_ifs
      · exact .of_quiet rfl rfl (by simp)
      · exact .of_quiet rfl rfl (by simp)
      · exact .of_quiet rfl rfl (by simp)
  | prompt =>
      unfold mfaSignalDeal
      dsimp only
      split_ifs
      · exact .of_quiet rfl rfl (by simp)
      · exact keepsThread_createTokenThread env ud (withColon msg)
      · exact keepsThread_createTokenThread env ud msg
      · exact .of_quiet rfl rfl (by simp)
  | verify => exact .of_quiet rfl rfl (not_requestPw_verifyCalls env msg)
  | _ => exact .of_quiet rfl rfl (by simp [mfaSignalDeal])

theorem keepsThread_sfaSignalDeal {r : UserData × ℤ × List PamCall}
    (h : sfaSignalDeal env ud signal = some r) : KeepsThread env ud r := by
  obtain ⟨authType, code, msg⟩ := signal
  cases code with
  | success =>
      simp only [sfaSignalDeal] at h
      split_ifs at h
      · cases h
        exact .of_quiet rfl rfl (by simp)
      · cases h
        exact .of_quiet rfl rfl (by simp)
  | failure =>
      simp only [sfaSignalDeal] at h
      split_ifs at h
      · cases h
        exact .of_quiet rfl rfl (by simp)
      · obtain ⟨typeIndex, -, rfl⟩ := Option.map_eq_some_iff.mp h
        dsimp only
        split_ifs
        · exact .of_quiet rfl rfl (by simp)
        · exact .of_quiet rfl rfl (by simp)
  | prompt =>
      simp only [sfaSignalDeal] at h
      split_ifs at h
      · cases h
        exact keepsThread_createTokenThread env ud (msg ++ ":")
      · cases h
        exact keepsThread_createTokenThread env ud msg
      · cases h
        exact .of_quiet rfl rfl (by simp)
  | verify =>
      cases h
      exact .of_quiet rfl rfl (not_requestPw_verifyCalls env msg)
  | _ =>
      cases h
      exact .of_quiet rfl rfl (by simp)

/-- **What a handler does about the thread**, in both modes. -/
theorem keepsThread_signalDeal {r : UserData × ℤ × List PamCall}
    (h : signalDeal env ud signal = some r) : KeepsThread env ud r := by
  unfold signalDeal at h
  split_ifs at h
  · cases h
    exact keepsThread_mfaSignalDeal env ud signal
  · exact keepsThread_sfaSignalDeal h

/-- A token thread is running only after `pid` has been set. -/
def Threads (s : Login) : Prop := s.token.isSome = true → s.ud.pid = true

variable {s s' : Login} {o : Option LoginCall} {a : Action}

/-- **What a signal does**: it cannot be read, or a handler runs, that may create a token thread
where there is none. -/
theorem signal_cases {x : StatusSignal × SignalEnv} (h : Threads s)
    (hs : s.stepSignal x = some (s', o)) :
    s.bus = .process ∧
      (s' = { s with bus := .test } ∨
        ∃ r, x.2.readable = true ∧ signalDeal x.2 s.ud x.1 = some r ∧ r.1.res = s.ud.res ∧
          (s' = { s with ud := r.1, bus := .assign r.2.1 } ∧
              (s.ud.pid = true → r.1.pid = true) ∨
            s.token = none ∧ r.1.pid = true ∧
              s' = { s with ud := r.1, bus := .assign r.2.1, token := some .ask })) := by
  unfold Login.stepSignal at hs
  split_ifs at hs with hcomes hread
  · obtain ⟨r, hr, heq⟩ := Option.map_eq_some_iff.mp hs
    cases heq
    obtain ⟨hres, hpid, hcreates⟩ := keepsThread_signalDeal hr
    refine ⟨hcomes.1, Or.inr ⟨r, hread, hr, hres, ?_⟩⟩
    by_cases hcall : .requestPw ∈ r.2.2
    · obtain ⟨hpid', halive⟩ := hcreates hcall
      refine Or.inr ⟨?_, hpid', by rw [if_pos hcall]⟩
      rcases htoken : s.token with _ | place
      · rfl
      · have hsome : s.token.isSome = true := by rw [htoken]; rfl
        have hdead := halive (h hsome)
        rw [hcomes.2 hsome] at hdead
        cases hdead
    · exact Or.inl ⟨by rw [if_neg hcall], hpid⟩
  · cases hs
    exact ⟨hcomes.1, Or.inl rfl⟩

/-- A step without a call. -/
theorem of_map_pair {x : Option Login} (h : x.map (·, none) = some (s', o)) : x = some s' := by
  obtain ⟨t, rfl, heq⟩ := Option.map_eq_some_iff.mp h
  cases heq
  rfl

/-- The conversation has returned. -/
theorem answer_cases {failed : Bool} {rep : Option (List Char)}
    (hs : s.stepAnswer failed rep = some s') :
    s.token = some .ask ∧
      s' = { s with token := if failed then some (.failed rep) else afterAnswer rep } := by
  unfold Login.stepAnswer at hs
  split at hs
  · next htoken =>
      cases hs
      exact ⟨htoken, rfl⟩
  · cases hs

/-- A call has been sent, or has failed. -/
theorem call_cases {ok : Bool} (hs : s.stepCall ok = some (s', o)) :
    (∃ path tok resp, s.token = some (.getResult path tok resp) ∧
      (ok = true ∧ s.bus.closed = false ∧
          s' = { s with queued := true, reply := none, token := some (.announce tok resp) } ∨
        ok = false ∧ s' = { s with reply := none, token := some (.unavailable tok resp) })) ∨
      ∃ resp, s.token = some (.setToken resp) ∧
        (ok = true ∧ s.bus.closed = false ∧
            s' = { s with sent := some resp, token := some (.save resp) } ∨
          ok = false ∧ s' = { s with token := some (.storeAbort resp) }) := by
  unfold Login.stepCall at hs
  by_cases hclosed : ok = true ∧ s.bus.closed = true
  · rw [if_pos hclosed] at hs
    cases hs
  rw [if_neg hclosed] at hs
  split at hs
  · next path tok resp htoken =>
      refine Or.inl ⟨path, tok, resp, htoken, ?_⟩
      cases ok with
      | true =>
          cases hs
          exact Or.inl ⟨rfl, by simpa using hclosed, rfl⟩
      | false =>
          cases hs
          exact Or.inr ⟨rfl, rfl⟩
  · next resp htoken =>
      refine Or.inr ⟨resp, htoken, ?_⟩
      cases ok with
      | true =>
          cases hs
          exact Or.inl ⟨rfl, by simpa using hclosed, rfl⟩
      | false =>
          cases hs
          exact Or.inr ⟨rfl, rfl⟩
  · cases hs

/-- The token thread has been cancelled. -/
theorem cancel_cases (hs : s.stepCancel = some s') :
    s.bus = .join ∧ (∃ place, s.token = some place ∧ place.cancelPoint = true) ∧
      s' = { s with token := none } := by
  unfold Login.stepCancel at hs
  split_ifs at hs with hcancel
  cases hs
  rcases htoken : s.token with _ | place
  · rw [htoken] at hcancel
    cases hcancel.2
  · rw [htoken] at hcancel
    exact ⟨hcancel.1, ⟨place, rfl, hcancel.2⟩, rfl⟩

/-- The reply has come. -/
theorem reply_cases {value : Option ℤ} (hs : s.stepReply value = some s') :
    s.bus = .process ∧ s.queued = true ∧
      s' = { s with queued := false, bus := .gotResult value } := by
  unfold Login.stepReply at hs
  split_ifs at hs with hcomes
  cases hs
  exact ⟨hcomes.1, hcomes.2, rfl⟩

/-- Nothing has come, or the bus has failed. -/
theorem process_cases {place : BusPlace}
    (hs : (if s.bus = .process then some ({ s with bus := place }, none) else none) =
      some (s', o)) : s.bus = .process ∧ s' = { s with bus := place } := by
  split_ifs at hs with hbus
  cases hs
  exact ⟨hbus, rfl⟩

/-- The token thread ends, or goes on. -/
theorem isSome_of_stepToken (hs : s.stepToken = some s') :
    s.token.isSome = true ∧ s'.ud.pid = s.ud.pid := by
  rcases htoken : s.token with _ | place
  · rw [Login.stepToken, htoken] at hs
    cases hs
  · refine ⟨rfl, ?_⟩
    unfold Login.stepToken at hs
    rw [htoken] at hs
    cases place
    all_goals cases hs
    all_goals rfl

/-- The other reads and writes of the bus thread leave the token thread alone. -/
theorem token_of_stepBus (hs : s.stepBus = some s') :
    s'.token = s.token ∧ s'.ud.pid = s.ud.pid := by
  unfold Login.stepBus at hs
  cases hbus : s.bus with
  | join =>
      rw [hbus] at hs
      dsimp only at hs
      split_ifs at hs
      cases hs
      exact ⟨rfl, rfl⟩
  | process =>
      rw [hbus] at hs
      cases hs
  | returned res =>
      rw [hbus] at hs
      cases hs
  | _ =>
      rw [hbus] at hs
      cases hs
      exact ⟨rfl, rfl⟩

/-- **There is never a second token thread.** -/
theorem Threads.step (h : Threads s) (hs : s.step a = some (s', o)) : Threads s' := by
  cases a with
  | answer failed rep =>
      obtain ⟨htoken, rfl⟩ := answer_cases (of_map_pair hs)
      exact fun _ => h (by rw [htoken]; rfl)
  | call ok =>
      obtain ⟨path, tok, resp, htoken, ⟨-, -, rfl⟩ | ⟨-, rfl⟩⟩ |
        ⟨resp, htoken, ⟨-, -, rfl⟩ | ⟨-, rfl⟩⟩ := call_cases hs
      all_goals exact fun _ => h (by rw [htoken]; rfl)
  | token =>
      obtain ⟨hsome, hpid⟩ := isSome_of_stepToken (of_map_pair hs)
      exact fun _ => hpid.trans (h hsome)
  | cancel =>
      obtain ⟨-, -, rfl⟩ := cancel_cases (of_map_pair hs)
      exact fun hsome => by cases hsome
  | idle =>
      obtain ⟨-, rfl⟩ := process_cases hs
      exact h
  | signal x =>
      obtain ⟨-, rfl | ⟨r, -, -, -, ⟨rfl, hpid⟩ | ⟨-, hpid, rfl⟩⟩⟩ := signal_cases h hs
      · exact h
      · exact fun hsome => hpid (h hsome)
      · exact fun _ => hpid
  | reply value =>
      obtain ⟨-, -, rfl⟩ := reply_cases (of_map_pair hs)
      exact h
  | busError =>
      obtain ⟨-, rfl⟩ := process_cases hs
      exact h
  | bus =>
      obtain ⟨htoken, hpid⟩ := token_of_stepBus (of_map_pair hs)
      unfold Threads
      rw [htoken, hpid]
      exact h

end LingmoAuthenticate.PamModule
