import LingmoAuthenticate.PamModule.Handshake

/-!
# Where a success of a login comes from

Both threads store results, and copy the one that is there. Whatever they do to each other, a
`PAM_SUCCESS` goes back to a signal that reports the success of the whole session, or to a reply of
`GetResult`.

* `success_of_signalDeal`: the one signal that a handler returns `PAM_SUCCESS` for, in both modes.
* `Genuine E s`: wherever a success is kept or on its way in `s`, the evidence `E` is there.
* `Genuine.step`: one step of either thread.
-/

namespace LingmoAuthenticate.PamModule

open Lib

variable {ud : UserData} {env : SignalEnv} {signal : StatusSignal} {s s' : Login}
  {o : Option LoginCall} {a : Action} {E : Prop}

/-- The session reports its success. -/
def StatusSignal.succeeds (signal : StatusSignal) : Prop :=
  signal.code = .success ∧ signal.authType = -1

/-- The action brings a success into the login. -/
def Action.brings : Action → Prop
  | .signal x => x.2.readable = true ∧ x.1.succeeds
  | .reply value => value = some getResultSuccess
  | _ => False

/-! ## Signals -/

theorem createTokenThread_ne_success (env : SignalEnv) (ud : UserData) (prompt : String) :
    (createTokenThread env ud prompt).2.1 ≠ pamSuccess := by
  unfold createTokenThread
  split_ifs
  · exact abort_ne_success
  · exact go_on_ne_success
  · exact abort_ne_success

/-- Without an order of the factors. -/
theorem success_of_sfaSignalDeal {r : UserData × ℤ × List PamCall}
    (h : sfaSignalDeal env ud signal = some r) (hres : r.2.1 = pamSuccess) :
    signal.succeeds := by
  obtain ⟨authType, code, msg⟩ := signal
  cases code with
  | success =>
      simp only [sfaSignalDeal] at h
      split_ifs at h with htype
      · exact ⟨rfl, htype⟩
      · cases h
        exact absurd hres go_on_ne_success
  | failure =>
      simp only [sfaSignalDeal] at h
      split_ifs at h
      · cases h
        exact absurd hres go_on_ne_success
      · obtain ⟨typeIndex, -, rfl⟩ := Option.map_eq_some_iff.mp h
        dsimp only at hres
        split_ifs at hres
        · exact absurd hres auth_err_ne_success
        · exact absurd hres auth_err_ne_success
  | prompt =>
      simp only [sfaSignalDeal] at h
      split_ifs at h
      · cases h
        exact absurd hres (createTokenThread_ne_success env ud (msg ++ ":"))
      · cases h
        exact absurd hres (createTokenThread_ne_success env ud msg)
      · cases h
        exact absurd hres go_on_ne_success
  | _ =>
      cases h
      exact absurd hres go_on_ne_success

/-- **A handler returns `PAM_SUCCESS`** for the success of the whole session, and for nothing
else. -/
theorem success_of_signalDeal {r : UserData × ℤ × List PamCall}
    (h : signalDeal env ud signal = some r) (hres : r.2.1 = pamSuccess) : signal.succeeds := by
  unfold signalDeal at h
  split_ifs at h
  · cases h
    exact (ordered_mfaSignalDeal env ud signal).success hres
  · exact success_of_sfaSignalDeal h hres

/-! ## Both threads -/

/-- Wherever a success is kept, or on its way to `ud->res`, the evidence is there: in the result, in
the thread of the bus that assigns or returns it, in the token thread that aborts with it, and in a
reply to `GetResult` that is sent, handled or to be woken up with. -/
structure Genuine (E : Prop) (s : Login) : Prop where
  res : s.ud.res = pamSuccess → E
  assign : s.bus = .assign pamSuccess → E
  abort : ∀ rep, s.token = some (.abort pamSuccess rep) → E
  reply : s.reply = some (some getResultSuccess) → E
  callback : s.bus = .gotResult (some getResultSuccess) ∨
    s.bus = .wake (some getResultSuccess) → E
  returned : s.bus = .returned pamSuccess → E

theorem Genuine.imp {F : Prop} (h : Genuine E s) (hF : E → F) : Genuine F s :=
  ⟨fun hs => hF (h.res hs), fun hs => hF (h.assign hs), fun rep hs => hF (h.abort rep hs),
    fun hs => hF (h.reply hs), fun hs => hF (h.callback hs), fun hs => hF (h.returned hs)⟩

/-- A login that has no result has none to account for. -/
theorem genuine_start (hud : ud.res ≠ pamSuccess) : Genuine E (Login.start ud) :=
  ⟨fun h => absurd h hud, nofun, nofun, nofun, nofun, nofun⟩

/-- The bus thread goes to a place where nothing is on its way. -/
theorem Genuine.of_bus (h : Genuine E s) (hres : s'.ud.res = s.ud.res)
    (htoken : ∀ rep, s'.token = some (.abort pamSuccess rep) →
      s.token = some (.abort pamSuccess rep)) (hreply : s'.reply = s.reply)
    (hassign : s'.bus ≠ .assign pamSuccess) (hret : s'.bus ≠ .returned pamSuccess)
    (hcb : s'.bus.inCallback = false) : Genuine E s' := by
  refine ⟨?_, fun hbus => absurd hbus hassign, fun rep htok => h.abort rep (htoken rep htok), ?_, ?_,
    fun hbus => absurd hbus hret⟩
  · rw [hres]
    exact h.res
  · rw [hreply]
    exact h.reply
  · rintro (hbus | hbus)
    · rw [hbus] at hcb
      cases hcb
    · rw [hbus] at hcb
      cases hcb

/-- The token thread goes to a place where it does not store what it has read. -/
theorem Genuine.of_token (h : Genuine E s) (hres : s'.ud.res = pamSuccess → E)
    (hbus : s'.bus = s.bus) (htoken : ∀ rep, s'.token ≠ some (.abort pamSuccess rep))
    (hreply : s'.reply = none ∨ s'.reply = s.reply) : Genuine E s' := by
  refine ⟨hres, ?_, fun rep htok => absurd htok (htoken rep), ?_, ?_, ?_⟩
  · rw [hbus]
    exact h.assign
  · intro hsome
    rcases hreply with hnone | heq
    · rw [hnone] at hsome
      cases hsome
    · exact h.reply (heq ▸ hsome)
  · rw [hbus]
    exact h.callback
  · rw [hbus]
    exact h.returned

theorem afterAnswer_ne_abort (rep rep' : Option (List Char)) (res : ℤ) :
    afterAnswer rep ≠ some (.abort res rep') := by
  rcases afterAnswer_cases rep with h | ⟨resp, h⟩ | ⟨path, tok, resp, h⟩
  all_goals
    rw [h]
    nofun

/-- The token thread. -/
theorem Genuine.stepToken (hhand : HandshakeAt s) (h : Genuine E s) (hs : s.stepToken = some s') :
    Genuine E s' := by
  rcases htoken : s.token with _ | place
  · rw [Login.stepToken, htoken] at hs
    cases hs
  unfold HandshakeAt at hhand
  rw [htoken] at hhand
  unfold Login.stepToken at hs
  rw [htoken] at hs
  cases place with
  | ask => cases hs
  | getResult path tok resp => cases hs
  | setToken resp => cases hs
  | failed rep =>
      cases hs
      refine h.of_token h.res rfl ?_ (.inr rfl)
      intro rep' habort
      dsimp only at habort
      split_ifs at habort
      · rw [Option.some.injEq, TokenPlace.abort.injEq] at habort
        exact abort_ne_success habort.1
      · cases habort
  | reread rep =>
      -- what is read again is what is stored
      cases hs
      refine ⟨h.res, h.assign, ?_, h.reply, h.callback, h.returned⟩
      intro rep' habort
      rw [Option.some.injEq, TokenPlace.abort.injEq] at habort
      exact h.res habort.1
  | abort res rep =>
      cases hs
      refine h.of_token ?_ rfl (fun rep' => afterAnswer_ne_abort rep rep' _) (.inr rfl)
      intro hres
      exact h.abort rep (by rw [htoken, show res = pamSuccess from hres])
  | spin tok resp =>
      cases hs
      refine h.of_token h.res rfl ?_ (.inr rfl)
      intro rep' habort
      dsimp only at habort
      split_ifs at habort
      all_goals cases habort
  | readVal tok resp =>
      cases hs
      refine h.of_token h.res rfl ?_ (.inr rfl)
      intro rep' habort
      dsimp only at habort
      split_ifs at habort
      · cases tok
        all_goals cases habort
      · cases habort
  | storeSuccess =>
      -- the reply was a success
      cases hs
      exact h.of_token (fun _ => h.reply hhand.2) rfl (fun _ habort => by cases habort) (.inr rfl)
  | storeAbort resp =>
      cases hs
      exact h.of_token (fun hres => absurd hres abort_ne_success) rfl
        (fun _ habort => by cases habort) (.inr rfl)
  | _ =>
      cases hs
      exact h.of_token h.res rfl (fun _ habort => by cases habort) (.inr rfl)

/-- The bus thread. -/
theorem Genuine.stepBus (h : Genuine E s) (hs : s.stepBus = some s') : Genuine E s' := by
  unfold Login.stepBus at hs
  cases hbus : s.bus with
  | process =>
      rw [hbus] at hs
      cases hs
  | returned res =>
      rw [hbus] at hs
      cases hs
  | assign ret =>
      -- what the handler returned is stored
      rw [hbus] at hs
      cases hs
      refine ⟨?_, nofun, h.abort, h.reply, nofun, nofun⟩
      intro hres
      exact h.assign (by rw [hbus, show ret = pamSuccess from hres])
  | busError =>
      rw [hbus] at hs
      cases hs
      exact ⟨fun hres => absurd hres abort_ne_success, nofun, h.abort, h.reply, nofun, nofun⟩
  | gotResult value =>
      rw [hbus] at hs
      cases hs
      refine ⟨h.res, nofun, h.abort, h.reply, ?_, nofun⟩
      rintro (hcb | hcb)
      · cases hcb
      · rw [BusPlace.wake.injEq] at hcb
        exact h.callback (.inl (by rw [hbus, hcb]))
  | wake value =>
      rw [hbus] at hs
      cases hs
      refine ⟨h.res, nofun, h.abort, ?_, nofun, nofun⟩
      intro hreply
      rw [Option.some.injEq] at hreply
      exact h.callback (.inr (by rw [hbus, hreply]))
  | join =>
      rw [hbus] at hs
      dsimp only at hs
      split_ifs at hs
      cases hs
      refine ⟨h.res, nofun, h.abort, h.reply, nofun, ?_⟩
      intro hret
      rw [BusPlace.returned.injEq] at hret
      exact h.res hret
  | test =>
      rw [hbus] at hs
      cases hs
      refine h.of_bus rfl (fun _ => id) rfl ?_ ?_ ?_
      all_goals
        dsimp only
        split_ifs
      · nofun
      · nofun
      · nofun
      · nofun
      · rfl
      · rfl
  | publish =>
      rw [hbus] at hs
      cases hs
      refine h.of_bus rfl (fun _ => id) rfl ?_ ?_ ?_
      all_goals
        dsimp only
        split_ifs
      · nofun
      · nofun
      · nofun
      · nofun
      · rfl
      · rfl
  | checkTok =>
      rw [hbus] at hs
      cases hs
      refine h.of_bus rfl (fun _ => id) rfl ?_ ?_ ?_
      all_goals
        dsimp only
        split_ifs
      · nofun
      · nofun
      · nofun
      · nofun
      · rfl
      · rfl
  | _ =>
      rw [hbus] at hs
      cases hs
      exact h.of_bus rfl (fun _ => id) rfl nofun nofun rfl

/-- **One step of either thread**: a success is brought in, or copied. -/
theorem Genuine.step (hthreads : Threads s) (hhand : HandshakeAt s) (h : Genuine E s)
    (hE : a.brings → E) (hs : s.step a = some (s', o)) : Genuine E s' := by
  cases a with
  | answer failed rep =>
      obtain ⟨htoken, rfl⟩ := answer_cases (of_map_pair hs)
      refine h.of_token h.res rfl ?_ (.inr rfl)
      intro rep' habort
      dsimp only at habort
      split_ifs at habort
      · cases habort
      · exact afterAnswer_ne_abort rep rep' _ habort
  | call ok =>
      obtain ⟨path, tok, resp, htoken, ⟨-, -, rfl⟩ | ⟨-, rfl⟩⟩ |
        ⟨resp, htoken, ⟨-, -, rfl⟩ | ⟨-, rfl⟩⟩ := call_cases hs
      · exact h.of_token h.res rfl nofun (.inl rfl)
      · exact h.of_token h.res rfl nofun (.inl rfl)
      · exact h.of_token h.res rfl nofun (.inr rfl)
      · exact h.of_token h.res rfl nofun (.inr rfl)
  | token => exact h.stepToken hhand (of_map_pair hs)
  | cancel =>
      obtain ⟨-, -, rfl⟩ := cancel_cases (of_map_pair hs)
      exact h.of_token h.res rfl nofun (.inr rfl)
  | idle =>
      obtain ⟨-, rfl⟩ := process_cases hs
      exact h.of_bus rfl (fun _ => id) rfl nofun nofun rfl
  | signal x =>
      obtain ⟨-, rfl | ⟨r, hread, hr, hres, ⟨rfl, -⟩ | ⟨-, -, rfl⟩⟩⟩ := signal_cases hthreads hs
      · exact h.of_bus rfl (fun _ => id) rfl nofun nofun rfl
      all_goals
        refine ⟨fun hok => h.res (hres ▸ hok), ?_, ?_, h.reply, nofun, nofun⟩
        · intro hassign
          rw [BusPlace.assign.injEq] at hassign
          exact hE ⟨hread, success_of_signalDeal hr hassign⟩
      · exact h.abort
      · nofun
  | reply value =>
      obtain ⟨-, -, rfl⟩ := reply_cases (of_map_pair hs)
      refine ⟨h.res, nofun, h.abort, h.reply, ?_, nofun⟩
      rintro (hcb | hcb)
      · rw [BusPlace.gotResult.injEq] at hcb
        exact hE hcb
      · cases hcb
  | busError =>
      obtain ⟨-, rfl⟩ := process_cases hs
      exact h.of_bus rfl (fun _ => id) rfl nofun nofun rfl
  | bus => exact h.stepBus (of_map_pair hs)

end LingmoAuthenticate.PamModule
