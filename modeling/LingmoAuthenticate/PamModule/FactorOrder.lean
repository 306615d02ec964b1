import LingmoAuthenticate.Lib.Machine
import LingmoAuthenticate.PamModule.SignalDeal

/-!
# The order of the factors

With several factors, `pam_sm_authenticate` starts the first one of the order, and the handler of
the `Status` signal the others. How far the session has come is nowhere but in `curType`, which is
looked up in the order again on every success.

* `ordered_mfaSignalDeal`: a signal starts no factor, or the one after the factor whose success it
  reports.
* `Started a n ud`: `n` factors have been started, and `curType` is the type of the last one.
* `starts_follow_order`: over any signals, the factors started are the first ones of the order.
-/

namespace LingmoAuthenticate.PamModule

open Lib

/-- The types that `Start` is called for. -/
def starts (calls : List PamCall) : List ℤ :=
  calls.filterMap fun
    | .start flags _ => some flags
    | _ => none

@[simp] theorem starts_append (calls calls' : List PamCall) :
    starts (calls ++ calls') = starts calls ++ starts calls' := List.filterMap_append

variable {a : AuthSession} {env : SignalEnv} {ud ud' u : UserData} {signal : StatusSignal}
  {calls : List PamCall}

/-! ## One signal -/

theorem abort_ne_success : pamAbort ≠ pamSuccess := by decide

theorem auth_err_ne_success : pamAuthErr ≠ pamSuccess := by decide

theorem go_on_ne_success : (-1 : ℤ) ≠ pamSuccess := by decide

/-- The message of a verification starts no factor. -/
theorem starts_verifyCalls (env : SignalEnv) (signalMsg : String) :
    starts (verifyCalls env signalMsg) = [] := by
  unfold verifyCalls
  split
  · rfl
  · rfl

/-- Starting a factor that there is. -/
theorem mfaStartVerify_of_some {index : ℕ} {timeout t : ℤ}
    (ht : ud.authCtrl.types[index]? = some t) :
    mfaStartVerify env ud index timeout = ({ ud with curType := t },
      if env.startOk then pamSuccess else pamAbort, [.start t timeout]) := by
  rw [mfaStartVerify, ht]

/-- What a signal does that starts the factor after `t`: it tells of the success of `t` while that
is the current factor, tells the user, ends `t`, starts the next type in the order, and makes that
the current one. -/
structure StartsNext (ud : UserData) (signal : StatusSignal) (ud' : UserData)
    (calls : List PamCall) (t : ℤ) : Prop where
  code : signal.code = .success
  authType : signal.authType = t
  curType : ud.curType = t
  next : ∃ t', ud.authCtrl.types[ud.authCtrl.types.findIdx (· = t) + 1]? = some t' ∧
    ud'.curType = t' ∧
    calls = [.sendMsg "Verification successful" .pamTextInfo, .end_ t, .start t' (-1)]

/-- The factor that comes after the current one is started, or none is. -/
theorem mfaNext_cases (env : SignalEnv) (ud : UserData) (authType : ℤ) :
    let r := mfaNext env ud authType
    r.1.authCtrl = ud.authCtrl ∧ r.2.1 ≠ pamSuccess ∧
      (starts r.2.2 = [] ∧ r.1.curType = ud.curType ∨
        authType = ud.curType ∧
        ∃ t', ud.authCtrl.types[ud.authCtrl.types.findIdx (· = authType) + 1]? = some t' ∧
          r.1.curType = t' ∧ r.2.2 = [.end_ authType, .start t' (-1)]) := by
  unfold mfaNext
  by_cases hcur : authType = ud.curType
  · subst hcur
    rw [if_pos rfl]
    dsimp only
    by_cases hnone : ud.authCtrl.types.findIdx (· = ud.curType) = ud.authCtrl.factorSize
    · rw [if_pos hnone]
      exact ⟨rfl, abort_ne_success, Or.inl ⟨rfl, rfl⟩⟩
    rw [if_neg hnone]
    by_cases hlast : ud.authCtrl.types.findIdx (· = ud.curType) = ud.authCtrl.factorSize - 1
    · rw [if_pos hlast]
      exact ⟨rfl, go_on_ne_success, Or.inl ⟨rfl, rfl⟩⟩
    rw [if_neg hlast]
    have hle : ud.authCtrl.types.findIdx (· = ud.curType) ≤ ud.authCtrl.factorSize := by
      rw [← ud.authCtrl.length_types]
      exact List.findIdx_le_length
    have hlt : ud.authCtrl.types.findIdx (· = ud.curType) + 1 < ud.authCtrl.types.length := by
      rw [ud.authCtrl.length_types]
      omega
    obtain ⟨t', ht'⟩ : ∃ t', ud.authCtrl.types[
        ud.authCtrl.types.findIdx (· = ud.curType) + 1]? = some t' :=
      ⟨_, List.getElem?_eq_getElem hlt⟩
    rw [mfaStartVerify_of_some ht']
    refine ⟨rfl, ?_, Or.inr ⟨rfl, t', ht', rfl, rfl⟩⟩
    dsimp only
    cases env.startOk with
    | true => exact go_on_ne_success
    | false => exact abort_ne_success
  · rw [if_neg hcur]
    exact ⟨rfl, go_on_ne_success, Or.inl ⟨rfl, rfl⟩⟩

/-- What a handler does about the order: it starts no factor, or the one after the factor whose
success the signal reports. -/
structure Ordered (ud : UserData) (signal : StatusSignal) (r : UserData × ℤ × List PamCall) :
    Prop where
  authCtrl : r.1.authCtrl = ud.authCtrl
  success : r.2.1 = pamSuccess → signal.code = .success ∧ signal.authType = -1
  starts : starts r.2.2 = [] ∧ r.1.curType = ud.curType ∨ ∃ t, StartsNext ud signal r.1 r.2.2 t

/-- A handler that starts no factor, and does not succeed. -/
theorem Ordered.of_quiet {r : UserData × ℤ × List PamCall} (hctrl : r.1.authCtrl = ud.authCtrl)
    (hcur : r.1.curType = ud.curType) (hres : r.2.1 ≠ pamSuccess)
    (hstarts : PamModule.starts r.2.2 = []) : Ordered ud signal r :=
  ⟨hctrl, fun h => absurd h hres, Or.inl ⟨hstarts, hcur⟩⟩

/-- A token thread is no matter of the order. -/
theorem ordered_createTokenThread (env : SignalEnv) (ud : UserData) (prompt : String) :
    Ordered ud signal (createTokenThread env ud prompt) := by
  unfold createTokenThread
  split_ifs
  · exact .of_quiet rfl rfl abort_ne_success rfl
  · exact .of_quiet rfl rfl go_on_ne_success rfl
  · exact .of_quiet rfl rfl abort_ne_success rfl

/-- **One signal.** -/
theorem ordered_mfaSignalDeal (env : SignalEnv) (ud : UserData) (signal : StatusSignal) :
    Ordered ud signal (mfaSignalDeal env ud signal) := by
  obtain ⟨authType, code, msg⟩ := signal
  cases code with
  | success =>
      unfold mfaSignalDeal
      dsimp only
      split_ifs with htype
      · obtain ⟨hctrl, hres, hnext⟩ := mfaNext_cases env ud authType
        refine ⟨hctrl, fun h => absurd h hres, ?_⟩
        rcases hnext with ⟨hstarts, hcur⟩ | ⟨hcur, t', ht', hcur', hcalls⟩
        · exact Or.inl ⟨hstarts, hcur⟩
        · exact Or.inr ⟨authType, rfl, rfl, hcur.symm, t', ht', hcur', by rw [hcalls]⟩
      · exact ⟨rfl, fun _ => ⟨rfl, not_not.mp htype⟩, Or.inl ⟨rfl, rfl⟩⟩
  | failure =>
      unfold mfaSignalDeal
      dsimp only
      split_ifs
      · exact .of_quiet rfl rfl auth_err_ne_success rfl
      · exact .of_quiet rfl rfl auth_err_ne_success rfl
      · exact .of_quiet rfl rfl go_on_ne_success rfl
  | prompt =>
      unfold mfaSignalDeal
      dsimp only
      split_ifs
      · exact .of_quiet rfl rfl go_on_ne_success rfl
      · exact ordered_createTokenThread env ud (withColon msg)
      · exact ordered_createTokenThread env ud msg
      · exact .of_quiet rfl rfl go_on_ne_success rfl
  | verify => exact .of_quiet rfl rfl go_on_ne_success (starts_verifyCalls env msg)
  | _ => exact .of_quiet rfl rfl go_on_ne_success rfl

/-! ## The factors started so far -/

/-- `n` factors have been started, in the order of the session, and the current type is that of the
last one. -/
structure Started (a : AuthSession) (n : ℕ) (ud : UserData) : Prop where
  authCtrl : ud.authCtrl = a
  current : (n = 0 ∧ a.types = []) ∨ ∃ k, n = k + 1 ∧ a.types[k]? = some ud.curType

/-- With distinct types, a type is found where it is. -/
theorem findIdx_of_nodup {types : List ℤ} (hnd : types.Nodup) {k : ℕ} {t : ℤ}
    (h : types[k]? = some t) : types.findIdx (· = t) = k := by
  obtain ⟨hk, rfl⟩ := List.getElem?_eq_some_iff.mp h
  rw [List.findIdx_eq hk]
  refine ⟨by simp, ?_⟩
  intro j hj
  simpa using fun heq => absurd ((List.Nodup.getElem_inj_iff hnd).mp heq) hj.ne

/-- The first factor. -/
theorem started_first (hud : ud.authCtrl = a) (env : SignalEnv) (timeout : ℤ) :
    let r := mfaStartVerify env ud 0 timeout
    ∃ n, Started a n r.1 ∧ starts r.2.2 = a.types.take n ∧ (a.types ≠ [] → n ≠ 0) := by
  subst hud
  rcases hall : ud.authCtrl.types with _ | ⟨t, ts⟩
  · have hnone : ud.authCtrl.types[0]? = none := by rw [hall]; rfl
    rw [mfaStartVerify, hnone]
    exact ⟨0, ⟨rfl, Or.inl ⟨rfl, hall⟩⟩, rfl, fun h => absurd rfl h⟩
  · have hsome : ud.authCtrl.types[0]? = some t := by rw [hall]; rfl
    rw [mfaStartVerify_of_some hsome]
    exact ⟨1, ⟨rfl, Or.inr ⟨0, rfl, hsome⟩⟩, rfl, fun _ => Nat.one_ne_zero⟩

/-- In the mode of several factors, every signal is handled. -/
theorem busSignalCb_isSome (hmfa : ud.authCtrl.isMFA = true) (x : StatusSignal × SignalEnv) :
    ∃ ud' calls, busSignalCb ud x = some (ud', calls) ∧ ud'.authCtrl = ud.authCtrl := by
  unfold busSignalCb signalDeal
  split_ifs
  · exact ⟨_, _, rfl, (ordered_mfaSignalDeal x.2 ud x.1).authCtrl⟩
  · exact ⟨_, _, rfl, rfl⟩

/-- **One step of the order.** -/
theorem Started.step (hmfa : a.isMFA = true) (hnd : a.types.Nodup) {n : ℕ} (h : Started a n ud)
    {x : StatusSignal × SignalEnv} (hs : busSignalCb ud x = some (ud', calls)) :
    (starts calls = [] ∧ Started a n ud') ∨
      ∃ k t t', n = k + 1 ∧ a.types[k]? = some t ∧ a.types[k + 1]? = some t' ∧
        x.1.code = .success ∧ x.1.authType = t ∧ ud.curType = t ∧
        calls = [.sendMsg "Verification successful" .pamTextInfo, .end_ t, .start t' (-1)] ∧
        Started a (n + 1) ud' := by
  obtain ⟨hctrl, hcurrent⟩ := h
  unfold busSignalCb signalDeal at hs
  rw [hctrl, if_pos hmfa] at hs
  split_ifs at hs
  · cases hs
    obtain ⟨hctrl', -, hcases⟩ := ordered_mfaSignalDeal x.2 ud x.1
    rcases hcases with ⟨hstarts, hcur⟩ | ⟨t, hcode, htype, hcur, t', ht', hcur', hcalls⟩
    · refine Or.inl ⟨hstarts, hctrl'.trans hctrl, ?_⟩
      dsimp only
      rw [hcur]
      exact hcurrent
    · rw [hctrl] at ht'
      rcases hcurrent with ⟨-, hnil⟩ | ⟨k, rfl, hk⟩
      · rw [hnil] at ht'
        cases ht'
      · rw [hcur] at hk
        rw [findIdx_of_nodup hnd hk] at ht'
        refine Or.inr ⟨k, t, t', rfl, hk, ht', hcode, htype, hcur, hcalls, hctrl'.trans hctrl, ?_⟩
        refine Or.inr ⟨k + 1, rfl, ?_⟩
        dsimp only
        rw [hcur']
        exact ht'
  · cases hs
    exact Or.inl ⟨rfl, hctrl, hcurrent⟩

/-- **A run of the order.** -/
theorem Started.run (hmfa : a.isMFA = true) (hnd : a.types.Nodup) {n : ℕ} (h : Started a n ud)
    {signals : List (StatusSignal × SignalEnv)} {obs : List (List PamCall)}
    (hr : Lib.run busSignalCb ud signals = some (ud', obs)) :
    ∃ n', n ≤ n' ∧ Started a n' ud' ∧
      a.types.take n ++ starts obs.flatten = a.types.take n' := by
  induction signals generalizing ud n obs with
  | nil =>
      cases hr
      exact ⟨n, le_rfl, h, List.append_nil _⟩
  | cons x signals ih =>
      obtain ⟨u, calls, obs', hs, hr', rfl⟩ := run_cons_eq_some.mp hr
      rw [List.flatten_cons, starts_append]
      rcases h.step hmfa hnd hs with ⟨hstarts, hu⟩ | ⟨k, t, t', rfl, -, ht', -, -, -, hcalls, hu⟩
      · rw [hstarts, List.nil_append]
        exact ih hu hr'
      · obtain ⟨n', hle, hud', htake⟩ := ih hu hr'
        refine ⟨n', by omega, hud', ?_⟩
        have hnext : a.types.take (k + 1 + 1) = a.types.take (k + 1) ++ [t'] := by
          rw [List.take_add_one, ht']
          rfl
        rw [← htake, hnext, hcalls, List.append_assoc]
        rfl

/-- **The factors in order.** For factors of distinct types, over all `Status` signals: each is
handled; the factors started, with the first one that is started before the signals, are the first
ones of the order; a signal that starts one reports the success of the last one started, which is
the current type, after `End` for it; and the result only becomes `PAM_SUCCESS` when the whole
session succeeds. -/
theorem starts_follow_order {factors : List AuthFactor}
    (hdistinct : (factors.map AuthFactor.authType).Nodup)
    (hud : ud.authCtrl = resolveAuthctrlFactors true factors) (env : SignalEnv) (timeout : ℤ)
    (signals : List (StatusSignal × SignalEnv)) :
    let types := (resolveAuthctrlFactors true factors).types
    let first := mfaStartVerify env ud 0 timeout
    (∃ ud' obs n, Lib.run busSignalCb first.1 signals = some (ud', obs) ∧
      starts (first.2.2 ++ obs.flatten) = types.take n ∧ (types ≠ [] → n ≠ 0)) ∧
    ∀ before x after u obs u' calls, signals = before ++ x :: after →
      Lib.run busSignalCb first.1 before = some (u, obs) → busSignalCb u x = some (u', calls) →
        (starts calls ≠ [] → ∃ k t t', starts (first.2.2 ++ obs.flatten) = types.take (k + 1) ∧
          types[k]? = some t ∧ types[k + 1]? = some t' ∧ x.1.code = .success ∧ x.1.authType = t ∧
          u.curType = t ∧
          calls = [.sendMsg "Verification successful" .pamTextInfo, .end_ t, .start t' (-1)]) ∧
        (u.res ≠ pamSuccess → u'.res = pamSuccess →
          x.1.code = .success ∧ x.1.authType = -1) := by
  intro types first
  have hnd : types.Nodup := AuthSession.nodup_types hdistinct
  obtain ⟨n, hstarted, hfirst, hne⟩ := started_first hud env timeout
  have hrun : ∀ signals ud' obs, Lib.run busSignalCb first.1 signals = some (ud', obs) →
      ∃ n', n ≤ n' ∧ Started (resolveAuthctrlFactors true factors) n' ud' ∧
        starts (first.2.2 ++ obs.flatten) = types.take n' := by
    intro signals ud' obs hr
    obtain ⟨n', hle, hstarted', htake⟩ := hstarted.run rfl hnd hr
    refine ⟨n', hle, hstarted', ?_⟩
    rw [starts_append, hfirst]
    exact htake
  constructor
  · have hsome : (Lib.run busSignalCb first.1 signals).isSome := by
      refine run_isSome (P := fun _ => True)
        (I := fun u => u.authCtrl = resolveAuthctrlFactors true factors) ?_
        hstarted.authCtrl (fun _ _ => trivial)
      intro u x hu _
      obtain ⟨u', calls, hs, hctrl⟩ := busSignalCb_isSome (by rw [hu]; rfl) x
      exact ⟨u', calls, hs, hctrl.trans hu⟩
    obtain ⟨⟨ud', obs⟩, hr⟩ := Option.isSome_iff_exists.mp hsome
    obtain ⟨n', hle, -, htake⟩ := hrun signals ud' obs hr
    exact ⟨ud', obs, n', hr, htake, fun htypes => by have := hne htypes; omega⟩
  · intro before x after u obs u' calls _ hr hs
    obtain ⟨n', -, hstarted', htake⟩ := hrun before u obs hr
    constructor
    · intro hstarts
      rcases hstarted'.step rfl hnd hs with
        ⟨hnil, -⟩ | ⟨k, t, t', rfl, hk, hk', hcode, htype, hcur, hcalls, -⟩
      · exact absurd hnil hstarts
      · exact ⟨k, t, t', htake, hk, hk', hcode, htype, hcur, hcalls⟩
    · intro hres hres'
      have hmfa : u.authCtrl.isMFA = true := by rw [hstarted'.authCtrl]; rfl
      unfold busSignalCb signalDeal at hs
      rw [if_pos hmfa] at hs
      split_ifs at hs
      · cases hs
        exact (ordered_mfaSignalDeal x.2 u x.1).success hres'
      · cases hs
        exact absurd hres' hres

/-- Every call succeeds, and no message can be decoded. -/
def allOk : SignalEnv where
  readable := true
  startOk := true
  alive := false
  threadOk := true
  limits _ := ⟨5, 0, false, []⟩
  zone := 0
  now := 0
  parse _ := none

/-- A login before its first factor. -/
def newLogin (a : AuthSession) : UserData where
  term := false
  prompt := ""
  pid := false
  curType := 0
  needCancel := true
  limits _ := ⟨5, 0, false, []⟩
  failedIndexs := []
  authCtrl := a
  res := -1

/-- A password, and a fingerprint of a higher priority. -/
def passwordAndFinger : List AuthFactor := [⟨1, 2, 1, true⟩, ⟨2, 5, 2, true⟩]

/-- The fingerprint comes first, and the password after its success. -/
theorem starts_follow_order_finger_first :
    ∃ ud' obs n, Lib.run busSignalCb
        (mfaStartVerify allOk (newLogin (resolveAuthctrlFactors true passwordAndFinger)) 0 60000).1
        [(⟨2, .success, ""⟩, allOk), (⟨2, .success, ""⟩, allOk)] = some (ud', obs) ∧
      starts (.start 2 60000 :: obs.flatten) = [2, 1].take n ∧ n ≠ 0 := by
  obtain ⟨ud', obs, n, hr, htake, hne⟩ := (@starts_follow_order
    (newLogin (resolveAuthctrlFactors true passwordAndFinger)) passwordAndFinger (by decide) rfl
    allOk 60000 [(⟨2, .success, ""⟩, allOk), (⟨2, .success, ""⟩, allOk)]).1
  exact ⟨ud', obs, n, hr, htake, hne (by decide)⟩

end LingmoAuthenticate.PamModule
