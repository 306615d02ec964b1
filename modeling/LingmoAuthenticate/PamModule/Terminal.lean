import LingmoAuthenticate.PamModule.FactorOrder

/-!
# Statuses that end the conversation

`pam_sm_authenticate` handles signals as long as `ud->res` is -1. A session that reports a result
for all factors together (an `authType` of -1) reports nothing after it, so that a handler that
leaves the -1 there leaves the loop to wait for ever.

* `Conversation.step` is the loop, together with what the session has reported so far.
* `ends_iff`: which reports a handler ends the loop for.
* `terminal_ends_loop_iff`: over all signals, exactly where each report is one of these.
-/

namespace LingmoAuthenticate.PamModule

open Lib

/-- The codes after which a session reports nothing. -/
def AuthStutaCode.terminal : AuthStutaCode → Bool
  | .success | .failure | .cancel | .timeout | .error | .ended => true
  | _ => false

/-- The signal reports a result for all factors together. -/
def StatusSignal.ends (signal : StatusSignal) : Bool :=
  signal.authType = -1 ∧ signal.code.terminal = true

/-- The data of the login, `none` from where it is undefined on, and whether the session has
reported its result. -/
structure Conversation where
  ud : Option UserData
  reported : Bool

/-- The loop handles a signal while there is no result.
Source: `pam.c`, the loop of `pam_sm_authenticate`. -/
def Conversation.step (c : Conversation) (x : StatusSignal × SignalEnv) :
    Option (Conversation × Unit) :=
  some (⟨c.ud.bind fun ud => if ud.res = -1 then (busSignalCb ud x).map Prod.fst else some ud,
    c.reported || x.1.ends⟩, ())

/-- Once the session has reported its result, the loop ends. -/
def LoopEnds (c : Conversation) : Prop :=
  c.reported = true → ∃ ud, c.ud = some ud ∧ ud.res ≠ -1

/-- A report that the loop ends for: of success, or, without an order of factors, of a failure whose
message is about a type that has a bit. -/
def EndsLoop (ud : UserData) (code : AuthStutaCode) : Prop :=
  code = .success ∨
    code = .failure ∧ ud.authCtrl.isMFA = false ∧
      (typeToIndex (BitVec.ofInt 32 (failType ud))).isSome

/-- The report can be read and ends the loop, or the loop has ended before it. -/
def ReportEnds (c : Conversation) (x : StatusSignal × SignalEnv) : Prop :=
  x.1.ends = true → ∃ ud, c.ud = some ud ∧
    (ud.res ≠ -1 ∨ x.2.readable = true ∧ EndsLoop ud x.1.code)

variable {ud : UserData} {signal : StatusSignal} {env : SignalEnv}

/-- With an order, only success is a result. -/
theorem mfa_res_ne_iff (hends : signal.ends = true) :
    (mfaSignalDeal env ud signal).2.1 ≠ -1 ↔ signal.code = .success := by
  obtain ⟨authType, code, msg⟩ := signal
  obtain ⟨htype, hterminal⟩ : authType = -1 ∧ code.terminal = true := of_decide_eq_true hends
  subst htype
  cases code with
  | success => exact iff_of_true (by decide : pamSuccess ≠ -1) rfl
  | failure => exact iff_of_false (fun h => h rfl) (by simp)
  | cancel => exact iff_of_false (fun h => h rfl) (by simp)
  | timeout => exact iff_of_false (fun h => h rfl) (by simp)
  | error => exact iff_of_false (fun h => h rfl) (by simp)
  | ended => exact iff_of_false (fun h => h rfl) (by simp)
  | _ => cases hterminal

/-- Without one, a failure is a result, too, if the handler returns. -/
theorem sfa_res_ne_iff (hends : signal.ends = true) :
    (∃ r, sfaSignalDeal env ud signal = some r ∧ r.2.1 ≠ -1) ↔
      signal.code = .success ∨
        signal.code = .failure ∧ (typeToIndex (BitVec.ofInt 32 (failType ud))).isSome := by
  obtain ⟨authType, code, msg⟩ := signal
  obtain ⟨htype, hterminal⟩ : authType = -1 ∧ code.terminal = true := of_decide_eq_true hends
  subst htype
  have hgoes : ∀ r : UserData × ℤ × List PamCall, r.2.1 = -1 →
      sfaSignalDeal env ud ⟨-1, code, msg⟩ = some r →
      ¬ ∃ r, sfaSignalDeal env ud ⟨-1, code, msg⟩ = some r ∧ r.2.1 ≠ -1 := by
    rintro r hr heq ⟨r', heq', hne⟩
    rw [heq, Option.some.injEq] at heq'
    exact hne (heq' ▸ hr)
  cases code with
  | success => exact iff_of_true ⟨_, rfl, (by decide : pamSuccess ≠ -1)⟩ (Or.inl rfl)
  | failure =>
      have hdeal : sfaSignalDeal env ud ⟨-1, .failure, msg⟩ = sfaFailure env ud := rfl
      rw [hdeal]
      unfold sfaFailure
      have htype : failType { ud with needCancel := false, limits := env.limits } = failType ud :=
        rfl
      dsimp only
      rw [htype]
      rcases typeToIndex (BitVec.ofInt 32 (failType ud)) with _ | typeIndex
      · simp
      · refine iff_of_true ?_ (Or.inr ⟨rfl, rfl⟩)
        refine ⟨_, rfl, ?_⟩
        dsimp only
        split_ifs
        · exact (by decide : pamAuthErr ≠ -1)
        · exact (by decide : pamAuthErr ≠ -1)
  | cancel => exact iff_of_false (hgoes _ rfl rfl) (by simp)
  | timeout => exact iff_of_false (hgoes _ rfl rfl) (by simp)
  | error => exact iff_of_false (hgoes _ rfl rfl) (by simp)
  | ended => exact iff_of_false (hgoes _ rfl rfl) (by simp)
  | _ => cases hterminal

/-- **Which reports end the loop.** -/
theorem ends_iff {x : StatusSignal × SignalEnv} (hends : x.1.ends = true) (hres : ud.res = -1) :
    (∃ r, busSignalCb ud x = some r ∧ r.1.res ≠ -1) ↔
      x.2.readable = true ∧ EndsLoop ud x.1.code := by
  unfold busSignalCb EndsLoop
  by_cases hread : x.2.readable = true
  · rw [if_pos hread]
    unfold signalDeal
    rcases hmfa : ud.authCtrl.isMFA with _ | _
    · rw [if_neg (by simp)]
      simp only [Option.map_eq_some_iff, hread, true_and]
      rw [← @sfa_res_ne_iff ud x.1 x.2 hends]
      constructor
      · rintro ⟨_, ⟨r, hr, rfl⟩, hne⟩
        exact ⟨r, hr, hne⟩
      · rintro ⟨r, hr, hne⟩
        exact ⟨_, ⟨r, hr, rfl⟩, hne⟩
    · rw [if_pos rfl]
      simp only [Option.map_some, Option.some.injEq, exists_eq_left', hread, true_and,
        Bool.true_eq_false, false_and, and_false, or_false]
      exact mfa_res_ne_iff hends
  · rw [if_neg hread]
    refine iff_of_false ?_ (fun h => hread h.1)
    rintro ⟨r, hr, hne⟩
    cases hr
    exact hne hres

/-- **One signal.** -/
theorem loopEnds_step_iff {c c' : Conversation} {x : StatusSignal × SignalEnv} {o : Unit}
    (hc : LoopEnds c) (hs : c.step x = some (c', o)) : LoopEnds c' ↔ ReportEnds c x := by
  cases hs
  unfold LoopEnds ReportEnds
  rcases hreported : c.reported with _ | _
  · -- nothing has been reported before
    rw [Bool.false_or]
    refine imp_congr_right ?_
    intro hends
    rcases hud : c.ud with _ | ud
    · simp
    · simp only [Option.bind_some, Option.some.injEq, exists_eq_left']
      by_cases hres : ud.res = -1
      · rw [if_pos hres]
        simp only [Option.map_eq_some_iff, hres, ne_eq, not_true_eq_false, false_or]
        rw [← ends_iff hends hres]
        constructor
        · rintro ⟨_, ⟨r, hr, rfl⟩, hne⟩
          exact ⟨r, hr, hne⟩
        · rintro ⟨r, hr, hne⟩
          exact ⟨_, ⟨r, hr, rfl⟩, hne⟩
      · rw [if_neg hres]
        exact iff_of_true ⟨ud, rfl, hres⟩ (Or.inl hres)
  · -- the loop has ended, and keeps its result
    obtain ⟨ud, hud, hres⟩ := hc hreported
    rw [hud]
    refine iff_of_true ?_ ?_
    · intro _
      exact ⟨ud, if_neg hres, hres⟩
    · intro _
      exact ⟨ud, rfl, Or.inl hres⟩

/-- **A report ends the conversation** in every state of the loop exactly where each report that
comes while there is no result is one of success, or, without an order of factors, of a failure that
the handler returns from; before it, `failedIndexs` must not have been overrun. -/
theorem terminal_ends_loop_iff (ud : UserData) (signals : List (StatusSignal × SignalEnv)) :
    (∀ cs t os, cs <+: signals → run Conversation.step ⟨some ud, false⟩ cs = some (t, os) →
      LoopEnds t) ↔ Along Conversation.step ReportEnds ⟨some ud, false⟩ signals :=
  reached_iff_along (I := LoopEnds) (J := fun _ => True) (fun _ _ _ _ _ _ => trivial)
    (fun _ _ _ _ _ hc hs => loopEnds_step_iff hc hs) (fun _ _ h => by cases h) trivial
    (fun h => by cases h) signals

/-- A login with a password or a fingerprint, in any order. -/
def anyFactor : UserData := newLogin (resolveAuthctrlFactors false passwordAndFinger)

/-- A login with both, one after the other. -/
def bothFactors : UserData := newLogin (resolveAuthctrlFactors true passwordAndFinger)

theorem not_loopEnds {c : Conversation} (hreported : c.reported = true)
    (hres : c.ud.map UserData.res = some (-1)) : ¬ LoopEnds c := by
  intro h
  obtain ⟨ud, hud, hne⟩ := h hreported
  rw [hud, Option.map_some, Option.some.injEq] at hres
  exact hne hres

/-- **The conversation hangs** after a session that another party has ended, in both modes, and
after the failure of a session of several factors. -/
theorem terminal_report_hangs :
    (∀ ud ∈ [anyFactor, bothFactors], ∀ code ∈ [AuthStutaCode.cancel, .timeout, .error, .ended],
      ∃ t os, run Conversation.step ⟨some ud, false⟩ [(⟨-1, code, ""⟩, allOk)] = some (t, os) ∧
        t.reported = true ∧ t.ud.map UserData.res = some (-1) ∧ ¬ LoopEnds t) ∧
      ∃ t os, run Conversation.step ⟨some bothFactors, false⟩ [(⟨-1, .failure, ""⟩, allOk)] =
        some (t, os) ∧ t.reported = true ∧ t.ud.map UserData.res = some (-1) ∧ ¬ LoopEnds t := by
  refine ⟨?_, ⟨_, _, rfl, rfl, rfl, not_loopEnds rfl rfl⟩⟩
  intro ud hud code hcode
  simp only [List.mem_cons, List.not_mem_nil, or_false] at hud hcode
  rcases hud with rfl | rfl
  · rcases hcode with rfl | rfl | rfl | rfl
    all_goals exact ⟨_, _, rfl, rfl, rfl, not_loopEnds rfl rfl⟩
  · rcases hcode with rfl | rfl | rfl | rfl
    all_goals exact ⟨_, _, rfl, rfl, rfl, not_loopEnds rfl rfl⟩

end LingmoAuthenticate.PamModule
