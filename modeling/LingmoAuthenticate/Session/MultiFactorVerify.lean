import LingmoAuthenticate.Lib.Machine
import LingmoAuthenticate.MultiFactor.Config
import LingmoAuthenticate.Session.Status

/-!
# The multi-factor controller: `multifactor_verify.go`

The results of the factors (`resultMap`), the two counters that are kept beside them, and the loop
that receives the statuses of the transactions. A `none` is the panic of following a nil pointer.

* `lastResult hist f` is the result of the most recent counted status of the factor with flag `f`.
* `MfaInv`: the map holds `lastResult` for each configured factor and nothing else, and
  `passNumber` counts the factors that have one.
* `verdict_eq`: the loop over the map, in any order.
* `multiFactor_sound` is the verdict after every history, in terms of `lastResult` alone.
-/

namespace LingmoAuthenticate.Session

open Lib AuthCommon MultiFactor

/-- Source: `authcommon/config.go`, `ResType`. -/
inductive ResType where
  | default
  | success
  | failed
  deriving DecidableEq, Repr

/-- Source: `multifactor_verify.go`, `MFAResInfo`. -/
structure MFAResInfo where
  res : ResType
  msg : String
  deriving DecidableEq, Repr

/-- The orders in which a loop may visit the results. -/
abbrev ResultOrder := GoMap.RangeOrder ℕ MFAResInfo

/-- The controller for several factors: its configuration, how many factors have a result and how
many must have one, the result of each, by the bit of its type, and the bits of all of them.
Source: `multifactor_verify.go`, `multiFactorVerify`. -/
structure MultiFactorVerify where
  conf : Config
  passNumber : ℕ
  expectPassNumber : ℕ
  resultMap : GoMap ℕ MFAResInfo
  mfaAuthFlags : ℕ

namespace MultiFactorVerify

/-- Source: `multifactor_verify.go`, `newMultiFactorVerify`. -/
def new (conf : Config) : MultiFactorVerify := ⟨conf, 0, 0, ∅, 0⟩

/-- The factors of the configuration are those of the session.
Source: `multifactor_verify.go`, `multiFactorVerify.checkTx`. -/
def checkTx (m : MultiFactorVerify) : MultiFactorVerify :=
  { m with mfaAuthFlags := (getAuthTypeList m.conf).foldl (fun flag at_ => flag ||| at_) 0 }

/-- Source: `multifactor_verify.go`, `multiFactorVerify.setExpectResult`. -/
def setExpectResult (m : MultiFactorVerify) : MultiFactorVerify :=
  let authList := getAuthTypeList m.conf
  { m with
    resultMap := authList.foldl (fun rm c => rm.insert c ⟨.default, ""⟩) m.resultMap
    expectPassNumber := authList.length }

/-- The controller as its loop finds it: `checkTx` is called when the session is made, and
`setExpectResult` first thing by the loop. -/
def start (conf : Config) : MultiFactorVerify := (new conf).checkTx.setExpectResult

/-- Record the result of a factor of this session.
Source: `multifactor_verify.go`, `multiFactorVerify.setResult`. -/
def setResult (m : MultiFactorVerify) (type0 : AuthType) (result : Bool) (msg : String) :
    Option MultiFactorVerify :=
  let t := authTypeToFlag type0
  if t &&& m.mfaAuthFlags ≠ 0 then
    (m.resultMap.lookup t).map fun info =>
      { m with
        passNumber := if info.res = .default then m.passNumber + 1 else m.passNumber
        resultMap := m.resultMap.insert t ⟨if result then .success else .failed, msg⟩ }
  else some m

/-- The loop of `getVerifyResult`, with its early returns.
Source: `multifactor_verify.go`, `multiFactorVerify.getVerifyResult`. -/
def verdict : List (Σ _ : ℕ, MFAResInfo) → StatusCode
  | [] => .success
  | e :: rest =>
      if e.2.res = .failed then .failure
      else if e.2.res = .default then .verify
      else verdict rest

/-- Source: `multifactor_verify.go`, `multiFactorVerify.getVerifyResult`. -/
def getVerifyResult (m : MultiFactorVerify) (order : ResultOrder) : StatusCode :=
  if m.passNumber < m.expectPassNumber then .verify else verdict (order.visit m.resultMap)

/-- Source: `multifactor_verify.go`, `multiFactorVerify.getAuthMsg`. -/
def getAuthMsg (m : MultiFactorVerify) (order : ResultOrder) : String :=
  ", ".intercalate ((order.visit m.resultMap).filterMap fun e =>
    if e.2.res ≠ .default then some ((authFlagToType e.1).text ++ ": " ++ e.2.msg) else none)

/-- One round of the loop of the controller: what it received, and the calls it makes. The texts
of statuses are shown through `translate`.
Source: `multifactor_verify.go`, `multiFactorVerify.listenResultCh`. -/
def receive (translate : String → String) (m : MultiFactorVerify) (tx : Option VirtualTx)
    (order msgOrder : ResultOrder) : Option (MultiFactorVerify × List ProxyCall) :=
  match tx with
  | none => some (m, [])
  | some tx =>
      match tx.status with
      | none => some (m, [])
      | some status =>
          let flag : ℤ := authTypeToFlag tx.type0
          let emitted := ProxyCall.emitStatus flag status.s (translate status.msg)
          if tx.kind.shouldIgnore status.s then some (m, [emitted])
          else
            (m.setResult tx.type0 (status.s = .success) status.msg).map fun m =>
              let res := m.getVerifyResult order
              (m, [emitted, .updateLimits status.s flag] ++
                if res = .failure ∨ res = .success then
                  [.emitStatus allAuthenticationFlag res (m.getAuthMsg msgOrder),
                    .updateLimits res allAuthenticationFlag]
                else [])

/-- One round as a step: what is received, and the orders of the two loops over the results. -/
def step (translate : String → String) (m : MultiFactorVerify)
    (a : Option VirtualTx × ResultOrder × ResultOrder) :
    Option (MultiFactorVerify × List ProxyCall) :=
  m.receive translate a.1 a.2.1 a.2.2

/-! ## The most recent results -/

/-- The result that a counted status reports: its factor, and whether it succeeded. -/
def reported (tx : Option VirtualTx) : Option (AuthType × Bool) :=
  tx.bind fun tx => tx.status.bind fun status =>
    if tx.kind.shouldIgnore status.s then none else some (tx.type0, status.s = .success)

/-- The result of the most recent counted status of the factor with flag `f`, if any. -/
def lastResult (hist : List (Option VirtualTx)) (f : ℕ) : Option Bool :=
  hist.foldl (fun last tx =>
    match reported tx with
    | some (t, result) => if authTypeToFlag t = f then some result else last
    | none => last) none

/-- How a most recent result is recorded. -/
def resOf : Option Bool → ResType
  | none => .default
  | some true => .success
  | some false => .failed

@[simp] theorem resOf_eq_default {o : Option Bool} : resOf o = .default ↔ o = none := by
  rcases o with _ | _ | _ <;> simp [resOf]

@[simp] theorem resOf_eq_failed {o : Option Bool} : resOf o = .failed ↔ o = some false := by
  rcases o with _ | _ | _ <;> simp [resOf]

/-- One more status received. -/
theorem lastResult_append (hist : List (Option VirtualTx)) (tx : Option VirtualTx) (f : ℕ) :
    lastResult (hist ++ [tx]) f =
      match reported tx with
      | some (t, result) => if authTypeToFlag t = f then some result else lastResult hist f
      | none => lastResult hist f := by
  unfold lastResult
  rw [List.foldl_append]
  rfl

/-! ## The invariant of the loop -/

/-- The results recorded are the most recent ones of the configured factors, other factors have
none, and the counter counts those that have one. -/
structure MfaInv (conf : Config) (hist : List (Option VirtualTx)) (m : MultiFactorVerify) :
    Prop where
  mask : m.mfaAuthFlags = (start conf).mfaAuthFlags
  expect : m.expectPassNumber = (getAuthTypeList conf).length
  configured : ∀ f ∈ getAuthTypeList conf,
    ∃ msg, m.resultMap.lookup f = some ⟨resOf (lastResult hist f), msg⟩
  outside : ∀ f, f ∉ getAuthTypeList conf → m.resultMap.lookup f = none
  counted : m.passNumber = (getAuthTypeList conf).countP fun f => (lastResult hist f).isSome

/-- The mask of the session has the bits of the flags in the list. -/
theorem testBit_foldl_lor (l : List ℕ) (flag i : ℕ) :
    (l.foldl (fun flag at_ => flag ||| at_) flag).testBit i =
      (flag.testBit i || l.any fun f => f.testBit i) := by
  induction l generalizing flag with
  | nil => simp
  | cons f l ih => rw [List.foldl_cons, ih, Nat.testBit_or, List.any_cons, Bool.or_assoc]

/-- A type is one of the session exactly when its flag is in the configuration. -/
theorem land_mask_iff {conf : Config} (hconf : conf.isValidConfig = true) (t : AuthType) :
    authTypeToFlag t &&& (start conf).mfaAuthFlags ≠ 0 ↔
      authTypeToFlag t ∈ getAuthTypeList conf := by
  have hmask : (start conf).mfaAuthFlags =
      (getAuthTypeList conf).foldl (fun flag at_ => flag ||| at_) 0 := rfl
  rw [authTypeToFlag_land_ne_zero, hmask]
  simp only [testBit_foldl_lor, Nat.zero_testBit, Bool.false_or, List.any_eq_true]
  constructor
  · rintro ⟨i, hi, f, hf, hbit⟩
    obtain ⟨u, -, rfl⟩ := exists_type_of_mem hconf hf
    rw [AuthType.flagBit?_inj hi (testBit_authTypeToFlag.mp hbit)]
    exact hf
  · intro hf
    obtain ⟨u, hu, htu⟩ := exists_type_of_mem hconf hf
    have h0 : authTypeToFlag t ≠ 0 := htu ▸ authTypeToFlag_ne_zero_of_mem hu
    rcases hi : t.flagBit? with _ | i
    · exact absurd (by rw [authTypeToFlag, hi]) h0
    · exact ⟨i, rfl, _, hf, testBit_authTypeToFlag.mpr hi⟩

/-- At the start nothing is recorded. -/
theorem mfaInv_start {conf : Config} (hconf : conf.isValidConfig = true) :
    MfaInv conf [] (start conf) := by
  obtain ⟨h₁, h₂⟩ := GoMap.lookup_foldl (W := MFAResInfo) (p := id)
    (f := fun rm c => rm.insert c ⟨.default, ""⟩) (g := fun _ _ => some ⟨.default, ""⟩)
    (fun rm c => ⟨AList.lookup_insert rm, fun k hk => AList.lookup_insert_ne hk⟩)
    (show ((getAuthTypeList conf).map id).Nodup by simpa using getAuthTypeList_nodup hconf) ∅
  refine ⟨rfl, rfl, fun f hf => ⟨"", h₁ f hf⟩, ?_, ?_⟩
  · intro f hf
    exact h₂ f (by simpa using hf)
  · exact (List.countP_eq_zero.mpr fun f _ => by simp [lastResult]).symm

/-- In a list without repetition, letting one more element in counts once. -/
theorem countP_or_eq {l : List ℕ} (hnd : l.Nodup) {a : ℕ} (ha : a ∈ l) (p : ℕ → Bool) :
    l.countP (fun x => decide (a = x) || p x) = if p a then l.countP p else l.countP p + 1 := by
  induction l with
  | nil => exact absurd ha List.not_mem_nil
  | cons b l ih =>
      obtain ⟨hb, hnd'⟩ := List.nodup_cons.mp hnd
      rw [List.countP_cons, List.countP_cons]
      rcases List.mem_cons.mp ha with rfl | ha'
      · have hrest : l.countP (fun x => decide (a = x) || p x) = l.countP p := by
          refine List.countP_congr ?_
          intro x hx
          have hne : a ≠ x := fun h => hb (h ▸ hx)
          simp [hne]
        rw [hrest]
        cases p a <;> simp
      · have hne : a ≠ b := fun h => hb (h ▸ ha')
        rw [ih hnd' ha']
        simp only [hne, decide_false, Bool.false_or]
        cases p a <;> cases p b <;> simp

/-- Recording the result of a factor of the session. -/
theorem MfaInv.setResult {conf : Config} (hconf : conf.isValidConfig = true)
    {hist : List (Option VirtualTx)} {m : MultiFactorVerify} (h : MfaInv conf hist m)
    {tx : Option VirtualTx} {t : AuthType} {result : Bool}
    (htx : reported tx = some (t, result)) (msg : String) :
    ∃ m', m.setResult t result msg = some m' ∧ MfaInv conf (hist ++ [tx]) m' := by
  have hlast : ∀ f, lastResult (hist ++ [tx]) f =
      if authTypeToFlag t = f then some result else lastResult hist f := by
    intro f
    rw [lastResult_append, htx]
  unfold MultiFactorVerify.setResult
  dsimp only
  by_cases hin : authTypeToFlag t &&& m.mfaAuthFlags ≠ 0
  · -- a factor of the session: its entry exists, and is written
    have hmem := (land_mask_iff hconf t).mp (h.mask ▸ hin)
    obtain ⟨msg₀, hlook⟩ := h.configured _ hmem
    rw [if_pos hin, hlook]
    refine ⟨_, rfl, h.mask, h.expect, ?_, ?_, ?_⟩
    · intro f hf
      rw [hlast f]
      by_cases hft : authTypeToFlag t = f
      · subst hft
        rw [if_pos rfl]
        refine ⟨msg, ?_⟩
        dsimp only
        rw [AList.lookup_insert]
        cases result <;> rfl
      · rw [if_neg hft]
        obtain ⟨msg', hmsg'⟩ := h.configured f hf
        exact ⟨msg', by dsimp only; rw [AList.lookup_insert_ne (Ne.symm hft), hmsg']⟩
    · intro f hf
      have hft : f ≠ authTypeToFlag t := fun hft => hf (hft ▸ hmem)
      dsimp only
      rw [AList.lookup_insert_ne hft]
      exact h.outside f hf
    · have hcount : (getAuthTypeList conf).countP
          (fun f => (lastResult (hist ++ [tx]) f).isSome) =
          (getAuthTypeList conf).countP
            (fun f => decide (authTypeToFlag t = f) || (lastResult hist f).isSome) := by
        refine List.countP_congr ?_
        intro f _
        rw [hlast f]
        by_cases hft : authTypeToFlag t = f <;> simp [hft]
      rw [hcount, countP_or_eq (getAuthTypeList_nodup hconf) hmem, h.counted]
      dsimp only
      rcases lastResult hist (authTypeToFlag t) with _ | _ | _ <;> simp [resOf]
  · -- a factor that the session does not ask for
    have hmem : authTypeToFlag t ∉ getAuthTypeList conf := fun hmem =>
      hin (h.mask ▸ (land_mask_iff hconf t).mpr hmem)
    have hsame : ∀ f ∈ getAuthTypeList conf, lastResult (hist ++ [tx]) f = lastResult hist f := by
      intro f hf
      have hft : authTypeToFlag t ≠ f := fun hft => hmem (hft ▸ hf)
      rw [hlast f, if_neg hft]
    rw [if_neg hin]
    refine ⟨m, rfl, h.mask, h.expect, ?_, h.outside, ?_⟩
    · intro f hf
      rw [hsame f hf]
      exact h.configured f hf
    · rw [h.counted]
      exact List.countP_congr fun f hf => by rw [hsame f hf]

/-- One round of the loop keeps the invariant, and does not panic. -/
theorem mfaInv_step {conf : Config} (hconf : conf.isValidConfig = true) (translate : String → String)
    {hist : List (Option VirtualTx)} {m : MultiFactorVerify} (h : MfaInv conf hist m)
    (a : Option VirtualTx × ResultOrder × ResultOrder) :
    ∃ m' calls, m.step translate a = some (m', calls) ∧ MfaInv conf (hist ++ [a.1]) m' := by
  obtain ⟨tx, order, msgOrder⟩ := a
  have hskip : reported tx = none → MfaInv conf (hist ++ [tx]) m := by
    intro htx
    have hsame : ∀ f, lastResult (hist ++ [tx]) f = lastResult hist f := by
      intro f
      rw [lastResult_append, htx]
    refine ⟨h.mask, h.expect, ?_, h.outside, ?_⟩
    · intro f hf
      rw [hsame f]
      exact h.configured f hf
    · rw [h.counted]
      exact List.countP_congr fun f _ => by rw [hsame f]
  unfold MultiFactorVerify.step receive
  rcases tx with _ | ⟨kind, t, _ | status⟩
  · exact ⟨m, [], rfl, hskip rfl⟩
  · exact ⟨m, [], rfl, hskip rfl⟩
  · dsimp only
    rcases hign : kind.shouldIgnore status.s with _ | _
    · have htx : reported (some ⟨kind, t, some status⟩) = some (t, decide (status.s = .success)) := by
        simp [reported, hign]
      obtain ⟨m', hm', hinv⟩ := h.setResult hconf htx status.msg
      rw [if_neg (by simp), hm']
      exact ⟨m', _, rfl, hinv⟩
    · rw [if_pos rfl]
      exact ⟨m, _, rfl, hskip (by simp [reported, hign])⟩

/-- The invariant after every history. -/
theorem mfaInv_run {conf : Config} (hconf : conf.isValidConfig = true) (translate : String → String)
    (acts : List (Option VirtualTx × ResultOrder × ResultOrder)) :
    ∃ m calls, run (step translate) (start conf) acts = some (m, calls) ∧
      MfaInv conf (acts.map Prod.fst) m := by
  suffices hgen : ∀ (hist : List (Option VirtualTx)) (m₀ : MultiFactorVerify),
      MfaInv conf hist m₀ → ∃ m calls, run (step translate) m₀ acts = some (m, calls) ∧
        MfaInv conf (hist ++ acts.map Prod.fst) m by
    simpa using hgen [] (start conf) (mfaInv_start hconf)
  induction acts with
  | nil =>
      intro hist m₀ h
      exact ⟨m₀, [], rfl, by simpa using h⟩
  | cons a acts ih =>
      intro hist m₀ h
      obtain ⟨m₁, calls₁, h₁, hinv₁⟩ := mfaInv_step hconf translate h a
      obtain ⟨m, calls, hrun, hinv⟩ := ih (hist ++ [a.1]) m₁ hinv₁
      refine ⟨m, calls₁ :: calls, run_cons_eq_some.mpr ⟨m₁, calls₁, calls, h₁, hrun, rfl⟩, ?_⟩
      simpa using hinv

/-! ## The verdict -/

/-- Where every result is in, the loop over the results says failure if one of them failed, and
success otherwise, in every order. -/
theorem verdict_eq {es : List (Σ _ : ℕ, MFAResInfo)} (hin : ∀ e ∈ es, e.2.res ≠ .default) :
    verdict es = if ∃ e ∈ es, e.2.res = .failed then .failure else .success := by
  induction es with
  | nil => simp [verdict]
  | cons e es ih =>
      have hrest := ih fun e' he' => hin e' (List.mem_cons_of_mem _ he')
      rw [verdict, if_neg (hin e List.mem_cons_self), hrest]
      by_cases hfail : e.2.res = .failed
      · simp [hfail]
      · rw [if_neg hfail]
        simp only [List.mem_cons, exists_eq_or_imp, hfail, false_or]

/-- Every configured factor has a result exactly when the counter has reached its goal. -/
theorem MfaInv.passNumber_lt_iff {conf : Config} {hist : List (Option VirtualTx)}
    {m : MultiFactorVerify} (h : MfaInv conf hist m) :
    m.passNumber < m.expectPassNumber ↔ ∃ f ∈ getAuthTypeList conf, lastResult hist f = none := by
  rw [h.counted, h.expect]
  have hle := List.countP_le_length (p := fun f => (lastResult hist f).isSome)
    (l := getAuthTypeList conf)
  have hall := List.countP_eq_length (p := fun f => (lastResult hist f).isSome)
    (l := getAuthTypeList conf)
  constructor
  · intro hlt
    by_contra hnone
    push Not at hnone
    exact absurd (hall.mpr fun f hf => Option.isSome_iff_ne_none.mpr (hnone f hf)) (by omega)
  · rintro ⟨f, hf, hnone⟩
    refine lt_of_le_of_ne hle ?_
    intro heq
    have := hall.mp heq f hf
    rw [hnone] at this
    cases this

/-- The verdict in terms of the most recent results. -/
theorem MfaInv.getVerifyResult_eq {conf : Config} {hist : List (Option VirtualTx)}
    {m : MultiFactorVerify} (h : MfaInv conf hist m) (order : ResultOrder) :
    m.getVerifyResult order =
      if ∃ f ∈ getAuthTypeList conf, lastResult hist f = none then .verify
      else if ∃ f ∈ getAuthTypeList conf, lastResult hist f = some false then .failure
      else .success := by
  unfold getVerifyResult
  simp only [h.passNumber_lt_iff]
  split_ifs with hnone hfail <;> [rfl; skip; skip]
  all_goals
    have hvisit : ∀ e ∈ order.visit m.resultMap,
        e.1 ∈ getAuthTypeList conf ∧ e.2.res = resOf (lastResult hist e.1) := by
      intro e he
      have hl := (order.ranges m.resultMap).mem_iff.mp he
      have hmem : e.1 ∈ getAuthTypeList conf := by
        by_contra hout
        rw [h.outside e.1 hout] at hl
        cases hl
      obtain ⟨msg, hmsg⟩ := h.configured e.1 hmem
      rw [hmsg, Option.some.injEq] at hl
      exact ⟨hmem, by rw [← hl]⟩
    rw [verdict_eq fun e he => by
      rw [(hvisit e he).2, ne_eq, resOf_eq_default]
      exact fun hn => hnone ⟨e.1, (hvisit e he).1, hn⟩]
  · obtain ⟨f, hf, hres⟩ := hfail
    obtain ⟨msg, hmsg⟩ := h.configured f hf
    refine if_pos ⟨⟨f, ⟨resOf (lastResult hist f), msg⟩⟩,
      (order.ranges m.resultMap).mem_iff.mpr hmsg, ?_⟩
    rw [hres]
    rfl
  · refine if_neg ?_
    rintro ⟨e, he, hres⟩
    rw [(hvisit e he).2, resOf_eq_failed] at hres
    exact hfail ⟨e.1, (hvisit e he).1, hres⟩

/-- What the verdict of a controller means after a history of statuses: success where each factor's
last result is one, failure where all have one and some has failed, and else neither; a status of a
factor that is not configured changes nothing. -/
structure VerdictSpec (conf : Config) (hist : List (Option VirtualTx)) (m : MultiFactorVerify) :
    Prop where
  success : ∀ order, m.getVerifyResult order = .success ↔
    ∀ f ∈ getAuthTypeList conf, lastResult hist f = some true
  failure : ∀ order, m.getVerifyResult order = .failure ↔
    (∀ f ∈ getAuthTypeList conf, (lastResult hist f).isSome) ∧
      ∃ f ∈ getAuthTypeList conf, lastResult hist f = some false
  verify : ∀ order, m.getVerifyResult order = .verify ↔
    m.getVerifyResult order ≠ .success ∧ m.getVerifyResult order ≠ .failure
  passNumber : m.passNumber = ((getAuthTypeList conf).filter fun f =>
    (m.resultMap.lookup f).any fun info => info.res ≠ .default).length
  outside : ∀ translate kind t status order msgOrder, authTypeToFlag t ∉ getAuthTypeList conf →
    ∃ calls, m.receive translate (some ⟨kind, t, some status⟩) order msgOrder = some (m, calls)

/-- **Multi-factor soundness.** For every valid configuration and every sequence of statuses
received, the loop does not panic, and its verdict is success exactly when the most recent result
of every configured factor is, failure exactly when all are in and one has failed, and no verdict
otherwise; no order of a loop matters, the counter is the number of recorded results, and other
factors change nothing. -/
theorem multiFactor_sound {conf : Config} (hconf : conf.isValidConfig = true)
    (translate : String → String)
    (acts : List (Option VirtualTx × ResultOrder × ResultOrder)) :
    ∃ m calls, run (step translate) (start conf) acts = some (m, calls) ∧
      VerdictSpec conf (acts.map Prod.fst) m := by
  obtain ⟨m, calls, hrun, h⟩ := mfaInv_run hconf translate acts
  refine ⟨m, calls, hrun, ?_, ?_, ?_, ?_, ?_⟩
  · intro order
    rw [h.getVerifyResult_eq]
    split_ifs with hnone hfail
    · obtain ⟨f, hf, hn⟩ := hnone
      simp only [false_iff, not_forall]
      exact ⟨f, hf, by simp [hn]⟩
    · obtain ⟨f, hf, hn⟩ := hfail
      simp only [false_iff, not_forall]
      exact ⟨f, hf, by simp [hn]⟩
    · push Not at hnone hfail
      simp only [true_iff]
      intro f hf
      rcases hl : lastResult (acts.map Prod.fst) f with _ | _ | _
      · exact absurd hl (hnone f hf)
      · exact absurd hl (hfail f hf)
      · rfl
  · intro order
    rw [h.getVerifyResult_eq]
    split_ifs with hnone hfail
    · obtain ⟨f, hf, hn⟩ := hnone
      simp only [false_iff, not_and]
      exact fun hall => absurd (hall f hf) (by simp [hn])
    · push Not at hnone
      simp only [true_iff]
      exact ⟨fun f hf => Option.isSome_iff_ne_none.mpr (hnone f hf), hfail⟩
    · simp only [false_iff, not_and]
      exact fun _ => hfail
  · intro order
    rw [h.getVerifyResult_eq]
    split_ifs <;> simp
  · rw [h.counted, List.countP_eq_length_filter]
    refine congrArg List.length (List.filter_congr ?_)
    intro f hf
    obtain ⟨msg, hmsg⟩ := h.configured f hf
    rw [hmsg]
    rcases lastResult (acts.map Prod.fst) f with _ | _ | _ <;> rfl
  · intro translate kind t status order msgOrder hout
    have hmask : ¬ authTypeToFlag t &&& m.mfaAuthFlags ≠ 0 := by
      rw [h.mask]
      exact fun hin => hout ((land_mask_iff hconf t).mp hin)
    unfold receive
    dsimp only
    split_ifs
    · exact ⟨_, rfl⟩
    · rw [MultiFactorVerify.setResult, if_neg hmask]
      exact ⟨_, rfl⟩

/-- A configuration of two factors. -/
def twoFactors : Config := ⟨.login, [⟨.password, ""⟩, ⟨.fingerprint, "*"⟩]⟩

/-- A status of a transaction, received while the loops visit the results as they are listed. -/
def received (kind : TxKind) (t : AuthType) (s : StatusCode) :
    Option VirtualTx × ResultOrder × ResultOrder :=
  (some ⟨kind, t, some (newVerifyStatus s true "")⟩, .listed _ _, .listed _ _)

/-- Two factors, of which the fingerprint fails at first. -/
theorem multiFactor_sound_two_factors :
    ∃ m calls, run (step id) (start twoFactors)
        [received .fingerprint .fingerprint .failure, received .password .password .success,
          received .fingerprint .fingerprint .success] = some (m, calls) ∧
      VerdictSpec twoFactors ([received .fingerprint .fingerprint .failure,
        received .password .password .success,
        received .fingerprint .fingerprint .success].map Prod.fst) m :=
  multiFactor_sound (by decide) id _

end MultiFactorVerify

end LingmoAuthenticate.Session
