import LingmoAuthenticate.Session.Session
import LingmoAuthenticate.Session.Weight

/-!
# How many failures an attempt is charged with

* `SessionState.potential_step`: no action of a session adds to the failures that an attempt can
  still be charged with, where the signals of its key are safe (`SessionState.FailSafe`).
* `fail_at_most_once`: in safe runs each attempt is charged at most once, there are no more charges
  than attempts, and unplugging an idle key charges nothing.
* `unplug_charges_again`: a key that is unplugged twice charges one attempt twice.
-/

namespace LingmoAuthenticate.Session

open Lib AuthCommon

/-! ## What a round charges -/

/-- The call has a failure of the factor charged. -/
def ProxyCall.charges (t : AuthType) : ProxyCall → Bool
  | .updateLimits s f => Session.updateLimits s f = some ⟨.fail, t⟩
  | .emitStatus _ _ _ => false

/-- The verdict on a whole session charges nothing. -/
theorem charges_all (t : AuthType) (s : StatusCode) :
    (ProxyCall.updateLimits s allAuthenticationFlag).charges t = false := by
  simp only [ProxyCall.charges, Session.updateLimits, if_true]
  split_ifs <;> simp

/-- The status of a factor charges that factor, if it is a failure or an exception. -/
theorem charges_updateLimits {t u : AuthType} (ht : authTypeToFlag t ≠ 0) {s : VerifyStatus}
    (h : (ProxyCall.updateLimits s.s (authTypeToFlag u)).charges t = true) :
    u = t ∧ s.isFail = true := by
  have hall : (authTypeToFlag u : ℤ) ≠ allAuthenticationFlag := by
    unfold allAuthenticationFlag
    omega
  simp only [ProxyCall.charges, Session.updateLimits, if_neg hall, decide_eq_true_eq] at h
  split_ifs at h with hs hp hfail
  · cases h
  · cases h
  · simp only [Option.some.injEq, LimitUpdate.mk.injEq, true_and] at h
    exact ⟨(authFlagToType_eq_iff ht).mp h, by simpa [VerifyStatus.isFail] using hfail⟩

/-- A round charges at most what the status it received stands for. -/
theorem Controller.receive_charges {translate : String → String} {c c' : Controller}
    {t : AuthType} (ht : authTypeToFlag t ≠ 0) {tx : VirtualTx} {o : LoopOrders}
    {calls : List ProxyCall} (h : c.receive translate tx o = some (c', calls)) :
    calls.countP (ProxyCall.charges t) ≤
      if tx.type0 = t ∧ tx.status.any VerifyStatus.isFail = true then 1 else 0 := by
  obtain ⟨kind, u, _ | status⟩ := tx
  · rw [c.receive_none, Option.some.injEq, Prod.mk.injEq] at h
    rw [← h.2]
    exact Nat.zero_le _
  rcases Controller.receive_calls h with ⟨-, rfl⟩ | ⟨rest, hrest, rfl⟩
  · simp [ProxyCall.charges]
  · have hzero : rest.countP (ProxyCall.charges t) = 0 := by
      refine List.countP_eq_zero.mpr ?_
      intro call hcall
      cases call with
      | emitStatus _ _ _ => simp [ProxyCall.charges]
      | updateLimits s f =>
          rw [hrest _ hcall s f rfl, charges_all]
          simp
    rw [List.countP_append, hzero, Option.any_some]
    simp only [List.countP_cons, List.countP_nil]
    by_cases hch : (ProxyCall.updateLimits status.s (authTypeToFlag u)).charges t = true
    · rw [if_pos hch, if_pos (charges_updateLimits ht hch)]
      simp [ProxyCall.charges]
    · rw [if_neg hch]
      simp [ProxyCall.charges]

/-- Ending a whole session charges nothing. -/
theorem Controller.endCalls_charges (t : AuthType) {c : Controller} {s : StatusCode}
    {call : ProxyCall} (h : call ∈ c.endCalls s) : call.charges t = false := by
  cases c with
  | normal g => cases h
  | multi m =>
      simp only [Controller.endCalls] at h
      split_ifs at h
      · rw [List.mem_singleton.mp h]
        exact charges_all t s
      · cases h

/-! ## What a session can still charge -/

/-- A failure of the factor in the channel, given for the attempt `n`. -/
def Queued.failsFor (t : AuthType) (n : ℕ) (q : Queued) : Bool :=
  q.tx.type0 = t && q.attempt = n && q.tx.status.any VerifyStatus.isFail

/-- How many failures of the factor are in the channel for the attempt `n`. -/
def failsQueued (t : AuthType) (n : ℕ) (ch : List Queued) : ℕ := ch.countP (Queued.failsFor t n)

/-- The statuses of a transaction in the channel. -/
theorem failsQueued_map (t u : AuthType) (n : ℕ) (kind : TxKind) (sent : List Given) :
    failsQueued t n (sent.map fun g => ⟨⟨kind, u, some g.status⟩, g.attempt⟩) =
      if u = t then failsIn n sent else 0 := by
  unfold failsQueued failsIn
  rw [List.countP_map]
  split_ifs with h
  · refine List.countP_congr ?_
    intro g _
    simp [Queued.failsFor, Given.failsFor, h]
  · refine List.countP_eq_zero.mpr ?_
    intro g _
    simp [Queued.failsFor, h]

/-- How often the calls charge the attempt `n` of the factor. -/
def chargesOf (t : AuthType) (n : ℕ) (calls : List (ℕ × ProxyCall)) : ℕ :=
  calls.countP fun c => c.1 = n && c.2.charges t

/-- The attempts that the calls of a run charge, one for each charge. -/
def chargedAttempts (t : AuthType) (outs : List (List (ℕ × ProxyCall))) : List ℕ :=
  (outs.flatten.filter fun c => c.2.charges t).map Prod.fst

/-- Counting the charges of an attempt call by call. -/
theorem count_chargedAttempts (t : AuthType) (n : ℕ) (outs : List (List (ℕ × ProxyCall))) :
    (chargedAttempts t outs).count n = (outs.map (chargesOf t n)).sum := by
  induction outs with
  | nil => rfl
  | cons out outs ih =>
      have happend : chargedAttempts t (out :: outs) =
          (out.filter fun c => c.2.charges t).map Prod.fst ++ chargedAttempts t outs := by
        simp [chargedAttempts]
      have hhead : ((out.filter fun c => c.2.charges t).map Prod.fst).count n =
          chargesOf t n out := by
        rw [List.count, List.countP_map, List.countP_filter]
        exact List.countP_congr fun c _ => by simp
      rw [happend, List.count_append, hhead, ih, List.map_cons, List.sum_cons]

/-- The failures that a transaction can still give for the attempt `n`, of which none counts for a
session that has ended. -/
def txPotential (ended : Bool) (n : ℕ) : Option Tx → ℕ
  | none => if 0 < n then 1 else 0
  | some tx => tx.base.unstarted n + if ended then 0 else tx.live n

namespace SessionState

/-- The failures that the attempt `n` of a factor can still be charged with. -/
def potential (t : AuthType) (n : ℕ) (s : SessionState) : ℕ :=
  failsQueued t n s.resultCh + txPotential s.ended n (s.txs t)

@[simp] theorem sendStatus_txs (s : SessionState) (t : AuthType) (kind : TxKind)
    (sent : List Given) : (s.sendStatus t kind sent).txs = s.txs := by
  unfold sendStatus
  split_ifs <;> rfl

@[simp] theorem sendStatus_ended (s : SessionState) (t : AuthType) (kind : TxKind)
    (sent : List Given) : (s.sendStatus t kind sent).ended = s.ended := by
  unfold sendStatus
  split_ifs <;> rfl

/-- What a transaction sends is queued for its factor, unless the session has ended. -/
theorem failsQueued_sendStatus (s : SessionState) (t u : AuthType) (n : ℕ) (kind : TxKind)
    (sent : List Given) : failsQueued t n (s.sendStatus u kind sent).resultCh =
      failsQueued t n s.resultCh +
        if s.ended = false ∧ u = t then failsIn n sent else 0 := by
  unfold sendStatus
  rcases s.ended with _ | _
  · have hmap := failsQueued_map t u n kind sent
    simp only [failsQueued] at hmap
    simp only [Bool.false_eq_true, if_false, failsQueued, List.countP_append, hmap, true_and]
  · simp

/-- The signals of a key are safe, or the session has ended and takes no status. -/
def FailSafe (s : SessionState) : SessionAction → Prop
  | .tx t a => s.ended = true ∨ ∀ tx, s.txs t = some tx → tx.FailSafe a
  | .receive _ => True
  | .endAll _ => True

/-- Unplugging a key whose attempt is over puts no failure into the channel. -/
def UnplugQuiet (translate : String → String) (s : SessionState) (a : SessionAction) : Prop :=
  ∀ t u id, s.txs t = some (.uKey u) → a = .tx t (.uKey (.state id .deviceNotExist)) →
    u.settled = true → ∀ s' calls, s.step translate a = some (s', calls) →
      ∀ n, failsQueued t n s'.resultCh = failsQueued t n s.resultCh

/-- **No action of a session adds to what an attempt can be charged with.** -/
theorem potential_step {translate : String → String} {t : AuthType} (ht : authTypeToFlag t ≠ 0)
    (n : ℕ) {s s' : SessionState} {a : SessionAction} {calls : List (ℕ × ProxyCall)}
    (hsafe : s.FailSafe a) (hs : s.step translate a = some (s', calls)) :
    chargesOf t n calls + s'.potential t n ≤ s.potential t n := by
  cases next_of_step hs with
  | @tx u a tx tx' sent htx hstep =>
      have hattempts := Tx.attempts_step hstep
      simp only [potential, sendStatus_txs, sendStatus_ended, failsQueued_sendStatus, chargesOf,
        List.countP_nil]
      by_cases hut : u = t
      · subst hut
        rw [Function.update_self, htx]
        simp only [txPotential]
        rcases hended : s.ended with _ | _
        · have hweight := Tx.weight_step
            ((hsafe.resolve_left (by simp [hended])) tx htx) hstep n
          simp only [true_and, if_true, Bool.false_eq_true, if_false]
          omega
        · have hmono : tx'.base.unstarted n ≤ tx.base.unstarted n := by
            unfold BaseTx.unstarted
            split_ifs <;> omega
          simp only [if_true, Bool.true_eq_false, false_and, if_false]
          omega
      · rw [Function.update_of_ne (Ne.symm hut), if_neg fun h => hut h.2]
        omega
  | @receive o q rest c' out hch hrec =>
      have hhead : chargesOf t n (out.map fun c => (q.attempt, c)) ≤
          if q.failsFor t n = true then 1 else 0 := by
        have hcharge := Controller.receive_charges ht hrec
        rw [chargesOf, List.countP_map]
        by_cases hn : q.attempt = n
        · simpa [Queued.failsFor, hn, Function.comp_def] using hcharge
        · simp [hn, Function.comp_def]
      simp only [potential, hch, failsQueued, List.countP_cons]
      omega
  | wasEnded => exact (Nat.zero_add _).le
  | @ended status =>
      have hzero : chargesOf t n ((s.controller.endCalls status).map fun c => (0, c)) = 0 := by
        refine List.countP_eq_zero.mpr ?_
        intro c hc
        obtain ⟨call, hcall, rfl⟩ := List.mem_map.mp hc
        simp [Controller.endCalls_charges t hcall]
      have hle : txPotential true n (s.txs t) ≤ txPotential s.ended n (s.txs t) := by
        rcases s.txs t with _ | tx
        · exact le_rfl
        · exact Nat.add_le_add_left (Nat.zero_le _) _
      rw [hzero]
      simp only [potential]
      omega

/-- At the start an attempt can be charged once, and what is no attempt cannot. -/
theorem potential_start (available : AuthType → Bool) (locks : AuthType → LockState)
    (c : Controller) (t : AuthType) (n : ℕ) :
    (start available locks c).potential t n = if 0 < n then 1 else 0 := by
  have hnew : ∀ o : Option Tx, (o = none ∨ ∃ kind type0 lockState,
      o = some (.new kind type0 lockState)) → txPotential false n o = if 0 < n then 1 else 0 := by
    rintro _ (rfl | ⟨kind, type0, lockState, rfl⟩)
    · rfl
    · have hlive : (Tx.new kind type0 lockState).live n = 0 := by
        cases kind <;> simp [Tx.new, Tx.live, PasswordTx.live, FingerprintTx.live, CameraTx.live,
          UKeyTx.live, PasswordTx.new, FingerprintTx.new, CameraTx.new, UKeyTx.new, failsIn,
          BaseTx.init]
      have hattempts : (Tx.new kind type0 lockState).base.attempts = 0 := by
        cases kind <;> rfl
      simp only [txPotential, hlive, BaseTx.unstarted, hattempts, Bool.false_eq_true, if_false,
        add_zero]
  have htx := hnew ((start available locks c).txs t) (by
    simp only [start, newTx]
    split_ifs
    · cases t <;> simp
    · exact .inl rfl)
  simp only [potential, start, failsQueued, List.countP_nil, zero_add] at htx ⊢
  exact htx

/-- A key whose attempt is over takes no unplugging for its own, where its signals are safe. -/
theorem FailSafe.unplugQuiet {translate : String → String} {s : SessionState}
    {a : SessionAction} (hsafe : s.FailSafe a) : s.UnplugQuiet translate a := by
  rintro t u id htx rfl hover s' calls hs n
  obtain @⟨_, _, tx, tx', sent, htx', hstep⟩ := next_of_step hs
  obtain rfl := Option.some.inj (htx.symm.trans htx')
  rw [failsQueued_sendStatus]
  rcases hsafe with hended | hsafe
  · rw [if_neg (by simp [hended]), add_zero]
  · have hid : u.verificationId ≠ id := fun hid => by
      have hrun := (hsafe _ htx rfl hid).2.2
      rw [hover] at hrun
      cases hrun
    have hsent : sent = [] := by
      simp only [Tx.step, Tx.call, Tx.clearSent, Tx.withBase, UKeyTx.step, UKeyTx.state,
        if_neg hid, Option.map_map, Option.map_eq_some_iff] at hstep
      obtain ⟨u', hu', heq⟩ := hstep
      split_ifs at hu'
      cases hu'
      cases heq
      rfl
    rw [hsent]
    simp [failsIn]

/-- The potential of an attempt that was not started is never used up. -/
theorem unstarted_le_potential (s : SessionState) (t : AuthType) (n : ℕ) :
    (if s.attempts t < n then 1 else 0) ≤ s.potential t n := by
  unfold potential attempts
  refine le_trans ?_ (Nat.le_add_left _ _)
  rcases s.txs t with _ | tx
  · exact le_rfl
  · exact Nat.le_add_right _ _

/-- How many failures a factor was charged with: none that was not for an attempt, and none twice
for one. -/
structure ChargedOnce (s : SessionState) (outs : List (List (ℕ × ProxyCall))) (t : AuthType) :
    Prop where
  once : (chargedAttempts t outs).Nodup
  started : ∀ n ∈ chargedAttempts t outs, 1 ≤ n ∧ n ≤ s.attempts t
  bound : (chargedAttempts t outs).length ≤ s.attempts t

/-- Where each attempt is charged within its potential, attempts are charged once. -/
theorem chargedOnce_of_count {s : SessionState} {outs : List (List (ℕ × ProxyCall))}
    {t : AuthType} (h : ∀ n, (chargedAttempts t outs).count n +
      (if s.attempts t < n then 1 else 0) ≤ if 0 < n then 1 else 0) : s.ChargedOnce outs t := by
  have honce : (chargedAttempts t outs).Nodup := by
    refine List.nodup_iff_count_le_one.mpr ?_
    intro n
    have hn := h n
    split_ifs at hn <;> omega
  have hstarted : ∀ n ∈ chargedAttempts t outs, 1 ≤ n ∧ n ≤ s.attempts t := by
    intro n hmem
    have hpos := List.count_pos_iff.mpr hmem
    have hn := h n
    split_ifs at hn <;> omega
  refine ⟨honce, hstarted, ?_⟩
  have hsub : chargedAttempts t outs ⊆ List.range' 1 (s.attempts t) := by
    intro n hn
    have := hstarted n hn
    exact List.mem_range'_1.mpr (by omega)
  have hlength := (List.subperm_of_subset honce hsub).length_le
  rwa [List.length_range'] at hlength

/-- **Each attempt is charged at most once.** In every run of a session with either controller
whose key signals are safe, a factor is charged with no more failures than attempts were started,
and with one at most for each of them; and unplugging a key whose attempt is over puts no failure
into the channel. -/
theorem fail_at_most_once (translate : String → String) (available : AuthType → Bool)
    (locks : AuthType → LockState) (c : Controller) {acts : List SessionAction}
    {s : SessionState} {outs : List (List (ℕ × ProxyCall))}
    (hsafe : Along (step translate) FailSafe (start available locks c) acts)
    (hrun : run (step translate) (start available locks c) acts = some (s, outs)) :
    (∀ t, authTypeToFlag t ≠ 0 → s.ChargedOnce outs t) ∧
      Along (step translate) (UnplugQuiet translate) (start available locks c) acts := by
  refine ⟨fun t ht => chargedOnce_of_count ?_, hsafe.imp fun _ _ h => h.unplugQuiet⟩
  intro n
  have hpot := run_potential (φ := potential t n)
    (fun _ _ _ _ h hs => potential_step ht n h hs) hsafe hrun
  rw [potential_start, ← count_chargedAttempts] at hpot
  exact (Nat.add_le_add_left (s.unstarted_le_potential t n) _).trans hpot

/-- A session of a key alone. -/
def keySession : SessionState :=
  start (fun t => t = .uKey) (fun _ => .unlock) (.normal (.start [.uKey]))

/-- A key that is started, and unplugged. -/
def startAndUnplug : List SessionAction :=
  [.tx .uKey (.uKey (.authenticate (.ok "1"))), .tx .uKey (.uKey (.state "1" .deviceNotExist))]

/-- The charge of an unplugged key, whose signals are safe. -/
theorem fail_at_most_once_unplugged :
    ∃ s outs, run (step id) keySession
        (startAndUnplug ++ [.receive .listed, .receive .listed]) = some (s, outs) ∧
      (∀ t, authTypeToFlag t ≠ 0 → s.ChargedOnce outs t) ∧
      Along (step id) (UnplugQuiet id) keySession
        (startAndUnplug ++ [.receive .listed, .receive .listed]) := by
  refine ⟨_, _, rfl, ?_⟩
  refine fail_at_most_once id _ _ _ ?_ rfl
  refine (along_cons_of_eq rfl).mpr ⟨.inr ?_, (along_cons_of_eq rfl).mpr ⟨.inr ?_, ?_⟩⟩
  · rintro tx -
    cases tx <;> trivial
  · rintro tx htx
    cases htx
    exact fun _ _ => ⟨by decide, rfl, rfl⟩
  · exact (along_cons_of_eq rfl).mpr ⟨trivial, (along_cons_of_eq rfl).mpr ⟨trivial, trivial⟩⟩

/-- The key is plugged in again and unplugged again: one attempt, and two failures charged. -/
theorem unplug_charges_again :
    ¬ ∀ acts s outs, run (step id) keySession acts = some (s, outs) →
      (chargedAttempts .uKey outs).length ≤ s.attempts .uKey := by
  intro h
  have hle := h (startAndUnplug ++ [.tx .uKey (.uKey (.state "1" .deviceOk)),
    .tx .uKey (.uKey (.state "1" .deviceNotExist)), .receive .listed, .receive .listed,
    .receive .listed, .receive .listed, .receive .listed]) _ _ rfl
  exact absurd hle (by decide)

end SessionState

end LingmoAuthenticate.Session
