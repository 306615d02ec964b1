import LingmoAuthenticate.Session.PasswordMoves
import LingmoAuthenticate.Session.Telling
import LingmoAuthenticate.Session.UKeyMoves

/-!
# The outcome of an attempt that stops by itself

An attempt whose goroutine returns without an `end` having been asked for is to have given one
status that a controller counts, and to have left the transaction in another state than verifying.

* `TxKind.Answers`: what the devices, the drivers and the key service are to answer, and in which
  order starts and calls of `end` are to come.
* `PasswordSteps.Telling`, `CustomSteps.Answered` and its like: what holds where they do so.
* `outcome_reported`: in every run in which they do so, attempts report their outcome.
* `disconnected_reader_silent`: the goroutine of a fingerprint whose reader is disconnected returns
  in silence, and leaves the factor verifying.
-/

namespace LingmoAuthenticate.Session

open Lib AuthCommon
open UKey (Manager)

/-! ## Passwords -/

/-- What a goroutine returns with is a verdict, and what it goes on with is a prompt. -/
def PamPhase.Proper : PamPhase → Prop
  | .testing v next | .giving v next =>
      if next = .returned then v.isResult = true else v.s = .prompt
  | _ => True

/-- After a status a goroutine has none at hand. -/
theorem PamNext.proper_toPhase (next : PamNext) : next.toPhase.Proper := by
  cases next <;> trivial

/-- The start is under way. -/
def PasswordStartPhase.busy : PasswordStartPhase → Bool
  | .idle | .returned => false
  | _ => true

/-- The goroutine is under way, and its verdict has not passed the test of the session id. -/
def PamPhase.waits : PamPhase → Bool
  | .idle | .returned | .giving _ .returned => false
  | _ => true

/-- What a start has found is its own. -/
def PasswordStartPhase.Own (k : ℕ) (session : Option ℕ) (id : ℕ) : PasswordStartPhase → Prop
  | .published => session = some k
  | .entered o id' => session = some k ∧ o = k ∧ id' = k
  | .made o => session = some k ∧ o = k ∧ id = k
  | .started => session = some k ∧ id = k
  | .testing o | .giving o => o = k ∧ id = k
  | .idle | .counted | .returned => True

namespace PasswordSteps

/-- A start takes the session id only when no other start is under way, and an `end` resets it only
where none is that has not been asked to end; nor is a goroutine whose verdict is to come. -/
def Answers (x : PasswordSteps × History) : PasswordStep → Prop
  | .authenticate => 0 < x.1.checked → (∀ k, (x.1.starts k).busy = false) ∧
      ∀ n, (x.1.pams n).waits = true → x.1.targets n ∈ x.2.requested
  | .endReset j => ∀ o, x.1.ends j = .given o →
      (∀ k, (x.1.starts k).busy = true → k ∈ x.2.requested) ∧
        ∀ n, (x.1.pams n).waits = true → x.1.targets n ∈ x.2.requested
  | _ => True

/-- Starts come one after another, each with its own session; a goroutine has that of its start; the
session id is that of whoever is under way and was not asked to end; statuses are in their place;
and an outcome is that of a goroutine which has returned. -/
structure Telling (x : PasswordSteps × History) : Prop where
  fresh : ∀ k, x.1.nextSessionId < k → x.1.starts k = .idle ∧ x.1.pams k = .idle
  alone : ∀ k, (x.1.starts k).busy = true → k = x.1.nextSessionId
  own : ∀ k, (x.1.starts k).Own k x.1.session (x.1.sessions k).id
  begun : ∀ n, x.1.pams n ≠ .idle →
    x.1.starts n = .returned ∧ x.1.targets n = n ∧ (x.1.sessions n).id = n
  startId : ∀ k, (x.1.starts k).busy = true → k ∉ x.2.requested → x.1.sessionId = k
  pamId : ∀ n, (x.1.pams n).waits = true → n ∉ x.2.requested → x.1.sessionId = n
  proper : ∀ n, (x.1.pams n).Proper
  told : Episodes.Told (fun s n => s.pams n = .returned) x

variable {s s' : PasswordSteps} {n : ℕ} {a : PasswordStep} {p q : PamPhase}

/-- Statuses are put in their place. -/
theorem PamMoves.proper (h : s.PamMoves n a p q) (hp : p.Proper) : q.Proper := by
  cases h with
  | judge =>
      next ok =>
      cases ok <;> rfl
  | prompt | textInfo => rfl
  | pass => exact hp
  | drop | give => exact PamNext.proper_toPhase _
  | _ => trivial

/-- A goroutine that has not begun, or has returned, moves at the end of a start only. -/
theorem PamMoves.start_of (h : s.PamMoves n a p q) (hp : p = .idle ∨ p = .returned) :
    (s.starts n).busy = true := by
  rcases hp with rfl | rfl <;> cases h with
    | dropStarted hn | giveStarted hn => rw [hn]; rfl

/-- A goroutine whose verdict is to come was so before, or begins. -/
theorem PamMoves.waits_of (h : s.PamMoves n a p q) (hq : q.waits = true) :
    p.waits = true ∨ (s.starts n).busy = true := by
  cases h with
  | dropStarted hn | giveStarted hn =>
      right
      rw [hn]
      rfl
  | give =>
      next next =>
      cases next with
      | returned => cases hq
      | _ => exact .inl rfl
  | _ => exact .inl rfl

/-- A start that is not under way moves when it counts on. -/
theorem StartMoves.authenticate_of {k : ℕ} {p q : PasswordStartPhase} (h : s.StartMoves k a p q)
    (hp : p.busy = false) : a = .authenticate ∧ k = s.nextSessionId + 1 := by
  cases h with
  | authenticate hk => exact ⟨rfl, hk⟩
  | _ => cases hp

variable {x x' : PasswordSteps × History} {given : List Given}

/-- What is in place for a start that goes on stays so. -/
theorem Telling.kept (h : Telling x) (hs : move { x.1 with sent := [] } a = some x'.1) {k : ℕ}
    (hcounted : x.1.starts k ≠ .counted) :
    ((x.1.starts k).busy = true → x'.1.session = x.1.session) ∧
      ((∀ o id, x.1.starts k ≠ .entered o id) → (x'.1.sessions k).id = (x.1.sessions k).id) := by
  constructor
  · intro hbusy
    rcases session_move hs with ⟨hsame, -⟩ | ⟨j, -, hj, -⟩
    · exact hsame
    · have hj : x.1.starts j = .counted := hj
      have hlast := (h.alone j (by rw [hj]; rfl)).trans (h.alone k hbusy).symm
      exact absurd (hlast ▸ hj) hcounted
  · intro hno
    rcases id_move hs k with ⟨hsame, -⟩ | ⟨-, hk⟩ | ⟨j, id, -, hj, -⟩
    · exact hsame
    · exact absurd hk hcounted
    · have hj : x.1.starts j = .entered k id := hj
      have hown := h.own j
      rw [hj] at hown
      obtain ⟨-, hk, -⟩ := hown
      exact absurd (hk ▸ hj) (hno k id)

/-- What a start has found is its own, also after a step. -/
theorem Telling.own_step (h : Telling x) (hs : move { x.1 with sent := [] } a = some x'.1) (k : ℕ) :
    (x'.1.starts k).Own k x'.1.session (x'.1.sessions k).id := by
  have hown := h.own k
  have hkept : ∀ p, x.1.starts k = p → p ≠ .counted →
      (p.busy = true → x'.1.session = x.1.session) ∧
        ((∀ o id, p ≠ .entered o id) → (x'.1.sessions k).id = (x.1.sessions k).id) := by
    rintro p rfl hcounted
    exact h.kept hs hcounted
  rcases starts_move hs k with hsame | hmoves
  · have hsame : x'.1.starts k = x.1.starts k := hsame
    rw [hsame]
    rcases hp : x.1.starts k with _ | _ | _ | ⟨o, id⟩ | o | _ | o | o | _ <;> rw [hp] at hown
    · trivial
    · trivial
    · exact ((hkept _ hp (by simp)).1 rfl).trans hown
    · exact ⟨((hkept _ hp (by simp)).1 rfl).trans hown.1, hown.2⟩
    · obtain ⟨hsession, hid⟩ := hkept _ hp (by simp)
      exact ⟨(hsession rfl).trans hown.1, hown.2.1, (hid (by simp)).trans hown.2.2⟩
    · obtain ⟨hsession, hid⟩ := hkept _ hp (by simp)
      exact ⟨(hsession rfl).trans hown.1, (hid (by simp)).trans hown.2⟩
    · exact ⟨hown.1, ((hkept _ hp (by simp)).2 (by simp)).trans hown.2⟩
    · exact ⟨hown.1, ((hkept _ hp (by simp)).2 (by simp)).trans hown.2⟩
    · trivial
  · generalize hp : (PasswordSteps.starts { x.1 with sent := [] } k) = p at hmoves
    have hp : x.1.starts k = p := hp
    generalize hq : x'.1.starts k = q at hmoves ⊢
    rw [hp] at hown
    cases hmoves with
    | authenticate hk => trivial
    | newPamSession =>
        rcases session_move hs with ⟨-, hno⟩ | ⟨j, hj, -, hsession⟩
        · exact absurd rfl (hno k)
        · cases hj
          exact hsession
    | @callStart o hsession =>
        have hsession : x.1.session = some o := hsession
        obtain rfl : o = k := Option.some.inj (hsession.symm.trans hown)
        exact ⟨((hkept _ hp (by simp)).1 rfl).trans hown, rfl, (h.alone o (by rw [hp]; rfl)).symm⟩
    | @start o id =>
        obtain ⟨hsession, ho, hi⟩ := hown
        rw [ho, hi] at hp
        refine ⟨((hkept _ hp (by simp)).1 rfl).trans hsession, ho, ?_⟩
        rcases id_move hs k with ⟨-, hno⟩ | ⟨hnew, -⟩ | ⟨j, id', hj, hjs, hid⟩
        · exact absurd hp (hno k _ rfl)
        · cases hnew
        · cases hj
          cases hp.symm.trans hjs
          exact hid
    | @pamStart o ok =>
        obtain ⟨hsession, hid⟩ := hkept _ hp (by simp)
        cases ok
        · trivial
        · exact ⟨(hsession rfl).trans hown.1, (hid (by simp)).trans hown.2.2⟩
    | @callAuthenticate o hsession =>
        have hsession : x.1.session = some o := hsession
        refine ⟨Option.some.inj (hsession.symm.trans hown.1), ?_⟩
        exact ((hkept _ hp (by simp)).2 (by simp)).trans hown.2
    | passStarted => exact ⟨hown.1, ((hkept _ hp (by simp)).2 (by simp)).trans hown.2⟩
    | dropStarted | giveStarted => trivial

/-- Starts that come one after another go on so. -/
theorem Telling.starts_step (h : Telling x) (ha : Answers x a)
    (hs : move { x.1 with sent := [] } a = some x'.1) (hreq : ∀ n ∈ x.2.requested, n ∈ x'.2.requested)
    {k : ℕ} (hbusy : (x'.1.starts k).busy = true) :
    k = x'.1.nextSessionId ∧ (k ∉ x'.2.requested → x'.1.sessionId = k) := by
  have hmoved : (x.1.starts k).busy = true ∨ a = .authenticate ∧ k = x.1.nextSessionId + 1 := by
    rcases starts_move hs k with hsame | hmoves
    · have hsame : x'.1.starts k = x.1.starts k := hsame
      exact .inl (hsame ▸ hbusy)
    · rcases hwas : (x.1.starts k).busy with _ | _
      · exact .inr (hmoves.authenticate_of hwas)
      · exact .inl rfl
  rcases sessionId_move hs with ⟨hne, hnext, hid⟩ | ⟨rfl, hpos, hnext, hid⟩
  · have hwas := hmoved.resolve_right fun h => hne h.1
    refine ⟨(h.alone k hwas).trans hnext.symm, fun hnot => ?_⟩
    have hnot : k ∉ x.2.requested := fun hk => hnot (hreq k hk)
    rcases hid with hsame | ⟨j, o, rfl, hj⟩
    · exact hsame.trans (h.startId k hwas hnot)
    · exact absurd ((ha o hj).1 k hwas) hnot
  · rcases hmoved with hwas | ⟨-, hk⟩
    · cases ((ha hpos).1 k).symm.trans hwas
    · exact ⟨hk.trans hnext.symm, fun _ => hid.trans (by rw [hk])⟩

/-- A goroutine has the session of its start, also after a step. -/
theorem Telling.begun_step (h : Telling x) (hs : move { x.1 with sent := [] } a = some x'.1) {n : ℕ}
    (hn : x'.1.pams n ≠ .idle) :
    x'.1.starts n = .returned ∧ x'.1.targets n = n ∧ (x'.1.sessions n).id = n := by
  rcases targets_move hs n with ⟨htarget, hidle⟩ | ⟨o, hstart, hreturned, htarget, -⟩
  · have hwas : x.1.pams n ≠ .idle := fun h => hn (hidle h)
    obtain ⟨hreturned, hown, hid⟩ := h.begun n hwas
    refine ⟨?_, htarget.trans hown, ?_⟩
    · rcases starts_move hs n with hsame | hmoves
      · exact hsame.trans hreturned
      · have hfirst := (hmoves.authenticate_of (show (x.1.starts n).busy = false by rw [hreturned]; rfl)).2
        exact absurd (h.fresh n (by rw [hfirst]; exact Nat.lt_succ_self _)).2 hwas
    · exact ((h.kept hs (by simp [hreturned])).2 (by simp [hreturned])).trans hid
  · have hstart : x.1.starts n = .testing o ∨ x.1.starts n = .giving o := hstart
    have hown := h.own n
    have hid := (h.kept (k := n) hs (by rcases hstart with h | h <;> simp [h])).2
      (by rcases hstart with h | h <;> simp [h])
    rcases hstart with hstart | hstart <;> rw [hstart] at hown
    · exact ⟨hreturned, htarget.trans hown.1, hid.trans hown.2⟩
    · exact ⟨hreturned, htarget.trans hown.1, hid.trans hown.2⟩

/-- **The step lemma.** -/
theorem Telling.step (h : Telling x) (ha : Answers x a)
    (hs : episodes.traced x a = some (x', given)) : Telling x' := by
  obtain ⟨hs₁, hh⟩ := Episodes.traced_eq_some.mp hs
  obtain ⟨-, hmove, hsent⟩ := step_eq_some.mp hs₁
  have hreq : ∀ n ∈ x.2.requested, n ∈ x'.2.requested := by
    intro n hn
    rw [hh]
    exact List.mem_append_right _ hn
  have hmono : x.1.nextSessionId ≤ x'.1.nextSessionId := by
    rcases sessionId_move hmove with ⟨-, hnext, -⟩ | ⟨-, -, hnext, -⟩
    · exact hnext.ge
    · rw [hnext]
      exact Nat.le_succ _
  have hwaits : ∀ n, (x.1.pams n).waits = true → x.1.targets n = n := by
    intro n hn
    refine (h.begun n fun hidle => ?_).2.1
    rw [hidle] at hn
    cases hn
  refine ⟨?_, fun k hk => (h.starts_step ha hmove hreq hk).1, h.own_step hmove,
    fun n => h.begun_step hmove, fun k hk => (h.starts_step ha hmove hreq hk).2, ?_, ?_,
    h.told.step hs ?_ ?_⟩
  · intro k hk
    obtain ⟨hstart, hidle⟩ := h.fresh k (Nat.lt_of_le_of_lt hmono hk)
    constructor
    · rcases starts_move hmove k with hsame | hmoves
      · exact hsame.trans hstart
      · obtain ⟨rfl, hfirst⟩ := hmoves.authenticate_of (show (x.1.starts k).busy = false by
          rw [hstart]; rfl)
        rcases sessionId_move hmove with ⟨hne, -⟩ | ⟨-, -, hnext, -⟩
        · exact absurd rfl hne
        · rw [hnext] at hk
          exact absurd hk (by rw [hfirst]; exact Nat.lt_irrefl _)
    · rcases pams_move hmove k with hsame | hmoves
      · exact hsame.trans hidle
      · have hbusy : (x.1.starts k).busy = true := hmoves.start_of (.inl hidle)
        rw [hstart] at hbusy
        cases hbusy
  · intro n hn hnot
    have hnot : n ∉ x.2.requested := fun hk => hnot (hreq n hk)
    rcases sessionId_move hmove with ⟨-, -, hsame | ⟨j, o, rfl, hj⟩⟩ | ⟨rfl, hpos, -, -⟩
    · refine hsame.trans ?_
      rcases pams_move hmove n with hpam | hmoves
      · have hpam : x'.1.pams n = x.1.pams n := hpam
        exact h.pamId n (hpam ▸ hn) hnot
      · rcases hmoves.waits_of hn with hwas | hbusy
        · exact h.pamId n hwas hnot
        · exact h.startId n hbusy hnot
    · rcases pams_move hmove n with hpam | hmoves
      · have hpam : x'.1.pams n = x.1.pams n := hpam
        rw [hpam] at hn
        exact absurd (hwaits n hn ▸ (ha o hj).2 n hn) hnot
      · cases hmoves
    · rcases pams_move hmove n with hpam | hmoves
      · have hpam : x'.1.pams n = x.1.pams n := hpam
        rw [hpam] at hn
        exact absurd (hwaits n hn ▸ (ha hpos).2 n hn) hnot
      · cases hmoves
  · intro m
    rcases pams_move hmove m with hsame | hmoves
    · rw [hsame]
      exact h.proper m
    · exact hmoves.proper (h.proper m)
  · intro m hm
    rcases pams_move hmove m with hsame | hmoves
    · exact hsame.trans hm
    · have hbusy : (x.1.starts m).busy = true := hmoves.start_of (.inr hm)
      rw [(h.begun m (by rw [hm]; rintro ⟨⟩)).1] at hbusy
      cases hbusy
  · intro m hm
    rcases given_move rfl hmove with hquiet | ⟨k, v, next, rfl, hk, hgiven, -, hafter⟩
    · rw [hsent, Quiet.outcomes hquiet] at hm
      cases hm
    · obtain ⟨g, hg, hout, rfl⟩ := Episodes.mem_outcomes.mp hm
      rw [hsent, hgiven, List.mem_singleton] at hg
      subst hg
      have hk : x.1.pams k = .giving v next := hk
      have htarget : x.1.targets k = k := (h.begun k (by rw [hk]; rintro ⟨⟩)).2.1
      show x'.1.pams (x.1.targets k) = .returned
      rw [htarget]
      have hproper := h.proper k
      rw [hk] at hproper
      cases next with
      | returned => exact hafter
      | conversing | waiting =>
          -- a prompt is no outcome
          have hprompt : v.s = .prompt := hproper
          have hcounted : (!ignored v.s) = true := hout
          rw [hprompt] at hcounted
          cases hcounted

/-- A goroutine returns with its status. -/
theorem stops_give (s : PasswordSteps) (n : ℕ) :
    (∃ v, s.pams n = .giving v .returned ∧ s.stops (.give n) = some (s.targets n)) ∨
      s.stops (.give n) = none := by
  unfold stops
  dsimp only
  split
  · next v hn => exact .inl ⟨v, hn, rfl⟩
  · exact .inr rfl

/-- A goroutine returns without a word. -/
theorem stops_testId (s : PasswordSteps) (n : ℕ) :
    (∃ v, s.pams n = .testing v .returned ∧ ((s.sessionOf n).id : ℤ) ≠ s.sessionId ∧
        s.stops (.testId n) = some (s.targets n)) ∨ s.stops (.testId n) = none := by
  unfold stops
  dsimp only
  split
  · next v hn =>
      split_ifs with hid
      · exact .inr rfl
      · exact .inl ⟨v, hn, hid, rfl⟩
  · exact .inr rfl

/-- **A password attempt that stops has told its outcome.** -/
theorem Telling.reports (h : Telling x) (a : PasswordStep) : episodes.Reports x a := by
  cases a with
  | testId n =>
      rcases stops_testId x.1 n with ⟨v, hn, hid, hstops⟩ | hstops
      · -- the session id is another one, so that the attempt was asked to end
        intro x' given hs k hk hnot
        obtain ⟨-, htarget, hown⟩ := h.begun n (by rw [hn]; rintro ⟨⟩)
        obtain rfl : n = k := htarget.symm.trans (Option.some.inj (hstops.symm.trans hk))
        have hnot : n ∉ x.2.requested := by
          rw [(Episodes.traced_eq_some.mp hs).2] at hnot
          exact fun hn => hnot (List.mem_append_right _ hn)
        have hsession := h.pamId n (by rw [hn]; rfl) hnot
        refine absurd ?_ hid
        unfold sessionOf
        rw [htarget, hown, hsession]
      · exact Episodes.reports_of_stops_none hstops
  | give n =>
      rcases stops_give x.1 n with ⟨v, hn, hstops⟩ | hstops
      · obtain ⟨-, htarget, -⟩ := h.begun n (by rw [hn]; rintro ⟨⟩)
        rw [htarget] at hstops
        have hfirst : n ∉ x.2.counted := fun hc => by cases hn.symm.trans (h.told n hc)
        refine Episodes.reports_of_outcome (x := x) hstops hfirst ?_
        intro s' given hs
        obtain ⟨-, hmove, rfl⟩ := step_eq_some.mp hs
        have hresult : v.isResult = true := by
          have hproper := h.proper n
          rw [hn] at hproper
          exact hproper
        obtain ⟨hcounted, hidle⟩ := VerifyStatus.told_of_isResult hresult
        simp only [move, hn, htarget, Option.some.injEq] at hmove
        subst hmove
        exact ⟨Episodes.outcomes_singleton (m := episodes) (g := ⟨n, v⟩) hcounted, hidle⟩
      · exact Episodes.reports_of_stops_none hstops
  | _ => exact Episodes.reports_of_stops_none rfl

/-- A new transaction. -/
theorem telling_new (type0 : AuthType) (lockState : LockState) :
    Telling (new type0 lockState, .empty) where
  fresh _ _ := ⟨rfl, rfl⟩
  alone _ h := nomatch h
  own _ := trivial
  begun _ h := absurd rfl h
  startId _ h := nomatch h
  pamId _ h := nomatch h
  proper _ := trivial
  told _ h := nomatch h

end PasswordSteps

/-! ## Custom transactions -/

/-- The goroutine waits for a token, or is about to. -/
def CustomVerifyPhase.waits : CustomVerifyPhase → Bool
  | .spawned | .receiving _ => true
  | _ => false

namespace CustomSteps

/-- A start makes its channel only when no call of `end` and no other start is under way, and no
goroutine waits that was not asked to end. -/
def Answers (x : CustomSteps × History) : CustomStep → Prop
  | .authenticate => 0 < x.1.checked → x.1.ending = none ∧
      (∀ n, (x.1.starts n).busy = false) ∧
      ∀ n, (x.1.verifies n).waits = true → n ∈ x.2.requested
  | _ => True

/-- The channel is that of the last attempt; an `end` that is under way was called for it; a channel
that is closed is that of an attempt that was asked to end; whoever is under way and was not is the
last attempt, and waits on its own channel. -/
structure Answered (x : CustomSteps × History) : Prop extends Telling x where
  chan : ∀ c, x.1.chanPasswd = some c → c = x.1.attempts
  ending : x.1.ending ≠ none → x.1.attempts ∈ x.2.requested
  closed : ∀ c, x.1.chans.closed c = true → c ∈ x.2.requested
  start : ∀ n, (x.1.starts n).busy = true → n = x.1.attempts
  last : ∀ n, (x.1.verifies n).waits = true → n ∉ x.2.requested → n = x.1.attempts
  own : ∀ n c, x.1.verifies n = .receiving c → n ∉ x.2.requested → c = n

variable {x x' : CustomSteps × History} {a : CustomStep} {given : List Given}

/-- A goroutine that waits did so before, or begins; and no channel is made with that. -/
theorem VerifyMoves.waits_of {s : CustomSteps} {n : ℕ} {p q : CustomVerifyPhase}
    (h : s.VerifyMoves n a p q) (hq : q.waits = true) :
    a ≠ .authenticate ∧ (p.waits = true ∨ (s.starts n).busy = true) := by
  cases h with
  | start hn =>
      refine ⟨by simp, .inr ?_⟩
      rw [hn]
      rfl
  | takeChan => exact ⟨by simp, .inl rfl⟩
  | receive | receiveClosed | give => cases hq

/-- **The step lemma.** -/
theorem Answered.step (h : Answered x) (ha : Answers x a)
    (hs : episodes.traced x a = some (x', given)) : Answered x' := by
  obtain ⟨hs₁, hh⟩ := Episodes.traced_eq_some.mp hs
  obtain ⟨-, hmove, -⟩ := step_eq_some.mp hs₁
  have hreq : ∀ n ∈ x.2.requested, n ∈ x'.2.requested := by
    intro n hn
    rw [hh]
    exact List.mem_append_right _ hn
  obtain ⟨hstart, hending, hclosed⟩ := frame_move hmove
  refine ⟨h.toTelling.step hs, ?_, ?_, ?_, ?_, ?_, ?_⟩
  · intro c hc
    rcases hstart with ⟨hattempts, hchan, -⟩ | ⟨-, hattempts, hchan, -⟩
    · rw [hattempts]
      exact h.chan c (hchan.symm.trans hc)
    · rw [hattempts]
      exact (Option.some.inj (hchan.symm.trans hc)).symm
  · intro hne
    rcases hstart with ⟨hattempts, -, -⟩ | ⟨rfl, hattempts, -, hsame, hpos⟩
    · rw [hattempts]
      rcases hending hne with hwas | hrequests
      · exact hreq _ (h.ending hwas)
      · rw [hh]
        exact List.mem_append_left _ (Option.mem_toList.mpr hrequests)
    · exact absurd (hsame.trans (ha hpos).1) hne
  · intro c hc
    rcases hclosed c hc with hwas | ⟨hne, hchan⟩
    · exact hreq c (h.closed c hwas)
    · rw [h.chan c hchan]
      exact hreq _ (h.ending hne)
  · intro n hn
    have hmoved : (x.1.starts n).busy = true ∨ a = .authenticate ∧ n = x.1.attempts + 1 := by
      rcases starts_move hmove n with hsame | hmoves
      · have hsame : x'.1.starts n = x.1.starts n := hsame
        exact .inl (hsame ▸ hn)
      · rcases hwas : (x.1.starts n).busy with _ | _
        · exact .inr (hmoves.authenticate_of hwas)
        · exact .inl rfl
    rcases hstart with ⟨hattempts, -, hne⟩ | ⟨rfl, hattempts, -, -, hpos⟩
    · exact (h.start n (hmoved.resolve_right fun h => hne h.1)).trans hattempts.symm
    · rcases hmoved with hwas | ⟨-, hn⟩
      · cases ((ha hpos).2.1 n).symm.trans hwas
      · exact hn.trans hattempts.symm
  · intro n hn hnot
    have hnot : n ∉ x.2.requested := fun hk => hnot (hreq n hk)
    rcases verifies_move hmove n with hsame | hmoves
    · have hsame : x'.1.verifies n = x.1.verifies n := hsame
      rw [hsame] at hn
      rcases hstart with ⟨hattempts, -⟩ | ⟨rfl, -, -, -, hpos⟩
      · exact (h.last n hn hnot).trans hattempts.symm
      · exact absurd ((ha hpos).2.2 n hn) hnot
    · obtain ⟨hne, hwas⟩ := hmoves.waits_of hn
      rcases hstart with ⟨hattempts, -⟩ | ⟨rfl, -⟩
      · rcases hwas with hwas | hbusy
        · exact (h.last n hwas hnot).trans hattempts.symm
        · exact (h.start n hbusy).trans hattempts.symm
      · exact absurd rfl hne
  · intro n c hn hnot
    have hnot : n ∉ x.2.requested := fun hk => hnot (hreq n hk)
    rcases verifies_move hmove n with hsame | hmoves
    · exact h.own n c (hsame.symm.trans hn) hnot
    · rw [hn] at hmoves
      generalize hp : CustomSteps.verifies { x.1 with sent := [] } n = p at hmoves
      have hp : x.1.verifies n = p := hp
      cases hmoves with
      | takeChan hchan => exact (h.chan c hchan).trans (h.last n (by rw [hp]; rfl) hnot).symm

/-- Where starts are orderly, no goroutine returns in silence. -/
theorem Answered.tells (h : Answered x) (a : CustomStep) : Tells x a := by
  cases a with
  | receiveClosed n =>
      intro c hn hclosed _
      by_contra hnot
      exact hnot (h.own n c hn hnot ▸ h.closed c hclosed)
  | _ => trivial

/-- A new transaction. -/
theorem answered_new (lockState : LockState) : Answered (new lockState, .empty) where
  toTelling := telling_new lockState
  chan _ h := nomatch h
  ending h := absurd rfl h
  closed _ h := nomatch h
  start _ h := nomatch h
  last _ h := nomatch h
  own _ _ h := nomatch h

end CustomSteps

/-! ## Fingerprints -/

/-- The goroutine has not left the loop of `doVerify`. -/
def FingerPhase.waits : FingerPhase → Bool
  | .spawned | .looping => true
  | _ => false

/-- The goroutine has been told to quit, or has nothing to give. -/
def FingerPhase.silent : FingerPhase → Prop
  | .stopping code => code = -1
  | .left result | .released result => result = none
  | _ => False

namespace FingerprintSteps

/-- The device is claimed only where no goroutine waits for it that was not asked to end; and where
the reader has told, with the code 4, that it is disconnected, stopping it fails, or the attempt was
asked to end. -/
def Answers (x : FingerprintSteps × History) : FingerprintStep → Prop
  | .claim none => 0 < x.1.starts → ∀ n, (x.1.phases n).waits = true → n ∈ x.2.requested
  | .stopVerify n none => x.1.phases n = .stopping 4 → n ∈ x.2.requested
  | _ => True

/-- The channel `quit` is that of the last attempt, and closed where that was asked to end; whoever
waits and was not is the last attempt; a goroutine stops the device with a code that ends the
verification, or since it was told to quit; and one that is silent was asked to end. -/
structure Answered (x : FingerprintSteps × History) : Prop extends Telling x where
  quit : ∀ c, x.1.quit = some c → c = x.1.attempts
  closed : ∀ c, x.1.quitClosed c = true → c ∈ x.2.requested
  last : ∀ n, (x.1.phases n).waits = true → n ∉ x.2.requested → n = x.1.attempts
  code : ∀ n code, x.1.phases n = .stopping code → code = -1 ∨ isVerifyStatusDone code = true
  silent : ∀ n, (x.1.phases n).silent → n ∈ x.2.requested

variable {x x' : FingerprintSteps × History} {a : FingerprintStep} {given : List Given}

/-- A goroutine that waits did so before, or begins. -/
theorem FingerMoves.waits_of {s : FingerprintSteps} {n : ℕ} {p q : FingerPhase}
    (h : s.FingerMoves n a p q) (hq : q.waits = true) :
    (a = .claim none → n = s.attempts + 1) ∧ (a ≠ .claim none → p.waits = true) := by
  cases h with
  | start hn => exact ⟨fun _ => hn, fun h => absurd rfl h⟩
  | verify => exact ⟨by simp, fun _ => rfl⟩
  | _ => cases hq

/-- Of the codes that end a verification, the one of a reader that is gone comes to nothing. -/
theorem eq_of_silent {code : ℤ} {err : Option String} (hdone : isVerifyStatusDone code = true)
    (h : DoVerify.result ⟨none, code, err⟩ = none) : code = 4 ∧ err = none := by
  simp only [isVerifyStatusDone, Bool.or_eq_true, decide_eq_true_eq] at hdone
  cases err with
  | some err => cases h
  | none =>
      rcases hdone with ((rfl | rfl) | rfl) | rfl
      · cases h
      · cases h
      · cases h
      · exact ⟨rfl, rfl⟩

/-- **The step lemma.** -/
theorem Answered.step (h : Answered x) (ha : Answers x a)
    (hs : episodes.traced x a = some (x', given)) : Answered x' := by
  obtain ⟨hs₁, hh⟩ := Episodes.traced_eq_some.mp hs
  obtain ⟨-, hmove, -⟩ := step_eq_some.mp hs₁
  have hreq : ∀ n ∈ x.2.requested, n ∈ x'.2.requested := by
    intro n hn
    rw [hh]
    exact List.mem_append_right _ hn
  obtain ⟨hclaim, hclosed⟩ := frame_move hmove
  refine ⟨h.toTelling.step hs, ?_, ?_, ?_, ?_, ?_⟩
  · intro c hc
    rcases hclaim with ⟨hattempts, hquit, -⟩ | ⟨-, -, hattempts, hquit⟩
    · rw [hattempts]
      exact h.quit c (hquit.symm.trans hc)
    · rw [hattempts]
      exact (Option.some.inj (hquit.symm.trans hc)).symm
  · intro c hc
    rcases hclosed c hc with hwas | ⟨hquit, hrequests⟩
    · exact hreq c (h.closed c hwas)
    · rw [hh, h.quit c hquit]
      exact List.mem_append_left _ (Option.mem_toList.mpr hrequests)
  · intro n hn hnot
    have hnot : n ∉ x.2.requested := fun hk => hnot (hreq n hk)
    rcases phases_move hmove n with hsame | hmoves
    · have hsame : x'.1.phases n = x.1.phases n := hsame
      rw [hsame] at hn
      rcases hclaim with ⟨hattempts, -⟩ | ⟨rfl, hpos, -⟩
      · exact (h.last n hn hnot).trans hattempts.symm
      · exact absurd (ha hpos n hn) hnot
    · obtain ⟨hfirst, hwas⟩ := hmoves.waits_of hn
      rcases hclaim with ⟨hattempts, -, hne⟩ | ⟨rfl, -, hattempts, -⟩
      · exact (h.last n (hwas hne) hnot).trans hattempts.symm
      · exact (hfirst rfl).trans hattempts.symm
  · intro n code hn
    rcases phases_move hmove n with hsame | hmoves
    · exact h.code n code (hsame.symm.trans hn)
    · rw [hn] at hmoves
      generalize FingerprintSteps.phases { x.1 with sent := [] } n = p at hmoves
      cases hmoves with
      | quit hquit => exact .inl rfl
      | verifyStatus hdone => exact .inr hdone
  · intro n hn
    rcases phases_move hmove n with hsame | hmoves
    · have hsame : x'.1.phases n = x.1.phases n := hsame
      exact hreq n (h.silent n (hsame ▸ hn))
    · refine hreq n ?_
      generalize hp : FingerprintSteps.phases { x.1 with sent := [] } n = p at hmoves
      have hp : x.1.phases n = p := hp
      generalize x'.1.phases n = q at hmoves hn
      cases hmoves with
      | quit hquit =>
          -- the channel that is closed is that of the last attempt, and so is the goroutine
          obtain ⟨c, hc, hclosed⟩ := (Option.any_eq_true _ _).mp hquit
          by_contra hnot
          have hlast := (h.last n (by rw [hp]; rfl) hnot).trans (h.quit c hc).symm
          exact hnot (hlast ▸ h.closed c hclosed)
      | verifyStatus hdone =>
          rw [show _ = (-1 : ℤ) from hn] at hdone
          cases hdone
      | @stopVerify code err =>
          rcases h.code n code hp with rfl | hdone
          · exact h.silent n (by rw [hp]; rfl)
          · obtain ⟨rfl, rfl⟩ := eq_of_silent hdone hn
            exact ha hp
      | closeRelease => exact h.silent n (by rw [hp]; exact hn)
      | verifyErr => cases hn
      | _ => exact hn.elim

/-- Where the reader answers, no goroutine returns in silence. -/
theorem Answered.tells (h : Answered x) (a : FingerprintStep) : Tells x a := by
  cases a with
  | give n =>
      intro hn _
      exact h.silent n (by rw [hn]; rfl)
  | _ => trivial

/-- A new transaction. -/
theorem answered_new (lockState : LockState) : Answered (new lockState, .empty) where
  toTelling := telling_new lockState
  quit _ h := nomatch h
  closed _ h := nomatch h
  last _ h := nomatch h
  code _ _ h := nomatch h
  silent _ h := h.elim

end FingerprintSteps

/-! ## Cameras -/

namespace CameraVerify

variable {c : CameraType}

/-- The driver fails to start only where the attempt was asked to end. -/
def Answers (x : CameraVerify c × History) : CameraVerifyStep → Prop
  | .verifyStart false => ∀ id, x.1.phase = some (.registered id) → x.1.attempts ∈ x.2.requested
  | _ => True

/-- An attempt that the driver refused was asked to end, besides what `Telling` says. -/
structure Answered (x : CameraVerify c × History) : Prop extends Telling x where
  refusedEnds : ∀ n ∈ x.2.refused, n ∈ x.2.requested

variable {x x' : CameraVerify c × History} {a : CameraVerifyStep} {given : List Given}

/-- Only a driver that does not start refuses. -/
theorem refuses_eq_some {s : CameraVerify c} {n : ℕ} (h : s.refuses a = some n) :
    a = .verifyStart false ∧ n = s.attempts ∧ ∃ id, s.phase = some (.registered id) := by
  unfold refuses at h
  split at h
  · split at h <;> cases h
    next id hphase => exact ⟨rfl, rfl, id, hphase⟩
  · cases h

/-- **The step lemma.** -/
theorem Answered.step (h : Answered x) (ha : Answers x a)
    (hs : (episodes c).traced x a = some (x', given)) : Answered x' := by
  refine ⟨h.toTelling.step hs, ?_⟩
  intro n hn
  rw [(Episodes.traced_eq_some.mp hs).2] at hn ⊢
  refine List.mem_append_right _ ?_
  rcases List.mem_append.mp hn with hn | hn
  · obtain ⟨rfl, rfl, id, hphase⟩ := refuses_eq_some (Option.mem_toList.mp hn)
    exact ha id hphase
  · exact h.refusedEnds n hn

/-- Where the driver starts, no goroutine returns in silence. -/
theorem Answered.tells (h : Answered x) (a : CameraVerifyStep) : Tells x a := by
  cases a with
  | finish =>
      intro _ hrefused
      exact h.refusedEnds _ hrefused
  | _ => trivial

/-- A new transaction. -/
theorem answered_new (c : CameraType) (lockState : LockState) :
    Answered (new c lockState, .empty) where
  toTelling := telling_new c lockState
  refusedEnds _ h := nomatch h

end CameraVerify

/-! ## Keys -/

namespace UKeySteps

/-- The service reports on a verification that it runs, and its device is in order; nor does a
`SetPin` fail while a verdict is to come, except where the attempt was asked to end. -/
def Answers (x : UKeySteps × History) : UKeyStep → Prop
  | .signal n id (.verifyResult _) =>
      x.1.tx.handlers = true → id = x.1.tx.verificationId →
        n ∈ x.1.verifying.map (·.1) ∨ n ∈ x.2.requested
  | .handle n (.state st) =>
      x.1.heard = some (n, .state st) → ignored (stateToStatusCode st x.1.tx.deviceLost) = false →
        n ∉ x.1.outstanding ∨ n ∈ x.2.requested ∨ x.1.requests (.handle n (.state st)) = some n
  | .pin p _ => p ∈ x.1.pins → (∃ err, p.stage = .giveStatus err) →
      p.attempt ∉ x.1.outstanding ∨ p.attempt ∈ x.2.requested
  | _ => True

/-- The attempts that are to give a verdict, were counted, are given a pin for or heard of have
begun; and one that was not asked to end has one verdict to come at most, and none where it was
counted. -/
structure Answered (x : UKeySteps × History) : Prop where
  begun : ∀ n ∈ x.1.outstanding, n ≤ x.1.tx.attempts
  counted : ∀ n ∈ x.2.counted, n ≤ x.1.tx.attempts
  pins : ∀ p ∈ x.1.pins, p.attempt ≤ x.1.tx.attempts
  heard : ∀ n sig, x.1.heard = some (n, sig) → n ≤ x.1.tx.attempts
  once : ∀ n ∉ x.2.requested, x.1.outstanding.count n ≤ 1
  first : ∀ n ∉ x.2.requested, n ∈ x.1.outstanding → n ∉ x.2.counted

variable {s s' : UKeySteps} {a : UKeyStep} {n : ℕ}

/-- A verdict is added to those to come by a start, or by a report on a verification that the
service does not run. -/
theorem adds_eq_some (h : s.adds a = some n) :
    a = .act .giveStarted ∧ n = s.tx.attempts + 1 ∨
      ∃ id ok, a = .signal n id (.verifyResult ok) ∧ s.tx.handlers = true ∧
        id = s.tx.verificationId ∧ n ∉ s.verifying.map (·.1) := by
  unfold adds at h
  split at h
  · exact .inl ⟨rfl, (Option.some.inj h).symm⟩
  · next k id ok =>
      obtain ⟨⟨⟨hon, hid⟩, hnot⟩, heq⟩ := Option.ite_none_right_eq_some.mp h
      cases heq
      exact .inr ⟨id, ok, rfl, hon, hid, hnot⟩
  · cases h

/-- An attempt does not stop where a verdict is added. -/
theorem adds_of_stops (h : stopsAttempt a = some n) (s : UKeySteps) : s.adds a = none := by
  unfold stopsAttempt at h
  split at h <;> cases h <;> rfl

variable {x x' : UKeySteps × History} {given : List Given}

/-- A verdict to come was so before, or is that of an attempt which begins, or which was asked to
end. -/
theorem Answered.added (h : Answered x) (ha : Answers x a) (hadds : x.1.adds a = some n) :
    a = .act .giveStarted ∧ n = x.1.tx.attempts + 1 ∧ n ∉ x.1.outstanding ∧ n ∉ x.2.counted ∨
      n ∈ x.2.requested := by
  rcases adds_eq_some hadds with ⟨rfl, hn⟩ | ⟨id, ok, rfl, hon, hid, hnot⟩
  · refine .inl ⟨rfl, hn, fun hmem => ?_, fun hmem => ?_⟩
    · exact absurd (hn ▸ h.begun n hmem) (Nat.not_succ_le_self _)
    · exact absurd (hn ▸ h.counted n hmem) (Nat.not_succ_le_self _)
  · exact .inr ((ha hon hid).resolve_left hnot)

/-- What a step gives an outcome of has begun, and has no verdict to come any more, or was asked to
end. -/
theorem Answered.of_outcome (h : Answered x) (ha : Answers x a)
    (hs : episodes.traced x a = some (x', given)) (hn : n ∈ episodes.outcomes a given) :
    n ≤ x.1.tx.attempts ∧ (n ∉ x'.2.requested → n ∉ x'.1.outstanding) := by
  obtain ⟨hs₁, hh⟩ := Episodes.traced_eq_some.mp hs
  obtain ⟨hmove, rfl⟩ := step_eq_some.mp hs₁
  have hcount : x'.1.outstanding.count n + (if stopsAttempt a = some n then 1 else 0) ≤
      x.1.outstanding.count n + if x.1.adds a = some n then 1 else 0 := outstanding_move hmove n
  have hreq : n ∈ x.2.requested → n ∈ x'.2.requested := by
    rw [hh]
    exact List.mem_append_right _
  obtain ⟨g, hg, hout, horigin⟩ := Episodes.mem_outcomes.mp hn
  -- where no verdict is added, what had none to come has none to come
  have hover : x.1.adds a = none → n ∉ x.1.outstanding → n ∉ x'.1.outstanding := by
    intro hadds hnot hmem
    rw [hadds, List.count_eq_zero_of_not_mem hnot] at hcount
    have hpos := List.count_pos_iff.mpr hmem
    simp only [reduceCtorEq, if_false] at hcount
    omega
  rcases given_move rfl hmove with ⟨hquiet, -⟩ | ⟨k, g', hstops, hk, -, -, -⟩ |
    ⟨p, err, device, rfl, hp, hstage, -⟩ | ⟨k, st, rfl, hheard, hcodes⟩
  · cases hout.symm.trans (hquiet g hg).1
  · obtain rfl : k = n := (origin_of_stops hstops g).symm.trans horigin
    refine ⟨h.begun k hk, fun hnot hmem => ?_⟩
    have hpos := List.count_pos_iff.mpr hmem
    have honce := h.once k fun hn => hnot (hreq hn)
    rw [adds_of_stops hstops, if_pos hstops] at hcount
    simp only [reduceCtorEq, if_false] at hcount
    omega
  · obtain rfl : p.attempt = n := horigin
    refine ⟨h.pins p hp, fun hnot => hover rfl ?_⟩
    exact (ha hp ⟨err, hstage⟩).resolve_right fun hn => hnot (hreq hn)
  · obtain rfl : k = n := horigin
    refine ⟨h.heard k _ hheard, fun hnot => hover rfl ?_⟩
    have hout : (!ignored g.status.s) = true := hout
    have hcounted : ignored g.status.s = false := by simpa using hout
    have hignored : ignored (stateToStatusCode st x.1.tx.deviceLost) = false := by
      rcases hcodes g hg with hcode | hended
      · exact (congrArg ignored hcode).symm.trans hcounted
      · rw [hended] at hcounted
        cases hcounted
    rcases ha hheard hignored with hover | hwas | hrequests
    · exact hover
    · exact absurd (hreq hwas) hnot
    · refine absurd ?_ hnot
      rw [hh]
      exact List.mem_append_left _ (Option.mem_toList.mpr hrequests)

/-- **The step lemma.** -/
theorem Answered.step (h : Answered x) (ha : Answers x a)
    (hs : episodes.traced x a = some (x', given)) : Answered x' := by
  obtain ⟨hs₁, hh⟩ := Episodes.traced_eq_some.mp hs
  obtain ⟨hmove, hsent⟩ := step_eq_some.mp hs₁
  have hattempts : x'.1.tx.attempts = x.1.tx.attempts ∧ a ≠ .act .giveStarted ∨
      a = .act .giveStarted ∧ x'.1.tx.attempts = x.1.tx.attempts + 1 :=
    attempts_move (s := x.1.clearSent) hmove
  have hmono : x.1.tx.attempts ≤ x'.1.tx.attempts := by
    rcases hattempts with ⟨hsame, -⟩ | ⟨-, hnext⟩
    · exact hsame.ge
    · rw [hnext]
      exact Nat.le_succ _
  have hcount : ∀ n, x'.1.outstanding.count n + (if stopsAttempt a = some n then 1 else 0) ≤
      x.1.outstanding.count n + if x.1.adds a = some n then 1 else 0 :=
    outstanding_move (s := x.1.clearSent) hmove
  have hwas : ∀ n ∉ x'.2.requested, n ∉ x.2.requested := by
    intro n hnot hn
    rw [hh] at hnot
    exact hnot (List.mem_append_right _ hn)
  have hfrom : ∀ n ∈ x'.1.outstanding, n ∈ x.1.outstanding ∨ x.1.adds a = some n := by
    intro n hn
    have hn' := hcount n
    have hpos := List.count_pos_iff.mpr hn
    by_cases hadds : x.1.adds a = some n
    · exact .inr hadds
    · rw [if_neg hadds] at hn'
      exact .inl (List.count_pos_iff.mp (by omega))
  refine ⟨?_, ?_, ?_, ?_, ?_, ?_⟩
  · intro n hn
    rcases hfrom n hn with hn | hadds
    · exact (h.begun n hn).trans hmono
    · rcases adds_eq_some hadds with ⟨rfl, hn⟩ | ⟨id, ok, rfl, -⟩
      · rcases hattempts with ⟨-, hne⟩ | ⟨-, hnext⟩
        · exact absurd rfl hne
        · exact (hn.trans hnext.symm).le
      · obtain ⟨⟨hn, -⟩, heq⟩ := Option.ite_none_right_eq_some.mp hmove
        rw [← Option.some.inj heq]
        exact hn
  · intro n hn
    rw [hh] at hn
    rcases List.mem_append.mp hn with hn | hn
    · exact (h.of_outcome ha hs hn).1.trans hmono
    · exact (h.counted n hn).trans hmono
  · intro p' hp'
    rcases pins_move hmove hp' with ⟨p, hp, heq⟩ | ⟨-, -, heq⟩
    · exact heq ▸ (h.pins p hp).trans hmono
    · exact heq.le.trans hmono
  · intro n sig hsig
    rcases heard_move hmove hsig with hsig | ⟨id, -, hn, -⟩
    · exact (h.heard n sig hsig).trans hmono
    · exact le_trans hn hmono
  · intro n hnot
    have hn := hcount n
    by_cases hadds : x.1.adds a = some n
    · rcases h.added ha hadds with ⟨-, -, hnew, -⟩ | hreq
      · rw [List.count_eq_zero_of_not_mem hnew, if_pos hadds] at hn
        omega
      · exact absurd hreq (hwas n hnot)
    · have honce := h.once n (hwas n hnot)
      rw [if_neg hadds] at hn
      omega
  · intro n hnot hmem hcounted
    rw [hh] at hcounted
    rcases List.mem_append.mp hcounted with hout | hcounted
    · exact (h.of_outcome ha hs hout).2 hnot hmem
    · rcases hfrom n hmem with hmem | hadds
      · exact h.first n (hwas n hnot) hmem hcounted
      · rcases h.added ha hadds with ⟨-, -, -, hnew⟩ | hreq
        · exact hnew hcounted
        · exact absurd hreq (hwas n hnot)

/-- **A key attempt that stops has told its outcome.** -/
theorem Answered.reports (h : Answered x) (a : UKeyStep) : episodes.Reports x a := by
  intro x' given hs n hstops hnot
  have hstops : stopsAttempt a = some n := hstops
  obtain ⟨hs₁, hh⟩ := Episodes.traced_eq_some.mp hs
  obtain ⟨hmove, rfl⟩ := step_eq_some.mp hs₁
  rcases given_move rfl hmove with ⟨-, hno⟩ | ⟨k, g, hk, hout, hgiven, hresult, hdev⟩ |
    ⟨p, err, device, rfl, -⟩ | ⟨k, st, rfl, -⟩
  · cases hno.symm.trans hstops
  · cases hk.symm.trans hstops
    obtain ⟨hcounted, hidle⟩ := VerifyStatus.told_of_isResult hresult
    have hfirst : n ∉ x.2.counted := by
      refine h.first n (fun hn => hnot ?_) hout
      rw [hh]
      exact List.mem_append_right _ hn
    refine ⟨?_, fun hbusy => hidle (hdev.symm.trans hbusy)⟩
    have hone : episodes.outcomes a x'.1.tx.sent = [n] := by
      rw [hgiven, Episodes.outcomes_singleton (m := episodes) ?_]
      · exact congrArg (fun k => [k]) (origin_of_stops hstops g)
      · unfold stopsAttempt at hstops
        split at hstops <;> first
          | exact hcounted
          | cases hstops
    rw [hh]
    show (episodes.outcomes a x'.1.tx.sent ++ x.2.counted).count n = 1
    rw [hone, List.singleton_append, List.count_cons_self, List.count_eq_zero_of_not_mem hfirst]
  · cases hstops
  · cases hstops

/-- A new transaction. -/
theorem answered_new (manager : Manager) (lockState : LockState) :
    Answered (new manager lockState, .empty) where
  begun _ h := nomatch h
  counted _ h := nomatch h
  pins _ h := nomatch h
  heard _ _ h := nomatch h
  once _ _ := Nat.zero_le _
  first _ _ h := nomatch h

end UKeySteps

/-! ## All kinds -/

namespace TxKind

/-- Devices, drivers and services answer, and starts and calls of `end` come in order. -/
def Answers : (k : TxKind) → k.State × History → k.Step → Prop
  | .password => PasswordSteps.Answers
  | .fingerprint => FingerprintSteps.Answers
  | .face => CameraVerify.Answers (c := .face)
  | .iris => CameraVerify.Answers (c := .iris)
  | .uKey => UKeySteps.Answers
  | .custom => CustomSteps.Answers

end TxKind

/-- **Attempts that stop by themselves report their outcome.** For every kind of transaction, in
every run in which devices, drivers and services answer and starts come in order, an attempt that
stops without an `end` having been asked for has given exactly one status that is counted, and does
not leave the transaction verifying. -/
theorem outcome_reported (k : TxKind) (type0 : AuthType) (lockState : LockState)
    (manager : Manager) (acts : List k.Step)
    (h : Along k.episodes.traced k.Answers (k.initial type0 lockState manager, .empty) acts) :
    Along k.episodes.traced k.episodes.Reports
      (k.initial type0 lockState manager, .empty) acts := by
  cases k with
  | password =>
      exact Along.of_invariant (I := PasswordSteps.Telling) (fun _ _ _ _ h ha hs => h.step ha hs)
        (fun _ a h _ => h.reports a) (PasswordSteps.telling_new type0 lockState) h
  | fingerprint =>
      exact Along.of_invariant (I := FingerprintSteps.Answered)
        (fun _ _ _ _ h ha hs => h.step ha hs)
        (fun _ a h _ => (h.toTelling.reports_iff a).mpr (h.tells a))
        (FingerprintSteps.answered_new lockState) h
  | face =>
      exact Along.of_invariant (I := CameraVerify.Answered (c := .face))
        (fun _ _ _ _ h ha hs => h.step ha hs)
        (fun _ a h _ => (h.toTelling.reports_iff a).mpr (h.tells a))
        (CameraVerify.answered_new .face lockState) h
  | iris =>
      exact Along.of_invariant (I := CameraVerify.Answered (c := .iris))
        (fun _ _ _ _ h ha hs => h.step ha hs)
        (fun _ a h _ => (h.toTelling.reports_iff a).mpr (h.tells a))
        (CameraVerify.answered_new .iris lockState) h
  | uKey =>
      exact Along.of_invariant (I := UKeySteps.Answered) (fun _ _ _ _ h ha hs => h.step ha hs)
        (fun _ a h _ => h.reports a) (UKeySteps.answered_new manager lockState) h
  | custom =>
      exact Along.of_invariant (I := CustomSteps.Answered) (fun _ _ _ _ h ha hs => h.step ha hs)
        (fun _ a h _ => (h.toTelling.reports_iff a).mpr (h.tells a))
        (CustomSteps.answered_new lockState) h

/-- A finger does not match, and in the next attempt the reader is disconnected, which makes the
stopping of it fail: both attempts tell their outcome. -/
theorem outcome_reported_twice :
    Along (TxKind.episodes .fingerprint).traced (TxKind.episodes .fingerprint).Reports
      (TxKind.initial .fingerprint .unlock .new .fingerprint, .empty)
      ([.start, .claim none, .verify 1 none, .verifyStatus 1 3, .verifyStatus 1 1,
        .stopVerify 1 none, .closeRelease 1, .give 1, .endTx, .endGive, .endMark, .start,
        .claim none, .verify 2 none, .verifyStatus 2 4, .stopVerify 2 (some "disconnected"),
        .closeRelease 2, .give 2] :
        List FingerprintStep) := by
  refine outcome_reported .fingerprint .fingerprint .unlock .new _ ?_
  refine (along_cons_of_eq rfl).mpr ⟨trivial, (along_cons_of_eq rfl).mpr ⟨?first, ?_⟩⟩
  case first =>
    rintro - n ⟨⟩
  repeat refine (along_cons_of_eq rfl).mpr ⟨True.intro, ?_⟩
  refine (along_cons_of_eq rfl).mpr ⟨?stopped, ?_⟩
  case stopped =>
    rintro ⟨⟩
  repeat refine (along_cons_of_eq rfl).mpr ⟨True.intro, ?_⟩
  refine (along_cons_of_eq rfl).mpr ⟨?second, ?_⟩
  case second =>
    -- the first goroutine has returned, and no other has begun
    rintro - (_ | _ | n) hn <;> cases hn
  repeat refine (along_cons_of_eq rfl).mpr ⟨True.intro, ?_⟩
  trivial

/-- A reader that is disconnected while a finger is awaited. -/
def disconnectedReader : List FingerprintStep :=
  [.start, .claim none, .verify 1 none, .verifyStatus 1 4, .stopVerify 1 none, .closeRelease 1]

/-- The goroutine returns without a status, and the factor goes on verifying. -/
theorem disconnected_reader_silent :
    ¬ ∀ (k : TxKind) (type0 : AuthType) (lockState : LockState) (manager : Manager)
        (acts : List k.Step),
      Along k.episodes.traced k.episodes.Reports
        (k.initial type0 lockState manager, .empty) acts := by
  intro h
  have hgive := (h .fingerprint .fingerprint .unlock .new
    (disconnectedReader ++ [FingerprintStep.give 1] : List FingerprintStep)).of_run rfl
  obtain ⟨hcount, -⟩ := hgive _ _ rfl 1 rfl (by rintro ⟨⟩)
  cases hcount

end LingmoAuthenticate.Session
