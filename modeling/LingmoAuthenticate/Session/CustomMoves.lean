import LingmoAuthenticate.Session.Attempts

/-!
# What a step does to a custom attempt

How a step moves the goroutines of a custom transaction, and what it gives that a controller counts.

* `CustomSteps.VerifyMoves`, `CustomSteps.verifies_move`: the moves of the goroutines.
* `CustomSteps.StartMoves`, `CustomSteps.starts_move`, `CustomSteps.frame_move`: those of the starts,
  and what becomes of the channels.
* `CustomSteps.given_move`: what a step gives.
-/

namespace LingmoAuthenticate.Session

open Lib AuthCommon

namespace CustomSteps

variable {s s' : CustomSteps} {a : CustomStep} {sent : List Given}

/-- A step, as long as the daemon lives. -/
theorem step_eq_some :
    s.step a = some (s', sent) ↔
      s.panicked = false ∧ move { s with sent := [] } a = some s' ∧ sent = s'.sent :=
  guarded_eq_some

/-- How a step moves the goroutine of an attempt: it takes the channel that is there, waits for a
token or for the closing of the channel, and gives its status after a token only. -/
inductive VerifyMoves (s : CustomSteps) (n : ℕ) :
    CustomStep → CustomVerifyPhase → CustomVerifyPhase → Prop
  | start {p} (h : s.starts n = .unmarked) : VerifyMoves s n (.giveStarted n) p .spawned
  | takeChan {c} (h : s.chanPasswd = some c) : VerifyMoves s n (.takeChan n) .spawned (.receiving c)
  | receive {i c} (h : s.chans.Offers i c) : VerifyMoves s n (.receive n i) (.receiving c) .giving
  | receiveClosed {c} (h : s.chans.closed c = true) :
      VerifyMoves s n (.receiveClosed n) (.receiving c) .returned
  | give : VerifyMoves s n (.give n) .giving .returned

theorem setVerify_verifies (s : CustomSteps) (k n : ℕ) (p : CustomVerifyPhase) :
    (s.setVerify k p).verifies n = s.verifies n ∨ n = k ∧ (s.setVerify k p).verifies n = p := by
  by_cases h : n = k
  · exact .inr ⟨h, h ▸ Function.update_self ..⟩
  · exact .inl (Function.update_of_ne h ..)

/-- **The moves of the goroutines.** -/
theorem verifies_move (hs : s.move a = some s') (n : ℕ) :
    s'.verifies n = s.verifies n ∨ s.VerifyMoves n a (s.verifies n) (s'.verifies n) := by
  have hset : ∀ (t : CustomSteps) (k : ℕ) (p : CustomVerifyPhase), t.verifies = s.verifies →
      s.VerifyMoves k a (s.verifies k) p →
      (t.setVerify k p).verifies n = s.verifies n ∨
        s.VerifyMoves n a (s.verifies n) ((t.setVerify k p).verifies n) := by
    intro t k p ht hmoves
    rcases setVerify_verifies t k n p with h | ⟨rfl, h⟩
    · exact .inl (h.trans (congrFun ht n))
    · exact .inr (h.symm ▸ hmoves)
  cases next_of_move hs with
  | giveStarted hn => exact hset _ _ _ rfl (.start hn)
  | takeChan hn hc => exact hset _ _ _ rfl (hn ▸ .takeChan hc)
  | receive hn hoffer => exact hset _ _ _ rfl (hn ▸ .receive hoffer)
  | receiveClosed hn hclosed => exact hset _ _ _ rfl (hn ▸ .receiveClosed hclosed)
  | give hn => exact hset _ _ _ rfl (hn ▸ .give)
  | _ => exact .inl rfl

/-- How a step moves a start: it makes its channel, takes the mark `isEnded` away, and gives the
status `Started`. -/
inductive StartMoves (s : CustomSteps) (n : ℕ) :
    CustomStep → CustomStartPhase → CustomStartPhase → Prop
  | authenticate {p} (h : n = s.attempts + 1) : StartMoves s n .authenticate p .made
  | unmark : StartMoves s n (.unmark n) .made .unmarked
  | giveStarted : StartMoves s n (.giveStarted n) .unmarked .returned

theorem setStart_starts (s : CustomSteps) (k n : ℕ) (p : CustomStartPhase) :
    (s.setStart k p).starts n = s.starts n ∨ n = k ∧ (s.setStart k p).starts n = p := by
  by_cases h : n = k
  · exact .inr ⟨h, h ▸ Function.update_self ..⟩
  · exact .inl (Function.update_of_ne h ..)

/-- **The moves of the starts.** -/
theorem starts_move (hs : s.move a = some s') (n : ℕ) :
    s'.starts n = s.starts n ∨ s.StartMoves n a (s.starts n) (s'.starts n) := by
  have hset : ∀ (t : CustomSteps) (k : ℕ) (p : CustomStartPhase), t.starts = s.starts →
      s.StartMoves k a (s.starts k) p →
      (t.setStart k p).starts n = s.starts n ∨
        s.StartMoves n a (s.starts n) ((t.setStart k p).starts n) := by
    intro t k p ht hmoves
    rcases setStart_starts t k n p with h | ⟨rfl, h⟩
    · exact .inl (h.trans (congrFun ht n))
    · exact .inr (h.symm ▸ hmoves)
  cases next_of_move hs with
  | authenticate hpos => exact hset _ _ _ rfl (.authenticate rfl)
  | unmark hn => exact hset _ _ _ rfl (hn ▸ .unmark)
  | giveStarted hn => exact hset (s.giveStatus _ _) _ _ rfl (hn ▸ .giveStarted)
  | _ => exact .inl rfl

/-- A start that tells of itself has returned. -/
theorem starts_giveStarted {n : ℕ} (hs : s.move (.giveStarted n) = some s') :
    s.starts n = .unmarked ∧ s'.starts n = .returned := by
  cases next_of_move hs with
  | giveStarted hn => exact ⟨hn, Function.update_self ..⟩

/-- What else a step does to an attempt: a start makes a channel and counts on, `end` comes for the
attempt that is the last, and what is closed is the channel of the last start. -/
theorem frame_move (hs : s.move a = some s') :
    (s'.attempts = s.attempts ∧ s'.chanPasswd = s.chanPasswd ∧ a ≠ .authenticate ∨
      a = .authenticate ∧ s'.attempts = s.attempts + 1 ∧ s'.chanPasswd = some (s.attempts + 1) ∧
        s'.ending = s.ending ∧ 0 < s.checked) ∧
    (s'.ending ≠ none → s.ending ≠ none ∨ s.requests a = some s.attempts) ∧
    ∀ c, s'.chans.closed c = true →
      s.chans.closed c = true ∨ s.ending ≠ none ∧ s.chanPasswd = some c := by
  cases next_of_move hs with
  | authenticate hpos => exact ⟨.inr ⟨rfl, rfl, rfl, rfl, hpos⟩, .inl, fun _ => .inl⟩
  | receive hn hoffer => exact ⟨.inl ⟨rfl, rfl, by simp⟩, .inl, fun _ => .inl⟩
  | send hi hc hsend =>
      exact ⟨.inl ⟨rfl, rfl, by simp⟩, .inl,
        fun c' hc' => .inl ((congrFun (Rendezvous.closed_send hsend) c').symm.trans hc')⟩
  | endTx hmux hended => exact ⟨.inl ⟨rfl, rfl, by simp⟩, fun _ => .inr (if_pos hmux), fun _ => .inl⟩
  | endGive hmux | endMark hmux =>
      exact ⟨.inl ⟨rfl, rfl, by simp⟩, fun _ => .inl (by rw [hmux]; rintro ⟨⟩), fun _ => .inl⟩
  | @endClose c chans hmux hc hclose =>
      refine ⟨.inl ⟨rfl, rfl, by simp⟩, fun h => absurd rfl h, fun c' hc' => ?_⟩
      rcases Rendezvous.closed_close hclose hc' with hwas | rfl
      · exact .inl hwas
      · exact .inr ⟨by rw [hmux]; rintro ⟨⟩, hc⟩
  | @setLockState l => exact ⟨.inl ⟨s.notifyLock_attempts l, rfl, by simp⟩, .inl, fun _ => .inl⟩
  | _ => exact ⟨.inl ⟨rfl, rfl, by simp⟩, .inl, fun _ => .inl⟩

/-- **What a step gives**: the success of a goroutine, or what no controller counts. -/
theorem given_move (hsent : s.sent = []) (hs : s.move a = some s') :
    Quiet (isOutcome a) s'.sent ∨
      ∃ n, a = .give n ∧ s.verifies n = .giving ∧
        s'.sent = [⟨n, newVerifyStatus .success true ""⟩] ∧ s'.devState = .ended ∧
        s'.verifies n = .returned := by
  have hnone : ∀ t : CustomSteps, t.sent = s.sent → Quiet (isOutcome a) t.sent :=
    fun t ht => quiet_of_eq_nil (ht.trans hsent)
  cases next_of_move hs with
  | giveStarted hn => exact .inl ((hnone s rfl).append rfl rfl)
  | @give n hn =>
      refine .inr ⟨n, rfl, hn, ?_, rfl, Function.update_self ..⟩
      show s.sent ++ [⟨n, newVerifyStatus .success true ""⟩] = _
      rw [hsent, List.nil_append]
  | endGive hmux => exact .inl ((hnone s rfl).append rfl rfl)
  | @setLockState l => exact .inl (quiet_notifyLock hsent l)
  | _ => exact .inl (hnone _ rfl)

end CustomSteps

end LingmoAuthenticate.Session
