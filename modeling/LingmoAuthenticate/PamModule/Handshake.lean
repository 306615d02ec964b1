import LingmoAuthenticate.PamModule.Login

/-!
# Waiting for the reply of `GetResult`

The token thread sends the call, sets `waitingResult`, and looks at the flag until it is cleared;
the bus thread's callback stores the value of the reply and clears the flag.

* `HandshakeAt s`: where the call is, for each place of the token thread.
* `handshake_iff`: the token thread leaves the loop after a reply in every state of a run, exactly
  where it sets the flag before the reply has been handled.
* `spins_until_cancelled`: a flag that is set after it waits for nothing.
-/

namespace LingmoAuthenticate.PamModule

open Lib

variable {s s' : Login} {o : Option LoginCall} {a : Action}

/-! ## Where the call is -/

/-- A call of `GetResult` whose reply has not been handled: its reply is still to come, the callback
has it, or the callback is about to wake the token thread with it. -/
inductive Outstanding (s : Login) : Prop
  | queued (reply : s.reply = none) (queued : s.queued = true) (bus : s.bus.inCallback = false)
  | gotResult (value : Option ℤ) (reply : s.reply = none) (queued : s.queued = false)
      (bus : s.bus = .gotResult value)
  | wake (value : Option ℤ) (reply : s.reply = none) (queued : s.queued = false)
      (bus : s.bus = .wake value)
      (val : s.getResultVal = value.getD getResultUnavailable)

/-- There is no such call: none is queued, and the thread of the bus is in no callback of one. -/
structure Quiet (s : Login) : Prop where
  queued : s.queued = false
  bus : s.bus.inCallback = false

/-- The value of the reply is there. -/
def Handled (s : Login) : Prop :=
  ∃ value, s.reply = some value ∧ s.getResultVal = value.getD getResultUnavailable

/-- The value of the reply, or of a call that has failed. -/
def Settled (s : Login) : Prop :=
  Handled s ∨ s.reply = none ∧ s.getResultVal = getResultUnavailable

/-- Where the call is, for each place of the token thread. -/
def HandshakeAt (s : Login) : Prop :=
  match s.token with
  | none => s.bus.closed = false → Quiet s
  | some (.announce ..) => Outstanding s ∨ Quiet s ∧ Handled s
  | some (.spin ..) => Outstanding s ∧ s.waitingResult = true ∨ Quiet s ∧ Settled s
  | some (.readVal ..) => Quiet s ∧ Settled s
  | some (.unavailable ..) => Quiet s ∧ s.reply = none
  | some (.saveTok _) | some .setItem | some .storeSuccess =>
      Quiet s ∧ s.reply = some (some getResultSuccess)
  | some _ => Quiet s

/-- The token thread waits, or is about to. -/
def Awaits (s : Login) : Prop :=
  ∃ tok resp, s.token = some (.announce tok resp) ∨
    s.token = some (.spin tok resp) ∧ s.waitingResult = true

theorem Outstanding.reply_eq (h : Outstanding s) : s.reply = none := by
  cases h with
  | queued reply _ _ => exact reply
  | gotResult _ reply _ _ => exact reply
  | wake _ reply _ _ _ => exact reply

/-- The call does not depend on the token thread. -/
theorem Outstanding.congr (h : Outstanding s) (hreply : s'.reply = s.reply)
    (hqueued : s'.queued = s.queued) (hbus : s'.bus = s.bus)
    (hval : s'.getResultVal = s.getResultVal) : Outstanding s' := by
  cases h with
  | queued reply queued bus =>
      exact .queued (hreply.trans reply) (hqueued.trans queued) (by rw [hbus, bus])
  | gotResult value reply queued bus =>
      exact .gotResult value (hreply.trans reply) (hqueued.trans queued) (hbus.trans bus)
  | wake value reply queued bus val =>
      exact .wake value (hreply.trans reply) (hqueued.trans queued) (hbus.trans bus)
        (hval.trans val)

/-- Someone waits for a call that there is. -/
theorem HandshakeAt.awaits (h : HandshakeAt s) (hopen : s.bus.closed = false) (hq : ¬ Quiet s) :
    Outstanding s ∧ Awaits s := by
  unfold HandshakeAt at h
  split at h
  · exact absurd (h hopen) hq
  · next tok resp htoken =>
      rcases h with h | h
      · exact ⟨h, tok, resp, Or.inl htoken⟩
      · exact absurd h.1 hq
  · next tok resp htoken =>
      rcases h with ⟨h, hwaiting⟩ | h
      · exact ⟨h, tok, resp, Or.inr ⟨htoken, hwaiting⟩⟩
      · exact absurd h.1 hq
  · exact absurd h.1 hq
  · exact absurd h.1 hq
  · exact absurd h.1 hq
  · exact absurd h.1 hq
  · exact absurd h.1 hq
  · exact absurd h hq

theorem handshakeAt_of_awaits (h : Outstanding s) (hawaits : Awaits s) : HandshakeAt s := by
  unfold HandshakeAt
  obtain ⟨tok, resp, htoken | ⟨htoken, hwaiting⟩⟩ := hawaits
  · rw [htoken]
    exact Or.inl h
  · rw [htoken]
    exact Or.inl ⟨h, hwaiting⟩

/-- The reply has been handled. -/
theorem handshakeAt_of_handled (hq : Quiet s) (h : Handled s)
    (hawaits : ∃ tok resp, s.token = some (.announce tok resp) ∨ s.token = some (.spin tok resp)) :
    HandshakeAt s := by
  unfold HandshakeAt
  obtain ⟨tok, resp, htoken | htoken⟩ := hawaits
  · rw [htoken]
    exact Or.inr ⟨hq, h⟩
  · rw [htoken]
    exact Or.inr ⟨hq, Or.inl h⟩

/-- The thread has ended, or calls the session, without a call before. -/
theorem handshakeAt_afterAnswer {rep : Option (List Char)} (hq : Quiet s)
    (htoken : s.token = afterAnswer rep) : HandshakeAt s := by
  unfold HandshakeAt
  rw [htoken]
  rcases afterAnswer_cases rep with h | ⟨resp, h⟩ | ⟨path, tok, resp, h⟩
  · rw [h]
    exact fun _ => hq
  · rw [h]
    exact hq
  · rw [h]
    exact hq

/-- A step of the bus thread outside of the callback: it touches nothing that the two threads share
about a call, and once the bus is closed it stays so. -/
structure KeepsCall (s s' : Login) : Prop where
  token : s'.token = s.token
  queued : s'.queued = s.queued
  reply : s'.reply = s.reply
  val : s'.getResultVal = s.getResultVal
  waiting : s'.waitingResult = s.waitingResult
  bus : s.bus.inCallback = false
  bus' : s'.bus.inCallback = false
  closed : s.bus.closed = true → s'.bus.closed = true

theorem KeepsCall.quiet (hk : KeepsCall s s') (h : Quiet s) : Quiet s' :=
  ⟨hk.queued.trans h.queued, hk.bus'⟩

theorem KeepsCall.outstanding (hk : KeepsCall s s') (h : Outstanding s) : Outstanding s' := by
  have hbus := hk.bus
  cases h with
  | queued reply queued _ =>
      exact .queued (hk.reply.trans reply) (hk.queued.trans queued) hk.bus'
  | gotResult value _ _ bus =>
      rw [bus] at hbus
      cases hbus
  | wake value _ _ bus _ =>
      rw [bus] at hbus
      cases hbus

theorem KeepsCall.handled (hk : KeepsCall s s') (h : Handled s) : Handled s' := by
  unfold Handled
  rw [hk.reply, hk.val]
  exact h

theorem KeepsCall.settled (hk : KeepsCall s s') (h : Settled s) : Settled s' := by
  unfold Settled
  rw [hk.reply, hk.val]
  exact h.imp_left hk.handled

/-- Such a step is no matter of the call. -/
theorem KeepsCall.handshakeAt (hk : KeepsCall s s') (h : HandshakeAt s) : HandshakeAt s' := by
  unfold HandshakeAt at h ⊢
  rw [hk.token, hk.reply, hk.waiting]
  split at h
  · intro hopen
    refine hk.quiet (h ?_)
    exact Bool.eq_false_iff.mpr fun hclosed =>
      absurd (hk.closed hclosed) (Bool.eq_false_iff.mp hopen)
  · exact h.imp hk.outstanding fun h => ⟨hk.quiet h.1, hk.handled h.2⟩
  · exact h.imp (fun h => ⟨hk.outstanding h.1, h.2⟩) fun h => ⟨hk.quiet h.1, hk.settled h.2⟩
  · exact ⟨hk.quiet h.1, hk.settled h.2⟩
  · exact ⟨hk.quiet h.1, h.2⟩
  · exact ⟨hk.quiet h.1, h.2⟩
  · exact ⟨hk.quiet h.1, h.2⟩
  · exact ⟨hk.quiet h.1, h.2⟩
  · exact hk.quiet h

/-- From `sd_bus_process` to a place outside of the callback. -/
theorem KeepsCall.of_process {ud : UserData} {place : BusPlace} (hbus : s.bus = .process)
    (hplace : place.inCallback = false) : KeepsCall s { s with ud := ud, bus := place } where
  token := rfl
  queued := rfl
  reply := rfl
  val := rfl
  waiting := rfl
  bus := by rw [hbus]; rfl
  bus' := hplace
  closed h := by rw [hbus] at h; cases h

/-- The reads and writes of the bus thread outside of the callback. -/
theorem keepsCall_stepBus (hcb : s.bus.inCallback = false) (hs : s.stepBus = some s') :
    KeepsCall s s' := by
  unfold Login.stepBus at hs
  have hclosed : ∀ place, s.bus = place → place.closed = false → s.bus.closed = true →
      s'.bus.closed = true := by
    rintro place hplace hopen hclosed
    rw [hplace, hopen] at hclosed
    cases hclosed
  cases hbus : s.bus with
  | gotResult value =>
      rw [hbus] at hcb
      cases hcb
  | wake value =>
      rw [hbus] at hcb
      cases hcb
  | process =>
      rw [hbus] at hs
      cases hs
  | returned res =>
      rw [hbus] at hs
      cases hs
  | test =>
      rw [hbus] at hs
      cases hs
      refine ⟨rfl, rfl, rfl, rfl, rfl, hcb, ?_, hclosed _ hbus rfl⟩
      dsimp only
      split_ifs
      · rfl
      · rfl
  | publish =>
      rw [hbus] at hs
      cases hs
      refine ⟨rfl, rfl, rfl, rfl, rfl, hcb, ?_, hclosed _ hbus rfl⟩
      dsimp only
      split_ifs
      · rfl
      · rfl
  | checkTok =>
      rw [hbus] at hs
      cases hs
      refine ⟨rfl, rfl, rfl, rfl, rfl, hcb, ?_, hclosed _ hbus rfl⟩
      dsimp only
      split_ifs
      · rfl
      · rfl
  | join =>
      rw [hbus] at hs
      dsimp only at hs
      split_ifs at hs
      cases hs
      exact ⟨rfl, rfl, rfl, rfl, rfl, hcb, rfl, fun _ => rfl⟩
  | _ =>
      rw [hbus] at hs
      cases hs
      exact ⟨rfl, rfl, rfl, rfl, rfl, hcb, rfl, hclosed _ hbus rfl⟩

/-! ## One step -/

/-- The token thread. -/
theorem HandshakeAt.stepToken (h : HandshakeAt s) (hs : s.stepToken = some s') :
    HandshakeAt s' := by
  rcases htoken : s.token with _ | place
  · rw [Login.stepToken, htoken] at hs
    cases hs
  unfold HandshakeAt at h
  rw [htoken] at h
  unfold Login.stepToken at hs
  rw [htoken] at hs
  cases place with
  | ask => cases hs
  | failed rep =>
      cases hs
      unfold HandshakeAt
      dsimp only
      split_ifs
      · exact ⟨h.queued, h.bus⟩
      · exact ⟨h.queued, h.bus⟩
  | reread rep =>
      cases hs
      exact ⟨h.queued, h.bus⟩
  | abort res rep =>
      cases hs
      exact handshakeAt_afterAnswer ⟨h.queued, h.bus⟩ rfl
  | getResult path tok resp => cases hs
  | unavailable tok resp =>
      cases hs
      exact Or.inr ⟨⟨h.1.queued, h.1.bus⟩, Or.inr ⟨h.2, rfl⟩⟩
  | announce tok resp =>
      cases hs
      rcases h with h | ⟨hq, hhandled⟩
      · exact Or.inl ⟨h.congr rfl rfl rfl rfl, rfl⟩
      · exact Or.inr ⟨⟨hq.queued, hq.bus⟩, Or.inl hhandled⟩
  | spin tok resp =>
      cases hs
      rcases hwaiting : s.waitingResult with _ | _
      · rcases h with ⟨-, htrue⟩ | ⟨hq, hsettled⟩
        · rw [hwaiting] at htrue
          cases htrue
        · exact ⟨⟨hq.queued, hq.bus⟩, hsettled⟩
      · rcases h with ⟨h, -⟩ | ⟨hq, hsettled⟩
        · exact Or.inl ⟨h.congr rfl rfl rfl rfl, rfl⟩
        · exact Or.inr ⟨⟨hq.queued, hq.bus⟩, hsettled⟩
  | readVal tok resp =>
      cases hs
      obtain ⟨hq, hsettled⟩ := h
      by_cases hval : s.getResultVal = getResultSuccess
      · have hreply : s.reply = some (some getResultSuccess) := by
          rcases hsettled with ⟨value, hreply, heq⟩ | ⟨-, heq⟩
          · rw [hval] at heq
            rcases value with _ | value
            · cases heq
            · rw [hreply, heq]
              rfl
          · rw [hval] at heq
            cases heq
        unfold HandshakeAt
        dsimp only
        rw [if_pos hval]
        rcases tok with _ | tok
        · exact ⟨⟨hq.queued, hq.bus⟩, hreply⟩
        · exact ⟨⟨hq.queued, hq.bus⟩, hreply⟩
      · unfold HandshakeAt
        dsimp only
        rw [if_neg hval]
        exact ⟨hq.queued, hq.bus⟩
  | saveTok tok =>
      cases hs
      exact ⟨⟨h.1.queued, h.1.bus⟩, h.2⟩
  | setItem =>
      cases hs
      exact ⟨⟨h.1.queued, h.1.bus⟩, h.2⟩
  | storeSuccess =>
      cases hs
      exact fun _ => ⟨h.1.queued, h.1.bus⟩
  | setToken resp => cases hs
  | storeAbort resp =>
      cases hs
      exact ⟨h.queued, h.bus⟩
  | save resp =>
      cases hs
      exact fun _ => ⟨h.queued, h.bus⟩

/-- The bus thread. -/
theorem HandshakeAt.stepBus (h : HandshakeAt s) (hs : s.stepBus = some s') : HandshakeAt s' := by
  have hcases := hs
  unfold Login.stepBus at hs
  cases hbus : s.bus with
  | gotResult value =>
      -- the callback stores the value
      rw [hbus] at hs
      cases hs
      obtain ⟨hout, tok, resp, hawaits⟩ := h.awaits (by rw [hbus]; rfl)
        (fun hq => by have hcb := hq.bus; rw [hbus] at hcb; cases hcb)
      refine handshakeAt_of_awaits (.wake value hout.reply_eq ?_ rfl rfl) ⟨tok, resp, hawaits⟩
      cases hout with
      | queued _ _ bus =>
          rw [hbus] at bus
          cases bus
      | gotResult _ _ queued _ => exact queued
      | wake _ _ queued _ _ => exact queued
  | wake value =>
      -- and clears the flag
      rw [hbus] at hs
      cases hs
      obtain ⟨hout, tok, resp, hawaits⟩ := h.awaits (by rw [hbus]; rfl)
        (fun hq => by have hcb := hq.bus; rw [hbus] at hcb; cases hcb)
      cases hout with
      | queued _ _ bus =>
          rw [hbus] at bus
          cases bus
      | gotResult _ _ _ bus =>
          rw [hbus] at bus
          cases bus
      | wake value' _ queued bus val =>
          rw [hbus, BusPlace.wake.injEq] at bus
          refine handshakeAt_of_handled ⟨queued, rfl⟩ ⟨value, rfl, ?_⟩
            ⟨tok, resp, hawaits.imp_right And.left⟩
          rw [bus]
          exact val
  | _ => exact (keepsCall_stepBus (by rw [hbus]; rfl) hcases).handshakeAt h

/-- **One step of either thread.** -/
theorem HandshakeAt.step (hthreads : Threads s) (h : HandshakeAt s)
    (hs : s.step a = some (s', o)) : HandshakeAt s' := by
  cases a with
  | answer failed rep =>
      obtain ⟨htoken, rfl⟩ := answer_cases (of_map_pair hs)
      unfold HandshakeAt at h
      rw [htoken] at h
      have hq : Quiet s := h
      cases failed with
      | true => exact ⟨hq.queued, hq.bus⟩
      | false => exact handshakeAt_afterAnswer ⟨hq.queued, hq.bus⟩ rfl
  | call ok =>
      unfold HandshakeAt at h
      obtain ⟨path, tok, resp, htoken, ⟨-, -, rfl⟩ | ⟨-, rfl⟩⟩ |
        ⟨resp, htoken, ⟨-, -, rfl⟩ | ⟨-, rfl⟩⟩ := call_cases hs
      all_goals rw [htoken] at h
      · exact Or.inl (.queued rfl rfl h.bus)
      · exact ⟨⟨h.queued, h.bus⟩, rfl⟩
      · exact ⟨h.queued, h.bus⟩
      · exact ⟨h.queued, h.bus⟩
  | token => exact h.stepToken (of_map_pair hs)
  | cancel =>
      obtain ⟨hbus, -, rfl⟩ := cancel_cases (of_map_pair hs)
      intro hopen
      dsimp only at hopen
      rw [hbus] at hopen
      cases hopen
  | idle =>
      obtain ⟨hbus, rfl⟩ := process_cases hs
      exact (KeepsCall.of_process hbus rfl).handshakeAt h
  | signal x =>
      obtain ⟨hbus, rfl | ⟨r, -, -, -, ⟨rfl, -⟩ | ⟨hnone, -, rfl⟩⟩⟩ := signal_cases hthreads hs
      · exact (KeepsCall.of_process hbus rfl).handshakeAt h
      · exact (KeepsCall.of_process hbus rfl).handshakeAt h
      · unfold HandshakeAt at h
        rw [hnone] at h
        exact ⟨(h (by rw [hbus]; rfl)).queued, rfl⟩
  | reply value =>
      obtain ⟨hbus, hqueued, rfl⟩ := reply_cases (of_map_pair hs)
      obtain ⟨hout, hawaits⟩ := h.awaits (by rw [hbus]; rfl)
        (fun hq => by have hnot := hq.queued; rw [hqueued] at hnot; cases hnot)
      exact handshakeAt_of_awaits (.gotResult value hout.reply_eq rfl rfl) hawaits
  | busError =>
      obtain ⟨hbus, rfl⟩ := process_cases hs
      exact (KeepsCall.of_process hbus rfl).handshakeAt h
  | bus => exact h.stepBus (of_map_pair hs)

theorem handshakeAt_start (ud : UserData) : HandshakeAt (Login.start ud) := fun _ => ⟨rfl, rfl⟩

theorem threads_start (ud : UserData) : Threads (Login.start ud) := fun h => by cases h

/-! ## Over a run -/

/-- After a reply has been handled, the token thread leaves the loop when it looks at the flag; and
it is only about to store PAM_SUCCESS if the value of the reply is GET_RESULT_SUCCESS. -/
structure Handshake (s : Login) : Prop where
  leaves : ∀ tok resp, s.token = some (.spin tok resp) → s.reply.isSome = true →
    ∀ s' o, s.step .token = some (s', o) → s'.token = some (.readVal tok resp)
  success : s.token = some .storeSuccess → s.reply = some (some getResultSuccess)

/-- The token thread sets the flag before the reply has been handled. -/
def AnnouncedFirst (s : Login) (a : Action) : Prop :=
  a = .token → ∀ tok resp, s.token = some (.announce tok resp) → s.reply = none

/-- The flag is not set after a reply. -/
def Woken (s : Login) : Prop :=
  ∀ tok resp, s.token = some (.spin tok resp) → s.reply.isSome = true → s.waitingResult = false

theorem handshake_iff_woken (h : HandshakeAt s) : Handshake s ↔ Woken s := by
  constructor
  · intro hs tok resp htoken hreply
    have hstep : s.step .token = some ({ s with
        token := some (if s.waitingResult then .spin tok resp else .readVal tok resp) },
        none) := by
      simp only [Login.step, Login.stepToken]
      rw [htoken]
      rfl
    have hleaves := hs.leaves tok resp htoken hreply _ _ hstep
    rcases hwaiting : s.waitingResult with _ | _
    · rfl
    · rw [hwaiting] at hleaves
      cases hleaves
  · intro hw
    constructor
    · intro tok resp htoken hreply s' o hs
      have hwaiting := hw tok resp htoken hreply
      replace hs := of_map_pair hs
      unfold Login.stepToken at hs
      rw [htoken] at hs
      cases hs
      dsimp only
      rw [hwaiting]
      rfl
    · intro htoken
      unfold HandshakeAt at h
      rw [htoken] at h
      exact h.2

theorem KeepsCall.woken (hk : KeepsCall s s') (h : Woken s) : Woken s' := by
  unfold Woken
  rw [hk.token, hk.reply, hk.waiting]
  exact h

/-- Out of the loop. -/
theorem woken_of_ne (h : ∀ tok resp, s.token ≠ some (.spin tok resp)) : Woken s :=
  fun tok resp htoken => absurd htoken (h tok resp)

/-- **The token thread** breaks the handshake where it sets the flag after the reply. -/
theorem woken_stepToken_iff (h : HandshakeAt s) (hw : Woken s) (hs : s.stepToken = some s') :
    Woken s' ↔ ∀ tok resp, s.token = some (.announce tok resp) → s.reply = none := by
  rcases htoken : s.token with _ | place
  · rw [Login.stepToken, htoken] at hs
    cases hs
  unfold Login.stepToken at hs
  rw [htoken] at hs
  unfold HandshakeAt at h
  rw [htoken] at h
  cases place with
  | ask => cases hs
  | failed rep =>
      cases hs
      refine iff_of_true (woken_of_ne ?_) (by simp)
      intro tok resp
      dsimp only
      split_ifs
      · simp
      · simp
  | reread rep =>
      cases hs
      exact iff_of_true (woken_of_ne (by simp)) (by simp)
  | abort res rep =>
      cases hs
      refine iff_of_true (woken_of_ne ?_) (by simp)
      intro tok resp
      dsimp only
      rcases afterAnswer_cases rep with h | ⟨resp', h⟩ | ⟨path, tok', resp', h⟩
      all_goals simp [h]
  | getResult path tok resp => cases hs
  | unavailable tok resp =>
      cases hs
      refine iff_of_true ?_ (by simp)
      intro tok' resp' _ hreply
      dsimp only at hreply
      rw [h.2] at hreply
      cases hreply
  | announce tok resp =>
      cases hs
      constructor
      · intro hw' tok' resp' _
        have hnot := hw' tok resp rfl
        rcases hreply : s.reply with _ | value
        · rfl
        · cases hnot (by dsimp only; rw [hreply]; rfl)
      · intro hnone tok' resp' _ hreply
        dsimp only at hreply
        rw [hnone tok resp rfl] at hreply
        cases hreply
  | spin tok resp =>
      cases hs
      refine iff_of_true ?_ (by simp)
      intro tok' resp' _ hreply
      exact hw tok resp htoken hreply
  | readVal tok resp =>
      cases hs
      refine iff_of_true (woken_of_ne ?_) (by simp)
      intro tok' resp'
      dsimp only
      split_ifs
      · cases tok with
        | none => simp
        | some _ => simp
      · simp
  | saveTok tok =>
      cases hs
      exact iff_of_true (woken_of_ne (by simp)) (by simp)
  | setItem =>
      cases hs
      exact iff_of_true (woken_of_ne (by simp)) (by simp)
  | storeSuccess =>
      cases hs
      exact iff_of_true (woken_of_ne (by simp)) (by simp)
  | setToken resp => cases hs
  | storeAbort resp =>
      cases hs
      exact iff_of_true (woken_of_ne (by simp)) (by simp)
  | save resp =>
      cases hs
      exact iff_of_true (woken_of_ne (by simp)) (by simp)

/-- The bus thread never breaks it. -/
theorem Woken.stepBus (h : Woken s) (hs : s.stepBus = some s') : Woken s' := by
  have hcases := hs
  unfold Login.stepBus at hs
  cases hbus : s.bus with
  | gotResult value =>
      rw [hbus] at hs
      cases hs
      exact h
  | wake value =>
      rw [hbus] at hs
      cases hs
      exact fun _ _ _ _ => rfl
  | _ => exact (keepsCall_stepBus (by rw [hbus]; rfl) hcases).woken h

/-- **One step.** -/
theorem woken_step_iff (hthreads : Threads s) (h : HandshakeAt s) (hw : Woken s)
    (hs : s.step a = some (s', o)) : Woken s' ↔ AnnouncedFirst s a := by
  cases a with
  | token =>
      rw [woken_stepToken_iff h hw (of_map_pair hs)]
      exact ⟨fun h _ => h, fun h => h rfl⟩
  | answer failed rep =>
      obtain ⟨-, rfl⟩ := answer_cases (of_map_pair hs)
      refine iff_of_true (woken_of_ne ?_) (fun h => by cases h)
      intro tok resp
      dsimp only
      split_ifs
      · simp
      · rcases afterAnswer_cases rep with h | ⟨resp', h⟩ | ⟨path, tok', resp', h⟩
        all_goals simp [h]
  | call ok =>
      refine iff_of_true (woken_of_ne ?_) (fun h => by cases h)
      intro tok' resp'
      obtain ⟨path, tok, resp, -, ⟨-, -, rfl⟩ | ⟨-, rfl⟩⟩ |
        ⟨resp, -, ⟨-, -, rfl⟩ | ⟨-, rfl⟩⟩ := call_cases hs
      all_goals simp
  | cancel =>
      obtain ⟨-, -, rfl⟩ := cancel_cases (of_map_pair hs)
      exact iff_of_true (woken_of_ne (by simp)) (fun h => by cases h)
  | idle =>
      obtain ⟨hbus, rfl⟩ := process_cases hs
      exact iff_of_true ((KeepsCall.of_process hbus rfl).woken hw) (fun h => by cases h)
  | signal x =>
      refine iff_of_true ?_ (fun h => by cases h)
      obtain ⟨hbus, rfl | ⟨r, -, -, -, ⟨rfl, -⟩ | ⟨-, -, rfl⟩⟩⟩ := signal_cases hthreads hs
      · exact (KeepsCall.of_process hbus rfl).woken hw
      · exact (KeepsCall.of_process hbus rfl).woken hw
      · exact woken_of_ne (by simp)
  | reply value =>
      obtain ⟨-, -, rfl⟩ := reply_cases (of_map_pair hs)
      exact iff_of_true hw (fun h => by cases h)
  | busError =>
      obtain ⟨hbus, rfl⟩ := process_cases hs
      exact iff_of_true ((KeepsCall.of_process hbus rfl).woken hw) (fun h => by cases h)
  | bus => exact iff_of_true (hw.stepBus (of_map_pair hs)) (fun h => by cases h)

/-- **The handshake** is kept in every state of a run, exactly where the token thread sets the flag
before the reply is handled. -/
theorem handshake_iff (ud : UserData) (as : List Action) :
    (∀ cs t os, cs <+: as → run Login.step (Login.start ud) cs = some (t, os) → Handshake t) ↔
      Along Login.step AnnouncedFirst (Login.start ud) as := by
  refine reached_iff_along (I := Handshake) (J := fun s => Threads s ∧ HandshakeAt s)
    (fun s a s' o h hs => ⟨h.1.step hs, h.2.step h.1 hs⟩) ?_ ?_
    ⟨threads_start ud, handshakeAt_start ud⟩
    ((handshake_iff_woken (handshakeAt_start ud)).mpr (woken_of_ne (fun _ _ h => by cases h))) as
  · intro s a s' o h hw hs
    rw [handshake_iff_woken (h.2.step h.1 hs)]
    exact woken_step_iff h.1 h.2 ((handshake_iff_woken h.2).mp hw) hs
  · rintro s a hnone rfl tok resp htoken
    simp only [Login.step, Login.stepToken] at hnone
    rw [htoken] at hnone
    cases hnone

/-! ## A flag that is set too late -/

/-- The token thread looks at a flag that nobody clears, until it is cancelled. -/
def SpinsOn (s : Login) : Prop :=
  (Quiet s ∧ s.waitingResult = true ∧ ∃ tok resp, s.token = some (.spin tok resp)) ∨
    s.token = none ∧ s.bus.closed = true

/-- A bus that has been closed stays closed. -/
theorem closed_of_stepBus (h : s.bus.closed = true) (hs : s.stepBus = some s') :
    s'.bus.closed = true := by
  refine (keepsCall_stepBus ?_ hs).closed h
  cases hbus : s.bus with
  | gotResult value =>
      rw [hbus] at h
      cases h
  | wake value =>
      rw [hbus] at h
      cases h
  | _ => rfl

/-- **One step.** -/
theorem SpinsOn.step (hthreads : Threads s) (h : SpinsOn s) (hs : s.step a = some (s', o)) :
    SpinsOn s' := by
  rcases h with ⟨hq, hwaiting, tok, resp, htoken⟩ | ⟨hnone, hclosed⟩
  · cases a with
    | answer failed rep =>
        obtain ⟨hask, -⟩ := answer_cases (of_map_pair hs)
        rw [htoken] at hask
        cases hask
    | call ok =>
        obtain ⟨path, tok', resp', hcall, -⟩ | ⟨resp', hcall, -⟩ := call_cases hs
        all_goals rw [htoken] at hcall
        all_goals cases hcall
    | token =>
        replace hs := of_map_pair hs
        unfold Login.stepToken at hs
        rw [htoken] at hs
        cases hs
        exact Or.inl ⟨⟨hq.queued, hq.bus⟩, hwaiting, tok, resp, by rw [hwaiting]; rfl⟩
    | cancel =>
        obtain ⟨hbus, -, rfl⟩ := cancel_cases (of_map_pair hs)
        exact Or.inr ⟨rfl, by dsimp only; rw [hbus]; rfl⟩
    | idle =>
        obtain ⟨-, rfl⟩ := process_cases hs
        exact Or.inl ⟨⟨hq.queued, rfl⟩, hwaiting, tok, resp, htoken⟩
    | signal x =>
        obtain ⟨-, rfl | ⟨r, -, -, -, ⟨rfl, -⟩ | ⟨hnone, -, -⟩⟩⟩ := signal_cases hthreads hs
        · exact Or.inl ⟨⟨hq.queued, rfl⟩, hwaiting, tok, resp, htoken⟩
        · exact Or.inl ⟨⟨hq.queued, rfl⟩, hwaiting, tok, resp, htoken⟩
        · rw [htoken] at hnone
          cases hnone
    | reply value =>
        obtain ⟨-, hqueued, -⟩ := reply_cases (of_map_pair hs)
        rw [hq.queued] at hqueued
        cases hqueued
    | busError =>
        obtain ⟨-, rfl⟩ := process_cases hs
        exact Or.inl ⟨⟨hq.queued, rfl⟩, hwaiting, tok, resp, htoken⟩
    | bus =>
        have hk := keepsCall_stepBus hq.bus (of_map_pair hs)
        exact Or.inl ⟨hk.quiet hq, hk.waiting.trans hwaiting, tok, resp, hk.token.trans htoken⟩
  · cases a with
    | answer failed rep =>
        obtain ⟨hask, -⟩ := answer_cases (of_map_pair hs)
        rw [hnone] at hask
        cases hask
    | call ok =>
        obtain ⟨path, tok', resp', hcall, -⟩ | ⟨resp', hcall, -⟩ := call_cases hs
        all_goals rw [hnone] at hcall
        all_goals cases hcall
    | token =>
        have hsome := (isSome_of_stepToken (of_map_pair hs)).1
        rw [hnone] at hsome
        cases hsome
    | cancel =>
        obtain ⟨-, -, rfl⟩ := cancel_cases (of_map_pair hs)
        exact Or.inr ⟨rfl, hclosed⟩
    | idle =>
        obtain ⟨hbus, -⟩ := process_cases hs
        rw [hbus] at hclosed
        cases hclosed
    | signal x =>
        obtain ⟨hbus, -⟩ := signal_cases hthreads hs
        rw [hbus] at hclosed
        cases hclosed
    | reply value =>
        obtain ⟨hbus, -⟩ := reply_cases (of_map_pair hs)
        rw [hbus] at hclosed
        cases hclosed
    | busError =>
        obtain ⟨hbus, -⟩ := process_cases hs
        rw [hbus] at hclosed
        cases hclosed
    | bus =>
        replace hs := of_map_pair hs
        exact Or.inr ⟨(token_of_stepBus hs).1.trans hnone, closed_of_stepBus hclosed hs⟩

/-- **A flag that is set after the reply** is looked at until the thread is cancelled, whatever
happens. -/
theorem spins_until_cancelled (hthreads : Threads s) (h : SpinsOn s) {as : List Action}
    {t : Login} {os : List (Option LoginCall)} (hr : run Login.step s as = some (t, os)) :
    SpinsOn t :=
  (run_invariant_of_step (I := fun s => Threads s ∧ SpinsOn s)
    (fun _ _ _ _ h hs => ⟨h.1.step hs, h.2.step h.1 hs⟩) ⟨hthreads, h⟩ hr).2

/-- A prompt for a login in any order. -/
def prompted : List Action := [.bus, .signal (⟨-1, .prompt, "Password"⟩, allOk), .bus, .bus]

/-- The session that the answer names has succeeded, and its reply comes at once. -/
def repliedAtOnce : List Action :=
  prompted ++ [.answer false (some "/1;".toList), .call true, .bus, .reply (some 0), .bus, .bus,
    .token]

/-- **The wake-up is lost** when the reply is handled before the flag is set: the token thread looks
at the flag until it is cancelled. -/
theorem wake_up_lost :
    ∃ t os, run Login.step (Login.start anyFactor) repliedAtOnce = some (t, os) ∧
      t.reply = some (some getResultSuccess) ∧ ¬ Handshake t ∧
      ∀ as u os', run Login.step t as = some (u, os') → SpinsOn u := by
  refine ⟨_, _, rfl, rfl, ?_, ?_⟩
  · intro h
    have hleaves := h.leaves none "/1;".toList rfl rfl _ _ rfl
    cases hleaves
  · intro as u os' hr
    refine spins_until_cancelled ?_ (Or.inl ⟨⟨rfl, rfl⟩, rfl, _, _, rfl⟩) hr
    exact fun _ => rfl

end LingmoAuthenticate.PamModule
