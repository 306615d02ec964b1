import LingmoAuthenticate.PamModule.Handshake

/-!
# The result of a login, and its token

Both threads store a result in `ud->res`, and the bus thread stores a -1 after most signals; the
answer is kept in `authTok` for PAM after it has been sent. `InTurn` is when this is in order: a
thread stores its result before the other one has, and not between the other one's look at `ud->res`
and its store; the answer is kept before a success is published.

* `Kept s`: the result is the first one stored, and where the answer is.
* `result_final`: in a run in turn, the result is final, and a success carries the answer.
* `result_replaced`: out of turn, a success is replaced by -1, or comes without the answer.
-/

namespace LingmoAuthenticate.PamModule

open Lib

variable {s s' : Login} {o : Option LoginCall} {a : Action}

/-! ## In turn -/

/-- The bus thread has looked at `ud->res`, and is about to store a result. -/
def BusPlace.storing : BusPlace → Bool
  | .assign _ | .busError => true
  | _ => false

/-- The bus thread has stored a result, and has not published it. -/
def BusPlace.publishing : BusPlace → Bool
  | .publish | .checkTok | .setItem => true
  | _ => false

/-- The loop has ended. -/
def BusPlace.left : BusPlace → Bool
  | .report | .clean | .join | .returned _ => true
  | _ => false

/-- The token thread stores the result that is there, or the first one, while the bus thread is not
about to store one. -/
def StoresInTurn (s : Login) (res : ℤ) : Prop :=
  s.ud.res = res ∨ s.ud.res = -1 ∧ s.bus.storing = false

/-- The token thread stores a result in turn, and a success of `GetResult` after no answer has been
sent; no answer is sent after a success has been published. The bus thread takes a signal, or a
failure of the bus, while there is no result; it publishes a success when the token thread has kept
the answer that it has sent. -/
def InTurn (s : Login) : Action → Prop
  | .token =>
      match s.token with
      | some (.abort res _) => StoresInTurn s res
      | some .storeSuccess => StoresInTurn s pamSuccess
      | some (.storeAbort _) => StoresInTurn s pamAbort
      | some (.readVal ..) => s.getResultVal = getResultSuccess → s.sent = none
      | _ => True
  | .call ok =>
      match s.token with
      | some (.setToken _) => ok = true → s.ud.res = pamSuccess → s.bus.publishing = true
      | _ => True
  | .signal x => x.2.readable = true → s.ud.res = -1
  | .busError => s.ud.res = -1
  | .bus => s.bus = .checkTok ∨ s.bus = .setItem → ∀ resp, s.token ≠ some (.save resp)
  | .answer _ _ | .cancel | .idle | .reply _ => True

/-! ## What is kept -/

/-- A success is still possible. -/
def Open (s : Login) : Prop := s.ud.res = -1 ∨ s.ud.res = pamSuccess

/-- The answer that was sent has been kept. -/
def Saved (s : Login) : Prop := Open s → ∀ resp, s.sent = some resp → s.authTok = some resp

/-- What the token thread knows about the result and the answer, for each of its places. -/
def TokenKept (s : Login) : Prop :=
  match s.token with
  | some (.reread _) => s.ud.res ≠ -1 ∧ Saved s
  | some (.abort res _) => (res = pamAbort ∨ res ≠ -1 ∧ s.ud.res = res) ∧ Saved s
  | some (.saveTok _) | some .setItem | some .storeSuccess => s.sent = none
  | some (.save resp) => Open s → s.sent = some resp
  | _ => Saved s

/-- The result is the first one stored; the bus thread stores one while there is none, and leaves
the loop, and returns, with the one there is; a success that has been published carries the answer
that was sent. -/
structure BusKept (s : Login) : Prop where
  stored : s.stored = if s.ud.res = -1 then none else some s.ud.res
  storing : s.bus.storing = true → s.ud.res = -1
  left : s.bus.left = true → s.ud.res ≠ -1
  returned : ∀ res, s.bus = .returned res → s.token = none ∧ s.ud.res = res
  succeeds : s.bus = .checkTok ∨ s.bus = .setItem → s.ud.res = pamSuccess
  published : s.ud.res = pamSuccess → s.bus.publishing = false →
    ∀ resp, s.sent = some resp → s.pamAuthtok = some resp

/-- What holds of both threads: where they stand together, and what each of them keeps of the
result. -/
structure Kept (s : Login) : Prop where
  threads : Threads s
  token : TokenKept s
  bus : BusKept s

theorem not_sent (h : s.sent = none) {resp : List Char} : s.sent ≠ some resp := by
  rw [h]
  simp

theorem saved_of_not_sent (h : s.sent = none) : Saved s :=
  fun _ _ hresp => absurd hresp (not_sent h)

/-- Unless the answer is being kept, it is there. -/
theorem TokenKept.saved (h : TokenKept s) (hsave : ∀ resp, s.token ≠ some (.save resp)) :
    Saved s := by
  unfold TokenKept at h
  split at h
  · exact h.2
  · exact h.2
  · exact saved_of_not_sent h
  · exact saved_of_not_sent h
  · exact saved_of_not_sent h
  · next resp htoken => exact absurd htoken (hsave resp)
  · exact h

/-- After the conversation, the answer that was sent before is still kept. -/
theorem tokenKept_afterAnswer {rep : Option (List Char)} (h : Saved s)
    (htoken : s.token = afterAnswer rep) : TokenKept s := by
  unfold TokenKept
  rw [htoken]
  rcases afterAnswer_cases rep with heq | ⟨resp, heq⟩ | ⟨path, tok, resp, heq⟩
  · rw [heq]
    exact h
  · rw [heq]
    exact h
  · rw [heq]
    exact h

/-- It does not depend on the bus thread. -/
theorem TokenKept.congr (h : TokenKept s) (htoken : s'.token = s.token)
    (hres : s'.ud.res = s.ud.res) (hsent : s'.sent = s.sent) (htok : s'.authTok = s.authTok) :
    TokenKept s' := by
  unfold TokenKept Saved Open at h ⊢
  rw [htoken, hres, hsent, htok]
  exact h

/-- While there is no result, the bus thread may store any. -/
theorem TokenKept.store (h : TokenKept s) (hres : s.ud.res = -1) (ret : ℤ) (place : BusPlace) :
    TokenKept { s.store ret with bus := place } := by
  have hsaved : Saved s → Saved { s.store ret with bus := place } :=
    fun h _ => h (Or.inl hres)
  have htoken : ({ s.store ret with bus := place } : Login).token = s.token := rfl
  unfold TokenKept at h ⊢
  rw [htoken]
  split at h
  · exact absurd hres h.1
  · refine ⟨Or.inl ?_, hsaved h.2⟩
    rcases h.1 with habort | ⟨hne, heq⟩
    · exact habort
    · exact absurd (heq.symm.trans hres) hne
  · exact h
  · exact h
  · exact h
  · exact fun _ => h (Or.inl hres)
  · exact hsaved h

/-- A step of the token thread that stores no result and publishes nothing. -/
theorem BusKept.congr (h : BusKept s) (hsome : s.token.isSome = true) (hbus : s'.bus = s.bus)
    (hres : s'.ud.res = s.ud.res) (hstored : s'.stored = s.stored)
    (hsent : s'.sent = s.sent) (hitem : s'.pamAuthtok = s.pamAuthtok) : BusKept s' := by
  obtain ⟨h₁, h₂, h₃, h₄, h₅, h₆⟩ := h
  constructor
  · rw [hstored, hres]
    exact h₁
  · rw [hbus, hres]
    exact h₂
  · rw [hbus, hres]
    exact h₃
  · intro res hreturned
    rw [hbus] at hreturned
    rw [(h₄ res hreturned).1] at hsome
    cases hsome
  · rw [hbus, hres]
    exact h₅
  · rw [hres, hbus, hsent, hitem]
    exact h₆

/-- The first result, or the same one again. -/
theorem stored_store (h : s.stored = if s.ud.res = -1 then none else some s.ud.res) {res : ℤ}
    (hres : s.ud.res = res ∨ s.ud.res = -1) :
    (s.store res).stored = if res = -1 then none else some res := by
  unfold Login.store
  dsimp only
  rw [h]
  rcases hres with rfl | hres
  · split_ifs
    · rfl
    · rfl
  · rw [if_pos hres]
    rfl

/-- The token thread stores a result in turn. -/
theorem BusKept.store (h : BusKept s) (hsome : s.token.isSome = true) {res : ℤ} (hne : res ≠ -1)
    (hin : StoresInTurn s res) (hsent : res = pamSuccess → s.sent = none ∨ s.ud.res = res)
    (place : Option TokenPlace) : BusKept { s.store res with token := place } := by
  constructor
  · exact stored_store h.stored (hin.imp_right And.left)
  · intro hstoring
    rcases hin with heq | ⟨-, hnot⟩
    · exact heq.symm.trans (h.storing hstoring)
    · exact absurd hstoring (Bool.eq_false_iff.mp hnot)
  · exact fun _ => hne
  · intro res' hreturned
    rw [(h.returned res' hreturned).1] at hsome
    cases hsome
  · intro hplace
    have hsuccess := h.succeeds hplace
    rcases hin with heq | ⟨hnone, -⟩
    · exact heq.symm.trans hsuccess
    · rw [hsuccess] at hnone
      cases hnone
  · intro hsuccess hpublishing resp hresp
    rcases hsent hsuccess with hnone | heq
    · exact absurd hresp (not_sent hnone)
    · exact h.published (heq.trans hsuccess) hpublishing resp hresp

/-- A step of the bus thread that stores and publishes nothing. -/
theorem BusKept.move (h : BusKept s) (hres : s'.ud.res = s.ud.res) (hstored : s'.stored = s.stored)
    (hsent : s'.sent = s.sent) (hitem : s'.pamAuthtok = s.pamAuthtok)
    (hbus : s.bus.publishing = false) (hstoring : s'.bus.storing = true → s.ud.res = -1)
    (hleft : s'.bus.left = true → s.ud.res ≠ -1)
    (hreturned : ∀ res, s'.bus = .returned res → s'.token = none ∧ s.ud.res = res)
    (hplace : ¬ (s'.bus = .checkTok ∨ s'.bus = .setItem)) : BusKept s' := by
  constructor
  · rw [hstored, hres]
    exact h.stored
  · rw [hres]
    exact hstoring
  · rw [hres]
    exact hleft
  · rw [hres]
    exact hreturned
  · exact fun h => absurd h hplace
  · rw [hres, hsent, hitem]
    exact fun hsuccess _ => h.published hsuccess hbus

/-- A step of the bus thread that publishes a success, or finds that there is none. -/
theorem BusKept.publish (h : BusKept s) (place : BusPlace) (item : Option (List Char))
    (hstoring : place.storing = false) (hleft : place.left = false)
    (hsucceeds : place = .checkTok ∨ place = .setItem → s.ud.res = pamSuccess)
    (hpublished : s.ud.res = pamSuccess → place.publishing = false →
      ∀ resp, s.sent = some resp → item = some resp) :
    BusKept { s with pamAuthtok := item, bus := place } where
  stored := h.stored
  storing hplace := absurd hplace (Bool.eq_false_iff.mp hstoring)
  left hplace := absurd hplace (Bool.eq_false_iff.mp hleft)
  returned res hplace := by
    dsimp only at hplace
    rw [hplace] at hleft
    cases hleft
  succeeds := hsucceeds
  published := hpublished

/-! ## One step -/

/-- The token thread. -/
theorem Kept.stepToken (h : Kept s) (hturn : InTurn s .token) (hs : s.stepToken = some s') :
    TokenKept s' ∧ BusKept s' := by
  obtain ⟨-, htok, hbus⟩ := h
  rcases htoken : s.token with _ | place
  · rw [Login.stepToken, htoken] at hs
    cases hs
  have hsome : s.token.isSome = true := by rw [htoken]; rfl
  unfold Login.stepToken at hs
  rw [htoken] at hs
  unfold TokenKept at htok
  rw [htoken] at htok
  unfold InTurn at hturn
  rw [htoken] at hturn
  cases place with
  | ask => cases hs
  | failed rep =>
      cases hs
      refine ⟨?_, hbus.congr hsome rfl rfl rfl rfl rfl⟩
      by_cases hres : s.ud.res = -1
      · rw [if_pos hres]
        exact ⟨Or.inl rfl, htok⟩
      · rw [if_neg hres]
        exact ⟨hres, htok⟩
  | reread rep =>
      cases hs
      exact ⟨⟨Or.inr ⟨htok.1, rfl⟩, htok.2⟩, hbus.congr hsome rfl rfl rfl rfl rfl⟩
  | abort res rep =>
      cases hs
      obtain ⟨hread, hsaved⟩ := htok
      have hne : res ≠ -1 := by
        rcases hread with rfl | ⟨hne, -⟩
        · decide
        · exact hne
      constructor
      · have hsaved' : Saved { s.store res with token := afterAnswer rep } := by
          intro hopen
          refine hsaved ?_
          rcases hturn with heq | ⟨hnone, -⟩
          · unfold Open
            rw [heq]
            exact hopen
          · exact Or.inl hnone
        exact tokenKept_afterAnswer hsaved' rfl
      · refine hbus.store hsome hne hturn ?_ _
        rintro rfl
        rcases hread with habort | ⟨-, heq⟩
        · cases habort
        · exact Or.inr heq
  | getResult path tok resp => cases hs
  | unavailable tok resp =>
      cases hs
      exact ⟨htok, hbus.congr hsome rfl rfl rfl rfl rfl⟩
  | announce tok resp =>
      cases hs
      exact ⟨htok, hbus.congr hsome rfl rfl rfl rfl rfl⟩
  | spin tok resp =>
      cases hs
      refine ⟨?_, hbus.congr hsome rfl rfl rfl rfl rfl⟩
      unfold TokenKept
      dsimp only
      cases s.waitingResult with
      | true => exact htok
      | false => exact htok
  | readVal tok resp =>
      cases hs
      refine ⟨?_, hbus.congr hsome rfl rfl rfl rfl rfl⟩
      unfold TokenKept
      dsimp only
      by_cases hval : s.getResultVal = getResultSuccess
      · rw [if_pos hval]
        cases tok with
        | none => exact hturn hval
        | some tok => exact hturn hval
      · rw [if_neg hval]
        exact htok
  | saveTok tok =>
      cases hs
      exact ⟨htok, hbus.congr hsome rfl rfl rfl rfl rfl⟩
  | setItem =>
      cases hs
      refine ⟨htok, ?_⟩
      have hsent : s.sent = none := htok
      have hkept : BusKept { s with token := some .storeSuccess } :=
        hbus.congr hsome rfl rfl rfl rfl rfl
      refine ⟨hkept.stored, hkept.storing, hkept.left, ?_, hkept.succeeds, ?_⟩
      · intro res hreturned
        cases (hkept.returned res hreturned).1
      · exact fun _ _ resp hresp => absurd hresp (not_sent hsent)
  | storeSuccess =>
      cases hs
      have hsent : s.sent = none := htok
      exact ⟨saved_of_not_sent hsent,
        hbus.store hsome (by decide) hturn (fun _ => Or.inl hsent) none⟩
  | setToken resp => cases hs
  | storeAbort resp =>
      cases hs
      refine ⟨?_, hbus.store hsome (by decide) hturn (fun h => by cases h) _⟩
      rintro (habort | habort)
      · cases habort
      · cases habort
  | save resp =>
      cases hs
      refine ⟨?_, hbus.congr hsome rfl rfl rfl rfl rfl⟩
      intro hopen resp' hresp
      have hsent : s.sent = some resp := htok hopen
      have hresp' : s.sent = some resp' := hresp
      rw [hsent] at hresp'
      cases hresp'
      rfl

/-- The bus thread. -/
theorem Kept.stepBus (h : Kept s) (hturn : InTurn s .bus) (hs : s.stepBus = some s') :
    TokenKept s' ∧ BusKept s' := by
  obtain ⟨-, htok, hkept⟩ := h
  unfold Login.stepBus at hs
  cases hbus : s.bus with
  | test =>
      rw [hbus] at hs
      cases hs
      refine ⟨htok.congr rfl rfl rfl rfl, ?_⟩
      by_cases hres : s.ud.res = -1
      · rw [if_pos hres]
        exact hkept.move rfl rfl rfl rfl (by rw [hbus]; rfl) nofun
          nofun nofun (by simp)
      · rw [if_neg hres]
        exact hkept.move rfl rfl rfl rfl (by rw [hbus]; rfl) nofun
          (fun _ => hres) nofun (by simp)
  | process =>
      rw [hbus] at hs
      cases hs
  | assign ret =>
      rw [hbus] at hs
      cases hs
      have hres : s.ud.res = -1 := hkept.storing (by rw [hbus]; rfl)
      refine ⟨htok.store hres ret .publish, ?_⟩
      refine ⟨stored_store hkept.stored (Or.inr hres), nofun, nofun,
        nofun, by simp, nofun⟩
  | publish =>
      rw [hbus] at hs
      cases hs
      refine ⟨htok.congr rfl rfl rfl rfl, ?_⟩
      by_cases hres : s.ud.res = pamSuccess
      · rw [if_pos hres]
        exact hkept.publish .checkTok _ rfl rfl (fun _ => hres) nofun
      · rw [if_neg hres]
        exact hkept.publish .test _ rfl rfl (by simp) (fun h => absurd h hres)
  | checkTok =>
      rw [hbus] at hs
      cases hs
      refine ⟨htok.congr rfl rfl rfl rfl, ?_⟩
      have hres : s.ud.res = pamSuccess := hkept.succeeds (Or.inl hbus)
      have hsaved := htok.saved (hturn (Or.inl hbus)) (Or.inr hres)
      by_cases hauth : s.authTok.isSome = true
      · rw [if_pos hauth]
        exact hkept.publish .setItem _ rfl rfl (fun _ => hres) nofun
      · rw [if_neg hauth]
        refine hkept.publish .test _ rfl rfl (fun _ => hres) ?_
        intro _ _ resp hresp
        have hthere := hsaved resp hresp
        rw [hthere] at hauth
        exact absurd rfl hauth
  | setItem =>
      rw [hbus] at hs
      cases hs
      have hres : s.ud.res = pamSuccess := hkept.succeeds (Or.inr hbus)
      have hsaved := htok.saved (hturn (Or.inr hbus)) (Or.inr hres)
      exact ⟨htok.congr rfl rfl rfl rfl,
        hkept.publish .test _ rfl rfl (fun _ => hres) fun _ _ resp hresp => hsaved resp hresp⟩
  | gotResult value =>
      rw [hbus] at hs
      cases hs
      exact ⟨htok.congr rfl rfl rfl rfl, hkept.move rfl rfl rfl rfl (by rw [hbus]; rfl)
        nofun nofun nofun (by simp)⟩
  | wake value =>
      rw [hbus] at hs
      cases hs
      exact ⟨htok.congr rfl rfl rfl rfl, hkept.move rfl rfl rfl rfl (by rw [hbus]; rfl)
        nofun nofun nofun (by simp)⟩
  | busError =>
      rw [hbus] at hs
      cases hs
      have hres : s.ud.res = -1 := hkept.storing (by rw [hbus]; rfl)
      refine ⟨htok.store hres pamAbort .report, ?_⟩
      refine ⟨stored_store hkept.stored (Or.inr hres), nofun,
        fun _ => (by decide : pamAbort ≠ -1), nofun, by simp,
        nofun⟩
  | report =>
      rw [hbus] at hs
      cases hs
      exact ⟨htok.congr rfl rfl rfl rfl, hkept.move rfl rfl rfl rfl (by rw [hbus]; rfl)
        nofun (fun _ => hkept.left (by rw [hbus]; rfl)) nofun
        (by simp)⟩
  | clean =>
      rw [hbus] at hs
      cases hs
      exact ⟨htok.congr rfl rfl rfl rfl, hkept.move rfl rfl rfl rfl (by rw [hbus]; rfl)
        nofun (fun _ => hkept.left (by rw [hbus]; rfl)) nofun
        (by simp)⟩
  | join =>
      rw [hbus] at hs
      dsimp only at hs
      split_ifs at hs with hnone
      cases hs
      refine ⟨htok.congr rfl rfl rfl rfl, hkept.move rfl rfl rfl rfl (by rw [hbus]; rfl)
        nofun (fun _ => hkept.left (by rw [hbus]; rfl)) ?_ (by simp)⟩
      intro res hres
      cases hres
      exact ⟨hnone, rfl⟩
  | returned res =>
      rw [hbus] at hs
      cases hs

/-- **One step in turn.** -/
theorem Kept.step (h : Kept s) (hturn : InTurn s a) (hs : s.step a = some (s', o)) : Kept s' := by
  have hthreads := h.threads.step hs
  suffices TokenKept s' ∧ BusKept s' from ⟨hthreads, this.1, this.2⟩
  cases a with
  | answer failed rep =>
      obtain ⟨htoken, rfl⟩ := answer_cases (of_map_pair hs)
      have hsaved : Saved s := h.token.saved (by rw [htoken]; simp)
      refine ⟨?_, h.bus.congr (by rw [htoken]; rfl) rfl rfl rfl rfl rfl⟩
      cases failed with
      | true => exact hsaved
      | false => exact @tokenKept_afterAnswer _ rep hsaved rfl
  | call ok =>
      unfold InTurn at hturn
      obtain ⟨path, tok, resp, htoken, ⟨-, -, rfl⟩ | ⟨-, rfl⟩⟩ |
        ⟨resp, htoken, ⟨rfl, -, rfl⟩ | ⟨-, rfl⟩⟩ := call_cases hs
      all_goals have hsaved : Saved s := h.token.saved (by rw [htoken]; simp)
      all_goals have hsome : s.token.isSome = true := by rw [htoken]; rfl
      · exact ⟨hsaved, h.bus.congr hsome rfl rfl rfl rfl rfl⟩
      · exact ⟨hsaved, h.bus.congr hsome rfl rfl rfl rfl rfl⟩
      · -- the answer is sent, and kept only later
        rw [htoken] at hturn
        have hkept : BusKept { s with token := some (.save resp) } :=
          h.bus.congr hsome rfl rfl rfl rfl rfl
        refine ⟨fun _ => rfl, hkept.stored, hkept.storing, hkept.left, ?_, hkept.succeeds, ?_⟩
        · intro res hreturned
          cases (hkept.returned res hreturned).1
        · intro hsuccess hpublishing
          have hyes := hturn rfl hsuccess
          rw [hpublishing] at hyes
          cases hyes
      · exact ⟨hsaved, h.bus.congr hsome rfl rfl rfl rfl rfl⟩
  | token => exact h.stepToken hturn (of_map_pair hs)
  | cancel =>
      obtain ⟨hbus, ⟨place, htoken, hpoint⟩, rfl⟩ := cancel_cases (of_map_pair hs)
      have hsaved : Saved s := by
        refine h.token.saved ?_
        rintro resp hsave
        rw [htoken, Option.some.injEq] at hsave
        rw [hsave] at hpoint
        cases hpoint
      exact ⟨hsaved, h.bus.congr (by rw [htoken]; rfl) rfl rfl rfl rfl rfl⟩
  | idle =>
      obtain ⟨hbus, rfl⟩ := process_cases hs
      exact ⟨h.token.congr rfl rfl rfl rfl, h.bus.move rfl rfl rfl rfl (by rw [hbus]; rfl)
        nofun nofun nofun (by simp)⟩
  | signal x =>
      obtain ⟨hbus, rfl | ⟨r, hread, -, hres, ⟨rfl, -⟩ | ⟨hnone, -, rfl⟩⟩⟩ :=
        signal_cases h.threads hs
      · exact ⟨h.token.congr rfl rfl rfl rfl, h.bus.move rfl rfl rfl rfl (by rw [hbus]; rfl)
          nofun nofun nofun (by simp)⟩
      · exact ⟨h.token.congr rfl hres rfl rfl, h.bus.move hres rfl rfl rfl (by rw [hbus]; rfl)
          (fun _ => hturn hread) nofun nofun (by simp)⟩
      · have hsaved : Saved s := h.token.saved (by rw [hnone]; simp)
        refine ⟨?_, h.bus.move hres rfl rfl rfl (by rw [hbus]; rfl)
          (fun _ => hturn hread) nofun nofun (by simp)⟩
        exact fun _ => hsaved (Or.inl (hturn hread))
  | reply value =>
      obtain ⟨hbus, -, rfl⟩ := reply_cases (of_map_pair hs)
      exact ⟨h.token.congr rfl rfl rfl rfl, h.bus.move rfl rfl rfl rfl (by rw [hbus]; rfl)
        nofun nofun nofun (by simp)⟩
  | busError =>
      obtain ⟨hbus, rfl⟩ := process_cases hs
      exact ⟨h.token.congr rfl rfl rfl rfl, h.bus.move rfl rfl rfl rfl (by rw [hbus]; rfl)
        (fun _ => hturn) nofun nofun (by simp)⟩
  | bus => exact h.stepBus hturn (of_map_pair hs)

/-! ## Over a run -/

/-- The first result is kept, and returned; a success that is returned after an answer has been sent
carries this answer. -/
structure Final (s : Login) : Prop where
  kept : ∀ res, s.stored = some res → s.ud.res = res
  returned : ∀ res, s.bus = .returned res → s.stored = some res
  answer : ∀ resp, s.bus = .returned pamSuccess → s.sent = some resp → s.pamAuthtok = some resp

theorem kept_start (ud : UserData) : Kept (Login.start ud) where
  threads := threads_start ud
  token _ := nofun
  bus := ⟨rfl, nofun, nofun, nofun, nofun, nofun⟩

theorem Kept.final (h : Kept s) : Final s := by
  obtain ⟨-, -, hkept⟩ := h
  constructor
  · intro res hstored
    rw [hkept.stored] at hstored
    split_ifs at hstored
    exact Option.some.inj hstored
  · intro res hreturned
    have hres : s.ud.res ≠ -1 := hkept.left (by rw [hreturned]; rfl)
    rw [hkept.stored, if_neg hres, (hkept.returned res hreturned).2]
  · intro resp hreturned
    exact hkept.published (hkept.returned _ hreturned).2 (by rw [hreturned]; rfl) resp

/-- **The result is final**, and a success carries the answer, in every state of a run in which the
threads take turns. -/
theorem result_final (ud : UserData) (as : List Action)
    (hturn : Along Login.step InTurn (Login.start ud) as) :
    ∀ cs t os, cs <+: as → run Login.step (Login.start ud) cs = some (t, os) → Final t := by
  rintro cs t os ⟨ds, rfl⟩ hr
  have hkept : Kept t := run_invariant (fun _ _ _ _ h hturn hs => h.step hturn hs) (kept_start ud)
    hturn.of_append hr
  exact hkept.final

/-- Every call succeeds, while there is a token thread. -/
def aliveOk : SignalEnv := { allOk with alive := true }

/-- A password is sent and kept, and the session succeeds. -/
def answered : List Action :=
  prompted ++ [.answer false (some "pw".toList), .call true, .token, .bus,
    .signal (⟨-1, .success, ""⟩, allOk), .bus, .bus, .bus, .bus, .bus, .bus, .bus, .bus]

/-- A success in turn. -/
theorem result_final_answered :
    ∃ t os, run Login.step (Login.start anyFactor) answered = some (t, os) ∧
      t.bus = .returned pamSuccess ∧ t.sent = some "pw".toList ∧ Final t := by
  refine ⟨_, _, rfl, rfl, rfl, result_final anyFactor answered ?_ answered _ _
    List.prefix_rfl rfl⟩
  -- the prompt
  refine (along_cons_of_eq rfl).mpr ⟨fun _ => nofun, (along_cons_of_eq rfl).mpr ⟨fun _ => rfl, ?_⟩⟩
  refine (along_cons_of_eq rfl).mpr ⟨fun _ => nofun, ?_⟩
  refine (along_cons_of_eq rfl).mpr ⟨fun _ => nofun, ?_⟩
  -- the answer
  refine (along_cons_of_eq rfl).mpr ⟨trivial, (along_cons_of_eq rfl).mpr ⟨?_, ?_⟩⟩
  · intro _ hsuccess
    cases hsuccess
  refine (along_cons_of_eq rfl).mpr ⟨trivial, (along_cons_of_eq rfl).mpr ⟨fun _ => nofun, ?_⟩⟩
  -- the success
  refine (along_cons_of_eq rfl).mpr ⟨fun _ => rfl, (along_cons_of_eq rfl).mpr ⟨fun _ => nofun, ?_⟩⟩
  refine (along_cons_of_eq rfl).mpr ⟨fun _ => nofun, ?_⟩
  refine (along_cons_of_eq rfl).mpr ⟨fun _ => nofun, ?_⟩
  refine (along_cons_of_eq rfl).mpr ⟨fun _ => nofun, ?_⟩
  refine (along_cons_of_eq rfl).mpr ⟨fun _ => nofun, ?_⟩
  refine (along_cons_of_eq rfl).mpr ⟨fun _ => nofun, ?_⟩
  refine (along_cons_of_eq rfl).mpr ⟨fun _ => nofun, ?_⟩
  exact (along_cons_of_eq rfl).mpr ⟨fun _ => nofun, trivial⟩

/-- The session that the answer names has succeeded, while the handler of another signal runs. -/
def overwritten : List Action :=
  prompted ++ [.answer false (some "/1;pw".toList), .call true, .token, .bus, .reply (some 0), .bus,
    .bus, .token, .token, .token, .token, .bus, .signal (⟨2, .started, ""⟩, aliveOk), .token, .bus]

/-- The session succeeds before the answer has been kept. -/
def overtaken : List Action :=
  prompted ++ [.answer false (some "pw".toList), .call true, .bus,
    .signal (⟨-1, .success, ""⟩, aliveOk), .bus, .bus, .bus, .bus, .bus, .bus, .token, .bus]

/-- **A success is replaced** by the -1 of a handler, and the login goes on; or it comes without the
answer that was sent. -/
theorem result_replaced :
    (∃ t os, run Login.step (Login.start anyFactor) overwritten = some (t, os) ∧
      t.stored = some pamSuccess ∧ t.ud.res = -1 ∧ ¬ Final t) ∧
      ∃ t os, run Login.step (Login.start anyFactor) overtaken = some (t, os) ∧
        t.bus = .returned pamSuccess ∧ t.sent = some "pw".toList ∧ t.pamAuthtok = none ∧
        ¬ Final t := by
  refine ⟨⟨_, _, rfl, rfl, rfl, ?_⟩, ⟨_, _, rfl, rfl, rfl, rfl, ?_⟩⟩
  · intro h
    cases h.kept pamSuccess rfl
  · intro h
    cases h.answer "pw".toList rfl rfl

end LingmoAuthenticate.PamModule
