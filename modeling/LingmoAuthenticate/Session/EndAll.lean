import LingmoAuthenticate.Session.Slots
import LingmoAuthenticate.Session.UKeyVerify

/-!
# The end of a session: what it has acquired

The factors of a session that acquire something are its biometric transactions, which stand among
those of all sessions, and its key. The end of all factors goes over them one after the other; it
passes over those that are idle, and ends the others with `closeAllResource`. Anything may happen
before it, meanwhile and afterwards.

* `EndAllState.move` is one step of any biometric transaction, of the key or of another client of
  its manager, or of the end of the session.
* `Released`: no verification, action or slot of the session is left.
* `GivesBack`: what a factor holds is not forgotten while it is held, and the end of the session
  passes over a factor only that has been ended since it last took anything (`ended`, a history).
* `endAll_releases`: in every run whose steps meet `GivesBack`, a session that has ended and has no
  goroutine left is released.
-/

namespace LingmoAuthenticate.Session

open Lib AuthCommon MultiFactor
open UKey (Manager VerifyError UserInfo)

/-! ## What a biometric transaction holds -/

namespace BioTx

/-- Source: `tx.go`, `baseTx.getDevState`. -/
def devState : BioTx → DevState
  | .fingerprint s => s.devState
  | .camera _ s => s.devState

/-- The action that is registered for the transaction. -/
def action : BioTx → Option ℕ
  | .fingerprint _ => none
  | .camera _ s => s.action

/-- The action that its `end` would release. -/
def actionId : BioTx → Option ℕ
  | .fingerprint _ => none
  | .camera _ s => s.actionId

/-- No call of `authenticate` is under way, and no goroutine of an attempt. -/
def Resting : BioTx → Prop
  | .fingerprint s => s.starts = 0 ∧ ∀ n, (s.phases n).live = false
  | .camera _ s => s.starts = 0 ∧ s.phase = none

/-- The action that is registered is one that an `end` would release. -/
def Known (tx : BioTx) : Prop := tx.action = none ∨ tx.action = tx.actionId

/-- No action is registered, or an `end` is under way that is still to release it. -/
def Freed (tx : BioTx) : Prop := tx.action = none ∨ tx.ending = true

/-- The identifier of a registered action is not overwritten, and once the end of the session has
gone past the transaction, no action is registered outside of an `end`. -/
def GivesBack (tx : BioTx) (closed : Prop) : BioStep → Prop
  | .camera (.genActionId (some _)) => tx.action = none
  | .camera (.genActionId none) => closed → tx.ending = true
  | _ => True

end BioTx

/-- How a step changes the action of a camera, and what its `end` would release. -/
theorem CameraVerify.action_move {c : CameraType} {s s' : CameraVerify c} {a : CameraVerifyStep}
    (hs : s.move a = some s') :
    (s'.action = s.action ∧ s'.actionId = s.actionId ∧
        (s.ending.isSome = true → s'.ending.isSome = true)) ∨
      (a = .endRelease ∧ s'.actionId = s.actionId ∧
        s'.action = if s.action = s.actionId then none else s.action) ∨
      (∃ err, a = .genActionId (some err) ∧ s'.action = s.action ∧ s'.ending = s.ending) ∨
      (a = .genActionId none ∧ s'.action = s'.actionId ∧ s'.ending = s.ending) := by
  have hsignal : ∀ {id : ℕ} {code : ℤ} {t : CameraVerify c}, s.signal id code = some t →
      t.action = s.action ∧ t.actionId = s.actionId ∧ t.ending = s.ending := by
    intro id code t hsig
    unfold CameraVerify.signal at hsig
    split_ifs at hsig <;> cases hsig <;> exact ⟨rfl, rfl, rfl⟩
  cases next_of_move hs with
  | genErr hphase => exact .inr (.inr (.inl ⟨_, rfl, rfl, rfl⟩))
  | gen hphase hfree => exact .inr (.inr (.inr ⟨rfl, rfl, rfl⟩))
  | endRelease hmux => exact .inr (.inl ⟨rfl, rfl, rfl⟩)
  | @read restart id code rest hphase hrec =>
      rcases code_cases hrec restart { s with codes := rest } with
        ⟨v, -, heq⟩ | ⟨-, heq | ⟨msg, heq⟩⟩ <;> rw [heq] <;> exact .inl ⟨rfl, rfl, fun h => h⟩
  | endVerifying | endIdle | endWait | endReceive | endGive | endMark =>
      exact .inl ⟨rfl, rfl, fun _ => rfl⟩
  | verified haction hsig =>
      obtain ⟨hact, hid, hending⟩ := hsignal hsig
      exact .inl ⟨hact, hid, fun h => hending ▸ h⟩
  | verifyStatus hother hsig =>
      obtain ⟨hact, hid, hending⟩ := hsignal hsig
      exact .inl ⟨hact, hid, fun h => hending ▸ h⟩
  | enrollStatus hsig | disconnected hsig | charaTypeGone hsig =>
      obtain ⟨hact, hid, hending⟩ := hsignal hsig
      exact .inl ⟨hact, hid, fun h => hending ▸ h⟩
  | _ => exact .inl ⟨rfl, rfl, id⟩

namespace BioTx

variable {tx tx' : BioTx} {b : BioStep} {closed : Prop}

/-- What `ReleasseActionId` leaves of an action that is known. -/
theorem released_of_known {action actionId : Option ℕ} (h : action = none ∨ action = actionId) :
    (if action = actionId then none else action) = none := by
  split_ifs with hsame
  · rfl
  · exact h.resolve_right hsame

/-- **One step** forgets no action. -/
theorem known_move (h : tx.Known) (hb : tx.GivesBack closed b) (hs : tx.move b = some tx') :
    tx'.Known := by
  cases tx with
  | fingerprint s =>
      cases b with
      | fingerprint a =>
          obtain ⟨s', -, rfl⟩ := Option.map_eq_some_iff.mp hs
          exact .inl rfl
      | camera a => cases hs
  | camera c s =>
      cases b with
      | fingerprint a => cases hs
      | camera a =>
          obtain ⟨s', hs', rfl⟩ := Option.map_eq_some_iff.mp hs
          rcases CameraVerify.action_move hs' with ⟨hact, hid, -⟩ | ⟨-, -, hact⟩ |
            ⟨err, rfl, hact, -⟩ | ⟨-, hact, -⟩
          · -- neither the registered action nor the identifier changes
            show s'.action = none ∨ s'.action = s'.actionId
            rwa [hact, hid]
          · exact .inl (hact.trans (released_of_known h))
          · exact .inl (hact.trans hb)
          · exact .inr hact

/-- **One step** leaves no action behind that no `end` is to release. -/
theorem freed_move (hknown : tx.Known) (h : tx.Freed) (hb : tx.GivesBack True b)
    (hs : tx.move b = some tx') : tx'.Freed := by
  cases tx with
  | fingerprint s =>
      cases b with
      | fingerprint a =>
          obtain ⟨s', -, rfl⟩ := Option.map_eq_some_iff.mp hs
          exact .inl rfl
      | camera a => cases hs
  | camera c s =>
      cases b with
      | fingerprint a => cases hs
      | camera a =>
          obtain ⟨s', hs', rfl⟩ := Option.map_eq_some_iff.mp hs
          rcases CameraVerify.action_move hs' with ⟨hact, -, hending⟩ | ⟨-, -, hact⟩ |
            ⟨err, rfl, hact, -⟩ | ⟨rfl, -, hending⟩
          · exact h.imp hact.trans hending
          · exact .inl (hact.trans (released_of_known hknown))
          · exact .inl (hact.trans hb)
          · refine .inr ?_
            show s'.ending.isSome = true
            rw [hending]
            exact hb trivial

/-- A call of `end` that goes on is to release the action. -/
theorem freed_endTx (hs : tx.endTx = some tx') (hended : tx.isEnded = false) : tx'.Freed := by
  cases tx with
  | fingerprint s =>
      obtain ⟨s', -, rfl⟩ := Option.map_eq_some_iff.mp hs
      exact .inl rfl
  | camera c s =>
      obtain ⟨s', hs', rfl⟩ := Option.map_eq_some_iff.mp hs
      cases CameraVerify.next_of_endTx hs' with
      | wasEnded hmux hmark => cases hended.symm.trans hmark
      | endVerifying | endIdle => exact .inr rfl

end BioTx

/-! ## The slot of a transaction -/

namespace SlotState

/-- What the transaction holds is given back, or an `end` of it is under way: its action, and the
slot of its kind. -/
def Freed (w : SlotState) (i : ℕ) : Prop :=
  ∀ tx, w.txs i = some tx → tx.Freed ∧ (w.slots tx.kind = some i → w.ends i ≠ none)

/-- What keeps a transaction from holding on to its action or its slot; `closed` says that the end
of the session has gone past it. From then on no start writes the slot outside of an `end`, and an
`end` that returns clears the slot. -/
def GivesBack (w : SlotState) (i : ℕ) (closed : Prop) : SlotAction → Prop
  | .tx j b => j = i → ∀ tx, w.txs i = some tx → tx.GivesBack closed b
  | .writeSlot k => closed → w.locks k = some (.start i .ended) → w.ends i ≠ none
  | .endReturn j => closed → j = i → ∀ tx e, w.txs i = some tx → w.ends i = some e →
      w.slots tx.kind = some i → tx.endSlot e.ct = some tx.kind
  | _ => True

/-- The slot that the `end` under way is to clear is that of the kind of the transaction: not so for
an iris, and for a fingerprint only with `closeAllResource`. -/
def ClearsOwn (w : SlotState) (i : ℕ) : Bool :=
  (w.txs i).any fun tx => (w.ends i).any fun e => tx.endSlot e.ct = some tx.kind

/-- A history of the transaction, from before a step to after it: whether an `end` of it was called
that goes on, since its last start wrote the slot and since it last registered an action outside of
an `end`, and none has returned that clears another slot, or none. -/
def endedSince (w w' : SlotState) (i : ℕ) (ended : Bool) : SlotAction → Bool
  | .writeSlot k => if w.locks k = some (.start i .ended) then false else ended
  | .tx j (.camera (.genActionId none)) =>
      if j = i then ended && (w.txs i).any BioTx.ending else ended
  | .endReturn j => if j = i then ended && w.ClearsOwn i else ended
  | .endLast _ | .endTx _ _ => ended || ((w.ends i).isNone && (w'.ends i).isSome)
  | _ => ended

/-- The transaction holds nothing that its `end` does not know of, and nothing at all that is not in
the hands of an `end` once the end of the session has gone past it, or it has been ended. -/
structure Bound (w : SlotState) (i : ℕ) (past : Prop) : Prop where
  known : ∀ tx, w.txs i = some tx → tx.Known
  freed : past → w.Freed i

/-- A slot points only to a transaction that there is. -/
def Pointed (w : SlotState) : Prop := ∀ k i, w.slots k = some i → w.txs i ≠ none

variable {w w' : SlotState} {a : SlotAction} {o : Option EndReturn} {i : ℕ} {k : Biometric}

/-- A call of `end` leaves the slots alone. -/
theorem callEnd_frame {j : ℕ} {e : EndCall} (hs : w.callEnd j e = some w') :
    w'.slots = w.slots ∧ (w'.ends i = none → w.ends i = none) := by
  obtain ⟨tx, hj, hs⟩ := Option.bind_eq_some_iff.mp hs
  obtain ⟨hfree, hs⟩ := Option.ite_none_right_eq_some.mp hs
  obtain ⟨tx', -, rfl⟩ := Option.map_eq_some_iff.mp hs
  split_ifs
  · exact ⟨rfl, id⟩
  · refine ⟨rfl, ?_⟩
    intro hend
    by_cases hij : i = j
    · rwa [hij]
    · have hother : Function.update w.ends j (some e) i = none := hend
      rwa [Function.update_of_ne hij] at hother

/-- The slot that is written is emptied, or points to the start that has the lock. -/
theorem writeSlot_frame (hs : w.WriteSlot k w') :
    w'.ends = w.ends ∧ ∃ x, w'.slots = Function.update w.slots k x ∧
      ∀ i, x = some i → w.locks k = some (.start i .ended) := by
  cases hs with
  | cancel hlock => exact ⟨rfl, none, rfl, by rintro i ⟨⟩⟩
  | @fingerprint j hlock =>
      refine ⟨rfl, some j, rfl, ?_⟩
      rintro i ⟨⟩
      exact hlock
  | @camera c j tx tx' hlock hj hmove =>
      refine ⟨rfl, some j, rfl, ?_⟩
      rintro i ⟨⟩
      exact hlock

/-- **Who is in a slot** was there before, or is the start that writes the slot. -/
theorem slots_move (hs : w.move a = some (w', o)) (hslot : w'.slots k = some i) :
    w.slots k = some i ∨ (a = .writeSlot k ∧ w.locks k = some (.start i .ended)) := by
  cases next_of_move hs with
  | create | tx | lockStart | lockCancel | look | claim | finish => exact .inl hslot
  | endLast hlock hstage hcall => exact .inl ((callEnd_frame (i := i) hcall).1 ▸ hslot)
  | endTx hcall => exact .inl ((callEnd_frame (i := i) hcall).1 ▸ hslot)
  | @writeSlot k' _ hwrite =>
      obtain ⟨-, x, hslots, hstart⟩ := writeSlot_frame hwrite
      rw [hslots] at hslot
      by_cases hk : k = k'
      · subst hk
        rw [Function.update_self] at hslot
        exact .inr ⟨rfl, hstart i hslot⟩
      · rw [Function.update_of_ne hk] at hslot
        exact .inl hslot
  | @endReturn j tx e slots locks hj he hslots hlocks =>
      left
      dsimp only at hslot
      rw [hslots] at hslot
      rcases hclear : tx.endSlot e.ct with _ | k' <;> rw [hclear] at hslot
      · exact hslot
      · have hother : Function.update w.slots k' none k = some i := hslot
        by_cases hk : k = k'
        · subst hk
          rw [Function.update_self] at hother
          cases hother
        · rwa [Function.update_of_ne hk] at hother

/-- **Of which transaction no `end` is under way**: there was none before, or it has just returned,
and cleared its slot. -/
theorem ends_move (hs : w.move a = some (w', o)) (hend : w'.ends i = none) :
    w.ends i = none ∨ (a = .endReturn i ∧ ∃ tx e, w.txs i = some tx ∧ w.ends i = some e ∧
      ∀ k, tx.endSlot e.ct = some k → w'.slots k = none) := by
  cases next_of_move hs with
  | create | tx | lockStart | lockCancel | look | claim | finish => exact .inl hend
  | endLast hlock hstage hcall => exact .inl ((callEnd_frame hcall).2 hend)
  | endTx hcall => exact .inl ((callEnd_frame hcall).2 hend)
  | writeSlot hwrite =>
      rw [(writeSlot_frame hwrite).1] at hend
      exact .inl hend
  | @endReturn j tx e slots locks hj he hslots hlocks =>
      by_cases hij : i = j
      · subst hij
        refine .inr ⟨rfl, tx, e, hj, he, ?_⟩
        intro k hk
        rw [hk] at hslots
        show slots k = none
        rw [hslots]
        exact Function.update_self ..
      · have hother : Function.update w.ends j none i = none := hend
        rw [Function.update_of_ne hij] at hother
        exact .inl hother

/-- A transaction that there is stays there. -/
theorem txs_move (hs : w.move a = some (w', o)) (hi : w.txs i ≠ none) : w'.txs i ≠ none := by
  have hmoves := txMoves_step hs i
  generalize w.txs i = old at hmoves hi
  generalize w'.txs i = new at hmoves
  cases hmoves with
  | same => exact hi
  | move hb hmove => rintro ⟨⟩
  | new k lockState => exact absurd rfl hi

/-- A slot points only to a transaction that there is. -/
theorem pointed_move (hs : w.move a = some (w', o)) (hlocks : w.LockInv) (h : w.Pointed) :
    w'.Pointed := by
  intro k i hslot
  apply txs_move hs
  rcases slots_move hs hslot with hslot | ⟨-, hlock⟩
  · exact h k i hslot
  · intro hi
    have hstart := hlocks.starters k i _ hlock
    rw [hi] at hstart
    cases hstart

/-- A step that a transaction takes within the step of the whole. -/
theorem givesBack_move {closed : Prop} {tx : BioTx} {b : BioStep} (ha : w.GivesBack i closed a)
    (hi : w.txs i = some tx) (hb : a = .tx i b ∨ isOwn b = false) : tx.GivesBack closed b := by
  rcases hb with rfl | hown
  · exact ha rfl tx hi
  · cases b with
    | fingerprint b => trivial
    | camera b =>
        cases b with
        | genActionId err => cases hown
        | _ => trivial

/-- A call of `end` that goes on has in its hands what the transaction holds. -/
theorem freed_callEnd {j : ℕ} {e : EndCall} (hs : w.callEnd j e = some w')
    (hnone : w.ends i = none) (hend : w'.ends i ≠ none) : w'.Freed i := by
  obtain ⟨tx, hj, hs⟩ := Option.bind_eq_some_iff.mp hs
  obtain ⟨-, hs⟩ := Option.ite_none_right_eq_some.mp hs
  obtain ⟨tx', htx, rfl⟩ := Option.map_eq_some_iff.mp hs
  split_ifs at hend ⊢ with hmark
  · exact absurd hnone hend
  · have hij : i = j := by
      by_contra hij
      refine hend ?_
      show Function.update w.ends j _ i = none
      rwa [Function.update_of_ne hij]
    subst hij
    intro txi hi
    have hself : Function.update w.txs i (some tx') i = some txi := hi
    rw [Function.update_self, Option.some.injEq] at hself
    subst hself
    exact ⟨BioTx.freed_endTx htx (by simpa using hmark), fun _ => hend⟩

/-- A step that begins an `end`. -/
theorem freed_begun (hs : w.move a = some (w', o)) (hnone : w.ends i = none)
    (hend : w'.ends i ≠ none) : w'.Freed i := by
  cases next_of_move hs with
  | create | tx | lockStart | lockCancel | look | claim | finish => exact absurd hnone hend
  | @endLast _ _ _ _ _ w₁ hlock hstage hcall =>
      have hfreed : w₁.Freed i := freed_callEnd hcall hnone hend
      exact hfreed
  | endTx hcall => exact freed_callEnd hcall hnone hend
  | writeSlot hwrite =>
      rw [(writeSlot_frame hwrite).1] at hend
      exact absurd hnone hend
  | @endReturn j tx e slots locks hj he hslots hlocks =>
      refine absurd ?_ hend
      show Function.update w.ends j none i = none
      by_cases hij : i = j
      · rw [hij, Function.update_self]
      · rwa [Function.update_of_ne hij]

/-- A step of the transactions that gives back, from where everything is given back. -/
theorem freed_move (hs : w.move a = some (w', o)) (hlocks : w.LockInv) (hpointed : w.Pointed)
    (hknown : ∀ tx, w.txs i = some tx → tx.Known) (h : w.Freed i) (ha : w.GivesBack i True a) :
    w'.Freed i := by
  -- a slot that still points to the transaction pointed to it before, with no `end` under way
  have hheld : ∀ k, w'.slots k = some i → w'.ends i = none →
      ∃ tx, w.txs i = some tx ∧ (tx.kind = k → False) := by
    intro k hslot hend
    obtain ⟨tx, hi⟩ : ∃ tx, w.txs i = some tx := by
      refine Option.ne_none_iff_exists'.mp ?_
      rcases slots_move hs hslot with hslot | ⟨-, hlock⟩
      · exact hpointed k i hslot
      · intro hi
        have hstart := hlocks.starters k i _ hlock
        rw [hi] at hstart
        cases hstart
    refine ⟨tx, hi, ?_⟩
    rintro rfl
    rcases ends_move hs hend with hnone | ⟨rfl, tx', e, hi', he, hclear⟩
    · rcases slots_move hs hslot with hslot | ⟨rfl, hlock⟩
      · exact (h tx hi).2 hslot hnone
      · exact ha trivial hlock hnone
    · rw [hi] at hi'
      cases hi'
      rcases slots_move hs hslot with hold | ⟨⟨⟩, -⟩
      have hown := ha trivial rfl tx e hi he hold
      rw [hclear tx.kind hown] at hslot
      cases hslot
  intro tx' hi'
  have hmoves := txMoves_step hs i
  rw [hi'] at hmoves
  generalize hi : w.txs i = old at hmoves
  cases hmoves with
  | same =>
      refine ⟨(h tx' hi).1, fun hslot hend => ?_⟩
      obtain ⟨tx, htx, hno⟩ := hheld _ hslot hend
      rw [hi] at htx
      cases htx
      exact hno rfl
  | @move tx _ b hb hmove =>
      refine ⟨BioTx.freed_move (hknown tx hi) (h tx hi).1 (givesBack_move ha hi hb) hmove, ?_⟩
      intro hslot hend
      obtain ⟨tx₀, htx, hno⟩ := hheld _ hslot hend
      rw [hi] at htx
      cases htx
      exact hno (BioTx.kind_move hmove).symm
  | new k lockState =>
      refine ⟨?_, fun hslot hend => ?_⟩
      · cases k <;> exact .inl rfl
      · obtain ⟨tx, htx, -⟩ := hheld _ hslot hend
        rw [hi] at htx
        cases htx

/-- A transaction that has been ended since it last took anything: it was before, and gives back, or
an `end` of it begins. -/
theorem givesBack_of_endedSince {closed : Prop} {ended : Bool} (ha : w.GivesBack i closed a)
    (h : w.endedSince w' i ended a = true) :
    (ended = true ∧ w.GivesBack i True a) ∨ (w.ends i = none ∧ w'.ends i ≠ none) := by
  have hbegun : (ended || ((w.ends i).isNone && (w'.ends i).isSome)) = true →
      ended = true ∨ (w.ends i = none ∧ w'.ends i ≠ none) := by
    simp [Option.isSome_iff_ne_none]
  cases a with
  | create | lockStart | lockCancel | claim | finish => exact .inl ⟨h, trivial⟩
  | endLast k => exact (hbegun h).imp_left fun h => ⟨h, trivial⟩
  | endTx j ct => exact (hbegun h).imp_left fun h => ⟨h, trivial⟩
  | writeSlot k =>
      simp only [endedSince] at h
      split_ifs at h with hlock
      exact .inl ⟨h, fun _ hlock' => absurd hlock' hlock⟩
  | endReturn j =>
      simp only [endedSince] at h
      split_ifs at h with hij
      · obtain ⟨hended, hclears⟩ := Bool.and_eq_true_iff.mp h
        refine .inl ⟨hended, ?_⟩
        intro _ _ tx e hi he _
        simpa [ClearsOwn, hi, he] using hclears
      · exact .inl ⟨h, fun _ hij' => absurd hij' hij⟩
  | tx j b =>
      left
      cases b with
      | fingerprint b => exact ⟨h, fun _ _ _ => trivial⟩
      | camera b =>
          cases b with
          | genActionId err =>
              cases err with
              | some err => exact ⟨h, fun hij tx hi => ha hij tx hi⟩
              | none =>
                  simp only [endedSince] at h
                  split_ifs at h with hij
                  · obtain ⟨hended, hending⟩ := Bool.and_eq_true_iff.mp h
                    refine ⟨hended, ?_⟩
                    intro _ tx hi _
                    simpa [hi] using hending
                  · exact ⟨h, fun hij' => absurd hij' hij⟩
          | _ => exact ⟨h, fun _ _ _ => trivial⟩

/-- After a call of `end` what the transaction holds is in the hands of that `end`, unless the
transaction was marked. -/
theorem freed_endTx {ct : CloseType} (hs : w.move (.endTx i ct) = some (w', o))
    (hended : ∀ tx, w.txs i = some tx → tx.isEnded = true → w.Freed i) : w'.Freed i := by
  cases next_of_move hs with
  | endTx hcall =>
      obtain ⟨tx, hi, hcall'⟩ := Option.bind_eq_some_iff.mp hcall
      obtain ⟨hnone, hcall'⟩ := Option.ite_none_right_eq_some.mp hcall'
      obtain ⟨tx', htx, rfl⟩ := Option.map_eq_some_iff.mp hcall'
      split_ifs with hmark
      · exact hended tx hi hmark
      · refine freed_callEnd (e := ⟨ct, false⟩) (w := w) (j := i) ?_ hnone ?_
        · simpa [hmark] using hcall
        · show Function.update w.ends i _ i ≠ none
          rw [Function.update_self]
          rintro ⟨⟩

/-- Where the end of the session has not gone past it, less is to be shown. -/
theorem Bound.imp {past past' : Prop} (h : w.Bound i past) (hc : past' → past) :
    w.Bound i past' :=
  ⟨h.known, fun hpast => h.freed (hc hpast)⟩

/-- **One step** lets a transaction hold on to nothing. -/
theorem bound_move {closed : Prop} {ended : Bool} (hs : w.move a = some (w', o))
    (hlocks : w.LockInv) (hpointed : w.Pointed) (h : w.Bound i (closed ∨ ended = true))
    (ha : w.GivesBack i closed a) :
    w'.Bound i (closed ∨ w.endedSince w' i ended a = true) := by
  constructor
  · intro tx' hi'
    have hmoves := txMoves_step hs i
    rw [hi'] at hmoves
    generalize hi : w.txs i = old at hmoves
    cases hmoves with
    | same => exact h.known tx' hi
    | move hb hmove => exact BioTx.known_move (h.known _ hi) (givesBack_move ha hi hb) hmove
    | new k lockState => cases k <;> exact .inl rfl
  · rintro (hclosed | hended)
    · have hgives : w.GivesBack i True a := by rwa [eq_true hclosed] at ha
      exact freed_move hs hlocks hpointed h.known (h.freed (.inl hclosed)) hgives
    · rcases givesBack_of_endedSince ha hended with ⟨hold, hgives⟩ | ⟨hnone, hend⟩
      · exact freed_move hs hlocks hpointed h.known (h.freed (.inr hold)) hgives
      · exact freed_begun hs hnone hend

end SlotState

/-! ## The verification of the key -/

namespace UKeyVerify

/-- The verification of the transaction is one of `ids`, and is there. -/
def Held (w : UKeyVerify) (ids : List String) : Prop := w.tx.verificationId ∈ ids ∧ w.Registered

/-- A goroutine is to call `StopVerify`, and has not read the id yet. -/
def StopUnread (w : UKeyVerify) : Prop :=
  0 < w.stopping ∨ ∃ g ∈ w.goroutines, ∃ err, g.stage = .stopVerify err

/-- A `StopVerify` of the transaction's verification is still to come: its id is not read yet, or
the call is on the way. -/
def StopPending (w : UKeyVerify) : Prop :=
  w.StopUnread ∨ w.tx.verificationId ∈ w.stops ∨
    ∃ g ∈ w.goroutines, ∃ err, g.stage = .stopping err w.tx.verificationId

/-- The ids that the transaction has constructed. One that the counter of the manager comes to again
is that of the client to which it is given. -/
def constructedIds (w : UKeyVerify) (ids : List String) : UKeyVerifyAction → List String
  | .construct username conf device user =>
      match (w.construction username conf device user).2 with
      | .ok id => id :: ids
      | .error _ => ids
  | .otherConstruct serviceName username useDefaultService device user =>
      match (w.manager.constructVerification serviceName username useDefaultService device
          user).2 with
      | .ok id => ids.filter (· ≠ id)
      | .error _ => ids
  | _ => ids

/-- A history of the transaction, after a step with the error `o` of a `StartVerify`: whether, since
it last constructed a verification or assigned an id, its `end` was called with `closeAllResource`,
or a `StartVerify` has failed, or a `StopVerify` for its id has reached the manager, be it another
client's. -/
def endedSince (w : UKeyVerify) (o : Option VerifyError) (ended : Bool) : UKeyVerifyAction → Bool
  | .construct username conf device user =>
      match (w.construction username conf device user).2 with
      | .ok _ => false
      | .error _ => ended
  | .assign _ => false
  | .goroutine g _ =>
      match g.stage with
      | .stopping _ id => id = w.tx.verificationId || ended
      | _ => o.isSome || ended
  | .endTx ct => ct = .closeAllResource || ended
  | .stopVerify id _ | .otherStop id _ => id = w.tx.verificationId || ended
  | _ => ended

/-- No id is overwritten while its verification is there, and once the end of the session has gone
past the key, a verification is constructed, and its id assigned, only where a `StopVerify` is still
to read the id. -/
def GivesBack (w : UKeyVerify) (ids : List String) (closed : Prop) : UKeyVerifyAction → Prop
  | .construct username conf device user => 0 < w.constructing → ∀ manager id,
      w.construction username conf device user = (manager, .ok id) → closed → w.StopUnread
  | .assign id => id ∈ w.constructed →
      (w.Held ids → id = w.tx.verificationId) ∧ (closed → w.StopUnread)
  | _ => True

/-- Of the verifications that were constructed, those are there at most that the transaction knows
of, or is about to; the one whose id it knows is to be stopped once the end of the session has gone
past the key, or it has been ended. -/
structure Bound (w : UKeyVerify) (ids : List String) (past : Prop) : Prop where
  known : ∀ id ∈ ids, id ∈ w.manager.verificationInfoMap →
    id = w.tx.verificationId ∨ id ∈ w.constructed
  stopped : past → w.Held ids → w.StopPending

variable {w w' : UKeyVerify} {ids : List String} {past past' closed : Prop} {ended : Bool}

/-- Where the end of the session has not gone past it, less is to be shown. -/
theorem Bound.imp (h : w.Bound ids past) (hpast : past' → past) : w.Bound ids past' :=
  ⟨h.known, fun hp => h.stopped (hpast hp)⟩

/-- What a step keeps that constructs and assigns nothing. -/
theorem Bound.known_of_keeps (h : w.Bound ids past)
    (hid : w'.tx.verificationId = w.tx.verificationId) (hcon : w'.constructed = w.constructed)
    (hmem : ∀ id, id ∈ w'.manager.verificationInfoMap → id ∈ w.manager.verificationInfoMap) :
    ∀ id ∈ ids, id ∈ w'.manager.verificationInfoMap →
      id = w'.tx.verificationId ∨ id ∈ w'.constructed := by
  intro id hids hin
  rw [hid, hcon]
  exact h.known id hids (hmem id hin)

/-- A step that keeps the id, constructs nothing, and stops nothing but what it deletes. -/
theorem Bound.of_keeps (h : w.Bound ids past)
    (hid : w'.tx.verificationId = w.tx.verificationId) (hcon : w'.constructed = w.constructed)
    (hmem : ∀ id, id ∈ w'.manager.verificationInfoMap → id ∈ w.manager.verificationInfoMap)
    (hstop : w'.Registered → w.StopPending → w'.StopPending) : w'.Bound ids past := by
  refine ⟨h.known_of_keeps hid hcon hmem, ?_⟩
  rintro hpast ⟨hids, hreg⟩
  rw [hid] at hids
  have hold : w.Registered := by
    have hin := hmem _ hreg
    rwa [hid] at hin
  exact hstop hreg (h.stopped hpast ⟨hids, hold⟩)

/-- A step after which a `StopVerify` is still to come. -/
theorem Bound.of_pending (h : w.Bound ids past)
    (hid : w'.tx.verificationId = w.tx.verificationId) (hcon : w'.constructed = w.constructed)
    (hmanager : w'.manager = w.manager) (hp : w'.StopPending) : w'.Bound ids past' :=
  ⟨h.known_of_keeps hid hcon fun _ hmem => hmanager ▸ hmem, fun _ _ => hp⟩

/-- A step of the transaction that constructs nothing, beside the goroutines that are there or are
not about to stop anything. -/
theorem Bound.txStep (h : w.Bound ids past) {a : UKeyAction} {w₁ : UKeyVerify}
    (hs : w₁.txStep a = some w') (ha : ∀ constructed, a ≠ .authenticate constructed)
    (htx : w₁.tx = w.tx) (hmanager : w₁.manager = w.manager)
    (hcon : w₁.constructed = w.constructed)
    (hstop : w.StopPending → w₁.StopPending) : w'.Bound ids past := by
  obtain ⟨tx, htxs, rfl⟩ := Option.map_eq_some_iff.mp hs
  have hid : tx.verificationId = w₁.tx.verificationId := (UKeyTx.step_keeps htxs ha).1
  refine h.of_keeps (hid.trans (by rw [htx])) hcon (fun id hmem => hmanager ▸ hmem) ?_
  intro _ hpending
  -- the calls are still those of the same id
  refine (hstop hpending).imp_right (Or.imp ?_ ?_)
  · exact fun hmem => hid ▸ hmem
  · rintro ⟨g, hg, err, hstage⟩
    exact ⟨g, hg, err, hid ▸ hstage⟩

/-- A goroutine that is not about to stop anything takes its next call. -/
theorem StopPending.erase (h : w.StopPending) {g : UKeyStart}
    (hg : ∀ err, g.stage ≠ .stopVerify err)
    (hg' : ∀ err, g.stage ≠ .stopping err w.tx.verificationId) {gs : List UKeyStart}
    (hgs : ∀ g' ∈ w.goroutines.erase g, g' ∈ gs) :
    StopPending { w with goroutines := gs } := by
  have hin : ∀ g' ∈ w.goroutines, g' ≠ g → g' ∈ gs := fun g' hmem hne =>
    hgs g' ((List.mem_erase_of_ne hne).mpr hmem)
  rcases h with (hpos | ⟨g', hmem, err, hstage⟩) | hcall | ⟨g', hmem, err, hstage⟩
  · exact .inl (.inl hpos)
  · refine .inl (.inr ⟨g', hin g' hmem ?_, err, hstage⟩)
    rintro rfl
    exact hg err hstage
  · exact .inr (.inl hcall)
  · refine .inr (.inr ⟨g', hin g' hmem ?_, err, hstage⟩)
    rintro rfl
    exact hg' err hstage

/-- **A verification is stopped**: that of the transaction, or another one. -/
theorem Bound.stop (h : w.Bound ids (closed ∨ ended = true)) {id : String}
    (hid : w'.tx.verificationId = w.tx.verificationId) (hcon : w'.constructed = w.constructed)
    (hmanager : w'.manager = w.manager.deleteVerificationInfo id)
    (hstop : id ≠ w.tx.verificationId → w.StopPending → w'.StopPending) :
    w'.Bound ids (closed ∨ (id = w.tx.verificationId || ended) = true) := by
  have hmem : ∀ id', id' ∈ w'.manager.verificationInfoMap →
      id' ≠ id ∧ id' ∈ w.manager.verificationInfoMap := by
    intro id' hin
    rw [hmanager, Manager.mem_deleteVerificationInfo] at hin
    exact ⟨fun heq => hin.1 heq, hin.2⟩
  by_cases hself : id = w.tx.verificationId
  · refine ⟨h.known_of_keeps hid hcon fun id' hin => (hmem id' hin).2, ?_⟩
    rintro - ⟨-, hreg⟩
    exact absurd (hid.trans hself.symm) (hmem _ hreg).1
  · refine Bound.imp (h.of_keeps hid hcon (fun id' hin => (hmem id' hin).2) fun _ => hstop hself) ?_
    simp [hself]

/-- **A verification is constructed.** -/
theorem bound_constructed (h : w.Bound ids (closed ∨ ended = true)) {username id : String}
    {conf : Except String AuthTypeConfig} {device : Option String}
    {user : Except String UserInfo} {manager : Manager}
    (hc : w.construction username conf device user = (manager, .ok id))
    (ha : closed → w.StopUnread) :
    Bound { w with
      manager, constructing := w.constructing - 1, constructed := id :: w.constructed }
      (id :: ids) (closed ∨ false = true) := by
  constructor
  · intro id' hids hin
    have hin' : id' = id ∨ id' ∈ w.manager.verificationInfoMap := (construction_ok hc).mp hin
    by_cases hnew : id' = id
    · exact .inr (hnew ▸ List.mem_cons_self)
    · have hold := h.known id' (List.mem_of_ne_of_mem hnew hids) (hin'.resolve_left hnew)
      exact hold.imp_right (List.mem_cons_of_mem _)
  · intro hpast _
    exact .inl (ha (hpast.resolve_right (by decide)))

/-- **An id is assigned.** -/
theorem bound_assign (h : w.Bound ids (closed ∨ ended = true)) {id : String}
    (ha : (w.Held ids → id = w.tx.verificationId) ∧ (closed → w.StopUnread)) :
    Bound { w with
      tx := w.tx.assign id, constructed := w.constructed.erase id, ready := w.ready + 1 }
      ids (closed ∨ false = true) := by
  constructor
  · intro id' hids hin
    rw [UKeyTx.assign_verificationId]
    by_cases hself : id' = id
    · exact .inl hself
    · rcases h.known id' hids hin with rfl | hmem
      · -- the verification of before is there, so it is the one that is assigned
        exact absurd (ha.1 ⟨hids, hin⟩).symm hself
      · exact .inr ((List.mem_erase_of_ne hself).mpr hmem)
  · intro hpast _
    exact .inl (ha.2 (hpast.resolve_right (by decide)))

/-- **Another client constructs a verification**: an id that is given out anew is no longer one of
the session. -/
theorem bound_otherConstruct (h : w.Bound ids past) {serviceName username : String}
    {useDefaultService : Bool} {device : Option String} {user : Except String UserInfo} :
    Bound { w with manager := (w.manager.constructVerification serviceName username
      useDefaultService device user).1 }
      (w.constructedIds ids (.otherConstruct serviceName username useDefaultService device user))
      past := by
  rcases hc : w.manager.constructVerification serviceName username useDefaultService device
    user with ⟨manager, err | id⟩
  · simp only [constructedIds, hc]
    obtain rfl := Manager.constructVerification_error hc
    exact h
  · simp only [constructedIds, hc]
    have hold : ∀ id' ∈ ids.filter (· ≠ id), id' ∈ manager.verificationInfoMap →
        id' ∈ ids ∧ id' ∈ w.manager.verificationInfoMap := by
      intro id' hids hin
      obtain ⟨hids, hne⟩ := List.mem_filter.mp hids
      rw [Manager.mem_constructVerification_ok hc] at hin
      exact ⟨hids, hin.resolve_left (by simpa using hne)⟩
    constructor
    · intro id' hids hin
      obtain ⟨hids, hin⟩ := hold id' hids hin
      exact h.known id' hids hin
    · rintro hpast ⟨hids, hreg⟩
      exact h.stopped hpast (hold _ hids hreg)

/-- **The goroutine of an attempt** takes its next step. -/
theorem bound_goroutine {g : UKeyStart} {device : Option String} {o : Option VerifyError}
    (hs : w.Next (.goroutine g device) w' o) (h : w.Bound ids (closed ∨ ended = true)) :
    w'.Bound ids (closed ∨ w.endedSince o ended (.goroutine g device) = true) := by
  cases hs with
  | readStart hg hstage =>
      simp only [endedSince, hstage, Option.isSome_none, Bool.false_or]
      exact h.of_keeps rfl rfl (fun _ => id) fun _ hp =>
        hp.erase (by simp [hstage]) (by simp [hstage]) fun _ => List.mem_cons_of_mem _
  | started hg hstage hcall hstep =>
      simp only [endedSince, hstage, Option.isSome_none, Bool.false_or]
      exact h.txStep hstep (by rintro c ⟨⟩) rfl rfl rfl fun hp =>
        hp.erase (by simp [hstage]) (by simp [hstage]) fun _ => id
  | @failed _ _ id err hg hstage hcall =>
      exact h.of_pending rfl rfl rfl
        (.inl (.inr ⟨⟨g.attempt, .stopVerify err⟩, List.mem_cons_self, err, rfl⟩))
  | @readStopped _ _ err hg hstage =>
      exact h.of_pending rfl rfl rfl
        (.inr (.inr ⟨⟨g.attempt, .stopping err _⟩, List.mem_cons_self, err, rfl⟩))
  | @stopped _ _ err id hg hstage =>
      simp only [endedSince, hstage]
      refine h.stop rfl rfl rfl fun hne hp => ?_
      refine hp.erase (w := { w with manager := w.manager.deleteVerificationInfo id })
        (by simp [hstage]) ?_ fun _ => List.mem_cons_of_mem _
      intro err' heq
      exact hne (StartStage.stopping.inj (hstage.symm.trans heq)).2
  | gave hg hstage hstep =>
      simp only [endedSince, hstage, Option.isSome_none, Bool.false_or]
      exact h.txStep hstep (by rintro c ⟨⟩) rfl rfl rfl fun hp =>
        hp.erase (by simp [hstage]) (by simp [hstage]) fun _ => id

/-- **One step** leaves no verification behind that the transaction does not know of, or does not
stop. -/
theorem bound_move {a : UKeyVerifyAction} {o : Option VerifyError}
    (hs : w.move a = some (w', o)) (h : w.Bound ids (closed ∨ ended = true))
    (ha : w.GivesBack ids closed a) :
    w'.Bound (w.constructedIds ids a) (closed ∨ w.endedSince o ended a = true) := by
  cases a with
  | goroutine g device => exact bound_goroutine (next_of_move hs) h
  | construct username conf device user =>
      cases next_of_move hs with
      | constructed hpos hc =>
          simp only [constructedIds, endedSince, hc]
          exact bound_constructed h hc (ha hpos _ _ hc)
      | refused hpos hc =>
          simp only [constructedIds, endedSince, hc]
          obtain rfl := construction_error hc
          exact h.of_keeps rfl rfl (fun _ => id) fun _ => id
  | assign id =>
      cases next_of_move hs with
      | assign hid => exact bound_assign h (ha hid)
  | endTx ct =>
      cases next_of_move hs with
      | endTx hstep =>
          obtain ⟨n, hstep, hn⟩ := endTx_eq_some hstep
          have hkeeps : w'.Bound ids (closed ∨ ended = true) :=
            h.txStep hstep (by rintro c ⟨⟩) rfl rfl rfl fun hp =>
              hp.imp_left (Or.imp_left (Nat.lt_add_right n))
          by_cases hct : ct = .closeAllResource
          · obtain ⟨tx, -, rfl⟩ := Option.map_eq_some_iff.mp hstep
            rw [hn hct]
            exact ⟨hn hct ▸ hkeeps.known, fun _ _ => .inl (.inl (Nat.succ_pos _))⟩
          · exact hkeeps.imp (by simp [endedSince, hct])
  | readStop =>
      cases next_of_move hs with
      | readStop hpos => exact h.of_pending rfl rfl rfl (.inr (.inl List.mem_cons_self))
  | stopVerify id device =>
      cases next_of_move hs with
      | stopVerify hid =>
          refine h.stop rfl rfl rfl fun hne hp => ?_
          exact hp.imp_right (Or.imp_left (List.mem_erase_of_ne (Ne.symm hne)).mpr)
  | otherStop id device =>
      cases next_of_move hs with
      | otherStop => exact h.stop rfl rfl rfl fun _ hp => hp
  | otherConstruct serviceName username useDefaultService device user =>
      cases next_of_move hs with
      | otherConstruct => exact bound_otherConstruct h
  | check =>
      cases next_of_move hs with
      | check => exact h.of_keeps rfl rfl (fun _ => id) fun _ => id
  | authenticate =>
      cases next_of_move hs with
      | initialised hpos hinit => exact h.of_keeps rfl rfl (fun _ => id) fun _ => id
      | uninitialised hpos hinit => exact h.of_keeps rfl rfl (fun _ => id) fun _ => id
  | giveStarted =>
      cases next_of_move hs with
      | giveStarted hpos =>
          refine h.of_keeps rfl rfl (fun _ => id) fun _ hp => ?_
          have hin : ∀ g ∈ w.goroutines, g ∈ ⟨w.tx.attempts + 1, .startVerify⟩ :: w.goroutines :=
            fun _ => List.mem_cons_of_mem _
          refine hp.imp (Or.imp_right ?_) (Or.imp_right ?_)
          all_goals
            rintro ⟨g, hg, err, hstage⟩
            exact ⟨g, hin g hg, err, hstage⟩
  | setPassword device =>
      cases next_of_move hs with
      | setPassword hstep => exact h.txStep hstep (by rintro c ⟨⟩) rfl rfl rfl id
  | verifyResult id ok =>
      cases next_of_move hs with
      | verifyResult hstep => exact h.txStep hstep (by rintro c ⟨⟩) rfl rfl rfl fun hp => hp
  | state id s =>
      cases next_of_move hs with
      | state hstep => exact h.txStep hstep (by rintro c ⟨⟩) rfl rfl rfl fun hp => hp
  | setLockState s =>
      cases next_of_move hs with
      | setLockState hstep => exact h.txStep hstep (by rintro c ⟨⟩) rfl rfl rfl id

/-- The end of the session has a verification stopped. -/
theorem stopPending_endTx {o : Option VerifyError}
    (hs : w.move (.endTx .closeAllResource) = some (w', o)) : w'.StopPending := by
  cases next_of_move hs with
  | endTx hstep =>
      obtain ⟨n, hstep, hn⟩ := endTx_eq_some hstep
      obtain ⟨tx, -, rfl⟩ := Option.map_eq_some_iff.mp hstep
      rw [hn rfl]
      exact .inl (.inl (Nat.succ_pos _))

end UKeyVerify

/-! ## The session -/

/-- A factor that acquires something: a biometric transaction, by its number, or the key. -/
inductive Factor where
  | bio (i : ℕ)
  | uKey
  deriving DecidableEq, Repr

/-- Where the end of the session stands: it has not been called, or is in its loop over the factors,
before it looks at the device state of the next one, before it calls the `end` of the one that it
has found not to be idle, or in that. -/
inductive EndAllStage where
  | notCalled
  | looking (rest : List Factor)
  | calling (f : Factor) (rest : List Factor)
  | waiting (i : ℕ) (rest : List Factor)
  deriving DecidableEq, Repr

namespace EndAllStage

/-- The factors whose `end` it has neither called nor passed over, once it has been called. -/
def remaining : EndAllStage → Option (List Factor)
  | .notCalled => none
  | .looking rest | .waiting _ rest => some rest
  | .calling f rest => some (f :: rest)

/-- It goes on where the `end` that it waits for returns. -/
def returned (stage : EndAllStage) (a : SlotAction) : EndAllStage :=
  match stage with
  | .waiting i rest => if a = .endReturn i then .looking rest else .waiting i rest
  | stage => stage

theorem remaining_returned (stage : EndAllStage) (a : SlotAction) :
    (stage.returned a).remaining = stage.remaining := by
  cases stage with
  | waiting i rest =>
      unfold returned
      dsimp only
      split_ifs <;> rfl
  | notCalled | looking | calling => rfl

end EndAllStage

/-- The biometric transactions of all sessions, the key of this session, and its end. Two fields are
not part of the program: `ids` are the verifications that the session has constructed, and `ended`
is the history of each factor, as far as its being ended is concerned; a factor that has not been
started counts as ended. -/
structure EndAllState where
  slots : SlotState
  uKey : UKeyVerify
  stage : EndAllStage
  ids : List String
  ended : Factor → Bool

/-- What happens: a step of a biometric transaction or of its slot, a step of the key, the call of
`End(-1)`, and its two steps at a factor, the look at the device state and the call of `end`. -/
inductive EndAllAction where
  | slot (a : SlotAction)
  | uKey (a : UKeyVerifyAction)
  | endAll
  | endLook
  | endCall

namespace EndAllState

/-- No transaction yet, and a manager in any state. -/
def start (manager : Manager) (lockState : LockState) : EndAllState :=
  ⟨.init, .start manager lockState, .notCalled, [], fun _ => true⟩

/-- The biometric transactions have taken a step. -/
def setSlots (w : EndAllState) (a : SlotAction) (slots : SlotState) : EndAllState :=
  { w with
    slots
    ended := fun
      | .bio i => w.slots.endedSince slots i (w.ended (.bio i)) a
      | .uKey => w.ended .uKey }

/-- The key has taken a step, with the error of a `StartVerify` if it was that. -/
def setUKey (w : EndAllState) (a : UKeyVerifyAction) (uKey : UKeyVerify) (o : Option VerifyError) :
    EndAllState :=
  { w with
    uKey
    ids := w.uKey.constructedIds w.ids a
    ended := fun
      | .bio i => w.ended (.bio i)
      | .uKey => w.uKey.endedSince o (w.ended .uKey) a }

/-- Source: `tx.go`, `baseTx.getDevState`. -/
def devState (w : EndAllState) : Factor → Option DevState
  | .bio i => (w.slots.txs i).map BioTx.devState
  | .uKey => some w.uKey.tx.devState

/-- A factor that is idle is passed over. Source: `normal_verify.go`, `normalVerify.end`, and
`multifactor_verify.go`, `multiFactorVerify.end`. -/
def endLook (w : EndAllState) : Option EndAllState :=
  match w.stage with
  | .looking (f :: rest) => (w.devState f).map fun s =>
      { w with stage := if s = .idle then .looking rest else .calling f rest }
  | _ => none

/-- The others are ended. Source: `normal_verify.go`, `normalVerify.end`, and
`multifactor_verify.go`, `multiFactorVerify.end`. -/
def endCall (w : EndAllState) : Option EndAllState :=
  match w.stage with
  | .calling (.bio i) rest => (w.slots.move (.endTx i .closeAllResource)).map fun r =>
      { w.setSlots (.endTx i .closeAllResource) r.1 with
        stage := if (r.1.ends i).isSome then .waiting i rest else .looking rest }
  | .calling .uKey rest => (w.uKey.move (.endTx .closeAllResource)).map fun r =>
      { w.setUKey (.endTx .closeAllResource) r.1 r.2 with stage := .looking rest }
  | _ => none

/-- The session ends once. Source: `normal_verify.go`, `normalVerify.end`, and
`multifactor_verify.go`, `multiFactorVerify.end`, over all factors. -/
def endAll (factors : List Factor) (w : EndAllState) : EndAllState :=
  if w.stage = .notCalled then { w with stage := .looking factors } else w

/-- One step of a daemon that lives; `factors` are those of the session, in the order of its
controller. -/
def next (factors : List Factor) (w : EndAllState) : EndAllAction → Option EndAllState
  | .slot a => (w.slots.move a).map fun r =>
      { w.setSlots a r.1 with stage := w.stage.returned a }
  | .uKey a => (w.uKey.move a).map fun r => w.setUKey a r.1 r.2
  | .endAll => some (w.endAll factors)
  | .endLook => w.endLook
  | .endCall => w.endCall

/-- One step, as long as the daemon lives. -/
def move (factors : List Factor) (w : EndAllState) (a : EndAllAction) :
    Option (EndAllState × Unit) :=
  if w.slots.panicked then none else (w.next factors a).map (·, ())

/-- The end of the session has returned, no goroutine of the session is left, and no start that
still has an id to assign. -/
structure Settled (factors : List Factor) (w : EndAllState) : Prop where
  returned : w.stage = .looking []
  uKey : .uKey ∈ factors →
    w.uKey.goroutines = [] ∧ w.uKey.stopping = 0 ∧ w.uKey.stops = [] ∧ w.uKey.constructed = []
  ends : ∀ i, .bio i ∈ factors → w.slots.ends i = none
  txs : ∀ i tx, .bio i ∈ factors → w.slots.txs i = some tx → tx.ending = false ∧ tx.Resting

/-- **Nothing is left** of what the session has acquired: no verification is in the map of the
manager, no action is registered, and no slot points to a transaction of its kind. -/
structure Released (factors : List Factor) (w : EndAllState) : Prop where
  verifications : .uKey ∈ factors → ∀ id ∈ w.ids, id ∉ w.uKey.manager.verificationInfoMap
  actions : ∀ i tx, .bio i ∈ factors → w.slots.txs i = some tx → tx.action = none
  slots : ∀ i tx, .bio i ∈ factors → w.slots.txs i = some tx → w.slots.slots tx.kind ≠ some i

/-- The end of the session has gone past a factor. -/
def Closed (w : EndAllState) (f : Factor) : Prop := ∃ rest, w.stage.remaining = some rest ∧ f ∉ rest

/-- The condition on the steps: each factor gives back what it holds, and the end of the session
passes over a factor that is idle, or finds it marked, only where it has been ended since it last
took anything, or has never been started. -/
def GivesBack (factors : List Factor) (w : EndAllState) : EndAllAction → Prop
  | .slot a => ∀ i, .bio i ∈ factors → w.slots.GivesBack i (w.Closed (.bio i)) a
  | .uKey a => .uKey ∈ factors → w.uKey.GivesBack w.ids (w.Closed .uKey) a
  | .endAll => True
  | .endLook => ∀ f rest, w.stage = .looking (f :: rest) → w.devState f = some .idle →
      w.ended f = true
  | .endCall => ∀ i rest tx, w.stage = .calling (.bio i) rest → w.slots.txs i = some tx →
      tx.isEnded = true → w.ended (.bio i) = true

/-- The end of the session has gone past a factor, or it has been ended. -/
def Past (w : EndAllState) (f : Factor) : Prop := w.Closed f ∨ w.ended f = true

/-- The locks of the devices are kept, a slot points to a transaction that there is, and no factor
holds anything that its `end` does not know of, nor anything at all once the end of the session has
gone past it, or it has been ended. -/
structure Inv (factors : List Factor) (w : EndAllState) : Prop where
  locks : w.slots.LockInv
  pointed : w.slots.Pointed
  slots : ∀ i, .bio i ∈ factors → w.slots.Bound i (w.Past (.bio i))
  uKey : .uKey ∈ factors → w.uKey.Bound w.ids (w.Past .uKey)

variable {factors : List Factor} {w w' : EndAllState}

/-- What the end of the session has gone past it had gone past before, or it has just passed over
it or ended it. -/
theorem closed_of_next {f g : Factor} {rest : List Factor}
    (hold : w.stage.remaining = some (f :: rest)) (hnew : w'.stage.remaining = some rest)
    (hg : w'.Closed g) : g = f ∨ w.Closed g := by
  obtain ⟨rest', hrest, hnot⟩ := hg
  rw [hnew, Option.some.injEq] at hrest
  subst hrest
  by_cases heq : g = f
  · exact .inl heq
  · exact .inr ⟨_, hold, List.not_mem_cons_of_ne_of_not_mem heq hnot⟩

theorem Closed.congr {f : Factor} (hf : w'.Closed f)
    (h : w'.stage.remaining = w.stage.remaining) : w.Closed f := by
  obtain ⟨rest, hrest, hnot⟩ := hf
  exact ⟨rest, h.symm.trans hrest, hnot⟩

/-- A factor is passed over. -/
theorem inv_endLook (h : w.Inv factors) (ha : w.GivesBack factors .endLook)
    (hs : w.endLook = some w') : w'.Inv factors := by
  unfold endLook at hs
  split at hs
  · next f rest hstage =>
      obtain ⟨s, hdev, rfl⟩ := Option.map_eq_some_iff.mp hs
      have hold : w.stage.remaining = some (f :: rest) := by rw [hstage]; rfl
      -- a factor that the end of the session has just gone past has been ended
      have hpast : ∀ g, Past { w with
          stage := if s = .idle then .looking rest else .calling f rest } g → w.Past g := by
        rintro g (hc | hended)
        · split_ifs at hc with hidle
          · rcases closed_of_next hold rfl hc with rfl | hc
            · exact .inr (ha g rest hstage (hidle ▸ hdev))
            · exact .inl hc
          · exact .inl (hc.congr hold.symm)
        · exact .inr hended
      exact ⟨h.locks, h.pointed, fun i hi => (h.slots i hi).imp (hpast _),
        fun hk => (h.uKey hk).imp (hpast _)⟩
  · cases hs

/-- The biometric transactions take a step. -/
theorem inv_setSlots (h : w.Inv factors) {a : SlotAction} {slots : SlotState}
    {o : Option EndReturn} (hs : w.slots.move a = some (slots, o))
    (ha : ∀ i, .bio i ∈ factors → w.slots.GivesBack i (w.Closed (.bio i)) a) :
    (w.setSlots a slots).Inv factors :=
  ⟨SlotState.lockInv_step h.locks hs, SlotState.pointed_move hs h.locks h.pointed,
    fun i hi => SlotState.bound_move hs h.locks h.pointed (h.slots i hi) (ha i hi), h.uKey⟩

/-- The key takes a step. -/
theorem inv_setUKey (h : w.Inv factors) {a : UKeyVerifyAction} {uKey : UKeyVerify}
    {o : Option VerifyError} (hs : w.uKey.move a = some (uKey, o))
    (ha : .uKey ∈ factors → w.uKey.GivesBack w.ids (w.Closed .uKey) a) :
    (w.setUKey a uKey o).Inv factors :=
  ⟨h.locks, h.pointed, h.slots, fun hk => UKeyVerify.bound_move hs (h.uKey hk) (ha hk)⟩

/-- The end of the session goes on: a factor that it has not gone past before holds nothing. -/
theorem Inv.goTo (h : w.Inv factors) {stage : EndAllStage}
    (hbio : ∀ i, .bio i ∈ factors → Closed { w with stage } (.bio i) →
      w.Closed (.bio i) ∨ w.slots.Freed i)
    (hkey : .uKey ∈ factors → Closed { w with stage } .uKey →
      w.Closed .uKey ∨ w.uKey.StopPending) :
    Inv factors { w with stage } := by
  refine ⟨h.locks, h.pointed, fun i hi => ⟨(h.slots i hi).known, ?_⟩,
    fun hk => ⟨(h.uKey hk).known, ?_⟩⟩
  · rintro (hc | hended)
    · rcases hbio i hi hc with hc | hfreed
      · exact (h.slots i hi).freed (.inl hc)
      · exact hfreed
    · exact (h.slots i hi).freed (.inr hended)
  · rintro (hc | hended)
    · rcases hkey hk hc with hc | hpending
      · exact (h.uKey hk).stopped (.inl hc)
      · exact fun _ => hpending
    · exact (h.uKey hk).stopped (.inr hended)

/-- A factor is ended. -/
theorem inv_endCall (h : w.Inv factors) (ha : w.GivesBack factors .endCall)
    (hs : w.endCall = some w') : w'.Inv factors := by
  unfold endCall at hs
  split at hs
  · next i rest hstage =>
      obtain ⟨⟨slots, o⟩, hmove, rfl⟩ := Option.map_eq_some_iff.mp hs
      have hold : w.stage.remaining = some (.bio i :: rest) := by rw [hstage]; rfl
      have hnew : (if (slots.ends i).isSome = true then EndAllStage.waiting i rest
          else .looking rest).remaining = some rest := by
        split_ifs <;> rfl
      refine (inv_setSlots h hmove fun _ _ => trivial).goTo ?_ ?_
      · intro j hj hc
        rcases closed_of_next hold hnew hc with heq | hc
        · cases heq
          refine .inr (SlotState.freed_endTx hmove fun tx hi hmark => ?_)
          exact (h.slots i hj).freed (.inr (ha i rest tx hstage hi hmark))
        · exact .inl hc
      · intro _ hc
        rcases closed_of_next hold hnew hc with heq | hc
        · cases heq
        · exact .inl hc
  · next rest hstage =>
      obtain ⟨⟨uKey, o⟩, hmove, rfl⟩ := Option.map_eq_some_iff.mp hs
      have hold : w.stage.remaining = some (.uKey :: rest) := by rw [hstage]; rfl
      refine (inv_setUKey h hmove fun _ => trivial).goTo ?_ ?_
      · intro i _ hc
        rcases closed_of_next hold rfl hc with heq | hc
        · cases heq
        · exact .inl hc
      · exact fun _ _ => .inr (UKeyVerify.stopPending_endTx hmove)
  · cases hs

/-- **One step** lets no factor hold on to anything. -/
theorem inv_step {a : EndAllAction} {o : Unit} (h : w.Inv factors) (ha : w.GivesBack factors a)
    (hs : w.move factors a = some (w', o)) : w'.Inv factors := by
  obtain ⟨-, hs⟩ := Option.ite_none_left_eq_some.mp hs
  obtain ⟨hnext, rfl⟩ := observed_eq_some.mp hs
  cases a with
  | slot a =>
      obtain ⟨⟨slots, o⟩, hmove, rfl⟩ := Option.map_eq_some_iff.mp hnext
      have hsame : ∀ f, Closed { w.setSlots a slots with stage := w.stage.returned a } f →
          w.Closed f := fun f hc => hc.congr (w.stage.remaining_returned a)
      exact (inv_setSlots h hmove ha).goTo (fun i _ hc => .inl (hsame _ hc))
        fun _ hc => .inl (hsame _ hc)
  | uKey a =>
      obtain ⟨⟨uKey, o⟩, hmove, rfl⟩ := Option.map_eq_some_iff.mp hnext
      exact inv_setUKey h hmove ha
  | endAll =>
      obtain rfl : w.endAll factors = w' := Option.some.inj hnext
      unfold endAll
      split_ifs with hnew
      · -- every factor is still to come
        have hcome : ∀ f ∈ factors, ¬ Closed { w with stage := .looking factors } f := by
          rintro f hf ⟨rest, hrest, hnot⟩
          cases hrest
          exact hnot hf
        exact h.goTo (fun i hi hc => absurd hc (hcome _ hi)) fun hk hc => absurd hc (hcome _ hk)
      · exact h
  | endLook => exact inv_endLook h ha hnext
  | endCall => exact inv_endCall h ha hnext

/-- A factor that is not idle is not passed over. -/
theorem givesBack_endLook {f : Factor} {rest : List Factor} {s : DevState}
    (hstage : w.stage = .looking (f :: rest)) (hdev : w.devState f = some s) (hbusy : s ≠ .idle) :
    w.GivesBack factors .endLook := by
  intro f' rest' hstage' hidle
  rw [hstage] at hstage'
  cases hstage'
  exact absurd (Option.some.inj (hdev.symm.trans hidle)) hbusy

/-- A transaction that is not marked is ended. -/
theorem givesBack_endCall {i : ℕ} {rest : List Factor} (hstage : w.stage = .calling (.bio i) rest)
    (hlive : (w.slots.txs i).map BioTx.isEnded = some false) : w.GivesBack factors .endCall := by
  intro i' rest' tx hstage' htx hmark
  rw [hstage] at hstage'
  cases hstage'
  rw [htx, Option.map_some, hmark] at hlive
  cases hlive

/-- The key is ended. -/
theorem givesBack_endCall_uKey {rest : List Factor} (hstage : w.stage = .calling .uKey rest) :
    w.GivesBack factors .endCall := by
  intro i' rest' tx hstage'
  rw [hstage] at hstage'
  cases hstage'

/-- Nothing is left where nothing is to come. -/
theorem Inv.released (h : w.Inv factors) (hs : w.Settled factors) : w.Released factors := by
  have hpast : ∀ f, w.Past f := by
    intro f
    refine .inl ⟨[], ?_, List.not_mem_nil⟩
    rw [hs.returned]
    rfl
  constructor
  · intro hk id hids hin
    obtain ⟨hgs, hstopping, hstops, hcon⟩ := hs.uKey hk
    have hself := (h.uKey hk).known id hids hin
    rw [hcon] at hself
    obtain rfl := hself.resolve_right List.not_mem_nil
    have hpending := (h.uKey hk).stopped (hpast _) ⟨hids, hin⟩
    simp [UKeyVerify.StopPending, UKeyVerify.StopUnread, hgs, hstopping, hstops] at hpending
  · intro i tx hi htx
    obtain ⟨hfreed, -⟩ := (h.slots i hi).freed (hpast _) tx htx
    refine hfreed.resolve_right ?_
    rw [(hs.txs i tx hi htx).1]
    rintro ⟨⟩
  · intro i tx hi htx hslot
    obtain ⟨-, hheld⟩ := (h.slots i hi).freed (hpast _) tx htx
    exact hheld hslot (hs.ends i hi)

/-- At the start no factor holds anything. -/
theorem inv_start (factors : List Factor) (manager : Manager) (lockState : LockState) :
    (start manager lockState).Inv factors := by
  refine ⟨⟨?_, ?_⟩, ?_, fun i _ => ⟨?_, ?_⟩, fun _ => ⟨?_, ?_⟩⟩
  · rintro i tx ⟨⟩
  · rintro k i stage ⟨⟩
  · rintro k i ⟨⟩
  · rintro tx ⟨⟩
  · rintro - tx ⟨⟩
  · rintro id ⟨⟩
  · rintro - ⟨⟨⟩, -⟩

/-- **What the end of a session releases**: in every run in which each factor gives back what it
holds, nothing that the session has acquired is left in any state in which the end of the session
has returned and its goroutines have finished. -/
theorem endAll_releases (factors : List Factor) (manager : Manager) (lockState : LockState)
    {acts : List EndAllAction}
    (h : Along (move factors) (GivesBack factors) (start manager lockState) acts)
    {t : EndAllState} {os : List Unit}
    (hr : run (move factors) (start manager lockState) acts = some (t, os))
    (hs : t.Settled factors) : t.Released factors := by
  have hinv : t.Inv factors := run_invariant (fun _ _ _ _ hinv ha hmove => inv_step hinv ha hmove)
    (inv_start factors manager lockState) h hr
  exact hinv.released hs

/-- A face and a key verify, and the session is ended meanwhile. -/
def faceAndKey : List EndAllAction :=
  [.slot (.create 1 (.camera .face) .unlock), .slot (.tx 1 (.camera .start)), .slot (.lockStart 1),
    .slot (.endLast (.camera .face)), .slot (.writeSlot (.camera .face)),
    .slot (.tx 1 (.camera .giveStarted)), .slot (.tx 1 (.camera .givePrompt)),
    .slot (.tx 1 (.camera (.genActionId none))), .slot (.tx 1 (.camera (.verifyStart true))),
    .uKey .check, .uKey .authenticate,
    .uKey (.construct "user" (.ok ⟨.usbKey, "*"⟩) none (.ok ⟨"uuid", ""⟩)), .uKey (.assign "1"),
    .uKey .giveStarted, .uKey (.goroutine ⟨1, .startVerify⟩ none),
    .uKey (.goroutine ⟨1, .starting "1"⟩ none), .endAll, .endLook, .endCall,
    .slot (.tx 1 (.camera .quit)), .slot (.finish 1), .slot (.tx 1 (.camera .endWait)),
    .slot (.tx 1 (.camera .endReceive)), .slot (.tx 1 (.camera .endGive)),
    .slot (.tx 1 (.camera .endMark)), .slot (.tx 1 (.camera .endRelease)), .slot (.endReturn 1),
    .endLook, .endCall, .uKey .readStop, .uKey (.stopVerify "1" none)]

/-- Each of the two gives back what it holds. -/
theorem along_faceAndKey :
    Along (move [.bio 1, .uKey]) (GivesBack [.bio 1, .uKey]) (start .new .unlock) faceAndKey := by
  have hopen : ∀ w : EndAllState, w.stage = .notCalled → ∀ f, ¬ w.Closed f := by
    rintro w hw f ⟨rest, hrest, -⟩
    rw [hw] at hrest
    cases hrest
  -- the face starts, up to its action
  refine (along_cons_of_eq rfl).mpr ⟨fun _ _ => trivial, ?_⟩
  refine (along_cons_of_eq rfl).mpr ⟨fun _ _ _ _ _ => trivial, ?_⟩
  iterate 2 refine (along_cons_of_eq rfl).mpr ⟨fun _ _ => trivial, ?_⟩
  refine (along_cons_of_eq rfl).mpr ⟨fun _ _ hc => absurd hc (hopen _ rfl _), ?_⟩
  iterate 2 refine (along_cons_of_eq rfl).mpr ⟨fun _ _ _ _ _ => trivial, ?_⟩
  refine (along_cons_of_eq rfl).mpr ⟨fun _ _ _ _ _ hc => absurd hc (hopen _ rfl _), ?_⟩
  refine (along_cons_of_eq rfl).mpr ⟨fun _ _ _ _ _ => trivial, ?_⟩
  -- the key starts with no id of before
  iterate 2 refine (along_cons_of_eq rfl).mpr ⟨fun _ => trivial, ?_⟩
  refine (along_cons_of_eq rfl).mpr ⟨fun _ _ _ _ _ hc => absurd hc (hopen _ rfl _), ?_⟩
  refine (along_cons_of_eq rfl).mpr ⟨fun _ _ => ⟨fun h => ?_, fun hc => ?_⟩, ?_⟩
  · exact absurd h.1 (by decide)
  · exact absurd hc (hopen _ rfl _)
  iterate 3 refine (along_cons_of_eq rfl).mpr ⟨fun _ => trivial, ?_⟩
  -- the session is ended, and waits for the face
  refine (along_cons_of_eq rfl).mpr ⟨trivial, ?_⟩
  refine (along_cons_of_eq rfl).mpr ⟨givesBack_endLook (s := .verifying) rfl rfl (by decide), ?_⟩
  refine (along_cons_of_eq rfl).mpr ⟨givesBack_endCall rfl rfl, ?_⟩
  refine (along_cons_of_eq rfl).mpr ⟨fun _ _ _ _ _ => trivial, ?_⟩
  refine (along_cons_of_eq rfl).mpr ⟨fun _ _ => trivial, ?_⟩
  iterate 5 refine (along_cons_of_eq rfl).mpr ⟨fun _ _ _ _ _ => trivial, ?_⟩
  refine (along_cons_of_eq rfl).mpr ⟨fun i hi _ hji tx e htx he _ => ?_, ?_⟩
  · subst hji
    cases htx
    cases he
    rfl
  -- the key is stopped
  refine (along_cons_of_eq rfl).mpr ⟨givesBack_endLook (s := .verifying) rfl rfl (by decide), ?_⟩
  refine (along_cons_of_eq rfl).mpr ⟨givesBack_endCall_uKey rfl, ?_⟩
  refine (along_cons_of_eq rfl).mpr ⟨fun _ => trivial, ?_⟩
  exact (along_cons_of_eq rfl).mpr ⟨fun _ => trivial, trivial⟩

theorem endAll_releases_faceAndKey :
    ∃ t os, run (move [.bio 1, .uKey]) (start .new .unlock) faceAndKey = some (t, os) ∧
      t.Settled [.bio 1, .uKey] ∧ t.Released [.bio 1, .uKey] := by
  have hone : ∀ i, Factor.bio i ∈ [.bio 1, .uKey] → i = 1 := fun i hi => by simpa using hi
  obtain ⟨t, os, hr, hs⟩ : ∃ t os, run (move [.bio 1, .uKey]) (start .new .unlock) faceAndKey =
      some (t, os) ∧ t.Settled [.bio 1, .uKey] := by
    refine ⟨_, _, rfl, rfl, fun _ => ⟨rfl, rfl, rfl, rfl⟩, ?_, ?_⟩
    · intro i hi
      rw [hone i hi]
      rfl
    · intro i tx hi htx
      rw [hone i hi] at htx
      cases htx
      exact ⟨rfl, rfl, rfl⟩
  exact ⟨t, os, hr, hs, endAll_releases _ _ _ along_faceAndKey hr hs⟩

/-- A key that was ended on its own is passed over by the end of the session, and nothing stops its
verification. -/
theorem ended_key_left :
    ¬ ∀ factors manager lockState acts t os,
      run (move factors) (start manager lockState) acts = some (t, os) →
        t.Settled factors → t.Released factors := by
  intro h
  have hreleased := h [.uKey] .new .unlock
    ((UKeyVerify.startOnce none "1").map .uKey ++ [.uKey (.endTx .closeVerify), .endAll, .endLook])
    _ _ rfl ⟨rfl, fun _ => ⟨rfl, rfl, rfl, rfl⟩, fun i hi => (by simp at hi),
      fun i _ hi => (by simp at hi)⟩
  exact absurd (hreleased.verifications (by decide) "1" (by decide)) (by decide)

end EndAllState


end LingmoAuthenticate.Session
