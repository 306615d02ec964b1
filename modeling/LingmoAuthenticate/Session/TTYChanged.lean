import LingmoAuthenticate.Session.InitData
import LingmoAuthenticate.Session.Slots

/-!
# A switch of the terminal: the task `TTYChanged`

Each session that is filled in registers a callback that cancels the fingerprint and the face, as
far as its client has asked for them, under one id for all sessions. The task manager runs what is
registered in a goroutine, which starts a goroutine for each function and then deletes what is
registered by that time.

* `TTYState.move` is one step of any biometric transaction, or one of the task manager and of the
  goroutines it starts; `aims` are the attempts that a switch of the terminal is to end.
* `Prompt`: an attempt that verified at a switch is over, or told to quit, or a thread is on its way
  to it that does not wait for it to finish.
* `tty_cancels`: a run stays within `Prompt` exactly where each switch finds a callback for the
  attempts that verify, no face among them, and each thread finds its attempt in the slot
  (`Cancels`).
-/

namespace LingmoAuthenticate.Session

open Lib AuthCommon

/-- An attempt that a switch of the terminal is to end: the transaction, by its number, and the
attempt. -/
structure Aim where
  i : ℕ
  n : ℕ
  deriving DecidableEq, Repr

namespace BioTx

/-- How many attempts there were. -/
def attempts : BioTx → ℕ
  | .fingerprint s => s.attempts
  | .camera _ s => s.attempts

/-- The attempt `n` verifies. -/
def Running (n : ℕ) : BioTx → Prop
  | .fingerprint s => (s.phases n).holds = true
  | .camera _ s => n = s.attempts ∧ s.phase.any CameraPhase.isOpen = true

/-- The channel `quit` of the attempt `n` is closed; that of a camera is the one of the last
attempt. -/
def Told (n : ℕ) : BioTx → Prop
  | .fingerprint s => s.quitClosed n = true
  | .camera _ s => s.quit = some true

/-- The attempt `n` no longer verifies, or is told to quit. -/
def Over (n : ℕ) (tx : BioTx) : Prop := tx.Running n → tx.Told n

/-- A call of `end` would tell the attempt `n` to quit. -/
def QuitsOn (n : ℕ) : BioTx → Prop
  | .fingerprint s => s.isEnded = false ∧ s.devState = .verifying ∧ s.quit = some n
  | .camera _ s => s.isEnded = false ∧ s.devState = .verifying ∧ n = s.attempts

end BioTx

/-- How far the cancelling of a kind is that a switch has set off: not at all, before the callback
has run, before the lock of the kind is taken, before the slot is looked at, or past that. -/
inductive Way where
  | absent
  | callback
  | waiting
  | holding
  | done
  deriving DecidableEq, Repr

/-- A thread is on its way. -/
def Way.isOn : Way → Bool
  | .absent | .done => false
  | _ => true

/-- The transactions, the callback that is registered, and for each switch of the terminal what is
still to come of it; `deleting` counts the goroutines that are about to delete the callback, and
`held` says for which switch a cancel has a lock. One field is not part of the program: `aims` are
the attempts that verified at a switch. Source: `task/manager.go`, `Manager`. -/
structure TTYState where
  slots : SlotState
  task : Option (List Biometric)
  events : ℕ
  callbacks : ℕ → Option (List Biometric)
  deleting : ℕ
  ways : ℕ → Biometric → Way
  held : Biometric → ℕ
  aims : ℕ → Set Aim

/-- What happens: a session is made, the terminal is switched, the goroutines of a switch go on, or
a transaction does. The transactions of a session need not be those of its flags, so each is made
by a step of its own. -/
inductive TTYAction where
  | newManager (env : InitEnv) (sender : String) (refFlag : ℕ)
  | ttyChanged
  | callback (e : ℕ)
  | delete
  | cancelLast (k : Biometric) (e : ℕ)
  | slot (a : SlotAction)

/-- The functions of the callback. Source: `session/manager.go`, `Manager.genTTYChangedCb`. -/
def genTTYChangedCb (flag : ℕ) : List Biometric :=
  (if flag &&& authTypeToFlag .fingerprint ≠ 0 then [.fingerprint] else []) ++
    if flag &&& authTypeToFlag .face ≠ 0 then [.camera .face] else []

namespace TTYState

/-- No session yet, and nothing registered. -/
def init : TTYState :=
  ⟨.init, none, 0, fun _ => none, 0, fun _ _ => .absent, fun _ => 0, fun _ => ∅⟩

/-- The attempts that a switch of the terminal is to end: those of a fingerprint or a face that
verify. -/
def verifying (w : TTYState) : Set Aim :=
  { a | ∃ tx, w.slots.txs a.i = some tx ∧
    (tx.kind = .fingerprint ∨ tx.kind = .camera .face) ∧ tx.Running a.n }

/-- A session that is filled in registers its callback in the place of the last one.
Source: `session/manager.go`, `Manager.initData`, and `task/manager.go`, `Manager.AddSignalTask`. -/
def newManager (w : TTYState) (env : InitEnv) (sender : String) (refFlag : ℕ) : Option TTYState :=
  (InitManager.newManager env sender refFlag).map fun o => o.elim w fun m =>
    if m.controller.isSome then { w with task := some (genTTYChangedCb m.refFlag) } else w

/-- What is registered is run in a goroutine. Source: `task/manager.go`, `Manager.DoSignalTask`. -/
def ttyChanged (w : TTYState) : TTYState :=
  { w with
    events := w.events + 1
    callbacks := Function.update w.callbacks w.events w.task
    ways := Function.update w.ways w.events fun k =>
      if k ∈ w.task.getD [] then .callback else .absent
    aims := Function.update w.aims w.events w.verifying }

/-- The callback starts its goroutines, and asks to be deleted.
Source: `session/manager.go`, the function of `Manager.genTTYChangedCb`. -/
def callback (w : TTYState) (e : ℕ) : Option TTYState :=
  (w.callbacks e).map fun fns => { w with
    callbacks := Function.update w.callbacks e none
    deleting := w.deleting + 1
    ways := Function.update w.ways e fun k => if k ∈ fns then .waiting else w.ways e k }

/-- A goroutine takes the lock. Source: `fingerprint_tx.go`, `cancelLastFingerprintTx`, and
`face_tx.go`, `cancelLastFaceTx`. -/
def cancelLast (w : TTYState) (k : Biometric) (e : ℕ) : Option TTYState :=
  if w.ways e k = .waiting then
    (w.slots.move (.lockCancel k)).map fun r => { w with
      slots := r.1
      held := Function.update w.held k e
      ways := Function.update w.ways e (Function.update (w.ways e) k .holding) }
  else none

/-- The look at the slot ends the way of the cancel that has the lock. -/
def looked (w : TTYState) : SlotAction → TTYState
  | .endLast k =>
      if w.slots.locks k = some (.cancel .entered) then
        { w with ways :=
            Function.update w.ways (w.held k) (Function.update (w.ways (w.held k)) k .done) }
      else w
  | _ => w

/-- A cancel comes from a switch of the terminal only. -/
def isFree : SlotAction → Bool
  | .lockCancel _ => false
  | _ => true

/-- One step of a daemon that lives. Source: `task/manager.go`, and `session/manager.go`. -/
def next (w : TTYState) : TTYAction → Option TTYState
  | .newManager env sender refFlag => w.newManager env sender refFlag
  | .ttyChanged => some w.ttyChanged
  | .callback e => w.callback e
  | .delete =>
      if 0 < w.deleting then some { w with task := none, deleting := w.deleting - 1 } else none
  | .cancelLast k e => w.cancelLast k e
  | .slot a =>
      if isFree a then (w.slots.move a).map fun r => { w.looked a with slots := r.1 } else none

/-- One step, as long as the daemon lives. -/
def move (w : TTYState) (a : TTYAction) : Option (TTYState × Unit) :=
  if w.slots.panicked then none else (w.next a).map (·, ())

end TTYState

/-! ## What a step does to an attempt -/

namespace CameraVerify

variable {c : CameraType} {s s' : CameraVerify c}

/-- A `quit` that is closed stays so until the next attempt. -/
theorem quit_move {a : CameraVerifyStep} (ha : a ≠ .claim) (hs : s.move a = some s')
    (hq : s.quit = some true) : s'.quit = some true := by
  cases next_of_move hs with
  | claim hstarts hphase => exact absurd rfl ha
  | @read restart id code rest hphase hrec =>
      rcases code_cases hrec restart { s with codes := rest } with
        ⟨v, -, heq⟩ | ⟨-, heq | ⟨msg, heq⟩⟩ <;> rw [heq] <;> exact hq
  | endVerifying => rfl
  | verified haction hsig => exact (signal_frame hsig).2.2.trans hq
  | verifyStatus hother hsig => exact (signal_frame hsig).2.2.trans hq
  | enrollStatus hsig | disconnected hsig | charaTypeGone hsig =>
      exact (signal_frame hsig).2.2.trans hq
  | _ => exact hq

end CameraVerify

namespace FingerprintSteps

variable {s s' : FingerprintSteps} {a : FingerprintStep}

/-- A `quit` that is closed stays so. -/
theorem quitClosed_move (hs : s.move a = some s') {n : ℕ} (hq : s.quitClosed n = true) :
    s'.quitClosed n = true := by
  cases next_of_move hs with
  | @claim err hstarts => cases err <;> exact hq
  | @endVerifying c hmux hended hdev hc hopen =>
      show Function.update s.quitClosed c true n = true
      by_cases hn : n = c
      · rw [hn, Function.update_self]
      · rwa [Function.update_of_ne hn]
  | _ => exact hq

/-- No attempt comes back to life. -/
theorem holds_old (hs : s.move a = some s') {n : ℕ} (hn : n ≤ s.attempts)
    (h : (s'.phases n).holds = true) : (s.phases n).holds = true := by
  rcases phases_move hs n with heq | hmoves
  · rwa [← heq]
  · generalize s.phases n = p at hmoves ⊢
    generalize s'.phases n = p' at hmoves h
    cases hmoves with
    | start hnew => omega
    | closeRelease | give => cases h
    | _ => rfl

end FingerprintSteps

namespace BioTx

variable {tx tx' : BioTx} {a : BioStep} {n : ℕ}

/-- The attempts are counted on. -/
theorem attempts_move (hs : tx.move a = some tx') : tx.attempts ≤ tx'.attempts := by
  cases tx with
  | fingerprint s =>
      cases a with
      | fingerprint a =>
          obtain ⟨s', hs', rfl⟩ := Option.map_eq_some_iff.mp hs
          exact FingerprintSteps.attempts_move hs'
      | camera a => cases hs
  | camera c s =>
      cases a with
      | fingerprint a => cases hs
      | camera a =>
          obtain ⟨s', hs', rfl⟩ := Option.map_eq_some_iff.mp hs
          rcases (CameraVerify.frame_move hs').1 with h | ⟨h, -⟩
          · exact h.ge
          · exact (Nat.le_succ _).trans h.ge

/-- Every attempt that verifies has been counted. -/
theorem running_le (h : ∀ n, tx.Running n → n ≤ tx.attempts) (hs : tx.move a = some tx')
    (hn : tx'.Running n) : n ≤ tx'.attempts := by
  cases tx with
  | fingerprint s =>
      cases a with
      | fingerprint a =>
          obtain ⟨s', hs', rfl⟩ := Option.map_eq_some_iff.mp hs
          have hle := FingerprintSteps.attempts_move hs'
          by_cases ha : a = .claim none
          · subst ha
            have hnext := FingerprintSteps.attempts_claim hs'
            by_contra hgt
            have hold : (s.phases n).holds = true := by
              rcases FingerprintSteps.phases_move hs' n with heq | hmoves
              · rwa [← heq]
              · generalize s.phases n = p at hmoves
                generalize s'.phases n = p' at hmoves
                cases hmoves with
                | start hnew =>
                    have hgt' : ¬ n ≤ s'.attempts := hgt
                    omega
            exact hgt ((h n hold).trans hle)
          · exact (h n (FingerprintSteps.holds_move ha hs' hn)).trans hle
      | camera a => cases hs
  | camera c s =>
      cases a with
      | fingerprint a => cases hs
      | camera a =>
          obtain ⟨s', hs', rfl⟩ := Option.map_eq_some_iff.mp hs
          exact hn.1.le

/-- **What is over stays over.** -/
theorem over_move (hn : n ≤ tx.attempts) (hs : tx.move a = some tx') (h : tx.Over n) :
    tx'.Over n := by
  intro hrun
  cases tx with
  | fingerprint s =>
      cases a with
      | fingerprint a =>
          obtain ⟨s', hs', rfl⟩ := Option.map_eq_some_iff.mp hs
          have hold : (s.phases n).holds = true := FingerprintSteps.holds_old hs' hn hrun
          exact FingerprintSteps.quitClosed_move hs' (h hold)
      | camera a => cases hs
  | camera c s =>
      cases a with
      | fingerprint a => cases hs
      | camera a =>
          obtain ⟨s', hs', rfl⟩ := Option.map_eq_some_iff.mp hs
          obtain ⟨hlast, hopen⟩ := hrun
          have ha : a ≠ .claim := by
            rintro rfl
            have hnext := CameraVerify.attempts_claim hs'
            have hn' : n ≤ s.attempts := hn
            omega
          have hsame : s'.attempts = s.attempts := by
            rcases (CameraVerify.frame_move hs').1 with heq | ⟨heq, -⟩
            · exact heq
            · have hn' : n ≤ s.attempts := hn
              omega
          have hold := (CameraVerify.verifies_move ha hs').1 hopen
          exact CameraVerify.quit_move ha hs' (h ⟨hlast.trans hsame, hold⟩)

/-- A camera that verifies has the lock, a fingerprint never has. -/
theorem over_of_camera (hk : tx.kind ≠ .fingerprint) (h : ¬ tx.HoldsLock) : tx.Over n := by
  cases tx with
  | fingerprint s => exact absurd rfl hk
  | camera c s => exact fun hrun => absurd (CameraVerify.phase_of_open hrun.2) h

theorem not_holdsLock (hk : tx.kind = .fingerprint) : ¬ tx.HoldsLock := by
  cases tx with
  | fingerprint s => exact id
  | camera c s => cases hk

/-- A call of `end` tells a fingerprint attempt to quit exactly where it closes its channel. -/
theorem over_endTx (hk : tx.kind = .fingerprint) (hs : tx.endTx = some tx') (hrun : tx.Running n)
    (htold : ¬ tx.Told n) : tx'.Over n ↔ tx.QuitsOn n := by
  cases tx with
  | camera c s => cases hk
  | fingerprint s =>
      obtain ⟨s', hs', rfl⟩ := Option.map_eq_some_iff.mp hs
      cases FingerprintSteps.next_of_move (a := .endTx) hs' with
      | wasEnded hmux hended =>
          refine iff_of_false (fun h => htold (h hrun)) ?_
          intro hq
          cases hended.symm.trans hq.1
      | @endVerifying c hmux hended hdev hc hopen =>
          have hiff : Function.update s.quitClosed c true n = true ↔ n = c := by
            by_cases hn : n = c
            · rw [hn, Function.update_self]
              exact iff_of_true rfl rfl
            · rw [Function.update_of_ne hn]
              exact iff_of_false htold hn
          constructor
          · intro h
            exact ⟨hended, hdev, (hiff.mp (h hrun)) ▸ hc⟩
          · rintro ⟨-, -, hq⟩ -
            exact hiff.mpr (Option.some.inj (hq.symm.trans hc))
      | quitPanics hmux hended hdev hclosed =>
          refine iff_of_false (fun h => htold (h hrun)) fun hq => htold ?_
          exact hclosed n hq.2.2
      | endIdle hmux hended hdev =>
          exact iff_of_false (fun h => htold (h hrun)) fun hq => hdev hq.2.1

end BioTx

/-- What a call of `end` leaves of the transactions. -/
theorem callEnd_txs {w w' : SlotState} {j : ℕ} {e : EndCall} (hs : w.callEnd j e = some w') :
    ∃ tx tx', w.txs j = some tx ∧ tx.endTx = some tx' ∧
      w'.txs = if tx.isEnded then w.txs else Function.update w.txs j (some tx') := by
  obtain ⟨tx, hj, hs⟩ := Option.bind_eq_some_iff.mp hs
  obtain ⟨-, hs⟩ := Option.ite_none_right_eq_some.mp hs
  obtain ⟨tx', hend, rfl⟩ := Option.map_eq_some_iff.mp hs
  refine ⟨tx, tx', hj, hend, ?_⟩
  split_ifs <;> rfl

/-- A cancel that looks at the slot ends a fingerprint that verifies and has not been told to quit
where it finds that there, in a state in which `end` tells it. -/
theorem endLast_over {w w' : SlotState} {k : Biometric} {i n : ℕ} {tx : BioTx}
    (hs : w.endLast k = some w') (hlock : w.locks k = some (.cancel .entered))
    (hi : w.txs i = some tx) (hkind : tx.kind = .fingerprint) (hrun : tx.Running n)
    (htold : ¬ tx.Told n) :
    ∃ tx', w'.txs i = some tx' ∧ tx'.kind = tx.kind ∧
      (tx'.Over n ↔ w.slots k = some i ∧ tx.QuitsOn n) := by
  have hnot : ¬ tx.Over n := fun hover => htold (hover hrun)
  rw [SlotState.endLast, hlock, Option.bind_some] at hs
  obtain ⟨-, hs⟩ := Option.ite_none_right_eq_some.mp hs
  split at hs
  · next hslot =>
      cases hs
      refine ⟨tx, hi, rfl, iff_of_false hnot ?_⟩
      intro hq
      cases hslot.symm.trans hq.1
  · next j hslot =>
      rw [if_neg (by rintro ⟨⟩)] at hs
      obtain ⟨w₁, hcall, rfl⟩ := Option.map_eq_some_iff.mp hs
      obtain ⟨txj, tx', hj, hend, htxs⟩ := callEnd_txs hcall
      show ∃ tx', w₁.txs i = some tx' ∧ tx'.kind = tx.kind ∧
        (tx'.Over n ↔ w.slots k = some i ∧ tx.QuitsOn n)
      rw [htxs]
      by_cases hji : i = j
      · subst hji
        obtain rfl : tx = txj := Option.some.inj (hi.symm.trans hj)
        split_ifs with hended
        · -- a transaction that is marked is left alone
          refine ⟨tx, hi, rfl, iff_of_false hnot ?_⟩
          intro hq
          cases tx with
          | fingerprint s => cases hended.symm.trans hq.2.1
          | camera c s => cases hkind
        · obtain ⟨b, -, -, -, hmove⟩ := BioTx.move_of_endTx hend
          have hiff := BioTx.over_endTx hkind hend hrun htold
          refine ⟨tx', Function.update_self .., BioTx.kind_move hmove, ?_⟩
          exact hiff.trans (and_iff_right hslot).symm
      · have hne : w.slots k ≠ some i := by
          rw [hslot]
          rintro ⟨⟩
          exact hji rfl
        refine ⟨tx, ?_, rfl, iff_of_false hnot fun hq => hne hq.1⟩
        split_ifs
        · exact hi
        · exact (Function.update_of_ne hji ..).trans hi

/-! ## What a switch is to end -/

namespace TTYState

variable {w w' : TTYState}

/-- The attempts that verify have been counted, and so have those that a switch was to end, so that
a later attempt has a number of its own. -/
structure AimInv (w : TTYState) : Prop where
  counted : ∀ i tx n, w.slots.txs i = some tx → tx.Running n → n ≤ tx.attempts
  aimed : ∀ e, ∀ a ∈ w.aims e, ∃ tx, w.slots.txs a.i = some tx ∧ a.n ≤ tx.attempts

/-- An attempt that the switch `e` was to end is over, or told to quit, or a thread is on its way to
it, and the attempt does not have the lock that the thread is to take. -/
def Served (w : TTYState) (e : ℕ) (a : Aim) : Prop :=
  ∀ tx, w.slots.txs a.i = some tx →
    tx.Over a.n ∨ (w.ways e tx.kind).isOn = true ∧ ¬ tx.HoldsLock

/-- **Every switch ends what verifies**: what verified at a switch of the terminal is over, or told
to quit, or a thread of that switch is on its way to it that does not wait for it. -/
def Prompt (w : TTYState) : Prop := ∀ e, ∀ a ∈ w.aims e, w.Served e a

/-- Each switch finds a callback for the fingerprints that verify, and no face that does; and a
cancel that looks at the slot finds there the attempt that its switch was to end, in a state in
which `end` tells it to quit. Attempts that are told already are left aside. -/
def Cancels (w : TTYState) (act : TTYAction) : Prop :=
  w.move act ≠ none → match act with
    | .ttyChanged => ∀ i tx n, w.slots.txs i = some tx → tx.Running n → ¬ tx.Told n →
        tx.kind ≠ .camera .face ∧
          (tx.kind = .fingerprint → ∃ fns, w.task = some fns ∧ .fingerprint ∈ fns)
    | .slot (.endLast k) => w.slots.locks k = some (.cancel .entered) →
        ∀ a ∈ w.aims (w.held k), ∀ tx, w.slots.txs a.i = some tx → tx.kind = k →
          tx.Running a.n → ¬ tx.Told a.n → w.slots.slots k = some a.i ∧ tx.QuitsOn a.n
    | _ => True

/-- A step of the transactions keeps what was counted. -/
theorem AimInv.slot (h : w.AimInv) {a : SlotAction} {o : Option EndReturn} {slots' : SlotState}
    (hs : w.slots.move a = some (slots', o)) (hslots : w'.slots = slots')
    (haims : w'.aims = w.aims) : w'.AimInv := by
  subst hslots
  constructor
  · intro i tx' n hi hrun
    have hmoves := SlotState.txMoves_step hs i
    rw [hi] at hmoves
    generalize hold : w.slots.txs i = old at hmoves
    cases hmoves with
    | same => exact h.counted i tx' n hold hrun
    | @move tx _ b hb hmove => exact BioTx.running_le (fun m => h.counted i tx m hold) hmove hrun
    | new k lockState =>
        cases k with
        | fingerprint => cases hrun
        | camera c => cases hrun.2
  · intro e a ha
    rw [haims] at ha
    obtain ⟨tx, hi, hle⟩ := h.aimed e a ha
    have hmoves := SlotState.txMoves_step hs a.i
    rw [hi] at hmoves
    generalize hnew : w'.slots.txs a.i = new at hmoves
    cases hmoves with
    | same => exact ⟨tx, rfl, hle⟩
    | move hb hmove => exact ⟨_, rfl, hle.trans (BioTx.attempts_move hmove)⟩

/-- A step of the transactions keeps an attempt served, where the thread keeps on its way. -/
theorem Served.slot (hinv : w.AimInv) {e : ℕ} {a : Aim} (ha : a ∈ w.aims e) (h : w.Served e a)
    {act : SlotAction} {o : Option EndReturn} {slots' : SlotState}
    (hs : w.slots.move act = some (slots', o)) (hslots : w'.slots = slots')
    (hways : ∀ tx, w.slots.txs a.i = some tx → ¬ tx.Over a.n → (w.ways e tx.kind).isOn = true →
      (w'.ways e tx.kind).isOn = true) : w'.Served e a := by
  subst hslots
  intro tx' hi'
  obtain ⟨tx, hi, hle⟩ := hinv.aimed e a ha
  have hmoves := SlotState.txMoves_step hs a.i
  rw [hi, hi'] at hmoves
  cases hmoves with
  | same =>
      rcases h tx' hi with hover | ⟨hon, hlock⟩
      · exact .inl hover
      · by_cases hover : tx'.Over a.n
        · exact .inl hover
        · exact .inr ⟨hways tx' hi hover hon, hlock⟩
  | move hb hmove =>
      by_cases hover : tx.Over a.n
      · exact .inl (BioTx.over_move hle hmove hover)
      · obtain hover' | ⟨hon, hlock⟩ := h tx hi
        · exact absurd hover' hover
        · have hkind : tx.kind = .fingerprint := by
            by_contra hk
            exact hover (BioTx.over_of_camera hk hlock)
          have hkind' := BioTx.kind_move hmove
          rw [hkind']
          exact .inr ⟨hways tx hi hover hon, BioTx.not_holdsLock (hkind'.trans hkind)⟩

/-- A step of the task manager, which leaves the transactions alone. -/
theorem Prompt.of_ways (h : w.Prompt) (hslots : w'.slots = w.slots) (haims : w'.aims = w.aims)
    (hways : ∀ e k, (w.ways e k).isOn = true → (w'.ways e k).isOn = true) : w'.Prompt := by
  intro e a ha tx hi
  rw [haims] at ha
  rw [hslots] at hi
  exact (h e a ha tx hi).imp_right fun hon => ⟨hways e tx.kind hon.1, hon.2⟩

/-- Such a step keeps what was counted. -/
theorem AimInv.of_aims (h : w.AimInv) (hslots : w'.slots = w.slots) (haims : w'.aims = w.aims) :
    w'.AimInv :=
  ⟨fun i tx n hi => h.counted i tx n (hslots ▸ hi), fun e a ha => by
    rw [haims] at ha
    rw [hslots]
    exact h.aimed e a ha⟩

theorem newManager_frame {env : InitEnv} {sender : String} {refFlag : ℕ}
    (hs : w.newManager env sender refFlag = some w') :
    w'.slots = w.slots ∧ w'.aims = w.aims ∧ w'.ways = w.ways := by
  obtain ⟨o, -, rfl⟩ := Option.map_eq_some_iff.mp hs
  cases o with
  | none => exact ⟨rfl, rfl, rfl⟩
  | some m =>
      rw [Option.elim_some]
      split_ifs <;> exact ⟨rfl, rfl, rfl⟩

/-- The look at the slot changes the ways only. -/
theorem looked_frame (w : TTYState) (a : SlotAction) :
    (w.looked a).slots = w.slots ∧ (w.looked a).aims = w.aims := by
  unfold looked
  split
  · split_ifs <;> exact ⟨rfl, rfl⟩
  · exact ⟨rfl, rfl⟩

/-- A step that is not the look of a cancel leaves the ways alone. -/
theorem looked_ways {a : SlotAction}
    (h : ∀ k, a = .endLast k → w.slots.locks k ≠ some (.cancel .entered)) :
    (w.looked a).ways = w.ways := by
  cases a with
  | endLast k => rw [looked, if_neg (h k rfl)]
  | _ => rfl

/-- A goroutine that has the lock is on its way. -/
theorem isOn_update {ways : ℕ → Biometric → Way} {e₀ : ℕ} {k₀ : Biometric} {x : Way}
    (hx : x.isOn = true) {e : ℕ} {k : Biometric} (h : (ways e k).isOn = true) :
    (Function.update ways e₀ (Function.update (ways e₀) k₀ x) e k).isOn = true := by
  by_cases he : e = e₀
  · subst he
    rw [Function.update_self]
    by_cases hk : k = k₀
    · rw [hk, Function.update_self]
      exact hx
    · rwa [Function.update_of_ne hk]
  · rwa [Function.update_of_ne he]

/-- The callback keeps its cancels on their way. -/
theorem isOn_callback {ways : ℕ → Biometric → Way} {e₀ : ℕ} {fns : List Biometric} {e : ℕ}
    {k : Biometric} (h : (ways e k).isOn = true) :
    (Function.update ways e₀ (fun k => if k ∈ fns then .waiting else ways e₀ k) e k).isOn =
      true := by
  by_cases he : e = e₀
  · subst he
    rw [Function.update_self]
    split_ifs
    · rfl
    · exact h
  · rwa [Function.update_of_ne he]

/-- What was counted is counted after every step. -/
theorem aimInv_step {act : TTYAction} {o : Unit} (h : w.AimInv) (hs : w.move act = some (w', o)) :
    w'.AimInv := by
  obtain ⟨-, hs⟩ := Option.ite_none_left_eq_some.mp hs
  obtain ⟨hw₂, rfl⟩ := observed_eq_some.mp hs
  cases act with
  | newManager env sender refFlag =>
      obtain ⟨hslots, haims, -⟩ := newManager_frame hw₂
      exact h.of_aims hslots haims
  | ttyChanged =>
      cases hw₂
      refine ⟨h.counted, ?_⟩
      intro e a ha
      by_cases he : e = w.events
      · subst he
        have hself : a ∈ Function.update w.aims w.events w.verifying w.events := ha
        rw [Function.update_self] at hself
        obtain ⟨tx, hi, -, hrun⟩ := hself
        exact ⟨tx, hi, h.counted _ tx _ hi hrun⟩
      · have hother : a ∈ Function.update w.aims w.events w.verifying e := ha
        rw [Function.update_of_ne he] at hother
        exact h.aimed e a hother
  | callback e =>
      obtain ⟨fns, -, rfl⟩ := Option.map_eq_some_iff.mp hw₂
      exact h.of_aims rfl rfl
  | delete =>
      obtain ⟨-, heq⟩ := Option.ite_none_right_eq_some.mp hw₂
      cases heq
      exact h.of_aims rfl rfl
  | cancelLast k e =>
      obtain ⟨-, hs⟩ := Option.ite_none_right_eq_some.mp hw₂
      obtain ⟨⟨slots', o⟩, hmove, rfl⟩ := Option.map_eq_some_iff.mp hs
      exact h.slot hmove rfl rfl
  | slot a =>
      obtain ⟨-, hs⟩ := Option.ite_none_right_eq_some.mp hw₂
      obtain ⟨⟨slots', o⟩, hmove, rfl⟩ := Option.map_eq_some_iff.mp hs
      exact h.slot hmove rfl (w.looked_frame a).2

/-- **A switch of the terminal**: what verifies is served where there is a callback for it. -/
theorem prompt_ttyChanged (h : w.Prompt) :
    w.ttyChanged.Prompt ↔ ∀ i tx n, w.slots.txs i = some tx → tx.Running n → ¬ tx.Told n →
      tx.kind ≠ .camera .face ∧
        (tx.kind = .fingerprint → ∃ fns, w.task = some fns ∧ .fingerprint ∈ fns) := by
  have hnew : w.ttyChanged.ways w.events =
      fun k => if k ∈ w.task.getD [] then .callback else .absent := Function.update_self ..
  have hon : ∀ k, (w.ttyChanged.ways w.events k).isOn = true ↔ k ∈ w.task.getD [] := by
    intro k
    rw [hnew]
    dsimp only
    split_ifs with hk
    · exact iff_of_true rfl hk
    · exact iff_of_false (fun h => by cases h) hk
  have hmem : ∀ k, k ∈ w.task.getD [] ↔ ∃ fns, w.task = some fns ∧ k ∈ fns := by
    intro k
    rcases w.task with _ | fns
    · exact iff_of_false List.not_mem_nil fun ⟨_, hnone, _⟩ => by cases hnone
    · exact ⟨fun hk => ⟨fns, rfl, hk⟩, fun ⟨_, hsome, hk⟩ => Option.some.inj hsome ▸ hk⟩
  have haims : w.ttyChanged.aims w.events = w.verifying := Function.update_self ..
  constructor
  · intro hp i tx n hi hrun htold
    have hserved : tx.kind = .fingerprint ∨ tx.kind = .camera .face →
        (w.ttyChanged.ways w.events tx.kind).isOn = true ∧ ¬ tx.HoldsLock := by
      intro hk
      have ha : (⟨i, n⟩ : Aim) ∈ w.ttyChanged.aims w.events := haims ▸ ⟨tx, hi, hk, hrun⟩
      exact (hp w.events ⟨i, n⟩ ha tx hi).resolve_left fun hover => htold (hover hrun)
    constructor
    · intro hface
      -- the cancel of a face would have to wait for the attempt that has the lock
      have hnot : tx.kind ≠ .fingerprint := by rw [hface]; rintro ⟨⟩
      exact htold (BioTx.over_of_camera hnot (hserved (.inr hface)).2 hrun)
    · intro hfinger
      have hmem' := (hon _).mp (hserved (.inl hfinger)).1
      rw [hfinger] at hmem'
      exact (hmem _).mp hmem'
  · intro hc e a ha tx hi
    by_cases he : e = w.events
    · subst he
      by_cases hover : tx.Over a.n
      · exact .inl hover
      · rw [haims] at ha
        obtain ⟨tx', hi', hk, hrun⟩ := ha
        cases hi.symm.trans hi'
        have htold : ¬ tx.Told a.n := fun htold => hover fun _ => htold
        obtain ⟨hface, hfinger⟩ := hc a.i tx a.n hi hrun htold
        have hkind := hk.resolve_right hface
        rw [hon, hmem, hkind]
        exact .inr ⟨hfinger hkind, BioTx.not_holdsLock hkind⟩
    · have hold : a ∈ w.aims e := by
        have hother : a ∈ Function.update w.aims w.events w.verifying e := ha
        rwa [Function.update_of_ne he] at hother
      have hways : w.ttyChanged.ways e = w.ways e := Function.update_of_ne he ..
      rw [hways]
      exact h e a hold tx hi

/-- **A look at the slot**: where a cancel looks, the attempts of its switch are told to quit where
it finds them there. -/
theorem prompt_endLast (hinv : w.AimInv) (h : w.Prompt) {k : Biometric} {slots' : SlotState}
    {o : Option EndReturn} (hs : w.slots.move (.endLast k) = some (slots', o))
    (hlock : w.slots.locks k = some (.cancel .entered)) :
    Prompt { w.looked (.endLast k) with slots := slots' } ↔
      ∀ a ∈ w.aims (w.held k), ∀ tx, w.slots.txs a.i = some tx → tx.kind = k →
        tx.Running a.n → ¬ tx.Told a.n → w.slots.slots k = some a.i ∧ tx.QuitsOn a.n := by
  have hways : ∀ e k', (e = w.held k ∧ k' = k) ∨
      (w.looked (.endLast k)).ways e k' = w.ways e k' := by
    intro e k'
    simp only [looked, if_pos hlock]
    by_cases he : e = w.held k
    · subst he
      rw [Function.update_self]
      by_cases hk : k' = k
      · exact .inl ⟨rfl, hk⟩
      · exact .inr (Function.update_of_ne hk ..)
    · rw [Function.update_of_ne he]
      exact .inr rfl
  have hdone : (w.looked (.endLast k)).ways (w.held k) k = .done := by
    simp only [looked, if_pos hlock, Function.update_self]
  have haims := (w.looked_frame (.endLast k)).2
  -- a camera that a switch was to end is over, so that the look is about fingerprints
  have hfinger : ∀ a ∈ w.aims (w.held k), ∀ tx, w.slots.txs a.i = some tx → tx.Running a.n →
      ¬ tx.Told a.n → tx.kind = .fingerprint := by
    intro a ha tx hi hrun htold
    by_contra hk
    rcases h _ a ha tx hi with hover | ⟨-, hfree⟩
    · exact htold (hover hrun)
    · exact htold (BioTx.over_of_camera hk hfree hrun)
  -- what the look does to an attempt that verifies and is not told
  have htells : ∀ a ∈ w.aims (w.held k), ∀ tx, w.slots.txs a.i = some tx → tx.Running a.n →
      ¬ tx.Told a.n → ∃ tx', slots'.txs a.i = some tx' ∧ tx'.kind = tx.kind ∧
        (tx'.Over a.n ↔ w.slots.slots k = some a.i ∧ tx.QuitsOn a.n) := by
    intro a ha tx hi hrun htold
    obtain ⟨-, hs⟩ := Option.ite_none_left_eq_some.mp hs
    obtain ⟨hw₂, rfl⟩ := observed_eq_some.mp hs
    exact endLast_over hw₂ hlock hi (hfinger a ha tx hi hrun htold) hrun htold
  constructor
  · intro hp a ha tx hi hk hrun htold
    obtain ⟨tx', hi', hk', hiff⟩ := htells a ha tx hi hrun htold
    rcases hp (w.held k) a (haims ▸ ha) tx' hi' with hover | ⟨hon, -⟩
    · exact hiff.mp hover
    · rw [hk', hk] at hon
      have hoff : Way.isOn ((w.looked (.endLast k)).ways (w.held k) k) = true := hon
      rw [hdone] at hoff
      cases hoff
  · intro hc e a ha
    have ha' : a ∈ w.aims e := haims ▸ ha
    obtain ⟨tx, hi, hle⟩ := hinv.aimed e a ha'
    by_cases haim : e = w.held k ∧ tx.kind = k ∧ tx.Running a.n ∧ ¬ tx.Told a.n
    · obtain ⟨rfl, hk, hrun, htold⟩ := haim
      intro tx' hi'
      obtain ⟨tx'', hi'', -, hiff⟩ := htells a ha' tx hi hrun htold
      obtain rfl : tx'' = tx' := Option.some.inj (hi''.symm.trans hi')
      exact .inl (hiff.mpr (hc a ha' tx hi hk hrun htold))
    · refine (h e a ha').slot hinv ha' hs rfl ?_
      intro tx₀ hi₀ hover hon
      obtain rfl : tx₀ = tx := Option.some.inj (hi₀.symm.trans hi)
      rcases hways e tx₀.kind with ⟨he, hk⟩ | hsame
      · refine absurd ⟨he, hk, ?_⟩ haim
        exact ⟨by_contra fun hrun => hover fun h => absurd h hrun,
          fun htold => hover fun _ => htold⟩
      · show ((w.looked (.endLast k)).ways e tx₀.kind).isOn = true
        rwa [hsame]

/-- **One step** keeps every switch served exactly where it cancels what it is to cancel. -/
theorem prompt_step {act : TTYAction} {o : Unit} (hinv : w.AimInv) (h : w.Prompt)
    (hs : w.move act = some (w', o)) : w'.Prompt ↔ w.Cancels act := by
  have hcan : w.move act ≠ none := by rw [hs]; rintro ⟨⟩
  obtain ⟨-, hs⟩ := Option.ite_none_left_eq_some.mp hs
  obtain ⟨hw₂, rfl⟩ := observed_eq_some.mp hs
  cases act with
  | newManager env sender refFlag =>
      obtain ⟨hslots, haims, hways⟩ := newManager_frame hw₂
      refine iff_of_true (h.of_ways hslots haims ?_) fun _ => trivial
      intro e k hon
      rwa [hways]
  | ttyChanged =>
      cases hw₂
      rw [prompt_ttyChanged h]
      exact ⟨fun hc _ => hc, fun hc => hc hcan⟩
  | callback e =>
      obtain ⟨fns, -, rfl⟩ := Option.map_eq_some_iff.mp hw₂
      exact iff_of_true (h.of_ways rfl rfl fun e' k hon => isOn_callback hon) fun _ => trivial
  | delete =>
      obtain ⟨-, heq⟩ := Option.ite_none_right_eq_some.mp hw₂
      cases heq
      exact iff_of_true (h.of_ways rfl rfl fun _ _ hon => hon) fun _ => trivial
  | cancelLast k e =>
      obtain ⟨-, hs⟩ := Option.ite_none_right_eq_some.mp hw₂
      obtain ⟨⟨slots', o⟩, hmove, rfl⟩ := Option.map_eq_some_iff.mp hs
      refine iff_of_true ?_ fun _ => trivial
      intro e' a ha
      exact (h e' a ha).slot hinv ha hmove rfl fun _ _ _ hon => isOn_update rfl hon
  | slot a =>
      obtain ⟨-, hs⟩ := Option.ite_none_right_eq_some.mp hw₂
      obtain ⟨⟨slots', o⟩, hmove, rfl⟩ := Option.map_eq_some_iff.mp hs
      have hquiet : (w.looked a).ways = w.ways →
          Prompt { w.looked a with slots := slots' } := by
        intro hways e b hb
        rw [show ({ w.looked a with slots := slots' } : TTYState).aims = w.aims from
          (w.looked_frame a).2] at hb
        refine (h e b hb).slot hinv hb hmove rfl ?_
        intro _ _ _ hon
        show ((w.looked a).ways _ _).isOn = true
        rwa [hways]
      by_cases hlook : ∃ k, a = .endLast k ∧ w.slots.locks k = some (.cancel .entered)
      · obtain ⟨k, rfl, hlock⟩ := hlook
        rw [prompt_endLast hinv h hmove hlock]
        exact ⟨fun hc _ _ => hc, fun hc => hc hcan hlock⟩
      · have hways := looked_ways fun k heq hlock => hlook ⟨k, heq, hlock⟩
        refine iff_of_true (hquiet hways) ?_
        intro _
        split
        · next heq => cases heq
        · next k heq =>
            cases heq
            exact fun hlock => absurd ⟨k, rfl, hlock⟩ hlook
        · trivial

/-! ## Whole runs -/

/-- **When every switch of the terminal cancels what verifies**: over every run of any number of
sessions, exactly where the switches find their callbacks and the cancels their attempts. -/
theorem tty_cancels (acts : List TTYAction) :
    (∀ cs t os, cs <+: acts → run move init cs = some (t, os) → t.Prompt) ↔
      Along move Cancels init acts := by
  refine reached_iff_along (fun _ _ _ _ hinv hs => aimInv_step hinv hs)
    (fun _ _ _ _ hinv h hs => prompt_step hinv h hs) (fun _ _ hs hcan => absurd hs hcan) ?_ ?_ acts
  · constructor
    · rintro i tx n ⟨⟩
    · rintro e a ⟨⟩
  · rintro e a ⟨⟩

/-- The session of two factors, whose client has asked for the password only: its fingerprint
verifies, and no thread comes for it. -/
theorem multiFactor_not_cancelled :
    ¬ ∀ acts t os, run move init acts = some (t, os) → t.Prompt := by
  intro h
  have hprompt := h [.newManager InitManager.twoFactorEnv ":1.7" 1,
    .slot (.create 1 .fingerprint .unlock), .slot (.tx 1 (.fingerprint .start)),
    .slot (.lockStart 1), .slot (.endLast .fingerprint), .slot (.writeSlot .fingerprint),
    .slot (.claim none), .ttyChanged] _ _ rfl
  rcases hprompt 0 ⟨1, 1⟩ ⟨_, rfl, .inl rfl, rfl⟩ _ rfl with hover | ⟨hon, -⟩
  · have htold : false = true := hover rfl
    cases htold
  · have hon' : Way.isOn .absent = true := hon
    cases hon'

end TTYState

end LingmoAuthenticate.Session
